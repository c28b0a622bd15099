import Xelt.Boringtun.Device.Indices

/-!
# Dispatch by index

The device together with the handshake of every peer object it has made. A
handshake starts at the index of its peer shifted by a byte and counts in that
byte, so what it issues stays below the index of the peer for ever, and a
packet that carries it is found to be for that peer as long as it is present.
-/

namespace Xelt.Boringtun

open Bytes Noise Payment Runs IndexLfsr

-- ---------------------------------------------------------------------------
-- What a handshake issues
-- ---------------------------------------------------------------------------

theorem toNat_shift_byte (i : UInt32) : (i >>> 8).toNat = i.toNat / 256 := by
  rw [UInt32.toNat_shiftRight]
  exact Nat.shiftRight_eq_div_pow i.toNat 8

namespace Noise.Crypto

theorem Handshake.incIndex_shift (i : UInt32) : Handshake.incIndex i >>> 8 = i >>> 8 := by
  apply UInt32.toNat_inj.mp
  rw [toNat_shift_byte, toNat_shift_byte, incIndex_upper]

namespace HandshakeEnd

/-- The local indices of the initiations an end sent and of the responses. -/
def issued (e : HandshakeEnd) : List UInt32 :=
  e.initiations.map (·.2.localIndex) ++ e.responses.map (·.2.2.receivingIndex)

/-- A new private key; what was sent stays sent. -/
def setStaticPrivate (p : Primitives) (e : HandshakeEnd) (privateKey : Bytes32) : HandshakeEnd :=
  { e with handshake :=
    (e.handshake.setStaticPrivate p privateKey (p.publicKey privateKey)).getD e.handshake }

/-- All that an end issued lies below one index. -/
structure Numbered (index : UInt32) (e : HandshakeEnd) : Prop where
  next : e.handshake.nextIndex >>> 8 = index
  issued : ∀ i ∈ e.issued, i >>> 8 = index

variable {p : Primitives} {e e' : HandshakeEnd}

theorem Numbered.same {h' : Handshake} (h : Numbered index e)
    (hnext : h'.nextIndex = e.handshake.nextIndex) :
    Numbered index { e with handshake := h' } :=
  ⟨hnext ▸ h.next, h.issued⟩

theorem Numbered.initiate (h : Numbered index e) :
    Numbered index (e.initiate p dst ephemeral now) := by
  rcases Handshake.formatHandshakeInitiation_cases p e.handshake dst ephemeral now with
    hres | ⟨h', m, macs, hres, -, hi⟩
  · rw [HandshakeEnd.initiate, hres]
    exact h
  · have hnext : Handshake.incIndex e.handshake.nextIndex >>> 8 = index :=
      (Handshake.incIndex_shift _).trans h.next
    rw [HandshakeEnd.initiate, hres]
    simp only [hi.state]
    refine ⟨hi.nextIndex ▸ hnext, fun i hmem => ?_⟩
    simp only [HandshakeEnd.issued, List.map_append, List.mem_append] at hmem
    rcases hmem with (hold | hnew) | hresponse
    · exact h.issued i (List.mem_append_left _ hold)
    · obtain rfl := List.mem_singleton.mp hnew
      exact hnext
    · exact h.issued i (List.mem_append_right _ hresponse)

theorem Numbered.receive (h : Numbered index e)
    (hs : e.receive p datagram dst ephemeral now = some e') : Numbered index e' := by
  simp only [HandshakeEnd.receive] at hs
  split at hs
  · rename_i m _
    rcases Handshake.receiveHandshakeInitialization_cases p e.handshake m dst ephemeral with
      ⟨_, hres⟩ | ⟨h', _, _, hres, _, hsame, _⟩ |
      ⟨h', r, _, session, hres, _, _, hsucc, _, _, hsender, hresponds⟩
    · simp only [hres, Option.map_some, Option.some.injEq] at hs
      exact hs ▸ h
    · simp only [hres, Option.map_some, Option.some.injEq] at hs
      exact hs ▸ h.same hsame
    · have hnext : Handshake.incIndex e.handshake.nextIndex >>> 8 = index :=
        (Handshake.incIndex_shift _).trans h.next
      simp only [hres, Option.map_some, Option.some.injEq] at hs
      subst hs
      refine ⟨hsucc ▸ hnext, fun i hmem => ?_⟩
      simp only [HandshakeEnd.issued, List.map_append, List.mem_append] at hmem
      rcases hmem with hinitiation | hold | hnew
      · exact h.issued i (List.mem_append_left _ hinitiation)
      · exact h.issued i (List.mem_append_right _ hold)
      · obtain rfl := List.mem_singleton.mp hnew
        rw [← hsender] at hnext
        rw [hresponds.session]
        exact hnext
  · cases hs
    refine h.same ?_
    rename_i r _
    rcases Handshake.receiveHandshakeResponse_cases p e.handshake r now with
      ⟨_, hres⟩ | ⟨_, isPrevious, _, _, hres⟩
    · rw [hres]
    · rw [hres]
      cases isPrevious <;> rfl
  · cases hs
    refine h.same ?_
    simp only [Handshake.receiveCookieReply]
    split
    · rfl
    split
    · rfl
    split <;> rfl
  · cases hs
    exact h
  · cases hs
    exact h

theorem Numbered.step (h : Numbered index e) (hs : e.step p m = some e') : Numbered index e' := by
  cases m with
  | initiate dst ephemeral now =>
    cases hs
    exact h.initiate
  | receive datagram dst ephemeral now => exact h.receive hs
  | setExpired =>
    cases hs
    exact h.same rfl
  | clearCookie =>
    cases hs
    exact h.same rfl

theorem Numbered.rekey (h : Numbered index e) (k : Bytes32) :
    Numbered index (e.setStaticPrivate p k) := by
  refine h.same ?_
  unfold Handshake.setStaticPrivate
  split <;> rfl

end HandshakeEnd

end Noise.Crypto

-- ---------------------------------------------------------------------------
-- The device with its handshakes
-- ---------------------------------------------------------------------------

/-- The index by which a packet asks for its peer. -/
def Noise.Packet.receiverIdx : Packet → Option UInt32
  | .handshakeInit .. => none
  | .handshakeResponse receiverIdx _ => some receiverIdx
  | .cookieReply receiverIdx _ => some receiverIdx
  | .data receiverIdx _ => some receiverIdx

theorem Device.findPeer_receiverIdx (d : Device) {packet : Packet}
    (h : packet.receiverIdx = some i) :
    d.findPeer packet = d.peersByIdx.lookup (i >>> 8) := by
  cases packet <;> cases h <;> rfl

structure Handshakes where
  device : Device
  ends : PeerId → Option Crypto.HandshakeEnd

/-- An addition comes with the preshared key and the clock of the new peer. -/
inductive HandshakesMove
  | device (e : Device.Event) (psk : Option Bytes32) (stamper : Crypto.TimeStamper)
  | handshake (pid : PeerId) (move : Crypto.HandshakeMove)

namespace Handshakes

variable (prim : Primitives) (p : Crypto.Primitives)

def init (config : PaymentConfig) (nextIndex : IndexLfsr) : Handshakes where
  device := .init config nextIndex
  ends := fun _ => none

/-- `Tunn::new`, for the peer object `d` was just given. -/
def newEnd (d : Device) (pid : PeerId) (key : Bytes32) (psk : Option Bytes32)
    (stamper : Crypto.TimeStamper) : Option Crypto.HandshakeEnd :=
  match d.keyPair, d.heap pid with
  | some (privateKey, _), some peer =>
    some ⟨.new p privateKey (p.publicKey privateKey) key (peer.index <<< 8) psk stamper, [], []⟩
  | _, _ => none

/-- What an event that left the device `d` makes of the handshakes. -/
def endsAfter (x : Handshakes) (d : Device) (psk : Option Bytes32)
    (stamper : Crypto.TimeStamper) : Device.Event → PeerId → Option Crypto.HandshakeEnd
  | .updatePeer key false _ _ =>
    Function.update x.ends x.device.heapSize (newEnd p d x.device.heapSize key psk stamper)
  | .setKey k => fun pid => (x.ends pid).map fun e =>
    if x.device.keyPair.map (·.2) ≠ some (prim.x25519PublicKey k) ∧
        pid ∈ x.device.peers.entries.map (·.2) then e.setStaticPrivate p k
    else e
  | _ => x.ends

def step (x : Handshakes) : HandshakesMove → Option Handshakes
  | .device e psk stamper =>
    (x.device.step prim e).map fun d => ⟨d, x.endsAfter prim p d psk stamper e⟩
  | .handshake pid move =>
    match x.ends pid with
    | none => some x
    | some e => (e.step p move).map fun e => { x with ends := Function.update x.ends pid (some e) }

/-- Every peer object has a handshake, which stays below its index. -/
structure Numbers (d : Device) (ends : PeerId → Option Crypto.HandshakeEnd) : Prop where
  made : ∀ pid e, ends pid = some e → ∃ peer, d.heap pid = some peer
  below : ∀ pid peer, d.heap pid = some peer → ∃ e, ends pid = some e ∧ e.Numbered peer.index

variable {prim p} {d d' : Device} {ends : PeerId → Option Crypto.HandshakeEnd} {seed mask : UInt32}

theorem Numbers.maps (h : Numbers d ends) (hs : Device.SameMaps d d') : Numbers d' ends where
  made pid e he := by
    obtain ⟨peer, hp⟩ := h.made pid e he
    obtain ⟨peer', hp', _⟩ := hs.kept pid peer hp
    exact ⟨peer', hp'⟩
  below pid peer' hp' := by
    obtain ⟨peer, hp, hsame⟩ := hs.heap pid peer' hp'
    rw [hsame.index]
    exact h.below pid peer hp

theorem Numbers.map {f : PeerId → Crypto.HandshakeEnd → Crypto.HandshakeEnd}
    (h : Numbers d ends) (hf : ∀ pid e index, e.Numbered index → (f pid e).Numbered index) :
    Numbers d fun pid => (ends pid).map (f pid) where
  made pid e he := by
    obtain ⟨e, he, -⟩ := Option.map_eq_some_iff.mp he
    exact h.made pid e he
  below pid peer hp := by
    obtain ⟨e, he, hn⟩ := h.below pid peer hp
    exact ⟨f pid e, by rw [he, Option.map_some], hf pid e peer.index hn⟩

theorem Numbers.update (h : Numbers d ends) (hpid : ends pid = some e)
    (he : ∀ index, e.Numbered index → e'.Numbered index) :
    Numbers d (Function.update ends pid (some e')) := by
  constructor
  · intro target e₁ he₁
    by_cases ht : target = pid
    · exact h.made target e (ht ▸ hpid)
    · rw [Function.update_of_ne ht] at he₁
      exact h.made target e₁ he₁
  · intro target peer hp
    obtain ⟨e₁, he₁, hn⟩ := h.below target peer hp
    by_cases ht : target = pid
    · subst ht
      obtain rfl := Option.some.inj (hpid.symm.trans he₁)
      exact ⟨e', Function.update_self .., he peer.index hn⟩
    · exact ⟨e₁, by rw [Function.update_of_ne ht, he₁], hn⟩

theorem newEnd_numbered (hkey : d.keyPair.isSome) (hp : d.heap pid = some peer)
    (hlt : peer.index.toNat < 2 ^ 24) :
    ∃ e, newEnd p d pid key psk stamper = some e ∧ e.Numbered peer.index := by
  obtain ⟨⟨privateKey, publicKey⟩, hkey⟩ := Option.isSome_iff_exists.mp hkey
  refine ⟨_, by simp only [newEnd, hkey, hp]; rfl, ?_, ?_⟩
  · apply UInt32.toNat_inj.mp
    have hup : (peer.index <<< 8).toNat = peer.index.toNat * 256 := by
      rw [UInt32.toNat_shiftLeft]
      change peer.index.toNat <<< 8 % 2 ^ 32 = _
      rw [Nat.shiftLeft_eq]
      exact Nat.mod_eq_of_lt (by omega)
    change ((peer.index <<< 8) >>> 8).toNat = _
    rw [toNat_shift_byte, hup]
    exact Nat.mul_div_cancel _ (by decide)
  · intro i hi
    cases hi

theorem Numbers.adds (hseed : State seed) (hmask : mask.toNat < 2 ^ 24) (h : Numbers d ends)
    (hd : Device.Drawn seed mask d) (ha : Device.Adds d d' key ips peer) :
    Numbers d' (Function.update ends d.heapSize (newEnd p d' d.heapSize key psk stamper)) := by
  have hnew : d'.heap d.heapSize = some peer := by rw [ha.heap, Function.update_self]
  have hindex := ((hd.adds ha).index _ peer hnew).2
  have hlt : peer.index.toNat < 2 ^ 24 := hindex ▸ value_lt (iterate_state hseed _) hmask
  constructor
  · intro pid e he
    by_cases hpid : pid = d.heapSize
    · exact ⟨peer, hpid ▸ hnew⟩
    · rw [Function.update_of_ne hpid] at he
      obtain ⟨q, hq⟩ := h.made pid e he
      exact ⟨q, by rw [ha.heap, Function.update_of_ne hpid, hq]⟩
  · intro pid q hq
    by_cases hpid : pid = d.heapSize
    · subst hpid
      obtain rfl := Option.some.inj (hnew.symm.trans hq)
      rw [Function.update_self]
      exact newEnd_numbered ha.keyPair hnew hlt
    · rw [ha.heap, Function.update_of_ne hpid] at hq
      rw [Function.update_of_ne hpid]
      exact h.below pid q hq

/-- What holds of a device with its handshakes in every run. -/
structure Inv (seed mask : UInt32) (x : Handshakes) : Prop where
  drawn : Device.Drawn seed mask x.device
  indexes : Device.Indexes x.device
  numbers : Numbers x.device x.ends

variable {x x' : Handshakes}

theorem Inv.event (hseed : State seed) (hmask : mask.toNat < 2 ^ 24) (h : Inv seed mask x)
    (hs : x.device.step prim e = some d') :
    Inv seed mask ⟨d', x.endsAfter prim p d' psk stamper e⟩ := by
  obtain ⟨hd', hi'⟩ := Device.indexes_step hseed ⟨h.drawn, h.indexes⟩ hs
  refine ⟨hd', hi', ?_⟩
  rcases Device.step_maps hs with
    hsame | ⟨key, _, ips, peer, rfl, ha⟩ | ⟨key, _, _, rfl, rfl⟩ | ⟨rfl, rfl⟩
  · have hn := h.numbers.maps hsame
    cases e with
    | setKey k =>
      refine hn.map fun pid e index he => ?_
      split
      · exact he.rekey k
      · exact he
    | updatePeer key remove endpoint ips =>
      cases remove with
      | true => exact hn
      | false =>
        -- an addition makes an object more
        obtain ⟨peer, ha⟩ := Device.updatePeer_adds hs
        exact absurd (hsame.heapSize.symm.trans ha.heapSize) (Nat.ne_of_lt (Nat.lt_succ_self _))
    | _ => exact hn
  · exact h.numbers.adds hseed hmask h.drawn ha
  · refine ⟨fun pid e he => ?_, fun pid peer hp => ?_⟩
    · rw [Device.removePeer_heap]
      exact h.numbers.made pid e he
    · rw [Device.removePeer_heap] at hp
      exact h.numbers.below pid peer hp
  · exact ⟨h.numbers.made, h.numbers.below⟩

theorem Inv.kept (hseed : State seed) (hmask : mask.toNat < 2 ^ 24) (h : Inv seed mask x)
    (hs : x.step prim p i = some x') : Inv seed mask x' := by
  cases i with
  | device e psk stamper =>
    obtain ⟨d', hd', rfl⟩ := Option.map_eq_some_iff.mp hs
    exact h.event hseed hmask hd'
  | handshake pid move =>
    simp only [step] at hs
    split at hs
    · cases hs
      exact h
    · rename_i e he
      obtain ⟨e', he', rfl⟩ := Option.map_eq_some_iff.mp hs
      exact ⟨h.drawn, h.indexes, h.numbers.update he fun index hn => hn.step he'⟩

theorem inv_init (config : PaymentConfig) (seed mask : UInt32) :
    Inv seed mask (init config ⟨seed, seed, mask⟩) := by
  obtain ⟨hd, hi⟩ := Device.indexes_init config seed mask
  refine ⟨hd, hi, fun _ _ h => ?_, fun _ _ h => ?_⟩
  · cases h
  · cases h

/-- In every run, what the handshake of a present peer has issued leads to
this peer, and no two peers ever made share an index or an issued index. -/
theorem issued_dispatched (hseed : State seed) (hmask : mask.toNat < 2 ^ 24)
    (he : exec (step prim p) (init config ⟨seed, seed, mask⟩) is = some x) :
    (∀ pid, x.device.Present pid → ∃ peer e, x.device.heap pid = some peer ∧
      x.ends pid = some e ∧ ∀ i ∈ e.issued, i >>> 8 = peer.index ∧
        (∀ target, x.device.peersByIdx.lookup (i >>> 8) = some target ↔ target = pid) ∧
        ∀ packet : Packet, packet.receiverIdx = some i → x.device.findPeer packet = some pid) ∧
    (∀ pid pid' peer peer', x.device.heap pid = some peer → x.device.heap pid' = some peer' →
      peer.index = peer'.index → pid = pid') ∧
    ∀ pid pid' e e' i, x.ends pid = some e → x.ends pid' = some e' → i ∈ e.issued →
      i ∈ e'.issued → pid = pid' := by
  have h : Inv seed mask x :=
    invariant_run (fun _ _ _ hx hs => hx.kept hseed hmask hs) (inv_init config seed mask) he
  refine ⟨fun pid hpid => ?_, fun pid pid' peer peer' => h.drawn.index_inj hseed, ?_⟩
  · obtain ⟨key, hkey⟩ := hpid
    obtain ⟨peer, hp⟩ := h.indexes.live key pid hkey
    obtain ⟨e, hends, hn⟩ := h.numbers.below pid peer hp
    refine ⟨peer, e, hp, hends, fun i hi => ?_⟩
    have hidx := hn.issued i hi
    have hlookup : x.device.peersByIdx.lookup (i >>> 8) = some pid :=
      (h.indexes.byIdx _ pid).mpr ⟨⟨key, hkey⟩, peer, hp, hidx.symm⟩
    refine ⟨hidx, fun target => ?_, fun packet hpacket => ?_⟩
    · rw [hlookup, Option.some.injEq, eq_comm]
    · rw [x.device.findPeer_receiverIdx hpacket, hlookup]
  · intro pid pid' e e' i he he' hi hi'
    obtain ⟨peer, hp⟩ := h.numbers.made pid e he
    obtain ⟨peer', hp'⟩ := h.numbers.made pid' e' he'
    obtain ⟨_, hends, hn⟩ := h.numbers.below pid peer hp
    obtain ⟨_, hends', hn'⟩ := h.numbers.below pid' peer' hp'
    obtain rfl := Option.some.inj (hends.symm.trans he)
    obtain rfl := Option.some.inj (hends'.symm.trans he')
    exact h.drawn.index_inj hseed hp hp' ((hn.issued i hi).symm.trans (hn'.issued i hi'))

/-- A peer is removed and another one is added; both have initiated. -/
def sampleMoves : List HandshakesMove :=
  let stamper : Crypto.TimeStamper := ⟨10 ^ 18, 0⟩
  [.device (.setKey (beArray 32 5)) none stamper,
    .device (.updatePeer (beArray 32 7) false none []) none stamper,
    .handshake 0 (.initiate 148 (beArray 32 21) 1000),
    .device (.updatePeer (beArray 32 7) true none []) none stamper,
    .device (.updatePeer (beArray 32 9) false none []) (some (beArray 32 77)) stamper,
    .handshake 1 (.initiate 148 (beArray 32 22) 2000),
    .handshake 1 (.initiate 148 (beArray 32 23) 3000)]

def sampleStart : Handshakes := init (sampleServer samplePrimitives).paymentConfig ⟨1, 1, 5⟩

theorem sample_runs :
    (exec (step samplePrimitives Crypto.samplePrimitives) sampleStart sampleMoves).isSome := by
  decide +kernel

def sampleHandshakes : Handshakes :=
  (exec (step samplePrimitives Crypto.samplePrimitives) sampleStart sampleMoves).get sample_runs

theorem sample_state : State 1 := by
  constructor <;> decide

theorem issued_dispatched_sample : ∃ peer e, sampleHandshakes.device.heap 1 = some peer ∧
    sampleHandshakes.ends 1 = some e ∧ ∀ i ∈ e.issued, i >>> 8 = peer.index ∧
      (∀ target, sampleHandshakes.device.peersByIdx.lookup (i >>> 8) = some target ↔ target = 1) ∧
      ∀ packet : Packet, packet.receiverIdx = some i →
        sampleHandshakes.device.findPeer packet = some 1 :=
  (issued_dispatched sample_state (by decide) (Option.some_get sample_runs).symm).1 1
    ⟨beArray 32 9, by decide +kernel⟩

end Handshakes

end Xelt.Boringtun
