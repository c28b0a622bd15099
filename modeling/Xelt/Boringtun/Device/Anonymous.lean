import Xelt.Boringtun.Device.Dispatch
import Xelt.Boringtun.Noise.Timestamps

/-!
# Initiations on the anonymous socket

An initiation carries no index of its receiver. The device opens the static key
in it with its own key pair, looks the peer up by that key, and shows the
message to no other peer. The key pair is also kept in the handshake of every
peer, and a new one has to reach all of them: as long as they agree, the peer
that is found is the only one whose handshake gets past the static key.
-/

namespace Xelt.Boringtun

open Bytes Noise Payment Runs

-- ---------------------------------------------------------------------------
-- The first part of an initiation
-- ---------------------------------------------------------------------------

namespace Noise.Crypto

structure HalfHandshake where
  peerIndex : UInt32
  peerStaticPublic : Bytes32

def parseHandshakeAnon (p : Primitives) (staticPrivate staticPublic : Bytes32)
    (packet : HandshakeInit) : Except WireGuardError HalfHandshake :=
  let peerIndex := packet.senderIdx
  let chainingKey := initialChainKey
  let hash := initialChainHash
  let hash := p.b2sHash hash staticPublic
  let peerEphemeralPublic := packet.unencryptedEphemeral
  let hash := p.b2sHash hash peerEphemeralPublic
  let chainingKey := p.b2sHmac (p.b2sHmac chainingKey peerEphemeralPublic) [0x01]
  let ephemeralShared := p.diffieHellman staticPrivate peerEphemeralPublic
  let temp := p.b2sHmac chainingKey ephemeralShared
  let chainingKey := p.b2sHmac temp [0x01]
  let key := p.b2sHmac2 temp chainingKey [0x02]
  match p.aeadChacha20Open key 0 packet.encryptedStatic hash with
  | none => .error .invalidAeadTag
  | some peerStaticPublic => .ok ⟨peerIndex, peerStaticPublic⟩

/-- It opens what the handshake of a peer opens, with the same key pair. -/
theorem parseHandshakeAnon_ok (p : Primitives) (params : NoiseParams) (m : HandshakeInit)
    (hh : HalfHandshake) :
    parseHandshakeAnon p params.staticPrivate params.staticPublic m = .ok hh ↔
      Handshake.openStatic p params m = some hh.peerStaticPublic ∧ hh.peerIndex = m.senderIdx := by
  simp only [parseHandshakeAnon]
  obtain ⟨index, key⟩ := hh
  split
  · rename_i hopen
    have hnone : Handshake.openStatic p params m = none := hopen
    simp [hnone]
  · rename_i static hopen
    have hsome : Handshake.openStatic p params m = some static := hopen
    simp [hsome, and_comm, eq_comm]

namespace Handshake

theorem receive_otherKey (h : Handshake) (m : HandshakeInit) (dst : Nat) (ephemeral : Bytes32)
    (hkey : openStatic p h.params m ≠ some h.params.peerStaticPublic) :
    ∃ e, h.receiveHandshakeInitialization p m dst ephemeral = some (h, .error e) :=
  receive_unchecked h m dst ephemeral (if_neg hkey)

theorem receive_ownKey (h : Handshake) (m : HandshakeInit) (dst : Nat) (ephemeral : Bytes32)
    (hkey : openStatic p h.params m = some h.params.peerStaticPublic) (h' : Handshake) :
    h.receiveHandshakeInitialization p m dst ephemeral ≠ some (h', .error .wrongKey) := by
  rw [receiveHandshakeInitialization_eq, hkey]
  simp only [ne_eq, not_true_eq_false, if_false]
  cases openStamp p h.params m with
  | none => simp
  | some stamp =>
    by_cases hafter : (Tai64N.parse stamp).after h.lastHandshakeTimestamp = true
    · simp only [hafter, Bool.not_true, Bool.false_eq_true, if_false, received,
        formatHandshakeResponse]
      split <;> simp
    · simp [hafter]

end Handshake

namespace HandshakeEnd

variable {p : Primitives} {e e' : HandshakeEnd}

theorem params_initiate (e : HandshakeEnd) :
    (e.initiate p dst ephemeral now).handshake.params = e.handshake.params := by
  have hparams := (Handshake.settled_initiation p e.handshake dst ephemeral now).params
  unfold initiate
  split
  · rename_i hres
    rwa [hres] at hparams
  · rename_i hres
    rw [hres] at hparams
    split <;> exact hparams

theorem params_receive (hs : e.receive p datagram dst ephemeral now = some e') :
    e'.handshake.params = e.handshake.params := by
  simp only [receive] at hs
  split at hs
  · rename_i m _
    rcases Handshake.receiveHandshakeInitialization_cases p e.handshake m dst ephemeral with
      ⟨_, hres⟩ | ⟨h', _, _, hres, hparams, -⟩ | ⟨h', _, _, _, hres, -, hparams, -⟩
    · simp only [hres, Option.map_some, Option.some.injEq] at hs
      rw [← hs]
    · simp only [hres, Option.map_some, Option.some.injEq] at hs
      rw [← hs, hparams]
    · simp only [hres, Option.map_some, Option.some.injEq] at hs
      rw [← hs, hparams]
  · cases hs
    exact (Handshake.settled_response ..).params
  · cases hs
    exact (Handshake.settled_cookieReply ..).params
  · cases hs
    rfl
  · cases hs
    rfl

/-- The handshakes of a run keep the keys they were made or rekeyed with. -/
theorem params_step (hs : e.step p m = some e') :
    e'.handshake.params = e.handshake.params := by
  cases m with
  | initiate dst ephemeral now =>
    cases hs
    exact params_initiate e
  | receive datagram dst ephemeral now => exact params_receive hs
  | setExpired =>
    cases hs
    rfl
  | clearCookie =>
    cases hs
    rfl

theorem receive_initiation {m : HandshakeInit}
    (hparse : parseIncomingPacket datagram = .ok (.handshakeInit m))
    (hres : e.handshake.receiveHandshakeInitialization p m dst ephemeral =
      some (e.handshake, .error err)) : e.receive p datagram dst ephemeral now = some e := by
  simp only [receive, hparse, hres, Option.map_some]

end HandshakeEnd

end Noise.Crypto

-- ---------------------------------------------------------------------------
-- The key pair of the device
-- ---------------------------------------------------------------------------

open Crypto

namespace Device

/-- The peer an initiation is for; without a key pair the handler has panicked. -/
def findInitiation (p : Crypto.Primitives) (d : Device) (m : HandshakeInit) : Option PeerId :=
  match d.keyPair with
  | none => none
  | some (privateKey, publicKey) =>
    match parseHandshakeAnon p privateKey publicKey m with
    | .ok hh => d.peers.lookup hh.peerStaticPublic
    | .error _ => none

theorem removePeer_same (d : Device) (key : Bytes32) :
    (d.removePeer key).keyPair = d.keyPair ∧ (d.removePeer key).heapSize = d.heapSize := by
  unfold removePeer
  split <;> exact ⟨rfl, rfl⟩

theorem keyPair_step {d d' : Device} (hs : d.step prim e = some d') (hne : ∀ k, e ≠ .setKey k) :
    d'.keyPair = d.keyPair := by
  cases e with
  | setKey k => exact absurd rfl (hne k)
  | updatePeer key remove endpoint ips =>
    simp only [step, updatePeer] at hs
    split at hs
    · cases hs
      exact (removePeer_same d key).1
    split at hs
    · cases hs
    split at hs <;> cases hs
    rfl
  | clearPeers =>
    cases hs
    rfl
  | _ =>
    simp only [step] at hs
    split at hs <;> cases hs
    · rfl
    · unfold handle
      split <;> rfl

end Device

namespace Handshakes

variable {prim : Payment.Primitives} {p : Crypto.Primitives} {x x' : Handshakes} {d' : Device}

/-- What a handshake with the peer `key` is configured with. -/
structure Configured (p : Crypto.Primitives) (privateKey key : Bytes32) (e : HandshakeEnd) :
    Prop where
  staticPrivate : e.handshake.params.staticPrivate = privateKey
  staticPublic : e.handshake.params.staticPublic = p.publicKey privateKey
  peerStaticPublic : e.handshake.params.peerStaticPublic = key

theorem Configured.congr {e e' : HandshakeEnd} (h : Configured p privateKey key e)
    (hparams : e'.handshake.params = e.handshake.params) : Configured p privateKey key e' :=
  ⟨hparams ▸ h.staticPrivate, hparams ▸ h.staticPublic, hparams ▸ h.peerStaticPublic⟩

theorem Configured.rekey {e : HandshakeEnd} (h : Configured p privateKey key e) (k : Bytes32) :
    Configured p k key (e.setStaticPrivate p k) := by
  constructor <;>
    simp [HandshakeEnd.setStaticPrivate, Handshake.setStaticPrivate, h.peerStaticPublic]

/-- Every peer in the table has a handshake with the key pair of the device and
the key it stands under. -/
structure Keyed (p : Crypto.Primitives) (x : Handshakes) : Prop where
  own : ∀ k publicKey, x.device.keyPair = some (k, publicKey) → publicKey = p.publicKey k
  made : ∀ key pid, x.device.peers.lookup key = some pid → pid < x.device.heapSize
  configured : ∀ key pid, x.device.peers.lookup key = some pid → ∃ e k,
    x.ends pid = some e ∧ x.device.keyPair = some (k, p.publicKey k) ∧ Configured p k key e

/-- Peers may leave the table. -/
theorem Keyed.shrink (h : Keyed p x) (hkey : d'.keyPair = x.device.keyPair)
    (hsize : d'.heapSize = x.device.heapSize)
    (hpeers : ∀ key pid, d'.peers.lookup key = some pid → x.device.peers.lookup key = some pid) :
    Keyed p ⟨d', x.ends⟩ where
  own k publicKey hk := h.own k publicKey (hkey ▸ hk)
  made key pid hp := hsize.symm ▸ h.made key pid (hpeers key pid hp)
  configured key pid hp := hkey.symm ▸ h.configured key pid (hpeers key pid hp)

theorem Keyed.adds (h : Keyed p x)
    (hkey : d'.keyPair = x.device.keyPair) (ha : Device.Adds x.device d' key ips peer) :
    Keyed p ⟨d', Function.update x.ends x.device.heapSize
      (newEnd p d' x.device.heapSize key psk stamper)⟩ := by
  refine ⟨fun k publicKey hk => h.own k publicKey (hkey ▸ hk), fun k pid hk => ?_,
    fun k pid hk => ?_⟩
  · change d'.peers.lookup k = some pid at hk
    rw [ha.peers] at hk
    change pid < d'.heapSize
    rw [ha.heapSize]
    by_cases hsame : k = key
    · rw [hsame, AList.lookup_insert] at hk
      obtain rfl := Option.some.inj hk
      exact Nat.lt_succ_self _
    · rw [AList.lookup_insert_ne hsame] at hk
      exact Nat.lt_succ_of_lt (h.made k pid hk)
  · change d'.peers.lookup k = some pid at hk
    rw [ha.peers] at hk
    by_cases hsame : k = key
    · rw [hsame, AList.lookup_insert] at hk
      obtain rfl := Option.some.inj hk
      obtain ⟨⟨privateKey, publicKey⟩, hpair⟩ := Option.isSome_iff_exists.mp ha.keyPair
      obtain rfl := h.own privateKey publicKey (hkey ▸ hpair)
      have hheap : d'.heap x.device.heapSize = some peer := by
        rw [ha.heap, Function.update_self]
      refine ⟨_, privateKey, by simp only [Function.update_self, newEnd, hpair, hheap]; rfl,
        hpair, ?_⟩
      rw [hsame]
      exact ⟨rfl, rfl, rfl⟩
    · rw [AList.lookup_insert_ne hsame] at hk
      obtain ⟨e, privateKey, hend, hpair, hconfigured⟩ := h.configured k pid hk
      exact ⟨e, privateKey,
        (Function.update_of_ne (Nat.ne_of_lt (h.made k pid hk)) ..).trans hend,
        hkey.trans hpair, hconfigured⟩

/-- A new key reaches every peer in the table. -/
theorem Keyed.setKey (hprim : ∀ k, prim.x25519PublicKey k = p.publicKey k) (h : Keyed p x)
    (k : Bytes32) : Keyed p ⟨x.device.setKey prim k,
      x.endsAfter prim p (x.device.setKey prim k) psk stamper (.setKey k)⟩ := by
  by_cases hsame : x.device.keyPair.map (·.2) = some (prim.x25519PublicKey k)
  · have hdevice : x.device.setKey prim k = x.device := if_pos hsame
    have hends : x.endsAfter prim p x.device psk stamper (.setKey k) = x.ends := by
      funext pid
      simp [endsAfter, hsame]
    rw [hdevice, hends]
    exact h
  · have hmaps := Device.setKey_same prim x.device k
    have hpair : (x.device.setKey prim k).keyPair = some (k, p.publicKey k) := by
      rw [Device.setKey, if_neg hsame, hprim]
    refine ⟨fun k' publicKey hk => ?_, fun key pid hk => ?_, fun key pid hk => ?_⟩
    · rw [hpair] at hk
      obtain ⟨rfl, rfl⟩ := Prod.mk.inj (Option.some.inj hk)
      rfl
    · change pid < (x.device.setKey prim k).heapSize
      rw [hmaps.heapSize]
      exact h.made key pid (hmaps.peers ▸ hk)
    · have hold : x.device.peers.lookup key = some pid := hmaps.peers ▸ hk
      obtain ⟨e, k', he, -, hconfigured⟩ := h.configured key pid hold
      have hmem : pid ∈ x.device.peers.entries.map (·.2) :=
        List.mem_map.mpr ⟨⟨key, pid⟩, AList.mem_lookup_iff.mp hold, rfl⟩
      refine ⟨e.setStaticPrivate p k, k, ?_, hpair, hconfigured.rekey k⟩
      simp only [endsAfter, he, Option.map_some, if_pos (And.intro hsame hmem)]

theorem Keyed.event (hprim : ∀ k, prim.x25519PublicKey k = p.publicKey k) (h : Keyed p x)
    (hs : x.device.step prim e = some d') :
    Keyed p ⟨d', x.endsAfter prim p d' psk stamper e⟩ := by
  rcases Device.step_maps hs with
    hsame | ⟨key, _, ips, peer, rfl, ha⟩ | ⟨key, _, _, rfl, rfl⟩ | ⟨rfl, rfl⟩
  · have hkept (hkey : d'.keyPair = x.device.keyPair) : Keyed p ⟨d', x.ends⟩ :=
      h.shrink hkey hsame.heapSize fun key pid hp => hsame.peers ▸ hp
    cases e with
    | setKey k =>
      cases hs
      exact h.setKey hprim k
    | updatePeer key remove endpoint ips =>
      cases remove with
      | true => exact hkept (Device.keyPair_step hs nofun)
      | false =>
        -- an addition makes an object more
        obtain ⟨peer, ha⟩ := Device.updatePeer_adds hs
        exact absurd (hsame.heapSize.symm.trans ha.heapSize) (Nat.ne_of_lt (Nat.lt_succ_self _))
    | _ => exact hkept (Device.keyPair_step hs nofun)
  · exact h.adds (Device.keyPair_step hs nofun) ha
  · obtain ⟨hkey, hsize⟩ := Device.removePeer_same x.device key
    refine h.shrink hkey hsize fun k pid hk => ?_
    rw [Device.removePeer_lookup] at hk
    split at hk
    · cases hk
    · exact hk
  · exact h.shrink rfl rfl fun k pid hk => by cases hk

theorem Keyed.kept (hprim : ∀ k, prim.x25519PublicKey k = p.publicKey k) (h : Keyed p x)
    (hs : x.step prim p i = some x') : Keyed p x' := by
  cases i with
  | device e psk stamper =>
    obtain ⟨d', hd', rfl⟩ := Option.map_eq_some_iff.mp hs
    exact h.event hprim hd'
  | handshake pid move =>
    simp only [Handshakes.step] at hs
    split at hs
    · cases hs
      exact h
    · rename_i e he
      obtain ⟨e', he', rfl⟩ := Option.map_eq_some_iff.mp hs
      refine ⟨h.own, h.made, fun key target hk => ?_⟩
      by_cases ht : target = pid
      · subst ht
        obtain ⟨e₁, k, he₁, hpair, hconfigured⟩ := h.configured key target hk
        obtain rfl := Option.some.inj (he.symm.trans he₁)
        exact ⟨e', k, Function.update_self .., hpair,
          hconfigured.congr (HandshakeEnd.params_step he')⟩
      · obtain ⟨e₁, k, he₁, hpair, hconfigured⟩ := h.configured key target hk
        exact ⟨e₁, k, (Function.update_of_ne ht ..).trans he₁, hpair, hconfigured⟩

theorem keyed_init (config : PaymentConfig) (nextIndex : IndexLfsr) :
    Keyed p (init config nextIndex) := by
  refine ⟨fun _ _ hk => ?_, fun _ _ hk => ?_, fun _ _ hk => ?_⟩ <;> cases hk

-- ---------------------------------------------------------------------------
-- Who is shown an initiation
-- ---------------------------------------------------------------------------

/-- The peer that is found is the one whose key the initiation carries. -/
theorem Keyed.found_iff (h : Keyed p x) (m : HandshakeInit) (hpid : x.device.Present pid) :
    ∃ e, x.ends pid = some e ∧ (x.device.findInitiation p m = some pid ↔
      Handshake.openStatic p e.handshake.params m = some e.handshake.params.peerStaticPublic) := by
  obtain ⟨key, hk⟩ := hpid
  obtain ⟨e, k, he, hpair, hconfigured⟩ := h.configured key pid hk
  have hparse := parseHandshakeAnon_ok p e.handshake.params m
  rw [hconfigured.staticPrivate, hconfigured.staticPublic] at hparse
  refine ⟨e, he, ?_⟩
  simp only [Device.findInitiation, hpair]
  constructor
  · intro hfound
    split at hfound
    · rename_i hh hok
      obtain ⟨e₁, k₁, he₁, -, hconfigured₁⟩ := h.configured _ pid hfound
      obtain rfl := Option.some.inj (he.symm.trans he₁)
      rw [hconfigured₁.peerStaticPublic]
      exact ((hparse hh).mp hok).1
    · cases hfound
  · intro hopen
    rw [(hparse ⟨m.senderIdx, key⟩).mpr ⟨hconfigured.peerStaticPublic ▸ hopen, rfl⟩]
    exact hk

/-- A datagram is shown to the handshake of a peer. -/
def shown (datagram : Bytes) (dst : Nat) (ephemeral : PeerId → Bytes32) (now : Nat)
    (pid : PeerId) : HandshakesMove :=
  .handshake pid (.receive datagram dst (ephemeral pid) now)

theorem Keyed.skip (h : Keyed p x) {m : HandshakeInit}
    (hparse : parseIncomingPacket datagram = .ok (.handshakeInit m))
    (hpid : x.device.Present pid) (hother : x.device.findInitiation p m ≠ some pid) :
    x.step prim p (shown datagram dst ephemeral now pid) = some x := by
  obtain ⟨e, he, hfound⟩ := h.found_iff m hpid
  obtain ⟨err, hres⟩ := Handshake.receive_otherKey e.handshake m dst (ephemeral pid)
    (mt hfound.mpr hother)
  have hstays : e.step p (.receive datagram dst (ephemeral pid) now) = some e :=
    HandshakeEnd.receive_initiation hparse hres
  simp only [shown, Handshakes.step, he, hstays, Option.map_some]
  rw [← he, Function.update_eq_self]

theorem device_shown (hs : x.step prim p (.handshake pid move) = some x') :
    x'.device = x.device := by
  simp only [Handshakes.step] at hs
  split at hs
  · cases hs
    rfl
  · obtain ⟨e, -, rfl⟩ := Option.map_eq_some_iff.mp hs
    rfl

theorem Keyed.shown_all (hprim : ∀ k, prim.x25519PublicKey k = p.publicKey k) (h : Keyed p x)
    {m : HandshakeInit} (hparse : parseIncomingPacket datagram = .ok (.handshakeInit m))
    (dst : Nat) (ephemeral : PeerId → Bytes32) (now : Nat) (pids : List PeerId)
    (hpids : ∀ pid ∈ pids, x.device.Present pid) :
    exec (step prim p) x (pids.map (shown datagram dst ephemeral now)) =
      exec (step prim p) x ((pids.filter fun pid => x.device.findInitiation p m = some pid).map
        (shown datagram dst ephemeral now)) := by
  induction pids generalizing x with
  | nil => rfl
  | cons pid pids ih =>
    have hpid := hpids pid List.mem_cons_self
    have hrest : ∀ target ∈ pids, x.device.Present target :=
      fun target ht => hpids target (List.mem_cons_of_mem _ ht)
    by_cases hfound : x.device.findInitiation p m = some pid
    · rw [List.filter_cons_of_pos (by simpa using hfound), List.map_cons, List.map_cons,
        exec_cons, exec_cons]
      cases hs : x.step prim p (shown datagram dst ephemeral now pid) with
      | none => rfl
      | some x' =>
        have hdevice := device_shown hs
        have hx' := ih (h.kept hprim hs) (hdevice ▸ hrest)
        rw [hdevice] at hx'
        exact hx'
    · rw [List.filter_cons_of_neg (by simpa using hfound), List.map_cons, exec_cons,
        h.skip hparse hpid hfound]
      exact ih h hrest

/-- In every run, showing an initiation to peers of the device one after the
other comes to showing it to the peer that is found for it, whatever the order:
nobody else keeps anything of it or answers. And the peer that is found does
not take it for another peer's. -/
theorem initiation_dispatched (hprim : ∀ k, prim.x25519PublicKey k = p.publicKey k)
    {config : PaymentConfig} {nextIndex : IndexLfsr} {ms : List HandshakesMove}
    (he : exec (step prim p) (init config nextIndex) ms = some x) {m : HandshakeInit}
    (hparse : parseIncomingPacket datagram = .ok (.handshakeInit m))
    (dst : Nat) (ephemeral : PeerId → Bytes32) (now : Nat) :
    (∀ pids : List PeerId, (∀ pid ∈ pids, x.device.Present pid) →
      exec (step prim p) x (pids.map (shown datagram dst ephemeral now)) =
        exec (step prim p) x ((pids.filter fun pid => x.device.findInitiation p m = some pid).map
          (shown datagram dst ephemeral now))) ∧
    ∀ pid, x.device.findInitiation p m = some pid → ∃ e, x.ends pid = some e ∧
      ∀ h', e.handshake.receiveHandshakeInitialization p m dst (ephemeral pid) ≠
        some (h', .error .wrongKey) := by
  have h : Keyed p x :=
    invariant_run (fun _ _ _ hx hs => Keyed.kept hprim hx hs) (keyed_init config nextIndex) he
  refine ⟨h.shown_all hprim hparse dst ephemeral now, fun pid hfound => ?_⟩
  have hpid : x.device.Present pid := by
    simp only [Device.findInitiation] at hfound
    split at hfound
    · cases hfound
    split at hfound
    · exact ⟨_, hfound⟩
    · cases hfound
  obtain ⟨e, hend, hiff⟩ := h.found_iff m hpid
  exact ⟨e, hend, Handshake.receive_ownKey e.handshake m dst (ephemeral pid) (hiff.mp hfound)⟩

/-- Two peers with the keys 7 and 9. -/
def samplePeers : List HandshakesMove :=
  [.device (.setKey (beArray 32 5)) none ⟨10 ^ 18, 0⟩,
    .device (.updatePeer (beArray 32 7) false none []) none ⟨10 ^ 18, 0⟩,
    .device (.updatePeer (beArray 32 9) false none []) none ⟨10 ^ 18, 0⟩]

def sampleKeys : Payment.Primitives :=
  { Boringtun.samplePrimitives with x25519PublicKey := Crypto.samplePrimitives.publicKey }

/-- What the second one sends to the device. -/
def sampleInitiated : Bytes :=
  let initiator : HandshakeEnd := ⟨.new Crypto.samplePrimitives (beArray 32 9) (beArray 32 9)
    (beArray 32 5) 0 none ⟨10 ^ 18, 0⟩, [], []⟩
  ((initiator.initiate Crypto.samplePrimitives 148 (beArray 32 21) 1000).initiations.map
    (·.1)).flatten

def sampleFound (x : Handshakes) : Option PeerId :=
  match parseIncomingPacket sampleInitiated with
  | .ok (.handshakeInit m) => x.device.findInitiation Crypto.samplePrimitives m
  | _ => none

def sampleShown : List PeerId → List HandshakesMove :=
  List.map (shown sampleInitiated 2048 (fun _ => beArray 32 22) 2000)

theorem sampleFound_run : (exec (step sampleKeys Crypto.samplePrimitives) sampleStart
    samplePeers).map (fun x => (sampleFound x,
      (exec (step sampleKeys Crypto.samplePrimitives) x (sampleShown [0, 1])).map fun x' =>
        [0, 1].map fun pid => (x'.ends pid).map (·.responses.length))) =
    some (some 1, some [some 0, some 1]) := by
  decide +kernel

theorem initiation_dispatched_sample : ∃ x,
    exec (step sampleKeys Crypto.samplePrimitives) sampleStart samplePeers = some x ∧
    (exec (step sampleKeys Crypto.samplePrimitives) x (sampleShown [0, 1])).isSome ∧
    exec (step sampleKeys Crypto.samplePrimitives) x (sampleShown [0, 1]) =
      exec (step sampleKeys Crypto.samplePrimitives) x (sampleShown [1]) := by
  obtain ⟨x, hx, hrun⟩ := Option.map_eq_some_iff.mp sampleFound_run
  obtain ⟨hfound, hshown⟩ := Prod.mk.inj hrun
  unfold sampleFound at hfound
  split at hfound
  · rename_i m hparse
    have hpresent : ∀ pid ∈ [0, 1], x.device.Present pid := by
      intro pid hpid
      have hentries : (exec (step sampleKeys Crypto.samplePrimitives) sampleStart
          samplePeers).map (fun x => [7, 9].map fun k => x.device.peers.lookup (beArray 32 k)) =
          some [some 0, some 1] := by decide +kernel
      rw [hx] at hentries
      simp only [Option.map_some, List.map_cons, List.map_nil, Option.some.injEq,
        List.cons.injEq, and_true] at hentries
      rcases List.mem_pair.mp hpid with rfl | rfl
      · exact ⟨_, hentries.1⟩
      · exact ⟨_, hentries.2⟩
    obtain ⟨hall, -⟩ := initiation_dispatched (fun _ => rfl) hx hparse 2048
      (fun _ => beArray 32 22) 2000
    refine ⟨x, hx, ?_, (hall [0, 1] hpresent).trans ?_⟩
    · obtain ⟨x', hx', -⟩ := Option.map_eq_some_iff.mp hshown
      exact Option.isSome_of_eq_some hx'
    · rw [hfound]
      rfl
  · cases hfound

end Handshakes

end Xelt.Boringtun
