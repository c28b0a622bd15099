import Mathlib.Data.Finset.Erase
import Xelt.Boringtun.Device.Indices
import Xelt.Boringtun.Device.Uapi

/-!
# Requests of several peer sections

A `set=1` request may name any number of peers, each in a section of its own.
What the parser has read of a section stays in its variables when the next
one begins; only the list of addresses is emptied. Here a request of several
sections is compared with one request a section.
-/

namespace Xelt.Boringtun.Uapi

open Bytes Noise Payment Text

-- ---------------------------------------------------------------------------
-- The device behind the calls
-- ---------------------------------------------------------------------------

/-- What a peer is made with besides its key and its addresses. No keepalive
interval is one of 0. -/
structure PeerConfig where
  endpoint : Option SocketAddr
  keepalive : UInt16
  presharedKey : Option Bytes32
  deriving DecidableEq

/-- The register of the indices was seeded and has not come back to its seed,
and the maps of the device hold its peers. -/
structure Seeded (d : Device) : Prop where
  seed : IndexLfsr.State d.nextIndex.initial
  drawn : d.Drawn d.nextIndex.initial d.nextIndex.mask
  indexes : d.Indexes

theorem Seeded.keep {d d' : Device} (h : Seeded d)
    (hd : d'.Drawn d.nextIndex.initial d.nextIndex.mask) (hi : d'.Indexes) : Seeded d' := by
  have hinitial : d'.nextIndex.initial = d.nextIndex.initial := by rw [hd.register]
  have hmask : d'.nextIndex.mask = d.nextIndex.mask := by rw [hd.register]
  exact ⟨hinitial ▸ h.seed, by rw [hinitial, hmask]; exact hd, hi⟩

/-- The device, and what each peer object was made with. -/
structure ConfiguredDevice extends Device where
  config : PeerId → Option PeerConfig
  seeded : Seeded toDevice

def SocketAddr.number : SocketAddr → Boringtun.SocketAddr
  | .v4 ip port => ip.toNat * 2 ^ 16 + port.toNat
  | .v6 ip port _ _ => 2 ^ 48 + ip.toNat * 2 ^ 16 + port.toNat

def PeerUpdate.config (u : PeerUpdate) : PeerConfig :=
  ⟨u.endpoint, u.keepalive.getD 0, u.presharedKey⟩

/-- `update_peer` without the configuration it only stores. -/
def PeerUpdate.run (addrOf : SocketAddr → Boringtun.SocketAddr) (u : PeerUpdate) (d : Device) :
    Option Device :=
  d.updatePeer u.publicKey u.remove (u.endpoint.map addrOf) u.allowedIps

def PeerUpdate.apply (u : PeerUpdate) (d : Device) : Option Device := u.run SocketAddr.number d

theorem PeerUpdate.apply_removes {d : Device} {u : PeerUpdate} (hu : u.remove = true) :
    u.apply d = some (d.removePeer u.publicKey) := by
  simp [PeerUpdate.apply, PeerUpdate.run, Device.updatePeer, hu]

theorem PeerUpdate.apply_adds {d d' : Device} {u : PeerUpdate} (hu : u.remove = false)
    (h : u.apply d = some d') : ∃ p, Device.Adds d d' u.publicKey u.allowedIps p := by
  rw [PeerUpdate.apply, PeerUpdate.run, hu] at h
  exact Device.updatePeer_adds h

theorem Seeded.apply {d d' : Device} {u : PeerUpdate} (h : Seeded d) (hu : u.apply d = some d') :
    Seeded d' := by
  cases hremove : u.remove with
  | true =>
    rw [PeerUpdate.apply_removes hremove] at hu
    cases hu
    exact h.keep (h.drawn.remove _) (h.indexes.remove h.seed h.drawn _)
  | false =>
    obtain ⟨p, ha⟩ := PeerUpdate.apply_adds hremove hu
    exact h.keep (h.drawn.adds ha) (h.indexes.adds h.seed h.drawn ha)

namespace ConfiguredDevice

/-- A device as started: the register stands at its seed. -/
def init (config : PaymentConfig) (seed mask : UInt32) (hseed : IndexLfsr.State seed) :
    ConfiguredDevice where
  toDevice := .init config ⟨seed, seed, mask⟩
  config := fun _ => none
  seeded := ⟨hseed, (Device.indexes_init config seed mask).1,
    (Device.indexes_init config seed mask).2⟩

/-- `none` is a panic. -/
def updatePeer (d : ConfiguredDevice) (u : PeerUpdate) : Option ConfiguredDevice :=
  match h : u.apply d.toDevice with
  | none => none
  | some device =>
    some
      { toDevice := device
        config := if u.remove then d.config else Function.update d.config d.heapSize (some u.config)
        seeded := d.seeded.apply h }

def updateAll (d : ConfiguredDevice) (updates : List PeerUpdate) : Option ConfiguredDevice :=
  updates.foldlM updatePeer d

variable (prim : Primitives)

def setKey (d : ConfiguredDevice) (privateKey : Bytes32) : ConfiguredDevice where
  toDevice := d.toDevice.setKey prim privateKey
  config := d.config
  seeded := d.seeded.keep (d.seeded.drawn.same (Device.setKey_same prim _ privateKey))
    (d.seeded.indexes.same (Device.setKey_same prim _ privateKey))

def clearPeers (d : ConfiguredDevice) : ConfiguredDevice where
  toDevice := d.toDevice.clearPeers
  config := d.config
  seeded := d.seeded.keep d.seeded.drawn.clear (.clear d.toDevice)

/-- A call of the device; its sockets are no part of the state. -/
def perform (d : ConfiguredDevice) : DeviceCall → Option ConfiguredDevice
  | .setKey privateKey => some (d.setKey prim privateKey)
  | .openListenSocket _ => some d
  | .setFwmark _ => some d
  | .clearPeers => some d.clearPeers
  | .updatePeer u => d.updatePeer u

def performAll (d : ConfiguredDevice) (calls : List DeviceCall) : Option ConfiguredDevice :=
  calls.foldlM (perform prim) d

/-- How the last of the calls ends; whether a socket can be opened is not up
to the device. -/
def outcome (sockets : List DeviceCall → CallEnd) (d : ConfiguredDevice)
    (calls : List DeviceCall) : CallEnd :=
  match d.performAll prim calls with
  | none => .panicked
  | some _ =>
    match calls.getLast? with
    | some (.openListenSocket _) => sockets calls
    | some (.setFwmark _) => sockets calls
    | _ => .done

end ConfiguredDevice

-- ---------------------------------------------------------------------------
-- Sections
-- ---------------------------------------------------------------------------

inductive Setting
  | remove (remove : Bool)
  | presharedKey (key : Bytes32)
  | endpoint (addr : SocketAddr)
  | keepalive (interval : UInt16)
  | replaceIps (replaceIps : Bool)
  | allowedIp (ip : AllowedIP)
  | protocolVersion

namespace Setting

def set (u : PeerUpdate) : Setting → PeerUpdate
  | .remove b => { u with remove := b }
  | .presharedKey key => { u with presharedKey := some key }
  | .endpoint addr => { u with endpoint := some addr }
  | .keepalive interval => { u with keepalive := some interval }
  | .replaceIps b => { u with replaceIps := b }
  | .allowedIp ip => { u with allowedIps := u.allowedIps ++ [ip] }
  | .protocolVersion => u

def remove? : Setting → Option Bool
  | .remove b => some b
  | _ => none

def presharedKey? : Setting → Option Bytes32
  | .presharedKey key => some key
  | _ => none

def endpoint? : Setting → Option SocketAddr
  | .endpoint addr => some addr
  | _ => none

def keepalive? : Setting → Option UInt16
  | .keepalive interval => some interval
  | _ => none

/-- The value given last. -/
def last? (pick : Setting → Option α) (settings : List Setting) : Option α :=
  settings.reverse.findSome? pick

end Setting

/-- The parsers of the libraries. -/
structure Parsers where
  base64Decode : Text → Option Bytes
  parseIpv6 : Text → Option Ipv6Addr
  parseSocketAddr : Text → Option SocketAddr

namespace Parsers
variable (parsers : Parsers)

/-- The key in the first line of a section. -/
def readHeader (raw : Text) : Option Bytes32 :=
  match raw.dropLast.splitOn '=' with
  | [key, val] =>
    if key = "public_key".toList then parseKeyBytes parsers.base64Decode val else none
  | _ => none

/-- The setting in a further line. -/
def readSetting (raw : Text) : Option Setting :=
  (splitOnce '=' raw.dropLast).bind fun (key, val) =>
    match String.ofList key with
    | "remove" => (parseBool val).map .remove
    | "preshared_key" => (parseKeyBytes parsers.base64Decode val).map .presharedKey
    | "endpoint" => (parsers.parseSocketAddr val).map .endpoint
    | "persistent_keepalive_interval" =>
      (parseUnsigned 16 val).map fun interval => .keepalive (UInt16.ofNat interval)
    | "replace_allowed_ips" => (parseBool val).map .replaceIps
    | "allowed_ip" => (parseAllowedIP parsers.parseIpv6 val).map .allowedIp
    | "protocol_version" => if parseUnsigned 32 val = some 1 then some .protocolVersion else none
    | _ => none

abbrev set (outcome : List DeviceCall → CallEnd) (lines : List Text) : SetRun :=
  apiSet parsers.base64Decode parsers.parseIpv6 parsers.parseSocketAddr outcome [] lines

abbrev setPeer (outcome : List DeviceCall → CallEnd) (calls : List DeviceCall)
    (update : PeerUpdate) (lines : List Text) : SetRun :=
  apiSetPeer parsers.base64Decode parsers.parseIpv6 parsers.parseSocketAddr outcome calls update
    lines

end Parsers

/-- A valid section: its lines as they are read, and what they say. -/
structure Section (parsers : Parsers) where
  header : Text
  body : List Text
  publicKey : Bytes32
  settings : List Setting
  reads_header : parsers.readHeader header = some publicKey
  reads_body : List.Forall₂
    (fun raw setting => parsers.readSetting raw = some setting) body settings

namespace Section
variable {parsers : Parsers}

def lines (s : Section parsers) : List Text := s.header :: s.body

theorem lines_cons (s : Section parsers) (sections : List (Section parsers)) (rest : List Text) :
    (s :: sections).flatMap Section.lines ++ rest =
      s.header :: (s.body ++ (sections.flatMap Section.lines ++ rest)) := by
  simp [Section.lines]

/-- The settings of the section over those that an update holds already. -/
def onto (s : Section parsers) (u : PeerUpdate) : PeerUpdate :=
  s.settings.foldl Setting.set { u with publicKey := s.publicKey, allowedIps := [] }

/-- The update that the section asks for. -/
def own (s : Section parsers) : PeerUpdate := s.onto (.new s.publicKey)

/-- The updates of one request, behind an update already made. -/
def carried (u : PeerUpdate) : List (Section parsers) → List PeerUpdate
  | [] => []
  | s :: sections => s.onto u :: carried (s.onto u) sections

def updates : List (Section parsers) → List PeerUpdate
  | [] => []
  | s :: sections => s.own :: carried s.own sections

end Section

namespace ConfiguredDevice
variable (prim : Primitives) (sockets : List DeviceCall → CallEnd) {parsers : Parsers}

/-- The device behind a `set=1` request of these lines. -/
def set (parsers : Parsers) (d : ConfiguredDevice) (lines : List Text) : Option ConfiguredDevice :=
  d.performAll prim (parsers.set (d.outcome prim sockets) lines).1

/-- The sections in one request, which ends with an empty line. -/
def setTogether (d : ConfiguredDevice) (sections : List (Section parsers)) :
    Option ConfiguredDevice :=
  d.set prim sockets parsers (sections.flatMap Section.lines ++ [['\n']])

/-- A request for each section. -/
def setSeparately (d : ConfiguredDevice) (sections : List (Section parsers)) :
    Option ConfiguredDevice :=
  sections.foldlM (fun d s => d.set prim sockets parsers (s.lines ++ [['\n']])) d

end ConfiguredDevice

-- ---------------------------------------------------------------------------
-- What a line does
-- ---------------------------------------------------------------------------

section
variable {parsers : Parsers} {outcome : List DeviceCall → CallEnd}

theorem setPeer_setting (h : parsers.readSetting raw = some setting) (rest : List Text) :
    parsers.setPeer outcome calls u (raw :: rest) =
      parsers.setPeer outcome calls (setting.set u) rest := by
  obtain ⟨⟨key, val⟩, hsplit, h⟩ := Option.bind_eq_some_iff.mp h
  simp only [Parsers.setPeer]
  rw [apiSetPeer, if_neg (ne_nil_of_splitOnce hsplit), hsplit]
  dsimp only at h ⊢
  generalize String.ofList key = name at h ⊢
  split at h
  · obtain ⟨b, hb, rfl⟩ := Option.map_eq_some_iff.mp h
    simp only [hb, Setting.set]
  · obtain ⟨key, hk, rfl⟩ := Option.map_eq_some_iff.mp h
    simp only [hk, Setting.set]
  · obtain ⟨addr, ha, rfl⟩ := Option.map_eq_some_iff.mp h
    simp only [ha, Setting.set]
  · obtain ⟨interval, hi, rfl⟩ := Option.map_eq_some_iff.mp h
    simp only [hi, Setting.set]
  · obtain ⟨b, hb, rfl⟩ := Option.map_eq_some_iff.mp h
    simp only [hb, Setting.set]
  · obtain ⟨ip, hip, rfl⟩ := Option.map_eq_some_iff.mp h
    simp only [hip, Setting.set]
  · split at h
    · rename_i hone
      cases h
      rw [if_pos hone]
      rfl
    · cases h
  · cases h

theorem setPeer_settings
    (h : List.Forall₂ (fun raw setting => parsers.readSetting raw = some setting) body settings)
    (rest : List Text) :
    parsers.setPeer outcome calls u (body ++ rest) =
      parsers.setPeer outcome calls (settings.foldl Setting.set u) rest := by
  induction h generalizing u with
  | nil => rfl
  | cons h _ ih => exact (setPeer_setting h _).trans ih

theorem readHeader_some (h : parsers.readHeader raw = some key) :
    ∃ val, raw.dropLast.splitOn '=' = ["public_key".toList, val] ∧
      parseKeyBytes parsers.base64Decode val = some key := by
  unfold Parsers.readHeader at h
  split at h
  · rename_i name val hsplit
    split at h
    · rename_i hname
      exact ⟨val, hname ▸ hsplit, h⟩
    · cases h
  · cases h

/-- The next section finds the settings of the one before, without its
addresses. -/
theorem setPeer_header (h : parsers.readHeader raw = some publicKey) (rest : List Text) :
    parsers.setPeer outcome calls u (raw :: rest) =
      Uapi.perform outcome calls (.updatePeer u) none fun calls =>
        parsers.setPeer outcome calls { u with publicKey, allowedIps := [] } rest := by
  obtain ⟨val, hsplit, hval⟩ := readHeader_some h
  have honce := splitOnce_of_splitOn hsplit
  simp only [Parsers.setPeer]
  rw [apiSetPeer, if_neg (ne_nil_of_splitOnce honce), honce]
  simp only [String.ofList_toList, hval]

theorem set_header (h : parsers.readHeader raw = some publicKey) (rest : List Text) :
    parsers.set outcome (raw :: rest) =
      parsers.setPeer outcome [] (.new publicKey) rest := by
  obtain ⟨val, hsplit, hval⟩ := readHeader_some h
  have honce := splitOnce_of_splitOn hsplit
  simp only [Parsers.set]
  rw [apiSet, if_neg (ne_nil_of_splitOnce honce), hsplit]
  simp only [String.ofList_toList, hval]

end

-- ---------------------------------------------------------------------------
-- The updates of a request
-- ---------------------------------------------------------------------------

namespace ConfiguredDevice
variable {prim : Primitives} {sockets : List DeviceCall → CallEnd} {parsers : Parsers}
  {d₀ d : ConfiguredDevice}

theorem performAll_concat (hd : d₀.performAll prim calls = some d) :
    d₀.performAll prim (calls ++ [.updatePeer u]) = d.updatePeer u := by
  have happend : d₀.performAll prim (calls ++ [.updatePeer u]) =
      (d₀.performAll prim calls).bind fun d => d.performAll prim [.updatePeer u] :=
    List.foldlM_append
  rw [happend, hd, Option.bind_some]
  exact bind_pure (d.updatePeer u)

theorem performAll_perform (hd : d₀.performAll prim calls = some d)
    (next : List DeviceCall → SetRun)
    (hnext : ∀ d', d.updatePeer u = some d' →
      d₀.performAll prim (next (calls ++ [.updatePeer u])).1 = d'.updateAll us) :
    d₀.performAll prim
        (Uapi.perform (d₀.outcome prim sockets) calls (.updatePeer u) none next).1 =
      d.updateAll (u :: us) := by
  have hcalls := performAll_concat (u := u) hd
  have hall : d.updateAll (u :: us) = (d.updatePeer u).bind fun d => d.updateAll us := rfl
  rw [hall]
  cases hu : d.updatePeer u with
  | none =>
    have hend : d₀.outcome prim sockets (calls ++ [.updatePeer u]) = .panicked := by
      rw [outcome, hcalls, hu]
    simp only [Uapi.perform, hend]
    exact hcalls.trans hu
  | some d' =>
    have hend : d₀.outcome prim sockets (calls ++ [.updatePeer u]) = .done := by
      rw [outcome, hcalls, hu, List.getLast?_concat]
    simp only [Uapi.perform, hend]
    exact hnext d' hu

theorem performAll_setPeer (sections : List (Section parsers))
    (hd : d₀.performAll prim calls = some d) :
    d₀.performAll prim (parsers.setPeer (d₀.outcome prim sockets) calls u
        (sections.flatMap Section.lines ++ [['\n']])).1 =
      d.updateAll (u :: Section.carried u sections) := by
  induction sections generalizing calls u d with
  | nil =>
    have hend : ∀ d', d.updatePeer u = some d' →
        d₀.performAll prim (calls ++ [.updatePeer u], some Errno.ok).1 = d'.updateAll [] :=
      fun d' hu => (performAll_concat hd).trans hu
    exact performAll_perform hd (fun calls => (calls, some .ok)) hend
  | cons s sections ih =>
    rw [Section.lines_cons, setPeer_header s.reads_header]
    refine performAll_perform hd _ fun d' hu => ?_
    rw [setPeer_settings s.reads_body]
    exact ih ((performAll_concat hd).trans hu)

theorem setTogether_eq (d : ConfiguredDevice) (sections : List (Section parsers)) :
    d.setTogether prim sockets sections = d.updateAll (Section.updates sections) := by
  cases sections with
  | nil => rfl
  | cons s sections =>
    rw [setTogether, set, Section.lines_cons, set_header s.reads_header,
      setPeer_settings s.reads_body]
    exact performAll_setPeer sections rfl

theorem setSeparately_eq (d : ConfiguredDevice) (sections : List (Section parsers)) :
    d.setSeparately prim sockets sections = d.updateAll (sections.map Section.own) := by
  have hone : ∀ (d : ConfiguredDevice) (s : Section parsers),
      d.set prim sockets parsers (s.lines ++ [['\n']]) = d.updatePeer s.own := by
    intro d s
    have h : d.setTogether prim sockets [s] = d.updateAll [s.own] := setTogether_eq d [s]
    rw [setTogether, List.flatMap_singleton] at h
    exact h.trans (bind_pure (d.updatePeer s.own))
  simp only [setSeparately, hone]
  exact List.foldlM_map.symm

end ConfiguredDevice

-- ---------------------------------------------------------------------------
-- Two lists of updates
-- ---------------------------------------------------------------------------

namespace PeerUpdate

/-- An update as a request makes it of a section, and as the section asks for
it: a removal that was asked for is made. -/
structure Behind (c u : PeerUpdate) : Prop where
  publicKey : c.publicKey = u.publicKey
  allowedIps : c.allowedIps = u.allowedIps
  remove : u.remove = true → c.remove = true

/-- Both remove their peer, or both add it with the same addresses. -/
structure SameMark (c u : PeerUpdate) : Prop where
  publicKey : c.publicKey = u.publicKey
  allowedIps : c.allowedIps = u.allowedIps
  remove : c.remove = u.remove

def Removes (us : List PeerUpdate) (key : Bytes32) : Prop :=
  ∃ u ∈ us, u.publicKey = key ∧ u.remove = true

/-- Both remove, or both add the same peer; one that a later update removes
again may be made differently. -/
def AllAgree : List PeerUpdate → List PeerUpdate → Prop
  | c :: cs, u :: us =>
    (c.remove = u.remove ∧ (u.remove = false → Removes us u.publicKey ∨ c.config = u.config)) ∧
      AllAgree cs us
  | _, _ => True

end PeerUpdate

section
variable {d d' : Device} {u : PeerUpdate}

/-- The peer that an update adds, under its index. -/
def PeerUpdate.peer (u : PeerUpdate) (index : UInt32) : Peer where
  tunnel := .new
  index := index
  endpointAddr := u.endpoint.map SocketAddr.number
  allowedIps := .ofList u.allowedIps ()
  quota := some (.new defaultQuotaBytes)

theorem PeerUpdate.apply_eq (hu : u.remove = false) (h : u.apply d = some d') :
    ∃ index nextIndex, d.nextIndex.next = some (index, nextIndex) ∧
      d.peers.lookup u.publicKey = none ∧ d' = { d with
        nextIndex := nextIndex
        peers := d.peers.insert u.publicKey d.heapSize
        peersByIdx := d.peersByIdx.insert index d.heapSize
        peersByIp := u.allowedIps.foldl (fun t ip => t.insert ip d.heapSize) d.peersByIp
        heap := Function.update d.heap d.heapSize (some (u.peer index))
        heapSize := d.heapSize + 1 } := by
  simp only [PeerUpdate.apply, PeerUpdate.run, Device.updatePeer, hu, Bool.false_eq_true,
    if_false] at h
  split at h
  · cases h
  rename_i hnone
  split at h
  · rename_i index nextIndex _ hnext hkey
    cases h
    exact ⟨index, nextIndex, hnext, by simpa using hnone, rfl⟩
  · cases h

theorem removePeer_heap (d : Device) (key : Bytes32) : (d.removePeer key).heap = d.heap := by
  unfold Device.removePeer
  split <;> rfl

end

-- ---------------------------------------------------------------------------
-- What a device still refers to
-- ---------------------------------------------------------------------------

/-- Devices that differ in nothing but the peer objects. -/
structure Twin (d₁ d₂ : Device) : Prop where
  state : d₁.toPaymentState = d₂.toPaymentState
  keyPair : d₁.keyPair = d₂.keyPair
  nextIndex : d₁.nextIndex = d₂.nextIndex
  peers : d₁.peers = d₂.peers
  peersByIp : d₁.peersByIp = d₂.peersByIp
  peersByIdx : d₁.peersByIdx = d₂.peersByIdx

section
variable {d₁ d₂ d₁' d₂' : Device} {c u : PeerUpdate}

theorem Twin.refl (d : Device) : Twin d d := ⟨rfl, rfl, rfl, rfl, rfl, rfl⟩

/-- As many peers were made: the register tells. -/
theorem Seeded.size_eq (hs₁ : Seeded d₁) (hs₂ : Seeded d₂) (h : d₁.nextIndex = d₂.nextIndex) :
    d₁.heapSize = d₂.heapSize := by
  have hdrawn := hs₂.drawn
  rw [← h] at hdrawn
  exact hs₁.drawn.size_inj hs₁.seed hdrawn h

theorem Twin.index (ht : Twin d₁ d₂) (hs₁ : Seeded d₁) (hs₂ : Seeded d₂)
    (hp : d₁.heap pid = some p) (hp' : d₂.heap pid = some p') : p.index = p'.index := by
  rw [(hs₁.drawn.index pid p hp).2, (hs₂.drawn.index pid p' hp').2, ht.nextIndex]

theorem Twin.removePeer (ht : Twin d₁ d₂) (hs₁ : Seeded d₁) (hs₂ : Seeded d₂) (key : Bytes32) :
    Twin (d₁.removePeer key) (d₂.removePeer key) := by
  unfold Device.removePeer
  rw [← ht.peers]
  cases hl : d₁.peers.lookup key with
  | none => exact ht
  | some pid =>
    obtain ⟨p, hp⟩ := hs₁.indexes.live key pid hl
    obtain ⟨p', hp'⟩ := hs₂.indexes.live key pid (ht.peers ▸ hl)
    simp only [hp, hp', ht.index hs₁ hs₂ hp hp', ht.peersByIdx, ht.peersByIp, ht.peers]
    exact ⟨ht.state, ht.keyPair, ht.nextIndex, rfl, rfl, rfl⟩

theorem Twin.apply (ht : Twin d₁ d₂) (hs₁ : Seeded d₁) (hs₂ : Seeded d₂)
    (hkey : c.publicKey = u.publicKey) (hips : c.allowedIps = u.allowedIps)
    (hremove : c.remove = u.remove) (h₁ : c.apply d₁ = some d₁') (h₂ : u.apply d₂ = some d₂') :
    Twin d₁' d₂' := by
  cases hu : u.remove with
  | true =>
    rw [PeerUpdate.apply_removes (hremove.trans hu), hkey] at h₁
    rw [PeerUpdate.apply_removes hu] at h₂
    cases h₁
    cases h₂
    exact ht.removePeer hs₁ hs₂ u.publicKey
  | false =>
    obtain ⟨index, next, hnext, -, rfl⟩ := PeerUpdate.apply_eq (hremove.trans hu) h₁
    obtain ⟨index', next', hnext', -, rfl⟩ := PeerUpdate.apply_eq hu h₂
    rw [← ht.nextIndex, hnext] at hnext'
    cases hnext'
    simp only [hkey, hips, hs₁.size_eq hs₂ ht.nextIndex, ht.peers, ht.peersByIdx, ht.peersByIp]
    exact ⟨ht.state, ht.keyPair, rfl, rfl, rfl, rfl⟩

end

namespace ConfiguredDevice
variable {d d' d₁ d₂ d₁' d₂' : ConfiguredDevice} {c u : PeerUpdate} {cs us : List PeerUpdate}

open PeerUpdate

theorem updatePeer_iff : d.updatePeer u = some d' ↔ u.apply d.toDevice = some d'.toDevice ∧
    d'.config = if u.remove then d.config
      else Function.update d.config d.heapSize (some u.config) := by
  obtain ⟨device', config', hseeded⟩ := d'
  unfold updatePeer
  split
  · rename_i h
    refine iff_of_false (fun h => by cases h) fun hd => ?_
    rw [h] at hd
    cases hd.1
  · rename_i device h
    constructor
    · rintro ⟨⟩
      exact ⟨h, rfl⟩
    · rintro ⟨hd, hc⟩
      obtain rfl : device = device' := Option.some.inj (h.symm.trans hd)
      rw [Option.some.injEq, ConfiguredDevice.mk.injEq]
      exact ⟨rfl, hc.symm⟩

theorem updateAll_cons : d.updateAll (u :: us) = some d' ↔
    ∃ d₁, d.updatePeer u = some d₁ ∧ d₁.updateAll us = some d' := Option.bind_eq_some_iff

/-- What the device still refers to: a peer that is in none of its tables any
more is gone. -/
def live (d : ConfiguredDevice) : Device × (PeerId → Option PeerConfig) :=
  ({ d.toDevice with
      heap := fun pid => if pid ∈ d.peers.entries.map (·.2) then d.heap pid else none
      heapSize := 0 },
    fun pid => if pid ∈ d.peers.entries.map (·.2) then d.config pid else none)

/-- The peer is made the same in both. -/
def SameAt (d₁ d₂ : ConfiguredDevice) (pid : PeerId) : Prop :=
  d₁.heap pid = d₂.heap pid ∧ d₁.config pid = d₂.config pid

/-- The peers are the same but for those that the updates remove. -/
def SameBut (us : List PeerUpdate) (d₁ d₂ : ConfiguredDevice) : Prop :=
  ∀ key pid, d₁.peers.lookup key = some pid → Removes us key ∨ SameAt d₁ d₂ pid

theorem mem_values : pid ∈ d.peers.entries.map (·.2) ↔ ∃ key, d.peers.lookup key = some pid := by
  simp [AList.mem_lookup_iff, ← Option.mem_def]

theorem live_iff : d₁.live = d₂.live ↔ Twin d₁.toDevice d₂.toDevice ∧ SameBut [] d₁ d₂ := by
  unfold live
  rw [Prod.mk.injEq, Device.mk.injEq]
  constructor
  · rintro ⟨⟨hstate, hkey, hnext, hpeers, hip, hidx, hheap, -⟩, hconfig⟩
    refine ⟨⟨hstate, hkey, hnext, hpeers, hip, hidx⟩, fun key pid hl => .inr ?_⟩
    have hmem := mem_values.mpr ⟨key, hl⟩
    have hh := congrFun hheap pid
    have hc := congrFun hconfig pid
    rw [if_pos hmem, if_pos (hpeers ▸ hmem)] at hh hc
    exact ⟨hh, hc⟩
  · rintro ⟨ht, hbut⟩
    have hsame : ∀ pid, pid ∈ d₁.peers.entries.map (·.2) → SameAt d₁ d₂ pid := by
      intro pid hmem
      obtain ⟨key, hl⟩ := mem_values.mp hmem
      exact (hbut key pid hl).resolve_left fun ⟨_, hu, _⟩ => List.not_mem_nil hu
    refine ⟨⟨ht.state, ht.keyPair, ht.nextIndex, ht.peers, ht.peersByIp, ht.peersByIdx,
      ?_, rfl⟩, ?_⟩
    · funext pid
      rw [← ht.peers]
      split
      · exact (hsame pid ‹_›).1
      · rfl
    · funext pid
      rw [← ht.peers]
      split
      · exact (hsame pid ‹_›).2
      · rfl

/-- A removal takes its peer out of what is compared. -/
theorem sameBut_removes (hkey : c.publicKey = u.publicKey) (hc : c.remove = true)
    (hu : u.remove = true) (h₁ : d₁.updatePeer c = some d₁') (h₂ : d₂.updatePeer u = some d₂') :
    SameBut us d₁' d₂' ↔ SameBut (u :: us) d₁ d₂ := by
  obtain ⟨ha₁, hconfig₁⟩ := updatePeer_iff.mp h₁
  obtain ⟨ha₂, hconfig₂⟩ := updatePeer_iff.mp h₂
  rw [apply_removes hc, hkey, Option.some.injEq] at ha₁
  rw [apply_removes hu, Option.some.injEq] at ha₂
  rw [if_pos hc] at hconfig₁
  rw [if_pos hu] at hconfig₂
  simp only [SameBut, SameAt, ← ha₁, ← ha₂, hconfig₁, hconfig₂, removePeer_heap,
    Device.removePeer_lookup]
  refine forall₂_congr fun key pid => ?_
  by_cases hk : key = u.publicKey
  · rw [if_pos hk]
    exact iff_of_true (fun h => by cases h) fun _ => .inl ⟨u, List.mem_cons_self, hk.symm, hu⟩
  · rw [if_neg hk]
    simp [Removes, Ne.symm hk]

theorem sameAt_adds (ht : Twin d₁.toDevice d₂.toDevice) (hips : c.allowedIps = u.allowedIps)
    (hc : c.remove = false) (hu : u.remove = false) (h₁ : d₁.updatePeer c = some d₁')
    (h₂ : d₂.updatePeer u = some d₂') :
    SameAt d₁' d₂' pid ↔ if pid = d₁.heapSize then c.config = u.config else SameAt d₁ d₂ pid := by
  obtain ⟨ha₁, hconfig₁⟩ := updatePeer_iff.mp h₁
  obtain ⟨ha₂, hconfig₂⟩ := updatePeer_iff.mp h₂
  obtain ⟨index, next, hnext, -, he₁⟩ := apply_eq hc ha₁
  obtain ⟨index', next', hnext', -, he₂⟩ := apply_eq hu ha₂
  rw [← ht.nextIndex, hnext] at hnext'
  cases hnext'
  simp only [hc, hu, Bool.false_eq_true, if_false] at hconfig₁ hconfig₂
  rw [SameAt, he₁, he₂, hconfig₁, hconfig₂, ← d₁.seeded.size_eq d₂.seeded ht.nextIndex]
  dsimp only
  by_cases hpid : pid = d₁.heapSize
  · simp only [hpid, Function.update_self, if_true, Option.some.injEq, and_iff_right_iff_imp]
    intro hsame
    have hendpoint : c.endpoint = u.endpoint := congrArg PeerConfig.endpoint hsame
    simp only [PeerUpdate.peer, hendpoint, hips]
  · simp only [Function.update_of_ne hpid, hpid, if_false, SameAt]

/-- An addition brings its peer in. -/
theorem sameBut_adds (ht : Twin d₁.toDevice d₂.toDevice) (hkey : c.publicKey = u.publicKey)
    (hips : c.allowedIps = u.allowedIps) (hc : c.remove = false) (hu : u.remove = false)
    (h₁ : d₁.updatePeer c = some d₁') (h₂ : d₂.updatePeer u = some d₂') :
    SameBut us d₁' d₂' ↔
      SameBut (u :: us) d₁ d₂ ∧ (Removes us u.publicKey ∨ c.config = u.config) := by
  obtain ⟨p, ha⟩ := apply_adds hc (updatePeer_iff.mp h₁).1
  rw [hkey] at ha
  have hsame : ∀ pid, SameAt d₁' d₂' pid ↔
      if pid = d₁.heapSize then c.config = u.config else SameAt d₁ d₂ pid :=
    fun _ => sameAt_adds ht hips hc hu h₁ h₂
  have hremoves : ∀ key, Removes (u :: us) key ↔ Removes us key := by simp [Removes, hu]
  simp only [SameBut, hsame, hremoves, ha.peers]
  constructor
  · intro h
    refine ⟨fun key pid hl => ?_, ?_⟩
    · obtain ⟨hpid, hk⟩ := ha.old d₁.seeded.drawn d₁.seeded.indexes hl
      have hold := h key pid (by rwa [AList.lookup_insert_ne hk])
      rwa [if_neg hpid] at hold
    · have hnew := h u.publicKey d₁.heapSize (AList.lookup_insert _)
      rwa [if_pos rfl] at hnew
  · rintro ⟨hold, hnew⟩ key pid hl
    by_cases hk : key = u.publicKey
    · subst hk
      rw [AList.lookup_insert, Option.some.injEq] at hl
      rwa [if_pos hl.symm]
    · rw [AList.lookup_insert_ne hk] at hl
      rw [if_neg (ha.old d₁.seeded.drawn d₁.seeded.indexes hl).1]
      exact hold key pid hl

/-- Updates of the same marks part what they make differently, but for what
they remove again. -/
theorem updateAll_live (ht : Twin d₁.toDevice d₂.toDevice)
    (hmarks : List.Forall₂ SameMark cs us)
    (h₁ : d₁.updateAll cs = some d₁') (h₂ : d₂.updateAll us = some d₂') :
    d₁'.live = d₂'.live ↔ SameBut us d₁ d₂ ∧ AllAgree cs us := by
  induction hmarks generalizing d₁ d₂ with
  | nil =>
    cases h₁
    cases h₂
    simp [live_iff, ht, AllAgree]
  | @cons c u cs us hmark _ ih =>
    obtain ⟨hkey, hips, hremove⟩ := hmark
    obtain ⟨e₁, hc, hcs⟩ := updateAll_cons.mp h₁
    obtain ⟨e₂, hu, hus⟩ := updateAll_cons.mp h₂
    have happly := ht.apply d₁.seeded d₂.seeded hkey hips hremove (updatePeer_iff.mp hc).1
      (updatePeer_iff.mp hu).1
    rw [ih happly hcs hus, AllAgree]
    cases hr : u.remove with
    | true =>
      rw [sameBut_removes hkey (hremove.trans hr) hr hc hu]
      simp [hremove, hr]
    | false =>
      rw [sameBut_adds ht hkey hips (hremove.trans hr) hr hc hu]
      simp [hremove, hr, and_assoc]

end ConfiguredDevice

-- ---------------------------------------------------------------------------
-- What a section finds
-- ---------------------------------------------------------------------------

namespace Setting

theorem last?_concat (pick : Setting → Option α) (settings : List Setting) (setting : Setting) :
    last? pick (settings ++ [setting]) = (pick setting).or (last? pick settings) := by
  rw [last?, List.reverse_append, List.reverse_singleton, List.singleton_append,
    List.findSome?_cons, last?]
  cases pick setting <;> rfl

theorem last?_append (pick : Setting → Option α) (earlier settings : List Setting) :
    last? pick (earlier ++ settings) = (last? pick settings).or (last? pick earlier) := by
  rw [last?, List.reverse_append, List.findSome?_append, last?, last?]

/-- A setting that is overwritten keeps the value given last. -/
theorem foldl_last {pick : Setting → Option α} {get : PeerUpdate → Option α}
    (h : ∀ u setting, get (set u setting) = (pick setting).or (get u)) (settings : List Setting)
    (u : PeerUpdate) : get (settings.foldl set u) = (last? pick settings).or (get u) := by
  induction settings using List.reverseRecOn with
  | nil => rfl
  | append_singleton settings setting ih =>
    rw [List.foldl_append, List.foldl_cons, List.foldl_nil, h, ih, last?_concat, Option.or_assoc]

theorem foldl_endpoint (settings : List Setting) (u : PeerUpdate) :
    (settings.foldl set u).endpoint = (last? endpoint? settings).or u.endpoint :=
  foldl_last (fun _ setting => by cases setting <;> rfl) settings u

theorem foldl_keepalive (settings : List Setting) (u : PeerUpdate) :
    (settings.foldl set u).keepalive = (last? keepalive? settings).or u.keepalive :=
  foldl_last (fun _ setting => by cases setting <;> rfl) settings u

theorem foldl_presharedKey (settings : List Setting) (u : PeerUpdate) :
    (settings.foldl set u).presharedKey = (last? presharedKey? settings).or u.presharedKey :=
  foldl_last (fun _ setting => by cases setting <;> rfl) settings u

theorem foldl_remove (settings : List Setting) (u : PeerUpdate) :
    (settings.foldl set u).remove = (last? remove? settings).getD u.remove := by
  have h : some (settings.foldl set u).remove = (last? remove? settings).or (some u.remove) :=
    @foldl_last _ remove? (fun u => some u.remove) (fun _ setting => by cases setting <;> rfl)
      settings u
  rw [Option.or_some] at h
  exact Option.some.inj h

theorem foldl_publicKey (settings : List Setting) (u : PeerUpdate) :
    (settings.foldl set u).publicKey = u.publicKey := by
  induction settings generalizing u with
  | nil => rfl
  | cons setting settings ih =>
    rw [List.foldl_cons, ih]
    cases setting <;> rfl

theorem foldl_allowedIps (settings : List Setting) (h : u.allowedIps = u'.allowedIps) :
    (settings.foldl set u).allowedIps = (settings.foldl set u').allowedIps := by
  induction settings generalizing u u' with
  | nil => exact h
  | cons setting settings ih =>
    refine ih ?_
    cases setting <;> simp [set, h]

end Setting

namespace Section

open Setting

variable {parsers : Parsers}

/-- With these settings read before it, the section alone decides what it
does: it removes its peer, or the peer is not removed for want of a line, and
each of the other settings is its own or was not given before; they do not
matter where a later section asks for the peer to be removed again. -/
def Stands (earlier : List Setting) (s : Section parsers) (later : List (Section parsers)) : Prop :=
  last? remove? s.settings = some true ∨
    (last? remove? s.settings = some false ∨ last? remove? earlier ≠ some true) ∧
    ((∃ t ∈ later, t.publicKey = s.publicKey ∧ last? remove? t.settings = some true) ∨
      (last? endpoint? s.settings ≠ none ∨ last? endpoint? earlier = none) ∧
      (last? keepalive? s.settings ≠ none ∨ (last? keepalive? earlier).getD 0 = 0) ∧
      (last? presharedKey? s.settings ≠ none ∨ last? presharedKey? earlier = none))

/-- Every section stands behind the ones before it. -/
def AllStand (earlier : List Setting) : List (Section parsers) → Prop
  | [] => True
  | s :: sections => s.Stands earlier sections ∧ AllStand (earlier ++ s.settings) sections

/-- What an update holds of the settings read so far. -/
structure Holds (u : PeerUpdate) (earlier : List Setting) : Prop where
  remove : u.remove = (last? remove? earlier).getD false
  endpoint : u.endpoint = last? endpoint? earlier
  keepalive : u.keepalive = last? keepalive? earlier
  presharedKey : u.presharedKey = last? presharedKey? earlier

theorem holds_new (publicKey : Bytes32) : Holds (.new publicKey) [] := ⟨rfl, rfl, rfl, rfl⟩

theorem Holds.onto (h : Holds u earlier) (s : Section parsers) :
    Holds (s.onto u) (earlier ++ s.settings) where
  remove := by
    rw [Section.onto, foldl_remove, last?_append, Option.getD_or, h.remove]
  endpoint := by rw [Section.onto, foldl_endpoint, last?_append, h.endpoint]
  keepalive := by rw [Section.onto, foldl_keepalive, last?_append, h.keepalive]
  presharedKey := by
    rw [Section.onto, foldl_presharedKey, last?_append, h.presharedKey]

theorem Holds.own (s : Section parsers) : Holds s.own s.settings := (holds_new s.publicKey).onto s

theorem over_behind (s : Section parsers) (u : PeerUpdate) : (s.onto u).Behind s.own where
  publicKey := by simp only [own, onto, foldl_publicKey]
  allowedIps := foldl_allowedIps s.settings rfl
  remove h := by
    rw [own, onto, foldl_remove] at h
    rw [onto, foldl_remove]
    cases hlast : last? remove? s.settings with
    | none =>
      rw [hlast] at h
      cases h
    | some b => rwa [hlast] at h

theorem or_eq_left_iff {a b : Option α} : a.or b = a ↔ a ≠ none ∨ b = none := by
  cases a <;> simp

theorem own_removes (s : Section parsers) :
    s.own.remove = true ↔ last? remove? s.settings = some true := by
  rw [(Holds.own s).remove]
  cases last? remove? s.settings <;> simp

theorem removes_own (sections : List (Section parsers)) (key : Bytes32) :
    PeerUpdate.Removes (sections.map own) key ↔
      ∃ t ∈ sections, t.publicKey = key ∧ last? remove? t.settings = some true := by
  simp [PeerUpdate.Removes, ← own_removes, own, onto, foldl_publicKey]

theorem onto_remove_iff (h : Holds u earlier) (s : Section parsers) :
    (s.onto u).remove = s.own.remove ↔ last? remove? s.settings = some true ∨
      last? remove? s.settings = some false ∨ last? remove? earlier ≠ some true := by
  rw [(h.onto s).remove, (Holds.own s).remove, last?_append]
  cases last? remove? s.settings with
  | some b => cases b <;> simp
  | none =>
    cases last? remove? earlier with
    | none => simp
    | some b => cases b <;> simp

theorem onto_config_iff (h : Holds u earlier) (s : Section parsers) :
    (s.onto u).config = s.own.config ↔
      (last? endpoint? s.settings ≠ none ∨ last? endpoint? earlier = none) ∧
      (last? keepalive? s.settings ≠ none ∨ (last? keepalive? earlier).getD 0 = 0) ∧
      (last? presharedKey? s.settings ≠ none ∨ last? presharedKey? earlier = none) := by
  have honto := h.onto s
  have hown := Holds.own s
  rw [PeerUpdate.config, PeerUpdate.config, PeerConfig.mk.injEq, honto.endpoint, honto.keepalive,
    honto.presharedKey, hown.endpoint, hown.keepalive, hown.presharedKey]
  simp only [last?_append, or_eq_left_iff]
  refine and_congr_right fun _ => and_congr_left fun _ => ?_
  cases last? keepalive? s.settings <;> simp

theorem onto_agrees (h : Holds u earlier) (s : Section parsers) (later : List (Section parsers)) :
    ((s.onto u).remove = s.own.remove ∧ (s.own.remove = false →
      PeerUpdate.Removes (later.map own) s.own.publicKey ∨ (s.onto u).config = s.own.config)) ↔
      s.Stands earlier later := by
  have hkey : s.own.publicKey = s.publicKey := by rw [own, onto, foldl_publicKey]
  rw [onto_remove_iff h, onto_config_iff h, removes_own, hkey, ← Bool.not_eq_true, own_removes,
    ← or_iff_not_imp_left, ← or_and_left, Stands]

theorem carried_agrees (h : Holds u earlier) (sections : List (Section parsers)) :
    List.Forall₂ PeerUpdate.Behind (carried u sections) (sections.map own) ∧
      (PeerUpdate.AllAgree (carried u sections) (sections.map own) ↔
        AllStand earlier sections) := by
  induction sections generalizing u earlier with
  | nil => exact ⟨.nil, .rfl⟩
  | cons s sections ih =>
    obtain ⟨hbehind, hagrees⟩ := ih (h.onto s)
    refine ⟨.cons (over_behind s u) hbehind, ?_⟩
    rw [carried, List.map_cons, PeerUpdate.AllAgree, onto_agrees h, hagrees, AllStand]

theorem updates_eq (sections : List (Section parsers)) (publicKey : Bytes32) :
    updates sections = carried (.new publicKey) sections := by
  cases sections <;> rfl

end Section

-- ---------------------------------------------------------------------------
-- What the device takes
-- ---------------------------------------------------------------------------

/-- No update of these keys panics, the removals among them marked: one that
adds a peer needs a private key and an index, and its key not to be known. -/
def takes (keyed : Bool) (nextIndex : IndexLfsr) (known : Finset Bytes32) :
    List (Bytes32 × Bool) → Bool
  | [] => true
  | (key, true) :: marks => takes keyed nextIndex (known.erase key) marks
  | (key, false) :: marks =>
    match nextIndex.next with
    | some (_, nextIndex) => keyed && key ∉ known && takes keyed nextIndex (insert key known) marks
    | none => false

namespace PeerUpdate

def mark (u : PeerUpdate) : Bytes32 × Bool := (u.publicKey, u.remove)

end PeerUpdate

namespace ConfiguredDevice
variable {d : ConfiguredDevice}

def known (d : ConfiguredDevice) : Finset Bytes32 := d.peers.keys.toFinset

def Takes (d : ConfiguredDevice) (marks : List (Bytes32 × Bool)) : Prop :=
  takes d.keyPair.isSome d.nextIndex d.known marks = true

theorem mem_known : key ∈ d.known ↔ (d.peers.lookup key).isSome := by
  rw [known, List.mem_toFinset, ← AList.mem_keys, AList.lookup_isSome]

theorem updatePeer_removes (hu : u.remove = true) :
    ∃ d', d.updatePeer u = some d' ∧ d'.keyPair = d.keyPair ∧ d'.nextIndex = d.nextIndex ∧
      d'.known = d.known.erase u.publicKey := by
  have ha := PeerUpdate.apply_removes (d := d.toDevice) hu
  refine ⟨⟨_, d.config, d.seeded.apply ha⟩, updatePeer_iff.mpr ⟨ha, by rw [if_pos hu]⟩, ?_, ?_, ?_⟩
  · simp only [Device.removePeer]
    split <;> rfl
  · simp only [Device.removePeer]
    split <;> rfl
  · ext key
    rw [mem_known, Finset.mem_erase, mem_known, Device.removePeer_lookup]
    split <;> simp [*]

theorem updatePeer_adds (hu : u.remove = false) (hnext : d.nextIndex.next = some (index, nextIndex))
    (hkey : d.keyPair.isSome) (hnew : u.publicKey ∉ d.known) :
    ∃ d', d.updatePeer u = some d' ∧ d'.keyPair = d.keyPair ∧ d'.nextIndex = nextIndex ∧
      d'.known = insert u.publicKey d.known := by
  obtain ⟨keyPair, hkey⟩ := Option.isSome_iff_exists.mp hkey
  rw [mem_known] at hnew
  have ha : ∃ device, u.apply d.toDevice = some device := by
    simp only [PeerUpdate.apply, PeerUpdate.run, Device.updatePeer, hu, hnew, hnext, hkey, if_false,
      Bool.false_eq_true]
    exact ⟨_, rfl⟩
  obtain ⟨device, ha⟩ := ha
  refine ⟨⟨device, _, d.seeded.apply ha⟩, updatePeer_iff.mpr ⟨ha, rfl⟩, ?_⟩
  obtain ⟨index', nextIndex', hnext', -, rfl⟩ := PeerUpdate.apply_eq hu ha
  rw [hnext] at hnext'
  cases hnext'
  refine ⟨rfl, rfl, ?_⟩
  ext key
  simp only [known, AList.keys_insert, List.mem_toFinset, Finset.mem_insert, List.mem_cons]
  by_cases hk : key = u.publicKey
  · simp [hk]
  · simp [hk, List.mem_erase_of_ne]

theorem updatePeer_panics (hu : u.remove = false)
    (h : d.nextIndex.next = none ∨ d.keyPair = none ∨ u.publicKey ∈ d.known) :
    d.updatePeer u = none := by
  rw [mem_known] at h
  have ha : u.apply d.toDevice = none := by
    simp only [PeerUpdate.apply, PeerUpdate.run, Device.updatePeer, hu, Bool.false_eq_true,
    if_false]
    split
    · rfl
    · rename_i hnew
      rcases h with h | h | h
      · simp [h]
      · simp [h]
      · exact absurd h hnew
  rw [Option.eq_none_iff_forall_ne_some]
  intro d' hd
  rw [(updatePeer_iff.mp hd).1] at ha
  cases ha

theorem updateAll_isSome (us : List PeerUpdate) :
    (d.updateAll us).isSome ↔ d.Takes (us.map PeerUpdate.mark) := by
  induction us generalizing d with
  | nil => exact iff_of_true rfl rfl
  | cons u us ih =>
    have hall : d.updateAll (u :: us) = (d.updatePeer u).bind fun d => d.updateAll us := rfl
    rw [hall, Takes, List.map_cons, PeerUpdate.mark]
    cases hu : u.remove with
    | true =>
      obtain ⟨d', hd', hkey, hnext, hknown⟩ := updatePeer_removes (d := d) hu
      rw [hd', Option.bind_some, ih, takes, Takes, hkey, hnext, hknown]
    | false =>
      rw [takes]
      cases hnext : d.nextIndex.next with
      | none =>
        rw [updatePeer_panics hu (.inl hnext)]
        simp
      | some p =>
        by_cases hok : d.keyPair.isSome = true ∧ u.publicKey ∉ d.known
        · obtain ⟨d', hd', hkey, hnext', hknown⟩ := updatePeer_adds hu hnext hok.1 hok.2
          rw [hd', Option.bind_some, ih, Takes, hkey, hnext', hknown]
          simp [hok]
        · have hbad : d.keyPair = none ∨ u.publicKey ∈ d.known := by
            rw [not_and_or, not_not, Bool.not_eq_true, Option.isSome_eq_false_iff,
              Option.isNone_iff_eq_none] at hok
            exact hok
          rw [updatePeer_panics hu (.inr hbad)]
          rcases hbad with hbad | hbad <;> simp [hbad]

end ConfiguredDevice

namespace Section

open Setting

variable {parsers : Parsers}

/-- The sections by their keys, each marked by its own last `remove` line. -/
def ownMarks (sections : List (Section parsers)) : List (Bytes32 × Bool) :=
  sections.map fun s => (s.publicKey, (last? remove? s.settings).getD false)

/-- The same, with a `remove` line in force until the next one. -/
def carriedMarks (earlier : List Setting) : List (Section parsers) → List (Bytes32 × Bool)
  | [] => []
  | s :: sections =>
    (s.publicKey, (last? remove? (earlier ++ s.settings)).getD false) ::
      carriedMarks (earlier ++ s.settings) sections

theorem mark_onto (h : Holds u earlier) (s : Section parsers) :
    (s.onto u).mark = (s.publicKey, (last? remove? (earlier ++ s.settings)).getD false) := by
  rw [PeerUpdate.mark, (h.onto s).remove, onto, foldl_publicKey]

theorem mark_own (sections : List (Section parsers)) :
    (sections.map own).map PeerUpdate.mark = ownMarks sections := by
  rw [List.map_map]
  exact List.map_congr_left fun s _ => mark_onto (holds_new s.publicKey) s

theorem mark_carried (h : Holds u earlier) (sections : List (Section parsers)) :
    (carried u sections).map PeerUpdate.mark = carriedMarks earlier sections := by
  induction sections generalizing u earlier with
  | nil => rfl
  | cons s sections ih => rw [carried, List.map_cons, mark_onto h, ih (h.onto s), carriedMarks]

end Section

namespace PeerUpdate
variable {cs us : List PeerUpdate}

/-- How many peers the updates add. -/
def additions (us : List PeerUpdate) : Nat := us.countP (!·.remove)

theorem additions_le (h : List.Forall₂ Behind cs us) : additions cs ≤ additions us := by
  induction h with
  | nil => exact le_rfl
  | @cons c u cs us hb _ ih =>
    simp only [additions, List.countP_cons] at ih ⊢
    cases hu : u.remove with
    | true => simpa [hb.remove hu] using ih
    | false =>
      cases c.remove with
      | true => simpa using ih.trans (Nat.le_succ _)
      | false => simpa using ih

/-- What is removed for want of a line is an addition less. -/
theorem remove_eq_of_additions (h : List.Forall₂ Behind cs us) (he : additions cs = additions us) :
    List.Forall₂ SameMark cs us := by
  induction h with
  | nil => exact .nil
  | @cons c u cs us hb hbs ih =>
    have hle := additions_le hbs
    simp only [additions, List.countP_cons] at he hle ih
    cases hu : u.remove with
    | true =>
      have hc := hb.remove hu
      rw [hc, hu] at he
      exact .cons ⟨hb.publicKey, hb.allowedIps, hc.trans hu.symm⟩ (ih (by simpa using he))
    | false =>
      cases hc : c.remove with
      | true =>
        simp [hc, hu] at he
        omega
      | false =>
        rw [hc, hu] at he
        exact .cons ⟨hb.publicKey, hb.allowedIps, hc.trans hu.symm⟩ (ih (by simpa using he))

theorem AllAgree.marks (h : AllAgree cs us) (hb : List.Forall₂ Behind cs us) :
    List.Forall₂ SameMark cs us := by
  induction hb with
  | nil => exact .nil
  | cons hb _ ih => exact .cons ⟨hb.publicKey, hb.allowedIps, h.1.1⟩ (ih h.2)

end PeerUpdate

namespace ConfiguredDevice
variable {d d' e : ConfiguredDevice} {cs us : List PeerUpdate}

theorem heapSize_updateAll (h : d.updateAll us = some d') :
    d'.heapSize = d.heapSize + PeerUpdate.additions us := by
  induction us generalizing d with
  | nil =>
    cases h
    rfl
  | cons u us ih =>
    obtain ⟨d₁, hu, hus⟩ := updateAll_cons.mp h
    have ha := (updatePeer_iff.mp hu).1
    rw [ih hus]
    simp only [PeerUpdate.additions, List.countP_cons]
    cases hremove : u.remove with
    | true =>
      rw [PeerUpdate.apply_removes hremove, Option.some.injEq] at ha
      have hsize : d₁.heapSize = d.heapSize := by
        rw [← ha, Device.removePeer]
        split <;> rfl
      simp [hsize]
    | false =>
      obtain ⟨p, ha⟩ := PeerUpdate.apply_adds hremove ha
      simp only [ha.heapSize, Bool.not_false, if_true]
      omega

/-- What a request makes of its sections comes to what they ask for exactly
when the updates agree. -/
theorem updateAll_live_iff (hb : List.Forall₂ PeerUpdate.Behind cs us)
    (hu : d.updateAll us = some d') :
    (d.updateAll cs).map live = some d'.live ↔ PeerUpdate.AllAgree cs us := by
  have hbut : SameBut us d d := fun _ _ _ => .inr ⟨rfl, rfl⟩
  rw [Option.map_eq_some_iff]
  constructor
  · rintro ⟨e, hc, hlive⟩
    have hsize := e.seeded.size_eq d'.seeded (live_iff.mp hlive).1.nextIndex
    rw [heapSize_updateAll hc, heapSize_updateAll hu, Nat.add_left_cancel_iff] at hsize
    have hmarks := PeerUpdate.remove_eq_of_additions hb hsize
    exact ((updateAll_live (.refl d.toDevice) hmarks hc hu).mp hlive).2
  · intro hagree
    have hmarks := hagree.marks hb
    have hsame : cs.map PeerUpdate.mark = us.map PeerUpdate.mark := by
      rw [← List.forall₂_eq_eq_eq, List.forall₂_map_left_iff, List.forall₂_map_right_iff]
      exact hmarks.imp fun c u h => Prod.ext h.publicKey h.remove
    have htakes : (d.updateAll cs).isSome := by
      rw [updateAll_isSome, hsame, ← updateAll_isSome, hu]
      rfl
    obtain ⟨e, hc⟩ := Option.isSome_iff_exists.mp htakes
    exact ⟨e, hc, (updateAll_live (.refl d.toDevice) hmarks hc hu).mpr ⟨hbut, hagree⟩⟩

end ConfiguredDevice

-- ---------------------------------------------------------------------------
-- One request and many
-- ---------------------------------------------------------------------------

namespace ConfiguredDevice
variable (prim : Primitives) (sockets : List DeviceCall → CallEnd) {parsers : Parsers}

/-- One request does the same as one a section exactly when the device takes
the sections one by one and each stands by itself, or panics either way. -/
theorem setTogether_iff (d : ConfiguredDevice) (sections : List (Section parsers)) :
    (d.setTogether prim sockets sections).map live =
        (d.setSeparately prim sockets sections).map live ↔
      (d.Takes (Section.ownMarks sections) ∧ Section.AllStand [] sections) ∨
        (¬ d.Takes (Section.ownMarks sections) ∧ ¬ d.Takes (Section.carriedMarks [] sections)) := by
  have hholds := Section.holds_new (beArray 32 0)
  obtain ⟨hbehind, hagrees⟩ := Section.carried_agrees hholds sections
  rw [setTogether_eq, setSeparately_eq, Section.updates_eq sections (beArray 32 0),
    ← Section.mark_own, ← Section.mark_carried hholds, ← updateAll_isSome, ← updateAll_isSome]
  cases hd : d.updateAll (sections.map Section.own) with
  | none => simp
  | some d' =>
    rw [Option.map_some, updateAll_live_iff hbehind hd, hagrees]
    simp

end ConfiguredDevice

-- Two peers, the first with a preshared key.

theorem readHeader_hex (parsers : Parsers) (key : Bytes32) :
    parsers.readHeader (field "public_key" (hexEncode key.toList) ++ ['\n']) = some key := by
  have hsep : '=' ∉ hexEncode key.toList := not_mem_hexEncode (by decide)
  rw [Parsers.readHeader, List.dropLast_concat, field, splitOn_cons (by decide),
    splitOn_single hsep]
  exact parseKeyBytes_hexEncode _ key

theorem readSetting_presharedKey (parsers : Parsers) (key : Bytes32) :
    parsers.readSetting (field "preshared_key" (hexEncode key.toList) ++ ['\n']) =
      some (.presharedKey key) := by
  rw [Parsers.readSetting, List.dropLast_concat, field, splitOnce_append (by decide),
    Option.bind_some]
  simp only [String.ofList_toList, parseKeyBytes_hexEncode, Option.map_some]

def sampleParsers : Parsers := ⟨fun _ => none, fun _ => none, fun _ => none⟩

def sampleSection (publicKey : Bytes32) (presharedKey : Option Bytes32) :
    Section sampleParsers where
  header := field "public_key" (hexEncode publicKey.toList) ++ ['\n']
  body := presharedKey.toList.map fun key => field "preshared_key" (hexEncode key.toList) ++ ['\n']
  publicKey := publicKey
  settings := presharedKey.toList.map .presharedKey
  reads_header := readHeader_hex _ publicKey
  reads_body := by
    cases presharedKey with
    | none => exact .nil
    | some key => exact .cons (readSetting_presharedKey _ key) .nil

def sampleConfigured : ConfiguredDevice :=
  let device := ConfiguredDevice.init sampleConfig.toPaymentConfig 1 0
    (by unfold IndexLfsr.State; decide)
  device.setKey samplePrimitives sampleKey

def sampleSecond (presharedKey : Option Bytes32) : List (Section sampleParsers) :=
  [sampleSection samplePeerKey (some (beArray 32 7)), sampleSection (beArray 32 5) presharedKey]

theorem sampleSecond_own (presharedKey : Option Bytes32) :
    (sampleConfigured.setSeparately samplePrimitives (fun _ => .done)
      (sampleSecond presharedKey)).map (·.live.2 1) = some (some ⟨none, 0, presharedKey⟩) := by
  rw [ConfiguredDevice.setSeparately_eq]
  cases presharedKey <;> rfl

example : sampleConfigured.Takes (Section.ownMarks (sampleSecond (some (beArray 32 9)))) ∧
    Section.AllStand [] (sampleSecond (some (beArray 32 9))) := by
  refine ⟨by rfl, ?_⟩
  simp [sampleSecond, sampleSection, Section.AllStand, Section.Stands, Setting.last?,
    Setting.presharedKey?, Setting.remove?, Setting.endpoint?, Setting.keepalive?]

theorem presharedKey_carried :
    (sampleConfigured.setTogether samplePrimitives (fun _ => .done)
        (sampleSecond none)).map (·.live) ≠
      (sampleConfigured.setSeparately samplePrimitives (fun _ => .done)
        (sampleSecond none)).map (·.live) := by
  intro h
  have htogether : (sampleConfigured.setTogether samplePrimitives (fun _ => .done)
      (sampleSecond none)).map (·.live.2 1) = some (some ⟨none, 0, some (beArray 32 7)⟩) := by
    rw [ConfiguredDevice.setTogether_eq]
    rfl
  have hone := congrArg (Option.map fun live => live.2 1) h
  rw [Option.map_map, Option.map_map] at hone
  cases htogether.symm.trans (hone.trans (sampleSecond_own none))

end Xelt.Boringtun.Uapi
