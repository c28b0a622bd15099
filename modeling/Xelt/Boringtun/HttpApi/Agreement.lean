import Xelt.Boringtun.Device.Maps
import Xelt.Boringtun.HttpApi.Service

/-!
# The table and the device agree

The registration table follows the device by the replies of its UAPI calls.
As long as every reply tells what happened, the device holds exactly the
peers of the table, each with the address of its octet. A call that takes
effect and reports an error breaks this for good: nothing compares the two
again before the next registration of the key.
-/

namespace Xelt.Boringtun

open Noise Payment

namespace Device

def peerOf (d : Device) (key : Bytes32) : Option Peer := (d.peers.lookup key).bind d.heap

def netsOf (d : Device) (key : Bytes32) : Option (List IpNetwork) :=
  (d.peerOf key).map fun p => p.allowedIps.ips.map (·.1)

/-- Every reference in the table of keys is to an existing peer object. -/
def Live (d : Device) : Prop :=
  ∀ key pid, d.peers.lookup key = some pid → pid < d.heapSize ∧ ∃ p, d.heap pid = some p

theorem Live.lookup_none {d : Device} (h : d.Live) (hn : d.netsOf key = none) :
    d.peers.lookup key = none := by
  by_contra hne
  obtain ⟨pid, hp⟩ := Option.ne_none_iff_exists'.mp hne
  obtain ⟨-, p, hheap⟩ := h key pid hp
  simp [netsOf, peerOf, hp, hheap] at hn

theorem removePeer_netsOf (d : Device) (key k : Bytes32) :
    (d.removePeer key).netsOf k = if k = key then none else d.netsOf k := by
  simp only [netsOf, peerOf, removePeer_lookup, removePeer_heap]
  split <;> rfl

theorem removePeer_live {d : Device} (h : d.Live) : (d.removePeer key).Live := by
  intro k pid hp
  rw [removePeer_lookup] at hp
  rw [removePeer_heap, removePeer_heapSize]
  split at hp
  · cases hp
  · exact h k pid hp

theorem updatePeer_netsOf {d : Device} (hl : d.Live)
    (h : d.updatePeer key false endpoint ips = some d') (k : Bytes32) :
    d'.netsOf k =
      if k = key then some ((AllowedIps.ofList ips ()).ips.map (·.1)) else d.netsOf k := by
  obtain ⟨p, ha⟩ := updatePeer_adds h
  simp only [netsOf, peerOf, ha.peers, ha.heap]
  split
  · rename_i hk
    rw [hk, AList.lookup_insert]
    simp [ha.allowedIps]
  · rename_i hk
    rw [AList.lookup_insert_ne hk]
    cases hp : d.peers.lookup k with
    | none => rfl
    | some pid =>
      have hne : pid ≠ d.heapSize := Nat.ne_of_lt (hl k pid hp).1
      simp [hne]

theorem updatePeer_live {d : Device} (hl : d.Live)
    (h : d.updatePeer key false endpoint ips = some d') : d'.Live := by
  obtain ⟨p, ha⟩ := updatePeer_adds h
  intro k pid hp
  rw [ha.peers] at hp
  rw [ha.heapSize, ha.heap]
  by_cases hk : k = key
  · subst hk
    simp only [AList.lookup_insert, Option.some.injEq] at hp
    subst hp
    exact ⟨Nat.lt_succ_self _, p, by simp⟩
  · rw [AList.lookup_insert_ne hk] at hp
    obtain ⟨hlt, q, hq⟩ := hl k pid hp
    exact ⟨Nat.lt_succ_of_lt hlt, q, by rw [Function.update_of_ne (Nat.ne_of_lt hlt)]; exact hq⟩

end Device

namespace HttpApi

open Runs

-- ---------------------------------------------------------------------------
-- Calls
-- ---------------------------------------------------------------------------

def hostNet (ip : Ipv4Addr) : IpNetwork := ⟨.v4 ip, 32⟩

theorem ofList_host (ip : Ipv4Addr) :
    (AllowedIps.ofList [⟨.v4 ip, 32⟩] ()).ips.map (·.1) = [hostNet ip] := by
  simp [AllowedIps.ofList, AllowedIps.insert, AllowedIps.new, IpNetwork.newTruncate, hostNet]

/-- A definite add: the peer is there and the caller knows, or nothing
changed and the caller knows. -/
theorem uapiSetPeer_cases {d : Device} (key : Bytes32) (ip : Ipv4Addr) (hl : d.Live)
    (hc : c.Definite) :
    (uapiSetPeer d key ip c).1.Live ∧
    (((uapiSetPeer d key ip c).2 = .ok () ∧
        ∀ k, (uapiSetPeer d key ip c).1.netsOf k =
          if k = key then some [hostNet ip] else d.netsOf k) ∨
      ((∃ e, (uapiSetPeer d key ip c).2 = .error e) ∧ (uapiSetPeer d key ip c).1 = d)) := by
  cases c with
  | errno text => exact ⟨hl, .inr ⟨⟨_, rfl⟩, rfl⟩⟩
  | failed e => exact ⟨hl, .inr ⟨⟨_, rfl⟩, rfl⟩⟩
  | ok =>
    cases hu : d.updatePeer key false none [⟨.v4 ip, 32⟩] with
    | none =>
      simp only [uapiSetPeer, hu]
      exact ⟨hl, .inr ⟨⟨_, rfl⟩, trivial⟩⟩
    | some d' =>
      simp only [uapiSetPeer, hu]
      refine ⟨Device.updatePeer_live hl hu, .inl ⟨trivial, fun k => ?_⟩⟩
      rw [Device.updatePeer_netsOf hl hu, ofList_host]
  | inDoubt e => exact hc.elim

theorem uapiRemovePeer_cases {d : Device} (key : Bytes32) (hl : d.Live) (hc : c.Definite) :
    (uapiRemovePeer d key c).1.Live ∧
    (((uapiRemovePeer d key c).2 = .ok true ∧
        ∀ k, (uapiRemovePeer d key c).1.netsOf k = if k = key then none else d.netsOf k) ∨
      ((uapiRemovePeer d key c).2 ≠ .ok true ∧ (uapiRemovePeer d key c).1 = d)) := by
  cases c with
  | errno text => exact ⟨hl, .inr ⟨by simp [uapiRemovePeer], rfl⟩⟩
  | failed e => exact ⟨hl, .inr ⟨by simp [uapiRemovePeer], rfl⟩⟩
  | ok => exact ⟨Device.removePeer_live hl, .inl ⟨rfl, d.removePeer_netsOf key⟩⟩
  | inDoubt e => exact hc.elim

theorem reapOne_cases {d : Device} (inner : RegistrationInner) (key : Bytes32) (octet : UInt8)
    (hl : d.Live) (hc : c.Definite) :
    ((reapOne d inner key octet c).1.Live ∧
      (reapOne d inner key octet c).2 = inner.forget key octet ∧
      ∀ k, (reapOne d inner key octet c).1.netsOf k = if k = key then none else d.netsOf k) ∨
    reapOne d inner key octet c = (d, inner) := by
  cases c with
  | errno text => exact .inr rfl
  | failed e => exact .inr rfl
  | ok => exact .inl ⟨Device.removePeer_live hl, rfl, d.removePeer_netsOf key⟩
  | inDoubt e => exact hc.elim

-- ---------------------------------------------------------------------------
-- The invariant
-- ---------------------------------------------------------------------------

namespace RegistrationInner

/-- The table by itself. -/
structure WellFormed (inner : RegistrationInner) : Prop where
  registered : ∀ key, key ∈ inner.registeredPeers ↔ (inner.peerToOctet.lookup key).isSome
  octets : ∀ k₁ k₂ octet, inner.peerToOctet.lookup k₁ = some octet →
    inner.peerToOctet.lookup k₂ = some octet → k₁ = k₂
  pool : ∀ key octet, inner.peerToOctet.lookup key = some octet → octet ∉ inner.availableIps

theorem new_wellFormed : new.WellFormed where
  registered key := by simp [new]
  octets k₁ k₂ octet h := by simp [new] at h
  pool key octet h := by simp [new] at h

theorem forget_lookup (inner : RegistrationInner) (key k : Bytes32) (octet : UInt8) :
    (inner.forget key octet).peerToOctet.lookup k =
      if k = key then none else inner.peerToOctet.lookup k := by
  unfold forget
  split
  · rename_i hk; rw [hk, AList.lookup_erase]
  · rename_i hk; exact AList.lookup_erase_ne hk

theorem forget_wellFormed {inner : RegistrationInner} (h : inner.WellFormed)
    (hk : inner.peerToOctet.lookup key = some octet) : (inner.forget key octet).WellFormed where
  registered k := by
    rw [forget_lookup]
    simp only [forget, Finset.mem_erase, h.registered]
    split <;> simp [*]
  octets k₁ k₂ o h₁ h₂ := by
    rw [forget_lookup] at h₁ h₂
    split at h₁
    · cases h₁
    · split at h₂
      · cases h₂
      · exact h.octets k₁ k₂ o h₁ h₂
  pool k o hl := by
    rw [forget_lookup] at hl
    split at hl
    · cases hl
    · rename_i hne
      simp only [forget, Finset.mem_insert, not_or]
      exact ⟨fun ho => hne (h.octets k key octet (ho ▸ hl) hk), h.pool k o hl⟩

theorem register_wellFormed (cfg : Settings) {inner : RegistrationInner} (h : inner.WellFormed)
    (ho : octet ∈ inner.availableIps) :
    (finishRegistration cfg inner key octet now (.ok ())).1.WellFormed where
  registered k := by
    simp only [finishRegistration, Finset.mem_insert, h.registered]
    by_cases hk : k = key
    · rw [hk, AList.lookup_insert]
      simp
    · simp [hk, AList.lookup_insert_ne hk]
  octets k₁ k₂ o h₁ h₂ := by
    simp only [finishRegistration] at h₁ h₂
    by_cases hk₁ : k₁ = key
    · by_cases hk₂ : k₂ = key
      · rw [hk₁, hk₂]
      · rw [AList.lookup_insert_ne hk₂] at h₂
        rw [hk₁, AList.lookup_insert, Option.some.injEq] at h₁
        exact absurd (h₁ ▸ ho) (h.pool k₂ o h₂)
    · rw [AList.lookup_insert_ne hk₁] at h₁
      by_cases hk₂ : k₂ = key
      · rw [hk₂, AList.lookup_insert, Option.some.injEq] at h₂
        exact absurd (h₂ ▸ ho) (h.pool k₁ o h₁)
      · rw [AList.lookup_insert_ne hk₂] at h₂
        exact h.octets k₁ k₂ o h₁ h₂
  pool k o hl := by
    simp only [finishRegistration] at hl ⊢
    by_cases hk : k = key
    · rw [hk, AList.lookup_insert, Option.some.injEq] at hl
      simp [hl]
    · rw [AList.lookup_insert_ne hk] at hl
      exact fun hm => h.pool k o hl (Finset.mem_of_mem_erase hm)

end RegistrationInner

-- ---------------------------------------------------------------------------
-- The handlers up to their calls
-- ---------------------------------------------------------------------------

/-- Two tables that differ in the cached server info only. -/
def SameTable (inner inner' : RegistrationInner) : Prop :=
  ∃ pubkey port, inner' = { inner with serverPubkeyCache := pubkey, listenPortCache := port }

variable {inner inner' : RegistrationInner}

theorem SameTable.refl (inner : RegistrationInner) : SameTable inner inner := ⟨_, _, rfl⟩

theorem SameTable.lookup (h : SameTable inner inner') : inner'.peerToOctet = inner.peerToOctet := by
  obtain ⟨_, _, rfl⟩ := h
  rfl

theorem SameTable.wellFormed (h : SameTable inner inner') (hw : inner.WellFormed) :
    inner'.WellFormed := by
  obtain ⟨_, _, rfl⟩ := h
  exact ⟨hw.registered, hw.octets, hw.pool⟩

theorem populate_cases (d : Device) (inner : RegistrationInner)
    (info : Except String (Option UInt16)) :
    (∃ inner', populate d inner info = .ok inner' ∧ SameTable inner inner') ∨
      ∃ r, populate d inner info = .error r ∧ r.status ≠ 200 := by
  unfold populate
  split
  · exact .inl ⟨inner, rfl, .refl inner⟩
  · split
    · exact .inr ⟨_, rfl, by simp⟩
    · split
      · exact .inr ⟨_, rfl, by simp⟩
      · exact .inl ⟨_, rfl, _, _, rfl⟩

section
variable {cfg : Settings} {base64Decode : String → Option Bytes}

/-- A registration is answered at once, with 200 only for a key in the table
and its address, or it calls the device for a key that is not. -/
theorem beginRegistration_cases (cfg : Settings) (base64Decode : String → Option Bytes)
    (d : Device) {inner : RegistrationInner} (hw : inner.WellFormed) (pubkeyBase64 : String)
    (info : Except String (Option UInt16)) (octet : UInt8) :
    (∃ inner' r, beginRegistration cfg base64Decode d inner pubkeyBase64 info octet =
        .answer inner' r ∧ SameTable inner inner' ∧
        (r.status = 200 → ∃ key o, (decodeKey base64Decode pubkeyBase64).toOption = some key ∧
          inner.peerToOctet.lookup key = some o ∧ r = buildSuccessResponse cfg inner' o)) ∨
      ∃ inner' key, beginRegistration cfg base64Decode d inner pubkeyBase64 info octet =
        .call inner' key octet ∧ SameTable inner inner' ∧
        inner.peerToOctet.lookup key = none := by
  unfold beginRegistration
  cases hkey : decodeKey base64Decode pubkeyBase64 with
  | error text => exact .inl ⟨_, _, rfl, .refl inner, by simp⟩
  | ok key =>
    simp only
    rcases populate_cases d inner info with ⟨inner', hp, hsame⟩ | ⟨r, hp, hr⟩
    · rw [hp]
      simp only
      have hw' := hsame.wellFormed hw
      split
      · rename_i o ho
        refine .inl ⟨_, _, rfl, hsame, fun _ => ⟨key, o, rfl, ?_, rfl⟩⟩
        rw [← hsame.lookup]
        split at ho
        · exact ho
        · cases ho
      · rename_i hnone
        split
        · exact .inl ⟨_, _, rfl, hsame, by simp⟩
        · refine .inr ⟨_, _, rfl, hsame, ?_⟩
          rw [← hsame.lookup]
          split at hnone
          · exact hnone
          · rename_i hmem
            simpa [hw'.registered] using hmem
    · rw [hp]
      exact .inl ⟨_, _, rfl, .refl inner, fun h => absurd h hr⟩

theorem beginUnregister_cases (base64Decode : String → Option Bytes) (inner : RegistrationInner)
    (pubkeyBase64 : String) :
    (∃ r, beginUnregister base64Decode inner pubkeyBase64 = .answer inner r) ∨
      ∃ key octet, beginUnregister base64Decode inner pubkeyBase64 = .call inner key octet ∧
        inner.peerToOctet.lookup key = some octet := by
  unfold beginUnregister
  split
  · exact .inl ⟨_, rfl⟩
  · split
    · exact .inl ⟨_, rfl⟩
    · rename_i octet ho
      exact .inr ⟨_, octet, rfl, ho⟩

-- ---------------------------------------------------------------------------
-- The invariant of the system
-- ---------------------------------------------------------------------------

namespace Service

/-- The octet the device should hold a key with: the table's, but for the
change the HTTP thread knows of and has not committed. -/
def expected (s : Service) (key : Bytes32) : Option UInt8 :=
  match s.http with
  | .set k octet (.ok ()) => if key = k then some octet else s.inner.peerToOctet.lookup key
  | .removed k _ (.ok true) => if key = k then none else s.inner.peerToOctet.lookup key
  | _ => s.inner.peerToOctet.lookup key

/-- What the HTTP thread knows of the peer it calls for. -/
def PendingOk (s : Service) : Prop :=
  match s.http with
  | .idle => True
  | .setting key octet | .set key octet _ =>
    octet ∈ s.inner.availableIps ∧ s.inner.peerToOctet.lookup key = none
  | .removing key octet | .removed key octet _ => s.inner.peerToOctet.lookup key = some octet

/-- What the reaper knows of the peers it will still remove. -/
def ReapingOk (s : Service) : Prop :=
  match s.reaper with
  | .reaping rest => s.http = .idle ∧ (rest.map (·.1)).Nodup ∧
      ∀ e ∈ rest, s.inner.peerToOctet.lookup e.1 = some e.2
  | _ => True

structure Agrees (cfg : Settings) (s : Service) : Prop where
  live : s.device.Live
  table : s.inner.WellFormed
  pending : s.PendingOk
  reaping : s.ReapingOk
  device : ∀ key, s.device.netsOf key =
    (s.expected key).map fun octet => [hostNet (addrOf cfg octet)]

theorem init_agrees (d : Device) : Agrees cfg (init d) where
  live key pid h := by simp [init, Device.clearPeers] at h
  table := RegistrationInner.new_wellFormed
  pending := trivial
  reaping := trivial
  device key := by
    simp [init, Device.clearPeers, Device.netsOf, Device.peerOf, expected, RegistrationInner.new]

theorem handlerFree_iff (s : Service) :
    s.handlerFree = true ↔ s.http = .idle ∧ ∀ rest, s.reaper ≠ .reaping rest := by
  unfold handlerFree
  cases s.http <;> cases s.reaper <;> simp

theorem ReapingOk.not_reaping {s : Service} (h : s.ReapingOk) (hb : s.http ≠ .idle)
    (rest : List (Bytes32 × UInt8)) : s.reaper ≠ .reaping rest := by
  intro hr
  rw [ReapingOk, hr] at h
  exact hb h.1

theorem reapingOk_of_not {s : Service} (h : ∀ rest, s.reaper ≠ .reaping rest) : s.ReapingOk := by
  unfold ReapingOk
  split
  · rename_i rest hr
    exact absurd hr (h rest)
  · trivial

theorem expected_idle {s : Service} (h : s.http = .idle) (key : Bytes32) :
    s.expected key = s.inner.peerToOctet.lookup key := by
  simp only [expected, h]

theorem ofRest_reapingOk {s : Service} {rest : List (Bytes32 × UInt8)}
    (hidle : s.http = .idle) (hnodup : (rest.map (·.1)).Nodup)
    (hrest : ∀ e ∈ rest, s.inner.peerToOctet.lookup e.1 = some e.2) :
    ReapingOk { s with reaper := .ofRest rest } := by
  cases rest with
  | nil => trivial
  | cons e rest => exact ⟨hidle, hnodup, hrest⟩

theorem toRemove_lookup {inner : RegistrationInner} (he : e ∈ toRemove inner snapshot nowInstant) :
    inner.peerToOctet.lookup e.1 = some e.2 := by
  simp only [toRemove, List.mem_map, List.mem_filter] at he
  obtain ⟨x, ⟨hx, -⟩, rfl⟩ := he
  exact AList.mem_lookup_iff.mpr hx

theorem toRemove_nodup (inner : RegistrationInner) (snapshot : Snapshot) (nowInstant : Nat) :
    ((toRemove inner snapshot nowInstant).map (·.1)).Nodup := by
  have h : (inner.peerToOctet.entries.map Sigma.fst).Nodup := inner.peerToOctet.nodupKeys
  rw [toRemove, List.map_map]
  exact h.sublist (List.filter_sublist.map _)

-- ---------------------------------------------------------------------------
-- What a step can do
-- ---------------------------------------------------------------------------

/-- The table, and what the threads know of the peers they call for. -/
structure Placed (s : Service) : Prop where
  table : s.inner.WellFormed
  pending : s.PendingOk
  reaping : s.ReapingOk

variable {s s' : Service}

theorem register_cases (hp : s.Placed)
    (hs : s.step cfg base64Decode (.register pubkeyBase64 info octet) = some s') :
    s.http = .idle ∧ (∀ rest, s.reaper ≠ .reaping rest) ∧
      ((∃ inner r, beginRegistration cfg base64Decode s.device s.inner pubkeyBase64 info octet =
          .answer inner r ∧ SameTable s.inner inner ∧ s' = { s with inner }) ∨
        ∃ inner key, beginRegistration cfg base64Decode s.device s.inner pubkeyBase64 info octet =
          .call inner key octet ∧ SameTable s.inner inner ∧ octet ∈ inner.availableIps ∧
          inner.peerToOctet.lookup key = none ∧
          s' = { s with inner, http := .setting key octet }) := by
  simp only [step] at hs
  split at hs
  · rename_i hfree
    obtain ⟨hidle, hreaper⟩ := s.handlerFree_iff.mp hfree
    refine ⟨hidle, hreaper, ?_⟩
    rcases beginRegistration_cases cfg base64Decode s.device hp.table
        pubkeyBase64 info octet with
      ⟨inner, r, hb, hsame, -⟩ | ⟨inner, key, hb, hsame, hnone⟩
    · simp only [hb, Option.some.injEq] at hs
      exact .inl ⟨inner, r, hb, hsame, hs.symm⟩
    · simp only [hb] at hs
      split at hs
      · rename_i ho
        cases hs
        rw [← hsame.lookup] at hnone
        exact .inr ⟨inner, key, hb, hsame, ho, hnone, rfl⟩
      · cases hs
  · cases hs

theorem unregister_cases (hs : s.step cfg base64Decode (.unregister pubkeyBase64) = some s') :
    s.http = .idle ∧ (∀ rest, s.reaper ≠ .reaping rest) ∧
      (s' = s ∨ ∃ key octet, s.inner.peerToOctet.lookup key = some octet ∧
        s' = { s with http := .removing key octet }) := by
  simp only [step] at hs
  split at hs
  · rename_i hfree
    obtain ⟨hidle, hreaper⟩ := s.handlerFree_iff.mp hfree
    refine ⟨hidle, hreaper, ?_⟩
    rcases beginUnregister_cases base64Decode s.inner pubkeyBase64 with
      ⟨r, hb⟩ | ⟨key, octet, hb, ho⟩
    · simp only [hb, Option.some.injEq] at hs
      exact .inl hs.symm
    · simp only [hb, Option.some.injEq] at hs
      exact .inr ⟨key, octet, ho, hs.symm⟩
  · cases hs

theorem uapi_cases (hp : s.Placed) (hs : s.step cfg base64Decode (.uapi c) = some s') :
    (∀ rest, s.reaper ≠ .reaping rest) ∧
      ((∃ key octet, s.http = .setting key octet ∧
          (octet ∈ s.inner.availableIps ∧ s.inner.peerToOctet.lookup key = none) ∧
          s' = { s with
            device := (uapiSetPeer s.device key (addrOf cfg octet) c).1
            http := .set key octet (uapiSetPeer s.device key (addrOf cfg octet) c).2 }) ∨
        ∃ key octet, s.http = .removing key octet ∧
          s.inner.peerToOctet.lookup key = some octet ∧
          s' = { s with
            device := (uapiRemovePeer s.device key c).1
            http := .removed key octet (uapiRemovePeer s.device key c).2 }) := by
  have hpending := hp.pending
  simp only [step] at hs
  split at hs
  · rename_i key octet hhttp
    cases hs
    simp only [PendingOk, hhttp] at hpending
    exact ⟨hp.reaping.not_reaping (by simp [hhttp]), .inl ⟨key, octet, hhttp, hpending, rfl⟩⟩
  · rename_i key octet hhttp
    cases hs
    simp only [PendingOk, hhttp] at hpending
    exact ⟨hp.reaping.not_reaping (by simp [hhttp]), .inr ⟨key, octet, hhttp, hpending, rfl⟩⟩
  · cases hs

/-- A reply that reports no change leaves the table alone. -/
theorem reply_cases (hp : s.Placed) (hs : s.step cfg base64Decode .reply = some s') :
    (∀ rest, s.reaper ≠ .reaping rest) ∧ s'.http = .idle ∧ s'.reaper = s.reaper ∧
      s'.device = s.device ∧
      ((∃ key octet, s.http = .set key octet (.ok ()) ∧
          (octet ∈ s.inner.availableIps ∧ s.inner.peerToOctet.lookup key = none) ∧
          s'.inner = (finishRegistration cfg s.inner key octet s.now (.ok ())).1) ∨
        (∃ key octet, s.http = .removed key octet (.ok true) ∧
          s.inner.peerToOctet.lookup key = some octet ∧ s'.inner = s.inner.forget key octet) ∨
        (∀ key, s.expected key = s.inner.peerToOctet.lookup key) ∧ s'.inner = s.inner) := by
  have hpending := hp.pending
  simp only [step] at hs
  split at hs
  · rename_i key octet reply hhttp
    cases hs
    simp only [PendingOk, hhttp] at hpending
    refine ⟨hp.reaping.not_reaping (by simp [hhttp]), rfl, rfl, rfl, ?_⟩
    cases reply with
    | error e => exact .inr (.inr ⟨fun k => by simp only [expected, hhttp], rfl⟩)
    | ok u => exact .inl ⟨key, octet, hhttp, hpending, rfl⟩
  · rename_i key octet reply hhttp
    cases hs
    simp only [PendingOk, hhttp] at hpending
    refine ⟨hp.reaping.not_reaping (by simp [hhttp]), rfl, rfl, rfl, ?_⟩
    cases reply with
    | error e => exact .inr (.inr ⟨fun k => by simp only [expected, hhttp], rfl⟩)
    | ok removed =>
      cases removed with
      | false => exact .inr (.inr ⟨fun k => by simp only [expected, hhttp], rfl⟩)
      | true => exact .inr (.inl ⟨key, octet, hhttp, hpending, rfl⟩)
  · cases hs

theorem reap_cases (hp : s.Placed) (hs : s.step cfg base64Decode (.reap c) = some s') :
    ∃ key octet rest, s.http = .idle ∧ s.inner.peerToOctet.lookup key = some octet ∧
      (rest.map (·.1)).Nodup ∧
      (∀ e ∈ rest, e.1 ≠ key ∧ s.inner.peerToOctet.lookup e.1 = some e.2) ∧
      s' = { s with
        device := (reapOne s.device s.inner key octet c).1
        inner := (reapOne s.device s.inner key octet c).2
        reaper := .ofRest rest } := by
  have hreaping := hp.reaping
  simp only [step] at hs
  split at hs
  · rename_i key octet rest hreaper
    cases hs
    simp only [ReapingOk, hreaper, List.map_cons, List.nodup_cons, List.mem_cons,
      forall_eq_or_imp] at hreaping
    obtain ⟨hidle, ⟨hnew, hnodup⟩, hkey, hrest⟩ := hreaping
    have hne : ∀ e ∈ rest, e.1 ≠ key := fun e he h => hnew (h ▸ List.mem_map_of_mem he)
    exact ⟨key, octet, rest, hidle, hkey, hnodup, fun e he => ⟨hne e he, hrest e he⟩, rfl⟩
  · cases hs

/-- Up to its removals a tick reads only. -/
theorem tick_same (hs : s.step cfg base64Decode i = some s')
    (hi : (∃ ages, i = .snapshot ages) ∨ i = .readClock ∨ i = .scan) :
    s'.device = s.device ∧ s'.inner = s.inner ∧ s'.http = s.http := by
  rcases hi with ⟨ages, rfl⟩ | rfl | rfl
  all_goals
    simp only [step] at hs
    split at hs <;> cases hs <;> exact ⟨rfl, rfl, rfl⟩

theorem reapOne_table (d : Device) (inner : RegistrationInner) (key : Bytes32) (octet : UInt8)
    (c : Call) :
    (reapOne d inner key octet c).2 = inner.forget key octet ∨
      (reapOne d inner key octet c).2 = inner := by
  cases c with
  | ok => exact .inl rfl
  | errno text => exact .inr rfl
  | failed e => exact .inr rfl
  | inDoubt e => exact .inr rfl

theorem reap_placed (hp : s.Placed) (hs : s.step cfg base64Decode (.reap c) = some s') :
    s'.Placed := by
  obtain ⟨key, octet, rest, hidle, hkey, hnodup, hrest, rfl⟩ := reap_cases hp hs
  rcases reapOne_table s.device s.inner key octet c with hinner | hinner
  · rw [hinner]
    refine ⟨RegistrationInner.forget_wellFormed hp.table hkey, by simp [PendingOk, hidle],
      ofRest_reapingOk (s := { s with inner := s.inner.forget key octet }) hidle hnodup
        fun e he => ?_⟩
    rw [RegistrationInner.forget_lookup, if_neg (hrest e he).1]
    exact (hrest e he).2
  · rw [hinner]
    exact ⟨hp.table, by simp [PendingOk, hidle],
      ofRest_reapingOk hidle hnodup fun e he => (hrest e he).2⟩

/-- Whatever becomes of the UAPI calls, the threads know where they stand. -/
theorem step_placed (hp : s.Placed) (hs : s.step cfg base64Decode i = some s') : s'.Placed := by
  cases i with
  | elapse ns =>
    cases hs
    exact ⟨hp.table, hp.pending, hp.reaping⟩
  | register pubkeyBase64 info octet =>
    obtain ⟨hidle, hreaper, ⟨inner, r, -, hsame, rfl⟩ | ⟨inner, key, -, hsame, ho, hnone, rfl⟩⟩ :=
      register_cases hp hs
    · exact ⟨hsame.wellFormed hp.table, by simp [PendingOk, hidle], reapingOk_of_not hreaper⟩
    · exact ⟨hsame.wellFormed hp.table, ⟨ho, hnone⟩, reapingOk_of_not hreaper⟩
  | unregister pubkeyBase64 =>
    obtain ⟨-, hreaper, rfl | ⟨key, octet, ho, rfl⟩⟩ := unregister_cases hs
    · exact hp
    · exact ⟨hp.table, ho, reapingOk_of_not hreaper⟩
  | uapi c =>
    obtain ⟨hreaper, ⟨key, octet, -, hpending, rfl⟩ | ⟨key, octet, -, hpending, rfl⟩⟩ :=
      uapi_cases hp hs
    · exact ⟨hp.table, hpending, reapingOk_of_not hreaper⟩
    · exact ⟨hp.table, hpending, reapingOk_of_not hreaper⟩
  | reply =>
    obtain ⟨hreaper, hidle, hr, -, hinner⟩ := reply_cases hp hs
    refine ⟨?_, by simp [PendingOk, hidle], reapingOk_of_not (hr ▸ hreaper)⟩
    rcases hinner with ⟨key, octet, -, hpending, hinner⟩ | ⟨key, octet, -, hpending, hinner⟩ |
      ⟨-, hinner⟩
    · rw [hinner]
      exact RegistrationInner.register_wellFormed cfg hp.table hpending.1
    · rw [hinner]
      exact RegistrationInner.forget_wellFormed hp.table hpending
    · rw [hinner]
      exact hp.table
  | snapshot ages =>
    simp only [step] at hs
    split at hs <;> cases hs
    · exact ⟨hp.table, hp.pending, trivial⟩
    · exact hp
  | readClock =>
    simp only [step] at hs
    split at hs <;> cases hs
    exact ⟨hp.table, hp.pending, trivial⟩
  | scan =>
    simp only [step] at hs
    split at hs <;> cases hs
    rename_i hidle
    exact ⟨hp.table, hp.pending,
      ofRest_reapingOk hidle (toRemove_nodup ..) fun _ he => toRemove_lookup he⟩
  | reap c => exact reap_placed hp hs

-- ---------------------------------------------------------------------------
-- The device agrees with the table
-- ---------------------------------------------------------------------------

theorem Agrees.placed (h : Agrees cfg s) : s.Placed := ⟨h.table, h.pending, h.reaping⟩

theorem Placed.agrees (hp : s.Placed) (hl : s.device.Live)
    (hd : ∀ key, s.device.netsOf key =
      (s.expected key).map fun octet => [hostNet (addrOf cfg octet)]) : Agrees cfg s :=
  ⟨hl, hp.table, hp.pending, hp.reaping, hd⟩

theorem register_agrees (hi : Agrees cfg s)
    (hs : s.step cfg base64Decode (.register pubkeyBase64 info octet) = some s') :
    Agrees cfg s' := by
  have hp := step_placed hi.placed hs
  obtain ⟨hidle, -, ⟨inner, r, -, hsame, rfl⟩ | ⟨inner, key, -, hsame, -, -, rfl⟩⟩ :=
    register_cases hi.placed hs
  all_goals
    refine hp.agrees hi.live fun k => ?_
    rw [hi.device k, expected_idle hidle, ← hsame.lookup]
    simp only [expected, hidle]

theorem unregister_agrees (hi : Agrees cfg s)
    (hs : s.step cfg base64Decode (.unregister pubkeyBase64) = some s') : Agrees cfg s' := by
  have hp := step_placed hi.placed hs
  obtain ⟨hidle, -, rfl | ⟨key, octet, -, rfl⟩⟩ := unregister_cases hs
  · exact hi
  · refine hp.agrees hi.live fun k => ?_
    rw [hi.device k, expected_idle hidle]
    rfl

theorem uapi_agrees (hi : Agrees cfg s) (hc : c.Definite)
    (hs : s.step cfg base64Decode (.uapi c) = some s') : Agrees cfg s' := by
  have hp := step_placed hi.placed hs
  have hdevice := hi.device
  obtain ⟨-, ⟨key, octet, hhttp, -, rfl⟩ | ⟨key, octet, hhttp, -, rfl⟩⟩ := uapi_cases hi.placed hs
  · simp only [expected, hhttp] at hdevice
    obtain ⟨hlive, ⟨hok, hnets⟩ | ⟨⟨e, he⟩, hsame⟩⟩ := uapiSetPeer_cases key
      (addrOf cfg octet) hi.live hc
    · refine hp.agrees hlive fun k => ?_
      simp only [hnets, expected, hok, hdevice]
      split <;> rfl
    · refine hp.agrees hlive fun k => ?_
      simp only [hsame, expected, he, hdevice]
  · simp only [expected, hhttp] at hdevice
    obtain ⟨hlive, ⟨hok, hnets⟩ | ⟨hne, hsame⟩⟩ := uapiRemovePeer_cases key hi.live hc
    · refine hp.agrees hlive fun k => ?_
      simp only [hnets, expected, hok, hdevice]
      split <;> rfl
    · refine hp.agrees hlive fun k => ?_
      simp only [hsame, hdevice, expected]
      split
      · rename_i hr
        cases hr
      · rename_i hr
        simp only [HttpPc.removed.injEq] at hr
        exact absurd hr.2.2 hne
      · rfl

theorem reply_agrees (hi : Agrees cfg s)
    (hs : s.step cfg base64Decode .reply = some s') : Agrees cfg s' := by
  have hp := step_placed hi.placed hs
  have hdevice := hi.device
  obtain ⟨-, hidle, -, hd, hinner⟩ := reply_cases hi.placed hs
  refine hp.agrees (hd ▸ hi.live) fun k => ?_
  rw [hd, hdevice, expected_idle hidle]
  rcases hinner with ⟨key, octet, hhttp, -, hinner⟩ | ⟨key, octet, hhttp, -, hinner⟩ |
    ⟨hsame, hinner⟩
  · simp only [hinner, expected, hhttp, finishRegistration]
    by_cases hk : k = key
    · rw [hk, AList.lookup_insert, if_pos rfl]
    · rw [AList.lookup_insert_ne hk, if_neg hk]
  · simp only [hinner, expected, hhttp, RegistrationInner.forget_lookup]
  · rw [hinner, hsame]

theorem tick_agrees (hi : Agrees cfg s) (hs : s.step cfg base64Decode i = some s')
    (htick : (∃ ages, i = .snapshot ages) ∨ i = .readClock ∨ i = .scan) : Agrees cfg s' := by
  obtain ⟨hd, hinner, hhttp⟩ := tick_same hs htick
  refine (step_placed hi.placed hs).agrees (hd ▸ hi.live) fun k => ?_
  rw [hd, hi.device k]
  simp only [expected, hinner, hhttp]

theorem reap_agrees (hi : Agrees cfg s) (hc : c.Definite)
    (hs : s.step cfg base64Decode (.reap c) = some s') : Agrees cfg s' := by
  have hp := step_placed hi.placed hs
  have hdevice := hi.device
  obtain ⟨key, octet, rest, hidle, -, -, -, rfl⟩ := reap_cases hi.placed hs
  simp only [expected, hidle] at hdevice
  rcases reapOne_cases s.inner key octet hi.live hc with ⟨hlive, hinner, hnets⟩ | hsame
  · refine hp.agrees hlive fun k => ?_
    simp only [hinner, hnets, hdevice, expected, hidle, RegistrationInner.forget_lookup]
    split <;> rfl
  · refine hp.agrees (by rw [hsame]; exact hi.live) fun k => ?_
    simp only [hsame, hdevice, expected, hidle]

end Service

/-- Whoever makes a UAPI call in an input knows what became of it. -/
def Input.Definite : Input → Prop
  | .uapi c | .reap c => c.Definite
  | _ => True

namespace Service

theorem step_agrees (hi : Agrees cfg s) (hc : i.Definite)
    (hs : s.step cfg base64Decode i = some s') : Agrees cfg s' := by
  cases i with
  | elapse ns =>
    cases hs
    exact ⟨hi.live, hi.table, hi.pending, hi.reaping, hi.device⟩
  | register pubkeyBase64 info octet => exact register_agrees hi hs
  | unregister pubkeyBase64 => exact unregister_agrees hi hs
  | uapi c => exact uapi_agrees hi hc hs
  | reply => exact reply_agrees hi hs
  | snapshot ages => exact tick_agrees hi hs (.inl ⟨ages, rfl⟩)
  | readClock => exact tick_agrees hi hs (.inr (.inl rfl))
  | scan => exact tick_agrees hi hs (.inr (.inr rfl))
  | reap c => exact reap_agrees hi hc hs

end Service

def NoSharedAddr (d : Device) : Prop :=
  ∀ k₁ k₂ nets₁ nets₂ net, d.netsOf k₁ = some nets₁ → d.netsOf k₂ = some nets₂ →
    net ∈ nets₁ → net ∈ nets₂ → net.netmask = 32 → k₁ = k₂

/-- An add is for a key the device does not hold, and a registration answered
with 200 is one the device holds, with the returned address and no other. -/
def Output.Safe (d : Device) : Output → Prop
  | .addSent key _ => d.peers.lookup key = none
  | .registration key r => r.status = 200 → ∃ k answer, key = some k ∧
      r.body = .success answer ∧ d.netsOf k = some [hostNet answer.assignedIp]
  | .reaped _ => True

theorem addrOf_injective (h : addrOf cfg a = addrOf cfg b) : a = b := by
  have ha := a.toNat_lt
  have hb := b.toNat_lt
  have h1 := cfg.subnetPrefix.1.toNat_lt
  have h2 := cfg.subnetPrefix.2.1.toNat_lt
  have h3 := cfg.subnetPrefix.2.2.toNat_lt
  have h := congrArg BitVec.toNat h
  simp only [addrOf, Payment.Ipv4Addr.new, BitVec.toNat_ofNat, Bytes.readBe, List.length_cons,
    List.length_nil] at h
  apply UInt8.toNat_inj.mp
  omega

namespace Service

theorem expected_injective {s : Service} (hi : Agrees cfg s) (h₁ : s.expected k₁ = some octet)
    (h₂ : s.expected k₂ = some octet) : k₁ = k₂ := by
  have hpending := hi.pending
  have hpool := hi.table.pool
  have hsame := hi.table.octets k₁ k₂ octet
  simp only [expected] at h₁ h₂
  split at h₁
  · rename_i k o hhttp
    simp only [PendingOk, hhttp] at hpending h₂
    split at h₁
    · rename_i hk₁
      split at h₂
      · rename_i hk₂
        rw [hk₁, hk₂]
      · cases h₁
        exact absurd hpending.1 (hpool _ _ h₂)
    · split at h₂
      · cases h₂
        exact absurd hpending.1 (hpool _ _ h₁)
      · exact hsame h₁ h₂
  · rename_i k o hhttp
    simp only [hhttp] at h₂
    split at h₁
    · cases h₁
    · split at h₂
      · cases h₂
      · exact hsame h₁ h₂
  · rename_i hset hremoved
    split at h₂
    · rename_i hhttp
      exact absurd hhttp (hset _ _)
    · rename_i hhttp
      exact absurd hhttp (hremoved _ _)
    · exact hsame h₁ h₂

theorem noSharedAddr {s : Service} (hi : Agrees cfg s) : NoSharedAddr s.device := by
  intro k₁ k₂ nets₁ nets₂ net h₁ h₂ hm₁ hm₂ _
  rw [hi.device, Option.map_eq_some_iff] at h₁ h₂
  obtain ⟨o₁, he₁, rfl⟩ := h₁
  obtain ⟨o₂, he₂, rfl⟩ := h₂
  rw [List.mem_singleton] at hm₁ hm₂
  have hnet : hostNet (addrOf cfg o₁) = hostNet (addrOf cfg o₂) := hm₁.symm.trans hm₂
  simp only [hostNet, IpNetwork.mk.injEq, Noise.IpAddr.v4.injEq, and_true] at hnet
  obtain rfl := addrOf_injective hnet
  exact expected_injective hi he₁ he₂

theorem outputs_safe {s : Service} (hi : Agrees cfg s) (i : Input) :
    ∀ o ∈ s.outputs cfg base64Decode i, o.Safe s.device := by
  have hpending := hi.pending
  have hdevice := hi.device
  intro o ho
  cases i with
  | register pubkeyBase64 info octet =>
    simp only [outputs] at ho
    split at ho
    · rename_i hfree
      have hidle := (s.handlerFree_iff.mp hfree).1
      rcases beginRegistration_cases cfg base64Decode s.device hi.table
          pubkeyBase64 info octet with
        ⟨inner', r, hb, hsame, hok⟩ | ⟨inner', key, hb, hsame, hnone⟩
      · simp only [hb, List.mem_singleton] at ho
        subst ho
        intro hr
        obtain ⟨key, octet, hkey, hl, rfl⟩ := hok hr
        exact ⟨key, _, hkey, rfl, by rw [hdevice, expected_idle hidle, hl]; rfl⟩
      · simp [hb] at ho
    · cases ho
  | uapi c =>
    simp only [outputs] at ho
    split at ho
    · rename_i key octet hhttp
      rw [List.mem_singleton] at ho
      subst ho
      simp only [PendingOk, hhttp] at hpending
      refine hi.live.lookup_none ?_
      simp only [hdevice, expected, hhttp, hpending.2, Option.map_none]
    · cases ho
  | reply =>
    simp only [outputs] at ho
    split at ho
    · rename_i key octet reply hhttp
      rw [List.mem_singleton] at ho
      subst ho
      intro hr
      cases reply with
      | error e => simp [finishRegistration] at hr
      | ok u =>
        refine ⟨key, _, rfl, rfl, ?_⟩
        simp only [hdevice, expected, hhttp, if_true, Option.map_some]
    · cases ho
  | reap c =>
    simp only [outputs] at ho
    split at ho
    · rw [List.mem_singleton] at ho
      subst ho
      trivial
    · cases ho
  | elapse ns => cases ho
  | unregister pubkeyBase64 => cases ho
  | snapshot ages => cases ho
  | readClock => cases ho
  | scan => cases ho

/-- In every run whose UAPI calls all have a definite outcome, no two peers
of the device share an address, and whatever happens next, no add is for a
key the device holds and every 200 is true of the device. -/
theorem definite_agree (cfg : Settings) (base64Decode : String → Option Bytes) (d : Device)
    (is : List Input) (hc : ∀ i ∈ is, i.Definite)
    (he : exec (step cfg base64Decode) (init d) is = some s) :
    NoSharedAddr s.device ∧ ∀ i, ∀ o ∈ s.outputs cfg base64Decode i, o.Safe s.device := by
  have hi : Agrees cfg s := by
    refine invariant (C := fun _ i => i.Definite)
      (fun s i s' hi hc hs => step_agrees hi hc hs) (init_agrees d) ?_ he
    exact along_iff_at.mpr fun pre i post t hsplit _ => hc i (by rw [hsplit]; simp)
  exact ⟨noSharedAddr hi, outputs_safe hi⟩

theorem definite_agree_sample :
    let is := [sampleRegister, .uapi .ok, .reply]
    ∃ s, exec (step sampleSettings sampleDecode) sampleService is = some s ∧
      s.device.netsOf samplePeerKey = some [hostNet (.new 10 0 0 2)] ∧
      NoSharedAddr s.device ∧
      ∀ i, ∀ o ∈ s.outputs sampleSettings sampleDecode i, o.Safe s.device := by
  intro is
  have h : ((exec (step sampleSettings sampleDecode) sampleService is).map fun s =>
      s.device.netsOf samplePeerKey) = some (some [hostNet (.new 10 0 0 2)]) := by
    decide +kernel
  obtain ⟨s, he, hn⟩ := Option.map_eq_some_iff.mp h
  exact ⟨s, he, hn, definite_agree sampleSettings sampleDecode _ is
    (by simp [is, sampleRegister, Input.Definite, Call.Definite]) he⟩

/-- An add that took effect and timed out: the key is added again, and the
device panics on it. -/
theorem added_twice :
    let is := [sampleRegister, .uapi (.inDoubt "UAPI read: timed out"), .reply, sampleRegister]
    ∃ s, exec (step sampleSettings sampleDecode) sampleService is = some s ∧
      ∃ o ∈ s.outputs sampleSettings sampleDecode (.uapi .ok), ¬ o.Safe s.device := by
  intro is
  have h : ((exec (step sampleSettings sampleDecode) sampleService is).map fun s =>
      (s.device.peers.lookup samplePeerKey, s.outputs sampleSettings sampleDecode (.uapi .ok))) =
        some (some 0, [.addSent samplePeerKey (.new 10 0 0 2)]) := by
    decide +kernel
  obtain ⟨s, he, hs⟩ := Option.map_eq_some_iff.mp h
  obtain ⟨hlookup, hout⟩ := Prod.mk.inj hs
  refine ⟨s, he, _, by rw [hout]; exact List.mem_singleton_self _, fun hsafe => ?_⟩
  rw [Output.Safe, hlookup] at hsafe
  cases hsafe

end Service

end

end HttpApi

end Xelt.Boringtun
