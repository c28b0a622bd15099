import Xelt.Boringtun.HttpApi.Agreement

/-!
# The registration table by itself

Whatever becomes of the UAPI calls, the table stays in order: each octet of
the pool is free or held by one key, and the collections speak of the same
keys. The table changes only when a call reported success, and the thread
that changes it holds the mutex since it looked.
-/

namespace Xelt.Boringtun.HttpApi

open Runs

theorem mem_poolOctets {octet : UInt8} : octet ∈ poolOctets ↔ 2 ≤ octet ∧ octet ≤ 254 := by
  have hlt := octet.toNat_lt
  have hmem : octet ∈ poolOctets ↔ ∃ i < 253, UInt8.ofNat (i + 2) = octet := by
    change octet ∈ (List.range 253).map _ ↔ _
    simp only [List.mem_map, List.mem_range]
  rw [hmem, UInt8.le_iff_toNat_le, UInt8.le_iff_toNat_le]
  constructor
  · rintro ⟨i, hi, rfl⟩
    simp only [UInt8.toNat_ofNat', UInt8.reduceToNat]
    omega
  · rintro ⟨hlo, hhi⟩
    simp only [UInt8.reduceToNat] at hlo hhi
    refine ⟨octet.toNat - 2, by omega, UInt8.toNat_inj.mp ?_⟩
    simp only [UInt8.toNat_ofNat']
    omega

namespace RegistrationInner

/-- Every octet of the pool is accounted for. A registered key implies a
filled cache, since a registration fills it first. -/
structure Complete (inner : RegistrationInner) : Prop extends inner.WellFormed where
  times : ∀ key, (inner.peerRegisteredAt.lookup key).isSome ↔ (inner.peerToOctet.lookup key).isSome
  octet : ∀ octet, 2 ≤ octet ∧ octet ≤ 254 ↔
    octet ∈ inner.availableIps ∨ ∃ key, inner.peerToOctet.lookup key = some octet
  cached : ∀ key, (inner.peerToOctet.lookup key).isSome → inner.serverPubkeyCache.isSome

theorem new_complete : new.Complete where
  toWellFormed := new_wellFormed
  times key := by simp [new]
  octet octet := by simp [new, mem_poolOctets]
  cached key h := by simp [new] at h

theorem forget_registeredAt (inner : RegistrationInner) (key k : Bytes32) (octet : UInt8) :
    (inner.forget key octet).peerRegisteredAt.lookup k =
      if k = key then none else inner.peerRegisteredAt.lookup k := by
  unfold forget
  split
  · rename_i hk
    rw [hk, AList.lookup_erase]
  · rename_i hk
    exact AList.lookup_erase_ne hk

theorem forget_complete {inner : RegistrationInner} (h : inner.Complete)
    (hk : inner.peerToOctet.lookup key = some octet) : (inner.forget key octet).Complete where
  toWellFormed := forget_wellFormed h.toWellFormed hk
  times k := by
    rw [forget_registeredAt, forget_lookup]
    split
    · rfl
    · exact h.times k
  octet o := by
    rw [h.octet o]
    simp only [forget, Finset.mem_insert]
    constructor
    · rintro (ho | ⟨k, hl⟩)
      · exact .inl (.inr ho)
      · by_cases hkey : k = key
        · subst hkey
          exact .inl (.inl (Option.some.inj (hl.symm.trans hk)))
        · exact .inr ⟨k, (AList.lookup_erase_ne hkey).trans hl⟩
    · rintro ((rfl | ho) | ⟨k, hl⟩)
      · exact .inr ⟨key, hk⟩
      · exact .inl ho
      · by_cases hkey : k = key
        · rw [hkey, AList.lookup_erase] at hl
          cases hl
        · exact .inr ⟨k, (AList.lookup_erase_ne hkey).symm.trans hl⟩
  cached k hl := by
    rw [forget_lookup] at hl
    split at hl
    · cases hl
    · exact h.cached k hl

theorem register_complete (cfg : Settings) {inner : RegistrationInner} (h : inner.Complete)
    (ho : octet ∈ inner.availableIps) (hn : inner.peerToOctet.lookup key = none)
    (hc : inner.serverPubkeyCache.isSome) :
    (finishRegistration cfg inner key octet now (.ok ())).1.Complete where
  toWellFormed := register_wellFormed cfg h.toWellFormed ho
  times k := by
    simp only [finishRegistration]
    by_cases hk : k = key
    · rw [hk, AList.lookup_insert, AList.lookup_insert]
      simp
    · rw [AList.lookup_insert_ne hk, AList.lookup_insert_ne hk]
      exact h.times k
  octet o := by
    rw [h.octet o]
    simp only [finishRegistration, Finset.mem_erase]
    constructor
    · rintro (hfree | ⟨k, hl⟩)
      · by_cases hoo : o = octet
        · exact .inr ⟨key, by rw [AList.lookup_insert, hoo]⟩
        · exact .inl ⟨hoo, hfree⟩
      · have hne : k ≠ key := by
          rintro rfl
          rw [hn] at hl
          cases hl
        exact .inr ⟨k, (AList.lookup_insert_ne hne).trans hl⟩
    · rintro (⟨-, hfree⟩ | ⟨k, hl⟩)
      · exact .inl hfree
      · by_cases hk : k = key
        · rw [hk, AList.lookup_insert, Option.some.injEq] at hl
          exact .inl (hl ▸ ho)
        · exact .inr ⟨k, (AList.lookup_insert_ne hk).symm.trans hl⟩
  cached _ _ := hc

end RegistrationInner

theorem SameTable.complete {inner inner' : RegistrationInner} (h : SameTable inner inner')
    (hc : inner.serverPubkeyCache.isSome → inner'.serverPubkeyCache.isSome)
    (hw : inner.Complete) : inner'.Complete := by
  have hwell := h.wellFormed hw.toWellFormed
  obtain ⟨_, _, rfl⟩ := h
  exact ⟨hwell, hw.times, hw.octet, fun key hl => hc (hw.cached key hl)⟩

theorem populate_cached {inner inner' : RegistrationInner}
    (h : populate d inner info = .ok inner') :
    inner'.serverPubkeyCache.isSome := by
  unfold populate at h
  split at h
  · rename_i pk hpk
    cases h
    rw [hpk]
    rfl
  · split at h
    · cases h
    · split at h <;> cases h
      rfl

section
variable {cfg : Settings} {base64Decode : String → Option Bytes}
  {inner inner' : RegistrationInner}

theorem answer_cached (h : beginRegistration cfg base64Decode d inner pubkeyBase64 info octet =
      .answer inner' r) (hc : inner.serverPubkeyCache.isSome) :
    inner'.serverPubkeyCache.isSome := by
  unfold beginRegistration at h
  split at h
  · cases h
    exact hc
  · split at h
    · cases h
      exact hc
    · rename_i hp
      have hfilled := populate_cached hp
      split at h
      · cases h
        exact hfilled
      · split at h <;> cases h
        exact hfilled

theorem call_cached (h : beginRegistration cfg base64Decode d inner pubkeyBase64 info octet =
      .call inner' key o) : inner'.serverPubkeyCache.isSome := by
  unfold beginRegistration at h
  split at h
  · cases h
  · split at h
    · cases h
    · rename_i hp
      split at h
      · cases h
      · split at h <;> cases h
        exact populate_cached hp

theorem beginRegistration_registered (hw : inner.Complete)
    (hkey : decodeKey base64Decode pubkeyBase64 = .ok key)
    (ho : inner.peerToOctet.lookup key = some o) :
    beginRegistration cfg base64Decode d inner pubkeyBase64 info octet =
      .answer inner (buildSuccessResponse cfg inner o) := by
  have hmem : key ∈ inner.registeredPeers := (hw.registered key).mpr (by simp [ho])
  obtain ⟨pk, hpk⟩ := Option.isSome_iff_exists.mp (hw.cached key (by simp [ho]))
  simp only [beginRegistration, hkey, populate, hpk, if_pos hmem, ho]

namespace Service

/-- The table is complete, and the thread at a UAPI call knows where it
stands. Nothing is said of the device. -/
structure Tabled (s : Service) : Prop where
  table : s.inner.Complete
  pending : s.PendingOk
  reaping : s.ReapingOk
  cached : ∀ key octet, (s.http = .setting key octet ∨ ∃ reply, s.http = .set key octet reply) →
    s.inner.serverPubkeyCache.isSome

theorem init_tabled (d : Device) : (init d).Tabled where
  table := RegistrationInner.new_complete
  pending := trivial
  reaping := trivial
  cached key octet h := by simp [init] at h

variable {s s' : Service}

theorem Tabled.placed (h : s.Tabled) : s.Placed := ⟨h.table.toWellFormed, h.pending, h.reaping⟩

theorem register_tabled (hi : s.Tabled)
    (hs : s.step cfg base64Decode (.register pubkeyBase64 info octet) = some s') : s'.Tabled := by
  have hp := step_placed hi.placed hs
  obtain ⟨hidle, -, ⟨inner, r, hb, hsame, rfl⟩ | ⟨inner, key, hb, hsame, -, -, rfl⟩⟩ :=
    register_cases hi.placed hs
  · exact ⟨hsame.complete (answer_cached hb) hi.table, hp.pending, hp.reaping, by simp [hidle]⟩
  · exact ⟨hsame.complete (fun _ => call_cached hb) hi.table, hp.pending, hp.reaping,
      fun _ _ _ => call_cached hb⟩

theorem unregister_tabled (hi : s.Tabled)
    (hs : s.step cfg base64Decode (.unregister pubkeyBase64) = some s') : s'.Tabled := by
  have hp := step_placed hi.placed hs
  obtain ⟨-, -, rfl | ⟨key, octet, -, rfl⟩⟩ := unregister_cases hs
  · exact hi
  · exact ⟨hi.table, hp.pending, hp.reaping, by simp⟩

theorem uapi_tabled (hi : s.Tabled)
    (hs : s.step cfg base64Decode (.uapi c) = some s') : s'.Tabled := by
  have hp := step_placed hi.placed hs
  obtain ⟨-, ⟨key, octet, hhttp, -, rfl⟩ | ⟨key, octet, hhttp, -, rfl⟩⟩ := uapi_cases hi.placed hs
  · exact ⟨hi.table, hp.pending, hp.reaping, fun _ _ _ => hi.cached key octet (.inl hhttp)⟩
  · exact ⟨hi.table, hp.pending, hp.reaping, by simp⟩

theorem reply_tabled (hi : s.Tabled)
    (hs : s.step cfg base64Decode .reply = some s') : s'.Tabled := by
  have hp := step_placed hi.placed hs
  obtain ⟨-, hidle, -, -, hinner⟩ := reply_cases hi.placed hs
  refine ⟨?_, hp.pending, hp.reaping, by simp [hidle]⟩
  rcases hinner with ⟨key, octet, hhttp, hpending, hinner⟩ | ⟨key, octet, -, hpending, hinner⟩ |
    ⟨-, hinner⟩
  · rw [hinner]
    exact RegistrationInner.register_complete cfg hi.table hpending.1 hpending.2
      (hi.cached key octet (.inr ⟨_, hhttp⟩))
  · rw [hinner]
    exact RegistrationInner.forget_complete hi.table hpending
  · rw [hinner]
    exact hi.table

theorem tick_tabled (hi : s.Tabled) (hs : s.step cfg base64Decode i = some s')
    (htick : (∃ ages, i = .snapshot ages) ∨ i = .readClock ∨ i = .scan) : s'.Tabled := by
  have hp := step_placed hi.placed hs
  obtain ⟨-, hinner, hhttp⟩ := tick_same hs htick
  refine ⟨hinner ▸ hi.table, hp.pending, hp.reaping, ?_⟩
  rw [hinner, hhttp]
  exact hi.cached

theorem reap_tabled (hi : s.Tabled)
    (hs : s.step cfg base64Decode (.reap c) = some s') : s'.Tabled := by
  have hp := step_placed hi.placed hs
  obtain ⟨key, octet, rest, hidle, hkey, -, -, rfl⟩ := reap_cases hi.placed hs
  refine ⟨?_, hp.pending, hp.reaping, by simp [hidle]⟩
  rcases reapOne_table s.device s.inner key octet c with hinner | hinner
  · rw [hinner]
    exact RegistrationInner.forget_complete hi.table hkey
  · rw [hinner]
    exact hi.table

theorem step_tabled (hi : s.Tabled) (hs : s.step cfg base64Decode i = some s') : s'.Tabled := by
  cases i with
  | elapse ns =>
    cases hs
    exact ⟨hi.table, hi.pending, hi.reaping, hi.cached⟩
  | register pubkeyBase64 info octet => exact register_tabled hi hs
  | unregister pubkeyBase64 => exact unregister_tabled hi hs
  | uapi c => exact uapi_tabled hi hs
  | reply => exact reply_tabled hi hs
  | snapshot ages => exact tick_tabled hi hs (.inl ⟨ages, rfl⟩)
  | readClock => exact tick_tabled hi hs (.inr (.inl rfl))
  | scan => exact tick_tabled hi hs (.inr (.inr rfl))
  | reap c => exact reap_tabled hi hs

/-- In every state the service can reach, whatever its UAPI calls came to,
each octet of the pool is free or held by exactly one key, the collections
speak of the same keys, and to register a registered key changes nothing and
returns its address. -/
theorem pool_complete (cfg : Settings) (base64Decode : String → Option Bytes) (d : Device)
    (is : List Input) (he : exec (step cfg base64Decode) (init d) is = some s) :
    s.inner.Complete ∧ ∀ pubkeyBase64 info octet key o,
      decodeKey base64Decode pubkeyBase64 = .ok key → s.inner.peerToOctet.lookup key = some o →
        beginRegistration cfg base64Decode s.device s.inner pubkeyBase64 info octet =
          .answer s.inner (buildSuccessResponse cfg s.inner o) := by
  have hi : s.Tabled := invariant_run (fun s i s' hi hs => step_tabled hi hs) (init_tabled d) he
  exact ⟨hi.table, fun _ _ _ _ _ hkey ho => beginRegistration_registered hi.table hkey ho⟩

/-- The sample key is registered, and its unregistration times out. -/
theorem pool_complete_sample :
    let is := [sampleRegister, .uapi .ok, .reply, .unregister samplePubkey,
      .uapi (.inDoubt "UAPI read: timed out"), .reply]
    ∃ s, exec (step sampleSettings sampleDecode) sampleService is = some s ∧
      s.inner.peerToOctet.lookup samplePeerKey = some 2 ∧ s.inner.Complete := by
  intro is
  have h : (exec (step sampleSettings sampleDecode) sampleService is).map
      (·.inner.peerToOctet.lookup samplePeerKey) = some (some 2) := by decide +kernel
  obtain ⟨s, he, hl⟩ := Option.map_eq_some_iff.mp h
  exact ⟨s, he, hl,
    (pool_complete sampleSettings sampleDecode (sampleKeyed samplePrimitives) is he).1⟩

end Service

end

end Xelt.Boringtun.HttpApi
