import Mathlib.Data.Finset.Option
import Xelt.Boringtun.HttpApi.Pool

/-!
# Registration of humans

`handle_registration_v2` on a node for humans only. The proof of a request is
verified before the table is locked; the nullifier it has shown is noted in a
critical section of its own, and the registration follows in another. The
registrations that were answered with 200 are recorded beside the table, for
as long as their keys are registered; nothing is decided by the record.
-/

namespace Xelt.Boringtun.HttpApi

open Runs

/-- The fields of a body that is JSON. -/
structure V2Body where
  publicKey : Option String
  worldProof : Option String

/-- `handle_registration_v2` up to its first lock, with what the verifier
says of the proof: the key and the nullifier to go on with. -/
def beginRegistrationV2 (verdict : String → Except String String) :
    Option V2Body → Except Response (String × String)
  | none => .error ⟨400, .error "invalid JSON"⟩
  | some body =>
    match body.publicKey with
    | none => .error ⟨400, .error "missing public_key field"⟩
    | some pubkeyBase64 =>
      match body.worldProof with
      | none => .error ⟨400, .error "world_proof required for human-only nodes"⟩
      | some proof =>
        match verdict proof with
        | .ok nullifier => .ok (pubkeyBase64, nullifier)
        | .error e => .error ⟨400, .error ("World ID verification failed: " ++ e)⟩

/-- The key that the HTTP thread adds. -/
def HttpPc.adding? : HttpPc → Option Bytes32
  | .setting key _ => some key
  | .set key _ _ => some key
  | _ => none

structure Humans where
  service : Service
  usedNullifiers : Finset String
  /-- The request that is being served behind its verification. -/
  verified : Option (String × String)
  /-- The registered keys with the nullifiers they were admitted with. -/
  admitted : Finset (Bytes32 × String)

inductive HumanInput
  /-- A registration arrives. -/
  | registerV2 (body : Option V2Body) (verdict : String → Except String String)
  | service (i : Input)

/-- The key and the nullifier that a request shows. -/
def HumanInput.shown (base64Decode : String → Option Bytes) : HumanInput → Option (Bytes32 × String)
  | .registerV2 body verdict =>
    match beginRegistrationV2 verdict body with
    | .ok (pubkeyBase64, nullifier) =>
      (decodeKey base64Decode pubkeyBase64).toOption.map fun key => (key, nullifier)
    | .error _ => none
  | .service _ => none

namespace Humans

def init (d : Device) : Humans := ⟨.init d, ∅, none, ∅⟩

/-- What the HTTP thread does next is fixed while it serves a registration. -/
def allows (h : Humans) : Input → Bool
  | .register pubkeyBase64 _ _ => h.verified.map (·.1) == some pubkeyBase64
  | .unregister _ => h.verified.isNone
  | _ => true

/-- The request is behind it once it is answered. -/
def stillVerified (h : Humans) (service : Service) : Input → Option (String × String)
  | .register .. =>
    match service.http with
    | .idle => none
    | _ => h.verified
  | .reply => none
  | _ => h.verified

section
variable (cfg : Settings) (base64Decode : String → Option Bytes)

/-- The key and the nullifier of a registration that is answered with 200. -/
def admission (h : Humans) (i : Input) : Option (Bytes32 × String) :=
  match h.service.outputs cfg base64Decode i, h.verified with
  | [.registration (some key) r], some (_, nullifier) =>
    if r.status = 200 then some (key, nullifier) else none
  | _, _ => none

def step (h : Humans) : HumanInput → Option Humans
  | .registerV2 body verdict =>
    if h.verified = none ∧ h.service.handlerFree then
      match beginRegistrationV2 verdict body with
      | .error _ => some h
      | .ok (pubkeyBase64, nullifier) =>
        some { h with
          usedNullifiers := insert nullifier h.usedNullifiers
          verified := some (pubkeyBase64, nullifier) }
    else none
  | .service i =>
    if h.allows i then
      (h.service.step cfg base64Decode i).map fun service =>
        { service
          usedNullifiers := h.usedNullifiers
          verified := h.stillVerified service i
          admitted := ((h.admission cfg base64Decode i).toFinset ∪ h.admitted).filter
            fun e => e.1 ∈ service.inner.registeredPeers }
    else none

/-- One human, one connection. -/
def OnePerHuman (h : Humans) : Prop :=
  ∀ nullifier key key', (key, nullifier) ∈ h.admitted → (key', nullifier) ∈ h.admitted → key = key'

/-- The steps that admit: a registered key is asked for again, or the device
has taken a new one. -/
inductive Admits (h : Humans) : HumanInput → Bytes32 → String → Prop
  | again (hverified : h.verified = some (pubkeyBase64, nullifier)) (hfree : h.service.handlerFree)
      (hkey : decodeKey base64Decode pubkeyBase64 = .ok key)
      (hmem : key ∈ h.service.inner.registeredPeers) :
      Admits h (.service (.register pubkeyBase64 info octet)) key nullifier
  | added (hverified : h.verified = some (pubkeyBase64, nullifier))
      (hset : h.service.http = .set key octet (.ok ())) : Admits h (.service .reply) key nullifier

end

variable {cfg : Settings} {base64Decode : String → Option Bytes} {h h' : Humans}

-- ---------------------------------------------------------------------------
-- Which steps admit
-- ---------------------------------------------------------------------------

theorem admission_some (ha : h.admission cfg base64Decode i = some (key, nullifier)) :
    ∃ pubkeyBase64 r, h.verified = some (pubkeyBase64, nullifier) ∧
      h.service.outputs cfg base64Decode i = [.registration (some key) r] ∧ r.status = 200 := by
  unfold admission at ha
  split at ha
  · rename_i hout hverified
    split at ha
    · rename_i hstatus
      cases ha
      exact ⟨_, _, hverified, hout, hstatus⟩
    · cases ha
  · cases ha

theorem admission_eq (hverified : h.verified = some (pubkeyBase64, nullifier))
    (hout : h.service.outputs cfg base64Decode i = [.registration (some key) r])
    (hstatus : r.status = 200) : h.admission cfg base64Decode i = some (key, nullifier) := by
  simp only [admission, hout, hverified, if_pos hstatus]

/-- A registration that admits at once finds the key in the table, and leaves
the table as it is. -/
theorem register_admits (ht : h.service.Tabled)
    (hallow : h.allows (.register pubkeyBase64 info octet))
    (ha : h.admission cfg base64Decode (.register pubkeyBase64 info octet) =
      some (key, nullifier)) :
    h.Admits base64Decode (.service (.register pubkeyBase64 info octet)) key nullifier := by
  obtain ⟨pubkeyBase64', r, hverified, hout, hstatus⟩ := admission_some ha
  obtain rfl : pubkeyBase64' = pubkeyBase64 := by simpa [allows, hverified] using hallow
  simp only [Service.outputs] at hout
  split at hout
  · rename_i hfree
    rcases beginRegistration_cases cfg base64Decode h.service.device ht.table.toWellFormed
        pubkeyBase64' info octet with ⟨inner', r', hb, -, hr⟩ | ⟨inner', key', hb, -, -⟩
    · simp only [hb, List.cons.injEq, Output.registration.injEq, and_true] at hout
      obtain ⟨hkey, rfl⟩ := hout
      obtain ⟨key', o, hkey', ho, -⟩ := hr hstatus
      rw [hkey] at hkey'
      cases hkey'
      refine .again hverified hfree ?_ ((ht.table.registered key).mpr (by simp [ho]))
      cases hdecode : decodeKey base64Decode pubkeyBase64' with
      | error e =>
        rw [hdecode] at hkey
        cases hkey
      | ok key' =>
        rw [hdecode] at hkey
        cases hkey
        rfl
    · simp only [hb] at hout
      cases hout
  · cases hout

theorem admission_again (cfg : Settings) (ht : h.service.Tabled)
    (hverified : h.verified = some (pubkeyBase64, nullifier))
    (hfree : h.service.handlerFree) (hkey : decodeKey base64Decode pubkeyBase64 = .ok key)
    (hmem : key ∈ h.service.inner.registeredPeers) (info : Except String (Option UInt16))
    (octet : UInt8) :
    h.admission cfg base64Decode (.register pubkeyBase64 info octet) = some (key, nullifier) ∧
      h.service.step cfg base64Decode (.register pubkeyBase64 info octet) = some h.service := by
  obtain ⟨o, ho⟩ := Option.isSome_iff_exists.mp ((ht.table.registered key).mp hmem)
  have hb : beginRegistration cfg base64Decode h.service.device h.service.inner pubkeyBase64 info
      octet = .answer h.service.inner (buildSuccessResponse cfg h.service.inner o) :=
    beginRegistration_registered ht.table hkey ho
  refine ⟨admission_eq hverified (r := buildSuccessResponse cfg h.service.inner o) ?_ rfl, ?_⟩
  · simp only [Service.outputs, if_pos hfree, hb, hkey]
    rfl
  · simp only [Service.step, if_pos hfree, hb]

theorem reply_admits (ha : h.admission cfg base64Decode .reply = some (key, nullifier)) :
    h.Admits base64Decode (.service .reply) key nullifier := by
  obtain ⟨pubkeyBase64, r, hverified, hout, hstatus⟩ := admission_some ha
  simp only [Service.outputs] at hout
  split at hout
  · rename_i key' octet reply hset
    simp only [List.cons.injEq, Output.registration.injEq, and_true, Option.some.injEq] at hout
    obtain ⟨rfl, rfl⟩ := hout
    cases reply with
    | ok u => exact .added hverified hset
    | error e => cases hstatus
  · cases hout

/-- The registrations that are answered with 200. -/
theorem admission_iff (cfg : Settings) (ht : h.service.Tabled) (hallow : h.allows i) :
    h.admission cfg base64Decode i = some (key, nullifier) ↔
      h.Admits base64Decode (.service i) key nullifier := by
  constructor
  · intro ha
    obtain ⟨pubkeyBase64, r, -, hout, -⟩ := admission_some ha
    cases i with
    | register pubkeyBase64 info octet => exact register_admits ht hallow ha
    | reply => exact reply_admits ha
    | uapi c =>
      simp only [Service.outputs] at hout
      split at hout <;> cases hout
    | reap c =>
      simp only [Service.outputs] at hout
      split at hout <;> cases hout
    | elapse | unregister | snapshot | readClock | scan => cases hout
  · intro ha
    cases ha with
    | again hverified hfree hkey hmem =>
      exact (admission_again cfg ht hverified hfree hkey hmem _ _).1
    | @added pubkeyBase64 nullifier key octet hverified hset =>
      have hout : h.service.outputs cfg base64Decode .reply =
          [.registration (some key)
            (finishRegistration cfg h.service.inner key octet h.service.now (.ok ())).2] := by
        simp only [Service.outputs, hset]
      exact admission_eq hverified hout rfl

theorem beginRegistration_call {inner : RegistrationInner}
    (h : beginRegistration cfg base64Decode d inner pubkeyBase64 info octet =
      .call inner' key octet') : decodeKey base64Decode pubkeyBase64 = .ok key := by
  unfold beginRegistration at h
  split at h
  · cases h
  · rename_i key' hkey
    split at h
    · cases h
    · split at h
      · cases h
      · split at h <;> cases h
        exact hkey

/-- A handler that adds a key was given it. -/
theorem adding_cases {s s' : Service} (hs : s.step cfg base64Decode i = some s')
    (hadding : s'.http.adding? = some key) : i ≠ .reply ∧ (s.http.adding? = some key ∨
      ∃ pubkeyBase64 info octet, i = .register pubkeyBase64 info octet ∧
        decodeKey base64Decode pubkeyBase64 = .ok key) := by
  have hbusy : s'.http ≠ .idle := fun hidle => by
    rw [hidle] at hadding
    cases hadding
  have hkeep : s'.http = s.http → s.http.adding? = some key := fun hsame => hsame ▸ hadding
  cases i with
  | register pubkeyBase64 info octet =>
    simp only [Service.step] at hs
    split at hs
    · rename_i hfree
      split at hs
      · cases hs
        exact absurd (s.handlerFree_iff.mp hfree).1 hbusy
      · rename_i inner key' octet' hb
        split at hs
        · cases hs
          cases hadding
          exact ⟨fun h => (by cases h), .inr ⟨_, _, _, rfl, beginRegistration_call hb⟩⟩
        · cases hs
    · cases hs
  | unregister pubkeyBase64 =>
    obtain ⟨hidle, -, rfl | ⟨key', octet, -, rfl⟩⟩ := Service.unregister_cases hs
    · exact absurd hidle hbusy
    · cases hadding
  | uapi c =>
    simp only [Service.step] at hs
    split at hs
    · rename_i hset
      cases hs
      exact ⟨fun h => (by cases h), .inl (by rw [hset]; exact hadding)⟩
    · cases hs
      cases hadding
    · cases hs
  | reply =>
    simp only [Service.step] at hs
    split at hs <;> cases hs
    all_goals exact absurd rfl hbusy
  | elapse ns =>
    cases hs
    exact ⟨fun h => (by cases h), .inl hadding⟩
  | snapshot ages =>
    exact ⟨fun h => (by cases h), .inl (hkeep (Service.tick_same hs (.inl ⟨ages, rfl⟩)).2.2)⟩
  | readClock =>
    exact ⟨fun h => (by cases h), .inl (hkeep (Service.tick_same hs (.inr (.inl rfl))).2.2)⟩
  | scan =>
    exact ⟨fun h => (by cases h), .inl (hkeep (Service.tick_same hs (.inr (.inr rfl))).2.2)⟩
  | reap c =>
    simp only [Service.step] at hs
    split at hs
    · cases hs
      exact ⟨fun h => (by cases h), .inl hadding⟩
    · cases hs

-- ---------------------------------------------------------------------------
-- Runs
-- ---------------------------------------------------------------------------

/-- The table is in order, and the record speaks of registered keys. -/
structure Recorded (h : Humans) : Prop where
  tabled : h.service.Tabled
  registered : ∀ e ∈ h.admitted, e.1 ∈ h.service.inner.registeredPeers

theorem step_service (hs : h.step cfg base64Decode (.service i) = some h') :
    h.allows i ∧ h.service.step cfg base64Decode i = some h'.service ∧
      ∀ key nullifier, (key, nullifier) ∈ h'.admitted ↔
        (h.admission cfg base64Decode i = some (key, nullifier) ∨ (key, nullifier) ∈ h.admitted) ∧
          key ∈ h'.service.inner.registeredPeers := by
  simp only [step] at hs
  split at hs
  · rename_i hallow
    obtain ⟨service, hservice, rfl⟩ := Option.map_eq_some_iff.mp hs
    exact ⟨hallow, hservice, fun key nullifier => by simp⟩
  · cases hs

theorem step_registerV2 (hs : h.step cfg base64Decode (.registerV2 body verdict) = some h') :
    h.verified = none ∧ h'.service = h.service ∧ h'.admitted = h.admitted ∧
      ∀ request, h'.verified = some request → beginRegistrationV2 verdict body = .ok request := by
  simp only [step] at hs
  split at hs
  · rename_i hidle
    split at hs
    · cases hs
      refine ⟨hidle.1, rfl, rfl, fun request hrequest => ?_⟩
      rw [hidle.1] at hrequest
      cases hrequest
    · rename_i pubkeyBase64 nullifier hbegin
      cases hs
      refine ⟨hidle.1, rfl, rfl, fun request hrequest => ?_⟩
      cases hrequest
      exact hbegin
  · cases hs

theorem step_recorded (hr : h.Recorded) (hs : h.step cfg base64Decode i = some h') :
    h'.Recorded := by
  cases i with
  | registerV2 body verdict =>
    obtain ⟨-, hservice, hadmitted, -⟩ := step_registerV2 hs
    exact ⟨hservice ▸ hr.tabled, by rw [hservice, hadmitted]; exact hr.registered⟩
  | service i =>
    obtain ⟨-, hservice, hadmitted⟩ := step_service hs
    exact ⟨Service.step_tabled hr.tabled hservice, fun e he => ((hadmitted e.1 e.2).mp he).2⟩

/-- The request is kept while its key is being added. -/
theorem step_adding (hs : h.step cfg base64Decode (.service i) = some h')
    (hadding : h'.service.http.adding? = some key) : h'.verified = h.verified ∧
      (h.service.http.adding? = some key ∨ ∃ pubkeyBase64 nullifier,
        h.verified = some (pubkeyBase64, nullifier) ∧
          decodeKey base64Decode pubkeyBase64 = .ok key) := by
  obtain ⟨hreply, hcases⟩ := adding_cases (step_service hs).2.1 hadding
  simp only [step] at hs
  split at hs
  · rename_i hallow
    obtain ⟨service, -, rfl⟩ := Option.map_eq_some_iff.mp hs
    constructor
    · cases i with
      | register pubkeyBase64 info octet =>
        simp only [stillVerified]
        split
        · rename_i hidle
          rw [hidle] at hadding
          cases hadding
        · rfl
      | reply => exact absurd rfl hreply
      | _ => rfl
    · rcases hcases with hold | ⟨pubkeyBase64, info, octet, rfl, hkey⟩
      · exact .inl hold
      · obtain ⟨⟨pubkeyBase64', nullifier⟩, hverified, rfl⟩ :=
          Option.map_eq_some_iff.mp (eq_of_beq hallow)
        exact .inr ⟨pubkeyBase64', nullifier, hverified, hkey⟩
  · cases hs

theorem step_verified (hs : h.step cfg base64Decode (.service i) = some h') :
    h'.verified = h.verified ∨ h'.verified = none := by
  simp only [step] at hs
  split at hs
  · obtain ⟨service, -, rfl⟩ := Option.map_eq_some_iff.mp hs
    cases i with
    | register pubkeyBase64 info octet =>
      simp only [stillVerified]
      split
      · exact .inr rfl
      · exact .inl rfl
    | reply => exact .inr rfl
    | _ => exact .inl rfl
  · cases hs

/-- What holds of the node behind the requests of a run. -/
structure Served (base64Decode : String → Option Bytes) (is : List HumanInput)
    (h : Humans) : Prop where
  recorded : h.Recorded
  one : h.OnePerHuman
  shown : ∀ key nullifier, (key, nullifier) ∈ h.admitted →
    ∃ i ∈ is, i.shown base64Decode = some (key, nullifier)
  adding : ∀ key, h.service.http.adding? = some key → ∃ pubkeyBase64 nullifier,
    h.verified = some (pubkeyBase64, nullifier) ∧ decodeKey base64Decode pubkeyBase64 = .ok key
  /-- The request that is being served was shown, and its nullifier has no
  other key. -/
  serving : ∀ pubkeyBase64 nullifier key, h.verified = some (pubkeyBase64, nullifier) →
    decodeKey base64Decode pubkeyBase64 = .ok key →
    (∃ i ∈ is, i.shown base64Decode = some (key, nullifier)) ∧
      ∀ key', (key', nullifier) ∈ h.admitted → key' = key

theorem shown_before (j : HumanInput)
    (h : ∃ i ∈ is, HumanInput.shown base64Decode i = some request) :
    ∃ i ∈ is ++ [j], HumanInput.shown base64Decode i = some request := by
  obtain ⟨i, hi, hshown⟩ := h
  exact ⟨i, List.mem_append_left _ hi, hshown⟩

/-- What is admitted is the key of the request that is being served. -/
theorem Served.admits (hi : Served base64Decode is h)
    (ha : h.Admits base64Decode (.service i) key nullifier) : ∃ pubkeyBase64,
      h.verified = some (pubkeyBase64, nullifier) ∧
        decodeKey base64Decode pubkeyBase64 = .ok key := by
  cases ha with
  | again hverified _ hkey _ => exact ⟨_, hverified, hkey⟩
  | added hverified hset =>
    obtain ⟨pubkeyBase64, nullifier', hverified', hkey⟩ := hi.adding key (by rw [hset]; rfl)
    rw [hverified] at hverified'
    cases hverified'
    exact ⟨_, hverified, hkey⟩

theorem Served.service (hi : Served base64Decode is h)
    (hs : h.step cfg base64Decode (.service i) = some h') :
    Served base64Decode (is ++ [.service i]) h' := by
  obtain ⟨hallow, hservice, hadmitted⟩ := step_service hs
  have hnew : ∀ key nullifier, (key, nullifier) ∈ h'.admitted →
      (∃ pubkeyBase64, h.verified = some (pubkeyBase64, nullifier) ∧
        decodeKey base64Decode pubkeyBase64 = .ok key) ∨ (key, nullifier) ∈ h.admitted := by
    intro key nullifier hmem
    rcases ((hadmitted key nullifier).mp hmem).1 with ha | hold
    · exact .inl (hi.admits ((admission_iff cfg hi.recorded.tabled hallow).mp ha))
    · exact .inr hold
  refine ⟨step_recorded hi.recorded hs, ?_, fun key nullifier hmem => ?_, fun key hadding => ?_,
    fun pubkeyBase64 nullifier key hverified hkey => ?_⟩
  · intro nullifier key key' hkey hkey'
    rcases hnew key nullifier hkey with ⟨pk, hverified, hdecode⟩ | hold
    · rcases hnew key' nullifier hkey' with ⟨pk', hverified', hdecode'⟩ | hold'
      · rw [hverified] at hverified'
        cases hverified'
        exact Except.ok.inj (hdecode.symm.trans hdecode')
      · exact ((hi.serving pk nullifier key hverified hdecode).2 key' hold').symm
    · rcases hnew key' nullifier hkey' with ⟨pk', hverified', hdecode'⟩ | hold'
      · exact (hi.serving pk' nullifier key' hverified' hdecode').2 key hold
      · exact hi.one nullifier key key' hold hold'
  · rcases hnew key nullifier hmem with ⟨pk, hverified, hdecode⟩ | hold
    · exact shown_before _ (hi.serving pk nullifier key hverified hdecode).1
    · exact shown_before _ (hi.shown key nullifier hold)
  · obtain ⟨hsame, hold | hgiven⟩ := step_adding hs hadding
    · rw [hsame]
      exact hi.adding key hold
    · rwa [hsame]
  · have hverified₀ : h.verified = some (pubkeyBase64, nullifier) := by
      rcases step_verified hs with hsame | hnone
      · exact hsame.symm.trans hverified
      · rw [hnone] at hverified
        cases hverified
    obtain ⟨hshown, hother⟩ := hi.serving pubkeyBase64 nullifier key hverified₀ hkey
    refine ⟨shown_before _ hshown, fun key' hmem => ?_⟩
    rcases hnew key' nullifier hmem with ⟨pk', hverified', hdecode'⟩ | hold
    · rw [hverified₀] at hverified'
      cases hverified'
      exact Except.ok.inj (hdecode'.symm.trans hkey)
    · exact hother key' hold

/-- A request may be taken where the keys that were shown with its nullifier
are not registered any more. -/
theorem Served.registerV2 (hi : Served base64Decode is h)
    (hs : h.step cfg base64Decode (.registerV2 body verdict) = some h')
    (hc : ∀ i ∈ is, ∀ key key' nullifier, i.shown base64Decode = some (key, nullifier) →
      (HumanInput.registerV2 body verdict).shown base64Decode = some (key', nullifier) →
      key ∈ h.service.inner.registeredPeers → key' = key) :
    Served base64Decode (is ++ [.registerV2 body verdict]) h' := by
  obtain ⟨hidle, hservice, hadmitted, hbegin⟩ := step_registerV2 hs
  refine ⟨step_recorded hi.recorded hs, ?_, ?_, fun key hadding => ?_,
    fun pubkeyBase64 nullifier key hverified hkey => ?_⟩
  · rw [OnePerHuman, hadmitted]
    exact hi.one
  · rw [hadmitted]
    exact fun key nullifier hmem => shown_before _ (hi.shown key nullifier hmem)
  · rw [hservice] at hadding
    obtain ⟨_, _, hverified, -⟩ := hi.adding key hadding
    rw [hidle] at hverified
    cases hverified
  · have hshown : (HumanInput.registerV2 body verdict).shown base64Decode = some
      (key, nullifier) := by
      simp only [HumanInput.shown, hbegin _ hverified, hkey]
      rfl
    refine ⟨⟨_, List.mem_append_right _ (List.mem_singleton_self _), hshown⟩, fun key' hmem => ?_⟩
    rw [hadmitted] at hmem
    obtain ⟨i, hi', hshown'⟩ := hi.shown key' nullifier hmem
    exact (hc i hi' key' key nullifier hshown' hshown (hi.recorded.registered _ hmem)).symm

/-- The request of a registered key, when its handler has the mutex again. -/
theorem Recorded.answers (hr : h.Recorded) (hverified : h.verified = some (pubkeyBase64, nullifier))
    (hfree : h.service.handlerFree) (hkey : decodeKey base64Decode pubkeyBase64 = .ok key)
    (hmem : key ∈ h.service.inner.registeredPeers) : ∃ r h',
      h.step cfg base64Decode (.service (.register pubkeyBase64 info octet)) = some h' ∧
      h.service.outputs cfg base64Decode (.register pubkeyBase64 info octet) =
        [.registration (some key) r] ∧ r.status = 200 ∧ (key, nullifier) ∈ h'.admitted := by
  have hallow : h.allows (.register pubkeyBase64 info octet) := by simp [allows, hverified]
  obtain ⟨ha, hservice⟩ := admission_again cfg hr.tabled hverified hfree hkey hmem info octet
  obtain ⟨_, r, -, hout, hstatus⟩ := admission_some ha
  have hs : ∃ h', h.step cfg base64Decode
    (.service (.register pubkeyBase64 info octet)) = some h' := by
    simp only [step, if_pos hallow, hservice, Option.map_some]
    exact ⟨_, rfl⟩
  obtain ⟨h', hs⟩ := hs
  obtain ⟨-, hservice', hadmitted⟩ := step_service hs
  rw [hservice, Option.some.injEq] at hservice'
  exact ⟨r, h', hs, hout, hstatus, (hadmitted key nullifier).mpr ⟨.inl ha, hservice' ▸ hmem⟩⟩

end Humans

end Xelt.Boringtun.HttpApi
