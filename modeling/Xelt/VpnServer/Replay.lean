import Xelt.Lib.Runs
import Xelt.VpnServer.PaymentVerify

/-!
# The replay guard

Calls of `verifyUaPayment` side by side: each step runs one call to its next
await. A hash is credited when a call returns `ok: true` on it.
-/

namespace Xelt.VpnServer

open Runs

structure Verifier where
  spent : Finset String
  calls : Nat → Option VerifyCall

namespace Verifier

inductive Input
  /-- A new call. -/
  | call (id : Nat) (opts : VerifyOpts)
  /-- The RPC answers the lookup of a call, or throws. -/
  | receipt (id : Nat) (receipt : Option Receipt)

def init : Verifier := ⟨∅, fun _ => none⟩

variable (cfg : VerifyConfig)

def step (s : Verifier) : Input → Option Verifier
  | .call id opts =>
    match s.calls id with
    | none =>
      some { s with calls := Function.update s.calls id (some (verifyUaPayment cfg s.spent opts)) }
    | some _ => none
  | .receipt id receipt =>
    match s.calls id with
    | some (.awaiting l) =>
      let (spent, call) := l.resume cfg s.spent receipt
      some { spent, calls := Function.update s.calls id (some call) }
    | _ => none

/-- The hashes a step credits: a call returns `ok: true` on the one it looked up. -/
def credited (s : Verifier) : Input → List String
  | .call .. => []
  | .receipt id receipt =>
    match s.calls id with
    | some (.awaiting l) =>
      if (l.resume cfg s.spent receipt).2.Credited then [l.hash] else []
    | _ => []

/-- `Q` holds where a receipt comes in that pays the call awaiting it. -/
def AtPayment (Q : Verifier → Lookup → Prop) (s : Verifier) : Input → Prop
  | .call .. => True
  | .receipt id receipt =>
    ∀ l, s.calls id = some (.awaiting l) → l.Pays cfg receipt → Q s l

/-- What the RPC first answers a call, as the inputs come. -/
def nextReceipt (id : Nat) : List Input → Option (Option Receipt)
  | [] => none
  | .call .. :: is => nextReceipt id is
  | .receipt id' receipt :: is => if id' = id then some receipt else nextReceipt id is

/-- A call awaits the receipt of `hash`, and the one it will get pays it. -/
def PaidFor (s : Verifier) (is : List Input) (id : Nat) (hash : String) : Prop :=
  ∃ l receipt, s.calls id = some (.awaiting l) ∧ l.hash = hash ∧
    nextReceipt id is = some receipt ∧ l.Pays cfg receipt

/-- No two calls await the receipt of one hash that pays them both. -/
def PaidApart (s : Verifier) (is : List Input) : Prop :=
  ∀ id id' hash, PaidFor cfg s is id hash → PaidFor cfg s is id' hash → id = id'

variable {cfg}

theorem step_call {s : Verifier} {id : Nat} (h : s.calls id = none) :
    step cfg s (.call id opts) = some { s with
      calls := Function.update s.calls id (some (verifyUaPayment cfg s.spent opts)) } := by
  simp only [step, h]

theorem step_receipt {s : Verifier} {id : Nat} (hl : s.calls id = some (.awaiting l)) :
    step cfg s (.receipt id receipt) = some ⟨(l.resume cfg s.spent receipt).1,
      Function.update s.calls id (some (l.resume cfg s.spent receipt).2)⟩ := by
  simp only [step, hl]

theorem call_of_step {s s' : Verifier} {id : Nat} (h : step cfg s (.call id opts) = some s') :
    s.calls id = none ∧ s' = { s with
      calls := Function.update s.calls id (some (verifyUaPayment cfg s.spent opts)) } := by
  simp only [step] at h
  split at h
  · rename_i hnone
    cases h
    exact ⟨hnone, rfl⟩
  · cases h

theorem receipt_of_step {s s' : Verifier} {id : Nat}
    (h : step cfg s (.receipt id receipt) = some s') :
    ∃ l, s.calls id = some (.awaiting l) ∧
      s' = ⟨(l.resume cfg s.spent receipt).1,
        Function.update s.calls id (some (l.resume cfg s.spent receipt).2)⟩ := by
  simp only [step] at h
  split at h
  · rename_i l hl
    cases h
    exact ⟨l, hl, rfl⟩
  · cases h

theorem credited_receipt {s : Verifier} {id : Nat} (hl : s.calls id = some (.awaiting l)) :
    credited cfg s (.receipt id receipt) =
      if (l.resume cfg s.spent receipt).2.Credited then [l.hash] else [] := by
  simp only [credited, hl]

theorem step_spent (h : step cfg s i = some s') :
    ∀ hash, hash ∈ s'.spent ↔ hash ∈ s.spent ∨ hash ∈ credited cfg s i := by
  intro hash
  cases i with
  | call id opts =>
    obtain ⟨-, rfl⟩ := call_of_step h
    simp [credited]
  | receipt id receipt =>
    obtain ⟨l, hl, rfl⟩ := receipt_of_step h
    rw [credited_receipt hl]
    rcases resume_cases cfg s.spent l receipt with ⟨_, hs, hc⟩ | ⟨_, hs, hc⟩
    · simp [hs, hc, or_comm]
    · simp [hs, hc]

theorem nodup_credited {s : Verifier} {past : List String} (f : String → β)
    (hinv : ∀ hash, hash ∈ s.spent ↔ hash ∈ past) (hp : (past.map f).Nodup) :
    ((past ++ credited cfg s i).map f).Nodup ↔
      AtPayment cfg (fun s l => ∀ g ∈ s.spent, f g ≠ f l.hash) s i := by
  cases i with
  | call id opts => simpa [credited, AtPayment] using hp
  | receipt id receipt =>
    simp only [AtPayment]
    cases hcall : s.calls id with
    | none => simpa [credited, hcall] using hp
    | some call =>
      cases call with
      | done result => simpa [credited, hcall] using hp
      | awaiting l =>
        rw [credited_receipt hcall]
        by_cases hpays : l.Pays cfg receipt
        · simp [resume_credited.mpr hpays, hpays, List.nodup_append, hp, hinv]
        · simp [mt resume_credited.mp hpays, hpays, hp]

/-- `f` tells the credited hashes of a run apart exactly when it tells each
of them, where it is paid, from the spent ones. -/
theorem nodup_credited_iff (cfg : VerifyConfig) (is : List Input) (f : String → β) :
    ((trace (step cfg) (credited cfg) init is).map f).Nodup ↔
      Along (step cfg) (AtPayment cfg fun s l => ∀ g ∈ s.spent, f g ≠ f l.hash) init is := by
  refine trace_iff_along (P := fun es => (es.map f).Nodup)
    (I := fun s past => ∀ hash, hash ∈ s.spent ↔ hash ∈ past) [] ?_ ?_ ?_ (by simp [init])
    List.nodup_nil
  · intro s past is _ h
    rw [List.map_append] at h
    exact (List.nodup_append.mp h).1
  · intro s i s' past hinv hs hash
    rw [step_spent hs, hinv, List.mem_append]
  · exact fun s i past hinv hp => nodup_credited f hinv hp

theorem AtPayment.along {Q R : Verifier → Lookup → Prop} {P : Verifier → Input → Prop}
    (h : Along (step cfg) (AtPayment cfg Q) init is) (hp : Along (step cfg) P init is)
    (hqr : ∀ s id receipt l, P s (.receipt id receipt) → s.calls id = some (.awaiting l) →
      Q s l → R s l) :
    Along (step cfg) (AtPayment cfg R) init is := by
  refine Along.imp ?_ (h.and hp)
  intro s i hs
  cases i with
  | call id opts => trivial
  | receipt id receipt =>
    exact fun l hl hpays => hqr s id receipt l hs.2 hl (hs.1 l hl hpays)

-- ---------------------------------------------------------------------------
-- Two lookups of one hash
-- ---------------------------------------------------------------------------

theorem not_paidFor_nil {s : Verifier} {id : Nat} {hash : String} : ¬ PaidFor cfg s [] id hash := by
  simp [PaidFor, nextReceipt]

theorem paidFor_call {s : Verifier} {id id₀ : Nat} {hash : String} (h₀ : s.calls id₀ = none) :
    PaidFor cfg s (.call id₀ opts :: is) id hash ↔
      id ≠ id₀ ∧ PaidFor cfg { s with
        calls := Function.update s.calls id₀ (some (verifyUaPayment cfg s.spent opts)) }
        is id hash := by
  by_cases hid : id = id₀
  · subst hid
    simp [PaidFor, h₀]
  · simp [PaidFor, nextReceipt, hid]

theorem paidFor_receipt {s : Verifier} {id id₀ : Nat} {hash : String} {l₀ : Lookup}
    (h₀ : s.calls id₀ = some (.awaiting l₀)) :
    PaidFor cfg s (.receipt id₀ receipt :: is) id hash ↔
      (id = id₀ ∧ hash = l₀.hash ∧ l₀.Pays cfg receipt) ∨
        (id ≠ id₀ ∧ PaidFor cfg ⟨(l₀.resume cfg s.spent receipt).1,
          Function.update s.calls id₀ (some (l₀.resume cfg s.spent receipt).2)⟩ is id hash) := by
  by_cases hid : id = id₀
  · subst hid
    simp [PaidFor, nextReceipt, h₀, eq_comm]
  · simp [PaidFor, nextReceipt, hid, Ne.symm hid]

theorem new_paidFor {s : Verifier} {id₀ : Nat} {hash : String}
    (hp : PaidFor cfg { s with
      calls := Function.update s.calls id₀
        (some (verifyUaPayment cfg s.spent opts)) } is id₀ hash) :
    hash ∉ s.spent := by
  obtain ⟨l, receipt, hl, rfl, -⟩ := hp
  exact verify_awaiting (by simpa using hl)

theorem resumed_paidFor {s : Verifier} {id₀ : Nat} {hash : String} {l₀ : Lookup}
    (hp : PaidFor cfg ⟨(l₀.resume cfg s.spent receipt).1,
      Function.update s.calls id₀ (some (l₀.resume cfg s.spent receipt).2)⟩ is id₀ hash) :
    hash ∉ (l₀.resume cfg s.spent receipt).1 := by
  obtain ⟨l, receipt', hl, rfl, -⟩ := hp
  exact resume_awaiting (by simpa using hl)

/-- A step that credits nothing: the call it moves on is not paid by it, and
what that call looks up next is behind the check. -/
theorem apart_of_quiet {s s' : Verifier} {id₀ : Nat} (hspent : s'.spent = s.spent)
    (hpaid : ∀ id hash, PaidFor cfg s (i :: is) id hash ↔ id ≠ id₀ ∧ PaidFor cfg s' is id hash)
    (hnew : ∀ hash, PaidFor cfg s' is id₀ hash → hash ∉ s'.spent) :
    (∀ id hash, PaidFor cfg s' is id hash → hash ∉ s'.spent) ∧
        Ahead (step cfg) (PaidApart cfg) s' is ↔
      (∀ id hash, PaidFor cfg s (i :: is) id hash → hash ∉ s.spent) ∧
        PaidApart cfg s (i :: is) ∧ Ahead (step cfg) (PaidApart cfg) s' is := by
  rw [hspent] at hnew ⊢
  constructor
  · rintro ⟨hfresh, hahead⟩
    refine ⟨fun id hash hp => hfresh id hash ((hpaid id hash).mp hp).2, ?_, hahead⟩
    intro id id' hash hp hp'
    exact hahead.now id id' hash ((hpaid id hash).mp hp).2 ((hpaid id' hash).mp hp').2
  · rintro ⟨hfresh, -, hahead⟩
    refine ⟨fun id hash hp => ?_, hahead⟩
    by_cases hid : id = id₀
    · exact hnew hash (hid ▸ hp)
    · exact hfresh id hash ((hpaid id hash).mpr ⟨hid, hp⟩)

/-- A step that credits `hash₀`, the hash its call looked up. -/
theorem apart_of_paid {s s' : Verifier} {id₀ : Nat} {hash₀ : String}
    (hspent : s'.spent = insert hash₀ s.spent)
    (hpaid : ∀ id hash, PaidFor cfg s (i :: is) id hash ↔
      (id = id₀ ∧ hash = hash₀) ∨ (id ≠ id₀ ∧ PaidFor cfg s' is id hash))
    (hnew : ∀ hash, PaidFor cfg s' is id₀ hash → hash ∉ s'.spent) :
    (hash₀ ∉ s.spent ∧ (∀ id hash, PaidFor cfg s' is id hash → hash ∉ s'.spent) ∧
        Ahead (step cfg) (PaidApart cfg) s' is) ↔
      (∀ id hash, PaidFor cfg s (i :: is) id hash → hash ∉ s.spent) ∧
        PaidApart cfg s (i :: is) ∧ Ahead (step cfg) (PaidApart cfg) s' is := by
  simp only [hspent, Finset.mem_insert, not_or] at hnew ⊢
  constructor
  · rintro ⟨h₀, hfresh, hahead⟩
    refine ⟨fun id hash hp => ?_, fun id id' hash hp hp' => ?_, hahead⟩
    · rcases (hpaid id hash).mp hp with ⟨-, rfl⟩ | ⟨-, hp⟩
      · exact h₀
      · exact (hfresh id hash hp).2
    · rcases (hpaid id hash).mp hp with ⟨rfl, rfl⟩ | ⟨-, hp⟩ <;>
        rcases (hpaid id' _).mp hp' with ⟨rfl, heq⟩ | ⟨-, hp'⟩
      · rfl
      · exact absurd rfl (hfresh id' _ hp').1
      · exact absurd heq (hfresh id _ hp).1
      · exact hahead.now id id' hash hp hp'
  · rintro ⟨hfresh, hapart, hahead⟩
    have h₀ := (hpaid id₀ hash₀).mpr (.inl ⟨rfl, rfl⟩)
    refine ⟨hfresh id₀ hash₀ h₀, fun id hash hp => ?_, hahead⟩
    by_cases hid : id = id₀
    · exact hnew hash (hid ▸ hp)
    · have hp := (hpaid id hash).mpr (.inr ⟨hid, hp⟩)
      exact ⟨fun heq => hid (hapart id id₀ hash₀ (heq ▸ hp) h₀), hfresh id hash hp⟩

/-- From any state: the run credits no hash that is spent and none twice exactly
when no call that awaits a spent hash is paid and the calls that get paid keep
apart. Only a call that waits at the start can await a spent hash. -/
theorem credited_apart_iff {s t : Verifier} (he : exec (step cfg) s is = some t) :
    (∀ hash ∈ trace (step cfg) (credited cfg) s is, hash ∉ s.spent) ∧
        (trace (step cfg) (credited cfg) s is).Nodup ↔
      (∀ id hash, PaidFor cfg s is id hash → hash ∉ s.spent) ∧
        Ahead (step cfg) (PaidApart cfg) s is := by
  induction is generalizing s with
  | nil => simp [Ahead, PaidApart, not_paidFor_nil]
  | cons i is ih =>
    obtain ⟨s', hs, he⟩ := (exec_cons_some _).mp he
    have ih := ih he
    rw [trace_cons_some hs, ahead_cons_some hs]
    cases i with
    | call id₀ opts =>
      obtain ⟨h₀, rfl⟩ := call_of_step hs
      rw [credited, List.nil_append, ih]
      exact apart_of_quiet rfl (fun id hash => paidFor_call h₀) fun hash => new_paidFor
    | receipt id₀ receipt =>
      obtain ⟨l₀, h₀, hs'⟩ := receipt_of_step hs
      have hpaid : ∀ id hash, PaidFor cfg s (.receipt id₀ receipt :: is) id hash ↔
          (id = id₀ ∧ hash = l₀.hash ∧ l₀.Pays cfg receipt) ∨
            (id ≠ id₀ ∧ PaidFor cfg s' is id hash) := fun id hash => hs' ▸ paidFor_receipt h₀
      have hnew : ∀ hash, PaidFor cfg s' is id₀ hash → hash ∉ s'.spent := by
        rw [hs']
        exact fun hash => resumed_paidFor
      rw [credited_receipt h₀]
      rcases resume_cases cfg s.spent l₀ receipt with ⟨hpays, hspent, hc⟩ | ⟨hpays, hspent, hc⟩
      · have hspent : s'.spent = insert l₀.hash s.spent := by rw [hs', hspent]
        rw [if_pos hc, ← apart_of_paid hspent (by simpa [hpays] using hpaid) hnew, ← ih]
        simp only [List.singleton_append, List.forall_mem_cons, List.nodup_cons, hspent,
          Finset.mem_insert, not_or]
        grind
      · have hspent : s'.spent = s.spent := by rw [hs', hspent]
        rw [if_neg hc, List.nil_append, ← apart_of_quiet hspent (by simpa [hpays] using hpaid) hnew,
          ← ih, hspent]

/-- However the calls are interleaved, each hash is credited at most once,
exactly when no two calls ever await one hash and both get a receipt that pays. -/
theorem credited_once_iff (cfg : VerifyConfig) (is : List Input)
    (he : exec (step cfg) init is = some t) :
    (trace (step cfg) (credited cfg) init is).Nodup ↔
      Ahead (step cfg) (PaidApart cfg) init is := by
  have hnone : ∀ id hash, ¬ PaidFor cfg init is id hash := by
    rintro id hash ⟨l, receipt, hl, -⟩
    cases hl
  have h := credited_apart_iff he
  simpa [hnone, init] using h

/-- Two requests show the same payment; both lookups are out before the
first receipt is back. -/
def sampleRace : List Input :=
  [.call 0 (sampleOpts sampleHash), .call 1 (sampleOpts sampleHash),
    .receipt 0 (some sampleReceipt), .receipt 1 (some sampleReceipt)]

theorem credited_twice :
    ¬ (trace (step sampleVerifyConfig) (credited sampleVerifyConfig) init sampleRace).Nodup := by
  have htrace : trace (step sampleVerifyConfig) (credited sampleVerifyConfig) init sampleRace =
      [sampleHash, sampleHash] := by decide +kernel
  simp [htrace]

/-- The second request comes when the first has been paid. -/
def sampleQueue : List Input :=
  [.call 0 (sampleOpts sampleHash), .receipt 0 (some sampleReceipt),
    .call 1 (sampleOpts sampleHash)]

theorem credited_once_iff_sample :
    Ahead (step sampleVerifyConfig) (PaidApart sampleVerifyConfig) init sampleQueue := by
  obtain ⟨t, ht⟩ : ∃ t, exec (step sampleVerifyConfig) init sampleQueue = some t :=
    Option.isSome_iff_exists.mp (by decide +kernel)
  have htrace : trace (step sampleVerifyConfig) (credited sampleVerifyConfig) init sampleQueue =
      [sampleHash] := by decide +kernel
  exact (credited_once_iff sampleVerifyConfig sampleQueue ht).mp (by simp [htrace])

-- ---------------------------------------------------------------------------
-- Lookups that keep apart
-- ---------------------------------------------------------------------------

/-- No two calls await the receipt of the same hash. -/
def Alone (s : Verifier) : Prop :=
  ∀ id id' l l', s.calls id = some (.awaiting l) → s.calls id' = some (.awaiting l') →
    l.hash = l'.hash → id = id'

def Unspent (s : Verifier) : Prop :=
  ∀ id l, s.calls id = some (.awaiting l) → l.hash ∉ s.spent

theorem step_unspent (ha : s.Alone) (hu : s.Unspent) (h : step cfg s i = some s') :
    s'.Unspent := by
  intro id' l' hl'
  cases i with
  | call id opts =>
    obtain ⟨-, rfl⟩ := call_of_step h
    by_cases hid : id' = id
    · subst hid
      simp only [Function.update_self, Option.some.injEq] at hl'
      exact verify_awaiting hl'
    · exact hu id' l' (by simpa [Function.update_of_ne hid] using hl')
  | receipt id receipt =>
    obtain ⟨l, hl, rfl⟩ := receipt_of_step h
    by_cases hid : id' = id
    · subst hid
      simp only [Function.update_self, Option.some.injEq] at hl'
      exact resume_awaiting hl'
    · have hl' : s.calls id' = some (.awaiting l') := by
        simpa [Function.update_of_ne hid] using hl'
      rcases resume_cases cfg s.spent l receipt with ⟨_, hs, _⟩ | ⟨_, hs, _⟩
      · rw [hs, Finset.mem_insert, not_or]
        exact ⟨fun hh => hid (ha _ _ _ _ hl' hl hh), hu id' l' hl'⟩
      · rw [hs]
        exact hu id' l' hl'

theorem init_unspent : Unspent init := fun id l hl => by cases hl

theorem along_unspent (h : Along (step cfg) (fun s _ => s.Alone) init is) :
    Along (step cfg) (fun s _ => s.Unspent) init is :=
  Along.mono (fun _ _ _ hu ha => step_unspent ha hu) (fun _ _ hu _ => hu) init_unspent h

end Verifier

end Xelt.VpnServer
