import Xelt.VpnServer.PaymentVerify

/-!
# A verification on its own

What a call of `verifyUaPayment` returns when no other call runs, for any
receipts. The first hash that pays is credited, unless a log that cannot be
read is met before: the call then throws.
-/

namespace Xelt.VpnServer

/-- A call from await to await, with what the RPC answers to its lookups. -/
def VerifyCall.toEnd (cfg : VerifyConfig) (spent : Finset String) :
    VerifyCall → List (Option Receipt) → Finset String × VerifyCall
  | .awaiting l, receipt :: receipts =>
    let (spent, call) := l.resume cfg spent receipt
    call.toEnd cfg spent receipts
  | call, _ => (spent, call)

/-- The hashes of a call, each with the answer to its lookup. -/
abbrev Lookups := List (String × Option Receipt)

/-- The whole call: the spent hashes behind it, and how it ended. -/
def verifyAlone (cfg : VerifyConfig) (spent : Finset String) (lookups : Lookups) (payTo : String)
    (minAmountUsd : Option ℚ) : Finset String × VerifyCall :=
  (verifyUaPayment cfg spent ⟨lookups.map Prod.fst, payTo, minAmountUsd⟩).toEnd cfg spent
    (lookups.map Prod.snd)

-- ---------------------------------------------------------------------------
-- The logs
-- ---------------------------------------------------------------------------

/-- A transfer of the token to the payee. -/
structure TransferTo (cfg : VerifyConfig) (payToTopic : String) (log : Log) : Prop where
  token : cfg.getAddress log.address = some cfg.usdc
  topic : log.topics[0]? = some transferTopic
  recipient : toLowerCase (log.topics[2]?.getD "") = payToTopic

/-- The log has a transfer of at least the price. -/
def PaysIn (cfg : VerifyConfig) (minUnits : Int) (payToTopic : String) (log : Log) : Prop :=
  TransferTo cfg payToTopic log ∧ ∃ value, bigInt log.data = some value ∧ minUnits ≤ value

/-- The log has no address, or is a transfer to the payee of no number. -/
def Unreadable (cfg : VerifyConfig) (payToTopic : String) (log : Log) : Prop :=
  cfg.getAddress log.address = none ∨ TransferTo cfg payToTopic log ∧ bigInt log.data = none

def PassedOver (cfg : VerifyConfig) (minUnits : Int) (payToTopic : String) (log : Log) : Prop :=
  ¬ PaysIn cfg minUnits payToTopic log ∧ ¬ Unreadable cfg payToTopic log

section
variable {cfg : VerifyConfig} {minUnits : Int} {payToTopic : String}

theorem PaysIn.readable (h : PaysIn cfg minUnits payToTopic log) :
    ¬ Unreadable cfg payToTopic log := by
  obtain ⟨htransfer, value, hvalue, -⟩ := h
  rintro (haddress | ⟨-, hnone⟩)
  · rw [htransfer.token] at haddress
    cases haddress
  · rw [hvalue] at hnone
    cases hnone

theorem scanLogs_cons (log : Log) (logs : List Log) :
    PaysIn cfg minUnits payToTopic log ∧
        (∃ value, scanLogs cfg minUnits payToTopic (log :: logs) = .ok (some value)) ∨
      Unreadable cfg payToTopic log ∧
        (∃ e, scanLogs cfg minUnits payToTopic (log :: logs) = .error e) ∨
      PassedOver cfg minUnits payToTopic log ∧
        scanLogs cfg minUnits payToTopic (log :: logs) = scanLogs cfg minUnits payToTopic logs := by
  have hother : cfg.getAddress log.address ≠ none → ¬ TransferTo cfg payToTopic log →
      PassedOver cfg minUnits payToTopic log := by
    intro haddress hno
    exact ⟨fun h => hno h.1, fun h => h.elim haddress fun h => hno h.1⟩
  rw [scanLogs]
  cases haddress : cfg.getAddress log.address with
  | none => exact .inr (.inl ⟨.inl haddress, _, rfl⟩)
  | some address =>
    dsimp only
    have hsome : cfg.getAddress log.address ≠ none := by
      rw [haddress]
      nofun
    by_cases husdc : address = cfg.usdc
    · by_cases htopic : log.topics[0]? = some transferTopic
      · by_cases hto : toLowerCase (log.topics[2]?.getD "") = payToTopic
        · have htransfer : TransferTo cfg payToTopic log := ⟨husdc ▸ haddress, htopic, hto⟩
          rw [if_neg (not_not.mpr husdc), if_neg (not_not.mpr htopic), if_neg (not_not.mpr hto)]
          cases hdata : bigInt log.data with
          | none => exact .inr (.inl ⟨.inr ⟨htransfer, hdata⟩, _, rfl⟩)
          | some value =>
            dsimp only
            by_cases hvalue : minUnits ≤ value
            · rw [if_pos hvalue]
              exact .inl ⟨⟨htransfer, value, hdata, hvalue⟩, value, rfl⟩
            · rw [if_neg hvalue]
              refine .inr (.inr ⟨⟨?_, ?_⟩, rfl⟩)
              · rintro ⟨-, value', hvalue', hle⟩
                rw [hdata] at hvalue'
                cases hvalue'
                exact hvalue hle
              · rintro (hnone | ⟨-, hnone⟩)
                · exact hsome hnone
                · rw [hdata] at hnone
                  cases hnone
        · rw [if_neg (not_not.mpr husdc), if_neg (not_not.mpr htopic), if_pos hto]
          exact .inr (.inr ⟨hother hsome fun h => hto h.recipient, rfl⟩)
      · rw [if_neg (not_not.mpr husdc), if_pos htopic]
        exact .inr (.inr ⟨hother hsome fun h => htopic h.topic, rfl⟩)
    · rw [if_pos husdc]
      refine .inr (.inr ⟨hother hsome fun h => husdc ?_, rfl⟩)
      exact Option.some.inj (haddress.symm.trans h.token)

def Qualifies (cfg : VerifyConfig) (minUnits : Int) (payToTopic : String)
    (receipt : Option Receipt) : Prop :=
  ∃ r ∈ receipt, r.status = "success" ∧ ∃ log ∈ r.logs, PaysIn cfg minUnits payToTopic log

/-- A receipt in which a log that cannot be read stands before every one that pays. -/
def Chokes (cfg : VerifyConfig) (minUnits : Int) (payToTopic : String)
    (receipt : Option Receipt) : Prop :=
  ∃ r ∈ receipt, r.status = "success" ∧ ∃ pre log post, r.logs = pre ++ log :: post ∧
    (∀ l ∈ pre, ¬ PaysIn cfg minUnits payToTopic l) ∧ Unreadable cfg payToTopic log

theorem scanLogs_cases (logs : List Log) :
    (∀ log ∈ logs, PassedOver cfg minUnits payToTopic log) ∧
        scanLogs cfg minUnits payToTopic logs = .ok none ∨
      ∃ pre log post, logs = pre ++ log :: post ∧
        (∀ l ∈ pre, PassedOver cfg minUnits payToTopic l) ∧
        (PaysIn cfg minUnits payToTopic log ∧
            (∃ value, scanLogs cfg minUnits payToTopic logs = .ok (some value)) ∨
          Unreadable cfg payToTopic log ∧
            ∃ e, scanLogs cfg minUnits payToTopic logs = .error e) := by
  induction logs with
  | nil => exact .inl ⟨List.forall_mem_nil _, rfl⟩
  | cons log logs ih =>
    rcases scanLogs_cons log logs with hend | hend | ⟨hpass, hscan⟩
    · exact .inr ⟨[], log, logs, rfl, List.forall_mem_nil _, .inl hend⟩
    · exact .inr ⟨[], log, logs, rfl, List.forall_mem_nil _, .inr hend⟩
    · rw [hscan]
      rcases ih with ⟨hall, hnone⟩ | ⟨pre, last, post, rfl, hpre, hend⟩
      · exact .inl ⟨List.forall_mem_cons.mpr ⟨hpass, hall⟩, hnone⟩
      · exact .inr ⟨log :: pre, last, post, rfl, List.forall_mem_cons.mpr ⟨hpass, hpre⟩, hend⟩

theorem transfer_cases (cfg : VerifyConfig) (l : Lookup) (receipt : Option Receipt) :
    Qualifies cfg l.minUnits l.payToTopic receipt ∧ ¬ Chokes cfg l.minUnits l.payToTopic receipt ∧
        (∃ value, l.transfer cfg receipt = .ok (some value)) ∨
      Chokes cfg l.minUnits l.payToTopic receipt ∧ (∃ e, l.transfer cfg receipt = .error e) ∨
      ¬ Qualifies cfg l.minUnits l.payToTopic receipt ∧
        ¬ Chokes cfg l.minUnits l.payToTopic receipt ∧ l.transfer cfg receipt = .ok none := by
  cases receipt with
  | none =>
    refine .inr (.inr ⟨?_, ?_, rfl⟩)
    · rintro ⟨r, hr, -⟩
      cases hr
    · rintro ⟨r, hr, -⟩
      cases hr
  | some r =>
    rw [Lookup.transfer]
    by_cases hstatus : r.status = "success"
    · rw [if_neg (not_not.mpr hstatus)]
      rcases scanLogs_cases r.logs with ⟨hall, hnone⟩ | ⟨pre, log, post, hlogs, hpre, hend⟩
      · refine .inr (.inr ⟨?_, ?_, hnone⟩)
        · rintro ⟨_, ⟨⟩, -, log, hlog, hpays⟩
          exact (hall log hlog).1 hpays
        · rintro ⟨_, ⟨⟩, -, pre, log, post, hlogs, -, hunreadable⟩
          exact (hall log (by simp [hlogs])).2 hunreadable
      · rcases hend with ⟨hpays, hvalue⟩ | ⟨hunreadable, herror⟩
        · refine .inl ⟨⟨r, rfl, hstatus, log, by simp [hlogs], hpays⟩, ?_, hvalue⟩
          rintro ⟨_, ⟨⟩, -, pre', log', post', hlogs', hpre', hunreadable⟩
          -- the unreadable log would stand before the one that pays
          rcases List.append_eq_append_iff.mp (hlogs.symm.trans hlogs') with
            ⟨mid, rfl, hmid⟩ | ⟨mid, rfl, hmid⟩
          · cases mid with
            | nil =>
              cases hmid
              exact hpays.readable hunreadable
            | cons x mid =>
              cases hmid
              exact hpre' log (by simp) hpays
          · cases mid with
            | nil =>
              cases hmid
              exact hpays.readable hunreadable
            | cons x mid =>
              cases hmid
              exact (hpre log' (by simp)).2 hunreadable
        · exact .inr (.inl ⟨⟨r, rfl, hstatus, pre, log, post, hlogs, fun l hl => (hpre l hl).1,
            hunreadable⟩, herror⟩)
    · rw [if_pos hstatus]
      refine .inr (.inr ⟨?_, ?_, rfl⟩)
      · rintro ⟨_, ⟨⟩, hsuccess, -⟩
        exact hstatus hsuccess
      · rintro ⟨_, ⟨⟩, hsuccess, -⟩
        exact hstatus hsuccess

-- ---------------------------------------------------------------------------
-- The hashes
-- ---------------------------------------------------------------------------

def Skipped (cfg : VerifyConfig) (spent : Finset String) (minUnits : Int) (payToTopic : String)
    (lookup : String × Option Receipt) : Prop :=
  lookup.1 ∉ spent ∧ ¬ Qualifies cfg minUnits payToTopic lookup.2 ∧
    ¬ Chokes cfg minUnits payToTopic lookup.2

/-- How the loop ends at a hash: it is spent, or pays, or its receipt cannot be
read. -/
def EndsAt (cfg : VerifyConfig) (spent : Finset String) (minUnits : Int) (payToTopic : String)
    (lookup : String × Option Receipt) (outcome : Finset String × VerifyCall) : Prop :=
  lookup.1 ∈ spent ∧ outcome = (spent, .done (.ok replay)) ∨
    lookup.1 ∉ spent ∧ Qualifies cfg minUnits payToTopic lookup.2 ∧
      ¬ Chokes cfg minUnits payToTopic lookup.2 ∧
      (∃ value, outcome = (insert lookup.1 spent, .done (.ok (.paid value)))) ∨
    lookup.1 ∉ spent ∧ Chokes cfg minUnits payToTopic lookup.2 ∧
      ∃ e, outcome = (spent, .done (.error e))

theorem toEnd_done (spent : Finset String) (result : Except String VerifyResult)
    (receipts : List (Option Receipt)) :
    (VerifyCall.done result).toEnd cfg spent receipts = (spent, .done result) := by
  cases receipts <;> rfl

/-- The loop from one hash to the next. -/
theorem loop_cases (cfg : VerifyConfig) (minUnits : Int) (payToTopic : String)
    (spent : Finset String) (lookups : Lookups) :
    let outcome := (nextHash spent minUnits payToTopic (lookups.map Prod.fst)).toEnd cfg spent
      (lookups.map Prod.snd)
    (∀ l ∈ lookups, Skipped cfg spent minUnits payToTopic l) ∧
        outcome = (spent, .done (.ok noMatch)) ∨
      ∃ pre l post, lookups = pre ++ l :: post ∧
        (∀ l ∈ pre, Skipped cfg spent minUnits payToTopic l) ∧
        EndsAt cfg spent minUnits payToTopic l outcome := by
  intro outcome
  induction lookups with
  | nil => exact .inl ⟨List.forall_mem_nil _, rfl⟩
  | cons l lookups ih =>
    obtain ⟨hash, receipt⟩ := l
    by_cases hspent : hash ∈ spent
    · refine .inr ⟨[], (hash, receipt), lookups, rfl, List.forall_mem_nil _, .inl ⟨hspent, ?_⟩⟩
      simp [outcome, nextHash, hspent, VerifyCall.toEnd]
    · have hstep : outcome = let l : Lookup := ⟨hash, lookups.map Prod.fst, minUnits, payToTopic⟩
          (l.resume cfg spent receipt).2.toEnd cfg (l.resume cfg spent receipt).1
            (lookups.map Prod.snd) := by
        simp only [outcome, List.map_cons, nextHash, if_neg hspent, VerifyCall.toEnd]
      rcases transfer_cases cfg ⟨hash, lookups.map Prod.fst, minUnits, payToTopic⟩ receipt
        with ⟨hq, hc, value, ht⟩ | ⟨hc, e, ht⟩ | ⟨hq, hc, ht⟩
      · refine .inr ⟨[], (hash, receipt), lookups, rfl, List.forall_mem_nil _,
          .inr (.inl ⟨hspent, hq, hc, value, ?_⟩)⟩
        simp only [hstep, Lookup.resume, ht, toEnd_done]
      · refine .inr ⟨[], (hash, receipt), lookups, rfl, List.forall_mem_nil _,
          .inr (.inr ⟨hspent, hc, e, ?_⟩)⟩
        simp only [hstep, Lookup.resume, ht, toEnd_done]
      · simp only [Lookup.resume, ht] at hstep
        rw [hstep]
        rcases ih with ⟨hall, hnone⟩ | ⟨pre, last, post, rfl, hpre, hends⟩
        · exact .inl ⟨List.forall_mem_cons.mpr ⟨⟨hspent, hq, hc⟩, hall⟩, hnone⟩
        · exact .inr ⟨(hash, receipt) :: pre, last, post, rfl,
            List.forall_mem_cons.mpr ⟨⟨hspent, hq, hc⟩, hpre⟩, hends⟩

-- ---------------------------------------------------------------------------
-- The whole call
-- ---------------------------------------------------------------------------

/-- Hash `i` is the one that pays: it and those before it are unspent, and it is
the first with a transfer that pays. -/
structure PaysAt (cfg : VerifyConfig) (spent : Finset String) (minUnits : Int)
    (payToTopic : String) (lookups : Lookups) (i : Nat) : Prop where
  unspent : ∀ j ≤ i, ∀ l, lookups[j]? = some l → l.1 ∉ spent
  pays : ∃ l, lookups[i]? = some l ∧ Qualifies cfg minUnits payToTopic l.2
  first : ∀ j < i, ∀ l, lookups[j]? = some l → ¬ Qualifies cfg minUnits payToTopic l.2

/-- No receipt up to hash `i` has a log that cannot be read before one that pays. -/
def ReadableTo (cfg : VerifyConfig) (minUnits : Int) (payToTopic : String) (lookups : Lookups)
    (i : Nat) : Prop :=
  ∀ j ≤ i, ∀ l, lookups[j]? = some l → ¬ Chokes cfg minUnits payToTopic l.2

/-- A call that credits exactly the hash that pays. -/
structure Exact (spent : Finset String) (lookups : Lookups) (pays : Nat → Prop)
    (outcome : Finset String × VerifyCall) : Prop where
  returns : ∃ result, outcome.2 = .done result
  credited : outcome.2.Credited ↔ ∃ i, pays i
  grows : ∀ i l, pays i → lookups[i]? = some l → outcome.1 = insert l.1 spent
  unchanged : (¬ ∃ i, pays i) → outcome.1 = spent

theorem exact_of_none {pays : Nat → Prop} (hno : ∀ i, ¬ pays i)
    (hresult : outcome.2 = .done result) (hno' : ¬ outcome.2.Credited)
    (hspent : outcome.1 = spent) :
    Exact spent lookups pays outcome where
  returns := ⟨result, hresult⟩
  credited := iff_of_false hno' (not_exists.mpr hno)
  grows i _ hi := absurd hi (hno i)
  unchanged _ := hspent

theorem Skipped.not_paysAt (h : ∀ l ∈ lookups, Skipped cfg spent minUnits payToTopic l) :
    ¬ PaysAt cfg spent minUnits payToTopic (lookups ++ rest) i ∨ lookups.length ≤ i := by
  by_contra hboth
  obtain ⟨hpays, hlt⟩ := not_or.mp hboth
  obtain ⟨l, hl, hq⟩ := (not_not.mp hpays).pays
  rw [List.getElem?_append_left (not_le.mp hlt)] at hl
  exact (h l (List.mem_of_getElem? hl)).2.1 hq

theorem loop_exact_iff (cfg : VerifyConfig) (minUnits : Int) (payToTopic : String)
    (spent : Finset String) (lookups : Lookups) :
    Exact spent lookups (PaysAt cfg spent minUnits payToTopic lookups)
        ((nextHash spent minUnits payToTopic (lookups.map Prod.fst)).toEnd cfg spent
          (lookups.map Prod.snd)) ↔
      ∀ i, PaysAt cfg spent minUnits payToTopic lookups i →
        ReadableTo cfg minUnits payToTopic lookups i := by
  rcases loop_cases cfg minUnits payToTopic spent lookups with
    ⟨hall, houtcome⟩ | ⟨pre, l, post, rfl, hpre, hends⟩
  · have hno : ∀ i, ¬ PaysAt cfg spent minUnits payToTopic lookups i := by
      intro i hi
      obtain ⟨l, hl, hq⟩ := hi.pays
      exact (hall l (List.mem_of_getElem? hl)).2.1 hq
    rw [houtcome]
    refine iff_of_true (exact_of_none hno rfl ?_ rfl) fun i hi => absurd hi (hno i)
    simp [VerifyCall.Credited, noMatch, VerifyResult.failed]
  · have hle : ∀ i, PaysAt cfg spent minUnits payToTopic (pre ++ l :: post) i → pre.length ≤ i :=
      fun i hi => (Skipped.not_paysAt hpre).resolve_left (not_not.mpr hi)
    have hat : (pre ++ l :: post)[pre.length]? = some l := by simp
    rcases hends with ⟨hspent, houtcome⟩ | ⟨hspent, hq, hc, value, houtcome⟩ |
      ⟨hspent, hc, e, houtcome⟩
    · have hno : ∀ i, ¬ PaysAt cfg spent minUnits payToTopic (pre ++ l :: post) i :=
        fun i hi => hi.unspent _ (hle i hi) l hat hspent
      rw [houtcome]
      refine iff_of_true (exact_of_none hno rfl ?_ rfl) fun i hi => absurd hi (hno i)
      simp [VerifyCall.Credited, replay, VerifyResult.failed]
    · have hbefore : ∀ j < pre.length, ∀ l', (pre ++ l :: post)[j]? = some l' →
          Skipped cfg spent minUnits payToTopic l' := by
        intro j hj l' hl'
        rw [List.getElem?_append_left hj] at hl'
        exact hpre l' (List.mem_of_getElem? hl')
      have hpays : PaysAt cfg spent minUnits payToTopic (pre ++ l :: post) pre.length := by
        refine ⟨fun j hj l' hl' => ?_, ⟨l, hat, hq⟩, fun j hj l' hl' => (hbefore j hj l' hl').2.1⟩
        rcases hj.lt_or_eq with hj | rfl
        · exact (hbefore j hj l' hl').1
        · exact Option.some.inj (hat.symm.trans hl') ▸ hspent
      -- it is the only hash that pays
      have honly : ∀ i, PaysAt cfg spent minUnits payToTopic (pre ++ l :: post) i →
          i = pre.length := by
        intro i hi
        refine le_antisymm (not_lt.mp fun hlt => ?_) (hle i hi)
        exact hi.first _ hlt l hat hq
      rw [houtcome]
      refine iff_of_true ⟨⟨_, rfl⟩, ?_, fun i l' hi hl' => ?_, fun hno => absurd ⟨_, hpays⟩ hno⟩ ?_
      · exact iff_of_true (by simp [VerifyCall.Credited, VerifyResult.paid]) ⟨_, hpays⟩
      · obtain rfl := honly i hi
        rw [Option.some.inj (hat.symm.trans hl')]
      · intro i hi j hj l' hl'
        obtain rfl := honly i hi
        rcases hj.lt_or_eq with hj | rfl
        · exact (hbefore j hj l' hl').2.2
        · exact Option.some.inj (hat.symm.trans hl') ▸ hc
    · rw [houtcome]
      constructor
      · intro hexact i hi
        have hcredited := hexact.credited.mpr ⟨i, hi⟩
        simp [VerifyCall.Credited] at hcredited
      · intro hreadable
        refine exact_of_none (fun i hi => ?_) rfl (by simp [VerifyCall.Credited]) rfl
        exact hreadable i hi _ (hle i hi) l hat hc

end

/-- The hash that pays the price to the payee, if both can be read. -/
def PaysFor (cfg : VerifyConfig) (spent : Finset String) (lookups : Lookups) (payTo : String)
    (minAmountUsd : Option ℚ) (i : Nat) : Prop :=
  ∃ minUnits payToTopic, minAmountUsd.bind cfg.parseUnits = some minUnits ∧
    toTopic cfg payTo = some payToTopic ∧ PaysAt cfg spent minUnits payToTopic lookups i

/-- A call on its own credits the first hash that pays, and spends only that,
exactly when no log that cannot be read is met before its transfer. -/
theorem verifyAlone_exact_iff (cfg : VerifyConfig) (spent : Finset String) (lookups : Lookups)
    (payTo : String) (minAmountUsd : Option ℚ) :
    Exact spent lookups (PaysFor cfg spent lookups payTo minAmountUsd)
        (verifyAlone cfg spent lookups payTo minAmountUsd) ↔
      ∀ i minUnits payToTopic, minAmountUsd.bind cfg.parseUnits = some minUnits →
        toTopic cfg payTo = some payToTopic → PaysAt cfg spent minUnits payToTopic lookups i →
        ReadableTo cfg minUnits payToTopic lookups i := by
  unfold verifyAlone verifyUaPayment
  by_cases hnil : lookups = []
  · subst hnil
    have hno : ∀ minUnits payToTopic i, ¬ PaysAt cfg spent minUnits payToTopic [] i := by
      intro minUnits payToTopic i hi
      obtain ⟨l, hl, -⟩ := hi.pays
      cases hl
    refine iff_of_true (exact_of_none (fun i hi => ?_) rfl ?_ rfl) fun i m t _ _ hi =>
      absurd hi (hno m t i)
    · obtain ⟨m, t, -, -, hi⟩ := hi
      exact hno m t i hi
    · simp [VerifyCall.toEnd, VerifyCall.Credited, noHash, VerifyResult.failed]
  · rw [if_neg (by simpa using hnil)]
    dsimp only
    cases hunits : minAmountUsd.bind cfg.parseUnits with
    | none =>
      rw [toEnd_done]
      refine iff_of_true (exact_of_none (fun i hi => ?_) rfl (by simp [VerifyCall.Credited]) rfl)
        fun _ _ _ hm => by cases hm
      obtain ⟨_, _, hm, -⟩ := hi
      rw [hunits] at hm
      cases hm
    | some minUnits =>
      cases htopic : toTopic cfg payTo with
      | none =>
        rw [toEnd_done]
        refine iff_of_true (exact_of_none (fun i hi => ?_) rfl (by simp [VerifyCall.Credited]) rfl)
          fun _ _ _ _ ht => by cases ht
        obtain ⟨_, _, -, ht, -⟩ := hi
        rw [htopic] at ht
        cases ht
      | some payToTopic =>
        have hpays : PaysFor cfg spent lookups payTo minAmountUsd =
            PaysAt cfg spent minUnits payToTopic lookups := by
          funext i
          simp [PaysFor, hunits, htopic]
        rw [hpays]
        simpa using loop_exact_iff cfg minUnits payToTopic spent lookups

/-- The log of the sample receipt, with other data. -/
def sampleLog (data : String) : Log where
  address := "0xaf88d065e77c8cc2239327c5edb3a432268e5831"
  topics :=
    [transferTopic, "0x00000000000000000000000014791697260e4c9a71f18484c9f997b308e59325",
      "0x0000000000000000000000005aaeb6053f3e94c9b9a09f33669435e7ef1beaed"]
  data

/-- A transfer to the payee without data, and one of a dollar behind it. -/
def sampleGarbled : Lookups :=
  [(sampleHash, some ⟨"success", [sampleLog "0x", sampleLog "0xf4240"]⟩)]

theorem verify_garbled_throws :
    (verifyAlone sampleVerifyConfig ∅ sampleGarbled samplePayee (some (1 / 10))).2 =
      .done (.error "SyntaxError") := by
  decide +kernel

theorem verify_garbled :
    ¬ Exact ∅ sampleGarbled
      (PaysFor sampleVerifyConfig ∅ sampleGarbled samplePayee (some (1 / 10)))
      (verifyAlone sampleVerifyConfig ∅ sampleGarbled samplePayee (some (1 / 10))) := by
  intro h
  have hthrows := verify_garbled_throws
  generalize verifyAlone sampleVerifyConfig ∅ sampleGarbled samplePayee (some (1 / 10)) = outcome
    at h hthrows
  have hnot : ¬ outcome.2.Credited := by
    rw [hthrows]
    exact id
  have hunits : (some (1 / 10 : ℚ)).bind sampleVerifyConfig.parseUnits = some 100000 := by
    decide +kernel
  have htopic : toTopic sampleVerifyConfig samplePayee =
      some "0x0000000000000000000000005aaeb6053f3e94c9b9a09f33669435e7ef1beaed" := by
    decide +kernel
  have htransfer : TransferTo sampleVerifyConfig
      "0x0000000000000000000000005aaeb6053f3e94c9b9a09f33669435e7ef1beaed"
      (sampleLog "0xf4240") :=
    ⟨by decide +kernel, by decide +kernel, by decide +kernel⟩
  have hvalue : bigInt "0xf4240" = some 1000000 := by decide +kernel
  have hpays : PaysIn sampleVerifyConfig 100000
      "0x0000000000000000000000005aaeb6053f3e94c9b9a09f33669435e7ef1beaed" (sampleLog "0xf4240") :=
    ⟨htransfer, 1000000, hvalue, by decide⟩
  have hpaid : ∃ i, PaysFor sampleVerifyConfig ∅ sampleGarbled samplePayee (some (1 / 10)) i := by
    refine ⟨0, _, _, hunits, htopic, ?_, ⟨_, rfl, _, rfl, rfl, _, ?_, hpays⟩, ?_⟩
    · intro j hj l hl
      exact Finset.notMem_empty _
    · exact List.mem_cons_of_mem _ List.mem_cons_self
    · intro j hj
      cases hj
  exact hnot (h.credited.mpr hpaid)

end Xelt.VpnServer
