import Xelt.VpnServer.Requests

/-!
# Redemption

A retry carries its proof of payment in two places: an `X-PAYMENT` header with
optional fields, and the body. Whether there is a proof is decided on its
`transactionId`, which is then only logged; what is verified are the hashes of
the header. So a settled payment is redeemed exactly when the request also has
a `transactionId`, and has its hashes in the header.
-/

namespace Xelt.VpnServer

open Runs

-- ---------------------------------------------------------------------------
-- The loop on one chain
-- ---------------------------------------------------------------------------

/-- What `getTransactionReceipt` finds for a hash. -/
abbrev Chain := String → Option Receipt

section
variable (cfg : VerifyConfig) (chain : Chain) (spent : Finset String) (minUnits : Int)
  (payToTopic : String)

/-- The loop over the hashes, with every await answered by the chain. -/
def verifyAll : List String → Except String VerifyResult
  | [] => .ok noMatch
  | h :: rest =>
    if h ∈ spent then .ok replay
    else match Lookup.transfer cfg ⟨h, rest, minUnits, payToTopic⟩ (chain h) with
      | .error e => .error e
      | .ok none => verifyAll rest
      | .ok (some value) => .ok (.paid value)

/-- A transaction that settled and pays the payee, before any spent hash. -/
def Settles (hashes : List String) : Prop :=
  ∃ pre h post value, hashes = pre ++ h :: post ∧ (∀ g ∈ pre ++ [h], g ∉ spent) ∧
    Lookup.transfer cfg ⟨h, post, minUnits, payToTopic⟩ (chain h) = .ok (some value)

end

/-- The logs on the chain are well formed: none of their fields makes the loop
throw. -/
def Chain.WellFormed (cfg : VerifyConfig) (chain : Chain) : Prop :=
  ∀ (l : Lookup) (e : String), l.transfer cfg (chain l.hash) ≠ .error e

section
variable {cfg : VerifyConfig} {chain : Chain} {spent : Finset String} {minUnits : Int}
  {payToTopic : String}

theorem verifyAll_ok (hchain : chain.WellFormed cfg) (hashes : List String) :
    (∃ v, verifyAll cfg chain spent minUnits payToTopic hashes = .ok v ∧ v.ok = true) ↔
      Settles cfg chain spent minUnits payToTopic hashes := by
  induction hashes with
  | nil =>
    refine iff_of_false ?_ ?_
    · rintro ⟨v, hv, hok⟩
      cases hv
      cases hok
    · rintro ⟨pre, h, post, _, hsplit, _⟩
      cases pre <;> cases hsplit
  | cons h rest ih =>
    by_cases hspent : h ∈ spent
    · rw [verifyAll, if_pos hspent]
      refine iff_of_false ?_ ?_
      · rintro ⟨v, hv, hok⟩
        cases hv
        cases hok
      · rintro ⟨pre, g, post, _, hsplit, hfresh, _⟩
        refine hfresh h ?_ hspent
        cases pre with
        | nil =>
          obtain ⟨rfl, _⟩ := List.cons.inj hsplit
          exact List.mem_singleton_self _
        | cons p pre =>
          obtain ⟨rfl, _⟩ := List.cons.inj hsplit
          exact List.mem_cons_self
    · rw [verifyAll, if_neg hspent]
      cases htransfer : Lookup.transfer cfg ⟨h, rest, minUnits, payToTopic⟩ (chain h) with
      | error e => exact absurd htransfer (hchain ⟨h, rest, minUnits, payToTopic⟩ e)
      | ok value =>
        cases value with
        | some value =>
          refine iff_of_true ⟨_, rfl, rfl⟩ ⟨[], h, rest, value, rfl, ?_, htransfer⟩
          intro g hg
          obtain rfl := List.mem_singleton.mp hg
          exact hspent
        | none =>
          refine ih.trans ⟨?_, ?_⟩
          · rintro ⟨pre, g, post, value, rfl, hfresh, hpays⟩
            refine ⟨h :: pre, g, post, value, rfl, ?_, hpays⟩
            exact List.forall_mem_cons.mpr ⟨hspent, hfresh⟩
          · rintro ⟨pre, g, post, value, hsplit, hfresh, hpays⟩
            cases pre with
            | nil =>
              obtain ⟨rfl, rfl⟩ := List.cons.inj hsplit
              rw [htransfer] at hpays
              cases hpays
            | cons p pre =>
              obtain ⟨rfl, rfl⟩ := List.cons.inj hsplit
              exact ⟨pre, g, post, value, rfl, (List.forall_mem_cons.mp hfresh).2, hpays⟩

end

-- ---------------------------------------------------------------------------
-- A call that is finished on the chain
-- ---------------------------------------------------------------------------

def VerifyCall.finish (cfg : VerifyConfig) (chain : Chain) (spent : Finset String) :
    VerifyCall → Except String VerifyResult
  | .done result => result
  | .awaiting l => verifyAll cfg chain spent l.minUnits l.payToTopic (l.hash :: l.rest)

section
variable {cfg : VerifyConfig} {chain : Chain} {spent spent' : Finset String} {minUnits : Int}
  {payToTopic : String}

theorem finish_nextHash (hashes : List String) :
    (nextHash spent minUnits payToTopic hashes).finish cfg chain spent =
      verifyAll cfg chain spent minUnits payToTopic hashes := by
  cases hashes with
  | nil => rfl
  | cons h rest =>
    by_cases hspent : h ∈ spent
    · rw [nextHash, if_pos hspent, verifyAll, if_pos hspent]
      rfl
    · rw [nextHash, if_neg hspent]
      rfl

theorem nextHash_congr (h : ∀ g ∈ hashes, g ∈ spent ↔ g ∈ spent') :
    nextHash spent minUnits payToTopic hashes = nextHash spent' minUnits payToTopic hashes := by
  cases hashes with
  | nil => rfl
  | cons g rest =>
    have hg := h g List.mem_cons_self
    simp only [nextHash, hg]

theorem verify_congr {opts : VerifyOpts} (h : ∀ g ∈ opts.txHashes, g ∈ spent ↔ g ∈ spent') :
    verifyUaPayment cfg spent opts = verifyUaPayment cfg spent' opts := by
  unfold verifyUaPayment
  split
  · rfl
  split
  · rfl
  split
  · rfl
  · exact nextHash_congr h

theorem finish_resume {l : Lookup} (hfresh : l.hash ∉ spent)
    (h : ∀ g ∈ l.rest, g ∈ spent' ↔ g ∈ spent) :
    (l.resume cfg spent' (chain l.hash)).2.finish cfg chain spent =
      (VerifyCall.awaiting l).finish cfg chain spent := by
  rw [VerifyCall.finish, verifyAll, if_neg hfresh, Lookup.resume]
  cases htransfer : l.transfer cfg (chain l.hash) with
  | error e => rfl
  | ok value =>
    cases value with
    | none => rw [nextHash_congr h, finish_nextHash]
    | some value => rfl

theorem nextHash_listed (h : nextHash spent minUnits payToTopic hashes = .awaiting l) :
    l.hash ∉ spent ∧ ∀ g ∈ l.hash :: l.rest, g ∈ hashes := by
  cases hashes with
  | nil => cases h
  | cons g rest =>
    rw [nextHash] at h
    split at h
    · cases h
    · rename_i hspent
      cases h
      exact ⟨hspent, fun _ => id⟩

theorem verify_listed {opts : VerifyOpts}
    (h : verifyUaPayment cfg spent opts = .awaiting l) :
    l.hash ∉ spent ∧ ∀ g ∈ l.hash :: l.rest, g ∈ opts.txHashes := by
  unfold verifyUaPayment at h
  split at h
  · cases h
  split at h
  · cases h
  split at h
  · cases h
  · exact nextHash_listed h

end

-- ---------------------------------------------------------------------------
-- The gate
-- ---------------------------------------------------------------------------

def Gated.listed (q : Gated) : List String :=
  match q.proof with
  | some ⟨_, _, .hashes hashes⟩ => hashes
  | _ => []

/-- The header or the body has a `transactionId` that can be printed, and the
header lists a settled payment of the price before any spent hash. -/
def Gated.Redeems (cfg : ServerConfig) (chain : Chain) (spent : Finset String) (q : Gated) :
    Prop :=
  ∃ proof hashes minUnits payToTopic, q.proof = some proof ∧
    (proof.transactionId.or q.body.transactionId).truthy = true ∧
    (proof.transactionId.or q.body.transactionId).printable = true ∧
    proof.txHashes = .hashes hashes ∧
    (amountUsd q.minutes cfg.pricing).bind cfg.verify.parseUnits = some minUnits ∧
    toTopic cfg.verify cfg.payee = some payToTopic ∧
    Settles cfg.verify chain spent minUnits payToTopic hashes

section
variable {cfg : ServerConfig} {chain : Chain} {spent spent' : Finset String} {q : Gated}

theorem requirePayment_congr (h : ∀ g ∈ q.listed, g ∈ spent ↔ g ∈ spent') :
    requirePayment cfg spent q = requirePayment cfg spent' q := by
  obtain ⟨route, body, proof, wgKey, minutes⟩ := q
  cases proof with
  | none => rfl
  | some proof =>
    obtain ⟨transactionId, payerAddress, txHashes⟩ := proof
    cases txHashes with
    | notIterable => rfl
    | hashes hashes =>
      simp only [requirePayment, verifyProof]
      rw [verify_congr h]

/-- A payment is required and verified, with a result that is ok, exactly when
the request redeems one. -/
theorem redeems_iff (hchain : chain.WellFormed cfg.verify) :
    q.Redeems cfg chain spent ↔ ∃ call v, requirePayment cfg spent q = .ok call ∧
      call.finish cfg.verify chain spent = .ok v ∧ v.ok = true := by
  constructor
  · rintro ⟨proof, hashes, minUnits, payToTopic, hproof, htruthy, hprintable, hhashes, hunits,
      htopic, hs⟩
    have hne : hashes ≠ [] := by
      rintro rfl
      obtain ⟨pre, _, _, _, hsplit, _⟩ := hs
      cases pre <;> cases hsplit
    obtain ⟨v, hv, hok⟩ := (verifyAll_ok hchain hashes).mpr hs
    refine ⟨_, v, by simp only [requirePayment, hproof, htruthy, if_true]; rfl, ?_, hok⟩
    simp only [verifyProof, hhashes, hprintable, if_true, verifyUaPayment, if_neg hne, hunits,
      htopic]
    rw [finish_nextHash, hv]
  · rintro ⟨call, v, hcall, hfinish, hok⟩
    obtain ⟨proof, hproof, htruthy, rfl⟩ := requirePayment_ok hcall
    unfold verifyProof at hfinish
    split at hfinish
    · rename_i hashes hhashes
      split at hfinish
      · rename_i hprintable
        simp only [verifyUaPayment] at hfinish
        split at hfinish
        · cases hfinish
          cases hok
        split at hfinish
        · cases hfinish
        rename_i minUnits hunits
        split at hfinish
        · cases hfinish
        rename_i payToTopic htopic
        rw [finish_nextHash] at hfinish
        exact ⟨proof, hashes, minUnits, payToTopic, hproof, htruthy, hprintable, hhashes, hunits,
          htopic, (verifyAll_ok hchain hashes).mp ⟨v, hfinish, hok⟩⟩
      · cases hfinish
    · cases hfinish

theorem requirePayment_listed (h : requirePayment cfg spent q = .ok (.awaiting l)) :
    l.hash ∉ spent ∧ ∀ g ∈ l.hash :: l.rest, g ∈ q.listed := by
  obtain ⟨proof, hproof, -, hcall⟩ := requirePayment_ok h
  unfold verifyProof at hcall
  split at hcall
  · rename_i hashes hhashes
    have hlisted : q.listed = hashes := by
      obtain ⟨transactionId, payerAddress, txHashes⟩ := proof
      cases hhashes
      simp only [Gated.listed, hproof]
    rw [hlisted]
    split at hcall
    · exact verify_listed hcall.symm
    · cases hcall
  · cases hcall

end

-- ---------------------------------------------------------------------------
-- The handlers
-- ---------------------------------------------------------------------------

def Phase.Handled : Phase → Prop
  | .probing _ | .verifying .. => False
  | .connecting .. | .renewing .. => True
  | .answered response => response.status ≠ 402

section
variable {cfg : ServerConfig} {now : Int} {spent : Finset String} {store : SessionStore}
  {q : Gated}

theorem renewHandler_handled : (renewHandler cfg now spent store q).phase.Handled := by
  unfold renewHandler
  dsimp only
  split
  · simp [answer, Phase.Handled, Response.status]
  · split
    · simp [answer, Phase.Handled, Response.status]
    · trivial

theorem verified_handled (hok : v.ok = true)
    (h : serve cfg now spent store (.verifying q (.done (.ok v))) .verified = some out) :
    out.phase.Handled := by
  simp only [serve, hok, Bool.true_eq_false, if_false] at h
  split at h
  · split at h
    · cases h
      simp [answer, Phase.Handled, Response.status]
    · cases h
      trivial
  · cases h
    exact renewHandler_handled

theorem connectRegistered_handled (minutes : Int) (payer : Option String)
    (outcome : Except String BoringtunRegisterResponse) :
    (connectRegistered now spent store q minutes payer outcome).phase.Handled := by
  unfold connectRegistered
  split
  · simp [answer, Phase.Handled, Response.status]
  · split
    · simp [answer, Phase.Handled, Response.status]
    · dsimp only [answer, Phase.Handled]
      split <;> simp [Response.status, invalidTime]

theorem renewRegistered_handled (session : Nat)
    (outcome : Except String BoringtunRegisterResponse) :
    (renewRegistered spent store q session outcome).phase.Handled := by
  unfold renewRegistered
  split
  · simp [answer, Phase.Handled, Response.status]
  · split
    · simp [answer, Phase.Handled, Response.status, internalError]
    · dsimp only [answer, Phase.Handled]
      split <;> simp [Response.status, invalidTime]

end

namespace Server

-- ---------------------------------------------------------------------------
-- Runs
-- ---------------------------------------------------------------------------

def AtGate (s : Server) (r : Nat) : Prop :=
  ∃ q, s.requests r = some (.probing q) ∨ ∃ call, s.requests r = some (.verifying q call)

def runsHandler (r : Nat) (s : Server) : Input → Bool
  | .event r' .verified =>
    r' == r && match s.requests r with
      | some (.verifying _ call) => decide call.Credited
      | _ => false
  | _ => false

/-- The inputs of a run at which the handler of the request is run. -/
def handled (cfg : ServerConfig) (r : Nat) (s : Server) (is : List Input) : List Input :=
  trace (step cfg) (fun s i => if runsHandler r s i then [i] else []) s is

/-- The backend is there, the receipts are those of the chain, and no hash of
the list is spent by another request while this one is in the gate. -/
def Faithful (chain : Chain) (hashes : List String) (spent : Finset String) (r : Nat) (s : Server)
    (i : Input) : Prop :=
  match s.requests r with
  | some (.probing _) => ∀ outcome, i = .event r (.probed outcome) →
    outcome = .ok () ∧ ∀ g ∈ hashes, g ∈ s.spent ↔ g ∈ spent
  | some (.verifying _ (.awaiting l)) => ∀ receipt, i = .event r (.receipt receipt) →
    receipt = chain l.hash ∧ ∀ g ∈ hashes, g ∈ s.spent ↔ g ∈ spent
  | _ => True

variable {cfg : ServerConfig} {chain : Chain} {s s' : Server} {q : Gated} {spent : Finset String}

theorem step_phase (hp : s.requests r = some phase) (h : step cfg s i = some s') :
    ((∀ e, i ≠ .event r e) ∧ s'.requests r = some phase) ∨
      ∃ e out, i = .event r e ∧ serve cfg s.now s.spent s.store phase e = some out ∧
        s'.requests r = some out.phase := by
  obtain ⟨⟨_, effs⟩, hmove, rfl⟩ := Option.map_eq_some_iff.mp h
  cases i with
  | elapse ms =>
    cases hmove
    exact .inl ⟨by simp, hp⟩
  | clear body =>
    cases hmove
    exact .inl ⟨by simp, hp⟩
  | tick t =>
    obtain ⟨-, rfl, -⟩ := move_tick hmove
    exact .inl ⟨by simp, hp⟩
  | unregistered t outcome =>
    obtain ⟨ref, rest, -, hsame, -⟩ := move_unregistered hmove
    exact .inl ⟨by simp, by rw [hsame]; exact hp⟩
  | request r' route body proof =>
    obtain ⟨hnone, phase, rfl, -⟩ := move_request hmove
    have hne : r ≠ r' := by
      rintro rfl
      rw [hp] at hnone
      cases hnone
    exact .inl ⟨by simp, by rw [← hp]; exact Function.update_of_ne hne ..⟩
  | event r' e =>
    obtain ⟨phase', out, hp', hserve, rfl, -⟩ := move_event.mp hmove
    by_cases hr : r' = r
    · subst hr
      obtain rfl := Option.some.inj (hp'.symm.trans hp)
      exact .inr ⟨e, out, rfl, hserve, Function.update_self ..⟩
    · refine .inl ⟨by simp [hr], ?_⟩
      rw [← hp]
      exact Function.update_of_ne (Ne.symm hr) ..

/-- Where a request of the gate is, and whether its handler has been run. -/
def Fate (cfg : ServerConfig) (chain : Chain) (spent : Finset String) (q : Gated) :
    Phase → List Input → Prop
  | .probing q', past => q' = q ∧ past = []
  | .verifying q' call, past =>
    q' = q ∧ past = [] ∧
      (∃ first, requirePayment cfg spent q = .ok first ∧
        call.finish cfg.verify chain spent = first.finish cfg.verify chain spent) ∧
      ∀ l, call = .awaiting l → l.hash ∉ spent ∧ ∀ g ∈ l.hash :: l.rest, g ∈ q.listed
  | phase, past =>
    (past ≠ [] → q.Redeems cfg chain spent ∧ phase.Handled) ∧
      (past = [] → ¬ q.Redeems cfg chain spent ∧ ∃ response, phase = .answered response)

theorem resume_listed {l l' : Lookup} {spent' : Finset String}
    (hspent : ∀ g ∈ q.listed, g ∈ spent' ↔ g ∈ spent) (hl : ∀ g ∈ l.hash :: l.rest, g ∈ q.listed)
    (h : (l.resume vcfg spent' receipt).2 = .awaiting l') :
    l'.hash ∉ spent ∧ ∀ g ∈ l'.hash :: l'.rest, g ∈ q.listed := by
  rw [Lookup.resume] at h
  cases htransfer : l.transfer vcfg receipt with
  | error e =>
    rw [htransfer] at h
    cases h
  | ok value =>
    cases value with
    | some value =>
      rw [htransfer] at h
      cases h
    | none =>
      simp only [htransfer] at h
      obtain ⟨hfresh, hmem⟩ := nextHash_listed h
      have hlisted : ∀ g ∈ l'.hash :: l'.rest, g ∈ q.listed :=
        fun g hg => hl g (List.mem_cons_of_mem _ (hmem g hg))
      exact ⟨fun hs => hfresh ((hspent _ (hlisted _ List.mem_cons_self)).mpr hs), hlisted⟩

theorem fate_handled (hr : q.Redeems cfg chain spent) (hh : phase.Handled)
    (hne : past ≠ []) : Fate cfg chain spent q phase past := by
  cases phase with
  | probing _ | verifying _ _ => exact hh.elim
  | connecting _ _ _ | renewing _ _ _ | answered _ =>
    exact ⟨fun _ => ⟨hr, hh⟩, fun hnil => absurd hnil hne⟩

theorem fate_refused (hr : ¬ q.Redeems cfg chain spent) (response : Response) :
    Fate cfg chain spent q (.answered response) [] :=
  ⟨fun hne => absurd rfl hne, fun _ => ⟨hr, response, rfl⟩⟩

theorem runsHandler_verified (hp : s.requests r = some (.verifying q call)) :
    runsHandler r s (.event r .verified) = decide call.Credited := by
  simp [runsHandler, hp]

theorem fate_probed (hchain : chain.WellFormed cfg.verify)
    (h : Fate cfg chain spent q (.probing q') past) (hp : s.requests r = some (.probing q'))
    (hf : Faithful chain q.listed spent r s (.event r (.probed outcome)))
    (hs : serve cfg s.now s.spent s.store (.probing q') (.probed outcome) = some out) :
    Fate cfg chain spent q out.phase past := by
  obtain ⟨rfl, rfl⟩ := h
  simp only [Faithful, hp] at hf
  obtain ⟨rfl, hspent⟩ := hf outcome rfl
  simp only [serve, requirePayment_congr hspent] at hs
  split at hs
  · rename_i response hreq
    cases hs
    refine fate_refused ?_ response
    rw [redeems_iff hchain]
    rintro ⟨call, _, hcall, _⟩
    rw [hreq] at hcall
    cases hcall
  · rename_i call hreq
    cases hs
    exact ⟨rfl, rfl, ⟨call, hreq, rfl⟩, fun l hl => requirePayment_listed (hl ▸ hreq)⟩

theorem fate_receipt (h : Fate cfg chain spent q (.verifying q' (.awaiting l)) past)
    (hp : s.requests r = some (.verifying q' (.awaiting l)))
    (hf : Faithful chain q.listed spent r s (.event r (.receipt receipt)))
    (hs : serve cfg s.now s.spent s.store (.verifying q' (.awaiting l)) (.receipt receipt) =
      some out) :
    Fate cfg chain spent q out.phase past := by
  obtain ⟨rfl, rfl, ⟨first, hfirst, hfinish⟩, hlisted⟩ := h
  simp only [Faithful, hp] at hf
  obtain ⟨rfl, hspent⟩ := hf receipt rfl
  obtain ⟨hfresh, hl⟩ := hlisted l rfl
  cases hs
  refine ⟨rfl, rfl, ⟨first, hfirst, ?_⟩, fun l' hl' => resume_listed hspent hl hl'⟩
  rw [finish_resume hfresh fun g hg => hspent g (hl g (List.mem_cons_of_mem _ hg)), hfinish]

/-- What is verified decides whether the payment is redeemed. -/
theorem redeems_of_fate (hchain : chain.WellFormed cfg.verify)
    (h : Fate cfg chain spent q (.verifying q' (.done result)) past) :
    q.Redeems cfg chain spent ↔ ∃ v, result = .ok v ∧ v.ok = true := by
  obtain ⟨rfl, -, ⟨first, hfirst, hfinish⟩, -⟩ := h
  rw [redeems_iff hchain]
  constructor
  · rintro ⟨call, v, hcall, hv⟩
    obtain rfl := Except.ok.inj (hfirst.symm.trans hcall)
    rw [← hfinish] at hv
    exact ⟨v, hv⟩
  · rintro ⟨v, hv⟩
    refine ⟨first, v, hfirst, ?_⟩
    rw [← hfinish]
    exact hv

theorem fate_verified (hchain : chain.WellFormed cfg.verify)
    (h : Fate cfg chain spent q (.verifying q' (.done result)) past)
    (hp : s.requests r = some (.verifying q' (.done result)))
    (hs : serve cfg s.now s.spent s.store (.verifying q' (.done result)) .verified = some out) :
    Fate cfg chain spent q out.phase
      (past ++ if runsHandler r s (.event r .verified) then [.event r .verified] else []) := by
  have hredeems := redeems_of_fate hchain h
  obtain ⟨rfl, rfl, -, -⟩ := h
  rw [runsHandler_verified hp]
  cases result with
  | error message =>
    cases hs
    have hnot : ¬ (VerifyCall.done (.error message)).Credited := fun hc => hc
    rw [decide_eq_false hnot, if_neg Bool.false_ne_true]
    refine fate_refused ?_ _
    rw [hredeems]
    rintro ⟨_, hv, _⟩
    cases hv
  | ok v =>
    cases hok : v.ok with
    | false =>
      simp only [serve, hok, if_true] at hs
      cases hs
      have hnot : ¬ (VerifyCall.done (.ok v)).Credited := by simp [VerifyCall.Credited, hok]
      rw [decide_eq_false hnot, if_neg Bool.false_ne_true]
      refine fate_refused ?_ _
      rw [hredeems]
      rintro ⟨_, hv, hv'⟩
      cases hv
      rw [hok] at hv'
      cases hv'
    | true =>
      have hcredited : (VerifyCall.done (.ok v)).Credited := hok
      rw [decide_eq_true hcredited, if_pos rfl]
      exact fate_handled (hredeems.mpr ⟨v, rfl, hok⟩) (verified_handled hok hs)
        (List.cons_ne_nil _ _)

/-- A request that waits for its registration has left the gate. -/
theorem fate_registered {phase phase' : Phase}
    (h : (past ≠ [] → q.Redeems cfg chain spent ∧ phase.Handled) ∧
      (past = [] → ¬ q.Redeems cfg chain spent ∧ ∃ response, phase = .answered response))
    (hna : ∀ response, phase ≠ .answered response) (hh : phase'.Handled) :
    Fate cfg chain spent q phase' past := by
  have hne : past ≠ [] := fun hnil => by
    obtain ⟨-, response, heq⟩ := h.2 hnil
    exact hna response heq
  exact fate_handled (h.1 hne).1 hh hne

theorem serve_verifying (hreceipt : ∀ receipt, e ≠ .receipt receipt) (hverified : e ≠ .verified) :
    serve cfg s.now s.spent s.store (.verifying q call) e ≠ some out := by
  intro h
  cases e with
  | receipt receipt => exact hreceipt receipt rfl
  | verified => exact hverified rfl
  | probed outcome | registered outcome =>
    cases call with
    | awaiting l => cases h
    | done result => cases result <;> cases h

theorem fate_serve (hchain : chain.WellFormed cfg.verify)
    (h : Fate cfg chain spent q phase past) (hp : s.requests r = some phase)
    (hf : Faithful chain q.listed spent r s (.event r e))
    (hs : serve cfg s.now s.spent s.store phase e = some out) :
    Fate cfg chain spent q out.phase
      (past ++ if runsHandler r s (.event r e) then [.event r e] else []) := by
  -- the handler is run where the verification is done, and there only
  have hidle : e ≠ .verified → runsHandler r s (.event r e) = false := by
    intro hne
    cases e with
    | verified => exact absurd rfl hne
    | probed | receipt | registered => rfl
  cases e with
  | verified =>
    cases phase with
    | verifying q' call =>
      cases call with
      | awaiting l => cases hs
      | done result => exact fate_verified hchain h hp hs
    | probing | connecting | renewing | answered => cases hs
  | probed outcome =>
    rw [hidle nofun, if_neg Bool.false_ne_true, List.append_nil]
    cases phase with
    | probing q' => exact fate_probed hchain h hp hf hs
    | verifying q' call => exact absurd hs (serve_verifying (fun _ => nofun) nofun)
    | connecting | renewing | answered => cases hs
  | receipt receipt =>
    rw [hidle nofun, if_neg Bool.false_ne_true, List.append_nil]
    cases phase with
    | verifying q' call =>
      cases call with
      | awaiting l => exact fate_receipt h hp hf hs
      | done result => cases result <;> cases hs
    | probing | connecting | renewing | answered => cases hs
  | registered outcome =>
    rw [hidle nofun, if_neg Bool.false_ne_true, List.append_nil]
    cases phase with
    | connecting q' minutes payer =>
      cases hs
      exact fate_registered h nofun (connectRegistered_handled minutes payer outcome)
    | renewing q' session minutes =>
      cases hs
      exact fate_registered h nofun (renewRegistered_handled session outcome)
    | verifying q' call => exact absurd hs (serve_verifying (fun _ => nofun) nofun)
    | probing | answered => cases hs

theorem fate_step (hchain : chain.WellFormed cfg.verify) (hp : s.requests r = some phase)
    (h : Fate cfg chain spent q phase past) (hf : Faithful chain q.listed spent r s i)
    (hs : step cfg s i = some s') :
    ∃ phase', s'.requests r = some phase' ∧
      Fate cfg chain spent q phase' (past ++ if runsHandler r s i then [i] else []) := by
  rcases step_phase hp hs with ⟨hne, hp'⟩ | ⟨e, out, rfl, hserve, hp'⟩
  · have hruns : runsHandler r s i = false := by
      unfold runsHandler
      split
      · rename_i r' 
        have hr : r' ≠ r := by
          rintro rfl
          exact hne _ rfl
        simp [hr]
      · rfl
    rw [hruns, if_neg Bool.false_ne_true, List.append_nil]
    exact ⟨phase, hp', h⟩
  · exact ⟨out.phase, hp', fate_serve hchain h hp hf hserve⟩

theorem handled_iff_redeems (hchain : chain.WellFormed cfg.verify)
    (hr : s.requests r = some (.probing q))
    (hf : Along (step cfg) (Faithful chain q.listed s.spent r) s is)
    (he : exec (step cfg) s is = some t) (hleft : ¬ t.AtGate r) :
    (handled cfg r s is ≠ [] ∧ ∀ response, t.answer r = some response → response.status ≠ 402) ↔
      q.Redeems cfg chain s.spent := by
  have hfate : ∃ phase, t.requests r = some phase ∧
      Fate cfg chain s.spent q phase ([] ++ handled cfg r s is) :=
    invariant_trace (I := fun s' past => ∃ phase, s'.requests r = some phase ∧
        Fate cfg chain s.spent q phase past) (fun s i => if runsHandler r s i then [i] else []) []
      (fun s i s' past ⟨phase, hp, h⟩ hf hs => fate_step hchain hp h hf hs)
      ⟨_, hr, rfl, rfl⟩ hf he
  obtain ⟨phase, hp, h⟩ := hfate
  rw [List.nil_append] at h
  have hgone : (handled cfg r s is ≠ [] → q.Redeems cfg chain s.spent ∧ phase.Handled) ∧
      (handled cfg r s is = [] → ¬ q.Redeems cfg chain s.spent) := by
    cases phase with
    | probing q' => exact absurd ⟨q', .inl hp⟩ hleft
    | verifying q' call => exact absurd ⟨q', .inr ⟨call, hp⟩⟩ hleft
    | connecting _ _ _ | renewing _ _ _ | answered _ =>
      exact ⟨h.1, fun hnil => (h.2 hnil).1⟩
  constructor
  · rintro ⟨hne, _⟩
    exact (hgone.1 hne).1
  · intro hredeems
    have hne : handled cfg r s is ≠ [] := fun hnil => hgone.2 hnil hredeems
    refine ⟨hne, fun response ha => ?_⟩
    have hphase := hp.symm.trans (answer_some ha)
    obtain rfl := Option.some.inj hphase
    exact (hgone.1 hne).2

/-- The events of a request that takes it out of the gate. -/
def Leaving (cfg : ServerConfig) (chain : Chain) (hashes : List String) (spent : Finset String)
    (r : Nat) (s : Server) : Prop :=
  ∃ is t, Along (step cfg) (Faithful chain hashes spent r) s is ∧ exec (step cfg) s is = some t ∧
    ¬ t.AtGate r

theorem Leaving.cons (h : Leaving cfg chain hashes spent r s')
    (hf : Faithful chain hashes spent r s i) (hs : step cfg s i = some s') :
    Leaving cfg chain hashes spent r s := by
  obtain ⟨is, t, hc, he, hleft⟩ := h
  exact ⟨i :: is, t, hc.cons hf hs, (exec_cons_some _).mpr ⟨s', hs, he⟩, hleft⟩

theorem leaving_of_phase (phase : Phase) (hp : s.requests r = some phase)
    (h : ∀ q call, phase ≠ .probing q ∧ phase ≠ .verifying q call) :
    Leaving cfg chain hashes spent r s := by
  refine ⟨[], s, trivial, rfl, ?_⟩
  rintro ⟨q, hq | ⟨call, hq⟩⟩
  · exact (h q (.done (.ok noHash))).1 (Option.some.inj (hp.symm.trans hq))
  · exact (h q call).2 (Option.some.inj (hp.symm.trans hq))

theorem step_event (hp : s.requests r = some phase)
    (hs : serve cfg s.now s.spent s.store phase e = some out) :
    step cfg s (.event r e) = some { s with
      spent := out.spent
      store := out.store
      requests := Function.update s.requests r (some out.phase) } := by
  simp [step, move, hp, hs]

theorem handled_leaves (h : Phase.Handled phase) (q : Gated) (call : VerifyCall) :
    phase ≠ .probing q ∧ phase ≠ .verifying q call := by
  constructor
  · rintro rfl
    exact h
  · rintro rfl
    exact h

theorem verified_leaves (result : Except String VerifyResult)
    (hp : s.requests r = some (.verifying q (.done result))) :
    Leaving cfg chain hashes spent r s := by
  have hf : Faithful chain hashes spent r s (.event r .verified) := by simp [Faithful, hp]
  cases result with
  | error message =>
    refine (leaving_of_phase (.answered internalError) ?_ (by simp)).cons hf
      (step_event hp rfl)
    exact Function.update_self ..
  | ok v =>
    cases hok : v.ok with
    | false =>
      refine (leaving_of_phase (.answered (.paymentInvalid v.reason)) ?_ (by simp)).cons hf
        (step_event hp (by simp only [serve, hok, if_true]; rfl))
      exact Function.update_self ..
    | true =>
      obtain ⟨out, hout⟩ : ∃ out, serve cfg s.now s.spent s.store
          (.verifying q (.done (.ok v))) .verified = some out := by
        simp only [serve, hok, Bool.true_eq_false, if_false]
        split
        · split <;> exact ⟨_, rfl⟩
        · exact ⟨_, rfl⟩
      refine (leaving_of_phase out.phase ?_
        (handled_leaves (verified_handled hok hout))).cons hf (step_event hp hout)
      exact Function.update_self ..

theorem resume_rest {l l' : Lookup} {vcfg : VerifyConfig}
    (h : (l.resume vcfg spent receipt).2 = .awaiting l') :
    (l.resume vcfg spent receipt).1 = spent ∧ l.rest = l'.hash :: l'.rest := by
  unfold Lookup.resume at h ⊢
  cases htransfer : l.transfer vcfg receipt with
  | error e =>
    rw [htransfer] at h
    cases h
  | ok value =>
    cases value with
    | some value =>
      rw [htransfer] at h
      cases h
    | none =>
      simp only [htransfer] at h ⊢
      refine ⟨trivial, ?_⟩
      cases hrest : l.rest with
      | nil =>
        rw [hrest] at h
        cases h
      | cons g rest =>
        rw [hrest, nextHash] at h
        split at h
        · cases h
        · cases h
          rfl

theorem faithful_receipt {l : Lookup} (hp : s.requests r = some (.verifying q (.awaiting l)))
    (hspent : s.spent = spent) :
    Faithful chain hashes spent r s (.event r (.receipt (chain l.hash))) := by
  simp [Faithful, hp, hspent]

/-- The last receipt a request waits for ends its verification. -/
theorem done_leaves {l : Lookup} (hp : s.requests r = some (.verifying q (.awaiting l)))
    (hspent : s.spent = spent)
    (hres : (l.resume cfg.verify s.spent (chain l.hash)).2 = .done result) :
    Leaving cfg chain hashes spent r s := by
  refine (verified_leaves (q := q) result ?_).cons (faithful_receipt hp hspent) (step_event hp rfl)
  rw [← hres]
  exact Function.update_self ..

theorem awaiting_leaves (rest : List String) : ∀ {s : Server} {l : Lookup},
    s.requests r = some (.verifying q (.awaiting l)) → s.spent = spent → l.rest = rest →
      Leaving cfg chain hashes spent r s := by
  induction rest with
  | nil =>
    intro s l hp hspent hrest
    cases hres : (l.resume cfg.verify s.spent (chain l.hash)).2 with
    | awaiting l' =>
      rw [(resume_rest hres).2] at hrest
      cases hrest
    | done result => exact done_leaves hp hspent hres
  | cons g rest ih =>
    intro s l hp hspent hrest
    cases hres : (l.resume cfg.verify s.spent (chain l.hash)).2 with
    | awaiting l' =>
      obtain ⟨hsame, hrest'⟩ := resume_rest hres
      refine (ih (l := l') ?_ (hsame.trans hspent) ?_).cons (faithful_receipt hp hspent)
        (step_event hp rfl)
      · rw [← hres]
        exact Function.update_self ..
      · exact (List.cons.inj (hrest'.symm.trans hrest)).2
    | done result => exact done_leaves hp hspent hres

theorem probing_leaves (cfg : ServerConfig) (chain : Chain) (hashes : List String)
    (hr : s.requests r = some (.probing q)) : Leaving cfg chain hashes s.spent r s := by
  have hf : Faithful chain hashes s.spent r s (.event r (.probed (.ok ()))) := by
    simp [Faithful, hr]
  cases hreq : requirePayment cfg s.spent q with
  | error response =>
    refine (leaving_of_phase (.answered response) ?_ (by simp)).cons hf
      (step_event hr (by simp only [serve, hreq]; rfl))
    exact Function.update_self ..
  | ok call =>
    refine Leaving.cons ?_ hf (step_event hr (by simp only [serve, hreq]; rfl))
    cases call with
    | awaiting l => exact awaiting_leaves l.rest (Function.update_self ..) rfl rfl
    | done result => exact verified_leaves result (Function.update_self ..)

/-- A retry that has passed the first checks and finds the backend there gets
out of the gate; it does so to its handler, and is not answered 402, exactly
when it has a `transactionId` besides the hashes of a settled payment in its
header. -/
theorem handled_iff (hchain : chain.WellFormed cfg.verify)
    (hr : s.requests r = some (.probing q)) :
    (∃ is t, Along (step cfg) (Faithful chain q.listed s.spent r) s is ∧
      exec (step cfg) s is = some t ∧ ¬ t.AtGate r) ∧
    ∀ is t, Along (step cfg) (Faithful chain q.listed s.spent r) s is →
      exec (step cfg) s is = some t → ¬ t.AtGate r →
        ((handled cfg r s is ≠ [] ∧
            ∀ response, t.answer r = some response → response.status ≠ 402) ↔
          q.Redeems cfg chain s.spent) :=
  ⟨probing_leaves cfg chain q.listed hr,
    fun _ _ hf he hleft => handled_iff_redeems hchain hr hf he hleft⟩

def sampleSettled : Chain := fun hash => if hash = sampleHash then some sampleReceipt else none

theorem sampleSettled_wellFormed : sampleSettled.WellFormed sampleServerConfig.verify := by
  have hvalue : bigInt "0x00000000000000000000000000000000000000000000000000000000000f4240" =
      some 1000000 := by decide +kernel
  have haddress : sampleVerifyConfig.getAddress "0xaf88d065e77c8cc2239327c5edb3a432268e5831" =
      some sampleUsdc := rfl
  intro l e
  unfold sampleSettled
  split
  · simp only [Lookup.transfer, sampleReceipt, scanLogs, sampleServerConfig, haddress, hvalue]
    repeat' split
    all_goals simp
  · intro h
    cases h

theorem sampleHash_settles : Settles sampleVerifyConfig sampleSettled ∅ 100000
    "0x0000000000000000000000005aaeb6053f3e94c9b9a09f33669435e7ef1beaed" [sampleHash] := by
  refine ⟨[], sampleHash, [], 1000000, rfl, ?_, ?_⟩
  · rintro g _ ⟨⟩
  · rw [sampleSettled, if_pos rfl]
    exact sampleLookup_transfer sampleHash

/-- A request for five minutes that has passed the first checks. -/
def sampleRetry (proof : Proof) : Gated where
  route := .connect
  body := sampleBody
  proof := some proof
  wgKey := sampleKey
  minutes := 5

def presented (proof : Proof) : Server :=
  { init 0 with
    requests := Function.update (fun _ => none) 0 (some (.probing (sampleRetry proof))) }

theorem presented_reached (proof : Proof) :
    exec (step sampleServerConfig) (init 0) [.request 0 .connect sampleBody (some proof)] =
      some (presented proof) := rfl

theorem sampleRetry_priced (proof : Proof) :
    (amountUsd (sampleRetry proof).minutes sampleServerConfig.pricing).bind
        sampleServerConfig.verify.parseUnits = some 100000 ∧
      toTopic sampleServerConfig.verify sampleServerConfig.payee =
        some "0x0000000000000000000000005aaeb6053f3e94c9b9a09f33669435e7ef1beaed" := by
  have hunits : (amountUsd 5 sampleServerConfig.pricing).bind
      sampleServerConfig.verify.parseUnits = some 100000 := by decide +kernel
  exact ⟨hunits, by decide +kernel⟩

theorem handled_iff_sample : ∃ is t,
    exec (step sampleServerConfig) (presented (sampleProof sampleHash)) is = some t ∧
      handled sampleServerConfig 0 (presented (sampleProof sampleHash)) is ≠ [] ∧
      ∀ response, t.answer 0 = some response → response.status ≠ 402 := by
  have hr : (presented (sampleProof sampleHash)).requests 0 =
      some (.probing (sampleRetry (sampleProof sampleHash))) := rfl
  obtain ⟨⟨is, t, hf, he, hleft⟩, hall⟩ := handled_iff sampleSettled_wellFormed hr
  obtain ⟨hunits, htopic⟩ := sampleRetry_priced (sampleProof sampleHash)
  refine ⟨is, t, he, (hall is t hf he hleft).mpr ?_⟩
  exact ⟨_, _, _, _, rfl, rfl, rfl, rfl, hunits, htopic, sampleHash_settles⟩

/-- The header of the documentation: scheme, hashes and payer. -/
def documentedProof : Proof where
  transactionId := .undefined
  payerAddress := .string "0xC954000000000000000000000000000000002FBC"
  txHashes := .hashes [sampleHash]

/-- A paid retry in the documented form is asked to pay again. -/
theorem documented_refused :
    exec (step sampleServerConfig) (init 0)
        [.request 0 .connect sampleBody (some documentedProof)] =
        some (presented documentedProof) ∧
      (amountUsd (sampleRetry documentedProof).minutes sampleServerConfig.pricing).bind
        sampleServerConfig.verify.parseUnits = some 100000 ∧
      toTopic sampleServerConfig.verify sampleServerConfig.payee =
        some "0x0000000000000000000000005aaeb6053f3e94c9b9a09f33669435e7ef1beaed" ∧
      Settles sampleServerConfig.verify sampleSettled (presented documentedProof).spent 100000
        "0x0000000000000000000000005aaeb6053f3e94c9b9a09f33669435e7ef1beaed"
        (sampleRetry documentedProof).listed ∧
      ∃ t, exec (step sampleServerConfig) (presented documentedProof)
          [.event 0 (.probed (.ok ()))] = some t ∧
        t.answer 0 = some (.paymentRequired .connect (toDouble (1 / 10)) 5) := by
  obtain ⟨hunits, htopic⟩ := sampleRetry_priced documentedProof
  have hamount : amountUsd 5 sampleServerConfig.pricing = toDouble (1 / 10) := by decide +kernel
  refine ⟨presented_reached documentedProof, hunits, htopic, sampleHash_settles, _, rfl, ?_⟩
  rw [← hamount]
  rfl

end Server

end Xelt.VpnServer
