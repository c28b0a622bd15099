import Xelt.VpnServer.Turns

/-!
# The log of the requests

What a request has shown so far follows from its phase. A property of what
every request shows is therefore a condition on the turns of the requests.
-/

namespace Xelt.VpnServer

open Runs Tagged

/-- The effect changes the spent set or the session store. -/
def Effect.Changes : Effect → Prop
  | .spent _ | .granted .. | .dropped _ => True
  | .priced _ | .answered _ => False

/-- What a request has shown, by the phase it is in. -/
inductive Ledger : Option Phase → List Effect → Prop
  | absent : Ledger none []
  | probing : Ledger (some (.probing q)) []
  | verifying (hc : ¬ call.Credited) : Ledger (some (.verifying q call)) [.priced q.minutes]
  | verified (hc : call.Credited) :
    Ledger (some (.verifying q call)) [.priced q.minutes, .spent txHash]
  | connecting :
    Ledger (some (.connecting q minutes payer)) [.priced q.minutes, .spent txHash]
  | renewing :
    Ledger (some (.renewing q ref minutes))
      [.priced q.minutes, .spent txHash, .granted q.wgKey minutes]
  | answered (before : List Effect) (hb : ∀ status, .answered status ∉ before)
      (hw : (∀ hash, .spent hash ∉ before) → ∀ e ∈ before, ¬ e.Changes) :
    Ledger (some (.answered response)) (before ++ [.answered response.status])

theorem Ledger.unchanged (h : Ledger (some (.answered response)) effs)
    (hn : ∀ hash, .spent hash ∉ effs) : ∀ e ∈ effs, ¬ e.Changes := by
  cases h with
  | answered before hb hw =>
    intro e he
    rcases List.mem_append.mp he with he | he
    · exact hw (fun hash hmem => hn hash (List.mem_append_left _ hmem)) e he
    · rw [List.mem_singleton.mp he]
      simp [Effect.Changes]

theorem Turn.ledger (h : Turn now spent store phase e out) (hl : Ledger (some phase) effs) :
    Ledger (some out.phase) (effs ++ out.effects) := by
  cases h with
  | declined hs =>
    cases hl
    exact .answered [] (by simp) (by simp)
  | priced hc =>
    cases hl
    exact .verifying hc
  | passed hc =>
    cases hl with
    | verifying => exact .verifying hc
    | verified hl => simp [VerifyCall.Credited] at hl
  | paid hc =>
    cases hl with
    | verifying => exact .verified hc
    | verified hl => simp [VerifyCall.Credited] at hl
  | invalid hc hs =>
    cases hl with
    | verifying => exact .answered [_] (by simp) (by simp [Effect.Changes])
    | verified hl => exact absurd hl hc
  | stopped hc hr hs =>
    cases hl with
    | verifying hl => exact absurd hc hl
    | verified => exact .answered [_, _] (by simp) (by simp)
  | dropped hc hr ha hs =>
    cases hl with
    | verifying hl => exact absurd hc hl
    | verified => exact .answered [_, _, _] (by simp) (by simp)
  | connecting hc hr hroute =>
    cases hl with
    | verifying hl => exact absurd hc hl
    | verified => exact .connecting
  | renewing hc hr hroute hget hobj ha =>
    cases hl with
    | verifying hl => exact absurd hc hl
    | verified => exact .renewing
  | unconnected hl' hs =>
    cases hl
    exact .answered [_, _] (by simp) (by simp)
  | connected ha hs =>
    cases hl
    exact .answered [_, _, _] (by simp) (by simp)
  | renewed hs =>
    cases hl
    exact .answered [_, _, _] (by simp) (by simp)

theorem serve_of_credited (hc : call.Credited) :
    ∃ out, serve cfg now spent store (.verifying q call) .verified = some out := by
  match call, hc with
  | .done (.ok v), _ =>
    simp only [serve]
    split
    · exact ⟨_, rfl⟩
    · split
      · split <;> exact ⟨_, rfl⟩
      · exact ⟨_, rfl⟩

namespace Server

variable {cfg : ServerConfig}

/-- `C` holds of the request that an event concerns. -/
def AtEvent (C : Int → SessionStore → Phase → Event → Prop) (s : Server) : Input → Prop
  | .event r e => ∀ phase, s.requests r = some phase → C s.now s.store phase e
  | _ => True

theorem effects_none {s : Server} (h : step cfg s i = none) : effects cfg s i = [] := by
  cases hm : s.move cfg i with
  | none => simp [effects, hm]
  | some out => simp [step, hm] at h

/-- The log of all requests agrees with their phases. -/
structure Logged (cfg : ServerConfig) (s : Server) (log : List (Nat × Effect)) : Prop where
  sound : s.Sound cfg
  ledger : ∀ r, Ledger (s.requests r) (select r log)

theorem init_logged (cfg : ServerConfig) (start : Int) : Logged cfg (init start) [] :=
  ⟨init_sound cfg start, fun _ => .absent⟩

theorem step_logged (hl : Logged cfg s log) (h : step cfg s i = some s') :
    Logged cfg s' (log ++ effects cfg s i) := by
  refine ⟨step_sound hl.sound h, fun r => ?_⟩
  rw [select_append]
  have hstep := step_request hl.sound h r
  have hold := hl.ledger r
  generalize s'.requests r = after at hstep
  generalize select r (effects cfg s i) = effs at hstep
  generalize select r log = past at hold
  cases hstep with
  | idle hi => rwa [List.append_nil]
  | refused hn hs =>
    rw [hn] at hold
    cases hold
    exact .answered [] (by simp) (by simp)
  | arrived hn hq =>
    rw [hn] at hold
    cases hold
    exact .probing
  | turned hp ht =>
    rw [hp] at hold
    exact ht.ledger hold

theorem run_logged {start : Int} (h : exec (step cfg) (init start) is = some s) :
    Logged cfg s (trace (step cfg) (effects cfg) (init start) is) := by
  have hrun := invariant_trace (C := fun _ _ => True) (I := Logged cfg) (effects cfg) []
    (fun s i s' past hl _ hs => step_logged hl hs) (init_logged cfg start)
    (along_iff_at.mpr fun _ _ _ _ _ _ => trivial) h
  simpa using hrun

theorem answered_silent {s : Server} (hs : s.Sound cfg)
    (h : s.requests r = some (.answered response)) :
    select r (trace (step cfg) (effects cfg) s is) = [] := by
  induction is generalizing s with
  | nil => rfl
  | cons i is ih =>
    cases hst : step cfg s i with
    | none => rw [trace_cons_none hst, effects_none hst, select_nil]
    | some s' =>
      rw [trace_cons_some hst, select_append]
      have hstep := step_request hs hst r
      generalize hafter : s'.requests r = after at hstep
      generalize select r (effects cfg s i) = effs at hstep
      cases hstep with
      | idle hi => rw [ih (step_sound hs hst) (hafter.trans h), List.append_nil]
      | refused hn | arrived hn => simp [h] at hn
      | turned hp ht =>
        rw [h] at hp
        cases hp
        cases ht

section
variable {Q : List Effect → Prop} {C : Int → SessionStore → Phase → Event → Prop}

theorem step_requests_iff {s : Server}
    (hrefused : ∀ status, status ≠ 200 → Q [.answered status])
    (hturn : ∀ now spent store phase e out effs, Turn now spent store phase e out →
      phase.Sound cfg store → Ledger (some phase) effs → Q effs →
      (Q (effs ++ out.effects) ↔ C now store phase e))
    (hserved : ∀ now spent store phase e, ¬ C now store phase e →
      ∃ out, serve cfg now spent store phase e = some out)
    (hl : Logged cfg s log) (hp : ∀ r, Q (select r log)) :
    (∀ r, Q (select r (log ++ effects cfg s i))) ↔ AtEvent C s i := by
  cases hst : step cfg s i with
  | none =>
    rw [effects_none hst, List.append_nil]
    refine iff_of_true hp ?_
    cases i with
    | event r e =>
      intro phase hphase
      by_contra hc
      obtain ⟨out, hout⟩ := hserved _ s.spent _ _ _ hc
      simp [step, move, hphase, hout] at hst
    | elapse ms | request r route body proof | clear body | tick t | unregistered t outcome =>
      trivial
  | some s' =>
    have hstep := fun r => step_request hl.sound hst r
    simp only [select_append]
    constructor
    · intro hall
      cases i with
      | event r e =>
        intro phase hphase
        have hstep := hstep r
        have hq := hall r
        have hledger := hl.ledger r
        have hpast := hp r
        generalize s'.requests r = after at hstep
        generalize select r (effects cfg s (.event r e)) = effs at hstep hq
        cases hstep with
        | idle hi => exact absurd rfl (hi e)
        | turned hphase' ht =>
          cases hphase.symm.trans hphase'
          rw [hphase] at hledger
          exact (hturn _ _ _ _ _ _ _ ht (hl.sound.requests r _ hphase) hledger hpast).mp hq
      | elapse ms | request r route body proof | clear body | tick t | unregistered t outcome =>
        trivial
    · intro hc r
      have hstep := hstep r
      have hledger := hl.ledger r
      have hpast := hp r
      generalize s'.requests r = after at hstep
      generalize select r (effects cfg s i) = effs at hstep
      generalize select r log = past at *
      cases hstep with
      | idle hi => rwa [List.append_nil]
      | refused hn hs =>
        rw [hn] at hledger
        cases hledger
        exact hrefused _ hs
      | arrived hn hq => rwa [List.append_nil]
      | turned hphase ht =>
        rw [hphase] at hledger
        exact (hturn _ _ _ _ _ _ _ ht (hl.sound.requests r _ hphase) hledger hpast).mpr
          (hc _ hphase)

theorem requests_iff (cfg : ServerConfig) (start : Int) (is : List Input) (hnil : Q [])
    (hearlier : ∀ phase effs more, Ledger phase effs →
      (∀ response, phase = some (.answered response) → more = []) → Q (effs ++ more) → Q effs)
    (hrefused : ∀ status, status ≠ 200 → Q [.answered status])
    (hturn : ∀ now spent store phase e out effs, Turn now spent store phase e out →
      phase.Sound cfg store → Ledger (some phase) effs → Q effs →
      (Q (effs ++ out.effects) ↔ C now store phase e))
    (hserved : ∀ now spent store phase e, ¬ C now store phase e →
      ∃ out, serve cfg now spent store phase e = some out) :
    (∀ r, Q (select r (trace (step cfg) (effects cfg) (init start) is))) ↔
      Along (step cfg) (AtEvent C) (init start) is := by
  refine trace_iff_along (P := fun log => ∀ r, Q (select r log)) (I := Logged cfg) [] ?_
    (fun s i s' past hl hs => step_logged hl hs)
    (fun s i past hl hp => step_requests_iff hrefused hturn hserved hl hp)
    (init_logged cfg start) (fun _ => hnil)
  intro s past is hl hall r
  refine hearlier _ _ _ (hl.ledger r) (fun response hr => ?_) (by simpa using hall r)
  exact answered_silent hl.sound hr

end

end Server

end Xelt.VpnServer
