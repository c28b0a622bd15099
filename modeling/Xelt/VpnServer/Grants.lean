import Xelt.VpnServer.Ledger

/-!
# Payments and grants

The gate spends the settlement hash before the handler runs. What a request
shows in the end, a payment with a grant and a 200 or neither, depends on
whether the handler lands.
-/

namespace Xelt.VpnServer

open Runs Tagged

/-- A request that has answered has spent a hash exactly if it has granted
minutes and answered 200. -/
def Settled (effs : List Effect) : Prop :=
  ∀ status, .answered status ∈ effs →
    ((∃ hash, .spent hash ∈ effs) ↔
      (∃ key minutes, .granted key minutes ∈ effs) ∧ status = 200)

theorem Ledger.settled (h : Ledger phase effs)
    (hp : ∀ response, phase ≠ some (.answered response)) :
    Settled effs := by
  cases h with
  | answered before hb hw => exact absurd rfl (hp _)
  | absent | probing | verifying | verified | connecting | renewing => simp [Settled]

theorem Ledger.settled_iff (h : Ledger (some (.answered response)) effs) :
    Settled effs ↔ ((∃ hash, .spent hash ∈ effs) ↔
      (∃ key minutes, .granted key minutes ∈ effs) ∧ response.status = 200) := by
  cases h with
  | answered before hb hw =>
    constructor
    · intro hs
      exact hs response.status (by simp)
    · intro hs status hmem
      have hstatus : status = response.status := by simpa [hb] using hmem
      rwa [hstatus]

theorem Turn.settled (h : Turn now spent store phase e out) (hl : Ledger (some phase) effs) :
    Settled (effs ++ out.effects) ↔ Lands now store phase e := by
  cases h with
  | declined hs =>
    cases hl
    simp [Settled, Lands]
  | priced hc =>
    cases hl
    simp [Settled, Lands]
  | passed hc | paid hc => cases hl <;> simp [Settled, Lands]
  | invalid hc hs =>
    cases hl with
    | verifying => simp [Settled, Lands, hc]
    | verified hl => exact absurd hl hc
  | stopped hc hr hs =>
    cases hl with
    | verifying hl => exact absurd hc hl
    | verified => simp [Settled, Lands, hc, hr]
  | dropped hc hr ha hs =>
    cases hl with
    | verifying hl => exact absurd hc hl
    | verified => simp [Settled, Lands, hc, hr]
  | connecting hc hr hroute => cases hl <;> simp [Settled, Lands, hr]
  | renewing hc hr hroute hget hobj ha => cases hl <;> simp [Settled, Lands, hr]
  | unconnected hl' hs =>
    cases hl
    simp only [hl', iff_false]
    simp [Settled]
  | connected ha hs =>
    cases hl
    rw [← hs]
    simp [Settled]
  | renewed hs =>
    cases hl
    rw [← hs]
    simp [Settled]

theorem Turn.frame (h : Turn now spent store phase e out)
    (hn : ∀ x ∈ out.effects, ¬ x.Changes) : out.spent = spent ∧ out.store = store := by
  cases h with
  | declined | priced | passed | invalid | stopped | connecting | unconnected | renewed =>
    exact ⟨rfl, rfl⟩
  | paid | dropped | renewing | connected => simp [Effect.Changes] at hn

theorem serve_of_not_lands (h : ¬ Lands now store phase e) :
    ∃ out, serve cfg now spent store phase e = some out := by
  unfold Lands at h
  split at h
  · exact serve_of_credited (Classical.not_imp.mp h).1
  · exact ⟨_, rfl⟩
  · exact ⟨_, rfl⟩
  · exact absurd trivial h

namespace Server

variable {cfg : ServerConfig}

/-- What the step does to a request that has paid lets it land. -/
def PaidLands : Server → Input → Prop := AtEvent Lands

/-- A step of the request leaves the spent set and the store as they were. -/
def Leaves (cfg : ServerConfig) (r : Nat) (s : Server) (i : Input) : Prop :=
  i.owner = some r → ∀ s', step cfg s i = some s' → s'.spent = s.spent ∧ s'.store = s.store

theorem settled_iff (cfg : ServerConfig) (start : Int) (is : List Input) :
    (∀ r, Settled (select r (trace (step cfg) (effects cfg) (init start) is))) ↔
      Along (step cfg) PaidLands (init start) is := by
  refine requests_iff cfg start is (by simp [Settled]) ?_ (by simp [Settled])
    (fun _ _ _ _ _ _ _ ht _ hl _ => ht.settled hl) (fun _ _ _ _ _ hc => serve_of_not_lands hc)
  intro phase effs more hl hmore hset
  by_cases ha : ∃ response, phase = some (.answered response)
  · obtain ⟨response, ha⟩ := ha
    rwa [hmore response ha, List.append_nil] at hset
  · exact hl.settled fun response hr => ha ⟨response, hr⟩

theorem leaves_of_effects {s : Server} (hs : s.Sound cfg)
    (hn : ∀ x ∈ effects cfg s i, x.1 = r → ¬ x.2.Changes) : Leaves cfg r s i := by
  intro howner s' hst
  obtain ⟨effs, hmove⟩ := step_iff.mp hst
  cases i with
  | event r' e =>
    cases howner
    obtain ⟨phase, out, hphase, hserve, rfl, rfl⟩ := move_event.mp hmove
    have hturn := serve_turn (hs.requests r phase hphase) hs.store hserve
    refine hturn.frame fun x hx => hn (r, x) ?_ rfl
    simpa [effects, hmove] using hx
  | request r' route body proof =>
    obtain ⟨-, phase, rfl, -⟩ := move_request hmove
    exact ⟨rfl, rfl⟩
  | elapse ms | clear body | tick t | unregistered t outcome => cases howner

/-- What is promised of a request that has answered: its hash was spent
exactly if it was granted minutes and got a 200, and any other answer leaves
the spent set and the session store as they were. -/
structure Fair (cfg : ServerConfig) (start : Int) (is : List Input) (r status : Nat) : Prop where
  paired : (∃ hash, (r, .spent hash) ∈ trace (step cfg) (effects cfg) (init start) is) ↔
    (∃ key minutes, (r, .granted key minutes) ∈
      trace (step cfg) (effects cfg) (init start) is) ∧ status = 200
  unchanged : status ≠ 200 → Along (step cfg) (Leaves cfg r) (init start) is

/-- In a run of the server every answered request is treated fairly, exactly
when every request that has paid lands. -/
theorem fair_iff (cfg : ServerConfig) (start : Int) (is : List Input)
    (h : exec (step cfg) (init start) is = some s) :
    (∀ r response, s.requests r = some (.answered response) →
        Fair cfg start is r response.status) ↔
      Along (step cfg) PaidLands (init start) is := by
  have hlog := run_logged h
  rw [← settled_iff]
  constructor
  · intro hfair r
    by_cases ha : ∃ response, s.requests r = some (.answered response)
    · obtain ⟨response, ha⟩ := ha
      have hledger := hlog.ledger r
      rw [ha] at hledger
      rw [hledger.settled_iff]
      simpa only [mem_select] using (hfair r response ha).paired
    · exact (hlog.ledger r).settled fun response hr => ha ⟨response, hr⟩
  · intro hset r response ha
    have hledger := hlog.ledger r
    rw [ha] at hledger
    have hpaired := hledger.settled_iff.mp (hset r)
    refine ⟨by simpa only [mem_select] using hpaired, fun hstatus => ?_⟩
    have hno : ∀ x ∈ trace (step cfg) (effects cfg) (init start) is,
        x.1 = r → ¬ x.2.Changes := by
      rintro ⟨r', e⟩ hx rfl
      exact hledger.unchanged (fun hash hmem => hstatus (hpaired.mp ⟨hash, hmem⟩).2) e
        (mem_select.mpr hx)
    exact Along.mono (I := Sound cfg) (fun s i s' hs _ hst => step_sound hs hst)
      (fun s i hs hn => leaves_of_effects hs hn) (init_sound cfg start) (forall_trace.mp hno)

/-- A request pays, then boringtun refuses its peer. -/
def sampleRefused : List Input :=
  sampleOpened 0 .connect sampleBody sampleHash ++ sampleVerified 0 ++
    [.event 0 (.registered (.error "boringtun register failed (429): "))]

theorem sampleRefused_trace :
    trace (step sampleServerConfig) (effects sampleServerConfig) (init 0) sampleRefused =
      [(0, .priced 5), (0, .spent sampleHash), (0, .answered 400)] := by decide +kernel

theorem sampleRefused_exec :
    ∃ s response, exec (step sampleServerConfig) (init 0) sampleRefused = some s ∧
      s.requests 0 = some (.answered response) ∧ response.status = 400 := by
  have h : ((exec (step sampleServerConfig) (init 0) sampleRefused).bind fun s =>
      (s.answer 0).map (·.status)) = some 400 := by decide +kernel
  obtain ⟨s, hs, hr⟩ := Option.bind_eq_some_iff.mp h
  obtain ⟨response, hr, hstatus⟩ := Option.map_eq_some_iff.mp hr
  exact ⟨s, response, hs, answer_some hr, hstatus⟩

/-- The payment is gone, and there is no session. -/
theorem paid_for_nothing :
    ¬ ∀ s, exec (step sampleServerConfig) (init 0) sampleRefused = some s →
      ∀ r response, s.requests r = some (.answered response) →
        Fair sampleServerConfig 0 sampleRefused r response.status := by
  intro h
  obtain ⟨s, response, hs, hr, hstatus⟩ := sampleRefused_exec
  have hpaired := (h s hs 0 response hr).paired
  simp [sampleRefused_trace, hstatus] at hpaired

theorem fair_sample :
    ∃ s, exec (step sampleServerConfig) (init 0) sampleRefused = some s ∧
      ((∀ r response, s.requests r = some (.answered response) →
          Fair sampleServerConfig 0 sampleRefused r response.status) ↔
        Along (step sampleServerConfig) PaidLands (init 0) sampleRefused) := by
  obtain ⟨s, -, hs, -⟩ := sampleRefused_exec
  exact ⟨s, hs, fair_iff sampleServerConfig 0 sampleRefused hs⟩

end Server

end Xelt.VpnServer
