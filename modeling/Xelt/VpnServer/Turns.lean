import Xelt.Lib.Tagged
import Xelt.VpnServer.Requests

/-!
# What a request can come to

Every fact about the runs of the server reads a step of a request as one
turn of it: the phase it leaves, the phase it enters and what is seen of it.
The reading rests on what the gate has established of the request.
-/

namespace Xelt.VpnServer

open Runs Tagged

-- ---------------------------------------------------------------------------
-- What the gate has established
-- ---------------------------------------------------------------------------

/-- The minutes of the gate are the length the body asks for. -/
structure Priced (cfg : ServerConfig) (q : Gated) : Prop where
  fits : cfg.pricing.Fits q.minutes
  given : ¬ q.body.durationMinutes.Nullish ∨ q.route = .connect →
    ∀ fallback, (q.route = .connect → fallback = none) →
      resolveDurationMinutes q.body.durationMinutes cfg.pricing fallback = .ok q.minutes

/-- Every session has a length within the bounds. -/
def SessionStore.Fitting (cfg : ServerConfig) (store : SessionStore) : Prop :=
  ∀ session ∈ store.objects, cfg.pricing.Fits session.durationMinutes

def Phase.Sound (cfg : ServerConfig) (store : SessionStore) : Phase → Prop
  | .probing q | .verifying q _ => Priced cfg q
  | .connecting q durationMinutes _ =>
    Priced cfg q ∧ q.route = .connect ∧ durationMinutes = q.minutes
  | .renewing _ session _ => session < store.objects.length
  | .answered _ => True

theorem paymentGate_ok (h : paymentGate cfg now store route body proof = .ok q) :
    ∃ wgKey, q.route = route ∧ q.body = body ∧
      resolveDurationMinutes body.durationMinutes cfg.pricing
        (fallbackMinutes now store route wgKey) = .ok q.minutes := by
  unfold paymentGate at h
  split at h
  · cases h
  · cases h
  · cases h
  · rename_i wgKey _ _
    split at h
    · cases h
    · rename_i minutes hm
      split at h
      · cases h
      · cases h
      · cases h
        exact ⟨wgKey, rfl, rfl, hm⟩

theorem paymentGate_priced (h : paymentGate cfg now store route body proof = .ok q) :
    Priced cfg q := by
  obtain ⟨wgKey, rfl, rfl, hm⟩ := paymentGate_ok h
  refine ⟨resolve_fits hm, fun hg fallback hf => ?_⟩
  cases hroute : q.route with
  | connect =>
    rw [hf hroute]
    simpa [hroute, fallbackMinutes] using hm
  | renew =>
    rcases hg with hg | hg
    · exact (resolve_given hg).trans hm
    · cases hroute.symm.trans hg

theorem paymentGate_status (h : paymentGate cfg now store route body proof = .error response) :
    response.status ≠ 200 := by
  unfold paymentGate at h
  split at h
  · cases h
    simp [internalError, Response.status]
  · cases h
    simp [Response.status]
  · cases h
    simp [Response.status]
  · split at h
    · cases h
      simp [Response.status]
    · split at h
      · cases h
        simp [Response.status]
      · cases h
        simp [Response.status]
      · cases h

-- ---------------------------------------------------------------------------
-- Turns
-- ---------------------------------------------------------------------------

/-- The handler of a verified request reaches its call of boringtun. -/
def Gated.Runs (now : Int) (store : SessionStore) (q : Gated) : Prop :=
  match q.route with
  | .connect => ∃ payer, q.payer = .ok payer
  | .renew => store.Active now q.wgKey

/-- The minutes the renew handler adds to a session. -/
def Gated.renewedMinutes (q : Gated) (session : VpnSession) : Int :=
  if q.body.durationMinutes.Nullish then session.durationMinutes else q.minutes

/-- What stands between a paid request and its grant does not fail it here:
its handler runs, boringtun registers the peer, no other request has opened a
session for the key, and the end of the session is a date. -/
def Lands (now : Int) (store : SessionStore) : Phase → Event → Prop
  | .verifying q call, .verified => call.Credited → q.Runs now store
  | .connecting q durationMinutes _, .registered outcome =>
    (∃ boringtun, outcome = .ok boringtun) ∧ ¬ store.Active now q.wgKey ∧
      ValidDate (now + durationMinutes * 60 * 1000)
  | .renewing _ session _, .registered outcome =>
    (∃ boringtun, outcome = .ok boringtun) ∧
      ∀ object ∈ store.objects[session]?, ValidDate object.expiresAt
  | _, _ => True

/-- A turn of a request. -/
inductive Turn (now : Int) (spent : Finset String) (store : SessionStore) :
    Phase → Event → Served → Prop
  | declined (hs : response.status ≠ 200) :
    Turn now spent store (.probing q) (.probed health)
      ⟨spent, store, .answered response, [.answered response.status]⟩
  | priced (hc : ¬ call.Credited) :
    Turn now spent store (.probing q) (.probed health)
      ⟨spent, store, .verifying q call, [.priced q.minutes]⟩
  | passed (hc : ¬ call.Credited) :
    Turn now spent store (.verifying q (.awaiting l)) (.receipt receipt)
      ⟨spent, store, .verifying q call, []⟩
  | paid (hc : call.Credited) :
    Turn now spent store (.verifying q (.awaiting l)) (.receipt receipt)
      ⟨insert l.hash spent, store, .verifying q call, [.spent l.hash]⟩
  | invalid (hc : ¬ (VerifyCall.done result).Credited) (hs : response.status ≠ 200) :
    Turn now spent store (.verifying q (.done result)) .verified
      ⟨spent, store, .answered response, [.answered response.status]⟩
  | stopped (hc : (VerifyCall.done result).Credited) (hr : ¬ q.Runs now store)
      (hs : response.status ≠ 200) :
    Turn now spent store (.verifying q (.done result)) .verified
      ⟨spent, store, .answered response, [.answered response.status]⟩
  | dropped (hc : (VerifyCall.done result).Credited) (hr : ¬ q.Runs now store)
      (ha : ¬ store.Active now q.wgKey) (hs : response.status ≠ 200) :
    Turn now spent store (.verifying q (.done result)) .verified
      ⟨spent, store.delete q.wgKey, .answered response,
        [.dropped q.wgKey, .answered response.status]⟩
  | connecting (hc : (VerifyCall.done result).Credited) (hr : q.Runs now store)
      (hroute : q.route = .connect) :
    Turn now spent store (.verifying q (.done result)) .verified
      ⟨spent, store, .connecting q q.minutes payer, []⟩
  | renewing (hc : (VerifyCall.done result).Credited) (hr : q.Runs now store)
      (hroute : q.route = .renew) (hget : store.sessions.get q.wgKey = some ref)
      (hobj : store.objects[ref]? = some session) (ha : now < session.expiresAt) :
    Turn now spent store (.verifying q (.done result)) .verified
      ⟨spent, store.modify ref (q.renewedMinutes session),
        .renewing q ref (q.renewedMinutes session), [.granted q.wgKey (q.renewedMinutes session)]⟩
  | unconnected (hl : ¬ Lands now store (.connecting q minutes payer) (.registered outcome))
      (hs : response.status ≠ 200) :
    Turn now spent store (.connecting q minutes payer) (.registered outcome)
      ⟨spent, store, .answered response, [.answered response.status]⟩
  | connected (ha : ¬ store.Active now q.wgKey)
      (hs : response.status = 200 ↔
        Lands now store (.connecting q minutes payer) (.registered outcome)) :
    Turn now spent store (.connecting q minutes payer) (.registered outcome)
      ⟨spent, store.insert (SessionStore.newSession now q.wgKey minutes boringtun payer),
        .answered response, [.granted q.wgKey minutes, .answered response.status]⟩
  | renewed (hs : response.status = 200 ↔
        Lands now store (.renewing q ref minutes) (.registered outcome)) :
    Turn now spent store (.renewing q ref minutes) (.registered outcome)
      ⟨spent, store, .answered response, [.answered response.status]⟩

variable {cfg : ServerConfig}

theorem requirePayment_status (h : requirePayment cfg spent q = .error response) :
    response.status ≠ 200 := by
  unfold requirePayment at h
  split at h
  · cases h
    simp [internalError, Response.status]
  · dsimp only at h
    split at h
    · cases h
    · cases h
      simp [Response.status]

theorem requirePayment_call (h : requirePayment cfg spent q = .ok call) : ¬ call.Credited := by
  obtain ⟨proof, -, -, rfl⟩ := requirePayment_ok h
  unfold verifyProof
  split
  · split
    · exact verify_not_credited
    · simp [VerifyCall.Credited]
  · simp [VerifyCall.Credited]

theorem connectHandler_eq (hq : Priced cfg q) (hroute : q.route = .connect) :
    connectHandler cfg q = q.payer.map fun payer => (q.minutes, payer) := by
  rw [connectHandler, hq.given (.inr hroute) none fun _ => rfl]
  cases q.payer <;> rfl

theorem resolve_renewed (hq : Priced cfg q) (hroute : q.route = .renew)
    (hfit : cfg.pricing.Fits session.durationMinutes) :
    resolveDurationMinutes q.body.durationMinutes cfg.pricing (some session.durationMinutes) =
      .ok (q.renewedMinutes session) := by
  unfold Gated.renewedMinutes
  split
  · rename_i hn
    exact resolve_stored hn hfit
  · rename_i hn
    exact hq.given (.inl hn) _ fun hc => by cases hroute.symm.trans hc

theorem turn_connectRegistered :
    Turn now spent store (.connecting q minutes payer) (.registered outcome)
      (connectRegistered now spent store q minutes payer outcome) := by
  unfold connectRegistered
  cases outcome with
  | error e => exact .unconnected (by simp [Lands]) (by simp [Response.status])
  | ok boringtun =>
    by_cases ha : store.Active now q.wgKey
    · simp only [SessionStore.createSession_active ha]
      exact .unconnected (by simp [Lands, ha]) (by simp [Response.status])
    · simp only [SessionStore.createSession_ok ha]
      refine .connected ha ?_
      by_cases hd : ValidDate (now + minutes * 60 * 1000)
      · simp [SessionStore.newSession, hd, Lands, ha, Response.status]
      · simp [SessionStore.newSession, hd, Lands, invalidTime, Response.status]

theorem turn_renewRegistered (href : ref < store.objects.length) :
    Turn now spent store (.renewing q ref minutes) (.registered outcome)
      (renewRegistered spent store q ref outcome) := by
  unfold renewRegistered
  cases outcome with
  | error e => exact .renewed (by simp [Lands, Response.status])
  | ok boringtun =>
    have hobj := List.getElem?_eq_getElem href
    simp only [hobj]
    refine .renewed ?_
    by_cases hd : ValidDate store.objects[ref].expiresAt
    · simp [hd, Lands, hobj, Response.status]
    · simp [hd, Lands, hobj, invalidTime, Response.status]

theorem turn_renewHandler (hc : (VerifyCall.done result).Credited) (hq : Priced cfg q)
    (hroute : q.route = .renew) (hstore : store.Fitting cfg) :
    Turn now spent store (.verifying q (.done result)) .verified
      (renewHandler cfg now spent store q) := by
  have hruns : q.Runs now store ↔ store.Active now q.wgKey := by simp [Gated.Runs, hroute]
  unfold renewHandler
  by_cases ha : store.Active now q.wgKey
  · obtain ⟨ref, session, hget, hobj, hlt⟩ := SessionStore.active_iff.mp ha
    have hs := SessionStore.getSession_some.mpr ⟨SessionStore.find_eq hget hobj, hlt⟩
    have hres := resolve_renewed hq hroute (hstore _ (List.mem_of_getElem? hobj))
    simp only [hs, Option.map_some, hres, SessionStore.renewSession_active hget hobj hlt]
    exact .renewing hc (hruns.mpr ha) hroute hget hobj hlt
  · have hnone : store.getSession now q.wgKey = none := by
      rw [← Option.not_isSome_iff_eq_none, SessionStore.getSession_active]
      exact ha
    simp only [hnone, Option.map_none]
    split
    · exact .stopped hc (mt hruns.mp ha) (by simp [Response.status])
    · rename_i minutes _
      obtain ⟨message, hrenew⟩ := SessionStore.renewSession_inactive minutes ha
      simp only [hrenew]
      split
      · exact .dropped hc (mt hruns.mp ha) ha (by simp [Response.status])
      · exact .stopped hc (mt hruns.mp ha) (by simp [Response.status])

theorem serve_turn (hp : phase.Sound cfg store) (hstore : store.Fitting cfg)
    (h : serve cfg now spent store phase e = some out) :
    Turn now spent store phase e out := by
  unfold serve at h
  split at h
  · cases h
    exact .declined (by simp [Response.status])
  · split at h
    · rename_i hr
      cases h
      exact .declined (requirePayment_status hr)
    · rename_i hr
      cases h
      exact .priced (requirePayment_call hr)
  · rename_i q l receipt
    simp only [Option.some.injEq] at h
    subst h
    rcases resume_cases cfg.verify spent l receipt with ⟨-, hs, hc⟩ | ⟨-, hs, hc⟩
    · rw [if_pos hc, hs]
      exact .paid hc
    · rw [if_neg hc, hs]
      exact .passed hc
  · cases h
    exact .invalid (by simp [VerifyCall.Credited]) (by simp [internalError, Response.status])
  · split at h
    · rename_i hv
      cases h
      exact .invalid (by simp [VerifyCall.Credited, hv]) (by simp [Response.status])
    · rename_i q v hv
      have hc : (VerifyCall.done (.ok v)).Credited := by simpa [VerifyCall.Credited] using hv
      split at h
      · rename_i hroute
        rw [connectHandler_eq hp hroute] at h
        cases hpay : q.payer with
        | error e =>
          simp only [hpay, Except.map] at h
          cases h
          exact .stopped hc (by simp [Gated.Runs, hroute, hpay]) (by simp [Response.status])
        | ok payer =>
          simp only [hpay, Except.map] at h
          cases h
          exact .connecting hc (by simp [Gated.Runs, hroute, hpay]) hroute
      · rename_i hroute
        cases h
        exact turn_renewHandler hc hp hroute hstore
  · cases h
    exact turn_connectRegistered
  · cases h
    exact turn_renewRegistered hp
  · cases h

theorem write_connectRegistered {store : SessionStore} (q : Gated) (minutes : Int)
    (payer : Option String) (outcome : Except String BoringtunRegisterResponse) :
    store.Write (connectRegistered now spent store q minutes payer outcome).store := by
  unfold connectRegistered
  cases outcome with
  | error e => exact .none
  | ok boringtun =>
    by_cases ha : store.Active now q.wgKey
    · simp only [SessionStore.createSession_active ha]
      exact .none
    · simp only [SessionStore.createSession_ok ha]
      exact .insert _

theorem write_renewHandler {store : SessionStore} (q : Gated) :
    store.Write (renewHandler cfg now spent store q).store := by
  unfold renewHandler
  dsimp only
  split
  · exact .none
  · rename_i minutes _
    by_cases ha : store.Active now q.wgKey
    · obtain ⟨ref, session, hget, hobj, hlt⟩ := SessionStore.active_iff.mp ha
      simp only [SessionStore.renewSession_active hget hobj hlt]
      exact .modify ref minutes
    · obtain ⟨message, hrenew⟩ := SessionStore.renewSession_inactive minutes ha
      simp only [hrenew, answer]
      split
      · exact .delete _
      · exact .none

/-- A step of a request writes to the store once. -/
theorem serve_write {store : SessionStore}
    (h : serve cfg now spent store phase e = some out) : store.Write out.store := by
  unfold serve at h
  split at h
  · cases h; exact .none
  · split at h <;> cases h <;> exact .none
  · cases h; exact .none
  · cases h; exact .none
  · split at h
    · cases h; exact .none
    · split at h
      · split at h <;> cases h <;> exact .none
      · cases h; exact write_renewHandler _
  · cases h; exact write_connectRegistered _ _ _ _
  · rename_i q session minutes outcome
    cases h
    unfold renewRegistered
    split
    · exact .none
    · split <;> exact .none
  · cases h

-- ---------------------------------------------------------------------------
-- Steps of the server
-- ---------------------------------------------------------------------------

theorem fitting_insert {store : SessionStore} {session : VpnSession} (h : store.Fitting cfg)
    (hf : cfg.pricing.Fits session.durationMinutes) :
    (store.insert session).Fitting cfg := by
  intro object hobj
  rcases List.mem_append.mp hobj with hobj | hobj
  · exact h object hobj
  · rw [List.mem_singleton.mp hobj]
    exact hf

theorem fitting_modify {store : SessionStore} (h : store.Fitting cfg)
    (hf : cfg.pricing.Fits minutes) :
    (store.modify ref minutes).Fitting cfg := by
  intro object hobj
  obtain ⟨n, hn⟩ := List.mem_iff_getElem?.mp hobj
  obtain ⟨old, hold, rfl⟩ : ∃ old, store.objects[n]? = some old ∧
      object = if ref = n then old.extend minutes else old := by
    simpa [SessionStore.modify, List.getElem?_modify, eq_comm] using hn
  split
  · exact hf
  · exact h old (List.mem_of_getElem? hold)

theorem Priced.renewedMinutes_fits (hq : Priced cfg q)
    (hf : cfg.pricing.Fits session.durationMinutes) :
    cfg.pricing.Fits (q.renewedMinutes session) := by
  unfold Gated.renewedMinutes
  split
  · exact hf
  · exact hq.fits

theorem Phase.Sound.mono {phase : Phase} (hp : phase.Sound cfg store)
    (h : store.objects.length ≤ store'.objects.length) : phase.Sound cfg store' := by
  cases phase with
  | renewing q session minutes => exact Nat.lt_of_lt_of_le hp h
  | probing q | verifying q call | connecting q minutes payer | answered response => exact hp

theorem Turn.sound (h : Turn now spent store phase e out) (hp : phase.Sound cfg store)
    (hstore : store.Fitting cfg) :
    out.phase.Sound cfg out.store ∧ out.store.Fitting cfg ∧
      store.objects.length ≤ out.store.objects.length := by
  cases h with
  | declined hs | invalid hc hs | stopped hc hr hs | unconnected hl hs | renewed hs =>
    exact ⟨trivial, hstore, Nat.le_refl _⟩
  | dropped hc hr ha hs => exact ⟨trivial, hstore, Nat.le_refl _⟩
  | priced hc | passed hc | paid hc => exact ⟨hp, hstore, Nat.le_refl _⟩
  | connecting hc hr hroute => exact ⟨⟨hp, hroute, rfl⟩, hstore, Nat.le_refl _⟩
  | renewing hc hr hroute hget hobj ha =>
    have hold := List.mem_of_getElem? hobj
    refine ⟨?_, fitting_modify hstore (hp.renewedMinutes_fits (hstore _ hold)), ?_⟩
    · simpa [Phase.Sound, SessionStore.modify] using (List.getElem?_eq_some_iff.mp hobj).1
    · simp [SessionStore.modify]
  | connected ha hs =>
    obtain ⟨hq, -, rfl⟩ := hp
    exact ⟨trivial, fitting_insert hstore hq.fits, by simp [SessionStore.insert]⟩

namespace Server

/-- The sessions and the requests are as the gate and the handlers leave them. -/
structure Sound (cfg : ServerConfig) (s : Server) : Prop where
  store : s.store.Fitting cfg
  requests : ∀ r phase, s.requests r = some phase → phase.Sound cfg s.store

/-- What a step makes of one request. -/
inductive RequestStep (cfg : ServerConfig) (s : Server) (r : Nat) :
    Input → Option Phase → List Effect → Prop
  | idle (hi : ∀ e, i ≠ .event r e) : RequestStep cfg s r i (s.requests r) []
  | refused (h : s.requests r = none) (hs : response.status ≠ 200) :
    RequestStep cfg s r (.request r route body proof) (some (.answered response))
      [.answered response.status]
  | arrived (h : s.requests r = none) (hq : Priced cfg q) :
    RequestStep cfg s r (.request r route body proof) (some (.probing q)) []
  | turned (h : s.requests r = some phase) (ht : Turn s.now s.spent s.store phase e out) :
    RequestStep cfg s r (.event r e) (some out.phase) out.effects

theorem step_turn {s : Server} (hs : s.Sound cfg) (h : step cfg s (.event r e) = some s') :
    ∃ phase out, s.requests r = some phase ∧
      serve cfg s.now s.spent s.store phase e = some out ∧
      Turn s.now s.spent s.store phase e out ∧
      s' = { s with
        spent := out.spent
        store := out.store
        requests := Function.update s.requests r (some out.phase) } := by
  obtain ⟨effs, hmove⟩ := step_iff.mp h
  obtain ⟨phase, out, hphase, hserve, hs', -⟩ := move_event.mp hmove
  exact ⟨phase, out, hphase, hserve, serve_turn (hs.requests r phase hphase) hs.store hserve, hs'⟩

theorem step_request {s : Server} (hs : s.Sound cfg) (h : step cfg s i = some s') (r : Nat) :
    RequestStep cfg s r i (s'.requests r) (select r (effects cfg s i)) := by
  obtain ⟨effs, hmove⟩ := step_iff.mp h
  have heffs : effects cfg s i = effs := by simp [effects, hmove]
  rw [heffs]
  cases i with
  | elapse ms => cases hmove; exact .idle (by simp)
  | clear body => cases hmove; exact .idle (by simp)
  | tick t =>
    obtain ⟨-, rfl, rfl⟩ := move_tick hmove
    exact .idle (by simp)
  | unregistered t outcome =>
    simp only [move] at hmove
    split at hmove <;> cases hmove
    exact .idle (by simp)
  | request r' route body proof =>
    obtain ⟨hnone, phase, rfl, ⟨response, hg, rfl, rfl⟩ | ⟨q, hg, rfl, rfl⟩⟩ := move_request hmove
    · by_cases hr : r' = r
      · subst hr
        simpa [select] using .refused hnone (paymentGate_status hg)
      · have hsilent := select_other hr [Effect.answered response.status]
        simp only [List.map_cons, List.map_nil] at hsilent
        simp only [Function.update_of_ne (Ne.symm hr), hsilent]
        exact .idle (by simp)
    · by_cases hr : r' = r
      · subst hr
        simpa using .arrived hnone (paymentGate_priced hg)
      · simp only [Function.update_of_ne (Ne.symm hr)]
        exact .idle (by simp)
  | event r' e =>
    obtain ⟨phase, out, hphase, hserve, rfl, rfl⟩ := move_event.mp hmove
    by_cases hr : r' = r
    · subst hr
      simpa [select_self] using
        .turned hphase (serve_turn (hs.requests r' phase hphase) hs.store hserve)
    · rw [select_other hr]
      simp only [Function.update_of_ne (Ne.symm hr)]
      exact .idle (by simp [hr])

theorem ticks_same {s s' : Server} (hs : step cfg s i = some s') (ht : i ≠ .tick t)
    (hu : ∀ outcome, i ≠ .unregistered t outcome) : s'.ticks t = s.ticks t := by
  obtain ⟨effs, hmove⟩ := step_iff.mp hs
  cases i with
  | elapse ms | clear body => cases hmove; rfl
  | event r e =>
    obtain ⟨phase, out, -, -, rfl, -⟩ := move_event.mp hmove
    rfl
  | request r route body proof =>
    obtain ⟨-, phase, rfl, -⟩ := move_request hmove
    rfl
  | tick t' =>
    have hne : t ≠ t' := fun h => ht (h ▸ rfl)
    obtain ⟨-, rfl, -⟩ := move_tick hmove
    exact Function.update_of_ne hne _ _
  | unregistered t' outcome =>
    have hne : t ≠ t' := fun h => hu outcome (h ▸ rfl)
    obtain ⟨ref', rest, -, hsame, -⟩ := move_unregistered hmove
    rw [hsame]
    exact Function.update_of_ne hne _ _

theorem requests_same {s s' : Server} (hs : step cfg s i = some s') (hn : i.owner ≠ some n) :
    s'.requests n = s.requests n := by
  obtain ⟨effs, hmove⟩ := step_iff.mp hs
  cases i with
  | elapse ms | clear body => cases hmove; rfl
  | event r e =>
    have hne : n ≠ r := fun h => hn (h ▸ rfl)
    obtain ⟨phase, out, -, -, rfl, -⟩ := move_event.mp hmove
    exact Function.update_of_ne hne _ _
  | request r route body proof =>
    have hne : n ≠ r := fun h => hn (h ▸ rfl)
    obtain ⟨-, phase, rfl, -⟩ := move_request hmove
    exact Function.update_of_ne hne _ _
  | tick t =>
    obtain ⟨-, rfl, -⟩ := move_tick hmove
    rfl
  | unregistered t outcome =>
    obtain ⟨ref, rest, -, hsame, -⟩ := move_unregistered hmove
    rw [hsame]

theorem step_write {s s' : Server} (hs : step cfg s i = some s') : s.store.Write s'.store := by
  obtain ⟨effs, hmove⟩ := step_iff.mp hs
  cases i with
  | elapse ms => cases hmove; exact .none
  | event r e =>
    obtain ⟨phase, out, -, hserve, rfl, -⟩ := move_event.mp hmove
    exact serve_write hserve
  | request r route body proof =>
    obtain ⟨-, phase, rfl, -⟩ := move_request hmove
    exact .none
  | clear body =>
    cases hmove
    rcases clearSession_cases s.store body with hc | ⟨fields, -, key, -, hc⟩
    · simp only [hc]
      exact .none
    · simp only [hc]
      exact .delete key
  | tick t =>
    obtain ⟨-, rfl, -⟩ := move_tick hmove
    exact .none
  | unregistered t outcome =>
    obtain ⟨ref, rest, -, -, hsame | ⟨-, session, -, hdel⟩⟩ := move_unregistered hmove
    · rw [hsame]
      exact .none
    · rw [hdel]
      exact .delete _

theorem step_other {s : Server} (h : step cfg s i = some s') (hi : ∀ r e, i ≠ .event r e) :
    s'.spent = s.spent ∧ s'.store.objects = s.store.objects := by
  obtain ⟨effs, hmove⟩ := step_iff.mp h
  cases i with
  | event r e => exact absurd rfl (hi r e)
  | elapse ms => cases hmove; exact ⟨rfl, rfl⟩
  | clear body =>
    cases hmove
    rcases clearSession_cases s.store body with hc | ⟨fields, -, key, -, hc⟩
    · exact ⟨rfl, by simp only [hc]⟩
    · exact ⟨rfl, by simp only [hc]; rfl⟩
  | tick t =>
    obtain ⟨-, rfl, -⟩ := move_tick hmove
    exact ⟨rfl, rfl⟩
  | unregistered t outcome =>
    obtain ⟨ref, rest, -, hs', hstore⟩ := move_unregistered hmove
    refine ⟨by rw [hs'], ?_⟩
    rcases hstore with hstore | ⟨-, session, -, hstore⟩
    · rw [hstore]
    · rw [hstore]
      rfl
  | request r route body proof =>
    obtain ⟨-, phase, rfl, -⟩ := move_request hmove
    exact ⟨rfl, rfl⟩

theorem step_sound {s : Server} (hs : s.Sound cfg) (h : step cfg s i = some s') :
    s'.Sound cfg := by
  by_cases hi : ∃ r e, i = .event r e
  · obtain ⟨r, e, rfl⟩ := hi
    obtain ⟨phase, out, hphase, -, hturn, rfl⟩ := step_turn hs h
    obtain ⟨hout, hfit, hlen⟩ := hturn.sound (hs.requests r phase hphase) hs.store
    refine ⟨hfit, fun r' phase' hphase' => ?_⟩
    by_cases hr : r' = r
    · subst hr
      simp only [Function.update_self, Option.some.injEq] at hphase'
      exact hphase' ▸ hout
    · have hold : s.requests r' = some phase' := by
        simpa [Function.update_of_ne hr] using hphase'
      exact (hs.requests r' phase' hold).mono hlen
  · have hi : ∀ r e, i ≠ .event r e := fun r e he => hi ⟨r, e, he⟩
    obtain ⟨-, hobj⟩ := step_other h hi
    refine ⟨by rw [SessionStore.Fitting, hobj]; exact hs.store, fun r phase hphase => ?_⟩
    have hstep := step_request hs h r
    generalize s'.requests r = after at hstep hphase
    generalize select r (effects cfg s i) = effs at hstep
    cases hstep with
    | idle hi => exact (hs.requests r phase hphase).mono (Nat.le_of_eq (by rw [hobj]))
    | refused h hs => cases hphase; trivial
    | arrived h hq => cases hphase; exact hq
    | turned h ht => exact absurd rfl (hi r _)

theorem init_sound (cfg : ServerConfig) (now : Int) : (init now).Sound cfg :=
  ⟨fun _ h => (by cases h), fun _ _ h => by cases h⟩

end Server

end Xelt.VpnServer
