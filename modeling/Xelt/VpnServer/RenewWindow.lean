import Xelt.Lib.Runs
import Xelt.VpnServer.Requests

/-!
# The renew window

A renewal adds its minutes to the time that is left. The configuration has a
window, the last seconds before expiry in which renewals are meant to come,
and the store is handed it and does not look. So the time left is bounded by
one session and one window exactly when no renewal comes earlier than the
window and the minutes it leaves of a longest session.
-/

namespace Xelt.VpnServer

open Runs

-- ---------------------------------------------------------------------------
-- Calls of the store
-- ---------------------------------------------------------------------------

structure StoreClock where
  store : SessionStore
  now : Int

inductive StoreCall
  | elapse (ms : Nat)
  | create (key : String) (minutes : Int) (boringtun : BoringtunRegisterResponse)
      (payer : Option String)
  | renew (key : String) (minutes : Int)

/-- The length is one `resolveDurationMinutes` accepts. -/
def StoreCall.Accepted (config : PricingConfig) : StoreCall → Prop
  | .elapse _ => True
  | .create _ minutes _ _ | .renew _ minutes =>
    ∃ raw fallback, resolveDurationMinutes raw config fallback = .ok minutes

namespace StoreClock

def start (now : Int) : StoreClock := ⟨.empty, now⟩

/-- A call that throws leaves what it has done to the map. -/
def step (x : StoreClock) : StoreCall → Option StoreClock
  | .elapse ms => some { x with now := x.now + ms }
  | .create key minutes boringtun payer =>
    match x.store.createSession x.now key minutes boringtun payer with
    | .ok (store, _) => some { x with store }
    | .error _ => some x
  | .renew key minutes => some { x with store := (x.store.renewSession x.now key minutes).1 }

/-- No session has more time left than one longest session and one window;
nothing is at most `NaN`. -/
def Bounded (config : PricingConfig) (x : StoreClock) : Prop :=
  ∀ key session, x.store.find key = some session →
    ∃ max ∈ config.maxSessionMinutes, ∃ window ∈ config.renewWindowSeconds,
      session.expiresAt - x.now ≤ max * 60000 + window * 1000

/-- What is left is no more than the window and what `minutes` leave of a
longest session. -/
def Leaves (config : PricingConfig) (minutes left : Int) : Prop :=
  ∃ max ∈ config.maxSessionMinutes, ∃ window ∈ config.renewWindowSeconds,
    left ≤ window * 1000 + (max - minutes) * 60000

/-- A renewal comes late enough; a new session has nothing left before it. -/
def InTime (config : PricingConfig) (x : StoreClock) : StoreCall → Prop
  | .elapse _ => True
  | .create key minutes _ _ => x.store.Active x.now key ∨ Leaves config minutes 0
  | .renew key minutes => ∀ session, x.store.getSession x.now key = some session →
    Leaves config minutes (session.expiresAt - x.now)

variable {x x' : StoreClock} {config : PricingConfig}

theorem step_total (x : StoreClock) (i : StoreCall) : ∃ x', x.step i = some x' := by
  cases i with
  | elapse ms => exact ⟨_, rfl⟩
  | create key minutes boringtun payer =>
    simp only [step]
    split
    · exact ⟨_, rfl⟩
    · exact ⟨_, rfl⟩
  | renew key minutes => exact ⟨_, rfl⟩

theorem Bounded.elapse (h : x.Bounded config) (ms : Nat) :
    Bounded config { x with now := x.now + ms } := by
  intro key session hf
  obtain ⟨max, hmax, window, hwindow, hle⟩ := h key session hf
  refine ⟨max, hmax, window, hwindow, ?_⟩
  simp only
  omega

theorem inTime_create (h : x.Bounded config)
    (hs : x.step (.create key minutes boringtun payer) = some x') :
    InTime config x (.create key minutes boringtun payer) ↔ x'.Bounded config := by
  by_cases ha : x.store.Active x.now key
  · simp only [step, SessionStore.createSession_active ha, Option.some.injEq] at hs
    subst hs
    exact iff_of_true (.inl ha) h
  · simp only [step, SessionStore.createSession_ok ha, Option.some.injEq] at hs
    subst hs
    simp only [InTime, ha, false_or]
    constructor
    · intro hfits key' session hf
      rw [SessionStore.find_insert] at hf
      split at hf
      · cases hf
        obtain ⟨max, hmax, window, hwindow, hle⟩ := hfits
        refine ⟨max, hmax, window, hwindow, ?_⟩
        simp only [SessionStore.newSession]
        omega
      · exact h key' session hf
    · intro hb
      obtain ⟨max, hmax, window, hwindow, hle⟩ :=
        hb key _ (by rw [SessionStore.find_insert]; exact if_pos rfl)
      refine ⟨max, hmax, window, hwindow, ?_⟩
      simp only [SessionStore.newSession] at hle
      omega

theorem inTime_renew (h : x.Bounded config) (hs : x.step (.renew key minutes) = some x') :
    InTime config x (.renew key minutes) ↔ x'.Bounded config := by
  simp only [step, Option.some.injEq] at hs
  subst hs
  by_cases ha : x.store.Active x.now key
  · obtain ⟨ref, session, hget, hobj, hlt⟩ := SessionStore.active_iff.mp ha
    have hfind := SessionStore.find_eq hget hobj
    have hsession : x.store.getSession x.now key = some session :=
      SessionStore.getSession_some.mpr ⟨hfind, hlt⟩
    rw [SessionStore.renewSession_active hget hobj hlt]
    simp only [InTime, hsession, Option.some.injEq, forall_eq']
    constructor
    · intro hin key' session' hf
      rw [SessionStore.find_modify hget] at hf
      split at hf
      · rename_i hkey
        rw [hkey, hfind, Option.map_some] at hf
        cases hf
        obtain ⟨max, hmax, window, hwindow, hle⟩ := hin
        refine ⟨max, hmax, window, hwindow, ?_⟩
        simp only [VpnSession.extend]
        omega
      · exact h key' session' hf
    · intro hb
      obtain ⟨max, hmax, window, hwindow, hle⟩ := hb key (session.extend minutes) (by
        rw [SessionStore.find_modify hget, if_pos rfl, hfind, Option.map_some])
      refine ⟨max, hmax, window, hwindow, ?_⟩
      simp only [VpnSession.extend] at hle
      omega
  · have hnone : x.store.getSession x.now key = none := by
      rw [← Option.not_isSome_iff_eq_none, SessionStore.getSession_active]
      exact ha
    obtain ⟨message, hres⟩ := SessionStore.renewSession_inactive minutes ha
    refine iff_of_true (by simp [InTime, hnone]) ?_
    rw [hres]
    intro key' session hf
    simp only at hf
    split at hf
    · rw [SessionStore.find_delete] at hf
      split at hf
      · cases hf
      · exact h key' session hf
    · exact h key' session hf

/-- In every sequence of calls the time left stays within one longest session
and one window exactly when every renewal comes in time. -/
theorem bounded_iff (config : PricingConfig) (now : Int) (is : List StoreCall) :
    (∀ pre post x, is = pre ++ post → exec step (start now) pre = some x → x.Bounded config) ↔
      Along step (InTime config) (start now) is := by
  refine invariant_iff_along (fun x i _ hnone => ?_) (fun x i x' h hs => ?_) ?_
  · obtain ⟨x', hs⟩ := step_total x i
    cases hnone.symm.trans hs
  · cases i with
    | elapse ms =>
      cases hs
      exact iff_of_true trivial (h.elapse ms)
    | create key minutes boringtun payer => exact inTime_create h hs
    | renew key minutes => exact inTime_renew h hs
  · rintro key session ⟨⟩

theorem leaves_of_window {max window : Int} (hmax : config.maxSessionMinutes = some max)
    (hwindow : config.renewWindowSeconds = some window)
    (haccepted : resolveDurationMinutes raw config fallback = .ok minutes)
    (hleft : left ≤ window * 1000) : Leaves config minutes left := by
  have hfits := resolve_fits haccepted
  simp only [PricingConfig.Fits, PricingConfig.OutOfBounds, not_or, not_exists, not_and,
    not_lt] at hfits
  have hle : minutes ≤ max := by exact_mod_cast hfits.2 max hmax
  exact ⟨max, hmax, window, hwindow, by omega⟩

theorem bounded_of_window {now max window : Int} (hmax : config.maxSessionMinutes = some max)
    (hwindow : config.renewWindowSeconds = some window) (hpos : 0 ≤ window)
    (haccepted : ∀ i ∈ is, i.Accepted config)
    (hlate : Along step (fun x i => ∀ key minutes, i = .renew key minutes →
      ∀ session, x.store.getSession x.now key = some session →
        session.expiresAt - x.now ≤ window * 1000) (start now) is)
    (he : exec step (start now) is = some x) : x.Bounded config := by
  refine (bounded_iff config now is).mpr (along_iff_at.mpr fun pre i post t hsplit ht => ?_) is []
    x (List.append_nil is).symm he
  have hi : i.Accepted config := haccepted i (by rw [hsplit]; simp)
  cases i with
  | elapse ms => trivial
  | create key minutes boringtun payer =>
    obtain ⟨raw, fallback, hok⟩ := hi
    exact .inr (leaves_of_window hmax hwindow hok (by omega))
  | renew key minutes =>
    obtain ⟨raw, fallback, hok⟩ := hi
    intro session hsession
    exact leaves_of_window hmax hwindow hok
      (along_iff_at.mp hlate pre _ post t hsplit ht key minutes rfl session hsession)

def stacked : List StoreCall :=
  [.create sampleKey 60 ⟨"server", "endpoint", "10.0.0.2/32"⟩ none, .renew sampleKey 60]

theorem stacked_unbounded :
    (∀ i ∈ stacked, i.Accepted sampleServerConfig.pricing) ∧
      ∃ x, exec step (start 0) stacked = some x ∧ ¬ x.Bounded sampleServerConfig.pricing := by
  have hok : resolveDurationMinutes (.number 60) sampleServerConfig.pricing none = .ok 60 := by
    decide +kernel
  refine ⟨?_, _, rfl, ?_⟩
  · simp only [stacked, List.mem_cons, List.not_mem_nil, or_false, forall_eq_or_imp, forall_eq]
    exact ⟨⟨_, _, hok⟩, _, _, hok⟩
  · intro h
    obtain ⟨max, hmax, window, hwindow, hle⟩ := h sampleKey _ rfl
    cases hmax
    cases hwindow
    exact absurd hle (by decide +kernel)

end StoreClock

end Xelt.VpnServer
