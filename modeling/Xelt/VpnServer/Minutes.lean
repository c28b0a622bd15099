import Xelt.VpnServer.Ledger

/-!
# Minutes paid and minutes granted

The gate computes the price of a length and the handler resolves the length
anew. They agree wherever the body gives the length; a renewal that takes
the length of the stored session reads it at two moments.
-/

namespace Xelt.VpnServer

open Runs Tagged

/-- What is granted is what was priced. -/
def Agree (effs : List Effect) : Prop :=
  ∀ minutes key minutes', .priced minutes ∈ effs → .granted key minutes' ∈ effs →
    minutes' = minutes

theorem agree_granted (hmore : more = [] ∨ ∃ status, more = [.answered status]) :
    Agree (.priced minutes :: .spent txHash :: .granted key minutes' :: more) ↔
      minutes' = minutes := by
  constructor
  · intro h
    exact h minutes key minutes' (by simp) (by simp)
  · rintro rfl m k m' hp hg
    rcases hmore with rfl | ⟨status, rfl⟩
    · simp only [List.mem_cons, Effect.priced.injEq, Effect.granted.injEq, reduceCtorEq,
        List.not_mem_nil, or_false, false_or] at hp hg
      rw [hp, hg.2]
    · simp only [List.mem_cons, Effect.priced.injEq, Effect.granted.injEq, reduceCtorEq,
        List.not_mem_nil, or_false, false_or] at hp hg
      rw [hp, hg.2]

/-- A paid renewal that falls back on the stored session finds it with the
length the gate has read. -/
def SameLength (now : Int) (store : SessionStore) : Phase → Event → Prop
  | .verifying q call, .verified =>
    call.Credited → q.route = .renew → q.body.durationMinutes.Nullish →
      ∀ session ∈ store.find q.wgKey, now < session.expiresAt →
        session.durationMinutes = q.minutes
  | _, _ => True

theorem serve_of_not_same (h : ¬ SameLength now store phase e) :
    ∃ out, serve cfg now spent store phase e = some out := by
  unfold SameLength at h
  split at h
  · exact serve_of_credited (Classical.not_imp.mp h).1
  · exact absurd trivial h

/-- A request that is renewed gets the minutes of the gate exactly where
the session has the length the gate has read. -/
theorem renewedMinutes_eq {q : Gated} {session : VpnSession} :
    q.renewedMinutes session = q.minutes ↔
      (q.body.durationMinutes.Nullish → session.durationMinutes = q.minutes) := by
  unfold Gated.renewedMinutes
  split
  · rename_i hn
    simp [hn]
  · rename_i hn
    simp [hn]

theorem sameLength_inactive (h : q.route = .renew → ¬ store.Active now q.wgKey) :
    SameLength now store (.verifying q call) .verified :=
  fun _ hroute _ session hs hlt => absurd ⟨session, hs, hlt⟩ (h hroute)

theorem sameLength_renewed (hc : VerifyCall.Credited call) (hroute : q.route = .renew)
    (hf : store.find q.wgKey = some session) (hlt : now < session.expiresAt) :
    SameLength now store (.verifying q call) .verified ↔ q.renewedMinutes session = q.minutes := by
  simp [SameLength, hc, hroute, hf, hlt, renewedMinutes_eq]

theorem Turn.agree (h : Turn now spent store phase e out) (hp : phase.Sound cfg store)
    (hl : Ledger (some phase) effs) (ha : Agree effs) :
    Agree (effs ++ out.effects) ↔ SameLength now store phase e := by
  cases h with
  | declined hs | priced hc =>
    cases hl
    simp [Agree, SameLength]
  | passed hc | paid hc => cases hl <;> simp [Agree, SameLength]
  | invalid hc hs => cases hl <;> simp [Agree, SameLength, hc]
  | stopped hc hr hs =>
    refine iff_of_true (by cases hl <;> simp [Agree]) (sameLength_inactive fun hroute => ?_)
    simpa [Gated.Runs, hroute] using hr
  | dropped hc hr hna hs =>
    exact iff_of_true (by cases hl <;> simp [Agree]) (sameLength_inactive fun _ => hna)
  | connecting hc hr hroute => cases hl <;> simp [Agree, SameLength, hroute]
  | renewing hc hr hroute hget hobj hlt =>
    rw [sameLength_renewed hc hroute (SessionStore.find_eq hget hobj) hlt]
    cases hl with
    | verifying hl => exact absurd hc hl
    | verified => exact agree_granted (.inl rfl)
  | unconnected hl' hs =>
    cases hl
    simp [Agree, SameLength]
  | connected hna hs =>
    cases hl
    obtain ⟨-, -, rfl⟩ := hp
    simp only [SameLength, iff_true]
    exact (agree_granted (.inr ⟨_, rfl⟩)).mpr rfl
  | renewed hs =>
    cases hl
    simpa [Agree, SameLength] using ha

namespace Server

variable {cfg : ServerConfig}

/-- In a run of the server every request is granted the minutes that were
priced for it, exactly when every paid renewal without a length of its own
finds the session with the length the gate has read. -/
theorem granted_priced_iff (cfg : ServerConfig) (start : Int) (is : List Input) :
    (∀ r minutes key minutes',
        (r, .priced minutes) ∈ trace (step cfg) (effects cfg) (init start) is →
        (r, .granted key minutes') ∈ trace (step cfg) (effects cfg) (init start) is →
        minutes' = minutes) ↔
      Along (step cfg) (AtEvent SameLength) (init start) is := by
  have h := requests_iff (Q := Agree) (C := SameLength) cfg start is (by simp [Agree])
    (fun _ _ _ _ _ hall minutes key minutes' hp hg =>
      hall minutes key minutes' (List.mem_append_left _ hp) (List.mem_append_left _ hg))
    (by simp [Agree]) (fun _ _ _ _ _ _ _ ht hp hl ha => ht.agree hp hl ha)
    (fun _ _ _ _ _ hc => serve_of_not_same hc)
  simpa only [Agree, mem_select] using h

/-- While one renewal waits for its receipt, another one of half an hour comes in between. -/
def sampleOvertaken : List Input :=
  sampleOpened 0 .connect sampleBody sampleHash ++ sampleVerified 0 ++
    [.event 0 (.registered (.ok sampleRegistered))] ++
    sampleOpened 1 .renew sampleBody sampleHash₂ ++
    sampleOpened 2 .renew { sampleBody with durationMinutes := .number 30 } sampleHash₃ ++
    sampleVerified 2 ++ sampleVerified 1

/-- Half an hour for the price of five minutes. -/
theorem granted_more :
    ¬ ∀ r minutes key minutes',
      (r, .priced minutes) ∈
        trace (step sampleServerConfig) (effects sampleServerConfig) (init 0) sampleOvertaken →
      (r, .granted key minutes') ∈
        trace (step sampleServerConfig) (effects sampleServerConfig) (init 0) sampleOvertaken →
      minutes' = minutes := by
  intro h
  have htrace : trace (step sampleServerConfig) (effects sampleServerConfig) (init 0)
      sampleOvertaken =
        [(0, .priced 5), (0, .spent sampleHash), (0, .granted sampleKey 5), (0, .answered 200),
          (1, .priced 5), (2, .priced 30), (2, .spent sampleHash₃), (2, .granted sampleKey 30),
          (1, .spent sampleHash₂), (1, .granted sampleKey 30)] := by decide +kernel
  have hagree := h 1 5 sampleKey 30 (by simp [htrace]) (by simp [htrace])
  omega

end Server

end Xelt.VpnServer
