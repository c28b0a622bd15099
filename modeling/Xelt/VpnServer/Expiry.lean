import Xelt.VpnServer.Turns

/-!
# The expiry worker

A tick lists the expired sessions, then has boringtun drop their peers one
after the other, and deletes each session by its key. Meanwhile a request
may have paid for a new session under the key.
-/

namespace Xelt.VpnServer

open Runs

theorem Turn.expired {ref : Nat} (h : Turn now spent store phase e out)
    (hobj : store.objects[ref]? = some session) (hx : session.Expired now) :
    out.store.objects[ref]? = some session := by
  cases h with
  | declined | priced | passed | paid | invalid | stopped | dropped | connecting | unconnected
  | renewed => exact hobj
  | connected =>
    exact (List.getElem?_append_left (List.getElem?_eq_some_iff.mp hobj).1).trans hobj
  | renewing hc hr hroute hget hobj' hlt =>
    rename_i ref' session' q
    have hne : ref' ≠ ref := by
      rintro rfl
      cases hobj.symm.trans hobj'
      exact absurd hlt (not_lt.mpr hx)
    simpa [SessionStore.modify, List.getElem?_modify, hne] using hobj

namespace Server

variable {cfg : ServerConfig} {s s' : Server} {ref : Nat}

def Clears (key : String) : Input → Prop
  | .clear (some body) => trim? body.wireguardPublicKey = .ok (some key)
  | _ => False

/-- The map holds the session object under the key, and it has not expired. -/
def Holds (s : Server) (key : String) (ref : Nat) : Prop :=
  s.store.sessions.get key = some ref ∧
    ∃ session ∈ s.store.objects[ref]?, ¬ session.Expired s.now

/-- In every stretch of the run, a session that has not expired at its end
and that nobody cleared is still in the map. -/
def KeepsPaid (cfg : ServerConfig) (start : Int) (is : List Input) : Prop :=
  ∀ before during after s s' key ref, is = before ++ (during ++ after) →
    exec (step cfg) (init start) before = some s → exec (step cfg) s during = some s' →
    s.store.sessions.get key = some ref → (∀ i ∈ during, ¬ Clears key i) →
    (∃ session ∈ s'.store.objects[ref]?, ¬ session.Expired s'.now) →
    s'.store.sessions.get key = some ref

/-- When boringtun has dropped the peer of a listed session, the map holds
no other session of its key that has not expired. -/
def NotReplaced (s : Server) : Input → Prop
  | .unregistered t (.ok ()) =>
    ∀ ref rest, s.ticks t = ref :: rest → ∀ listed ∈ s.store.objects[ref]?,
      ∀ ref', ref' ≠ ref → ¬ s.Holds listed.wireguardPublicKey ref'
  | _ => True

def Listed (s : Server) : Prop :=
  ∀ t, ∀ ref ∈ s.ticks t, ∃ session ∈ s.store.objects[ref]?, session.Expired s.now

-- ---------------------------------------------------------------------------
-- Expired sessions stay expired
-- ---------------------------------------------------------------------------

theorem step_now (h : step cfg s i = some s') : s.now ≤ s'.now := by
  obtain ⟨effs, hmove⟩ := step_iff.mp h
  cases i with
  | elapse ms =>
    cases hmove
    exact Int.le_add_of_nonneg_right (Int.natCast_nonneg ms)
  | event r e =>
    obtain ⟨phase, out, -, -, rfl, -⟩ := move_event.mp hmove
    exact le_rfl
  | unregistered t outcome =>
    obtain ⟨ref, rest, -, hs', -⟩ := move_unregistered hmove
    rw [hs']
  | clear body => cases hmove; exact le_rfl
  | tick t =>
    obtain ⟨-, rfl, -⟩ := move_tick hmove
    exact le_rfl
  | request r route body proof =>
    obtain ⟨-, phase, rfl, -⟩ := move_request hmove
    exact le_rfl

theorem step_expired (hs : s.Sound cfg) (h : step cfg s i = some s')
    (hx : ∃ session ∈ s.store.objects[ref]?, session.Expired s.now) :
    ∃ session ∈ s'.store.objects[ref]?, session.Expired s'.now := by
  obtain ⟨session, hobj, hx⟩ := hx
  refine ⟨session, ?_, le_trans hx (step_now h)⟩
  by_cases hi : ∃ r e, i = .event r e
  · obtain ⟨r, e, rfl⟩ := hi
    obtain ⟨phase, out, -, -, hturn, rfl⟩ := step_turn hs h
    exact hturn.expired hobj hx
  · rw [(step_other h fun r e he => hi ⟨r, e, he⟩).2]
    exact hobj

theorem listExpired_expired (store : SessionStore) (now : Int) (h : ref ∈ store.listExpired now) :
    ∃ session ∈ store.objects[ref]?, session.Expired now := by
  obtain ⟨-, hx⟩ := List.mem_filter.mp h
  split at hx
  · rename_i session hobj
    exact ⟨session, hobj, of_decide_eq_true hx⟩
  · cases hx

theorem step_ticks (h : step cfg s i = some s') :
    ∀ t, ∀ ref ∈ s'.ticks t, ref ∈ s.ticks t ∨ ref ∈ s.store.listExpired s.now := by
  obtain ⟨effs, hmove⟩ := step_iff.mp h
  intro t ref href
  cases i with
  | elapse ms | clear body => cases hmove; exact .inl href
  | event r e =>
    obtain ⟨phase, out, -, -, rfl, -⟩ := move_event.mp hmove
    exact .inl href
  | request r route body proof =>
    obtain ⟨-, phase, rfl, -⟩ := move_request hmove
    exact .inl href
  | tick t' =>
    obtain ⟨-, rfl, -⟩ := move_tick hmove
    by_cases ht : t = t'
    · subst ht
      exact .inr (by simpa using href)
    · exact .inl (by simpa [Function.update_of_ne ht] using href)
  | unregistered t' outcome =>
    obtain ⟨ref', rest, hticks, hs', -⟩ := move_unregistered hmove
    rw [hs'] at href
    by_cases ht : t = t'
    · subst ht
      refine .inl ?_
      rw [hticks]
      exact List.mem_cons_of_mem _ (by simpa using href)
    · exact .inl (by simpa [Function.update_of_ne ht] using href)

theorem step_listed (hs : s.Sound cfg) (hl : s.Listed) (h : step cfg s i = some s') :
    s'.Listed := by
  intro t ref href
  refine step_expired hs h ?_
  rcases step_ticks h t ref href with href | href
  · exact hl t ref href
  · exact listExpired_expired _ _ href

-- ---------------------------------------------------------------------------
-- What stays in the map
-- ---------------------------------------------------------------------------

theorem Holds.active (h : s.Holds key ref) : s.store.Active s.now key := by
  obtain ⟨hget, session, hobj, hx⟩ := h
  exact ⟨session, SessionStore.find_eq hget hobj, not_le.mp hx⟩

/-- The sessions a request puts in or takes out are under keys without an
active session. -/
theorem turn_keeps (ht : Turn s.now s.spent s.store phase e out) (h : s.Holds key ref) :
    out.store.sessions.get key = some ref := by
  have hget := h.1
  cases ht with
  | declined | priced | passed | paid | invalid | stopped | connecting | renewing | unconnected
  | renewed => exact hget
  | dropped hc hr hna hs =>
    have hkey : ∀ key', ¬ s.store.Active s.now key' → key ≠ key' := by
      rintro key' hna rfl
      exact hna h.active
    rw [SessionStore.delete, OrderedMap.get_delete, if_neg (hkey _ hna)]
    exact hget
  | connected hna hs =>
    rw [SessionStore.insert, OrderedMap.get_set, if_neg]
    · exact hget
    · rintro rfl
      exact hna h.active

theorem step_keeps (hs : s.Sound cfg) (hl : s.Listed) (hn : s.NotReplaced i)
    (hc : ¬ Clears key i) (h : s.Holds key ref) (hst : step cfg s i = some s') :
    s'.store.sessions.get key = some ref := by
  obtain ⟨effs, hmove⟩ := step_iff.mp hst
  have hget := h.1
  cases i with
  | elapse ms => cases hmove; exact hget
  | event r e =>
    obtain ⟨phase, out, -, -, hturn, rfl⟩ := step_turn hs hst
    exact turn_keeps hturn h
  | request r route body proof =>
    obtain ⟨-, phase, rfl, -⟩ := move_request hmove
    exact hget
  | tick t =>
    obtain ⟨-, rfl, -⟩ := move_tick hmove
    exact hget
  | clear body =>
    cases hmove
    rcases clearSession_cases s.store body with hclear | ⟨fields, rfl, key', htrim, hclear⟩
    · simpa only [hclear] using hget
    · simp only [hclear, SessionStore.delete, OrderedMap.get_delete]
      rw [if_neg]
      · exact hget
      · rintro rfl
        exact hc htrim
  | unregistered t outcome =>
    obtain ⟨ref', rest, hticks, hs', hstore⟩ := move_unregistered hmove
    rcases hstore with hstore | ⟨rfl, listed, hlisted, hstore⟩
    · rwa [hstore]
    · rw [hstore, SessionStore.delete, OrderedMap.get_delete, if_neg]
      · exact hget
      · rintro rfl
        obtain ⟨session, hobj, hx⟩ := h.2
        refine hn ref' rest hticks listed hlisted ref ?_ h
        -- what the tick has listed has expired, and this one has not
        rintro rfl
        obtain ⟨session', hobj', hx'⟩ := hl t ref (by simp [hticks])
        cases hobj.symm.trans hobj'
        exact hx hx'

theorem run_expired (hs : s.Sound cfg) (h : exec (step cfg) s is = some s')
    (hx : ∃ session ∈ s.store.objects[ref]?, session.Expired s.now) :
    ∃ session ∈ s'.store.objects[ref]?, session.Expired s'.now :=
  (invariant_run
    (I := fun s => s.Sound cfg ∧ ∃ session ∈ s.store.objects[ref]?, session.Expired s.now)
    (fun _ _ _ hi hst => ⟨step_sound hi.1 hst, step_expired hi.1 hst hi.2⟩) ⟨hs, hx⟩ h).2

/-- A session that has not expired at the end of a run had not expired
before, so every step of the run keeps it. -/
theorem run_keeps (hs : s.Sound cfg) (hl : s.Listed) (hn : Along (step cfg) NotReplaced s is)
    (hc : ∀ i ∈ is, ¬ Clears key i) (h : exec (step cfg) s is = some s')
    (hget : s.store.sessions.get key = some ref)
    (hx : ∃ session ∈ s'.store.objects[ref]?, ¬ session.Expired s'.now) :
    s'.store.sessions.get key = some ref := by
  induction is generalizing s with
  | nil => cases h; exact hget
  | cons i is ih =>
    obtain ⟨mid, hst, he⟩ := (exec_cons_some (step cfg)).mp h
    obtain ⟨session, hobj, -⟩ := s.store.held key ref hget
    have hholds : s.Holds key ref := by
      refine ⟨hget, session, hobj, fun hexp => ?_⟩
      obtain ⟨last, hlast, hfresh⟩ := hx
      obtain ⟨last', hlast', hexp'⟩ := run_expired hs h ⟨session, hobj, hexp⟩
      cases hlast.symm.trans hlast'
      exact hfresh hexp'
    have hkeep := step_keeps hs hl hn.1 (hc i List.mem_cons_self) hholds hst
    exact ih (step_sound hs hst) (step_listed hs hl hst) (hn.2 mid hst)
      (fun j hj => hc j (List.mem_cons_of_mem _ hj)) he hkeep

theorem init_listed (start : Int) : (init start).Listed := fun _ _ h => by cases h

/-- The worker never deletes a session that has not expired, exactly when
no listed session has been replaced by one when its peer has been dropped. -/
theorem keepsPaid_iff (cfg : ServerConfig) (start : Int) (is : List Input) :
    KeepsPaid cfg start is ↔ Along (step cfg) NotReplaced (init start) is := by
  constructor
  · intro hkeep
    rw [along_iff_at]
    rintro pre i post s rfl he
    cases i with
    | elapse ms | request r route body proof | event r e | clear body | tick t => trivial
    | unregistered t outcome =>
      cases outcome with
      | error e => trivial
      | ok u =>
        intro ref rest hticks listed hlisted ref' _ hholds
        obtain ⟨hget, session, hobj, hx⟩ := hholds
        have hst : step cfg s (.unregistered t (.ok ())) = some
            { s with
              store := s.store.delete listed.wireguardPublicKey
              ticks := Function.update s.ticks t rest } := by
          simp [step, move, hticks, Option.mem_def.mp hlisted, SessionStore.deleteSession]
        have hrun : exec (step cfg) s [.unregistered t (.ok ())] = some _ :=
          (exec_cons_some _).mpr ⟨_, hst, rfl⟩
        have hlost := hkeep pre [.unregistered t (.ok ())] post s _ _ ref' rfl he hrun hget
          (by simp [Clears]) ⟨session, hobj, hx⟩
        simp [SessionStore.delete, OrderedMap.get_delete] at hlost
  · rintro hn before during after s s' key ref rfl hbefore hduring hget hc hx
    obtain ⟨-, hafter⟩ := along_append.mp hn
    have hduring' := (along_append.mp (hafter s hbefore)).1
    have hinv := invariant_run (I := fun s => s.Sound cfg ∧ s.Listed)
      (fun _ _ _ hi hst => ⟨step_sound hi.1 hst, step_listed hi.1 hi.2 hst⟩)
      ⟨init_sound cfg start, init_listed start⟩ hbefore
    exact run_keeps hinv.1 hinv.2 hduring' hc hduring hget hx

/-- A session expires and a tick lists it; before boringtun has answered the
tick, its key has paid for a new session. -/
def sampleReplaced : List Input :=
  sampleOpened 0 .connect sampleBody sampleHash ++ sampleVerified 0 ++
    [.event 0 (.registered (.ok sampleRegistered)), .elapse 300000, .tick 0] ++
    sampleOpened 1 .connect sampleBody sampleHash₂ ++ sampleVerified 1 ++
    [.event 1 (.registered (.ok sampleRegistered))]

/-- The worker deletes the new session. -/
theorem deleted_paid :
    ¬ KeepsPaid sampleServerConfig 0 (sampleReplaced ++ [.unregistered 0 (.ok ())]) := by
  have hrun : ((exec (step sampleServerConfig) (init 0) sampleReplaced).bind fun s =>
      (exec (step sampleServerConfig) s [.unregistered 0 (.ok ())]).map fun s' =>
        (s.store.sessions.get sampleKey,
          s'.store.objects[1]?.map fun session => decide (session.Expired s'.now),
          s'.store.sessions.get sampleKey)) = some (some 1, some false, none) := by
    decide +kernel
  obtain ⟨s, hs, hrun⟩ := Option.bind_eq_some_iff.mp hrun
  obtain ⟨s', hs', hread⟩ := Option.map_eq_some_iff.mp hrun
  simp only [Prod.mk.injEq, Option.map_eq_some_iff, decide_eq_false_iff_not] at hread
  obtain ⟨hget, ⟨session, hobj, hx⟩, hlost⟩ := hread
  intro h
  have hkept := h sampleReplaced [.unregistered 0 (.ok ())] [] s s' sampleKey 1 (by simp) hs hs'
    hget (by simp [Clears]) ⟨session, hobj, hx⟩
  cases hkept.symm.trans hlost

end Server

end Xelt.VpnServer
