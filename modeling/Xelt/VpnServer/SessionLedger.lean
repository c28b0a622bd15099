import Mathlib.Algebra.BigOperators.Group.List.Basic
import Xelt.Lib.Runs
import Xelt.VpnServer.SessionStore

/-!
# The ledger of the session store

What the store is for: a key has a time of creation and the minutes that have
been granted since, and is active until they are over. Every method of the
store does what the ledger does, at every instant, also at the very end of a
session.
-/

namespace Xelt.VpnServer

open Runs

inductive StoreRequest
  | elapse (ms : Nat)
  | createSession (key : String) (minutes : Int) (boringtun : BoringtunRegisterResponse)
      (payer : Option String)
  | renewSession (key : String) (minutes : Int)
  | getSession (key : String)
  | deleteSession (key : String)
  | listExpired

/-- What a session is known by: when it was made, when it ends, how often it
has been renewed. -/
structure Term where
  createdAt : Int
  expiresAt : Int
  renewedCount : Nat

/-- What is answered to a request. -/
inductive StoreAnswer
  | elapsed
  | created (accepted : Bool)
  | renewed (accepted : Bool)
  | found (term : Option Term)
  | deleted (wasThere : Bool)
  | expired (keys : Set String)

-- ---------------------------------------------------------------------------
-- The ledger
-- ---------------------------------------------------------------------------

/-- The minutes granted to a key, the first ones when its session was made. -/
structure Account where
  createdAt : Int
  minutes : List Int
  granted : minutes ≠ []

namespace Account

def expiresAt (a : Account) : Int := a.createdAt + 60000 * a.minutes.sum

def renewals (a : Account) : Nat := a.minutes.length - 1

def term (a : Account) : Term := ⟨a.createdAt, a.expiresAt, a.renewals⟩

def opened (now minutes : Int) : Account := ⟨now, [minutes], by simp⟩

def grant (a : Account) (minutes : Int) : Account :=
  ⟨a.createdAt, a.minutes ++ [minutes], by simp⟩

theorem expiresAt_opened (now minutes : Int) :
    (opened now minutes).expiresAt = now + minutes * 60 * 1000 := by
  simp only [expiresAt, opened, List.sum_cons, List.sum_nil]
  omega

theorem expiresAt_grant (a : Account) (minutes : Int) :
    (a.grant minutes).expiresAt = a.expiresAt + minutes * 60 * 1000 := by
  simp only [expiresAt, grant, List.sum_append, List.sum_cons, List.sum_nil]
  omega

theorem renewals_grant (a : Account) (minutes : Int) :
    (a.grant minutes).renewals = a.renewals + 1 := by
  have hpos := List.length_pos_iff.mpr a.granted
  simp only [renewals, grant, List.length_append, List.length_singleton]
  omega

end Account

structure SessionLedger where
  accounts : String → Option Account
  now : Int

namespace SessionLedger

def start (now : Int) : SessionLedger := ⟨fun _ => none, now⟩

variable (l : SessionLedger)

/-- The account of a key, as long as its minutes last. -/
def active (key : String) : Option Account := (l.accounts key).filter fun a => l.now < a.expiresAt

def step : StoreRequest → Option SessionLedger
  | .elapse ms => some { l with now := l.now + ms }
  | .createSession key minutes _ _ =>
    if (l.active key).isSome then some l
    else some { l with accounts := Function.update l.accounts key (some (.opened l.now minutes)) }
  | .renewSession key minutes =>
    some { l with
      accounts := Function.update l.accounts key ((l.active key).map (·.grant minutes)) }
  | .getSession _ | .listExpired => some l
  | .deleteSession key => some { l with accounts := Function.update l.accounts key none }

def answer : StoreRequest → StoreAnswer
  | .elapse _ => .elapsed
  | .createSession key _ _ _ => .created (l.active key).isNone
  | .renewSession key _ => .renewed (l.active key).isSome
  | .getSession key => .found ((l.active key).map Account.term)
  | .deleteSession key => .deleted (l.accounts key).isSome
  | .listExpired => .expired { key | ∃ a, l.accounts key = some a ∧ l.active key = none }

end SessionLedger

-- ---------------------------------------------------------------------------
-- The store
-- ---------------------------------------------------------------------------

def VpnSession.term (session : VpnSession) : Term :=
  ⟨session.createdAt, session.expiresAt, session.renewedCount⟩

structure TimedStore where
  store : SessionStore
  now : Int

namespace TimedStore

def start (now : Int) : TimedStore := ⟨.empty, now⟩

variable (x : TimedStore)

/-- A call that throws leaves what it has done to the map. -/
def step : StoreRequest → Option TimedStore
  | .elapse ms => some { x with now := x.now + ms }
  | .createSession key minutes boringtun payer =>
    match x.store.createSession x.now key minutes boringtun payer with
    | .ok (store, _) => some { x with store }
    | .error _ => some x
  | .renewSession key minutes =>
    some { x with store := (x.store.renewSession x.now key minutes).1 }
  | .getSession _ | .listExpired => some x
  | .deleteSession key => some { x with store := (x.store.deleteSession key).1 }

def answer : StoreRequest → StoreAnswer
  | .elapse _ => .elapsed
  | .createSession key minutes boringtun payer =>
    .created (x.store.createSession x.now key minutes boringtun payer).isOk
  | .renewSession key minutes => .renewed (x.store.renewSession x.now key minutes).2.isOk
  | .getSession key => .found ((x.store.getSession x.now key).map VpnSession.term)
  | .deleteSession key => .deleted (x.store.deleteSession key).2
  | .listExpired =>
    .expired { key | ∃ ref ∈ x.store.listExpired x.now, ∃ session,
      x.store.objects[ref]? = some session ∧ session.wireguardPublicKey = key }

/-- Every session is its account, by its times and its renewals. -/
structure Refines (x : TimedStore) (l : SessionLedger) : Prop where
  now : x.now = l.now
  terms : ∀ key, (x.store.find key).map VpnSession.term = (l.accounts key).map Account.term

variable {x : TimedStore} {l : SessionLedger}

theorem getSession_filter (store : SessionStore) (now : Int) (key : String) :
    (store.getSession now key).map VpnSession.term =
      ((store.find key).map VpnSession.term).filter fun t => now < t.expiresAt := by
  unfold SessionStore.getSession
  cases store.find key with
  | none => rfl
  | some session =>
    by_cases he : session.expiresAt ≤ now
    · simp [Option.filter, VpnSession.term, he, not_lt.mpr he]
    · simp [Option.filter, VpnSession.term, he, not_le.mp he]

theorem active_filter (l : SessionLedger) (key : String) :
    (l.active key).map Account.term =
      ((l.accounts key).map Account.term).filter fun t => l.now < t.expiresAt := by
  unfold SessionLedger.active
  cases l.accounts key with
  | none => rfl
  | some a =>
    by_cases he : l.now < a.expiresAt
    · simp [Option.filter, Account.term, he]
    · simp [Option.filter, Account.term, he]

theorem Refines.active (h : x.Refines l) (key : String) :
    (x.store.getSession x.now key).map VpnSession.term = (l.active key).map Account.term := by
  rw [getSession_filter, active_filter, h.terms, h.now]

theorem Refines.isSome_active (h : x.Refines l) (key : String) :
    x.store.Active x.now key ↔ (l.active key).isSome = true := by
  have hmap := congrArg Option.isSome (h.active key)
  rw [Option.isSome_map, Option.isSome_map] at hmap
  rw [← SessionStore.getSession_active, hmap]

theorem Refines.active_term (h : x.Refines l) (ha : l.active key = some a) :
    ∃ session, x.store.getSession x.now key = some session ∧ session.term = a.term := by
  have hmap := h.active key
  rw [ha, Option.map_some] at hmap
  exact Option.map_eq_some_iff.mp hmap

theorem term_extend {session : VpnSession} {a : Account} (h : session.term = a.term)
    (minutes : Int) : (session.extend minutes).term = (a.grant minutes).term := by
  simp only [VpnSession.term, Account.term, Term.mk.injEq] at h
  simp only [VpnSession.term, Account.term, VpnSession.extend, Account.expiresAt_grant,
    Account.renewals_grant, h]
  rfl

theorem term_newSession (now : Int) (key : String) (minutes : Int)
    (boringtun : BoringtunRegisterResponse) (payer : Option String) :
    (SessionStore.newSession now key minutes boringtun payer).term =
      (Account.opened now minutes).term := by
  simp only [VpnSession.term, Account.term, SessionStore.newSession, Account.expiresAt_opened]
  rfl

/-- The store answers a request as the ledger does, and goes on as its
account. -/
def Follows (x : TimedStore) (l : SessionLedger) (r : StoreRequest) : Prop :=
  x.answer r = l.answer r ∧ ∃ x' l', x.step r = some x' ∧ l.step r = some l' ∧ x'.Refines l'

theorem Refines.create (h : x.Refines l) :
    x.Follows l (.createSession key minutes boringtun payer) := by
  by_cases ha : x.store.Active x.now key
  · have hl := (h.isSome_active key).mp ha
    have hrefused : x.store.createSession x.now key minutes boringtun payer = .error _ :=
      SessionStore.createSession_active ha
    refine ⟨?_, x, l, ?_, ?_, h⟩
    · obtain ⟨a, ha⟩ := Option.isSome_iff_exists.mp hl
      simp [TimedStore.answer, SessionLedger.answer, hrefused, Except.isOk, Except.toBool, ha]
    · simp [TimedStore.step, hrefused]
    · simp [SessionLedger.step, hl]
  · have hl : ¬ (l.active key).isSome = true := fun hl => ha ((h.isSome_active key).mpr hl)
    have hmade : x.store.createSession x.now key minutes boringtun payer = .ok _ :=
      SessionStore.createSession_ok ha
    refine ⟨?_, ⟨x.store.insert (SessionStore.newSession x.now key minutes boringtun payer), x.now⟩,
      _, ?_, if_neg hl, ⟨h.now, fun key' => ?_⟩⟩
    · have hnone : l.active key = none := Option.not_isSome_iff_eq_none.mp hl
      simp [TimedStore.answer, SessionLedger.answer, hmade, Except.isOk, Except.toBool, hnone]
    · simp [TimedStore.step, hmade]
    · rw [SessionStore.find_insert]
      by_cases hkey : key' = key
      · subst hkey
        rw [if_pos (show key' = (SessionStore.newSession _ _ _ _ _).wireguardPublicKey from rfl)]
        dsimp only
        rw [Function.update_self, Option.map_some, Option.map_some, term_newSession, h.now]
      · simp [SessionStore.newSession, hkey, h.terms]

theorem Refines.renew (h : x.Refines l) : x.Follows l (.renewSession key minutes) := by
  cases ha : l.active key with
  | some a =>
    obtain ⟨session, hsession, hterm⟩ := h.active_term ha
    obtain ⟨hfind, hlt⟩ := SessionStore.getSession_some.mp hsession
    obtain ⟨ref, hget, hobj⟩ := Option.bind_eq_some_iff.mp hfind
    have hrenewed : x.store.renewSession x.now key minutes =
      (x.store.modify ref minutes, .ok ref) :=
      SessionStore.renewSession_active hget hobj hlt
    refine ⟨?_, ⟨x.store.modify ref minutes, x.now⟩, _, ?_, rfl, ⟨h.now, fun key' => ?_⟩⟩
    · simp [TimedStore.answer, SessionLedger.answer, hrenewed, ha, Except.isOk, Except.toBool]
    · simp [TimedStore.step, hrenewed]
    · rw [SessionStore.find_modify hget]
      by_cases hkey : key' = key
      · subst hkey
        simp [hfind, ha, term_extend hterm]
      · simp [hkey, h.terms]
  | none =>
    have hna : ¬ x.store.Active x.now key := fun hactive => by
      have hsome := (h.isSome_active key).mp hactive
      rw [ha] at hsome
      cases hsome
    obtain ⟨message, hrefused⟩ := SessionStore.renewSession_inactive minutes hna
    refine ⟨?_, _, _, rfl, rfl, ⟨h.now, fun key' => ?_⟩⟩
    · simp [TimedStore.answer, SessionLedger.answer, hrefused, ha, Except.isOk, Except.toBool]
    · simp only [hrefused]
      by_cases hkey : key' = key
      · subst hkey
        cases hget : x.store.sessions.get key' with
        | none => simp [SessionStore.find, hget, ha]
        | some ref => simp [SessionStore.find_delete, ha]
      · have hother : ∀ b : Bool, (if b = true then x.store.delete key else x.store).find key' =
            x.store.find key' := by
          intro b
          cases b with
          | true => simp [SessionStore.find_delete, hkey]
          | false => rfl
        simp [hother, hkey, h.terms]

theorem Refines.delete (h : x.Refines l) : x.Follows l (.deleteSession key) := by
  refine ⟨?_, _, _, rfl, rfl, ⟨h.now, fun key' => ?_⟩⟩
  · have hsome := congrArg Option.isSome (h.terms key)
    rw [Option.isSome_map, Option.isSome_map] at hsome
    have hfind : (x.store.sessions.get key).isSome = (x.store.find key).isSome := by
      cases hget : x.store.sessions.get key with
      | none => simp [SessionStore.find, hget]
      | some ref =>
        obtain ⟨session, -, hf, -⟩ := SessionStore.find_of_get hget
        simp [hf]
    simp only [TimedStore.answer, SessionLedger.answer, SessionStore.deleteSession, hfind, hsome]
  · simp only [SessionStore.deleteSession, SessionStore.find_delete]
    by_cases hkey : key' = key
    · subst hkey
      simp
    · simp [hkey, h.terms]

/-- A session that has expired is listed under the key of its account. -/
theorem Refines.listed (h : x.Refines l) : x.answer .listExpired = l.answer .listExpired := by
  simp only [TimedStore.answer, SessionLedger.answer, StoreAnswer.expired.injEq]
  ext key
  simp only [Set.mem_ofPred_eq, SessionStore.mem_listExpired]
  constructor
  · rintro ⟨ref, ⟨key', session, hget, hfind, hexpired⟩, session', hobj, rfl⟩
    obtain ⟨session'', hobj', hfind', hkey⟩ := SessionStore.find_of_get hget
    obtain rfl := Option.some.inj (hfind.symm.trans hfind')
    obtain rfl := Option.some.inj (hobj.symm.trans hobj')
    subst hkey
    have hterms := h.terms session'.wireguardPublicKey
    rw [hfind, Option.map_some] at hterms
    obtain ⟨a, ha, hterm⟩ := Option.map_eq_some_iff.mp hterms.symm
    refine ⟨a, ha, ?_⟩
    have hat : a.expiresAt = session'.expiresAt := congrArg Term.expiresAt hterm
    simp only [SessionLedger.active, ha, Option.filter_some, ← h.now, hat, not_lt.mpr hexpired]
    rfl
  · rintro ⟨a, ha, hnone⟩
    have hterms := h.terms key
    rw [ha, Option.map_some] at hterms
    obtain ⟨session, hfind, hterm⟩ := Option.map_eq_some_iff.mp hterms
    obtain ⟨ref, hget, hobj⟩ := Option.bind_eq_some_iff.mp hfind
    obtain ⟨session', hobj', -, hkey⟩ := SessionStore.find_of_get hget
    obtain rfl := Option.some.inj (hobj.symm.trans hobj')
    refine ⟨ref, ⟨key, session, hget, hfind, ?_⟩, session, hobj, hkey⟩
    have hat : session.expiresAt = a.expiresAt := congrArg Term.expiresAt hterm
    rw [hat, h.now]
    refine not_lt.mp fun hlt => ?_
    simp [SessionLedger.active, ha, Option.filter, hlt] at hnone

theorem Refines.step (h : x.Refines l) (r : StoreRequest) :
    x.answer r = l.answer r ∧
      ∃ x' l', x.step r = some x' ∧ l.step r = some l' ∧ x'.Refines l' := by
  cases r with
  | elapse ms =>
    refine ⟨rfl, _, _, rfl, rfl, ⟨?_, h.terms⟩⟩
    simp only [h.now]
  | createSession key minutes boringtun payer => exact h.create
  | renewSession key minutes => exact h.renew
  | getSession key =>
    refine ⟨?_, x, l, rfl, rfl, h⟩
    simp only [TimedStore.answer, SessionLedger.answer, h.active]
  | deleteSession key => exact h.delete
  | listExpired => exact ⟨h.listed, x, l, rfl, rfl, h⟩

theorem start_refines (now : Int) : (start now).Refines (.start now) := ⟨rfl, fun _ => rfl⟩

/-- The methods read the clock alike: at every instant a key is refused a new
session, can be renewed and is not listed exactly when it has a session. -/
structure Consistent (store : SessionStore) (now : Int) : Prop where
  created : ∀ key minutes boringtun payer,
    (∃ e, store.createSession now key minutes boringtun payer = .error e) ↔
      (store.getSession now key).isSome
  renewed : ∀ key minutes, (∃ ref, (store.renewSession now key minutes).2 = .ok ref) ↔
    (store.getSession now key).isSome
  listed : ∀ ref, ref ∈ store.listExpired now ↔ ∃ key session, store.sessions.get key = some ref ∧
    store.find key = some session ∧ store.getSession now key = none

theorem consistent (store : SessionStore) (now : Int) : Consistent store now where
  created key minutes boringtun payer := by
    rw [SessionStore.getSession_active]
    by_cases ha : store.Active now key
    · exact iff_of_true ⟨_, SessionStore.createSession_active ha⟩ ha
    · refine iff_of_false ?_ ha
      rw [SessionStore.createSession_ok ha]
      rintro ⟨e, he⟩
      cases he
  renewed key minutes := by
    rw [SessionStore.getSession_active]
    by_cases ha : store.Active now key
    · obtain ⟨ref, session, hget, hobj, hlt⟩ := SessionStore.active_iff.mp ha
      exact iff_of_true ⟨ref, by rw [SessionStore.renewSession_active hget hobj hlt]⟩ ha
    · obtain ⟨message, hrefused⟩ := SessionStore.renewSession_inactive minutes ha
      refine iff_of_false ?_ ha
      rw [hrefused]
      rintro ⟨ref, href⟩
      cases href
  listed ref := by
    rw [SessionStore.mem_listExpired]
    refine exists_congr fun key => exists_congr fun session => and_congr_right fun _ =>
      and_congr_right fun hfind => ?_
    simp only [SessionStore.getSession, hfind, ite_eq_left_iff, reduceCtorEq, imp_false, not_not]

/-- For every run of the store there is the run of the ledger with the same
answers, that ends with the same sessions. -/
theorem run_refines (start : Int) (requests : List StoreRequest) :
    ∃ x l, exec TimedStore.step (.start start) requests = some x ∧
      exec SessionLedger.step (.start start) requests = some l ∧ x.Refines l ∧
      trace TimedStore.step (fun x r => [x.answer r]) (.start start) requests =
        trace SessionLedger.step (fun l r => [l.answer r]) (.start start) requests ∧
      ∀ now, Consistent x.store now := by
  suffices hrun : ∀ x l, Refines x l → ∃ x' l', exec TimedStore.step x requests = some x' ∧
      exec SessionLedger.step l requests = some l' ∧ x'.Refines l' ∧
      trace TimedStore.step (fun x r => [x.answer r]) x requests =
        trace SessionLedger.step (fun l r => [l.answer r]) l requests by
    obtain ⟨x, l, hx, hl, h, htrace⟩ := hrun _ _ (start_refines start)
    exact ⟨x, l, hx, hl, h, htrace, fun now => consistent x.store now⟩
  induction requests with
  | nil => exact fun x l h => ⟨x, l, rfl, rfl, h, rfl⟩
  | cons r requests ih =>
    intro x l h
    obtain ⟨hanswer, x₁, l₁, hx, hl, h₁⟩ := h.step r
    obtain ⟨x', l', hx', hl', h', htrace⟩ := ih x₁ l₁ h₁
    refine ⟨x', l', ?_, ?_, h', ?_⟩
    · exact (exec_cons_some _).mpr ⟨x₁, hx, hx'⟩
    · exact (exec_cons_some _).mpr ⟨l₁, hl, hl'⟩
    · rw [trace_cons_some hx, trace_cons_some hl, hanswer, htrace]

end TimedStore

end Xelt.VpnServer
