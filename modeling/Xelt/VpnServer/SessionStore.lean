import Xelt.Lib.OrderedMap
import Xelt.VpnServer.Pricing

/-!
# The session store

The map of the store holds references to session objects: a handler that has
renewed a session, or a worker that has listed one, still has the object
when the map no longer does. `objects` are all session objects ever made.
-/

namespace Xelt.VpnServer

structure VpnSession where
  wireguardPublicKey : String
  durationMinutes : Int
  /-- Milliseconds, like the clock. -/
  expiresAt : Int
  assignedIp : String
  serverPublicKey : String
  endpoint : String
  createdAt : Int
  renewedCount : Nat
  payerPublicKey : Option String
  deriving DecidableEq

structure BoringtunRegisterResponse where
  serverPublicKey : String
  endpoint : String
  assignedIp : String

def VpnSession.Expired (session : VpnSession) (now : Int) : Prop := session.expiresAt ≤ now

instance (session : VpnSession) (now : Int) : Decidable (session.Expired now) :=
  inferInstanceAs (Decidable (_ ≤ _))

def VpnSession.extend (session : VpnSession) (durationMinutes : Int) : VpnSession :=
  { session with
    expiresAt := session.expiresAt + durationMinutes * 60 * 1000
    durationMinutes
    renewedCount := session.renewedCount + 1 }

structure SessionStore where
  objects : List VpnSession
  sessions : OrderedMap String Nat
  held : ∀ key ref, sessions.get key = some ref →
    ∃ session ∈ objects[ref]?, session.wireguardPublicKey = key

namespace SessionStore

def empty : SessionStore := ⟨[], .empty, fun _ _ h => by cases h⟩

variable (store : SessionStore) (now : Int)

/-- The session the map holds under a key, expired or not. -/
def find (key : String) : Option VpnSession :=
  (store.sessions.get key).bind fun ref => store.objects[ref]?

/-- `replace(/\/32$/, '')`. -/
def stripMask (ip : String) : String :=
  match ip.toList.reverse with
  | '2' :: '3' :: '/' :: rest => String.ofList rest.reverse
  | _ => ip

def newSession (key : String) (durationMinutes : Int) (boringtun : BoringtunRegisterResponse)
    (payerPublicKey : Option String) : VpnSession where
  wireguardPublicKey := key
  durationMinutes
  expiresAt := now + durationMinutes * 60 * 1000
  assignedIp := stripMask boringtun.assignedIp
  serverPublicKey := boringtun.serverPublicKey
  endpoint := boringtun.endpoint
  createdAt := now
  renewedCount := 0
  payerPublicKey

/-- `sessions.set` with a new object. -/
def insert (session : VpnSession) : SessionStore where
  objects := store.objects ++ [session]
  sessions := store.sessions.set session.wireguardPublicKey store.objects.length
  held key ref h := by
    rw [OrderedMap.get_set] at h
    split at h
    · rename_i hkey
      cases h
      exact ⟨session, by simp, hkey.symm⟩
    · obtain ⟨old, hold, hkey⟩ := store.held key ref h
      exact ⟨old,
        by rw [List.getElem?_append_left (List.getElem?_eq_some_iff.mp hold).1]; exact hold, hkey⟩

def createSession (wireguardPublicKey : String) (durationMinutes : Int)
    (boringtun : BoringtunRegisterResponse) (payerPublicKey : Option String) :
    Except String (SessionStore × VpnSession) :=
  match store.find wireguardPublicKey with
  | some existing =>
    if existing.expiresAt > now then
      .error "Session already active for this WireGuard key. Use /renew instead."
    else
      let session := newSession now wireguardPublicKey durationMinutes boringtun payerPublicKey
      .ok (store.insert session, session)
  | none =>
    let session := newSession now wireguardPublicKey durationMinutes boringtun payerPublicKey
    .ok (store.insert session, session)

def delete (key : String) : SessionStore where
  objects := store.objects
  sessions := store.sessions.delete key
  held k ref h := by
    rw [OrderedMap.get_delete] at h
    split at h
    · cases h
    · exact store.held k ref h

def modify (ref : Nat) (durationMinutes : Int) : SessionStore where
  objects := store.objects.modify ref fun session => session.extend durationMinutes
  sessions := store.sessions
  held k r h := by
    obtain ⟨session, hs, hkey⟩ := store.held k r h
    rw [List.getElem?_modify]
    by_cases hr : ref = r
    · exact ⟨session.extend durationMinutes, by simp [hr, Option.mem_def.mp hs], hkey⟩
    · exact ⟨session, by simp [hr, Option.mem_def.mp hs], hkey⟩

/-- The new store, and the reference of the session or the error thrown. -/
def renewSession (wireguardPublicKey : String) (durationMinutes : Int) :
    SessionStore × Except String Nat :=
  match store.sessions.get wireguardPublicKey with
  | none => (store, .error "No active session found. Call /connect first.")
  | some ref =>
    match store.objects[ref]? with
    -- the map has no reference without an object
    | none => (store, .error "No active session found. Call /connect first.")
    | some session =>
      if session.expiresAt ≤ now then
        (store.delete wireguardPublicKey,
          .error "Session expired. Call /connect to start a new session.")
      else (store.modify ref durationMinutes, .ok ref)

def getSession (wireguardPublicKey : String) : Option VpnSession :=
  match store.find wireguardPublicKey with
  | none => none
  | some session => if session.expiresAt ≤ now then none else some session

def deleteSession (wireguardPublicKey : String) : SessionStore × Bool :=
  (store.delete wireguardPublicKey, (store.sessions.get wireguardPublicKey).isSome)

/-- Sessions past `expiresAt`, in the order of the map. -/
def listExpired : List Nat :=
  store.sessions.values.filter fun ref =>
    match store.objects[ref]? with
    | some session => session.expiresAt ≤ now
    | none => false

-- ---------------------------------------------------------------------------
-- What the operations do
-- ---------------------------------------------------------------------------

/-- The map holds a session of the key that has not expired. -/
def Active (key : String) : Prop := ∃ session ∈ store.find key, now < session.expiresAt

variable {store now}

theorem find_of_get (h : store.sessions.get key = some ref) :
    ∃ session, store.objects[ref]? = some session ∧ store.find key = some session ∧
      session.wireguardPublicKey = key := by
  obtain ⟨session, hs, hkey⟩ := store.held key ref h
  exact ⟨session, hs, by simp [find, h, Option.mem_def.mp hs], hkey⟩

theorem find_eq {store : SessionStore} (hget : store.sessions.get key = some ref)
    (hobj : store.objects[ref]? = some session) : store.find key = some session := by
  simp [find, hget, hobj]

theorem getSession_some :
    store.getSession now key = some session ↔
      store.find key = some session ∧ now < session.expiresAt := by
  unfold getSession
  cases store.find key with
  | none => simp
  | some found =>
    by_cases he : found.expiresAt ≤ now
    · simp only [if_pos he, reduceCtorEq, Option.some.injEq, false_iff, not_and, not_lt]
      rintro rfl
      exact he
    · simp only [if_neg he, Option.some.injEq, iff_self_and]
      rintro rfl
      exact not_le.mp he

theorem getSession_active : (store.getSession now key).isSome ↔ store.Active now key := by
  simp [Option.isSome_iff_exists, getSession_some, Active]

theorem createSession_ok {store : SessionStore} (h : ¬ store.Active now key) :
    store.createSession now key minutes boringtun payer =
      .ok (store.insert (newSession now key minutes boringtun payer),
        newSession now key minutes boringtun payer) := by
  unfold createSession
  cases hf : store.find key with
  | none => rfl
  | some existing =>
    have he : ¬ now < existing.expiresAt := fun hlt => h ⟨existing, hf, hlt⟩
    simp [he]

theorem createSession_active {store : SessionStore} (h : store.Active now key) :
    store.createSession now key minutes boringtun payer =
      .error "Session already active for this WireGuard key. Use /renew instead." := by
  obtain ⟨existing, hf, hlt⟩ := h
  simp [createSession, Option.mem_def.mp hf, hlt]

theorem active_iff {store : SessionStore} :
    store.Active now key ↔ ∃ ref session, store.sessions.get key = some ref ∧
      store.objects[ref]? = some session ∧ now < session.expiresAt := by
  constructor
  · rintro ⟨session, hf, hlt⟩
    obtain ⟨ref, hget, hobj⟩ := Option.bind_eq_some_iff.mp hf
    exact ⟨ref, session, hget, hobj, hlt⟩
  · rintro ⟨ref, session, hget, hobj, hlt⟩
    exact ⟨session, find_eq hget hobj, hlt⟩

theorem renewSession_active {store : SessionStore} {now : Int}
    (hget : store.sessions.get key = some ref) (hobj : store.objects[ref]? = some session)
    (ha : now < session.expiresAt) :
    store.renewSession now key minutes = (store.modify ref minutes, .ok ref) := by
  simp [renewSession, hget, hobj, not_le.mpr ha]

theorem renewSession_inactive {store : SessionStore} (minutes : Int) (h : ¬ store.Active now key) :
    ∃ message, store.renewSession now key minutes =
      (if (store.sessions.get key).isSome then store.delete key else store, .error message) := by
  unfold renewSession
  cases hget : store.sessions.get key with
  | none => exact ⟨_, rfl⟩
  | some ref =>
    obtain ⟨session, hobj, hf, -⟩ := find_of_get hget
    have he : session.expiresAt ≤ now := not_lt.mp fun hlt => h ⟨session, hf, hlt⟩
    refine ⟨"Session expired. Call /connect to start a new session.", ?_⟩
    simp [hobj, he]

theorem find_insert (store : SessionStore) (session : VpnSession) (key : String) :
    (store.insert session).find key =
      if key = session.wireguardPublicKey then some session else store.find key := by
  simp only [find, insert, OrderedMap.get_set]
  split
  · simp
  · cases hget : store.sessions.get key with
    | none => rfl
    | some ref =>
      obtain ⟨old, hold, -⟩ := store.held key ref hget
      have hlt := (List.getElem?_eq_some_iff.mp hold).1
      simp [List.getElem?_append_left hlt]

theorem find_delete (store : SessionStore) (gone key : String) :
    (store.delete gone).find key = if key = gone then none else store.find key := by
  simp only [find, delete, OrderedMap.get_delete]
  split <;> rfl

/-- An object is written to under the one key that refers to it. -/
theorem find_modify {store : SessionStore} (hget : store.sessions.get owner = some ref)
    (minutes : Int) (key : String) :
    (store.modify ref minutes).find key =
      if key = owner then (store.find key).map (·.extend minutes) else store.find key := by
  obtain ⟨session, hobj, hkey⟩ := store.held owner ref hget
  split
  · rename_i howner
    subst howner
    simp [find, modify, hget]
  · rename_i hne
    cases hother : store.sessions.get key with
    | none => simp [find, modify, hother]
    | some other =>
      obtain ⟨session', hobj', hkey'⟩ := store.held key other hother
      have href : ref ≠ other := by
        rintro rfl
        obtain rfl := Option.some.inj (hobj.symm.trans hobj')
        exact hne (hkey'.symm.trans hkey)
      simp [find, modify, hother, href]

theorem mem_listExpired {store : SessionStore} {now : Int} : ref ∈ store.listExpired now ↔
    ∃ key session, store.sessions.get key = some ref ∧ store.find key = some session ∧
      session.expiresAt ≤ now := by
  rw [listExpired, List.mem_filter, OrderedMap.mem_values]
  constructor
  · rintro ⟨⟨key, hget⟩, hexpired⟩
    obtain ⟨session, hobj, hfind, -⟩ := find_of_get hget
    rw [hobj] at hexpired
    exact ⟨key, session, hget, hfind, by simpa using hexpired⟩
  · rintro ⟨key, session, hget, hfind, hexpired⟩
    obtain ⟨session', hobj, hfind', -⟩ := find_of_get hget
    obtain rfl := Option.some.inj (hfind.symm.trans hfind')
    exact ⟨⟨key, hget⟩, by simpa [hobj] using hexpired⟩

-- ---------------------------------------------------------------------------
-- References
-- ---------------------------------------------------------------------------

/-- The map has the session. -/
def Stored (store : SessionStore) (ref : Nat) : Prop := ∃ key, store.sessions.get key = some ref

def keyAt (store : SessionStore) (ref : Nat) : Option String :=
  (store.objects[ref]?).map (·.wireguardPublicKey)

/-- What one call of a handler or a worker does to the store. -/
inductive Write (store : SessionStore) : SessionStore → Prop
  | none : Write store store
  | insert (session : VpnSession) : Write store (store.insert session)
  | modify (ref : Nat) (minutes : Int) : Write store (store.modify ref minutes)
  | delete (key : String) : Write store (store.delete key)

theorem keyAt_of_get {store : SessionStore} (h : store.sessions.get key = some ref) :
    store.keyAt ref = some key := by
  obtain ⟨session, hobj, -, hkey⟩ := find_of_get h
  rw [keyAt, hobj, Option.map_some, hkey]

theorem stored_iff {store : SessionStore} (h : store.keyAt ref = some key) :
    store.Stored ref ↔ store.sessions.get key = some ref := by
  constructor
  · rintro ⟨key', hget⟩
    cases h.symm.trans (keyAt_of_get hget)
    exact hget
  · exact fun hget => ⟨key, hget⟩

theorem stored_delete {store : SessionStore} (h : store.keyAt ref = some key) (gone : String) :
    (store.delete gone).Stored ref ↔ key ≠ gone ∧ store.Stored ref := by
  have h' : (store.delete gone).keyAt ref = some key := h
  rw [stored_iff h', stored_iff h, delete, OrderedMap.get_delete]
  split <;> simp [*]

theorem Write.keyAt {store store' : SessionStore} (h : Write store store')
    (hkey : store.keyAt ref = some key) : store'.keyAt ref = some key := by
  obtain ⟨session, hobj, rfl⟩ := Option.map_eq_some_iff.mp hkey
  cases h with
  | none | delete => exact hkey
  | insert session' =>
    have hlt := (List.getElem?_eq_some_iff.mp hobj).1
    simp [SessionStore.keyAt, SessionStore.insert, List.getElem?_append_left hlt, hobj]
  | modify ref' minutes =>
    by_cases hr : ref' = ref
    · simp [SessionStore.keyAt, SessionStore.modify, hr, hobj, VpnSession.extend]
    · simp [SessionStore.keyAt, SessionStore.modify, hr, hobj]

theorem Write.stored {store store' : SessionStore} (h : Write store store')
    (hkey : store.keyAt ref = some key) (hs : store'.Stored ref) : store.Stored ref := by
  obtain ⟨key', hget⟩ := hs
  cases h with
  | none | modify => exact ⟨key', hget⟩
  | delete gone =>
    rw [SessionStore.delete, OrderedMap.get_delete] at hget
    split at hget
    · cases hget
    · exact ⟨key', hget⟩
  | insert session =>
    rw [SessionStore.insert, OrderedMap.get_set] at hget
    split at hget
    · obtain ⟨session', hobj, -⟩ := Option.map_eq_some_iff.mp hkey
      have hlt := (List.getElem?_eq_some_iff.mp hobj).1
      cases hget
      exact absurd hlt (lt_irrefl _)
    · exact ⟨key', hget⟩

end SessionStore

end Xelt.VpnServer
