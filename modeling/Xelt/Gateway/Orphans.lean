import Xelt.Gateway.Provisioning

/-!
# Peers without a session

The VPN server with what its calls have come to in boringtun. A call takes
effect or does not, at any time until it is answered, and may be answered
with an error either way. A peer is looked after as long as its key is in the
session store, or a call that will put it there or drop it is on its way.
-/

namespace Xelt.Gateway

open Runs Boringtun Boringtun.HttpApi VpnServer

/-- Who waits for an answer of boringtun. -/
inductive Caller
  | request (r : Nat)
  | clear (c : Nat)
  | tick (t : Nat)
  deriving DecidableEq

/-- `registerWireGuardPeer` or `unregisterWireGuardPeer` of a key. -/
inductive PeerCall
  | register (wgKey : String)
  | unregister (wgKey : String)

/-- Who looks after a peer: an entry of the store, a connect that waits for
its registration, or a call to unregister it that has not taken effect. -/
inductive Owner
  | entry (wgKey : String)
  | request (r : Nat)
  | clear (c : Nat)
  | tick (t ref : Nat)
  deriving DecidableEq

def clearedKey (body : Option RequestBody) : Option String :=
  match body.map fun body => trim? body.wireguardPublicKey with
  | some (.ok (some wgKey)) => if wgKey = "" then none else some wgKey
  | _ => none

structure Peering where
  server : Server
  /-- The keys registered by a call of the server, and not unregistered by one. -/
  registered : Finset Bytes32
  /-- The clear handlers that wait for boringtun, with their key. -/
  clears : Nat → Option String
  /-- The call that is waited for, or was last, has taken effect. -/
  carriedOut : Caller → Bool

namespace Peering

inductive Input
  | elapse (ms : Nat)
  | request (r : Nat) (route : Route) (body : RequestBody) (proof : Option Proof)
  /-- Anything a request waits for but boringtun. -/
  | event (r : Nat) (e : Event)
  | clear (c : Nat) (body : Option RequestBody)
  | tick (t : Nat)
  /-- boringtun carries out the call. -/
  | carryOut (caller : Caller)
  | registered (r : Nat) (outcome : Except String BoringtunRegisterResponse)
  | cleared (c : Nat) (outcome : Except String Unit)
  | unregistered (t : Nat) (outcome : Except String Unit)

def init (start : Int) : Peering where
  server := .init start
  registered := ∅
  clears _ := none
  carriedOut _ := false

def keyAt (g : Peering) (ref : Nat) : Option String :=
  (g.server.store.objects[ref]?).map (·.wireguardPublicKey)

def call (g : Peering) : Caller → Option PeerCall
  | .request r =>
    match g.server.requests r with
    | some (.connecting q _ _) | some (.renewing q _ _) => some (.register q.wgKey)
    | _ => none
  | .clear c => (g.clears c).map .unregister
  | .tick t => ((g.server.ticks t).head?.bind g.keyAt).map .unregister

section
variable (cfg : VpnServer.ServerConfig) (base64Decode : String → Option Bytes)

def serverStep (g : Peering) (i : VpnServer.Input) : Option Peering :=
  (g.server.step cfg i).map fun server => { g with server }

/-- A call that is answered without an error has been carried out. -/
def answerable (g : Peering) (caller : Caller) (outcome : Except String α) : Bool :=
  !outcome.isOk || g.carriedOut caller

def step (g : Peering) : Input → Option Peering
  | .elapse ms => g.serverStep cfg (.elapse ms)
  | .request r route body proof => g.serverStep cfg (.request r route body proof)
  | .event _ (.registered _) => none
  | .event r e => g.serverStep cfg (.event r e)
  | .tick t => g.serverStep cfg (.tick t)
  | .clear c body =>
    if g.clears c = none then
      (g.serverStep cfg (.clear body)).map fun g =>
        { g with
          clears := Function.update g.clears c (clearedKey body)
          carriedOut := Function.update g.carriedOut (.clear c) false }
    else none
  | .carryOut caller =>
    if g.carriedOut caller then none
    else match g.call caller with
      | some (.register wgKey) => (keyOf base64Decode wgKey).map fun key =>
          { g with
            registered := insert key g.registered
            carriedOut := Function.update g.carriedOut caller true }
      | some (.unregister wgKey) => (keyOf base64Decode wgKey).map fun key =>
          { g with
            registered := g.registered.erase key
            carriedOut := Function.update g.carriedOut caller true }
      | none => none
  | .registered r outcome =>
    if g.answerable (.request r) outcome then
      g.serverStep cfg (.event r (.registered outcome))
    else none
  | .cleared c outcome =>
    -- the handler warns of an error and goes on
    if (g.clears c).isSome && g.answerable (.clear c) outcome then
      some { g with clears := Function.update g.clears c none }
    else none
  | .unregistered t outcome =>
    if g.answerable (.tick t) outcome then
      (g.serverStep cfg (.unregistered t outcome)).map fun g =>
        { g with carriedOut := Function.update g.carriedOut (.tick t) false }
    else none

/-- The store has an entry for the peer, expired or not. -/
def HasEntry (g : Peering) (key : Bytes32) : Prop :=
  ∃ wgKey, (g.server.store.sessions.get wgKey).isSome ∧ keyOf base64Decode wgKey = some key

def Owns (g : Peering) (key : Bytes32) : Owner → Prop
  | .entry wgKey => (g.server.store.sessions.get wgKey).isSome ∧ keyOf base64Decode wgKey = some key
  | .request r => ∃ q minutes payer, g.server.requests r = some (.connecting q minutes payer) ∧
      keyOf base64Decode q.wgKey = some key
  | .clear c => g.carriedOut (.clear c) = false ∧ ∃ wgKey, g.clears c = some wgKey ∧
      keyOf base64Decode wgKey = some key
  | .tick t ref =>
      ref ∈ (if g.carriedOut (.tick t) then (g.server.ticks t).tail else g.server.ticks t) ∧
      ∃ wgKey, g.keyAt ref = some wgKey ∧ keyOf base64Decode wgKey = some key

/-- Those a step takes from the keys they own: the entry a renewal finds
expired behind its payment, a connect that fails, the call of a clear handler
or of a tick that is answered, and the entry the tick then deletes. -/
def givesUp (g : Peering) : Input → List Owner
  | .event r .verified =>
    match g.server.requests r with
    | some (.verifying q (.done (.ok v))) =>
      if v.ok && q.route = .renew && (g.server.store.getSession g.server.now q.wgKey).isNone then
        [.entry q.wgKey]
      else []
    | _ => []
  | .registered r (.error _) => [.request r]
  | .cleared c _ => [.clear c]
  | .unregistered t (.error _) => (g.server.ticks t).head?.toList.map (.tick t)
  | .unregistered t (.ok _) =>
    (g.server.ticks t).head?.toList.flatMap fun ref =>
      .tick t ref :: (g.keyAt ref).toList.map .entry
  | _ => []

def renewedKey (g : Peering) : Input → Option String
  | .carryOut (.request r) =>
    match g.server.requests r with
    | some (.renewing q _ _) => some q.wgKey
    | _ => none
  | _ => none

/-- A registered key that loses an owner has another, and a renewal registers
a key that has one. -/
structure Hands (g : Peering) (i : Input) : Prop where
  handed : ∀ key ∈ g.registered, (∃ owner ∈ g.givesUp i, g.Owns base64Decode key owner) →
    ∃ owner ∉ g.givesUp i, g.Owns base64Decode key owner
  renewed : ∀ wgKey ∈ g.renewedKey i, ∀ key ∈ keyOf base64Decode wgKey,
    ∃ owner, g.Owns base64Decode key owner

/-- No request, clear handler or tick is in progress. -/
structure Quiet (g : Peering) : Prop where
  requests : ∀ r phase, g.server.requests r = some phase → ∃ response, phase = .answered response
  clears : ∀ c, g.clears c = none
  ticks : ∀ t, g.server.ticks t = []

end

-- ---------------------------------------------------------------------------
-- What a step leaves of the owners
-- ---------------------------------------------------------------------------

section
variable {cfg : VpnServer.ServerConfig} {base64Decode : String → Option Bytes}
  {g g' : Peering} {server : Server}

/-- Every registered key is looked after. -/
structure Owned (cfg : VpnServer.ServerConfig) (base64Decode : String → Option Bytes)
    (g : Peering) : Prop where
  sound : g.server.Sound cfg
  owner : ∀ key ∈ g.registered, ∃ owner, g.Owns base64Decode key owner

theorem clearSession_eq (store : SessionStore) (body : Option RequestBody) :
    Server.clearSession store body = match clearedKey body with
      | some wgKey => store.delete wgKey
      | none => store := by
  cases body with
  | none => rfl
  | some fields =>
    simp only [Server.clearSession, clearedKey, Option.map_some]
    cases trim? fields.wireguardPublicKey with
    | error e => rfl
    | ok trimmed =>
      cases trimmed with
      | none => rfl
      | some wgKey =>
        by_cases hkey : wgKey = ""
        · simp only [if_pos hkey]
        · simp only [if_neg hkey, SessionStore.deleteSession]

theorem keyAt_kept (hs : g.server.step cfg i = some server) (hkey : g.keyAt ref = some wgKey) :
    { g with server }.keyAt ref = some wgKey :=
  (Server.step_write hs).keyAt hkey

theorem ticks_kept (hs : g.server.step cfg i = some server) (href : ref ∈ g.server.ticks t)
    (hu : ∀ outcome, i ≠ .unregistered t outcome) : server.ticks t = g.server.ticks t := by
  refine Server.ticks_same hs ?_ hu
  rintro rfl
  obtain ⟨effs, hmove⟩ := Server.step_iff.mp hs
  simp only [Server.move, List.ne_nil_of_mem href, if_false] at hmove
  cases hmove

theorem connecting_kept (hi : g.server.Sound cfg) (hs : g.server.step cfg i = some server)
    (hr : g.server.requests r = some (.connecting q minutes payer))
    (hne : ∀ outcome, i ≠ .event r (.registered outcome)) :
    server.requests r = some (.connecting q minutes payer) := by
  have hstep := Server.step_request hi hs r
  generalize server.requests r = after at hstep
  generalize Tagged.select r (Server.effects cfg g.server i) = effs at hstep
  cases hstep with
  | idle => exact hr
  | refused hnone | arrived hnone => cases hnone.symm.trans hr
  | turned hphase hturn =>
    cases hphase.symm.trans hr
    cases hturn <;> exact absurd rfl (hne _)

/-- A step of the server leaves an owner as it is, but for an entry it
deletes and a call it answers. -/
theorem owns_kept (hi : g.server.Sound cfg) (hs : g.server.step cfg i = some server)
    (ho : g.Owns base64Decode key owner)
    (hentry : ∀ wgKey, owner = .entry wgKey → (g.server.store.sessions.get wgKey).isSome →
      (server.store.sessions.get wgKey).isSome)
    (hrequest : ∀ r outcome, owner = .request r → i ≠ .event r (.registered outcome))
    (htick : ∀ t ref outcome, owner = .tick t ref → i ≠ .unregistered t outcome) :
    { g with server }.Owns base64Decode key owner := by
  cases owner with
  | entry wgKey => exact ⟨hentry wgKey rfl ho.1, ho.2⟩
  | request r =>
    obtain ⟨q, minutes, payer, hr, hk⟩ := ho
    exact ⟨q, minutes, payer, connecting_kept hi hs hr fun outcome => hrequest r outcome rfl, hk⟩
  | clear c => exact ho
  | tick t ref =>
    obtain ⟨href, wgKey, hkey, hk⟩ := ho
    refine ⟨?_, wgKey, keyAt_kept hs hkey, hk⟩
    have hmem : ref ∈ g.server.ticks t := by
      split at href
      · exact List.mem_of_mem_tail href
      · exact href
    rw [ticks_kept hs hmem fun outcome => htick t ref outcome rfl]
    exact href

theorem verified_connect {result : Except String VerifyResult} (hroute : q.route = .connect)
    (h : serve cfg now spent store (.verifying q (.done result)) .verified = some out) :
    out.store = store := by
  cases result with
  | error e =>
    cases h
    rfl
  | ok v =>
    simp only [serve, hroute] at h
    split at h
    · cases h
      rfl
    · split at h <;> cases h <;> rfl

/-- Of the requests behind their verification only a renewal deletes an
entry, that of its own key, and only when it is not active. -/
theorem entry_kept (hi : g.server.Sound cfg) (hs : g.server.step cfg (.event r e) = some server)
    (hne : ∀ outcome, e ≠ .registered outcome)
    (hg : .entry wgKey ∉ g.givesUp (.event r e))
    (hget : (g.server.store.sessions.get wgKey).isSome) :
    (server.store.sessions.get wgKey).isSome := by
  obtain ⟨phase, out, hphase, hserve, hturn, rfl⟩ := Server.step_turn hi hs
  cases hturn with
  | declined | priced | passed | paid | invalid | stopped | connecting | renewing => exact hget
  | unconnected | connected | renewed => exact absurd rfl (hne _)
  | dropped hc hr ha hst =>
    rename_i result q response
    obtain ⟨v, rfl⟩ : ∃ v, result = .ok v := by
      cases result with
      | error e => exact absurd hc (by simp [VerifyCall.Credited])
      | ok v => exact ⟨v, rfl⟩
    have hv : v.ok = true := by simpa [VerifyCall.Credited] using hc
    cases hroute : q.route with
    | connect =>
      have hsame : g.server.store.delete q.wgKey = g.server.store :=
        verified_connect hroute hserve
      simp only [hsame]
      exact hget
    | renew =>
      have hnone : g.server.store.getSession g.server.now q.wgKey = none := by
        rw [← Option.not_isSome_iff_eq_none, SessionStore.getSession_active]
        exact ha
      have hother : wgKey ≠ q.wgKey := by
        rintro rfl
        exact hg (by simp [givesUp, hphase, hv, hroute, hnone])
      simp only [SessionStore.delete, OrderedMap.get_delete, if_neg hother]
      exact hget

theorem registered_entry (hi : g.server.Sound cfg)
    (hs : g.server.step cfg (.event r (.registered outcome)) = some server)
    (hget : (g.server.store.sessions.get wgKey).isSome) :
    (server.store.sessions.get wgKey).isSome := by
  obtain ⟨phase, out, hphase, hserve, hturn, rfl⟩ := Server.step_turn hi hs
  cases hturn with
  | unconnected | renewed => exact hget
  | connected =>
    simp only [SessionStore.insert, OrderedMap.get_set]
    split
    · rfl
    · exact hget

theorem connected_entry (hs : g.server.step cfg (.event r (.registered (.ok data))) = some server)
    (hr : g.server.requests r = some (.connecting q minutes payer)) :
    (server.store.sessions.get q.wgKey).isSome := by
  obtain ⟨effs, hmove⟩ := Server.step_iff.mp hs
  obtain ⟨phase, out, hphase, hserve, rfl, -⟩ := Server.move_event.mp hmove
  cases hr.symm.trans hphase
  cases hserve
  simp only [connectRegistered]
  by_cases ha : g.server.store.Active g.server.now q.wgKey
  · obtain ⟨ref, session, hget, -, -⟩ := SessionStore.active_iff.mp ha
    simp only [SessionStore.createSession_active ha, VpnServer.answer, hget, Option.isSome_some]
  · simp [SessionStore.createSession_ok ha, VpnServer.answer, SessionStore.insert,
      SessionStore.newSession, OrderedMap.get_set]

-- ---------------------------------------------------------------------------
-- One case for each input
-- ---------------------------------------------------------------------------

theorem Owned.survivor (hi : Owned cfg base64Decode g) (hc : g.Hands base64Decode i)
    (hk : key ∈ g.registered) : ∃ owner ∉ g.givesUp i, g.Owns base64Decode key owner := by
  obtain ⟨owner, ho⟩ := hi.owner key hk
  by_cases hg : owner ∈ g.givesUp i
  · exact hc.handed key hk ⟨owner, hg, ho⟩
  · exact ⟨owner, hg, ho⟩

theorem Owned.hand (hi : Owned cfg base64Decode g) (hc : g.Hands base64Decode i)
    (hsound : g'.server.Sound cfg) (hsub : g'.registered ⊆ g.registered)
    (hleft : ∀ key ∈ g'.registered, ∀ owner ∉ g.givesUp i, g.Owns base64Decode key owner →
      ∃ owner, g'.Owns base64Decode key owner) : Owned cfg base64Decode g' where
  sound := hsound
  owner key hk := by
    obtain ⟨owner, hg, ho⟩ := hi.survivor hc (hsub hk)
    exact hleft key hk owner hg ho

theorem sessions_same (hs : Server.step cfg s i = some server)
    (hi : (∃ ms, i = .elapse ms) ∨ (∃ r route body proof, i = .request r route body proof) ∨
      ∃ t, i = .tick t) : server.store = s.store := by
  obtain ⟨effs, hmove⟩ := Server.step_iff.mp hs
  rcases hi with ⟨ms, rfl⟩ | ⟨r, route, body, proof, rfl⟩ | ⟨t, rfl⟩
  · cases hmove
    rfl
  · obtain ⟨-, phase, rfl, -⟩ := Server.move_request hmove
    rfl
  · obtain ⟨-, rfl, -⟩ := Server.move_tick hmove
    rfl

theorem serverStep_owned (hi : Owned cfg base64Decode g) (hc : g.Hands base64Decode i)
    (hs : g.serverStep cfg j = some g')
    (hentry : ∀ wgKey, .entry wgKey ∉ g.givesUp i → (g.server.store.sessions.get wgKey).isSome →
      (g'.server.store.sessions.get wgKey).isSome)
    (hrequest : ∀ r outcome, j = .event r (.registered outcome) → .request r ∈ g.givesUp i)
    (htick : ∀ t outcome, j ≠ .unregistered t outcome) : Owned cfg base64Decode g' := by
  obtain ⟨server, hserver, rfl⟩ := Option.map_eq_some_iff.mp hs
  refine hi.hand hc (Server.step_sound hi.sound hserver) (Finset.Subset.refl _)
    fun key hk owner hg ho => ⟨owner, owns_kept hi.sound hserver ho ?_ ?_ ?_⟩
  · rintro wgKey rfl
    exact hentry wgKey hg
  · rintro r outcome rfl hj
    exact hg (hrequest r outcome hj)
  · rintro t ref outcome -
    exact htick t outcome

theorem clear_owned (hi : Owned cfg base64Decode g) (hc : g.Hands base64Decode (.clear c body))
    (hs : g.step cfg base64Decode (.clear c body) = some g') : Owned cfg base64Decode g' := by
  simp only [step] at hs
  split at hs
  · rename_i hnone
    obtain ⟨g₁, hfirst, rfl⟩ := Option.map_eq_some_iff.mp hs
    obtain ⟨server, hserver, rfl⟩ := Option.map_eq_some_iff.mp hfirst
    have hstore : server.store = Server.clearSession g.server.store body := by
      obtain ⟨effs, hmove⟩ := Server.step_iff.mp hserver
      cases hmove
      rfl
    rw [clearSession_eq] at hstore
    refine hi.hand hc (Server.step_sound hi.sound hserver) (Finset.Subset.refl _)
      fun key hk owner hg ho => ?_
    by_cases hdeleted : ∃ wgKey, owner = .entry wgKey ∧ clearedKey body = some wgKey
    · -- the entry is gone, and the handler has its peer dropped
      obtain ⟨wgKey, rfl, hkey⟩ := hdeleted
      exact ⟨.clear c, by simp, wgKey, by simp [hkey], ho.2⟩
    · have hkept := owns_kept hi.sound hserver ho
        (fun wgKey howner hget => ?_) (fun _ _ _ => nofun) (fun _ _ _ _ => nofun)
      · refine ⟨owner, ?_⟩
        cases owner with
        | entry wgKey | request r | tick t ref => simpa [Owns, keyAt] using hkept
        | clear c' =>
          have hne : c' ≠ c := by
            rintro rfl
            obtain ⟨-, wgKey, hkey, -⟩ := ho
            cases hnone.symm.trans hkey
          simpa [Owns, Function.update_of_ne hne, hne] using hkept
      · rw [hstore]
        split
        · rename_i deleted hkey
          have hother : wgKey ≠ deleted := by
            rintro rfl
            exact hdeleted ⟨wgKey, howner, hkey⟩
          simp only [SessionStore.delete, OrderedMap.get_delete, if_neg hother]
          exact hget
        · exact hget
  · cases hs

theorem registers_owned (hi : Owned cfg base64Decode g)
    (hc : g.Hands base64Decode (.carryOut caller)) (hcall : g.call caller = some (.register wgKey))
    (hkey : keyOf base64Decode wgKey = some key) :
    Owned cfg base64Decode { g with
      registered := insert key g.registered
      carriedOut := Function.update g.carriedOut caller true } := by
  obtain ⟨r, rfl⟩ : ∃ r, caller = .request r := by
    cases caller with
    | request r => exact ⟨r, rfl⟩
    | clear c | tick t =>
      obtain ⟨_, -, hcall⟩ := Option.map_eq_some_iff.mp hcall
      cases hcall
  have hkept : ∀ k owner, g.Owns base64Decode k owner →
      Owns base64Decode { g with
        registered := insert key g.registered
        carriedOut := Function.update g.carriedOut (.request r) true } k owner := by
    intro k owner ho
    cases owner <;> simpa [Owns, keyAt] using ho
  refine ⟨hi.sound, fun k hk => ?_⟩
  rcases Finset.mem_insert.mp hk with rfl | hk
  · simp only [call] at hcall
    split at hcall
    · rename_i q minutes payer hr
      cases hcall
      exact ⟨.request r, q, minutes, payer, hr, hkey⟩
    · rename_i q ref minutes hr
      cases hcall
      obtain ⟨owner, ho⟩ := hc.renewed q.wgKey (by simp [renewedKey, hr]) k hkey
      exact ⟨owner, hkept k owner ho⟩
    · cases hcall
  · obtain ⟨owner, ho⟩ := hi.owner k hk
    exact ⟨owner, hkept k owner ho⟩

/-- Only the owners of the key it is about see a call to unregister it. -/
theorem unregisters_owned (hi : Owned cfg base64Decode g) (hout : ¬ g.carriedOut caller = true)
    (hcall : g.call caller = some (.unregister wgKey))
    (hkey : keyOf base64Decode wgKey = some key) :
    Owned cfg base64Decode { g with
      registered := g.registered.erase key
      carriedOut := Function.update g.carriedOut caller true } := by
  refine ⟨hi.sound, fun k hk => ?_⟩
  obtain ⟨hne, hk⟩ := Finset.mem_erase.mp hk
  obtain ⟨owner, ho⟩ := hi.owner k hk
  refine ⟨owner, ?_⟩
  cases owner with
  | entry wgKey' | request r => exact ho
  | clear c =>
    obtain ⟨hfalse, wgKey', hclear, hk'⟩ := ho
    have hother : Caller.clear c ≠ caller := by
      rintro rfl
      simp only [call, hclear, Option.map_some, Option.some.injEq, PeerCall.unregister.injEq]
        at hcall
      subst hcall
      exact hne (Option.some.inj (hk'.symm.trans hkey))
    exact ⟨by simpa [Function.update_of_ne hother] using hfalse, wgKey', hclear, hk'⟩
  | tick t ref =>
    obtain ⟨href, wgKey', hat, hk'⟩ := ho
    refine ⟨?_, wgKey', hat, hk'⟩
    by_cases hother : Caller.tick t = caller
    · subst hother
      simp only [hout, if_false, Function.update_self, if_true, Bool.false_eq_true] at href ⊢
      cases hticks : g.server.ticks t with
      | nil => simp [hticks] at href
      | cons ref₀ rest =>
        rw [hticks] at href
        rcases List.mem_cons.mp href with rfl | href
        · simp only [call, hticks, List.head?_cons, Option.bind_some, hat, Option.map_some,
            Option.some.injEq, PeerCall.unregister.injEq] at hcall
          subst hcall
          exact absurd (Option.some.inj (hk'.symm.trans hkey)) hne
        · exact href
    · simpa [Function.update_of_ne hother] using href

theorem carryOut_owned (hi : Owned cfg base64Decode g)
    (hc : g.Hands base64Decode (.carryOut caller))
    (hs : g.step cfg base64Decode (.carryOut caller) = some g') : Owned cfg base64Decode g' := by
  simp only [step] at hs
  split at hs
  · cases hs
  · rename_i hout
    split at hs
    · rename_i wgKey hcall
      obtain ⟨key, hkey, rfl⟩ := Option.map_eq_some_iff.mp hs
      exact registers_owned hi hc hcall hkey
    · rename_i wgKey hcall
      obtain ⟨key, hkey, rfl⟩ := Option.map_eq_some_iff.mp hs
      exact unregisters_owned hi hout hcall hkey
    · cases hs

theorem registered_owned (hi : Owned cfg base64Decode g)
    (hc : g.Hands base64Decode (.registered r outcome))
    (hs : g.step cfg base64Decode (.registered r outcome) = some g') :
    Owned cfg base64Decode g' := by
  simp only [step] at hs
  split at hs
  · have hstep := hs
    obtain ⟨server, hserver, rfl⟩ := Option.map_eq_some_iff.mp hs
    have hentry : ∀ wgKey, (g.server.store.sessions.get wgKey).isSome →
        (server.store.sessions.get wgKey).isSome :=
      fun wgKey => registered_entry hi.sound hserver
    cases outcome with
    | error e =>
      refine serverStep_owned hi hc hstep (fun wgKey _ => hentry wgKey) ?_ (fun _ _ => nofun)
      intro r' outcome hj
      cases hj
      exact List.mem_singleton_self _
    | ok data =>
      refine hi.hand hc (Server.step_sound hi.sound hserver) (Finset.Subset.refl _)
        fun key hk owner hg ho => ?_
      by_cases howner : owner = .request r
      · subst howner
        obtain ⟨q, minutes, payer, hr, hkey⟩ := ho
        exact ⟨.entry q.wgKey, connected_entry hserver hr, hkey⟩
      · refine ⟨owner, owns_kept hi.sound hserver ho (fun wgKey _ => hentry wgKey) ?_
          (fun _ _ _ _ => nofun)⟩
        rintro r' outcome rfl hj
        cases hj
        exact howner rfl
  · cases hs

theorem cleared_owned (hi : Owned cfg base64Decode g)
    (hc : g.Hands base64Decode (.cleared c outcome))
    (hs : g.step cfg base64Decode (.cleared c outcome) = some g') : Owned cfg base64Decode g' := by
  simp only [step] at hs
  split at hs
  · cases hs
    refine hi.hand hc hi.sound (Finset.Subset.refl _) fun key hk owner hg ho => ⟨owner, ?_⟩
    cases owner with
    | entry wgKey | request r | tick t ref => exact ho
    | clear c' =>
      have hne : c' ≠ c := by
        rintro rfl
        exact hg (List.mem_singleton_self _)
      simpa [Owns, Function.update_of_ne hne] using ho
  · cases hs

theorem unregistered_owned (hi : Owned cfg base64Decode g)
    (hc : g.Hands base64Decode (.unregistered t outcome))
    (hs : g.step cfg base64Decode (.unregistered t outcome) = some g') :
    Owned cfg base64Decode g' := by
  simp only [step] at hs
  split at hs
  · obtain ⟨g₁, hfirst, rfl⟩ := Option.map_eq_some_iff.mp hs
    obtain ⟨server, hserver, rfl⟩ := Option.map_eq_some_iff.mp hfirst
    obtain ⟨effs, hmove⟩ := Server.step_iff.mp hserver
    obtain ⟨ref₀, rest, hticks, hsame, hstore⟩ := Server.move_unregistered hmove
    refine hi.hand hc (Server.step_sound hi.sound hserver) (Finset.Subset.refl _)
      fun key hk owner hg ho => ⟨owner, ?_⟩
    by_cases howner : ∃ ref, owner = .tick t ref
    · obtain ⟨ref, rfl⟩ := howner
      obtain ⟨href, wgKey, hat, hkey⟩ := ho
      have hne : ref ≠ ref₀ := by
        rintro rfl
        refine hg ?_
        cases outcome <;> simp [givesUp, hticks]
      have hrest : ref ∈ rest := by
        rw [hticks] at href
        split at href
        · exact href
        · exact (List.mem_cons.mp href).resolve_left hne
      refine ⟨?_, wgKey, keyAt_kept hserver hat, hkey⟩
      rw [hsame]
      simpa using hrest
    · have hkept := owns_kept hi.sound hserver ho (fun wgKey hentry hget => ?_) (fun _ _ _ => nofun)
        (fun t' ref outcome' htick hj => ?_)
      · cases owner with
        | entry wgKey | request r | clear c => simpa [Owns] using hkept
        | tick t' ref =>
          have hne : t' ≠ t := by
            rintro rfl
            exact howner ⟨ref, rfl⟩
          simpa [Owns, keyAt, hne] using hkept
      · rcases hstore with hstore | ⟨rfl, session, hobj, hstore⟩
        · rw [hstore]
          exact hget
        · have hother : wgKey ≠ session.wireguardPublicKey := by
            rintro rfl
            exact hg (by simp [hentry, givesUp, hticks, keyAt, Option.mem_def.mp hobj])
          rw [hstore]
          simp only [SessionStore.delete, OrderedMap.get_delete, if_neg hother]
          exact hget
      · cases hj
        exact howner ⟨ref, htick⟩
  · cases hs

theorem step_owned (hi : Owned cfg base64Decode g) (hc : g.Hands base64Decode i)
    (hs : g.step cfg base64Decode i = some g') : Owned cfg base64Decode g' := by
  cases i with
  | elapse ms =>
    simp only [step] at hs
    refine serverStep_owned hi hc hs (fun wgKey _ hget => ?_) (fun _ _ => nofun) (fun _ _ => nofun)
    obtain ⟨server, hserver, rfl⟩ := Option.map_eq_some_iff.mp hs
    exact (sessions_same hserver (.inl ⟨ms, rfl⟩)).symm ▸ hget
  | request r route body proof =>
    simp only [step] at hs
    refine serverStep_owned hi hc hs (fun wgKey _ hget => ?_) (fun _ _ => nofun) (fun _ _ => nofun)
    obtain ⟨server, hserver, rfl⟩ := Option.map_eq_some_iff.mp hs
    exact (sessions_same hserver (.inr (.inl ⟨r, route, body, proof, rfl⟩))).symm ▸ hget
  | tick t =>
    simp only [step] at hs
    refine serverStep_owned hi hc hs (fun wgKey _ hget => ?_) (fun _ _ => nofun) (fun _ _ => nofun)
    obtain ⟨server, hserver, rfl⟩ := Option.map_eq_some_iff.mp hs
    exact (sessions_same hserver (.inr (.inr ⟨t, rfl⟩))).symm ▸ hget
  | event r e =>
    cases e with
    | registered outcome => cases hs
    | probed health | receipt receipt | verified =>
      simp only [step] at hs
      refine serverStep_owned hi hc hs (fun wgKey hg hget => ?_)
        (fun _ _ hj => by cases hj) (fun _ _ => nofun)
      obtain ⟨server, hserver, rfl⟩ := Option.map_eq_some_iff.mp hs
      exact entry_kept hi.sound hserver (fun _ => nofun) hg hget
  | clear c body => exact clear_owned hi hc hs
  | carryOut caller => exact carryOut_owned hi hc hs
  | registered r outcome => exact registered_owned hi hc hs
  | cleared c outcome => exact cleared_owned hi hc hs
  | unregistered t outcome => exact unregistered_owned hi hc hs

theorem init_owned (start : Int) : Owned cfg base64Decode (init start) where
  sound := Server.init_sound cfg start
  owner key hk := by cases hk

end

/-- In a run in which no step takes the last owner from a registered key,
every registered key has an entry once nothing is in progress. -/
theorem entries_kept (cfg : VpnServer.ServerConfig) (base64Decode : String → Option Bytes)
    (start : Int) (is : List Input)
    (hc : Along (step cfg base64Decode) (fun g i => g.Hands base64Decode i) (init start) is)
    (he : exec (step cfg base64Decode) (init start) is = some g) (hq : g.Quiet) :
    ∀ key ∈ g.registered, g.HasEntry base64Decode key := by
  intro key hk
  have hi := invariant (fun _ _ _ hi hc hs => step_owned hi hc hs) (init_owned start) hc he
  obtain ⟨owner, ho⟩ := hi.owner key hk
  cases owner with
  | entry wgKey => exact ⟨wgKey, ho⟩
  | request r =>
    obtain ⟨q, minutes, payer, hr, -⟩ := ho
    obtain ⟨response, hanswered⟩ := hq.requests r _ hr
    cases hanswered
  | clear c =>
    obtain ⟨-, wgKey, hclear, -⟩ := ho
    cases (hq.clears c).symm.trans hclear
  | tick t ref =>
    obtain ⟨href, -⟩ := ho
    simp [hq.ticks t] at href

-- ---------------------------------------------------------------------------
-- Sample runs
-- ---------------------------------------------------------------------------

/-- The request, clear handler or tick an input is about. -/
def Input.number : Input → Option Nat
  | .request n .. | .event n _ | .registered n _ | .clear n _ | .cleared n _ | .tick n
  | .unregistered n _ => some n
  | .elapse _ | .carryOut _ => none

def settled (g : Peering) (n : Nat) : Bool :=
  (match g.server.requests n with
    | none | some (.answered _) => true
    | _ => false) && g.clears n = none && g.server.ticks n = []

section
variable {cfg : VpnServer.ServerConfig} {base64Decode : String → Option Bytes}
  {g g' : Peering} {server : Server}

theorem serverStep_settled (hs : g.serverStep cfg i = some g') (hr : i.owner ≠ some n)
    (ht : i ≠ .tick n) (hu : ∀ outcome, i ≠ .unregistered n outcome) (hn : g.settled n) :
    g'.settled n := by
  obtain ⟨server, hserver, rfl⟩ := Option.map_eq_some_iff.mp hs
  simpa [settled, Server.requests_same hserver hr, Server.ticks_same hserver ht hu] using hn

theorem step_settled (hs : g.step cfg base64Decode i = some g') (hi : i.number ≠ some n)
    (hn : g.settled n) : g'.settled n := by
  cases i with
  | elapse ms => exact serverStep_settled hs nofun nofun (fun _ => nofun) hn
  | request r route body proof => exact serverStep_settled hs hi nofun (fun _ => nofun) hn
  | event r e =>
    cases e with
    | registered outcome => cases hs
    | probed health | receipt receipt | verified =>
      exact serverStep_settled hs hi nofun (fun _ => nofun) hn
  | tick t =>
    exact serverStep_settled hs nofun (fun h => hi (by cases h; rfl)) (fun _ => nofun) hn
  | clear c body =>
    simp only [step] at hs
    split at hs
    · obtain ⟨g₁, hfirst, rfl⟩ := Option.map_eq_some_iff.mp hs
      have hne : n ≠ c := fun h => hi (h ▸ rfl)
      have hn := serverStep_settled hfirst nofun nofun (fun _ => nofun) hn
      simpa [settled, Function.update_of_ne hne] using hn
    · cases hs
  | carryOut caller =>
    simp only [step] at hs
    split at hs
    · cases hs
    · split at hs
      · obtain ⟨key, -, rfl⟩ := Option.map_eq_some_iff.mp hs
        exact hn
      · obtain ⟨key, -, rfl⟩ := Option.map_eq_some_iff.mp hs
        exact hn
      · cases hs
  | registered r outcome =>
    simp only [step] at hs
    split at hs
    · exact serverStep_settled hs hi nofun (fun _ => nofun) hn
    · cases hs
  | cleared c outcome =>
    have hne : n ≠ c := fun h => hi (h ▸ rfl)
    simp only [step] at hs
    split at hs <;> cases hs
    simpa [settled, Function.update_of_ne hne] using hn
  | unregistered t outcome =>
    simp only [step] at hs
    split at hs
    · obtain ⟨g₁, hfirst, rfl⟩ := Option.map_eq_some_iff.mp hs
      have hn := serverStep_settled hfirst nofun nofun (fun _ h => hi (by cases h; rfl)) hn
      simpa [settled] using hn
    · cases hs

theorem quiet_of_settled {start : Int}
    (he : exec (step cfg base64Decode) (init start) is = some g)
    (hn : ∀ n ∈ is.filterMap Input.number, g.settled n) : g.Quiet := by
  have hall : ∀ n, g.settled n := by
    intro n
    by_cases hmem : n ∈ is.filterMap Input.number
    · exact hn n hmem
    · have hother : Along (step cfg base64Decode) (fun _ i => i.number ≠ some n) (init start) is :=
        along_iff_at.mpr fun pre i post t hsplit _ hi =>
          hmem (List.mem_filterMap.mpr ⟨i, by rw [hsplit]; simp, hi⟩)
      exact invariant (I := fun g => g.settled n = true)
        (fun _ _ _ hg hi hs => step_settled hs hi hg) rfl hother he
  have hparts : ∀ n, _ := fun n => by simpa [settled] using hall n
  refine ⟨fun r phase hr => ?_, fun c => (hparts c).1.2, fun t => (hparts t).2⟩
  have hsettled := (hparts r).1.1
  rw [hr] at hsettled
  cases phase with
  | answered response => exact ⟨response, rfl⟩
  | probing | verifying | connecting | renewing => cases hsettled

end

/-- A request up to its call of boringtun, some milliseconds into its payment. -/
def samplePaid (r : Nat) (route : Route) (hash : String) (ms : Nat) : List Input :=
  [.request r route sampleBody (some (sampleProof hash)), .event r (.probed (.ok ())), .elapse ms,
    .event r (.receipt (some sampleReceipt)), .event r .verified]

/-- A session that expires and is removed, and another one for its key. -/
def sampleTwice : List Input :=
  samplePaid 0 .connect sampleHash 0 ++
    [.carryOut (.request 0), .registered 0 (.ok sampleRegistered), .elapse 300000, .tick 1,
      .carryOut (.tick 1), .unregistered 1 (.ok ())] ++
    samplePaid 2 .connect sampleHash₂ 0 ++
    [.carryOut (.request 2), .registered 2 (.ok sampleRegistered)]

theorem entries_kept_sample :
    ∃ g, exec (step sampleServerConfig sampleDecode) (init 0) sampleTwice = some g ∧
      samplePeerKey ∈ g.registered ∧ g.HasEntry sampleDecode samplePeerKey := by
  have hrun : ((exec (step sampleServerConfig sampleDecode) (init 0) sampleTwice).map fun g =>
      (decide (samplePeerKey ∈ g.registered),
        (sampleTwice.filterMap Input.number).all g.settled)) = some (true, true) := by
    decide +kernel
  have hgives : Along (step sampleServerConfig sampleDecode)
      (fun g i => (g.givesUp i = [] ∨ g.registered = ∅) ∧ g.renewedKey i = none)
      (init 0) sampleTwice := by
    decide +kernel
  have hc : Along (step sampleServerConfig sampleDecode) (fun g i => g.Hands sampleDecode i)
      (init 0) sampleTwice := by
    refine Along.imp (fun g i h => ⟨fun key hk hlost => ?_, ?_⟩) hgives
    · obtain ⟨owner, hmem, -⟩ := hlost
      rcases h.1 with hnil | hempty
      · simp [hnil] at hmem
      · simp [hempty] at hk
    · simp [h.2]
  obtain ⟨g, he, hg⟩ := Option.map_eq_some_iff.mp hrun
  simp only [Prod.mk.injEq, decide_eq_true_eq, List.all_eq_true] at hg
  exact ⟨g, he, hg.1, entries_kept _ _ _ _ hc he (quiet_of_settled he hg.2) _ hg.1⟩

/-- The run comes to rest with a registered key that has no entry. -/
def Orphans (is : List Input) : Prop :=
  ∃ g, exec (step sampleServerConfig sampleDecode) (init 0) is = some g ∧ g.Quiet ∧
    ∃ key ∈ g.registered, ¬ g.HasEntry sampleDecode key

theorem orphans_of_exec
    (h : ((exec (step sampleServerConfig sampleDecode) (init 0) is).map fun g =>
      (decide (samplePeerKey ∈ g.registered), g.server.store.sessions.entries,
        (is.filterMap Input.number).all g.settled)) = some (true, [], true)) : Orphans is := by
  obtain ⟨g, he, hg⟩ := Option.map_eq_some_iff.mp h
  simp only [Prod.mk.injEq, decide_eq_true_eq, List.all_eq_true] at hg
  obtain ⟨hk, hempty, hsettled⟩ := hg
  refine ⟨g, he, quiet_of_settled he hsettled, samplePeerKey, hk, ?_⟩
  rintro ⟨wgKey, hget, -⟩
  simp [OrderedMap.get, hempty] at hget

/-- A renewal whose session expires while its payment is verified, with no
call failing; a connect whose call takes effect and fails; and a cleared
session whose call does not get through. -/
theorem orphaned :
    Orphans (samplePaid 0 .connect sampleHash 0 ++
        [.carryOut (.request 0), .registered 0 (.ok sampleRegistered)] ++
        samplePaid 1 .renew sampleHash₂ 300000) ∧
      Orphans (samplePaid 0 .connect sampleHash 0 ++
        [.carryOut (.request 0), .registered 0 (.error "fetch failed")]) ∧
      Orphans (samplePaid 0 .connect sampleHash 0 ++
        [.carryOut (.request 0), .registered 0 (.ok sampleRegistered),
          .clear 1 (some sampleBody), .cleared 1 (.error "fetch failed")]) := by
  refine ⟨orphans_of_exec ?_, orphans_of_exec ?_, orphans_of_exec ?_⟩ <;> decide +kernel

end Peering

end Xelt.Gateway
