import Xelt.Gateway.Orphans
import Xelt.Gateway.Sessions

/-!
# Spellings of a key

The store knows a peer by the text of its key, boringtun by the bytes. Two
sessions are of two peers as long as no connect opens one under a second
spelling, and a removal of the expiry worker is of no active session's peer
as long as none is opened for what it has still to remove.
-/

namespace Xelt.Gateway

open Runs Boringtun Boringtun.HttpApi VpnServer

namespace Peering

/-- The store has a session of the key that has not expired. -/
def ActiveAt (g : Peering) (wgKey : String) : Prop := g.server.store.Active g.server.now wgKey

section
variable (cfg : VpnServer.ServerConfig) (base64Decode : String → Option Bytes)

def PeerActive (g : Peering) (key : Bytes32) : Prop :=
  ∃ wgKey, g.ActiveAt wgKey ∧ keyOf base64Decode wgKey = some key

def IsOf (g : Peering) (ref : Nat) (key : Bytes32) : Prop :=
  ∃ wgKey, g.keyAt ref = some wgKey ∧ keyOf base64Decode wgKey = some key

/-- The sessions a tick has still to have boringtun drop the peers of. -/
def removals (g : Peering) (t : Nat) : List Nat :=
  if g.carriedOut (.tick t) then (g.server.ticks t).tail else g.server.ticks t

/-- Active sessions are of different peers, and the expiry worker has still to
drop the peer of none. -/
structure Apart (g : Peering) : Prop where
  sessions : ∀ wgKey₁ wgKey₂, g.ActiveAt wgKey₁ → g.ActiveAt wgKey₂ → wgKey₁ ≠ wgKey₂ →
    ∃ key₁ key₂, keyOf base64Decode wgKey₁ = some key₁ ∧ keyOf base64Decode wgKey₂ = some key₂ ∧
      key₁ ≠ key₂
  removals : ∀ t, ∀ ref ∈ g.removals t, ∀ key, g.IsOf base64Decode ref key →
    ¬ g.PeerActive base64Decode key

def StaysApart (start : Int) (is : List Input) : Prop :=
  ∀ pre post g, is = pre ++ post → exec (step cfg base64Decode) (init start) pre = some g →
    g.Apart base64Decode

/-- The key a registered connect opens a session for. -/
def opened (g : Peering) : Input → Option String
  | .registered r (.ok _) =>
    match g.server.requests r with
    | some (.connecting q minutes _) =>
      if g.carriedOut (.request r) ∧ 0 < minutes ∧
          g.server.store.getSession g.server.now q.wgKey = none then
        some q.wgKey
      else none
    | _ => none
  | _ => none

def listed (g : Peering) : Input → List Nat
  | .tick t => if g.server.ticks t = [] then g.server.store.listExpired g.server.now else []
  | _ => []

/-- The peer of a session that opens has no active session under another
spelling and none that is still to be removed, and the worker lists none of a
peer with an active session. -/
structure Spells (g : Peering) (i : Input) : Prop where
  opened : ∀ wgKey ∈ g.opened i, ∀ key ∈ keyOf base64Decode wgKey,
    ¬ g.PeerActive base64Decode key ∧
      ∀ t, ∀ ref ∈ g.removals t, ¬ g.IsOf base64Decode ref key
  listed : ∀ ref ∈ g.listed i, ∀ key, g.IsOf base64Decode ref key →
    ¬ g.PeerActive base64Decode key

end

-- ---------------------------------------------------------------------------
-- What a step opens and lists
-- ---------------------------------------------------------------------------

def Input.server : Input → Option VpnServer.Input
  | .elapse ms => some (.elapse ms)
  | .request r route body proof => some (.request r route body proof)
  | .event r e => some (.event r e)
  | .clear _ body => some (.clear body)
  | .tick t => some (.tick t)
  | .registered r outcome => some (.event r (.registered outcome))
  | .unregistered t outcome => some (.unregistered t outcome)
  | .carryOut _ | .cleared _ _ => none

/-- The calls that have been carried out behind a step. -/
def carriedAfter (g : Peering) : Input → Caller → Bool
  | .clear c _ => Function.update g.carriedOut (.clear c) false
  | .carryOut caller => Function.update g.carriedOut caller true
  | .unregistered t _ => Function.update g.carriedOut (.tick t) false
  | _ => g.carriedOut

def Enabled (base64Decode : String → Option Bytes) (g : Peering) : Input → Prop
  | .carryOut caller => ∃ wgKey, (keyOf base64Decode wgKey).isSome ∧
      (g.call caller = some (.register wgKey) ∨ g.call caller = some (.unregister wgKey))
  | .registered r (.ok _) => g.carriedOut (.request r) = true
  | .event _ (.registered _) => False
  | _ => True

/-- What a step is, of the server and of the calls. -/
structure Stepped (cfg : VpnServer.ServerConfig) (base64Decode : String → Option Bytes)
    (g : Peering) (i : Input) (g' : Peering) : Prop where
  server : match i.server with
    | some j => g.server.step cfg j = some g'.server
    | none => g'.server = g.server
  carriedOut : g'.carriedOut = g.carriedAfter i
  enabled : g.Enabled base64Decode i

section
variable {cfg : VpnServer.ServerConfig} {base64Decode : String → Option Bytes}
  {g g' : Peering} {server : Server} {i : Input}

theorem serverStep_server (hs : g.serverStep cfg j = some g') :
    g.server.step cfg j = some g'.server ∧ g'.carriedOut = g.carriedOut := by
  obtain ⟨server, hserver, rfl⟩ := Option.map_eq_some_iff.mp hs
  exact ⟨hserver, rfl⟩

theorem stepped (hs : g.step cfg base64Decode i = some g') : Stepped cfg base64Decode g i g' := by
  cases i with
  | elapse ms | request r route body proof | tick t =>
    obtain ⟨hserver, hcarried⟩ := serverStep_server hs
    exact ⟨hserver, hcarried, trivial⟩
  | event r e =>
    cases e with
    | registered outcome => cases hs
    | probed health | receipt receipt | verified =>
      obtain ⟨hserver, hcarried⟩ := serverStep_server hs
      exact ⟨hserver, hcarried, trivial⟩
  | clear c body =>
    simp only [step] at hs
    split at hs
    · obtain ⟨g₁, hfirst, rfl⟩ := Option.map_eq_some_iff.mp hs
      obtain ⟨hserver, hcarried⟩ := serverStep_server hfirst
      exact ⟨hserver, by simp only [hcarried, carriedAfter], trivial⟩
    · cases hs
  | carryOut caller =>
    simp only [step] at hs
    split at hs
    · cases hs
    · split at hs
      · rename_i wgKey hcall
        obtain ⟨key, hkey, rfl⟩ := Option.map_eq_some_iff.mp hs
        exact ⟨rfl, rfl, wgKey, Option.isSome_of_eq_some hkey, .inl hcall⟩
      · rename_i wgKey hcall
        obtain ⟨key, hkey, rfl⟩ := Option.map_eq_some_iff.mp hs
        exact ⟨rfl, rfl, wgKey, Option.isSome_of_eq_some hkey, .inr hcall⟩
      · cases hs
  | registered r outcome =>
    simp only [step] at hs
    split at hs
    · rename_i hanswer
      obtain ⟨hserver, hcarried⟩ := serverStep_server hs
      refine ⟨hserver, hcarried, ?_⟩
      cases outcome with
      | error e => trivial
      | ok data =>
        change g.carriedOut (.request r) = true
        simpa [answerable, Except.isOk, Except.toBool] using hanswer
    · cases hs
  | cleared c outcome =>
    simp only [step] at hs
    split at hs <;> cases hs
    exact ⟨rfl, rfl, trivial⟩
  | unregistered t outcome =>
    simp only [step] at hs
    split at hs
    · obtain ⟨g₁, hfirst, rfl⟩ := Option.map_eq_some_iff.mp hs
      obtain ⟨hserver, hcarried⟩ := serverStep_server hfirst
      exact ⟨hserver, by simp only [hcarried, carriedAfter], trivial⟩
    · cases hs

-- ---------------------------------------------------------------------------
-- Which sessions are active
-- ---------------------------------------------------------------------------

/-- A session is active behind a step when it was so before, or the step has
opened it. -/
theorem server_active {s s' : Server} (hi : s.Sound cfg) (hs : Server.step cfg s j = some s')
    (ha : s'.store.Active s'.now wgKey) :
    s.store.Active s.now wgKey ∨ ∃ r data q minutes payer, j = .event r (.registered (.ok data)) ∧
      s.requests r = some (.connecting q minutes payer) ∧ wgKey = q.wgKey ∧ 0 < minutes ∧
        ¬ s.store.Active s.now q.wgKey := by
  obtain ⟨effs, hmove⟩ := Server.step_iff.mp hs
  cases j with
  | elapse ms =>
    cases hmove
    refine .inl ((inherits_elapse s.store ?_).active ha)
    exact Int.le_add_of_nonneg_right (Int.natCast_nonneg ms)
  | request r route body proof =>
    obtain ⟨-, phase, rfl, -⟩ := Server.move_request hmove
    exact .inl ha
  | tick t =>
    obtain ⟨-, rfl, -⟩ := Server.move_tick hmove
    exact .inl ha
  | clear body =>
    cases hmove
    rcases Server.clearSession_cases s.store body with hclear | ⟨fields, -, key, -, hclear⟩
    · exact .inl (by simpa only [hclear] using ha)
    · simp only [hclear] at ha
      exact .inl ((inherits_delete s.store s.now key).active ha)
  | unregistered t outcome =>
    obtain ⟨ref, rest, -, hsame, hstore⟩ := Server.move_unregistered hmove
    rw [hsame] at ha
    rcases hstore with hstore | ⟨-, session, -, hstore⟩
    · exact .inl (by simpa only [hstore] using ha)
    · simp only [hstore] at ha
      exact .inl ((inherits_delete s.store s.now _).active ha)
  | event r e =>
    obtain ⟨phase, out, hphase, hserve, hturn, rfl⟩ := Server.step_turn hi hs
    by_cases he : ∃ outcome, e = .registered outcome
    · obtain ⟨outcome, rfl⟩ := he
      cases hturn with
      | unconnected | renewed => exact .inl ha
      | connected hopen hstatus =>
        rename_i q minutes payer boringtun response
        cases outcome with
        | error e => simp [serve, connectRegistered, VpnServer.answer] at hserve
        | ok data =>
          obtain ⟨session, hs'⟩ :=
            Option.isSome_iff_exists.mp (SessionStore.getSession_active.mpr ha)
          rcases getSession_insert hs' with ⟨hkey, rfl⟩ | ⟨-, hold⟩
          · obtain ⟨-, hlt⟩ := SessionStore.getSession_some.mp hs'
            refine .inr ⟨r, data, q, minutes, payer, rfl, hphase, hkey, ?_, hopen⟩
            simp only [SessionStore.newSession] at hlt
            omega
          · exact .inl (active_of_getSession hold)
    · exact .inl ((turn_inherits hturn fun outcome h => he ⟨outcome, h⟩).active ha)

theorem server_opened {s s' : Server}
    (hs : Server.step cfg s (.event r (.registered (.ok data))) = some s')
    (hr : s.requests r = some (.connecting q minutes payer)) (hpos : 0 < minutes)
    (hopen : ¬ s.store.Active s.now q.wgKey) :
    s'.store.Active s'.now q.wgKey ∧
      ∀ wgKey, s.store.Active s.now wgKey → s'.store.Active s'.now wgKey := by
  obtain ⟨effs, hmove⟩ := Server.step_iff.mp hs
  obtain ⟨phase, out, hphase, hserve, rfl, -⟩ := Server.move_event.mp hmove
  cases hr.symm.trans hphase
  cases hserve
  simp only [connectRegistered, SessionStore.createSession_ok hopen, VpnServer.answer]
  constructor
  · refine SessionStore.active_iff.mpr ⟨s.store.objects.length, _, ?_,
      List.getElem?_concat_length, ?_⟩
    · simp [SessionStore.insert, OrderedMap.get_set, SessionStore.newSession]
    · simp only [SessionStore.newSession]
      omega
  · intro wgKey ha
    obtain ⟨ref, session, hget, hobj, hlt⟩ := SessionStore.active_iff.mp ha
    have hne : wgKey ≠ q.wgKey := by
      rintro rfl
      exact hopen ha
    refine SessionStore.active_iff.mpr ⟨ref, session, ?_, ?_, hlt⟩
    · simpa [SessionStore.insert, OrderedMap.get_set, SessionStore.newSession, hne] using hget
    · exact (List.getElem?_append_left (List.getElem?_eq_some_iff.mp hobj).1).trans hobj

-- ---------------------------------------------------------------------------
-- What holds in every run
-- ---------------------------------------------------------------------------

/-- Of a request only the call it waits for is carried out, and only for a
key that decodes. -/
def CarriedFor (base64Decode : String → Option Bytes) : Option Phase → Prop
  | some (.connecting q _ _) | some (.renewing q _ _) => (keyOf base64Decode q.wgKey).isSome
  | some (.answered _) => True
  | _ => False

structure Kept (cfg : VpnServer.ServerConfig) (base64Decode : String → Option Bytes)
    (g : Peering) : Prop where
  sound : g.server.Sound cfg
  listed : g.server.Listed
  carried : ∀ r, g.carriedOut (.request r) = true → CarriedFor base64Decode (g.server.requests r)
  idle : ∀ t, g.carriedOut (.tick t) = true → g.server.ticks t ≠ []
  decoded : ∀ wgKey, g.ActiveAt wgKey → (keyOf base64Decode wgKey).isSome

theorem Stepped.server_of (h : Stepped cfg base64Decode g i g') (hj : i.server = some j) :
    g.server.step cfg j = some g'.server := by
  have hserver := h.server
  rwa [hj] at hserver

theorem Stepped.server_none (h : Stepped cfg base64Decode g i g') (hj : i.server = none) :
    g'.server = g.server := by
  have hserver := h.server
  rwa [hj] at hserver

theorem Stepped.keeps {P : Server → Prop} (h : Stepped cfg base64Decode g i g')
    (hstep : ∀ j, g.server.step cfg j = some g'.server → P g'.server) (hp : P g.server) :
    P g'.server := by
  cases hj : i.server with
  | none => exact (h.server_none hj).symm ▸ hp
  | some j => exact hstep j (h.server_of hj)

theorem server_carriedFor {s s' : Server} (hi : s.Sound cfg) (hs : Server.step cfg s j = some s')
    (hc : CarriedFor base64Decode (s.requests r)) : CarriedFor base64Decode (s'.requests r) := by
  have hstep := Server.step_request hi hs r
  generalize s'.requests r = after at hstep ⊢
  generalize Tagged.select r (Server.effects cfg s j) = effs at hstep
  cases hstep with
  | idle => exact hc
  | refused hnone | arrived hnone => simp [hnone, CarriedFor] at hc
  | turned hphase hturn =>
    rw [hphase] at hc
    cases hturn with
    | declined | invalid | stopped | dropped | unconnected | connected | renewed => trivial
    | priced | passed | paid | connecting | renewing => cases hc

theorem Stepped.active (h : Stepped cfg base64Decode g i g') (hi : g.server.Sound cfg)
    (ha : g'.ActiveAt wgKey) : g.ActiveAt wgKey ∨ wgKey ∈ g.opened i := by
  cases hj : i.server with
  | none =>
    rw [ActiveAt, h.server_none hj] at ha
    exact .inl ha
  | some j =>
    rcases server_active hi (h.server_of hj) ha with ha |
      ⟨r, data, q, minutes, payer, rfl, hr, rfl, hpos, hopen⟩
    · exact .inl ha
    · obtain rfl : i = .registered r (.ok data) := by
        cases i with
        | registered r outcome => simpa [Input.server] using hj
        | event r' e =>
          obtain ⟨rfl, rfl⟩ : r' = r ∧ e = .registered (.ok data) := by
            simpa [Input.server] using hj
          exact h.enabled.elim
        | elapse | request | clear | tick | carryOut | cleared | unregistered => cases hj
      have hcarried : g.carriedOut (.request r) = true := h.enabled
      have hnone : g.server.store.getSession g.server.now q.wgKey = none := by
        rw [← Option.not_isSome_iff_eq_none, SessionStore.getSession_active]
        exact hopen
      exact .inr (by simp [opened, hr, hcarried, hpos, hnone])

theorem mem_opened (ho : wgKey ∈ g.opened i) :
    ∃ r data q minutes payer, i = .registered r (.ok data) ∧
      g.server.requests r = some (.connecting q minutes payer) ∧
        g.carriedOut (.request r) = true ∧ 0 < minutes ∧ q.wgKey = wgKey ∧ ¬ g.ActiveAt wgKey := by
  unfold opened at ho
  split at ho
  · rename_i r data
    split at ho
    · rename_i q minutes payer hr
      split at ho
      · rename_i hc
        cases ho
        refine ⟨r, data, q, minutes, payer, rfl, hr, hc.1, hc.2.1, rfl, ?_⟩
        rw [ActiveAt, ← SessionStore.getSession_active, hc.2.2]
        nofun
      · cases ho
    · cases ho
  · cases ho

theorem Kept.opened_decodes (hk : Kept cfg base64Decode g) (ho : wgKey ∈ g.opened i) :
    (keyOf base64Decode wgKey).isSome := by
  obtain ⟨r, data, q, minutes, payer, rfl, hr, hcarried, -, rfl, -⟩ := mem_opened ho
  simpa [hr, CarriedFor] using hk.carried r hcarried

theorem Stepped.carried_request (h : Stepped cfg base64Decode g i g')
    (hc : g'.carriedOut (.request r) = true) :
    g.carriedOut (.request r) = true ∨
      g'.server = g.server ∧ CarriedFor base64Decode (g.server.requests r) := by
  rw [h.carriedOut] at hc
  cases i with
  | carryOut caller =>
    simp only [carriedAfter, Function.update_apply] at hc
    split at hc
    · rename_i hcaller
      subst hcaller
      obtain ⟨wgKey, hkey, hcall⟩ := h.enabled
      refine .inr ⟨h.server_none rfl, ?_⟩
      simp only [call] at hcall
      split at hcall
      · rename_i hr
        obtain rfl : _ = wgKey := by simpa using hcall
        simpa [hr, CarriedFor] using hkey
      · rename_i hr
        obtain rfl : _ = wgKey := by simpa using hcall
        simpa [hr, CarriedFor] using hkey
      · simp at hcall
    · exact .inl hc
  | clear c body => exact .inl (by simpa [carriedAfter] using hc)
  | unregistered t outcome => exact .inl (by simpa [carriedAfter] using hc)
  | elapse | request | event | tick | registered | cleared => exact .inl hc

theorem Stepped.carried_tick (h : Stepped cfg base64Decode g i g')
    (hc : g'.carriedOut (.tick t) = true) :
    g.carriedOut (.tick t) = true ∧ (∀ outcome, i ≠ .unregistered t outcome) ∨
      g'.server = g.server ∧ g.server.ticks t ≠ [] := by
  rw [h.carriedOut] at hc
  cases i with
  | carryOut caller =>
    simp only [carriedAfter, Function.update_apply] at hc
    split at hc
    · rename_i hcaller
      subst hcaller
      obtain ⟨wgKey, -, hcall⟩ := h.enabled
      refine .inr ⟨h.server_none rfl, fun hnil => ?_⟩
      simp [call, hnil] at hcall
    · exact .inl ⟨hc, fun _ hi => by cases hi⟩
  | clear c body => exact .inl ⟨by simpa [carriedAfter] using hc, fun _ hi => by cases hi⟩
  | unregistered t' outcome =>
    simp only [carriedAfter, Function.update_apply] at hc
    split at hc
    · cases hc
    · rename_i hne
      refine .inl ⟨hc, ?_⟩
      rintro outcome' hi
      cases hi
      exact hne rfl
  | elapse | request | event | tick | registered | cleared =>
    exact .inl ⟨hc, fun _ hi => by cases hi⟩

theorem Stepped.carriedOut_kept (h : Stepped cfg base64Decode g i g')
    (hc : g.carriedOut (.tick t) = true) (hu : ∀ outcome, i ≠ .unregistered t outcome) :
    g'.carriedOut (.tick t) = true := by
  rw [h.carriedOut]
  cases i with
  | clear c body => simpa [carriedAfter] using hc
  | carryOut caller => simp [carriedAfter, Function.update_apply, hc]
  | unregistered t' outcome =>
    have hne : t ≠ t' := fun h => hu outcome (h ▸ rfl)
    simpa [carriedAfter, hne] using hc
  | elapse | request | event | tick | registered | cleared => exact hc

theorem Stepped.ticks (h : Stepped cfg base64Decode g i g') (ht : i ≠ .tick t)
    (hu : ∀ outcome, i ≠ .unregistered t outcome) : g'.server.ticks t = g.server.ticks t := by
  cases hj : i.server with
  | none => rw [h.server_none hj]
  | some j =>
    refine Server.ticks_same (h.server_of hj) ?_ ?_
    · rintro rfl
      cases i with
      | tick t' =>
        obtain rfl : t' = t := by simpa [Input.server] using hj
        exact ht rfl
      | elapse | request | event | clear | unregistered | carryOut | registered | cleared =>
        cases hj
    · rintro outcome rfl
      cases i with
      | unregistered t' outcome' =>
        obtain ⟨rfl, rfl⟩ : t' = t ∧ outcome' = outcome := by simpa [Input.server] using hj
        exact hu outcome' rfl
      | elapse | request | event | clear | tick | carryOut | registered | cleared => cases hj

theorem Stepped.tick (h : Stepped cfg base64Decode g (.tick t) g') :
    g.server.ticks t = [] ∧ g'.server.ticks t = g.server.store.listExpired g.server.now ∧
      g'.server.store = g.server.store ∧ g'.server.now = g.server.now := by
  obtain ⟨effs, hmove⟩ := Server.step_iff.mp (h.server_of rfl)
  obtain ⟨hnil, hsame, -⟩ := Server.move_tick hmove
  rw [hsame]
  exact ⟨hnil, Function.update_self _ _ _, rfl, rfl⟩

theorem step_kept (hk : Kept cfg base64Decode g) (hs : g.step cfg base64Decode i = some g') :
    Kept cfg base64Decode g' := by
  have h := stepped hs
  refine ⟨?_, ?_, fun r hc => ?_, fun t hc => ?_, fun wgKey ha => ?_⟩
  · exact h.keeps (fun j hj => Server.step_sound hk.sound hj) hk.sound
  · exact h.keeps (P := Server.Listed)
      (fun j hj => Server.step_listed hk.sound hk.listed hj) hk.listed
  · rcases h.carried_request hc with hc | ⟨hsame, hc⟩
    · exact h.keeps (P := fun s => CarriedFor base64Decode (s.requests r))
        (fun j hj => server_carriedFor hk.sound hj (hk.carried r hc)) (hk.carried r hc)
    · rwa [hsame]
  · rcases h.carried_tick hc with ⟨hc, hi⟩ | ⟨hsame, hne⟩
    · have ht : i ≠ .tick t := by
        rintro rfl
        exact hk.idle t hc h.tick.1
      rw [h.ticks ht hi]
      exact hk.idle t hc
    · exact hsame.symm ▸ hne
  · rcases h.active hk.sound ha with ha | ho
    · exact hk.decoded wgKey ha
    · exact hk.opened_decodes ho

theorem init_kept (start : Int) : Kept cfg base64Decode (init start) where
  sound := Server.init_sound cfg start
  listed := Server.init_listed start
  carried r hc := by cases hc
  idle t hc := by cases hc
  decoded wgKey ha := by
    obtain ⟨session, hf, -⟩ := ha
    cases hf

theorem Stepped.keyAt (h : Stepped cfg base64Decode g i g') (hkey : g.keyAt ref = some wgKey) :
    g'.keyAt ref = some wgKey := by
  refine h.keeps (P := fun s => (s.store.objects[ref]?).map (·.wireguardPublicKey) = some wgKey)
    (fun j hj => ?_) hkey
  have hkept : { g with server := g'.server }.keyAt ref = some wgKey := keyAt_kept hj hkey
  exact hkept

theorem Stepped.isOf (h : Stepped cfg base64Decode g i g') (hex : (g.keyAt ref).isSome) :
    g'.IsOf base64Decode ref key ↔ g.IsOf base64Decode ref key := by
  obtain ⟨wgKey, hkey⟩ := Option.isSome_iff_exists.mp hex
  simp [IsOf, hkey, h.keyAt hkey]

theorem mem_removals (href : ref ∈ g.removals t) : ref ∈ g.server.ticks t := by
  unfold removals at href
  split at href
  · exact List.mem_of_mem_tail href
  · exact href

/-- What a tick has still to remove behind a step, it had before, or has just
listed. -/
theorem Stepped.removals (h : Stepped cfg base64Decode g i g') (href : ref ∈ g'.removals t) :
    ref ∈ g.removals t ∨ i = .tick t ∧ ref ∈ g.listed i := by
  by_cases hu : ∃ outcome, i = .unregistered t outcome
  · obtain ⟨outcome, rfl⟩ := hu
    obtain ⟨effs, hmove⟩ := Server.step_iff.mp (h.server_of rfl)
    obtain ⟨ref₀, rest, hticks, hsame, -⟩ := Server.move_unregistered hmove
    have hrest : ref ∈ rest := by
      have hmem := mem_removals href
      rw [hsame] at hmem
      simpa using hmem
    refine .inl ?_
    unfold Peering.removals
    rw [hticks]
    split
    · exact hrest
    · exact List.mem_cons_of_mem _ hrest
  · by_cases ht : i = .tick t
    · subst ht
      obtain ⟨hnil, hticks, -, -⟩ := h.tick
      refine .inr ⟨rfl, ?_⟩
      rw [listed, if_pos hnil, ← hticks]
      exact mem_removals href
    · have hu := not_exists.mp hu
      refine .inl ?_
      have hmem := mem_removals href
      unfold Peering.removals at href ⊢
      rw [h.ticks ht hu] at hmem href
      split
      · rename_i hc
        rwa [if_pos (h.carriedOut_kept hc hu)] at href
      · exact hmem

theorem Kept.keyAt_removals (hk : Kept cfg base64Decode g) (href : ref ∈ g.removals t) :
    (g.keyAt ref).isSome := by
  obtain ⟨session, hobj, -⟩ := hk.listed t ref (mem_removals href)
  simp [Peering.keyAt, Option.mem_def.mp hobj]

theorem keyAt_listed (href : ref ∈ g.listed i) : (g.keyAt ref).isSome := by
  unfold Peering.listed at href
  split at href
  · split at href
    · obtain ⟨session, hobj, -⟩ := Server.listExpired_expired _ _ href
      simp [Peering.keyAt, Option.mem_def.mp hobj]
    · cases href
  · cases href

-- ---------------------------------------------------------------------------
-- Apart exactly when spelled so
-- ---------------------------------------------------------------------------

theorem apart_of_spells (hk : Kept cfg base64Decode g) (ha : g.Apart base64Decode)
    (h : Stepped cfg base64Decode g i g') (hc : g.Spells base64Decode i) :
    g'.Apart base64Decode where
  sessions wgKey₁ wgKey₂ h₁ h₂ hne := by
    -- a key that is opened is of no peer with an active session
    have hopened : ∀ wgKey wgKey', wgKey ∈ g.opened i → g.ActiveAt wgKey' →
        ∃ key key', keyOf base64Decode wgKey = some key ∧ keyOf base64Decode wgKey' = some key' ∧
          key ≠ key' := by
      intro wgKey wgKey' ho ha'
      obtain ⟨key, hkey⟩ := Option.isSome_iff_exists.mp (hk.opened_decodes ho)
      obtain ⟨key', hkey'⟩ := Option.isSome_iff_exists.mp (hk.decoded wgKey' ha')
      refine ⟨key, key', hkey, hkey', ?_⟩
      rintro rfl
      exact (hc.opened wgKey ho key hkey).1 ⟨wgKey', ha', hkey'⟩
    rcases h.active hk.sound h₁ with h₁ | ho₁
    · rcases h.active hk.sound h₂ with h₂ | ho₂
      · exact ha.sessions wgKey₁ wgKey₂ h₁ h₂ hne
      · obtain ⟨key₂, key₁, hkey₂, hkey₁, hdiffer⟩ := hopened wgKey₂ wgKey₁ ho₂ h₁
        exact ⟨key₁, key₂, hkey₁, hkey₂, hdiffer.symm⟩
    · rcases h.active hk.sound h₂ with h₂ | ho₂
      · exact hopened wgKey₁ wgKey₂ ho₁ h₂
      · exact absurd (Option.some.inj (ho₁.symm.trans ho₂)) hne
  removals t ref href key hof := by
    rintro ⟨wgKey, hactive, hkey⟩
    rcases h.removals href with href | ⟨rfl, href⟩
    · have hof := (h.isOf (hk.keyAt_removals href)).mp hof
      rcases h.active hk.sound hactive with hactive | ho
      · exact ha.removals t ref href key hof ⟨wgKey, hactive, hkey⟩
      · exact (hc.opened wgKey ho key hkey).2 t ref href hof
    · have hof := (h.isOf (keyAt_listed href)).mp hof
      rcases h.active hk.sound hactive with hactive | ho
      · exact hc.listed ref href key hof ⟨wgKey, hactive, hkey⟩
      · cases ho

theorem spells_of_apart (hk : Kept cfg base64Decode g) (h : Stepped cfg base64Decode g i g')
    (ha : g'.Apart base64Decode) : g.Spells base64Decode i where
  opened wgKey ho key hkey := by
    obtain ⟨r, data, q, minutes, payer, rfl, hr, -, hpos, rfl, hopen⟩ := mem_opened ho
    obtain ⟨hnew, hold⟩ := server_opened (h.server_of rfl) hr hpos hopen
    constructor
    · rintro ⟨wgKey', ha', hkey'⟩
      have hne : q.wgKey ≠ wgKey' := by
        rintro heq
        exact hopen (heq ▸ ha')
      obtain ⟨key₁, key₂, hkey₁, hkey₂, hdiffer⟩ :=
        ha.sessions q.wgKey wgKey' hnew (hold wgKey' ha') hne
      cases hkey.symm.trans hkey₁
      cases hkey'.symm.trans hkey₂
      exact hdiffer rfl
    · intro t ref href hof
      have hof := (h.isOf (hk.keyAt_removals href)).mpr hof
      have hsame : g'.removals t = g.removals t := by
        unfold Peering.removals
        rw [h.ticks nofun fun _ => nofun, h.carriedOut]
        rfl
      exact ha.removals t ref (hsame ▸ href) key hof ⟨q.wgKey, hnew, hkey⟩
  listed ref href key hof := by
    have hex := keyAt_listed href
    unfold Peering.listed at href
    split at href
    · rename_i t
      obtain ⟨hnil, hticks, hstore, hnow⟩ := h.tick
      rw [if_pos hnil] at href
      have hcarried : g'.carriedOut (.tick t) = false := by
        rw [h.carriedOut]
        cases hc : g.carriedOut (.tick t) with
        | false => exact hc
        | true => exact absurd hnil (hk.idle t hc)
      have href' : ref ∈ g'.removals t := by
        rw [Peering.removals, hcarried, hticks]
        exact href
      rintro ⟨wgKey, hactive, hkey⟩
      refine ha.removals t ref href' key ((h.isOf hex).mpr hof) ⟨wgKey, ?_, hkey⟩
      rwa [ActiveAt, hstore, hnow]
    · cases href

theorem init_apart (start : Int) : (init start).Apart base64Decode where
  sessions wgKey₁ wgKey₂ h₁ _ _ := by
    obtain ⟨session, hf, -⟩ := h₁
    cases hf
  removals t ref href := by cases href

theorem spells_of_none (hs : g.step cfg base64Decode i = none) : g.Spells base64Decode i where
  opened wgKey ho := by
    obtain ⟨r, data, q, minutes, payer, rfl, hr, hcarried, -⟩ := mem_opened ho
    simp [step, answerable, hcarried, serverStep, Server.step, Server.move, hr, serve] at hs
  listed ref href := by
    unfold Peering.listed at href
    split at href
    · split at href
      · rename_i hnil
        simp [step, serverStep, Server.step, Server.move, hnil] at hs
      · cases href
    · cases href

/-- While the sessions are apart, no call of the worker takes the peer of an
active session from boringtun. -/
theorem registered_kept (ha : g.Apart base64Decode)
    (hs : g.step cfg base64Decode (.carryOut (.tick t)) = some g')
    (hactive : g.PeerActive base64Decode key) (hk : key ∈ g.registered) : key ∈ g'.registered := by
  simp only [step] at hs
  split at hs
  · cases hs
  · rename_i hcarried
    split at hs
    · obtain ⟨key', -, rfl⟩ := Option.map_eq_some_iff.mp hs
      exact Finset.mem_insert_of_mem hk
    · rename_i wgKey hcall
      obtain ⟨key', hkey', rfl⟩ := Option.map_eq_some_iff.mp hs
      obtain ⟨wgKey', hat, heq⟩ := Option.map_eq_some_iff.mp hcall
      cases heq
      obtain ⟨ref, hhead, hat⟩ := Option.bind_eq_some_iff.mp hat
      refine Finset.mem_erase.mpr ⟨?_, hk⟩
      rintro rfl
      have href : ref ∈ g.removals t := by
        rw [Peering.removals, if_neg hcarried]
        exact List.mem_of_mem_head? hhead
      exact ha.removals t ref href key ⟨wgKey, hat, hkey'⟩ hactive
    · cases hs

end

/-- In every run, also one with failing calls and clear handlers, the active
sessions are of different peers and the expiry worker is not about to drop one
of theirs, exactly when its connects and ticks find it so. -/
theorem staysApart_iff (cfg : VpnServer.ServerConfig) (base64Decode : String → Option Bytes)
    (start : Int) (is : List Input) :
    StaysApart cfg base64Decode start is ↔
      Along (step cfg base64Decode) (fun g i => g.Spells base64Decode i) (init start) is := by
  rw [← invariant_iff_along
    (I := fun g => Kept cfg base64Decode g ∧ g.Apart base64Decode) (fun g i _ => spells_of_none)
    (fun g i g' hi hs => ?_) ⟨init_kept start, init_apart start⟩]
  · refine forall₄_congr fun pre post g hsplit => ?_
    refine forall_congr' fun he => (and_iff_right ?_).symm
    exact invariant_run (I := Kept cfg base64Decode) (fun _ _ _ => step_kept) (init_kept start) he
  · constructor
    · intro hc
      exact ⟨step_kept hi.1 hs, apart_of_spells hi.1 hi.2 (stepped hs) hc⟩
    · rintro ⟨-, ha⟩
      exact spells_of_apart hi.1 (stepped hs) ha

-- ---------------------------------------------------------------------------
-- A second spelling
-- ---------------------------------------------------------------------------

def Input.Succeeds : Input → Bool
  | .event _ (.probed health) => health.isOk
  | .registered _ outcome => outcome.isOk
  | .unregistered _ outcome => outcome.isOk
  | .clear _ _ | .cleared _ _ => false
  | _ => true

def sampleUnpadded : String := "hSDwCYkwp1R0i33ctD73Wg2/Og0mOBr066SpjqqbTmo"

/-- The decoder, on the sample key with and without its padding. -/
def sampleDecodeUnpadded (text : String) : Option Bytes :=
  if text = VpnServer.sampleKey ∨ text = sampleUnpadded then some samplePeerKey.toList else none

/-- A session of 5 minutes, and one of 15 under the other spelling. -/
def sampleAliased : List Input :=
  samplePaid 0 .connect sampleHash 0 ++
    [.carryOut (.request 0), .registered 0 (.ok sampleRegistered),
      .request 1 .connect
        { sampleBody with
          wireguardPublicKey := .string sampleUnpadded
          durationMinutes := .number 15 }
        (some (sampleProof sampleHash₂)),
      .event 1 (.probed (.ok ())), .event 1 (.receipt (some sampleReceipt)), .event 1 .verified,
      .carryOut (.request 1), .registered 1 (.ok sampleRegistered)]

def sampleExpires : List Input := [.elapse 300000, .tick 2, .carryOut (.tick 2)]

/-- Both sessions are active, and the expiry of the first has boringtun drop
the peer of the second. -/
theorem aliased :
    (∀ i ∈ sampleAliased ++ sampleExpires, i.Succeeds) ∧
      ¬ StaysApart sampleServerConfig sampleDecodeUnpadded 0 sampleAliased ∧
      ∃ g, exec (step sampleServerConfig sampleDecodeUnpadded) (init 0)
          (sampleAliased ++ sampleExpires) = some g ∧
        g.PeerActive sampleDecodeUnpadded samplePeerKey ∧ samplePeerKey ∉ g.registered := by
  have hboth : ((exec (step sampleServerConfig sampleDecodeUnpadded) (init 0) sampleAliased).map
      fun g => ((g.server.store.getSession g.server.now VpnServer.sampleKey).isSome,
        (g.server.store.getSession g.server.now sampleUnpadded).isSome)) =
      some (true, true) := by
    decide +kernel
  have hlost : ((exec (step sampleServerConfig sampleDecodeUnpadded) (init 0)
      (sampleAliased ++ sampleExpires)).map fun g =>
        ((g.server.store.getSession g.server.now sampleUnpadded).isSome,
          decide (samplePeerKey ∈ g.registered))) = some (true, false) := by
    decide +kernel
  have hkeys : keyOf sampleDecodeUnpadded VpnServer.sampleKey = some samplePeerKey ∧
      keyOf sampleDecodeUnpadded sampleUnpadded = some samplePeerKey := by
    decide +kernel
  refine ⟨by decide, fun h => ?_, ?_⟩
  · obtain ⟨g, he, hg⟩ := Option.map_eq_some_iff.mp hboth
    obtain ⟨h₁, h₂⟩ := Prod.mk.inj hg
    obtain ⟨key₁, key₂, hkey₁, hkey₂, hne⟩ := (h sampleAliased [] g (by simp) he).sessions
      VpnServer.sampleKey sampleUnpadded (SessionStore.getSession_active.mp h₁)
      (SessionStore.getSession_active.mp h₂) (by decide)
    cases hkeys.1.symm.trans hkey₁
    cases hkeys.2.symm.trans hkey₂
    exact hne rfl
  · obtain ⟨g, he, hg⟩ := Option.map_eq_some_iff.mp hlost
    obtain ⟨hactive, hk⟩ := Prod.mk.inj hg
    exact ⟨g, he, ⟨sampleUnpadded, SessionStore.getSession_active.mp hactive, hkeys.2⟩,
      of_decide_eq_false hk⟩

end Peering

end Xelt.Gateway
