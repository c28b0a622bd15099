import Xelt.Boringtun.HttpApi.Reaper
import Xelt.Gateway.Provisioning
import Xelt.VpnServer.Expiry

/-!
# Active sessions and their peers

A session ends by the paid time, a peer by its last handshake, and the peers
of two spellings of a key are one. As long as neither clock nor spelling
takes a peer from a paid session, every active session has its peer, with an
address no other active session has.
-/

namespace Xelt.Gateway

open Runs Boringtun Boringtun.Payment Boringtun.HttpApi VpnServer

/-- The peer had a handshake in the last 600 seconds, or had none and was
registered in them. -/
def recent (s : Service) (ages : Bytes32 → Option Nat) (key : Bytes32) : Bool :=
  match (ages key).filter (0 < ·) with
  | some age => age ≤ stalePeerSecs
  | none => (s.inner.peerRegisteredAt.lookup key).all fun registeredAt =>
      s.now - registeredAt < 601 * 10 ^ 9

namespace Stack

section
variable (settings : Settings) (base64Decode : String → Option Bytes)

def activeKeys (g : Stack) : List String :=
  (g.server.store.sessions.entries.map Prod.fst).filter fun key =>
    (g.server.store.getSession g.server.now key).isSome

/-- No active session is under another spelling of the key. -/
def onlySpelling (g : Stack) (wgKey : String) : Bool :=
  g.activeKeys.all fun key => key = wgKey || keyOf base64Decode key ≠ keyOf base64Decode wgKey

/-- A tick of the reaper finds the peers of the active sessions recent; what
is connected, and what the expiry worker drops, is no other spelling of the
key of an active session. -/
def spares (g : Stack) : Input → Bool
  | .reap ages => g.activeKeys.all fun key =>
      (keyOf base64Decode key).all (recent g.service ages)
  | .register _ _ =>
    match g.op with
    | .request r =>
      match g.server.requests r with
      | some (.connecting q _ _) => g.onlySpelling base64Decode q.wgKey
      | _ => true
    | _ => true
  | .unregister => g.expiring.all fun session =>
      g.onlySpelling base64Decode session.wireguardPublicKey
  | _ => true

/-- Every active session has its peer, with the address of the session, and
no address is that of two. -/
structure Reports (g : Stack) : Prop where
  registered : ∀ key session, g.server.store.getSession g.server.now key = some session →
    ∃ pk octet, decodeKey base64Decode key = .ok pk ∧
      g.service.inner.peerToOctet.lookup pk = some octet ∧
      g.service.device.netsOf pk = some [hostNet (addrOf settings octet)] ∧
      session.assignedIp = ipText (addrOf settings octet)
  distinct : ∀ key₁ key₂ session₁ session₂,
    g.server.store.getSession g.server.now key₁ = some session₁ →
    g.server.store.getSession g.server.now key₂ = some session₂ →
    session₁.assignedIp = session₂.assignedIp → key₁ = key₂

end

end Stack

-- ---------------------------------------------------------------------------
-- What the reaper spares
-- ---------------------------------------------------------------------------

section
variable {settings : Settings} {base64Decode : String → Option Bytes} {s s' : Service}

theorem netsOf_of_ready (hi : Ready settings s) (hl : s.inner.peerToOctet.lookup key = some octet) :
    s.device.netsOf key = some [hostNet (addrOf settings octet)] := by
  rw [hi.agrees.device, Service.expected_idle hi.http, hl]
  rfl

theorem isStale_of_recent (hi : Ready settings s)
    (hl : s.inner.peerToOctet.lookup key = some octet) (hr : recent s ages key) :
    isStale s.inner (uapiGetPeers s.device ages) s.now key = false := by
  have hp : ∃ pid, s.device.peers.lookup key = some pid := by
    have hnets := netsOf_of_ready hi hl
    cases hpid : s.device.peers.lookup key with
    | none => simp [Device.netsOf, Device.peerOf, hpid] at hnets
    | some pid => exact ⟨pid, rfl⟩
  obtain ⟨pid, hpid⟩ := hp
  have hlist : (uapiGetPeers s.device ages).lookup key = some (ages key) := by
    rw [uapiGetPeers_lookup, hpid, Option.map_some]
  rw [isStale_iff]
  unfold recent at hr
  cases hage : ages key with
  | none =>
    refine .inr ⟨.inl (by rw [hlist, hage]), fun registeredAt hreg => ?_⟩
    simpa [hage, hreg] using hr
  | some age =>
    rcases Nat.eq_zero_or_pos age with rfl | hpos
    · refine .inr ⟨.inr (by rw [hlist, hage]), fun registeredAt hreg => ?_⟩
      simpa [hage, hreg, Option.filter] using hr
    · have hle : age ≤ stalePeerSecs := by simpa [hage, Option.filter, hpos] using hr
      exact .inl ⟨age, by rw [hlist, hage], hpos, hle⟩

end

-- ---------------------------------------------------------------------------
-- Which sessions are active
-- ---------------------------------------------------------------------------

/-- What is active was so before, with the same address. -/
def Inherits (store store' : SessionStore) (now now' : Int) : Prop :=
  ∀ key session', store'.getSession now' key = some session' →
    ∃ session, store.getSession now key = some session ∧ session'.assignedIp = session.assignedIp

theorem active_of_getSession {store : SessionStore} (h : store.getSession now key = some session) :
    store.Active now key :=
  SessionStore.getSession_active.mp (Option.isSome_of_eq_some h)

theorem Inherits.active (h : Inherits store store' now now') (ha : store'.Active now' key) :
    store.Active now key := by
  obtain ⟨session', hs⟩ := Option.isSome_iff_exists.mp (SessionStore.getSession_active.mpr ha)
  obtain ⟨session, hold, -⟩ := h key session' hs
  exact active_of_getSession hold

theorem inherits_elapse (store : SessionStore) (h : now ≤ now') :
    Inherits store store now now' := by
  intro key session hs
  obtain ⟨hf, hlt⟩ := SessionStore.getSession_some.mp hs
  exact ⟨session, SessionStore.getSession_some.mpr ⟨hf, lt_of_le_of_lt h hlt⟩, rfl⟩

theorem inherits_delete (store : SessionStore) (now : Int) (key : String) :
    Inherits store (store.delete key) now now := by
  intro key' session hs
  obtain ⟨hf, hlt⟩ := SessionStore.getSession_some.mp hs
  refine ⟨session, SessionStore.getSession_some.mpr ⟨?_, hlt⟩, rfl⟩
  simp only [SessionStore.find, SessionStore.delete, OrderedMap.get_delete] at hf ⊢
  split at hf
  · cases hf
  · exact hf

theorem inherits_modify {store : SessionStore} (hobj : store.objects[ref]? = some session)
    (ha : now < session.expiresAt) : Inherits store (store.modify ref minutes) now now := by
  intro key session' hs
  obtain ⟨hf, hlt⟩ := SessionStore.getSession_some.mp hs
  obtain ⟨ref', hget, hobj'⟩ := Option.bind_eq_some_iff.mp hf
  by_cases hr : ref = ref'
  · subst hr
    obtain rfl : session.extend minutes = session' := by
      simpa [SessionStore.modify, hobj] using hobj'
    exact ⟨session, SessionStore.getSession_some.mpr ⟨SessionStore.find_eq hget hobj, ha⟩, rfl⟩
  · have hold : store.objects[ref']? = some session' := by
      simpa [SessionStore.modify, List.getElem?_modify, hr] using hobj'
    exact ⟨session', SessionStore.getSession_some.mpr ⟨SessionStore.find_eq hget hold, hlt⟩, rfl⟩

theorem turn_inherits (ht : Turn now spent store phase e out)
    (hp : ∀ outcome, e ≠ .registered outcome) : Inherits store out.store now now := by
  cases ht with
  | declined | priced | passed | paid | invalid | stopped | connecting =>
    exact inherits_elapse store le_rfl
  | dropped => exact inherits_delete store now _
  | renewing hc hr hroute hget hobj ha => exact inherits_modify hobj ha
  | unconnected | connected | renewed => exact absurd rfl (hp _)

theorem getSession_insert {store : SessionStore} {session : VpnSession}
    (h : (store.insert session).getSession now key = some session') :
    key = session.wireguardPublicKey ∧ session' = session ∨
      key ≠ session.wireguardPublicKey ∧ store.getSession now key = some session' := by
  obtain ⟨hf, hlt⟩ := SessionStore.getSession_some.mp h
  obtain ⟨ref, hget, hobj⟩ := Option.bind_eq_some_iff.mp hf
  simp only [SessionStore.insert, OrderedMap.get_set] at hget hobj
  split at hget
  · rename_i hkey
    cases hget
    exact .inl ⟨hkey, by simpa using hobj.symm⟩
  · rename_i hkey
    obtain ⟨old, hold, -⟩ := store.held key ref hget
    rw [List.getElem?_append_left (List.getElem?_eq_some_iff.mp hold).1] at hobj
    exact .inr ⟨hkey, SessionStore.getSession_some.mpr ⟨SessionStore.find_eq hget hobj, hlt⟩⟩

theorem connectRegistered_store (now : Int) (spent : Finset String) (store : SessionStore)
    (q : Gated) (minutes : Int) (payer : Option String)
    (outcome : Except String BoringtunRegisterResponse) :
    (connectRegistered now spent store q minutes payer outcome).store = store ∨
      ∃ data, outcome = .ok data ∧
        (connectRegistered now spent store q minutes payer outcome).store =
          store.insert (SessionStore.newSession now q.wgKey minutes data payer) := by
  unfold connectRegistered
  cases outcome with
  | error e => exact .inl rfl
  | ok data =>
    by_cases ha : store.Active now q.wgKey
    · simp only [SessionStore.createSession_active ha]
      exact .inl rfl
    · simp only [SessionStore.createSession_ok ha]
      exact .inr ⟨data, rfl, rfl⟩

-- ---------------------------------------------------------------------------
-- The system
-- ---------------------------------------------------------------------------

namespace Stack

section
variable {cfg : VpnServer.ServerConfig} {settings : Settings} {base64Decode : String → Option Bytes}
  {base64Encode : Bytes → String} {g g' : Stack}

/-- The key of an active session is in boringtun's table with its address. -/
def Held (settings : Settings) (base64Decode : String → Option Bytes) (g : Stack) : Prop :=
  ∀ key session, g.server.store.getSession g.server.now key = some session →
    ∃ pk octet, decodeKey base64Decode key = .ok pk ∧
      g.service.inner.peerToOctet.lookup pk = some octet ∧
      session.assignedIp = ipText (addrOf settings octet)

/-- No two active sessions are under spellings of one key. -/
def Spelt (base64Decode : String → Option Bytes) (g : Stack) : Prop :=
  ∀ key₁ key₂, g.server.store.Active g.server.now key₁ → g.server.store.Active g.server.now key₂ →
    decodeKey base64Decode key₁ = decodeKey base64Decode key₂ → key₁ = key₂

/-- What the tick in progress has still to remove is under no active key. -/
def Lapsed (g : Stack) : Prop :=
  ∀ t, g.op = .tick t → ∀ ref ∈ g.server.ticks t, ∀ session ∈ g.server.store.objects[ref]?,
    ¬ g.server.store.Active g.server.now session.wireguardPublicKey

structure Tied (cfg : VpnServer.ServerConfig) (settings : Settings)
    (base64Decode : String → Option Bytes) (g : Stack) : Prop where
  ready : Ready settings g.service
  sound : g.server.Sound cfg
  held : g.Held settings base64Decode
  spelt : g.Spelt base64Decode
  lapsed : g.Lapsed

theorem mem_activeKeys : key ∈ g.activeKeys ↔ g.server.store.Active g.server.now key := by
  simp only [activeKeys, List.mem_filter, SessionStore.getSession_active, and_iff_right_iff_imp]
  intro ha
  obtain ⟨ref, session, hget, -, -⟩ := SessionStore.active_iff.mp ha
  exact List.mem_map.mpr ⟨_, OrderedMap.mem_of_lookup hget, rfl⟩

theorem onlySpelling_iff : g.onlySpelling base64Decode wgKey ↔
    ∀ key, g.server.store.Active g.server.now key →
      keyOf base64Decode key = keyOf base64Decode wgKey → key = wgKey := by
  simp only [onlySpelling, List.all_eq_true, mem_activeKeys, Bool.or_eq_true, decide_eq_true_eq]
  exact forall₂_congr fun key ha => by tauto

theorem Tied.reports (hi : Tied cfg settings base64Decode g) : g.Reports settings base64Decode where
  registered key session hs := by
    obtain ⟨pk, octet, hk, hl, hip⟩ := hi.held key session hs
    exact ⟨pk, octet, hk, hl, netsOf_of_ready hi.ready hl, hip⟩
  distinct key₁ key₂ session₁ session₂ h₁ h₂ hip := by
    obtain ⟨pk₁, octet₁, hk₁, hl₁, hip₁⟩ := hi.held key₁ session₁ h₁
    obtain ⟨pk₂, octet₂, hk₂, hl₂, hip₂⟩ := hi.held key₂ session₂ h₂
    obtain rfl := ipText_injective (hip₁.symm.trans (hip.trans hip₂))
    obtain rfl := hi.ready.agrees.table.octets pk₁ pk₂ octet₁ hl₁ hl₂
    exact hi.spelt key₁ key₂ (active_of_getSession h₁) (active_of_getSession h₂)
      (hk₁.trans hk₂.symm)

theorem init_tied (start : Int) (d : Device) :
    Tied cfg settings base64Decode (init start d) where
  ready := init_ready settings d
  sound := Server.init_sound cfg start
  held key session h := by cases h
  spelt key₁ key₂ h₁ := by
    simp [SessionStore.Active, init, Server.init, SessionStore.find, SessionStore.empty] at h₁
  lapsed t h := by cases h

theorem Tied.inherit (hi : Tied cfg settings base64Decode g) (hready : Ready settings g'.service)
    (hsound : g'.server.Sound cfg)
    (hinherit : Inherits g.server.store g'.server.store g.server.now g'.server.now)
    (hkeep : ∀ key pk octet, g'.server.store.Active g'.server.now key →
      decodeKey base64Decode key = .ok pk → g.service.inner.peerToOctet.lookup pk = some octet →
      g'.service.inner.peerToOctet.lookup pk = some octet)
    (hlapsed : g'.Lapsed) : Tied cfg settings base64Decode g' where
  ready := hready
  sound := hsound
  held key session' hs := by
    obtain ⟨session, hold, hip⟩ := hinherit key session' hs
    obtain ⟨pk, octet, hk, hl, hip'⟩ := hi.held key session hold
    exact ⟨pk, octet, hk, hkeep key pk octet (active_of_getSession hs) hk hl, hip.trans hip'⟩
  spelt key₁ key₂ h₁ h₂ hk := hi.spelt key₁ key₂ (hinherit.active h₁) (hinherit.active h₂) hk
  lapsed := hlapsed

-- One case for each input

theorem lapsed_of_op (h : ∀ t, g.op ≠ .tick t) : g.Lapsed := fun t ht => absurd ht (h t)

theorem opAfter_ne (s : Server) (r t : Nat) : opAfter s r ≠ .tick t := by
  unfold opAfter
  split <;> simp

theorem elapse_tied (hi : Tied cfg settings base64Decode g)
    (hs : g.step cfg settings base64Decode base64Encode (.elapse ms) = some g') :
    Tied cfg settings base64Decode g' := by
  simp only [step] at hs
  obtain ⟨server, hserver, rfl⟩ := Option.map_eq_some_iff.mp hs
  have hsound := Server.step_sound hi.sound hserver
  obtain ⟨effs, hmove⟩ := Server.step_iff.mp hserver
  cases hmove
  have hle : g.server.now ≤ g.server.now + ms := Int.le_add_of_nonneg_right (Int.natCast_nonneg ms)
  have hinherit := inherits_elapse g.server.store hle
  refine hi.inherit (elapse_ready base64Decode hi.ready ms) hsound hinherit
    (fun key pk octet _ _ hl => hl) ?_
  exact fun t ht ref href session hobj ha => hi.lapsed t ht ref href session hobj
    (hinherit.active ha)

theorem request_tied (hi : Tied cfg settings base64Decode g)
    (hs : g.step cfg settings base64Decode base64Encode (.request r route body proof) = some g') :
    Tied cfg settings base64Decode g' := by
  simp only [step] at hs
  split at hs
  · obtain ⟨server, hserver, rfl⟩ := Option.map_eq_some_iff.mp hs
    have hsame : server.store = g.server.store ∧ server.now = g.server.now := by
      obtain ⟨effs, hmove⟩ := Server.step_iff.mp hserver
      obtain ⟨-, phase, rfl, -⟩ := Server.move_request hmove
      exact ⟨rfl, rfl⟩
    refine hi.inherit hi.ready (Server.step_sound hi.sound hserver) ?_
      (fun key pk octet _ _ hl => hl) (lapsed_of_op (opAfter_ne _ _))
    simp only [hsame]
    exact inherits_elapse _ le_rfl
  · cases hs

theorem event_tied (hi : Tied cfg settings base64Decode g)
    (hs : g.step cfg settings base64Decode base64Encode (.event e) = some g') :
    Tied cfg settings base64Decode g' := by
  simp only [step] at hs
  split at hs
  · cases hs
  · rename_i r hop hne
    obtain ⟨server, hserver, rfl⟩ := Option.map_eq_some_iff.mp hs
    have hsound := Server.step_sound hi.sound hserver
    obtain ⟨phase, out, -, -, hturn, rfl⟩ := Server.step_turn hi.sound hserver
    exact hi.inherit hi.ready hsound (turn_inherits hturn hne) (fun key pk octet _ _ hl => hl)
      (lapsed_of_op (opAfter_ne _ _))
  · cases hs

theorem tick_tied (hi : Tied cfg settings base64Decode g)
    (hs : g.step cfg settings base64Decode base64Encode (.tick t) = some g') :
    Tied cfg settings base64Decode g' := by
  simp only [step] at hs
  split at hs
  · obtain ⟨server, hserver, rfl⟩ := Option.map_eq_some_iff.mp hs
    have hsound := Server.step_sound hi.sound hserver
    obtain ⟨effs, hmove⟩ := Server.step_iff.mp hserver
    obtain ⟨-, rfl, -⟩ := Server.move_tick hmove
    refine hi.inherit hi.ready hsound (inherits_elapse _ le_rfl) (fun key pk octet _ _ hl => hl) ?_
    intro t' ht ref href session hobj ha
    obtain rfl : t = t' := by
      simp only at ht
      split at ht <;> cases ht
      rfl
    simp only [Function.update_self] at href
    obtain ⟨session', hobj', hx⟩ := Server.listExpired_expired _ _ href
    cases hobj.symm.trans hobj'
    obtain ⟨key, hget⟩ := (OrderedMap.mem_values _).mp (List.mem_filter.mp href).1
    obtain ⟨old, hold, hfind, hkey⟩ := SessionStore.find_of_get hget
    cases hobj.symm.trans hold
    obtain ⟨found, hfound, hlt⟩ := ha
    rw [hkey, hfind] at hfound
    cases hfound
    exact absurd hlt (not_lt.mpr hx)
  · cases hs

theorem reap_tied (hi : Tied cfg settings base64Decode g) (hc : g.spares base64Decode (.reap ages))
    (hs : g.step cfg settings base64Decode base64Encode (.reap ages) = some g') :
    Tied cfg settings base64Decode g' := by
  simp only [step] at hs
  split at hs
  · rename_i hop
    cases hs
    refine hi.inherit (runReaper_ready base64Decode hi.ready ages) hi.sound
      (inherits_elapse _ le_rfl) ?_ (lapsed_of_op (by simp [hop]))
    intro key pk octet ha hk hl
    refine runReaper_lookup ages (isStale_of_recent hi.ready hl ?_) hl
    have hall := List.all_eq_true.mp hc key (mem_activeKeys.mpr ha)
    simpa [keyOf, hk, Except.toOption] using hall
  · cases hs

theorem unregister_tied (hi : Tied cfg settings base64Decode g)
    (hc : g.spares base64Decode .unregister)
    (hs : g.step cfg settings base64Decode base64Encode .unregister = some g') :
    Tied cfg settings base64Decode g' := by
  simp only [step] at hs
  split at hs
  · rename_i t hop
    obtain ⟨session, hexp, hs⟩ := Option.bind_eq_some_iff.mp hs
    obtain ⟨server, hserver, rfl⟩ := Option.map_eq_some_iff.mp hs
    have hsound := Server.step_sound hi.sound hserver
    obtain ⟨effs, hmove⟩ := Server.step_iff.mp hserver
    obtain ⟨ref, rest, hticks, hsame, hstore⟩ := Server.move_unregistered hmove
    have hobj : g.server.store.objects[ref]? = some session := by
      simpa [expiring, hop, hticks] using hexp
    have hdead := hi.lapsed t hop ref (by simp [hticks]) session hobj
    have hinherit : Inherits g.server.store server.store g.server.now server.now := by
      rw [hsame]
      rcases hstore with hstore | ⟨-, _, -, hstore⟩
      · simp only [hstore]
        exact inherits_elapse _ le_rfl
      · simp only [hstore]
        exact inherits_delete _ _ _
    have hobjects : server.store.objects = g.server.store.objects := by
      rcases hstore with hstore | ⟨-, _, -, hstore⟩
      · rw [hstore]
      · rw [hstore]
        rfl
    refine hi.inherit (handleUnregister_ready hi.ready) hsound hinherit ?_ ?_
    · intro key pk octet ha hk hl
      refine handleUnregister_lookup (fun hk' => ?_) hl
      simp only [spares, hexp, Option.all_some] at hc
      have hsame := onlySpelling_iff.mp hc key (hinherit.active ha) (by rw [keyOf, keyOf, hk, hk'])
      exact hdead (hsame ▸ hinherit.active ha)
    · intro t' ht ref' href' session' hobj' ha
      obtain rfl : t = t' := by
        simp only at ht
        split at ht <;> cases ht
        rfl
      rw [hsame] at href'
      simp only [Function.update_self] at href'
      refine hi.lapsed t hop ref' (by simp [hticks, href']) session' ?_ (hinherit.active ha)
      rw [← hobjects]
      exact hobj'
  · cases hs

theorem connected_tied {q : Gated} {service : Service} (hi : Tied cfg settings base64Decode g)
    (hc : g.onlySpelling base64Decode q.wgKey)
    (hr : handleRegistration settings base64Decode g.service q.wgKey info octet =
      some (service, response))
    (hok : registerWireGuardPeer base64Encode response = .ok data)
    (hstore : g'.server.store =
      g.server.store.insert (SessionStore.newSession g.server.now q.wgKey minutes data payer))
    (hnow : g'.server.now = g.server.now) (hservice : g'.service = service)
    (hsound : g'.server.Sound cfg) (hop : ∀ t, g'.op ≠ .tick t) :
    Tied cfg settings base64Decode g' := by
  obtain ⟨pk, o, hk, hl, hip⟩ := handleRegistration_ok hr hok
  have hcases : ∀ key session, g'.server.store.getSession g'.server.now key = some session →
      key = q.wgKey ∧ session.assignedIp = ipText (addrOf settings o) ∨
        key ≠ q.wgKey ∧ g.server.store.getSession g.server.now key = some session := by
    intro key session hs
    rw [hstore, hnow] at hs
    rcases getSession_insert hs with ⟨hkey, rfl⟩ | hold
    · refine .inl ⟨hkey, ?_⟩
      rw [SessionStore.newSession, hip, stripMask_text]
    · exact .inr hold
  have hother : ∀ key, g'.server.store.Active g'.server.now key →
      key = q.wgKey ∨ g.server.store.Active g.server.now key := by
    intro key ha
    obtain ⟨session, hs⟩ := Option.isSome_iff_exists.mp (SessionStore.getSession_active.mpr ha)
    rcases hcases key session hs with ⟨hkey, -⟩ | ⟨-, hold⟩
    · exact .inl hkey
    · exact .inr (active_of_getSession hold)
  have hspelling : ∀ key, g.server.store.Active g.server.now key →
      decodeKey base64Decode key = decodeKey base64Decode q.wgKey → key = q.wgKey :=
    fun key ha hsame => onlySpelling_iff.mp hc key ha (by rw [keyOf, keyOf, hsame])
  refine ⟨hservice ▸ handleRegistration_ready hi.ready hr, hsound, ?_, ?_, lapsed_of_op hop⟩
  · intro key session hs
    rw [hservice]
    rcases hcases key session hs with ⟨rfl, hip⟩ | ⟨-, hold⟩
    · exact ⟨pk, o, hk, hl, hip⟩
    · obtain ⟨pk', o', hk', hl', hip'⟩ := hi.held key session hold
      exact ⟨pk', o', hk', handleRegistration_lookup hi.ready hr hl', hip'⟩
  · intro key₁ key₂ h₁ h₂ hsame
    rcases hother key₁ h₁ with rfl | h₁
    · rcases hother key₂ h₂ with rfl | h₂
      · rfl
      · exact (hspelling key₂ h₂ hsame.symm).symm
    · rcases hother key₂ h₂ with rfl | h₂
      · exact hspelling key₁ h₁ hsame
      · exact hi.spelt key₁ key₂ h₁ h₂ hsame

theorem register_tied (hi : Tied cfg settings base64Decode g)
    (hc : g.spares base64Decode (.register port octet))
    (hs : g.step cfg settings base64Decode base64Encode (.register port octet) = some g') :
    Tied cfg settings base64Decode g' := by
  simp only [step] at hs
  split at hs
  · rename_i r hop
    obtain ⟨wgKey, hkey, hs⟩ := Option.bind_eq_some_iff.mp hs
    obtain ⟨⟨service, response⟩, hr, hs⟩ := Option.bind_eq_some_iff.mp hs
    obtain ⟨server, hserver, rfl⟩ := Option.map_eq_some_iff.mp hs
    have hsound := Server.step_sound hi.sound hserver
    have hkeep (hstore : server.store = g.server.store) (hnow : server.now = g.server.now) :
        Tied cfg settings base64Decode ⟨server, service, opAfter server r⟩ := by
      refine hi.inherit (handleRegistration_ready hi.ready hr) hsound ?_
        (fun key pk o _ _ hl => handleRegistration_lookup hi.ready hr hl)
        (lapsed_of_op (opAfter_ne _ _))
      simp only [hstore, hnow]
      exact inherits_elapse _ le_rfl
    obtain ⟨effs, hmove⟩ := Server.step_iff.mp hserver
    obtain ⟨phase, out, hphase, hserve, rfl, -⟩ := Server.move_event.mp hmove
    rw [hphase] at hkey
    cases phase with
    | probing | verifying | answered => cases hkey
    | renewing q ref minutes =>
      cases hkey
      cases hserve
      refine hkeep ?_ rfl
      simp only [renewRegistered]
      split
      · rfl
      · split <;> rfl
    | connecting q minutes payer =>
      cases hkey
      cases hserve
      rcases connectRegistered_store g.server.now g.server.spent g.server.store q minutes payer
        (registerWireGuardPeer base64Encode response) with hstore | ⟨data, hok, hstore⟩
      · exact hkeep hstore rfl
      · have honly : g.onlySpelling base64Decode q.wgKey := by
          simpa [spares, hop, hphase] using hc
        exact connected_tied hi honly hr hok hstore rfl rfl hsound (opAfter_ne _ _)
  · cases hs

theorem step_tied (hi : Tied cfg settings base64Decode g) (hc : g.spares base64Decode i)
    (hs : g.step cfg settings base64Decode base64Encode i = some g') :
    Tied cfg settings base64Decode g' := by
  cases i with
  | elapse ms => exact elapse_tied hi hs
  | request r route body proof => exact request_tied hi hs
  | event e => exact event_tied hi hs
  | register port octet => exact register_tied hi hc hs
  | tick t => exact tick_tied hi hs
  | unregister => exact unregister_tied hi hc hs
  | reap ages => exact reap_tied hi hc hs

end

/-- In a run in which the reaper finds the peers of paid sessions recent, and
nothing is done to a second spelling of their keys, every active session has
its peer, with an address of its own. -/
theorem paid_registered (cfg : VpnServer.ServerConfig) (settings : Settings)
    (base64Decode : String → Option Bytes) (base64Encode : Bytes → String) (start : Int)
    (d : Device) (is : List Input)
    (hc : Along (step cfg settings base64Decode base64Encode)
      (fun g i => g.spares base64Decode i = true) (init start d) is)
    (he : exec (step cfg settings base64Decode base64Encode) (init start d) is = some g) :
    g.Reports settings base64Decode :=
  (invariant (fun _ _ _ hi hc hs => step_tied hi hc hs) (init_tied start d) hc he).reports

/-- A session of 15 minutes, and a tick of the reaper in its twelfth. -/
def sampleIdle (ages : Bytes32 → Option Nat) : List Input :=
  [.request 0 .connect { sampleBody with durationMinutes := .number 15 }
      (some (sampleProof sampleHash)),
    .event (.probed (.ok ())), .event (.receipt (some sampleReceipt)), .event .verified,
    .register (some 51820) 2, .elapse 700000, .reap ages]

/-- The client had a handshake 20 seconds before the tick. -/
theorem paid_registered_sample :
    ∃ g, exec (step sampleServerConfig sampleSettings sampleDecode sampleEncode)
        (init 0 (sampleKeyed samplePrimitives)) (sampleIdle fun _ => some 20) = some g ∧
      (g.server.store.getSession g.server.now sampleKey).isSome ∧
      g.Reports sampleSettings sampleDecode := by
  have hrun : ((exec (step sampleServerConfig sampleSettings sampleDecode sampleEncode)
      (init 0 (sampleKeyed samplePrimitives)) (sampleIdle fun _ => some 20)).map fun g =>
        (g.server.store.getSession g.server.now sampleKey).isSome) = some true := by
    decide +kernel
  have hc : Along (step sampleServerConfig sampleSettings sampleDecode sampleEncode)
      (fun g i => g.spares sampleDecode i = true) (init 0 (sampleKeyed samplePrimitives))
      (sampleIdle fun _ => some 20) := by
    decide +kernel
  obtain ⟨g, he, hg⟩ := Option.map_eq_some_iff.mp hrun
  exact ⟨g, he, hg, paid_registered _ _ _ _ _ _ _ hc he⟩

/-- The client was idle from the start: its session goes on without a peer. -/
theorem reaped_paid :
    ∃ g, exec (step sampleServerConfig sampleSettings sampleDecode sampleEncode)
        (init 0 (sampleKeyed samplePrimitives)) (sampleIdle fun _ => none) = some g ∧
      ¬ g.Reports sampleSettings sampleDecode := by
  have hrun : ((exec (step sampleServerConfig sampleSettings sampleDecode sampleEncode)
      (init 0 (sampleKeyed samplePrimitives)) (sampleIdle fun _ => none)).map fun g =>
        ((g.server.store.getSession g.server.now sampleKey).isSome,
          g.service.inner.peerToOctet.lookup samplePeerKey)) = some (true, none) := by
    decide +kernel
  obtain ⟨g, he, hg⟩ := Option.map_eq_some_iff.mp hrun
  obtain ⟨hactive, hgone⟩ := Prod.mk.inj hg
  refine ⟨g, he, fun hr => ?_⟩
  obtain ⟨session, hs⟩ := Option.isSome_iff_exists.mp hactive
  obtain ⟨pk, octet, hk, hl, -⟩ := hr.registered sampleKey session hs
  have hpk : decodeKey sampleDecode sampleKey = .ok samplePeerKey := by decide +kernel
  obtain rfl : pk = samplePeerKey := Except.ok.inj (hk.symm.trans hpk)
  cases hgone.symm.trans hl

end Stack

end Xelt.Gateway
