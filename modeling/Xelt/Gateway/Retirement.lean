import Xelt.Gateway.Provisioning

/-!
# The expiry worker and the peers that are gone

A tick of the expiry worker over boringtun, with everything else of the two
programs between its calls: boringtun serves each call of the tick, and some
time later the worker has the answer. A peer that the reaper or a clear has
removed is answered with 404, which the worker takes for a failure.
-/

namespace Xelt.Gateway

open Runs Boringtun Boringtun.HttpApi VpnServer

/-- `handle_unregister`, with what becomes of its UAPI call. -/
def serveUnregister (base64Decode : String → Option Bytes) (s : Service) (pubkeyBase64 : String)
    (c : Call) : Service × HttpApi.Response :=
  match beginUnregister base64Decode s.inner pubkeyBase64 with
  | .answer inner r => ({ s with inner }, r)
  | .call inner key octet =>
    let (device, reply) := uapiRemovePeer s.device key c
    let (inner, r) := finishUnregister inner key octet reply
    ({ s with device, inner }, r)

structure Retirement where
  server : Server
  service : Service
  /-- The answers of boringtun on their way to the ticks. -/
  replies : Nat → Option HttpApi.Response

namespace Retirement

inductive Input
  /-- Anything of the VPN server but its ticks. -/
  | server (i : VpnServer.Input)
  /-- Anything of boringtun but the calls of the ticks. -/
  | service (i : HttpApi.Input)
  /-- The timer of the expiry worker fires. -/
  | tick (t : Nat)
  /-- boringtun serves the call of a tick. -/
  | serve (t : Nat) (c : Call)
  /-- The tick gets the answer, and goes on to its next session. -/
  | deliver (t : Nat)

section
variable (cfg : VpnServer.ServerConfig) (settings : Settings) (base64Decode : String → Option Bytes)
  (base64Encode : Bytes → String)

/-- The key a tick has boringtun drop the peer of. -/
def wgKey (g : Retirement) (t : Nat) : Option String :=
  (g.server.ticks t).head?.bind g.server.store.keyAt

def step (g : Retirement) : Input → Option Retirement
  | .server (.tick _) => none
  | .server (.unregistered _ _) => none
  | .server i => (g.server.step cfg i).map fun server => { g with server }
  | .service i => (g.service.step settings base64Decode i).map fun service => { g with service }
  | .tick t =>
    (g.server.step cfg (.tick t)).map fun server =>
      { g with server, replies := Function.update g.replies t none }
  | .serve t c =>
    if g.service.handlerFree ∧ g.replies t = none then
      (g.wgKey t).map fun key =>
        let (service, response) := serveUnregister base64Decode g.service key c
        { g with service, replies := Function.update g.replies t (some response) }
    else none
  | .deliver t =>
    (g.replies t).bind fun response =>
      (g.server.step cfg (.unregistered t (unregisterWireGuardPeer base64Encode response))).map
        fun server => { g with server, replies := Function.update g.replies t none }

/-- A tick from its start to its end. -/
structure TickRun (t : Nat) (g : Retirement) (is : List Input) (g₁ g' : Retirement) : Prop where
  begun : step cfg settings base64Decode base64Encode g (.tick t) = some g₁
  run : exec (step cfg settings base64Decode base64Encode) g₁ is = some g'
  once : .tick t ∉ is
  ended : g'.server.ticks t = []

def listed (g : Retirement) : List Nat := g.server.store.listExpired g.server.now

/-- No session that the tick has listed is left in the store at its end. -/
def Retires (t : Nat) (g : Retirement) (is : List Input) : Prop :=
  ∀ g₁ g', TickRun cfg settings base64Decode base64Encode t g is g₁ g' →
    ∀ ref ∈ g.listed, ¬ g'.server.store.Stored ref

/-- boringtun serves the tick's call for the session, has its peer, and the
device confirms the removal. -/
def Confirmed (t ref : Nat) (g : Retirement) (i : Input) : Prop :=
  i = .serve t .ok ∧ (g.server.ticks t).head? = some ref ∧
    ∃ key ∈ (g.wgKey t).bind (keyOf base64Decode), (g.service.inner.peerToOctet.lookup key).isSome

/-- Someone else takes the session out of the map. -/
def TakenOut (t ref : Nat) (g : Retirement) (i : Input) : Prop :=
  i ≠ .deliver t ∧ g.server.store.Stored ref ∧
    ∃ g', step cfg settings base64Decode base64Encode g i = some g' ∧ ¬ g'.server.store.Stored ref

end

-- ---------------------------------------------------------------------------
-- What becomes of one session
-- ---------------------------------------------------------------------------

section
variable {cfg : VpnServer.ServerConfig} {settings : Settings} {base64Decode : String → Option Bytes}
  {base64Encode : Bytes → String} {g : Retirement} {t ref : Nat} {wgKey : String}

/-- The session is gone, or its tick is about to hear that its peer is. -/
def Going (t ref : Nat) (g : Retirement) : Prop :=
  ¬ g.server.store.Stored ref ∨
    (g.server.ticks t).head? = some ref ∧ ∃ response ∈ g.replies t, resOk response

/-- The object of the session has its key, and no other session of the tick
has the same. -/
structure Kept (t ref : Nat) (wgKey : String) (g : Retirement) : Prop where
  key : g.server.store.keyAt ref = some wgKey
  only : ∀ other ∈ g.server.ticks t, g.server.store.keyAt other = some wgKey → other = ref
  /-- The sessions of a tick have objects. -/
  keyed : ∀ other ∈ g.server.ticks t, (g.server.store.keyAt other).isSome

theorem resOk_serveUnregister (s : Service) (key : String) (c : Call) :
    resOk (serveUnregister base64Decode s key c).2 ↔
      c = .ok ∧ ∃ pk ∈ keyOf base64Decode key, (s.inner.peerToOctet.lookup pk).isSome := by
  unfold serveUnregister beginUnregister keyOf
  cases decodeKey base64Decode key with
  | error e => simp [resOk, Except.toOption]
  | ok pk =>
    cases hl : s.inner.peerToOctet.lookup pk with
    | none => simp [resOk, Except.toOption, hl]
    | some octet => cases c <;> simp [resOk, Except.toOption, hl, uapiRemovePeer, finishUnregister]

/-- What a step does to the tick: nothing, or the service of its call, or its
answer, by which it deletes the key of the session or not. -/
inductive Stepped (base64Decode : String → Option Bytes) (t : Nat) (g : Retirement) :
    Input → Retirement → Prop
  | apart (hserve : ∀ c, i ≠ .serve t c) (hdeliver : i ≠ .deliver t)
      (hticks : g'.server.ticks t = g.server.ticks t) (hreplies : g'.replies t = g.replies t)
      (hwrite : g.server.store.Write g'.server.store) : Stepped base64Decode t g i g'
  | served (hkey : g.wgKey t = some key) (hserver : g'.server = g.server)
      (hnone : g.replies t = none)
      (hreply : g'.replies t = some (serveUnregister base64Decode g.service key c).2) :
      Stepped base64Decode t g (.serve t c) g'
  | answered (hreply : g.replies t = some response) (hticks : g.server.ticks t = first :: rest)
      (hrest : g'.server.ticks t = rest) (hnone : g'.replies t = none)
      (hstore : g'.server.store =
        if resOk response then
          (g.server.store.keyAt first).elim g.server.store g.server.store.delete
        else g.server.store) :
      Stepped base64Decode t g (.deliver t) g'

theorem unregistered_step {server : Server} {response : HttpApi.Response}
    (hs : g.server.step cfg (.unregistered t (unregisterWireGuardPeer base64Encode response)) =
      some server) :
    ∃ first rest, g.server.ticks t = first :: rest ∧
      server.ticks = Function.update g.server.ticks t rest ∧
      server.store = if resOk response then
          (g.server.store.keyAt first).elim g.server.store g.server.store.delete
        else g.server.store := by
  simp only [Server.step, Server.move, unregisterWireGuardPeer] at hs
  split at hs
  · cases hs
  · rename_i first rest hticks
    cases hs
    refine ⟨first, rest, hticks, rfl, ?_⟩
    cases hok : resOk response with
    | false => simp
    | true => cases hobj : g.server.store.objects[first]? <;>
        simp [SessionStore.keyAt, hobj, SessionStore.deleteSession]

theorem stepped (hs : step cfg settings base64Decode base64Encode g i = some g')
    (ht : i ≠ .tick t) : Stepped base64Decode t g i g' := by
  cases i with
  | server j =>
    have hserver : ∃ server, g.server.step cfg j = some server ∧ g' = { g with server } ∧
        j ≠ .tick t ∧ ∀ outcome, j ≠ .unregistered t outcome := by
      cases j with
      | tick | unregistered => cases hs
      | elapse | request | event | clear =>
        simp only [step] at hs
        obtain ⟨server, hserver, rfl⟩ := Option.map_eq_some_iff.mp hs
        refine ⟨server, hserver, rfl, ?_, fun outcome => ?_⟩ <;> rintro ⟨⟩
    obtain ⟨server, hserver, rfl, htick, hun⟩ := hserver
    exact .apart (by rintro c ⟨⟩) (by rintro ⟨⟩) (Server.ticks_same hserver htick hun) rfl
      (Server.step_write hserver)
  | service j =>
    obtain ⟨service, -, rfl⟩ := Option.map_eq_some_iff.mp hs
    exact .apart (by rintro c ⟨⟩) (by rintro ⟨⟩) rfl rfl .none
  | tick t' =>
    have hne : t ≠ t' := fun h => ht (h ▸ rfl)
    obtain ⟨server, hserver, rfl⟩ := Option.map_eq_some_iff.mp hs
    refine .apart (by rintro c ⟨⟩) (by rintro ⟨⟩) (Server.ticks_same hserver ?_ ?_)
      (Function.update_of_ne hne _ _) (Server.step_write hserver)
    · rintro ⟨⟩
      exact hne rfl
    · rintro outcome ⟨⟩
  | serve t' c =>
    simp only [step] at hs
    split at hs
    · rename_i hready
      obtain ⟨key, hkey, rfl⟩ := Option.map_eq_some_iff.mp hs
      by_cases hne : t = t'
      · subst hne
        exact .served hkey rfl hready.2 (Function.update_self ..)
      · refine .apart ?_ (by rintro ⟨⟩) rfl (Function.update_of_ne hne _ _) .none
        rintro c ⟨⟩
        exact hne rfl
    · cases hs
  | deliver t' =>
    obtain ⟨response, hreply, hs⟩ := Option.bind_eq_some_iff.mp hs
    obtain ⟨server, hserver, rfl⟩ := Option.map_eq_some_iff.mp hs
    by_cases hne : t = t'
    · subst hne
      obtain ⟨first, rest, hticks, hrest, hstore⟩ := unregistered_step hserver
      refine .answered hreply hticks ?_ (Function.update_self ..) hstore
      exact (congrFun hrest t).trans (Function.update_self ..)
    · refine .apart (by rintro c ⟨⟩) ?_ (Server.ticks_same hserver (by rintro ⟨⟩) ?_)
        (Function.update_of_ne hne _ _) (Server.step_write hserver)
      · rintro ⟨⟩
        exact hne rfl
      · rintro outcome ⟨⟩
        exact hne rfl

theorem Kept.write {g' : Retirement} (hk : g.Kept t ref wgKey)
    (hw : g.server.store.Write g'.server.store) (hsub : g'.server.ticks t ⊆ g.server.ticks t) :
    g'.Kept t ref wgKey := by
  have hsame : ∀ other ∈ g'.server.ticks t,
      g'.server.store.keyAt other = g.server.store.keyAt other := by
    intro other hmem
    obtain ⟨key, hkey⟩ := Option.isSome_iff_exists.mp (hk.keyed other (hsub hmem))
    rw [hkey, hw.keyAt hkey]
  refine ⟨hw.keyAt hk.key, fun other hmem hkey => ?_, fun other hmem => ?_⟩
  · exact hk.only other (hsub hmem) ((hsame other hmem).symm.trans hkey)
  · exact (hsame other hmem).symm ▸ hk.keyed other (hsub hmem)

theorem Stepped.kept (h : Stepped base64Decode t g i g') (hk : g.Kept t ref wgKey) :
    g'.Kept t ref wgKey := by
  cases h with
  | apart hserve hdeliver hticks hreplies hwrite =>
    exact hk.write hwrite (hticks ▸ List.Subset.refl _)
  | served hkey hserver => exact hk.write (hserver ▸ .none) (hserver ▸ List.Subset.refl _)
  | answered hreply hticks hrest hnone hstore =>
    rename_i response first rest
    refine hk.write ?_ (hrest ▸ hticks ▸ List.subset_cons_self first rest)
    rw [hstore]
    split
    · cases g.server.store.keyAt first with
      | none => exact .none
      | some key => exact .delete key
    · exact .none

/-- The session gets going by the confirmation of its call, and by whoever
else takes it out of the map. -/
theorem Stepped.going_iff (h : Stepped base64Decode t g i g') (hk : g.Kept t ref wgKey)
    (hs : step cfg settings base64Decode base64Encode g i = some g') :
    g'.Going t ref ↔ g.Going t ref ∨ (g.Confirmed base64Decode t ref i ∨
      g.TakenOut cfg settings base64Decode base64Encode t ref i) := by
  cases h with
  | apart hserve hdeliver hticks hreplies hwrite =>
    have hconfirmed : ¬ g.Confirmed base64Decode t ref i := fun h => hserve .ok h.1
    have htaken : g.TakenOut cfg settings base64Decode base64Encode t ref i ↔
        g.server.store.Stored ref ∧ ¬ g'.server.store.Stored ref := by
      simp [TakenOut, hdeliver, hs]
    have hback := hwrite.stored hk.key
    simp only [Going, hticks, hreplies, hconfirmed, htaken, false_or]
    by_cases hstored : g'.server.store.Stored ref
    · simp [hstored, hback hstored]
    · by_cases hbefore : g.server.store.Stored ref <;> simp [hstored, hbefore]
  | served hkey hserver hnone hreply =>
    rename_i key c
    have htaken : ¬ g.TakenOut cfg settings base64Decode base64Encode t ref (.serve t c) := by
      rintro ⟨-, hstored, g₁, hs₁, hgone⟩
      cases hs.symm.trans hs₁
      exact hgone (hserver ▸ hstored)
    have hok : resOk (serveUnregister base64Decode g.service key c).2 ↔ _ :=
      resOk_serveUnregister g.service key c
    simp only [Going, Confirmed, hserver, hreply, hnone, hkey, htaken]
    simp only [Option.mem_def, Option.some.injEq, exists_eq_left', hok, Option.bind_some]
    simp only [reduceCtorEq, false_and, exists_false, and_false, or_false, Input.serve.injEq,
      true_and]
    rw [and_left_comm]
  | answered hreply hticks hrest hnone hstore =>
    rename_i response first rest
    have hconfirmed : ¬ g.Confirmed base64Decode t ref (.deliver t) := by
      rintro ⟨h, -⟩
      cases h
    have htaken : ¬ g.TakenOut cfg settings base64Decode base64Encode t ref (.deliver t) :=
      fun h => h.1 rfl
    have hafter : g'.Going t ref ↔ ¬ g'.server.store.Stored ref := by simp [Going, hnone]
    rw [hafter, or_iff_left (not_or.mpr ⟨hconfirmed, htaken⟩), hstore]
    obtain ⟨key, hkey⟩ := Option.isSome_iff_exists.mp
      (hk.keyed first (hticks ▸ List.mem_cons_self))
    simp only [Going, hticks, List.head?_cons, Option.some.injEq, hreply, Option.mem_def,
      exists_eq_left', hkey, Option.elim_some]
    cases hok : resOk response with
    | false => simp
    | true =>
      rw [if_pos rfl, SessionStore.stored_delete hk.key, not_and_or, not_not]
      have hfirst : wgKey = key ↔ first = ref := by
        constructor
        · rintro rfl
          exact hk.only first (hticks ▸ List.mem_cons_self) hkey
        · rintro rfl
          exact Option.some.inj (hk.key.symm.trans hkey)
      rw [hfirst, or_comm]
      simp

theorem begun_kept (hs : step cfg settings base64Decode base64Encode g (.tick t) = some g')
    (href : ref ∈ g.listed) : ∃ wgKey, g'.Kept t ref wgKey ∧ ¬ g'.Going t ref := by
  obtain ⟨server, hserver, rfl⟩ := Option.map_eq_some_iff.mp hs
  obtain ⟨effs, hmove⟩ := Server.step_iff.mp hserver
  obtain ⟨-, rfl, -⟩ := Server.move_tick hmove
  have hget : ∀ other ∈ g.listed, ∃ key, g.server.store.sessions.get key = some other := by
    intro other hmem
    obtain ⟨key, session, hget, -⟩ := SessionStore.mem_listExpired.mp hmem
    exact ⟨key, hget⟩
  obtain ⟨wgKey, hkey⟩ := hget ref href
  refine ⟨wgKey, ⟨SessionStore.keyAt_of_get hkey, ?_, ?_⟩, ?_⟩
  · intro other hmem hother
    simp only [Function.update_self] at hmem
    obtain ⟨key, hkey'⟩ := hget other hmem
    cases (SessionStore.keyAt_of_get hkey').symm.trans hother
    exact Option.some.inj (hkey'.symm.trans hkey)
  · intro other hmem
    simp only [Function.update_self] at hmem
    obtain ⟨key, hkey'⟩ := hget other hmem
    exact Option.isSome_iff_exists.mpr ⟨key, SessionStore.keyAt_of_get hkey'⟩
  · simp only [Going, Function.update_self]
    rintro (hgone | ⟨-, response, hreply, -⟩)
    · exact hgone ⟨wgKey, hkey⟩
    · cases hreply

/-- A session that the tick has listed is gone at its end exactly when its
call was confirmed, or someone else has taken it out of the map. -/
theorem TickRun.gone_iff (h : TickRun cfg settings base64Decode base64Encode t g is g₁ g')
    (href : ref ∈ g.listed) :
    ¬ g'.server.store.Stored ref ↔
      Sometime (step cfg settings base64Decode base64Encode)
        (fun g i => g.Confirmed base64Decode t ref i ∨
          g.TakenOut cfg settings base64Decode base64Encode t ref i) g₁ is := by
  obtain ⟨wgKey, hkept, hgoing⟩ := begun_kept h.begun href
  have hrun := sometime_rule (C := (· ≠ .tick t)) (I := Kept t ref wgKey) (Q := Going t ref)
    (fun _ _ _ hk hi hs => (stepped hs hi).kept hk)
    (fun _ _ _ hk hi hs => (stepped hs hi).going_iff hk hs) hkept
    (fun i hi => by rintro rfl; exact h.once hi) h.run
  rw [or_iff_right hgoing] at hrun
  rw [← hrun]
  simp [Going, h.ended]

/-- No listed session is left, exactly when of each of them boringtun had the
peer and the device confirmed its removal, or someone else took it out. -/
theorem retires_iff (cfg : VpnServer.ServerConfig) (settings : Settings)
    (base64Decode : String → Option Bytes) (base64Encode : Bytes → String) (t : Nat)
    (g : Retirement) (is : List Input) :
    Retires cfg settings base64Decode base64Encode t g is ↔
      ∀ g₁ g', TickRun cfg settings base64Decode base64Encode t g is g₁ g' → ∀ ref ∈ g.listed,
        Sometime (step cfg settings base64Decode base64Encode)
          (fun g i => g.Confirmed base64Decode t ref i ∨
            g.TakenOut cfg settings base64Decode base64Encode t ref i) g₁ is :=
  forall₂_congr fun _ _ => forall_congr' fun h => forall₂_congr fun _ href => h.gone_iff href

end

-- ---------------------------------------------------------------------------
-- A peer that the reaper has removed
-- ---------------------------------------------------------------------------

def sampleStart : Retirement where
  server := .init 0
  service := sampleService
  replies _ := none

/-- A session of 20 minutes whose client never comes: after ten of them the
reaper removes its peer. -/
def sampleReaped : List Input :=
  [.server (.request 0 .connect { sampleBody with durationMinutes := .number 20 }
      (some (sampleProof sampleHash))),
    .server (.event 0 (.probed (.ok ()))), .server (.event 0 (.receipt (some sampleReceipt))),
    .server (.event 0 .verified), .service sampleRegister, .service (.uapi .ok), .service .reply,
    .server (.event 0 (.registered (.ok sampleRegistered))),
    .server (.elapse 601000), .service (.elapse (601 * 10 ^ 9)),
    .service (.snapshot (.ok fun _ => none)), .service .readClock, .service .scan,
    .service (.reap .ok), .server (.elapse 599000), .service (.elapse (599 * 10 ^ 9))]

/-- The call of a tick with one session, and its answer. -/
def sampleCall (t : Nat) : List Input := [.serve t .ok, .deliver t]

/-- boringtun answers the tick with 404, the session stays, and the next tick
lists it again. -/
theorem reaped_left :
    ∃ g, exec (step sampleServerConfig sampleSettings sampleDecode sampleEncode) sampleStart
        sampleReaped = some g ∧
      ¬ Retires sampleServerConfig sampleSettings sampleDecode sampleEncode 0 g (sampleCall 0) ∧
      ∃ g', exec (step sampleServerConfig sampleSettings sampleDecode sampleEncode) g
        (.tick 0 :: sampleCall 0) = some g' ∧ g'.listed = g.listed := by
  have hrun : ((exec (step sampleServerConfig sampleSettings sampleDecode sampleEncode) sampleStart
      sampleReaped).bind fun g =>
        (step sampleServerConfig sampleSettings sampleDecode sampleEncode g
          (.tick 0)).bind fun g₁ =>
          (exec (step sampleServerConfig sampleSettings sampleDecode sampleEncode) g₁
            (sampleCall 0)).map fun g' =>
              (g.listed, g'.server.ticks 0, g'.server.store.sessions.values, g'.listed)) =
        some ([0], [], [0], [0]) := by
    decide +kernel
  obtain ⟨g, hg, hrun⟩ := Option.bind_eq_some_iff.mp hrun
  obtain ⟨g₁, hg₁, hrun⟩ := Option.bind_eq_some_iff.mp hrun
  obtain ⟨g', hg', hrun⟩ := Option.map_eq_some_iff.mp hrun
  simp only [Prod.mk.injEq] at hrun
  obtain ⟨hlisted, hover, hvalues, hagain⟩ := hrun
  refine ⟨g, hg, fun h => ?_, g', ?_, hagain.trans hlisted.symm⟩
  · have hgone := h g₁ g' ⟨hg₁, hg', by simp [sampleCall], hover⟩ 0 (by simp [hlisted])
    refine hgone ?_
    rw [SessionStore.Stored, ← OrderedMap.mem_values, hvalues]
    exact List.mem_singleton_self 0
  · exact (exec_cons_some _).mpr ⟨g₁, hg₁, hg'⟩

end Retirement

end Xelt.Gateway
