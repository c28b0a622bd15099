import Xelt.Boringtun.HttpApi.Reaper
import Xelt.Boringtun.Noise.Timers

/-!
# How old a tick takes a handshake to be

The age a tick reads is made by the timers of the tunnel, printed only while
there is a current session, and cut to seconds; an age of 0 and none at all
are both answered by the age of the registration. Here one peer of the service
is followed together with its tunnel, and with the time of its last completed
handshake, which no part of the code keeps.
-/

namespace Xelt.Boringtun.HttpApi

open Runs Noise

structure Watch where
  service : Service
  /-- The tunnel the device keeps for the peer. -/
  tunnel : TimedTunn
  /-- When the tunnel last completed a handshake, by the clock of the service. -/
  handshakeAt : Option Nat
  /-- The tunnel as the last snapshot found it. -/
  seen : Option TimedTunn
  /-- The device added the peer since the last snapshot. -/
  added : Bool

namespace Watch

inductive Input
  | service (i : HttpApi.Input)
  | tunnel (c : TimedTunn.Call)

def init (d : Device) : Watch where
  service := .init d
  tunnel := .new none
  handshakeAt := none
  seen := none
  added := false

section
variable (key : Bytes32)

def held (w : Watch) : Bool := (w.service.device.peers.lookup key).isSome

/-- A peer the device adds starts with a tunnel of its own. -/
def advance (w : Watch) (s : Service) : Watch :=
  if !w.held key && (s.device.peers.lookup key).isSome then
    { w with service := s, tunnel := .new none, handshakeAt := none, added := true }
  else { w with service := s }

/-- The tunnel and the service read one clock, and a snapshot lists the age
the tunnel tells. -/
def step (cfg : Settings) (base64Decode : String → Option Bytes) (w : Watch) :
    Input → Option Watch
  | .tunnel c =>
    if w.held key then
      some { w with
        tunnel := (w.tunnel.call c).1
        handshakeAt := if c.completesHandshake then some w.service.now else w.handshakeAt }
    else none
  | .service (.elapse ns) =>
    (w.service.step cfg base64Decode (.elapse ns)).map fun s =>
      { w with service := s, tunnel := w.tunnel.elapse ns }
  | .service (.snapshot (.ok ages)) =>
    let ages := Function.update ages key w.tunnel.lastHandshakeTimeSec
    (w.service.step cfg base64Decode (.snapshot (.ok ages))).map fun s =>
      { w with
        service := s
        seen := if w.held key then some w.tunnel else none
        added := false }
  | .service i => (w.service.step cfg base64Decode i).map (w.advance key)

/-- The last handshake is too old, or there was none and the registration is. -/
def stale (w : Watch) : Bool :=
  match w.handshakeAt with
  | some t => w.service.now - t > stalePeerSecs * second
  | none => (w.service.inner.peerRegisteredAt.lookup key).any fun registeredAt =>
      w.service.now - registeredAt > staleNeverConnectedSecs * second

/-- A tick removes the peer, while the device holds it, only if it is stale. -/
def ReapsStale (w : Watch) (i : Input) : Prop :=
  ∀ c octet rest, i = .service (.reap c) → w.service.reaper = .reaping ((key, octet) :: rest) →
    w.held key → w.stale key

/-- What a snapshot found of the tunnel spares the peer: a current session
established 1 to 600 seconds before, or none of a second or more, and the
registration at most 600 seconds old. -/
def spared (w : Watch) (t : TimedTunn) (nowInstant : Nat) : Bool :=
  let age := t.clock - t.timers .timeSessionEstablished
  t.currentSession.isSome && second ≤ age && age < 601 * second ||
    !(t.currentSession.isSome && second ≤ age) &&
      (w.service.inner.peerRegisteredAt.lookup key).all fun registeredAt =>
        nowInstant - registeredAt < 601 * second

/-- A scan spares the peer unless it is stale, for the tunnel it was judged by
never completed a handshake and is still the peer's, or was found with one the
tick goes by; and no handshake completes while its removal is under way. -/
def tickSound (w : Watch) : Input → Bool
  | .service .scan =>
    match w.service.reaper with
    | .timed _ nowInstant =>
      !(w.service.inner.peerToOctet.lookup key).isSome || !w.held key || w.stale key ||
        w.seen.any fun t => w.handshakeAt.isNone && !w.added || w.spared key t nowInstant
    | _ => true
  | .tunnel c =>
    match w.service.reaper with
    | .reaping rest => !c.completesHandshake || rest.all (·.1 ≠ key)
    | _ => true
  | _ => true

end

-- ---------------------------------------------------------------------------
-- The service and its ticks
-- ---------------------------------------------------------------------------

theorem ofRest_cases (l : List (Bytes32 × UInt8)) :
    ReaperPc.ofRest l = .idle ∨ ReaperPc.ofRest l = .reaping l := by
  cases l with
  | nil => exact .inl rfl
  | cons e rest => exact .inr rfl

variable {cfg : Settings} {base64Decode : String → Option Bytes} {key : Bytes32}

theorem service_tick {s s' : Service} (h : ∀ rest, s.reaper ≠ .reaping rest)
    (hs : s.step cfg base64Decode i = some s') :
    s.now ≤ s'.now ∧
      (s'.reaper = s.reaper ∨
        (∃ ages, i = .snapshot (.ok ages) ∧
          s' = { s with reaper := .queried (uapiGetPeers s.device ages), committed := ∅ }) ∨
        (∃ snapshot, s.reaper = .queried snapshot ∧
          s' = { s with reaper := .timed snapshot s.now }) ∨
        ∃ snapshot nowInstant, i = .scan ∧ s.reaper = .timed snapshot nowInstant ∧ s.http = .idle ∧
          s' = { s with reaper := .ofRest (toRemove s.inner snapshot nowInstant) }) := by
  cases i with
  | scan =>
    simp only [Service.step] at hs
    split at hs
    · rename_i snapshot nowInstant hr hidle
      cases hs
      exact ⟨le_rfl, .inr (.inr (.inr ⟨snapshot, nowInstant, rfl, hr, hidle, rfl⟩))⟩
    · cases hs
  | reap c =>
    simp only [Service.step] at hs
    split at hs
    · rename_i hr
      exact absurd hr (h _)
    · cases hs
  | snapshot ages =>
    simp only [Service.step] at hs
    split at hs
    · rename_i ages hr
      cases hs
      exact ⟨le_rfl, .inr (.inl ⟨ages, rfl, rfl⟩)⟩
    · cases hs
      exact ⟨le_rfl, .inl rfl⟩
    · cases hs
  | readClock =>
    simp only [Service.step] at hs
    split at hs
    · rename_i snapshot hr
      cases hs
      exact ⟨le_rfl, .inr (.inr (.inl ⟨snapshot, hr, rfl⟩))⟩
    · cases hs
  | elapse ns =>
    cases hs
    exact ⟨Nat.le_add_right .., .inl rfl⟩
  | _ =>
    refine ⟨?_, .inl ?_⟩ <;>
    · simp only [Service.step] at hs
      repeat' split at hs
      all_goals first
        | (cases hs; done)
        | (obtain rfl := Option.some.inj hs; rfl)

-- ---------------------------------------------------------------------------
-- What a snapshot knows of the tunnel
-- ---------------------------------------------------------------------------

/-- The tick in progress goes by what its snapshot found, and removes the
peer only when it is stale. -/
structure Tracks (key : Bytes32) (w : Watch) : Prop where
  clock : ∀ snapshot nowInstant, w.service.reaper = .timed snapshot nowInstant →
    nowInstant ≤ w.service.now
  listed : ∀ snapshot, w.service.reaper = .queried snapshot ∨
      (∃ nowInstant, w.service.reaper = .timed snapshot nowInstant) →
    snapshot.lookup key = w.seen.map TimedTunn.lastHandshakeTimeSec
  idle : w.handshakeAt = none → w.tunnel.Idle
  seenIdle : ∀ t, w.seen = some t → w.handshakeAt = none → w.added = false → t.Idle
  pending : ∀ rest, w.service.reaper = .reaping rest → w.service.http = .idle ∧
    ∀ e ∈ rest, e.1 = key → w.held key → w.stale key

theorem init_tracks (key : Bytes32) (d : Device) : Tracks key (init d) where
  clock := by simp [init, Service.init]
  listed := by simp [init, Service.init]
  idle := fun _ _ => rfl
  seenIdle := by simp [init]
  pending := by simp [init, Service.init]

theorem advance_cases (key : Bytes32) (w : Watch) (s : Service) :
    w.advance key s = { w with service := s } ∨
      w.held key = false ∧ w.advance key s =
        { w with service := s, tunnel := .new none, handshakeAt := none, added := true } := by
  unfold advance
  split
  · rename_i h
    simp only [Bool.and_eq_true, Bool.not_eq_true'] at h
    exact .inr ⟨h.1, rfl⟩
  · exact .inl rfl

/-- A move of the service keeps the tracking, where the tick in progress is
tracked after it. -/
theorem Tracks.advance {w : Watch} {s : Service} (hi : w.Tracks key)
    (hclock : ∀ snapshot nowInstant, s.reaper = .timed snapshot nowInstant → nowInstant ≤ s.now)
    (hlisted : ∀ snapshot, s.reaper = .queried snapshot ∨
        (∃ nowInstant, s.reaper = .timed snapshot nowInstant) →
      snapshot.lookup key = w.seen.map TimedTunn.lastHandshakeTimeSec)
    (hpending : ∀ rest, s.reaper = .reaping rest → s.http = .idle ∧ ∀ e ∈ rest, e.1 = key →
      (s.device.peers.lookup key).isSome → w.held key ∧
        ({ w with service := s } : Watch).stale key) :
    (w.advance key s).Tracks key := by
  rcases advance_cases key w s with h | ⟨hheld, h⟩
  · rw [h]
    exact ⟨hclock, hlisted, hi.idle, hi.seenIdle,
      fun rest hr => ⟨(hpending rest hr).1,
        fun e he hk hheld => ((hpending rest hr).2 e he hk hheld).2⟩⟩
  · rw [h]
    refine ⟨hclock, hlisted, fun _ _ => rfl, fun _ _ _ hadded => (nomatch hadded),
      fun rest hr => ⟨(hpending rest hr).1, fun e he hk hheld' => ?_⟩⟩
    rw [((hpending rest hr).2 e he hk hheld').1] at hheld
    cases hheld

theorem stale_mono {w w' : Watch} (h : w.stale key) (hat : w'.handshakeAt = w.handshakeAt)
    (hreg : w'.service.inner.peerRegisteredAt.lookup key =
      w.service.inner.peerRegisteredAt.lookup key)
    (hnow : w.service.now ≤ w'.service.now) : w'.stale key := by
  unfold stale at h ⊢
  rw [hat, hreg]
  cases hw : w.handshakeAt with
  | some t =>
    simp only [hw, decide_eq_true_eq] at h ⊢
    omega
  | none =>
    simp only [hw, Option.any_eq_true, decide_eq_true_eq] at h ⊢
    obtain ⟨registeredAt, hr, hage⟩ := h
    exact ⟨registeredAt, hr, by omega⟩

theorem spared_listed {w : Watch} {t : TimedTunn} (h : w.spared key t nowInstant)
    (hl : snapshot.lookup key = some t.lastHandshakeTimeSec) :
    ListedFresh w.service.inner snapshot nowInstant key := by
  simp only [TimedTunn.lastHandshakeTimeSec, TimedTunn.timeSinceLastHandshake] at hl
  simp only [spared, Bool.or_eq_true, Bool.and_eq_true, decide_eq_true_eq, Bool.not_eq_true',
    Bool.and_eq_false_iff, decide_eq_false_iff_not, Nat.not_le, Option.all_eq_true] at h
  rcases h with ⟨⟨hsession, hge⟩, hlt⟩ | ⟨hyoung, hreg⟩
  · rw [if_pos hsession, Option.map_some] at hl
    refine .inl ⟨_, hl, Nat.div_pos hge (by decide), Nat.le_of_lt_succ ?_⟩
    exact Nat.div_lt_of_lt_mul (by rwa [Nat.mul_comm])
  · refine .inr ⟨?_, fun registeredAt hr => hreg registeredAt hr⟩
    by_cases hsession : t.currentSession.isSome
    · rw [if_pos hsession, Option.map_some,
        Nat.div_eq_of_lt (hyoung.resolve_left (by simp [hsession]))] at hl
      exact .inr hl
    · rw [if_neg hsession] at hl
      exact .inl hl

theorem scan_stale {w : Watch} (hi : w.Tracks key) (hc : w.tickSound key (.service .scan))
    (hr : w.service.reaper = .timed snapshot nowInstant)
    (he : e ∈ toRemove w.service.inner snapshot nowInstant) (hk : e.1 = key) (hheld : w.held key) :
    w.stale key := by
  subst hk
  by_contra hstale
  have hlookup := Service.toRemove_lookup he
  obtain ⟨t, hseen, hjudged⟩ : ∃ t, w.seen = some t ∧
      (w.handshakeAt = none ∧ w.added = false ∨ w.spared e.1 t nowInstant) := by
    simpa [tickSound, hr, hlookup, hheld, hstale, Option.any_eq_true] using hc
  have hl := hi.listed snapshot (.inr ⟨nowInstant, hr⟩)
  rw [hseen, Option.map_some] at hl
  have hfresh : ListedFresh w.service.inner snapshot nowInstant e.1 := by
    rcases hjudged with ⟨hnever, hadded⟩ | hspared
    · have hidle := hi.seenIdle t hseen hnever hadded
      rw [TimedTunn.lastHandshakeTimeSec_idle hidle] at hl
      refine .inr ⟨.inl hl, fun registeredAt hreg => ?_⟩
      have hnow := hi.clock snapshot nowInstant hr
      have hage : w.service.now - registeredAt ≤ staleNeverConnectedSecs * second := by
        simpa [stale, hnever, hreg] using hstale
      simp only [staleNeverConnectedSecs, second] at hage
      omega
    · exact spared_listed hspared hl
  rw [← isStale_iff] at hfresh
  simp only [toRemove, List.mem_map, List.mem_filter] at he
  obtain ⟨x, ⟨-, hx⟩, rfl⟩ := he
  rw [hfresh] at hx
  cases hx

theorem reap_held {s s' : Service} (hs : s.step cfg base64Decode (.reap c) = some s')
    (hheld : (s'.device.peers.lookup key).isSome) :
    (s.device.peers.lookup key).isSome ∧
      s'.inner.peerRegisteredAt.lookup key = s.inner.peerRegisteredAt.lookup key ∧
      s'.now = s.now := by
  simp only [Service.step] at hs
  split at hs
  · rename_i k octet rest hr
    cases hs
    have hremoved (h : ((s.device.removePeer k).peers.lookup key).isSome) :
        key ≠ k ∧ (s.device.peers.lookup key).isSome := by
      rw [Device.removePeer_lookup] at h
      split at h
      · cases h
      · rename_i hne
        exact ⟨hne, h⟩
    cases c with
    | ok =>
      obtain ⟨hne, h⟩ := hremoved hheld
      exact ⟨h, AList.lookup_erase_ne hne, rfl⟩
    | errno text => exact ⟨hheld, rfl, rfl⟩
    | failed e => exact ⟨hheld, rfl, rfl⟩
    | inDoubt e => exact ⟨(hremoved hheld).2, rfl, rfl⟩
  · cases hs

theorem Tracks.advance_quiet {w : Watch} {s : Service} (hi : w.Tracks key)
    (hc : w.tickSound key (.service i)) (hr : ∀ rest, w.service.reaper ≠ .reaping rest)
    (hns : ∀ ages, i ≠ .snapshot (.ok ages))
    (hs : w.service.step cfg base64Decode i = some s) : (w.advance key s).Tracks key := by
  obtain ⟨hnow, hsame | ⟨ages, rfl, -⟩ | ⟨snapshot, hq, rfl⟩ |
    ⟨snapshot, nowInstant, rfl, htimed, hidle, rfl⟩⟩ := service_tick hr hs
  · refine hi.advance (fun snapshot nowInstant h => ?_) (fun snapshot h => ?_) fun rest h => ?_
    · rw [hsame] at h
      exact le_trans (hi.clock snapshot nowInstant h) hnow
    · rw [hsame] at h
      exact hi.listed snapshot h
    · rw [hsame] at h
      exact absurd h (hr rest)
  · exact absurd rfl (hns ages)
  · refine hi.advance (fun snapshot' nowInstant h => ?_) (fun snapshot' h => ?_) fun rest h => ?_
    · cases h
      exact le_rfl
    · refine hi.listed snapshot' (.inl ?_)
      rcases h with h | ⟨nowInstant, h⟩ <;> cases h
      exact hq
    · cases h
  · refine hi.advance (fun snapshot' nowInstant' h => ?_) (fun snapshot' h => ?_)
      fun rest h => ⟨hidle, fun e he hk hheld => ⟨hheld, ?_⟩⟩
    · rcases ofRest_cases (toRemove w.service.inner snapshot nowInstant) with ho | ho <;>
        rw [ho] at h <;> cases h
    · rcases ofRest_cases (toRemove w.service.inner snapshot nowInstant) with ho | ho <;>
        rw [ho] at h <;> rcases h with h | ⟨nowInstant', h⟩ <;> cases h
    · rcases ofRest_cases (toRemove w.service.inner snapshot nowInstant) with ho | ho <;>
        rw [ho] at h <;> cases h
      exact stale_mono (scan_stale hi hc htimed he hk hheld) rfl rfl le_rfl

theorem Tracks.advance_reaping {w : Watch} {s : Service} (hi : w.Tracks key)
    (hr : w.service.reaper = .reaping rest)
    (hs : w.service.step cfg base64Decode (.reap c) = some s) : (w.advance key s).Tracks key := by
  obtain ⟨hidle, hstale⟩ := hi.pending rest hr
  obtain ⟨hidle', -, ⟨ns, h, -⟩ | ⟨c, e, rest', -, rfl, hr'⟩⟩ := Service.step_reaping hr hidle hs
  · cases h
  · refine hi.advance (fun snapshot nowInstant h => ?_) (fun snapshot h => ?_)
      fun rest h => ⟨hidle', fun x hx hk hheld => ?_⟩
    · rw [hr'] at h
      rcases ofRest_cases rest' with ho | ho <;> rw [ho] at h <;> cases h
    · rw [hr'] at h
      rcases ofRest_cases rest' with ho | ho <;> rw [ho] at h <;>
        rcases h with h | ⟨nowInstant, h⟩ <;> cases h
    · obtain ⟨hheld, hreg, hnow⟩ := reap_held hs hheld
      rw [hr'] at h
      rcases ofRest_cases rest' with ho | ho <;> rw [ho] at h <;> cases h
      exact ⟨hheld, stale_mono (hstale x (List.mem_cons_of_mem _ hx) hk hheld) rfl hreg hnow.ge⟩

theorem Tracks.snapshot {w : Watch} {s : Service} (hi : w.Tracks key)
    (hs : w.service.step cfg base64Decode
      (.snapshot (.ok (Function.update ages key w.tunnel.lastHandshakeTimeSec))) = some s) :
    Tracks key { w with
      service := s, seen := if w.held key then some w.tunnel else none, added := false } := by
  simp only [Service.step] at hs
  split at hs
  · rename_i ages' hr hages
    cases hages
    cases hs
    refine ⟨fun snapshot nowInstant h => ?_, fun snapshot h => ?_, hi.idle,
      fun t ht hnever _ => ?_, fun rest h => ?_⟩
    · cases h
    · rcases h with h | ⟨nowInstant, h⟩ <;> cases h
      rw [uapiGetPeers_lookup, Function.update_self]
      cases hp : w.service.device.peers.lookup key <;> simp [held, hp]
    · simp only at ht
      split at ht <;> cases ht
      exact hi.idle hnever
    · cases h
  · rename_i h
    cases h
  · cases hs

theorem Tracks.elapse {w : Watch} (hi : w.Tracks key) (ns : Nat) :
    Tracks key { w with
      service := { w.service with now := w.service.now + ns }, tunnel := w.tunnel.elapse ns } where
  clock snapshot nowInstant h := le_trans (hi.clock snapshot nowInstant h) (Nat.le_add_right ..)
  listed := hi.listed
  idle := hi.idle
  seenIdle := hi.seenIdle
  pending rest hr := ⟨(hi.pending rest hr).1, fun e he hk hheld =>
    stale_mono ((hi.pending rest hr).2 e he hk hheld) rfl rfl (Nat.le_add_right ..)⟩

theorem step_tracks (hi : Tracks key w) (hc : w.tickSound key i)
    (hs : w.step key cfg base64Decode i = some w') : Tracks key w' := by
  cases i with
  | tunnel c =>
    simp only [step] at hs
    split at hs
    · cases hs
      have hnone (h : (if c.completesHandshake then some w.service.now else w.handshakeAt) = none) :
          c.completesHandshake = false ∧ w.handshakeAt = none := by
        cases hcomp : c.completesHandshake <;> simp_all
      refine ⟨hi.clock, hi.listed, fun h => ?_, fun t ht h => hi.seenIdle t ht (hnone h).2,
        fun rest hr => ⟨(hi.pending rest hr).1, fun e he hk hheld => ?_⟩⟩
      · exact TimedTunn.call_idle (hi.idle (hnone h).2) c (hnone h).1
      · cases hcomp : c.completesHandshake with
        | true =>
          replace hr : w.service.reaper = .reaping rest := hr
          simp only [tickSound, hr, hcomp, Bool.not_true, Bool.false_or, List.all_eq_true,
            decide_eq_true_eq] at hc
          exact absurd hk (hc e he)
        | false =>
          exact stale_mono ((hi.pending rest hr).2 e he hk hheld) (by simp) rfl le_rfl
    · cases hs
  | service i =>
    by_cases hr : ∃ rest, w.service.reaper = .reaping rest
    · obtain ⟨rest, hr⟩ := hr
      obtain ⟨hidle, -⟩ := hi.pending rest hr
      cases i with
      | elapse ns =>
        cases hs
        exact hi.elapse ns
      | reap c =>
        obtain ⟨s, hs', rfl⟩ := Option.map_eq_some_iff.mp hs
        exact hi.advance_reaping hr hs'
      | snapshot ages => cases ages <;> simp [step, Service.step, hr] at hs
      | _ =>
        obtain ⟨s, hs', rfl⟩ := Option.map_eq_some_iff.mp hs
        obtain ⟨-, -, ⟨ns, h, -⟩ | ⟨c, e, rest', h, -⟩⟩ :=
          Service.step_reaping hr hidle hs' <;> cases h
    · rw [not_exists] at hr
      cases i with
      | elapse ns =>
        cases hs
        exact hi.elapse ns
      | snapshot ages =>
        cases ages with
        | error e =>
          obtain ⟨s, hs', rfl⟩ := Option.map_eq_some_iff.mp hs
          exact hi.advance_quiet hc hr (fun ages h => by cases h) hs'
        | ok ages =>
          obtain ⟨s, hs', rfl⟩ := Option.map_eq_some_iff.mp hs
          exact hi.snapshot hs'
      | _ =>
        obtain ⟨s, hs', rfl⟩ := Option.map_eq_some_iff.mp hs
        exact hi.advance_quiet hc hr (fun ages h => by cases h) hs'

/-- In a run of the service with the tunnel of a peer, the ticks remove the
peer, while the device holds it, only when its last handshake is more than
600 seconds old, or it had none and its registration is, if every scan judged
it by a current session established 1 to 600 seconds before the snapshot, or
by a registration no older than that, and no handshake overtakes a removal. -/
theorem reaps_stale (cfg : Settings) (base64Decode : String → Option Bytes) (d : Device)
    (key : Bytes32) (is : List Input)
    (h : Along (step key cfg base64Decode) (fun w i => w.tickSound key i) (init d) is) :
    Along (step key cfg base64Decode) (ReapsStale key) (init d) is := by
  refine Along.mono (fun w i w' hi hc hs => step_tracks hi hc hs) (fun w i hi _ => ?_)
    (init_tracks key d) h
  rintro c octet rest rfl hr hheld
  exact (hi.pending _ hr).2 _ (List.mem_cons_self ..) rfl hheld

-- ---------------------------------------------------------------------------
-- Sample runs
-- ---------------------------------------------------------------------------

def sampleRegistered (ns : Nat) : List Input :=
  [.service sampleRegister, .service (.uapi .ok), .service .reply, .service (.elapse ns)]

/-- The periodic call, a handshake of the peer, and a packet with its session. -/
def sampleConnects : List Input :=
  [.tunnel (.updateTimers maxUdpSize),
    .tunnel (.decapsulate (.handshakeInit (some samplePeerKey) (.ok ⟨257, 1⟩))),
    .tunnel (.decapsulate (.data 257 (.ok [])))]

def sampleTick : List Input :=
  [.service (.snapshot (.ok fun _ => none)), .service .readClock, .service .scan]

/-- A peer that connected 20 seconds before the tick. -/
theorem reaps_stale_sample :
    Along (step samplePeerKey sampleSettings sampleDecode) (ReapsStale samplePeerKey)
      (init (sampleKeyed samplePrimitives))
      (sampleRegistered (700 * second) ++ sampleConnects ++ [.service (.elapse (20 * second))] ++
        sampleTick) :=
  reaps_stale sampleSettings sampleDecode _ samplePeerKey _ (by decide +kernel)

/-- The run ends with a peer of the sample about to be removed that is not stale. -/
def Misjudges (is : List Input) : Prop :=
  ∃ w, exec (step samplePeerKey sampleSettings sampleDecode)
      (init (sampleKeyed samplePrimitives)) is = some w ∧
    ¬ ReapsStale samplePeerKey w (.service (.reap .ok))

theorem misjudges_of_exec
    (h : ((exec (step samplePeerKey sampleSettings sampleDecode)
      (init (sampleKeyed samplePrimitives)) is).map fun w =>
        (w.service.reaper, w.held samplePeerKey, w.stale samplePeerKey)) =
      some (.reaping [(samplePeerKey, 2)], true, false)) : Misjudges is := by
  obtain ⟨w, he, hw⟩ := Option.map_eq_some_iff.mp h
  simp only [Prod.mk.injEq] at hw
  obtain ⟨hr, hheld, hstale⟩ := hw
  refine ⟨w, he, fun hreaps => ?_⟩
  rw [hreaps .ok 2 [] rfl hr hheld] at hstale
  cases hstale

/-- A peer whose handshake is less than a second old at the tick, and one
whose session expired 180 seconds after its handshake: both are removed, for
the age of their registration. -/
theorem reaps_recent :
    Misjudges (sampleRegistered (700 * second) ++ sampleConnects ++ sampleTick) ∧
      Misjudges (sampleRegistered (500 * second) ++ sampleConnects ++
        [.service (.elapse (185 * second)), .tunnel (.updateTimers maxUdpSize)] ++ sampleTick) :=
  ⟨misjudges_of_exec (by decide +kernel), misjudges_of_exec (by decide +kernel)⟩

end Watch

end Xelt.Boringtun.HttpApi
