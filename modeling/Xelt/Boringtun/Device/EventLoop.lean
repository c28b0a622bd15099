import Xelt.Boringtun.Device.DevLock
import Xelt.Lib.Progress

/-!
# The workers of a device

`DeviceHandle::event_loop`: a worker keeps its read access to the device while it
waits for events and handles them. A configuration request needs write access; it
turns the yield notice on, which every worker that waits is told of until it is
turned off again. Any number of workers take their steps in any order, and
requests and the end may come at any time.
-/

namespace Xelt.Boringtun.Device

open Runs

namespace DevLock

variable {τ ε ρ ι : Type}

/-- From one place to the next, with the flag as it is and without touching it. -/
inductive Pc.Next : Bool → Pc τ ε ρ → Pc τ ε ρ → Prop
  | readLock : Next w .readLock .readTest
  | readWoken : Next w .readWoken .readTest
  | readTest : Next false .readTest .readInner
  | readSleep : Next true .readTest .readWait
  | readInner : Next w .readInner .readUnlock
  | readUnlock : Next w .readUnlock .reading
  | writeLock : Next w (.writeLock f) (.unlocking f)
  | unlocking : Next w (.unlocking f) (.writeTest f)
  | writeSleep : Next true (.writeTest f) (.writeWait f)
  | writeWoken : Next w (.writeWoken f) (.writeTest f)
  | relock : Next w (.relock f) (.prepare f)
  | prepare : Next w (.prepare f) (.unlockAgain f)
  | unlockAgain : Next w (.unlockAgain f) (.queue f)
  | queue : Next w (.queue f) (.awaitReaders f)
  | awaitReaders : Next w (.awaitReaders f) (.mutate f)
  | mutate : Next w (.mutate f) (.unlockWriter ret)
  | unlockWriter : Next w (.unlockWriter ret) (.lockAgain ret)
  | lockAgain : Next w (.lockAgain ret) (.finishLock ret)
  | finishLock : Next w (.finishLock ret) (.finish ret)

/-- The update that a thread is asking for. -/
def Pc.closures : Pc τ ε ρ → Option (Closures τ ε ρ)
  | .writeLock f | .unlocking f | .writeTest f | .writeWait f | .writeWoken f | .relock f
  | .prepare f | .unlockAgain f | .queue f | .awaitReaders f | .mutate f => some f
  | _ => none

/-- The first closure was run, and the second one is still to be run. -/
def Pc.prepared : Pc τ ε ρ → Bool
  | .unlockAgain _ | .queue _ | .awaitReaders _ | .mutate _ => true
  | _ => false

theorem Pc.prepared_marked {p : Pc τ ε ρ} (h : p.prepared = true) : p.marked = true := by
  cases p <;> first | rfl | cases h

/-- What a place does to what is outside the lock. -/
def Pc.effect (value : τ) : Pc τ ε ρ → ε → ε
  | .prepare f, rest => f.prepFunc value rest
  | .mutate f, rest => (f.mutFunc value rest).2.1
  | _, rest => rest

namespace Lock

variable [DecidableEq ι] {s s' : Lock τ ε ρ ι}

/-- What a step inside the two functions is: it goes on to the next place, or it
sets the flag, or it clears it and wakes everybody. -/
theorem advance_cases (hs : s.advance i = some s') :
    (∃ p, (s.pc i).Next s.wantsWrite p ∧ s'.pc = Function.update s.pc i p ∧
      s'.wantsWrite = s.wantsWrite ∧ s'.rest = (s.pc i).effect s.value s.rest) ∨
    (∃ f, s.pc i = .writeTest f ∧ s.wantsWrite = false ∧
      s' = { s with wantsWrite := true }.unlock i (.relock f)) ∨
    ∃ ret, s.pc i = .finish ret ∧
      s' = { s with wantsWrite := false }.notifyAll.unlock i .reading := by
  unfold Lock.advance at hs
  cases hpc : s.pc i with
  | outside | reading | readWait | writeWait f => simp [hpc] at hs
  | finish ret =>
    simp only [hpc, Option.some.injEq] at hs
    exact .inr (.inr ⟨ret, rfl, hs.symm⟩)
  | readLock | readWoken | writeLock f | writeWoken f | finishLock ret =>
    simp only [hpc, Lock.lock] at hs
    split at hs <;> cases hs
    exact .inl ⟨_, by constructor, rfl, rfl, rfl⟩
  | readInner | relock f | lockAgain ret =>
    simp only [hpc, Lock.lockShared] at hs
    split at hs <;> cases hs
    exact .inl ⟨_, by constructor, rfl, rfl, rfl⟩
  | readTest =>
    simp only [hpc] at hs
    split at hs <;> cases hs
    · rename_i hwants
      exact .inl ⟨_, hwants ▸ .readSleep, rfl, rfl, rfl⟩
    · rename_i hwants
      exact .inl ⟨_, Bool.eq_false_of_not_eq_true hwants ▸ .readTest, rfl, rfl, rfl⟩
  | writeTest f =>
    simp only [hpc] at hs
    split at hs <;> cases hs
    · rename_i hwants
      exact .inl ⟨_, hwants ▸ .writeSleep, rfl, rfl, rfl⟩
    · rename_i hwants
      exact .inr (.inl ⟨f, rfl, Bool.eq_false_of_not_eq_true hwants, rfl⟩)
  | queue f | awaitReaders f =>
    simp only [hpc] at hs
    split at hs <;> cases hs
    exact .inl ⟨_, by constructor, rfl, rfl, rfl⟩
  | _ =>
    simp only [hpc, Option.some.injEq] at hs
    subst hs
    exact .inl ⟨_, by constructor, rfl, rfl, rfl⟩

/-- What keeps a thread where it is. -/
def Blocked (s : Lock τ ε ρ ι) : Pc τ ε ρ → Prop
  | .outside | .reading | .readWait | .writeWait _ => True
  | .readLock | .readWoken | .writeLock _ | .writeWoken _ | .finishLock _ => s.mutex ≠ none
  | .readInner | .relock _ | .lockAgain _ | .queue _ => s.writer ≠ none
  | .awaitReaders _ => s.readers ≠ ∅
  | _ => False

theorem blocked_of_none (hs : s.advance i = none) : s.Blocked (s.pc i) := by
  unfold Lock.advance at hs
  cases hpc : s.pc i with
  | outside | reading | readWait | writeWait f => trivial
  | readLock | readWoken | writeLock f | writeWoken f | finishLock ret =>
    simp only [hpc, Lock.lock] at hs
    split at hs
    · cases hs
    · assumption
  | readInner | relock f | lockAgain ret =>
    simp only [hpc, Lock.lockShared] at hs
    split at hs
    · cases hs
    · assumption
  | queue f | awaitReaders f =>
    simp only [hpc] at hs
    split at hs
    · cases hs
    · assumption
  | readTest | writeTest f =>
    simp only [hpc] at hs
    split at hs <;> cases hs
  | _ => simp [hpc] at hs

omit [DecidableEq ι] in
/-- Write access is for who set the flag. -/
theorem Inv.writer_none (h : Inv s marker)
    (hmarker : ∀ k, marker = some k → (s.pc k).holdsWriter = false) : s.writer = none := by
  refine Option.eq_none_iff_forall_ne_some.mpr fun k hk => ?_
  have hheld := (h.writer k).mpr hk
  have hmarked : (s.pc k).marked = true := by
    revert hheld
    cases s.pc k <;> first | exact fun _ => rfl | exact nofun
  rw [hmarker k (h.marked.eq_some hmarked)] at hheld
  cases hheld

/-- Who holds the mutex of the flag never waits. -/
theorem Inv.mutex_none (h : Inv s marker) (hstuck : ∀ i, s.advance i = none) : s.mutex = none := by
  refine Option.eq_none_iff_forall_ne_some.mpr fun i hi => ?_
  have hheld := (h.mutex i).mpr hi
  have hblocked := blocked_of_none (hstuck i)
  cases hpc : s.pc i <;> simp only [hpc, Pc.holdsMutex, Bool.false_eq_true] at hheld <;>
    simp only [hpc, Blocked] at hblocked
  refine hblocked (h.writer_none fun k hk => ?_)
  have hwants := (h.sound i).tested hpc
  rw [h.wants, hk] at hwants
  cases hwants

end Lock

end DevLock

namespace EventLoop

open DevLock

variable {τ ι : Type}

/-- The two notices of the event queue. Each is on until it is stopped, and every
worker that waits is told of it. -/
structure Notices where
  yieldOn : Bool
  exitOn : Bool

def Notices.triggerYield (n : Notices) : Notices := { n with yieldOn := true }
def Notices.cancelYield (n : Notices) : Notices := { n with yieldOn := false }
def Notices.triggerExit (n : Notices) : Notices := { n with exitOn := true }

/-- The closures of `api_set`: what the lines of a request do to the device, and
the status they end with. -/
def apiSet (commands : τ → τ × Int) : Closures τ Notices Int where
  prepFunc _ n := n.triggerYield
  mutFunc device n := ((commands device).1, n.cancelYield, (commands device).2)

inductive Worker
  | looping
  /-- The exit notice was triggered, and the access is still to be given up. -/
  | leaving
  | gone
  deriving DecidableEq

structure Workers (τ ι : Type) where
  lock : Lock τ Notices Int ι
  worker : ι → Worker

inductive Event (τ : Type)
  /-- The outer loop begins again. -/
  | read
  /-- The yield notice. -/
  | yield
  /-- The exit notice. -/
  | exit
  /-- A handler that ends the device: a signal, or the end of the API socket. -/
  | quit
  | leave
  /-- The handler of the API socket, for a `set` request. -/
  | set (commands : τ → τ × Int)
  /-- The next step inside the lock. -/
  | advance

/-- What happens without anything from outside. -/
def Event.own : Event τ → Bool
  | .quit | .set _ => false
  | _ => true

namespace Workers

variable [DecidableEq ι]

def new (device : τ) : Workers τ ι := ⟨.new device ⟨false, false⟩, fun _ => .looping⟩

def become (s : Workers τ ι) (i : ι) (w : Worker) : Workers τ ι :=
  { s with worker := Function.update s.worker i w }

def move (s : Workers τ ι) (i : ι) (m : Move τ Notices Int) : Option (Workers τ ι) :=
  (s.lock.step (i, m)).map fun lock => { s with lock }

def triggerExit (s : Workers τ ι) (i : ι) : Option (Workers τ ι) :=
  (s.move i (.act fun _ n => n.triggerExit)).map fun s => s.become i .leaving

def step (s : Workers τ ι) (m : ι × Event τ) : Option (Workers τ ι) :=
  match m.2, s.worker m.1 with
  | .read, .looping => s.move m.1 .read
  | .yield, .looping => if s.lock.rest.yieldOn then s.move m.1 .drop else none
  | .exit, .looping => if s.lock.rest.exitOn then s.triggerExit m.1 else none
  | .quit, .looping => s.triggerExit m.1
  | .leave, .leaving => (s.move m.1 .drop).map fun s => s.become m.1 .gone
  | .set commands, .looping => s.move m.1 (.tryWriteable (apiSet commands))
  | .advance, _ => s.move m.1 .advance
  | _, _ => none

def stepOwn (s : Workers τ ι) (m : ι × Event τ) : Option (Workers τ ι) :=
  if m.2.own then s.step m else none

-- ---------------------------------------------------------------------------
-- The invariant
-- ---------------------------------------------------------------------------

/-- Updates come from requests. -/
def Requests (p : Pc τ Notices Int) : Prop :=
  ∀ f, p.closures = some f → ∃ commands, f = apiSet commands

/-- The yield notice is on exactly while one update waits for the workers. -/
structure Inv (s : Workers τ ι) : Prop where
  good : s.lock.Good
  requests : ∀ i, Requests (s.lock.pc i)
  yields : ∃ preparer, Held Pc.prepared s.lock.pc preparer ∧
    s.lock.rest.yieldOn = preparer.isSome
  leaving : ∀ i, s.worker i = .leaving → s.lock.pc i = .reading
  gone : ∀ i, s.worker i = .gone → s.lock.pc i = .outside

/-- What the worker and the notices have to be for an event, and the moves in the
lock it comes to. -/
inductive Taken (s : Workers τ ι) (i : ι) : Event τ → Workers τ ι → Prop
  | read : s.worker i = .looping → s.move i .read = some s' → Taken s i .read s'
  | yield : s.worker i = .looping → s.lock.rest.yieldOn = true → s.move i .drop = some s' →
    Taken s i .yield s'
  | exit : s.worker i = .looping → s.lock.rest.exitOn = true → s.triggerExit i = some s' →
    Taken s i .exit s'
  | quit : s.worker i = .looping → s.triggerExit i = some s' → Taken s i .quit s'
  | leave : s.worker i = .leaving → s.move i .drop = some s' →
    Taken s i .leave (s'.become i .gone)
  | set (commands : τ → τ × Int) : s.worker i = .looping →
    s.move i (.tryWriteable (apiSet commands)) = some s' → Taken s i (.set commands) s'
  | advance {next : Lock τ Notices Int ι} : s.lock.advance i = some next →
    Taken s i .advance { s with lock := next }

variable {s s' : Workers τ ι}

theorem step_cases (hs : s.step (i, event) = some s') : Taken s i event s' := by
  unfold Workers.step at hs
  dsimp only at hs
  split at hs
  · exact .read ‹_› hs
  · split at hs
    · exact .yield ‹_› ‹_› hs
    · cases hs
  · split at hs
    · exact .exit ‹_› ‹_› hs
    · cases hs
  · exact .quit ‹_› hs
  · obtain ⟨u, hu, rfl⟩ := Option.map_eq_some_iff.mp hs
    exact .leave ‹_› hu
  · exact .set _ ‹_› hs
  · obtain ⟨lock, hlock, rfl⟩ := Option.map_eq_some_iff.mp hs
    exact .advance hlock
  · cases hs

theorem move_read (hs : s.move i .read = some s') :
    s.lock.pc i = .outside ∧ s' = { s with lock := s.lock.goto i .readLock } := by
  obtain ⟨lock, hlock, rfl⟩ := Option.map_eq_some_iff.mp hs
  obtain ⟨hpc, rfl⟩ := Lock.step_read hlock
  exact ⟨hpc, rfl⟩

theorem move_drop (hs : s.move i .drop = some s') :
    s.lock.pc i = .reading ∧ s' = { s with lock := s.lock.unlockShared i .outside } := by
  obtain ⟨lock, hlock, rfl⟩ := Option.map_eq_some_iff.mp hs
  obtain ⟨hpc, rfl⟩ := Lock.step_drop hlock
  exact ⟨hpc, rfl⟩

theorem move_tryWriteable (hs : s.move i (.tryWriteable f) = some s') :
    s.lock.pc i = .reading ∧ s' = { s with lock := s.lock.goto i (.writeLock f) } := by
  obtain ⟨lock, hlock, rfl⟩ := Option.map_eq_some_iff.mp hs
  obtain ⟨hpc, rfl⟩ := Lock.step_tryWriteable hlock
  exact ⟨hpc, rfl⟩

theorem triggerExit_cases (hs : s.triggerExit i = some s') :
    s.lock.pc i = .reading ∧ s' = { s with
      lock := { s.lock with rest := s.lock.rest.triggerExit }
      worker := Function.update s.worker i .leaving } := by
  obtain ⟨u, hu, rfl⟩ := Option.map_eq_some_iff.mp hs
  obtain ⟨lock, hlock, rfl⟩ := Option.map_eq_some_iff.mp hu
  obtain ⟨hpc, rfl⟩ := Lock.step_act hlock
  exact ⟨hpc, rfl⟩

omit [DecidableEq ι] in
theorem inv_new (device : τ) : Inv (new device : Workers τ ι) where
  good := ⟨none, Lock.inv_new device _⟩
  requests i f hf := by cases hf
  yields := ⟨none, fun _ => by simp [new, Lock.new, Pc.prepared], rfl⟩
  leaving i hi := by cases hi
  gone i hi := by cases hi

/-- A looping worker goes on. -/
theorem Inv.goto (h : Inv s) {lock : Lock τ Notices Int ι} {p : Pc τ Notices Int}
    (hgood : lock.Good) (hpc : lock.pc = Function.update s.lock.pc i p)
    (hloop : s.worker i = .looping)
    (hclosures : Requests p)
    (hyields : ∃ preparer, Held Pc.prepared (Function.update s.lock.pc i p) preparer ∧
      lock.rest.yieldOn = preparer.isSome) : Inv { s with lock } where
  good := hgood
  requests := by
    rw [hpc]
    exact forall_update (P := Requests)
      (fun j _ => h.requests j) hclosures
  yields := hpc ▸ hyields
  leaving j hj := by
    have hji : j ≠ i := fun heq => absurd ((heq ▸ hj).symm.trans hloop) nofun
    rw [hpc, Function.update_of_ne hji]
    exact h.leaving j hj
  gone j hj := by
    have hji : j ≠ i := fun heq => absurd ((heq ▸ hj).symm.trans hloop) nofun
    rw [hpc, Function.update_of_ne hji]
    exact h.gone j hj

/-- Neither first closure was run, nor a second one. -/
theorem Inv.yields_keep (h : Inv s) {p : Pc τ Notices Int} {rest : Notices}
    (hp : p.prepared = (s.lock.pc i).prepared) (hrest : rest.yieldOn = s.lock.rest.yieldOn) :
    ∃ preparer, Held Pc.prepared (Function.update s.lock.pc i p) preparer ∧
      rest.yieldOn = preparer.isSome := by
  obtain ⟨preparer, hheld, hon⟩ := h.yields
  exact ⟨preparer, hheld.keep hp, hrest.trans hon⟩

/-- Who is inside one of the two functions is not about to leave. -/
theorem Inv.looping (h : Inv s) (hs : s.lock.advance i = some lock') : s.worker i = .looping := by
  cases hw : s.worker i with
  | looping => rfl
  | leaving => simp [Lock.advance, h.leaving i hw] at hs
  | gone => simp [Lock.advance, h.gone i hw] at hs

/-- Only one update is between its two closures. -/
theorem Inv.prepare (h : Inv s) (hpc : s.lock.pc i = .prepare f) :
    ∃ preparer, Held Pc.prepared (Function.update s.lock.pc i (.unlockAgain f)) preparer ∧
      true = preparer.isSome := by
  obtain ⟨marker, hlock⟩ := h.good
  obtain ⟨preparer, hheld, -⟩ := h.yields
  cases preparer with
  | none => exact ⟨some i, hheld.take rfl, rfl⟩
  | some k =>
    have hk := (hheld k).mpr rfl
    obtain rfl := hlock.marked.unique (i := k) (j := i) (Pc.prepared_marked hk) (by rw [hpc]; rfl)
    rw [hpc] at hk
    cases hk

theorem Inv.next (h : Inv s) {lock : Lock τ Notices Int ι} (hgood : lock.Good)
    (hloop : s.worker i = .looping) (hnext : (s.lock.pc i).Next w p)
    (hpc : lock.pc = Function.update s.lock.pc i p)
    (hrest : lock.rest = (s.lock.pc i).effect s.lock.value s.lock.rest) :
    Inv { s with lock } := by
  have hrequests := h.requests i
  generalize hq : s.lock.pc i = q at hnext hrest hrequests
  cases hnext with
  | prepare =>
    obtain ⟨commands, rfl⟩ := hrequests _ rfl
    exact h.goto hgood hpc hloop hrequests (hrest ▸ h.prepare hq)
  | mutate =>
    obtain ⟨commands, rfl⟩ := hrequests _ rfl
    obtain ⟨preparer, hheld, -⟩ := h.yields
    exact h.goto hgood hpc hloop nofun
      ⟨none, hheld.give (i := i) (by rw [hq]; rfl) rfl, congrArg Notices.yieldOn hrest⟩
  | _ =>
    exact h.goto hgood hpc hloop (fun f hf => hrequests f hf)
      (h.yields_keep (hq ▸ rfl) (congrArg Notices.yieldOn hrest))

theorem Inv.unmark (h : Inv s) {lock : Lock τ Notices Int ι} (hgood : lock.Good)
    (hpc : s.lock.pc i = .finish ret)
    (hlock : lock = { s.lock with wantsWrite := false }.notifyAll.unlock i .reading)
    (hloop : s.worker i = .looping) : Inv { s with lock } := by
  have hpc' : lock.pc = Function.update (fun j => Lock.wake (s.lock.pc j)) i .reading := by
    rw [hlock]
    rfl
  have hwake : ∀ p : Pc τ Notices Int, (Lock.wake p).closures = p.closures ∧
      (Lock.wake p).prepared = p.prepared := fun p => by cases p <;> exact ⟨rfl, rfl⟩
  obtain ⟨preparer, hheld, hon⟩ := h.yields
  refine ⟨hgood, ?_, ⟨preparer, ?_, ?_⟩, fun j hj => ?_, fun j hj => ?_⟩
  · rw [hpc']
    refine forall_update (P := Requests) (fun j _ f hf => h.requests j f ?_) nofun
    rwa [(hwake _).1] at hf
  · rw [hpc']
    exact (hheld.congr fun j => (hwake (s.lock.pc j)).2).keep (by rw [hpc]; rfl)
  · rw [hlock]
    exact hon
  · have hji : j ≠ i := fun heq => absurd ((heq ▸ hj).symm.trans hloop) nofun
    rw [hpc', Function.update_of_ne hji, h.leaving j hj]
    rfl
  · have hji : j ≠ i := fun heq => absurd ((heq ▸ hj).symm.trans hloop) nofun
    rw [hpc', Function.update_of_ne hji, h.gone j hj]
    rfl

theorem Inv.advance (h : Inv s) {lock : Lock τ Notices Int ι}
    (hs : s.lock.advance i = some lock) : Inv { s with lock } := by
  have hgood := Lock.good_advance h.good hs
  have hloop := h.looping hs
  rcases Lock.advance_cases hs with ⟨p, hnext, hpc, -, hrest⟩ | ⟨f, hpc, -, hlock⟩ |
    ⟨ret, hpc, hlock⟩
  · exact h.next hgood hloop hnext hpc hrest
  · refine h.goto hgood (p := .relock f) (by rw [hlock]; rfl) hloop (fun g hg => ?_) ?_
    · exact h.requests i g (by rw [hpc]; exact hg)
    · exact h.yields_keep (by rw [hpc]; rfl) (by rw [hlock]; rfl)
  · exact h.unmark hgood hpc hlock hloop

theorem Inv.move (h : Inv s) (hs : s.move i m = some s') (hloop : s.worker i = .looping)
    (hm : ∀ f, m = .tryWriteable f → ∃ commands, f = apiSet commands)
    (hact : ∀ g, m = .act g → ∀ v n, (g v n).yieldOn = n.yieldOn) : Inv s' := by
  obtain ⟨lock, hlock, rfl⟩ := Option.map_eq_some_iff.mp hs
  have hgood := Lock.good_step h.good hlock
  cases m with
  | read =>
    obtain ⟨hpc, rfl⟩ := Lock.step_read hlock
    exact h.goto hgood rfl hloop nofun (h.yields_keep (by rw [hpc]; rfl) rfl)
  | drop =>
    obtain ⟨hpc, rfl⟩ := Lock.step_drop hlock
    exact h.goto hgood rfl hloop nofun (h.yields_keep (by rw [hpc]; rfl) rfl)
  | act g =>
    obtain ⟨hpc, rfl⟩ := Lock.step_act hlock
    refine h.goto (p := s.lock.pc i) hgood (Function.update_eq_self i s.lock.pc).symm hloop
      (h.requests i) (h.yields_keep rfl (hact g rfl _ _))
  | tryWriteable f =>
    obtain ⟨hpc, rfl⟩ := Lock.step_tryWriteable hlock
    obtain ⟨commands, rfl⟩ := hm f rfl
    exact h.goto hgood rfl hloop (fun g hg => ⟨commands, (Option.some.inj hg).symm⟩)
      (h.yields_keep (by rw [hpc]; rfl) rfl)
  | advance => exact h.advance hlock

theorem Inv.become (h : Inv s) {i : ι} (w : Worker)
    (hleaving : w = .leaving → s.lock.pc i = .reading)
    (hgone : w = .gone → s.lock.pc i = .outside) : Inv (s.become i w) where
  good := h.good
  requests := h.requests
  yields := h.yields
  leaving j hj := by
    change Function.update s.worker i w j = .leaving at hj
    by_cases hji : j = i
    · subst hji
      exact hleaving ((Function.update_self ..).symm.trans hj)
    · exact h.leaving j ((Function.update_of_ne hji ..).symm.trans hj)
  gone j hj := by
    change Function.update s.worker i w j = .gone at hj
    by_cases hji : j = i
    · subst hji
      exact hgone ((Function.update_self ..).symm.trans hj)
    · exact h.gone j ((Function.update_of_ne hji ..).symm.trans hj)

theorem Inv.triggerExit (h : Inv s) (hs : s.triggerExit i = some s')
    (hloop : s.worker i = .looping) : Inv s' := by
  obtain ⟨u, hu, rfl⟩ := Option.map_eq_some_iff.mp hs
  refine (h.move hu hloop nofun (fun g hg v n => ?_)).become .leaving (fun _ => ?_) nofun
  · cases hg
    rfl
  · obtain ⟨lock, hlock, rfl⟩ := Option.map_eq_some_iff.mp hu
    obtain ⟨hpc, rfl⟩ := Lock.step_act hlock
    exact hpc

theorem inv_step (h : Inv s) (hs : s.step m = some s') : Inv s' := by
  obtain ⟨i, event⟩ := m
  cases step_cases hs with
  | read hloop hmove => exact h.move hmove hloop nofun nofun
  | yield hloop _ hmove => exact h.move hmove hloop nofun nofun
  | exit hloop _ hexit => exact h.triggerExit hexit hloop
  | quit hloop hexit => exact h.triggerExit hexit hloop
  | set commands hloop hmove =>
    exact h.move hmove hloop (fun f hf => by cases hf; exact ⟨commands, rfl⟩) nofun
  | leave _ hmove =>
    -- the worker loops for a moment more, so that it gives up its access
    obtain ⟨lock, hlock, rfl⟩ := Option.map_eq_some_iff.mp hmove
    have hloop := h.become (i := i) .looping nofun nofun
    have hdrop : (s.become i .looping).move i .drop = some { s.become i .looping with lock } := by
      simp only [Workers.move, Workers.become, hlock, Option.map_some]
    have hdropped := hloop.move hdrop (Function.update_self ..) nofun nofun
    obtain ⟨hpc, rfl⟩ := Lock.step_drop hlock
    have hgone := hdropped.become (i := i) .gone nofun fun _ => Function.update_self ..
    simpa [Workers.become] using hgone
  | advance hlock => exact h.advance hlock

-- ---------------------------------------------------------------------------
-- The measure
-- ---------------------------------------------------------------------------

/-- How often the flag will be turned for a thread. -/
def turns : Pc τ Notices Int → Nat
  | .writeLock _ | .unlocking _ | .writeTest _ | .writeWait _ | .writeWoken _ => 2
  | .relock _ | .prepare _ | .unlockAgain _ | .queue _ | .awaitReaders _ | .mutate _
  | .unlockWriter _ | .lockAgain _ | .finishLock _ | .finish _ => 1
  | _ => 0

/-- How far a thread is from where it waits, as long as the flag stays. -/
def steps : Bool → Pc τ Notices Int → Nat
  | true, .readInner => 8
  | true, .readUnlock => 7
  | true, .reading => 6
  | true, .outside => 5
  | true, .readLock | true, .readWoken => 4
  | true, .readTest => 3
  | false, .outside => 8
  | false, .readLock | false, .readWoken => 7
  | false, .readTest => 6
  | false, .readInner => 5
  | false, .readUnlock => 4
  | false, .reading => 3
  | _, .readWait => 0
  | _, .writeLock _ => 5
  | _, .unlocking _ => 4
  | _, .writeTest _ => 3
  | _, .writeWait _ => 0
  | _, .writeWoken _ => 4
  | _, .relock _ => 10
  | _, .prepare _ => 9
  | _, .unlockAgain _ => 8
  | _, .queue _ => 7
  | _, .awaitReaders _ => 6
  | _, .mutate _ => 5
  | _, .unlockWriter _ => 4
  | _, .lockAgain _ => 3
  | _, .finishLock _ => 2
  | _, .finish _ => 1

/-- A turn of the flag may take every thread back by as many steps. -/
def turnCost : Nat := 12

def rank (threads : Nat) (wantsWrite : Bool) : Worker → Pc τ Notices Int → Nat
  | .looping, p => turns p * (turnCost * threads) + steps wantsWrite p
  | .leaving, _ => 1
  | .gone, _ => 0

omit [DecidableEq ι] in
theorem steps_le (w : Bool) (p : Pc τ Notices Int) : steps w p ≤ turnCost := by
  cases w <;> cases p <;> simp only [steps, turnCost] <;> omega

theorem steps_next {p q : Pc τ Notices Int} (h : p.Next w q) :
    turns q = turns p ∧ steps w q < steps w p := by
  cases w <;> cases h <;> refine ⟨rfl, ?_⟩ <;> simp only [steps] <;> omega

theorem turns_wake (p : Pc τ Notices Int) : turns (Lock.wake p) = turns p := by
  cases p <;> rfl

theorem rank_turn (threads : Nat) (w w' : Bool) (worker : Worker) {p q : Pc τ Notices Int}
    (h : turns q = turns p) : rank threads w' worker q ≤ rank threads w worker p + turnCost := by
  cases worker with
  | looping =>
    have hle := steps_le w' q
    simp only [rank, h]
    omega
  | leaving | gone => exact Nat.le_add_right ..

variable [Fintype ι]

def measure (s : Workers τ ι) : Nat :=
  ∑ j, rank (Fintype.card ι) s.lock.wantsWrite (s.worker j) (s.lock.pc j)

/-- One thread goes on, and the flag stays. -/
theorem measure_lt_of_one {s s' : Workers τ ι} (i : ι)
    (hwants : s'.lock.wantsWrite = s.lock.wantsWrite)
    (hothers : ∀ j, j ≠ i → s'.worker j = s.worker j ∧ s'.lock.pc j = s.lock.pc j)
    (hi : rank (Fintype.card ι) s.lock.wantsWrite (s'.worker i) (s'.lock.pc i) <
      rank (Fintype.card ι) s.lock.wantsWrite (s.worker i) (s.lock.pc i)) :
    s'.measure < s.measure := by
  unfold measure
  rw [hwants]
  refine sum_lt_of_one i hi fun j hj => ?_
  rw [(hothers j hj).1, (hothers j hj).2]

theorem measure_advance {lock : Lock τ Notices Int ι} (hloop : s.worker i = .looping)
    (hs : s.lock.advance i = some lock) : measure { s with lock } < s.measure := by
  rcases Lock.advance_cases hs with ⟨p, hnext, hpc, hwants, -⟩ | ⟨f, hpc, hwants, hlock⟩ |
    ⟨ret, hpc, hlock⟩
  · obtain ⟨hturns, hsteps⟩ := steps_next hnext
    refine measure_lt_of_one i hwants (fun j hj => ⟨rfl, ?_⟩) ?_
    · rw [hpc, Function.update_of_ne hj]
    · rw [hpc, Function.update_self]
      simp only [hloop, rank, hturns]
      exact Nat.add_lt_add_left hsteps _
  · refine sum_lt_of_paid i turnCost ?_ fun j hj => ?_
    · simp only [hlock, hpc, hloop, hwants, Lock.unlock, Lock.goto, Function.update_self, rank,
        turns, steps, turnCost]
      omega
    · have hsame : lock.pc j = s.lock.pc j := by
        rw [hlock]
        exact Function.update_of_ne hj ..
      exact rank_turn _ _ _ _ (by rw [hsame])
  · refine sum_lt_of_paid i turnCost ?_ fun j hj => ?_
    · simp only [hlock, hpc, hloop, Lock.unlock, Lock.goto, Lock.notifyAll, Function.update_self,
        rank, turns, turnCost]
      cases s.lock.wantsWrite <;> simp only [steps] <;> omega
    · have hsame : lock.pc j = Lock.wake (s.lock.pc j) := by
        rw [hlock]
        exact Function.update_of_ne hj ..
      exact rank_turn _ _ _ _ (by rw [hsame, turns_wake])

omit [DecidableEq ι] [Fintype ι] in
/-- Who set the flag has turned the notice on. -/
theorem Inv.wants_of_yield [DecidableEq ι] (h : Inv s) (hon : s.lock.rest.yieldOn = true) :
    s.lock.wantsWrite = true := by
  obtain ⟨marker, hlock⟩ := h.good
  obtain ⟨preparer, hheld, hpreparer⟩ := h.yields
  obtain ⟨k, rfl⟩ := Option.isSome_iff_exists.mp (hpreparer.symm.trans hon)
  have hk := Pc.prepared_marked ((hheld k).mpr rfl)
  rw [hlock.wants, hlock.marked.eq_some hk]
  rfl

/-- A looping worker goes on to `p`. -/
theorem measure_lt_of_goto {lock : Lock τ Notices Int ι} {p : Pc τ Notices Int}
    (hloop : s.worker i = .looping) (hwants : lock.wantsWrite = s.lock.wantsWrite)
    (hpc : lock.pc = Function.update s.lock.pc i p) (hturns : turns p = turns (s.lock.pc i))
    (hsteps : steps s.lock.wantsWrite p < steps s.lock.wantsWrite (s.lock.pc i)) :
    measure { s with lock } < s.measure := by
  refine measure_lt_of_one i hwants (fun j hj => ⟨rfl, ?_⟩) ?_
  · rw [hpc, Function.update_of_ne hj]
  · rw [hpc, Function.update_self]
    simp only [hloop, rank, hturns]
    exact Nat.add_lt_add_left hsteps _

theorem measure_own (h : Inv s) (hs : s.stepOwn m = some s') : s'.measure < s.measure := by
  obtain ⟨i, event⟩ := m
  unfold stepOwn at hs
  split at hs
  · rename_i hown
    cases step_cases hs with
    | read hloop hmove =>
      obtain ⟨hpc, rfl⟩ := move_read hmove
      refine measure_lt_of_goto hloop rfl rfl (by rw [hpc]; rfl) ?_
      rw [hpc]
      cases s.lock.wantsWrite <;> simp only [steps] <;> omega
    | yield hloop hon hmove =>
      obtain ⟨hpc, rfl⟩ := move_drop hmove
      refine measure_lt_of_goto hloop rfl rfl (by rw [hpc]; rfl) ?_
      rw [hpc, h.wants_of_yield hon]
      simp only [steps]
      omega
    | exit hloop _ hexit =>
      obtain ⟨hpc, rfl⟩ := triggerExit_cases hexit
      refine measure_lt_of_one i rfl (fun j hj => ⟨Function.update_of_ne hj .., rfl⟩) ?_
      simp only [Function.update_self, hloop, hpc, rank, turns]
      cases s.lock.wantsWrite <;> simp only [steps] <;> omega
    | leave hleaving hmove =>
      obtain ⟨hpc, rfl⟩ := move_drop hmove
      refine measure_lt_of_one i rfl
        (fun j hj => ⟨Function.update_of_ne hj .., Function.update_of_ne hj ..⟩) ?_
      simp only [become, Function.update_self, hleaving, rank]
      omega
    | quit | set commands => cases hown
    | advance hlock => exact measure_advance (h.looping hlock) hlock
  · cases hs

-- ---------------------------------------------------------------------------
-- Where a run ends
-- ---------------------------------------------------------------------------

/-- No request is under way: every worker waits for events, or is gone. -/
structure Settled (s : Workers τ ι) : Prop where
  wantsWrite : s.lock.wantsWrite = false
  yieldOn : s.lock.rest.yieldOn = false
  worker : ∀ i, s.worker i = .looping ∧ s.lock.pc i = .reading ∧ s.lock.rest.exitOn = false ∨
    s.worker i = .gone ∧ s.lock.pc i = .outside

omit [Fintype ι] in
theorem advance_stuck (hstuck : Stuck stepOwn s) (i : ι) : s.lock.advance i = none := by
  have hs := hstuck (i, .advance)
  simpa [stepOwn, Event.own, Workers.step, Workers.move, Lock.step] using hs

omit [Fintype ι] in
/-- A thread with a guard gives it up when the yield notice is on. -/
theorem reading_stuck (h : Inv s) (hstuck : Stuck stepOwn s) (hpc : s.lock.pc i = .reading) :
    s.worker i = .looping ∧ s.lock.rest.yieldOn = false ∧ s.lock.rest.exitOn = false := by
  have hdrop : s.lock.step (i, .drop) = some (s.lock.unlockShared i .outside) := by
    simp only [Lock.step, hpc]
  have hact (g : τ → Notices → Notices) : s.lock.step (i, .act g) =
      some { s.lock with rest := g s.lock.value s.lock.rest } := by
    simp only [Lock.step, hpc]
  cases hw : s.worker i with
  | looping =>
    refine ⟨rfl, ?_, ?_⟩
    · have hs := hstuck (i, .yield)
      simpa [stepOwn, Event.own, Workers.step, hw, Workers.move, hdrop] using hs
    · have hs := hstuck (i, .exit)
      simpa [stepOwn, Event.own, Workers.step, hw, Workers.triggerExit, Workers.move, hact] using hs
  | leaving =>
    have hs := hstuck (i, .leave)
    simp [stepOwn, Event.own, Workers.step, hw, Workers.move, hdrop] at hs
  | gone =>
    rw [h.gone i hw] at hpc
    cases hpc

omit [Fintype ι] in
/-- No reader keeps an update waiting: the notice is on. -/
theorem readers_stuck (h : Inv s) (hlock : Lock.Inv s.lock marker) (hstuck : Stuck stepOwn s)
    (hj : s.lock.pc j = .awaitReaders f) : s.lock.readers = ∅ := by
  have hmutex := hlock.mutex_none (advance_stuck hstuck)
  refine Finset.eq_empty_of_forall_notMem fun k hk => ?_
  have hshared := (hlock.shared k).mpr hk
  have hblocked := Lock.blocked_of_none (advance_stuck hstuck k)
  have hunmarked : (s.lock.pc k).marked = false := by
    rw [← Bool.not_eq_true]
    intro hmarked
    obtain rfl := hlock.marked.unique (i := k) (j := j) hmarked (by rw [hj]; rfl)
    rw [hj] at hshared
    cases hshared
  cases hpc : s.lock.pc k <;> simp only [hpc, Pc.holdsShared, Bool.false_eq_true] at hshared <;>
    simp only [hpc, Lock.Blocked] at hblocked
  · obtain ⟨-, hoff, -⟩ := reading_stuck h hstuck hpc
    obtain ⟨preparer, hheld, hon⟩ := h.yields
    rw [hheld.eq_some (i := j) (by rw [hj]; rfl), hoff] at hon
    cases hon
  · exact hblocked hmutex
  · rw [hpc] at hunmarked
    cases hunmarked

omit [Fintype ι] in
/-- Every update that set the flag goes through. -/
theorem wants_stuck (h : Inv s) (hstuck : Stuck stepOwn s) : s.lock.wantsWrite = false := by
  obtain ⟨marker, hlock⟩ := h.good
  cases marker with
  | none => exact hlock.wants
  | some j =>
    have hmarked := (hlock.marked j).mpr rfl
    have hblocked := Lock.blocked_of_none (advance_stuck hstuck j)
    have hwriter : (s.lock.pc j).holdsWriter = false → s.lock.writer = none := fun hj =>
      hlock.writer_none fun k hk => by rw [← Option.some.inj hk]; exact hj
    cases hpc : s.lock.pc j <;> simp only [hpc, Pc.marked, Bool.false_eq_true] at hmarked <;>
      simp only [hpc, Lock.Blocked] at hblocked
    · exact absurd (hwriter (by rw [hpc]; rfl)) hblocked
    · exact absurd (hwriter (by rw [hpc]; rfl)) hblocked
    · exact absurd (readers_stuck h hlock hstuck hpc) hblocked
    · exact absurd (hwriter (by rw [hpc]; rfl)) hblocked
    · exact absurd (hlock.mutex_none (advance_stuck hstuck)) hblocked

omit [Fintype ι] in
theorem settled_of_stuck (h : Inv s) (hstuck : Stuck stepOwn s) : Settled s := by
  have hwants := wants_stuck h hstuck
  obtain ⟨marker, hlock⟩ := h.good
  have hmutex := hlock.mutex_none (advance_stuck hstuck)
  have hoff : s.lock.rest.yieldOn = false := by
    rw [← Bool.not_eq_true]
    intro hon
    rw [h.wants_of_yield hon] at hwants
    cases hwants
  obtain rfl : marker = none := by
    rw [← Option.not_isSome_iff_eq_none, ← hlock.wants, hwants]
    exact nofun
  have hwriter := hlock.writer_none nofun
  refine ⟨hwants, hoff, fun i => ?_⟩
  have hblocked := Lock.blocked_of_none (advance_stuck hstuck i)
  have hunmarked := hlock.marked.nobody i
  have hasleep := (hlock.sound i).asleep
  rw [hwants] at hasleep
  cases hpc : s.lock.pc i with
  | reading =>
    obtain ⟨hloop, -, hexit⟩ := reading_stuck h hstuck hpc
    exact .inl ⟨hloop, rfl, hexit⟩
  | outside =>
    refine .inr ⟨?_, rfl⟩
    cases hw : s.worker i with
    | gone => rfl
    | looping =>
      have hs := hstuck (i, .read)
      simp [stepOwn, Event.own, Workers.step, hw, Workers.move, Lock.step, hpc] at hs
    | leaving =>
      rw [h.leaving i hw] at hpc
      cases hpc
  | readWait | writeWait f =>
    rw [hpc] at hasleep
    exact absurd (hasleep rfl) nofun
  | readLock | readWoken | writeLock f | writeWoken f =>
    rw [hpc] at hblocked
    exact absurd hmutex hblocked
  | readInner =>
    rw [hpc] at hblocked
    exact absurd hwriter hblocked
  | readTest | readUnlock | unlocking f | writeTest f =>
    rw [hpc] at hblocked
    exact hblocked.elim
  | _ =>
    rw [hpc] at hunmarked
    cases hunmarked

-- ---------------------------------------------------------------------------
-- Requests and answers
-- ---------------------------------------------------------------------------

inductive Note (ι : Type)
  | asked (i : ι)
  | answered (i : ι)
  deriving DecidableEq

/-- The requests that are made and those that are answered. -/
def notes (s : Workers τ ι) (m : ι × Event τ) : List (Note ι) :=
  match m.2, s.lock.pc m.1 with
  | .set _, _ => [.asked m.1]
  | .advance, .finish _ => [.answered m.1]
  | _, _ => []

def underWay : Pc τ Notices Int → Nat
  | .outside | .readLock | .readTest | .readWait | .readWoken | .readInner | .readUnlock
  | .reading => 0
  | _ => 1

theorem underWay_next {p q : Pc τ Notices Int} (h : p.Next w q) : underWay q = underWay p := by
  cases h <;> rfl

theorem underWay_wake (p : Pc τ Notices Int) : underWay (Lock.wake p) = underWay p := by
  cases p <;> rfl

/-- What is asked is under way until it is answered. -/
def Balanced (s : Workers τ ι) (past : List (Note ι)) : Prop :=
  ∀ i, past.count (.asked i) = past.count (.answered i) + underWay (s.lock.pc i)

/-- What one thread does to the balance. -/
inductive Counts (i : ι) : List (Note ι) → Pc τ Notices Int → Pc τ Notices Int → Prop
  | keep : underWay q = underWay p → Counts i [] p q
  | ask : underWay p = 0 → underWay q = 1 → Counts i [.asked i] p q
  | answer : underWay p = 1 → underWay q = 0 → Counts i [.answered i] p q

omit [Fintype ι] in
theorem Balanced.after (h : Balanced s past) {i : ι} {emitted : List (Note ι)}
    (hothers : ∀ j, j ≠ i → underWay (s'.lock.pc j) = underWay (s.lock.pc j))
    (hi : Counts i emitted (s.lock.pc i) (s'.lock.pc i)) : Balanced s' (past ++ emitted) := by
  intro j
  have hj := h j
  rw [List.count_append, List.count_append]
  by_cases hji : j = i
  · subst hji
    cases hi with
    | keep hsame =>
      simp only [List.count_nil]
      omega
    | ask hbefore hafter =>
      simp only [List.count_singleton, beq_self_eq_true, if_true, reduceCtorEq, beq_iff_eq,
        if_false]
      omega
    | answer hbefore hafter =>
      simp only [List.count_singleton, beq_self_eq_true, if_true, reduceCtorEq, beq_iff_eq,
        if_false]
      omega
  · have hnone : emitted.count (.asked j) = 0 ∧ emitted.count (.answered j) = 0 := by
      cases hi <;> simp [Ne.symm hji]
    rw [hnone.1, hnone.2, hothers j hji]
    exact hj

omit [Fintype ι] in
theorem balanced_goto (h : Balanced s past) {i : ι} {p : Pc τ Notices Int}
    {emitted : List (Note ι)}
    (hpc : s'.lock.pc = Function.update s.lock.pc i p)
    (hi : Counts i emitted (s.lock.pc i) p) : Balanced s' (past ++ emitted) := by
  refine h.after (fun j hj => ?_) (i := i) ?_
  · rw [hpc, Function.update_of_ne hj]
  · rw [hpc, Function.update_self]
    exact hi

omit [Fintype ι] in
theorem balanced_advance (h : Balanced s past) {lock : Lock τ Notices Int ι}
    (hs : s.lock.advance i = some lock) :
    Balanced { s with lock } (past ++ s.notes (i, .advance)) := by
  rcases Lock.advance_cases hs with ⟨p, hnext, hpc, -⟩ | ⟨f, hpc, -, rfl⟩ | ⟨ret, hpc, rfl⟩
  · have hnone : s.notes (i, .advance) = [] := by
      unfold notes
      revert hnext
      generalize s.lock.wantsWrite = w
      cases s.lock.pc i <;> intro hnext <;> first | rfl | cases hnext
    exact balanced_goto h hpc (hnone ▸ .keep (underWay_next hnext))
  · have hnone : s.notes (i, .advance) = [] := by simp only [notes, hpc]
    exact balanced_goto h rfl (hnone ▸ .keep (by rw [hpc]; rfl))
  · have hone : s.notes (i, .advance) = [.answered i] := by simp only [notes, hpc]
    refine h.after (i := i) (fun j hj => ?_) ?_
    · exact (congrArg underWay (Function.update_of_ne hj ..)).trans (underWay_wake _)
    · rw [hone, hpc]
      refine .answer rfl ?_
      simp only [Lock.unlock, Lock.goto, Function.update_self]
      rfl

omit [Fintype ι] in
theorem balanced_exit (h : Balanced s past) (hs : s.triggerExit i = some s') :
    Balanced s' (past ++ []) := by
  obtain ⟨hpc, rfl⟩ := triggerExit_cases hs
  exact h.after (i := i) (fun j _ => rfl) (.keep rfl)

omit [Fintype ι] in
theorem balanced_step (h : Balanced s past) (hs : s.step m = some s') :
    Balanced s' (past ++ s.notes m) := by
  obtain ⟨i, event⟩ := m
  cases step_cases hs with
  | read _ hmove =>
    obtain ⟨hpc, rfl⟩ := move_read hmove
    exact balanced_goto h rfl (.keep (by rw [hpc]; rfl))
  | yield _ _ hmove =>
    obtain ⟨hpc, rfl⟩ := move_drop hmove
    exact balanced_goto h rfl (.keep (by rw [hpc]; rfl))
  | exit _ _ hexit => exact balanced_exit h hexit
  | quit _ hexit => exact balanced_exit h hexit
  | leave _ hmove =>
    obtain ⟨hpc, rfl⟩ := move_drop hmove
    exact balanced_goto h rfl (.keep (by rw [hpc]; rfl))
  | set commands _ hmove =>
    obtain ⟨hpc, rfl⟩ := move_tryWriteable hmove
    exact balanced_goto h rfl (.ask (by rw [hpc]; rfl) rfl)
  | advance hlock => exact balanced_advance h hlock

omit [Fintype ι] in
theorem exec_own (he : exec stepOwn s js = some t) : exec step s js = some t := by
  induction js generalizing s with
  | nil => exact he
  | cons m js ih =>
    obtain ⟨s', hs, he⟩ := (exec_cons_some stepOwn).mp he
    unfold stepOwn at hs
    split at hs
    · exact (exec_cons_some step).mpr ⟨s', hs, ih he⟩
    · cases hs

/-- Whatever has happened, in whatever order: left to themselves the workers come
to rest, after a bounded number of steps, in any order. Then every request was
answered once, nobody is told to yield, and once the device is told to exit every
worker is gone. -/
theorem quiesces (device : τ) {ms : List (ι × Event τ)}
    (he : exec step (new device) ms = some s) :
    (∀ js t, exec stepOwn s js = some t → js.length ≤ s.measure ∧
      ∃ more u, exec stepOwn t more = some u ∧ Stuck stepOwn u) ∧
    ∀ js t, exec stepOwn s js = some t → Stuck stepOwn t → t.Settled ∧
      ∀ i, (trace step notes (new device) (ms ++ js)).count (.asked i) =
        (trace step notes (new device) (ms ++ js)).count (.answered i) := by
  have hown : ∀ (s : Workers τ ι) m s', Inv s → s.stepOwn m = some s' → Inv s' := by
    intro s m s' h hs
    unfold stepOwn at hs
    split at hs
    · exact inv_step h hs
    · cases hs
  have hdown : ∀ (s : Workers τ ι) m s', Inv s → s.stepOwn m = some s' → s'.measure < s.measure :=
    fun s m s' h hs => measure_own h hs
  have hinv : Inv s := invariant_run (fun s m s' h hs => inv_step h hs) (inv_new device) he
  constructor
  · intro js t ht
    have hlength := length_le_measure hown hdown hinv ht
    exact ⟨by omega, exists_stuck hown hdown (invariant_run hown hinv ht)⟩
  · intro js t ht hstuck
    have hsettled := settled_of_stuck (invariant_run hown hinv ht) hstuck
    refine ⟨hsettled, fun i => ?_⟩
    have hall : exec step (new device) (ms ++ js) = some t :=
      (exec_append_some step).mpr ⟨s, he, exec_own ht⟩
    have hbalanced : Balanced t (trace step notes (new device) (ms ++ js)) :=
      invariant_trace (C := fun _ _ => True) notes [] (fun s m s' past h _ hs => balanced_step h hs)
        (fun _ => rfl) (along_iff_at.mpr fun _ _ _ _ _ _ => trivial) hall
    have hnone : underWay (t.lock.pc i) = 0 := by
      rcases hsettled.worker i with ⟨-, hpc, -⟩ | ⟨-, hpc⟩ <;> rw [hpc] <;> rfl
    have hi := hbalanced i
    rwa [hnone, Nat.add_zero] at hi

/-- A request is under way when the other worker gets a signal. -/
def sampleEvents : List (Bool × Event Nat) :=
  [(true, .read), (true, .advance), (true, .advance), (true, .advance), (true, .advance),
    (false, .read), (false, .advance), (false, .advance), (false, .advance), (false, .advance),
    (true, .set fun device => (device + 1, 0)), (true, .advance), (true, .advance),
    (true, .advance), (true, .advance), (true, .advance), (false, .quit)]

theorem sampleEvents_run : ((exec step (new 7) sampleEvents).map fun s =>
    (s.lock.rest.yieldOn, s.lock.rest.exitOn, s.worker false)) = some (true, true, .leaving) := by
  decide

theorem quiesces_sample :
    ∃ (s : Workers Nat Bool) (js : List (Bool × Event Nat)) (t : Workers Nat Bool),
    s.lock.rest.yieldOn = true ∧ exec stepOwn s js = some t ∧ js.length ≤ s.measure ∧
      t.Settled := by
  obtain ⟨s, hs, hview⟩ := Option.map_eq_some_iff.mp sampleEvents_run
  obtain ⟨hends, hsettled⟩ := quiesces 7 hs
  obtain ⟨-, js, t, ht, hstuck⟩ := hends [] s rfl
  exact ⟨s, js, t, (Prod.mk.inj hview).1, ht, (hends js t ht).1, (hsettled js t ht hstuck).1⟩

end Workers

end EventLoop

end Xelt.Boringtun.Device
