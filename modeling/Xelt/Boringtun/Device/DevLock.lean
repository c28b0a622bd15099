import Xelt.Lib.Holders
import Xelt.Lib.Simulation

/-!
# The lock around the device

`device/dev_lock.rs`: a read/write lock whose readers can ask for an upgrade. It
is made of a flag under a mutex with a condition variable, and of an inner
read/write lock; a waiting writer of the inner lock keeps new readers out. A
thread is told by where it is in the text of `read` and `try_writeable`, and any
thread may take the next step.
-/

namespace Xelt.Boringtun.Device.DevLock

open Runs

variable {τ ε ρ ι : Type}

/-- The two closures of `try_writeable`; `ε` is what they act on besides the
value. -/
structure Closures (τ ε ρ : Type) where
  prepFunc : τ → ε → ε
  mutFunc : τ → ε → τ × ε × ρ

/-- Where a thread is. It holds a guard of its own in `reading`. -/
inductive Pc (τ ε ρ : Type)
  | outside
  -- `read`
  | readLock
  | readTest
  | readWait
  | readWoken
  | readInner
  | readUnlock
  | reading
  -- `try_writeable`, up to the flag
  | writeLock (f : Closures τ ε ρ)
  | unlocking (f : Closures τ ε ρ)
  | writeTest (f : Closures τ ε ρ)
  | writeWait (f : Closures τ ε ρ)
  | writeWoken (f : Closures τ ε ρ)
  | relock (f : Closures τ ε ρ)
  -- the two closures
  | prepare (f : Closures τ ε ρ)
  | unlockAgain (f : Closures τ ε ρ)
  | queue (f : Closures τ ε ρ)
  | awaitReaders (f : Closures τ ε ρ)
  | mutate (f : Closures τ ε ρ)
  -- the way back
  | unlockWriter (ret : ρ)
  | lockAgain (ret : ρ)
  | finishLock (ret : ρ)
  | finish (ret : ρ)

structure Lock (τ ε ρ ι : Type) where
  value : τ
  rest : ε
  /-- The mutex of the flag, and the flag. -/
  mutex : Option ι
  wantsWrite : Bool
  /-- The inner lock: who has read access, and who has or waits for write access. -/
  readers : Finset ι
  writer : Option ι
  pc : ι → Pc τ ε ρ

/-- What the owner of a thread does with the lock. -/
inductive Move (τ ε ρ : Type)
  | read
  | drop
  /-- With a guard, on what is outside the lock. -/
  | act (g : τ → ε → ε)
  | tryWriteable (f : Closures τ ε ρ)
  /-- The next step inside `read` or `try_writeable`. -/
  | advance

namespace Lock

variable [DecidableEq ι]

def new (value : τ) (rest : ε) : Lock τ ε ρ ι where
  value
  rest
  mutex := none
  wantsWrite := false
  readers := ∅
  writer := none
  pc _ := .outside

def goto (s : Lock τ ε ρ ι) (i : ι) (p : Pc τ ε ρ) : Lock τ ε ρ ι :=
  { s with pc := Function.update s.pc i p }

/-- The mutex of the flag is taken by a thread that then is at `p`. -/
def lock (s : Lock τ ε ρ ι) (i : ι) (p : Pc τ ε ρ) : Option (Lock τ ε ρ ι) :=
  if s.mutex = none then some ({ s with mutex := some i }.goto i p) else none

def unlock (s : Lock τ ε ρ ι) (i : ι) (p : Pc τ ε ρ) : Lock τ ε ρ ι :=
  { s with mutex := none }.goto i p

/-- Read access waits behind whoever has or waits for write access. -/
def lockShared (s : Lock τ ε ρ ι) (i : ι) (p : Pc τ ε ρ) : Option (Lock τ ε ρ ι) :=
  if s.writer = none then some ({ s with readers := insert i s.readers }.goto i p) else none

def unlockShared (s : Lock τ ε ρ ι) (i : ι) (p : Pc τ ε ρ) : Lock τ ε ρ ι :=
  { s with readers := s.readers.erase i }.goto i p

/-- Who waits at the condition variable waits for the mutex from now on. -/
def wake : Pc τ ε ρ → Pc τ ε ρ
  | .readWait => .readWoken
  | .writeWait f => .writeWoken f
  | p => p

def notifyAll (s : Lock τ ε ρ ι) : Lock τ ε ρ ι := { s with pc := fun i => wake (s.pc i) }

def advance (s : Lock τ ε ρ ι) (i : ι) : Option (Lock τ ε ρ ι) :=
  match s.pc i with
  | .outside | .reading | .readWait | .writeWait _ => none
  | .readLock | .readWoken => s.lock i .readTest
  | .readTest =>
    if s.wantsWrite then some (s.unlock i .readWait)
    else some (s.goto i .readInner)
  | .readInner => s.lockShared i .readUnlock
  | .readUnlock => some (s.unlock i .reading)
  | .writeLock f => s.lock i (.unlocking f)
  | .unlocking f => some (s.unlockShared i (.writeTest f))
  | .writeTest f =>
    if s.wantsWrite then some (s.unlock i (.writeWait f))
    else some ({ s with wantsWrite := true }.unlock i (.relock f))
  | .writeWoken f => s.lock i (.writeTest f)
  | .relock f => s.lockShared i (.prepare f)
  | .prepare f => some ({ s with rest := f.prepFunc s.value s.rest }.goto i (.unlockAgain f))
  | .unlockAgain f => some (s.unlockShared i (.queue f))
  | .queue f =>
    if s.writer = none then some ({ s with writer := some i }.goto i (.awaitReaders f)) else none
  | .awaitReaders f => if s.readers = ∅ then some (s.goto i (.mutate f)) else none
  | .mutate f =>
    let (value, rest, ret) := f.mutFunc s.value s.rest
    some ({ s with value, rest }.goto i (.unlockWriter ret))
  | .unlockWriter ret => some ({ s with writer := none }.goto i (.lockAgain ret))
  | .lockAgain ret => s.lockShared i (.finishLock ret)
  | .finishLock ret => s.lock i (.finish ret)
  | .finish _ => some ({ s with wantsWrite := false }.notifyAll.unlock i .reading)

def step (s : Lock τ ε ρ ι) (m : ι × Move τ ε ρ) : Option (Lock τ ε ρ ι) :=
  match m.2, s.pc m.1 with
  | .read, .outside => some (s.goto m.1 .readLock)
  | .drop, .reading => some (s.unlockShared m.1 .outside)
  | .act g, .reading => some { s with rest := g s.value s.rest }
  | .tryWriteable f, .reading => some (s.goto m.1 (.writeLock f))
  | .advance, _ => s.advance m.1
  | _, _ => none

end Lock

-- ---------------------------------------------------------------------------
-- What is held where
-- ---------------------------------------------------------------------------

namespace Pc

def holdsMutex : Pc τ ε ρ → Bool
  | .readTest | .readInner | .readUnlock | .unlocking _ | .writeTest _ | .finish _ => true
  | _ => false

def holdsShared : Pc τ ε ρ → Bool
  | .readUnlock | .reading | .writeLock _ | .unlocking _ | .prepare _ | .unlockAgain _
  | .finishLock _ | .finish _ => true
  | _ => false

def holdsWriter : Pc τ ε ρ → Bool
  | .awaitReaders _ | .mutate _ | .unlockWriter _ => true
  | _ => false

/-- The flag was set and is still to be cleared. -/
def marked : Pc τ ε ρ → Bool
  | .relock _ | .prepare _ | .unlockAgain _ | .queue _ | .awaitReaders _ | .mutate _
  | .unlockWriter _ | .lockAgain _ | .finishLock _ | .finish _ => true
  | _ => false

def asleep : Pc τ ε ρ → Bool
  | .readWait | .writeWait _ => true
  | _ => false

/-- The thread has the device to itself. -/
def alone : Pc τ ε ρ → Bool
  | .mutate _ | .unlockWriter _ => true
  | _ => false

/-- What a thread relies on where it is, besides what it holds. -/
structure Sound (wantsWrite : Bool) (readers : Finset ι) (p : Pc τ ε ρ) : Prop where
  asleep : p.asleep = true → wantsWrite = true
  tested : p = .readInner → wantsWrite = false
  alone : p.alone = true → readers = ∅

theorem alone_holdsWriter {p : Pc τ ε ρ} (h : p.alone = true) : p.holdsWriter = true := by
  cases p <;> first | rfl | cases h

/-- In most places a thread relies on nothing else. -/
theorem sound_free {p : Pc τ ε ρ} (hasleep : p.asleep = false) (htested : p ≠ .readInner)
    (halone : p.alone = false) : p.Sound wantsWrite readers :=
  ⟨fun h => absurd h (by simp [hasleep]), fun h => absurd h htested,
    fun h => absurd h (by simp [halone])⟩

end Pc

namespace Lock

/-- The locks are held by those who are where they are held, the flag is set by
one thread at most, and a sleeper will be woken by that one. -/
structure Inv (s : Lock τ ε ρ ι) (marker : Option ι) : Prop where
  mutex : Held Pc.holdsMutex s.pc s.mutex
  shared : HeldBy Pc.holdsShared s.pc s.readers
  writer : Held Pc.holdsWriter s.pc s.writer
  marked : Held Pc.marked s.pc marker
  wants : s.wantsWrite = marker.isSome
  sound : ∀ i, (s.pc i).Sound s.wantsWrite s.readers

theorem inv_new (value : τ) (rest : ε) : Inv (new value rest : Lock τ ε ρ ι) none where
  mutex _ := by simp [new, Pc.holdsMutex]
  shared _ := by simp [new, Pc.holdsShared]
  writer _ := by simp [new, Pc.holdsWriter]
  marked _ := by simp [new, Pc.marked]
  wants := rfl
  sound _ := Pc.sound_free rfl nofun rfl

variable [DecidableEq ι] {s s' : Lock τ ε ρ ι} {marker : Option ι} {p q : Pc τ ε ρ}

/-- A thread goes on, and the locks stay as they are. -/
theorem Inv.goto (h : Inv s marker) (hpc : s.pc i = q)
    (hsame : p.holdsMutex = q.holdsMutex ∧ p.holdsShared = q.holdsShared ∧
      p.holdsWriter = q.holdsWriter ∧ p.marked = q.marked)
    (hp : p.Sound s.wantsWrite s.readers) : Inv (s.goto i p) marker where
  mutex := h.mutex.keep (hpc ▸ hsame.1)
  shared := h.shared.keep (hpc ▸ hsame.2.1)
  writer := h.writer.keep (hpc ▸ hsame.2.2.1)
  marked := h.marked.keep (hpc ▸ hsame.2.2.2)
  wants := h.wants
  sound := forall_update (fun j _ => h.sound j) hp

theorem Inv.lock (h : Inv s marker) (hpc : s.pc i = q) (hs : s.lock i p = some s')
    (hheld : p.holdsMutex = true) (hsame : p.holdsShared = q.holdsShared ∧
      p.holdsWriter = q.holdsWriter ∧ p.marked = q.marked)
    (hp : p.Sound s.wantsWrite s.readers) : Inv s' marker := by
  unfold Lock.lock at hs
  split at hs
  · rename_i hfree
    cases hs
    exact {
      mutex := (hfree ▸ h.mutex).take hheld
      shared := h.shared.keep (hpc ▸ hsame.1)
      writer := h.writer.keep (hpc ▸ hsame.2.1)
      marked := h.marked.keep (hpc ▸ hsame.2.2)
      wants := h.wants
      sound := forall_update (fun j _ => h.sound j) hp }
  · cases hs

theorem Inv.unlock (h : Inv s marker) (hpc : s.pc i = q) (hq : q.holdsMutex = true)
    (hheld : p.holdsMutex = false) (hsame : p.holdsShared = q.holdsShared ∧
      p.holdsWriter = q.holdsWriter ∧ p.marked = q.marked)
    (hp : p.Sound s.wantsWrite s.readers) : Inv (s.unlock i p) marker where
  mutex := h.mutex.give (hpc ▸ hq) hheld
  shared := h.shared.keep (hpc ▸ hsame.1)
  writer := h.writer.keep (hpc ▸ hsame.2.1)
  marked := h.marked.keep (hpc ▸ hsame.2.2)
  wants := h.wants
  sound := forall_update (fun j _ => h.sound j) hp

/-- Nobody has the device to itself, or it would have write access. -/
theorem Inv.lockShared (h : Inv s marker) (hpc : s.pc i = q) (hs : s.lockShared i p = some s')
    (hheld : p.holdsShared = true) (hsame : p.holdsMutex = q.holdsMutex ∧
      p.holdsWriter = q.holdsWriter ∧ p.marked = q.marked)
    (hp : p.Sound s.wantsWrite (insert i s.readers)) : Inv s' marker := by
  unfold Lock.lockShared at hs
  split at hs
  · rename_i hfree
    cases hs
    have hnone : ∀ j, (s.pc j).alone ≠ true := fun j hj => by
      have hw := (hfree ▸ h.writer).nobody j
      rw [Pc.alone_holdsWriter hj] at hw
      cases hw
    exact {
      mutex := h.mutex.keep (hpc ▸ hsame.1)
      shared := h.shared.take hheld
      writer := h.writer.keep (hpc ▸ hsame.2.1)
      marked := h.marked.keep (hpc ▸ hsame.2.2)
      wants := h.wants
      sound := forall_update
        (fun j _ => ⟨(h.sound j).asleep, (h.sound j).tested, fun hj => absurd hj (hnone j)⟩) hp }
  · cases hs

theorem Inv.unlockShared (h : Inv s marker) (hpc : s.pc i = q) (hheld : p.holdsShared = false)
    (hsame : p.holdsMutex = q.holdsMutex ∧ p.holdsWriter = q.holdsWriter ∧ p.marked = q.marked)
    (hp : p.Sound s.wantsWrite (s.readers.erase i)) : Inv (s.unlockShared i p) marker where
  mutex := h.mutex.keep (hpc ▸ hsame.1)
  shared := h.shared.give hheld
  writer := h.writer.keep (hpc ▸ hsame.2.1)
  marked := h.marked.keep (hpc ▸ hsame.2.2)
  wants := h.wants
  sound := forall_update (fun j _ => ⟨(h.sound j).asleep, (h.sound j).tested, fun hj =>
    (congrArg (Finset.erase · i) ((h.sound j).alone hj)).trans (Finset.erase_empty i)⟩) hp

omit [DecidableEq ι] in
theorem Inv.data (h : Inv s marker) (value : τ) (rest : ε) : Inv { s with value, rest } marker :=
  ⟨h.mutex, h.shared, h.writer, h.marked, h.wants, h.sound⟩

/-- The flag is set: nobody is about to get read access. -/
theorem Inv.mark (h : Inv s none) (hpc : s.pc i = .writeTest f) :
    Inv ({ s with wantsWrite := true }.unlock i (.relock f)) (some i) where
  mutex := h.mutex.give (i := i) (hpc ▸ rfl) rfl
  shared := h.shared.keep (hpc ▸ rfl)
  writer := h.writer.keep (hpc ▸ rfl)
  marked := h.marked.take rfl
  wants := rfl
  sound := by
    refine forall_update (fun j hj => ⟨fun _ => rfl, fun hr => ?_, (h.sound j).alone⟩)
      (Pc.sound_free rfl nofun rfl)
    have hheld : (s.pc j).holdsMutex = false := h.mutex.others (i := i) (by rw [hpc]; rfl) hj
    have hreads : s.pc j = .readInner := hr
    rw [hreads] at hheld
    cases hheld

/-- Write access is announced, and nobody has it. -/
theorem Inv.announce (h : Inv s marker) (hpc : s.pc i = .queue f) (hfree : s.writer = none) :
    Inv ({ s with writer := some i }.goto i (.awaitReaders f)) marker where
  mutex := h.mutex.keep (hpc ▸ rfl)
  shared := h.shared.keep (hpc ▸ rfl)
  writer := (hfree ▸ h.writer).take rfl
  marked := h.marked.keep (hpc ▸ rfl)
  wants := h.wants
  sound := forall_update (fun j _ => h.sound j) (Pc.sound_free rfl nofun rfl)

theorem Inv.unlockWriter (h : Inv s marker) (hpc : s.pc i = .unlockWriter ret) :
    Inv ({ s with writer := none }.goto i (.lockAgain ret)) marker where
  mutex := h.mutex.keep (hpc ▸ rfl)
  shared := h.shared.keep (hpc ▸ rfl)
  writer := h.writer.give (i := i) (hpc ▸ rfl) rfl
  marked := h.marked.keep (hpc ▸ rfl)
  wants := h.wants
  sound := forall_update (fun j _ => h.sound j) (Pc.sound_free rfl nofun rfl)

omit [DecidableEq ι] in
theorem wake_same (p : Pc τ ε ρ) : (wake p).holdsMutex = p.holdsMutex ∧
    (wake p).holdsShared = p.holdsShared ∧ (wake p).holdsWriter = p.holdsWriter ∧
    (wake p).marked = p.marked := by
  cases p <;> exact ⟨rfl, rfl, rfl, rfl⟩

omit [DecidableEq ι] in
theorem wake_sound {b : Bool} {r : Finset ι} (h : p.Sound b r) : (wake p).Sound false r := by
  have hawake : (wake p).asleep = false ∧ ((wake p).alone = true → p.alone = true) := by
    cases p <;> exact ⟨rfl, id⟩
  exact ⟨fun ha => absurd (hawake.1.symm.trans ha) nofun, fun _ => rfl,
    fun ha => h.alone (hawake.2 ha)⟩

/-- The flag is cleared, and everybody is woken. -/
theorem Inv.unmark (h : Inv s marker) (hpc : s.pc i = .finish ret) :
    Inv ({ s with wantsWrite := false }.notifyAll.unlock i .reading) none where
  mutex := (h.mutex.congr fun j => (wake_same (s.pc j)).1).give (i := i) (by rw [hpc]; rfl) rfl
  shared := (h.shared.congr fun j => (wake_same (s.pc j)).2.1).keep (by rw [hpc]; rfl)
  writer := (h.writer.congr fun j => (wake_same (s.pc j)).2.2.1).keep (by rw [hpc]; rfl)
  marked :=
    (h.marked.congr fun j => (wake_same (s.pc j)).2.2.2).give (i := i) (by rw [hpc]; rfl) rfl
  wants := rfl
  sound := forall_update (fun j _ => wake_sound (h.sound j)) (Pc.sound_free rfl nofun rfl)

/-- The invariant, whoever set the flag. -/
def Good (s : Lock τ ε ρ ι) : Prop := ∃ marker, Inv s marker

theorem good_advance (h : Good s) (hs : s.advance i = some s') : Good s' := by
  obtain ⟨marker, h⟩ := h
  have hfree : ∀ {wantsWrite : Bool} {readers : Finset ι} {p : Pc τ ε ρ}, p.asleep = false →
      p ≠ .readInner → p.alone = false → p.Sound wantsWrite readers := Pc.sound_free
  unfold Lock.advance at hs
  cases hpc : s.pc i with
  | outside | reading | readWait | writeWait f => simp [hpc] at hs
  | readLock | readWoken =>
    simp only [hpc] at hs
    exact ⟨marker, h.lock hpc hs rfl ⟨rfl, rfl, rfl⟩ (hfree rfl nofun rfl)⟩
  | readTest =>
    simp only [hpc] at hs
    split at hs <;> cases hs
    · rename_i hwants
      exact ⟨marker, h.unlock hpc rfl rfl ⟨rfl, rfl, rfl⟩ ⟨fun _ => hwants, nofun, nofun⟩⟩
    · rename_i hwants
      exact ⟨marker, h.goto hpc ⟨rfl, rfl, rfl, rfl⟩
        ⟨nofun, fun _ => Bool.eq_false_of_not_eq_true hwants, nofun⟩⟩
  | readInner =>
    simp only [hpc] at hs
    exact ⟨marker, h.lockShared hpc hs rfl ⟨rfl, rfl, rfl⟩ (hfree rfl nofun rfl)⟩
  | readUnlock =>
    simp only [hpc, Option.some.injEq] at hs
    exact ⟨marker, hs ▸ h.unlock hpc rfl rfl ⟨rfl, rfl, rfl⟩ (hfree rfl nofun rfl)⟩
  | writeLock f =>
    simp only [hpc] at hs
    exact ⟨marker, h.lock hpc hs rfl ⟨rfl, rfl, rfl⟩ (hfree rfl nofun rfl)⟩
  | unlocking f =>
    simp only [hpc, Option.some.injEq] at hs
    exact ⟨marker, hs ▸ h.unlockShared hpc rfl ⟨rfl, rfl, rfl⟩ (hfree rfl nofun rfl)⟩
  | writeTest f =>
    simp only [hpc] at hs
    split at hs <;> cases hs
    · rename_i hwants
      exact ⟨marker, h.unlock hpc rfl rfl ⟨rfl, rfl, rfl⟩ ⟨fun _ => hwants, nofun, nofun⟩⟩
    · rename_i hwants
      have hnone : marker = none := by
        rw [← Option.not_isSome_iff_eq_none, ← h.wants]
        exact hwants
      subst hnone
      exact ⟨some i, h.mark hpc⟩
  | writeWoken f =>
    simp only [hpc] at hs
    exact ⟨marker, h.lock hpc hs rfl ⟨rfl, rfl, rfl⟩ (hfree rfl nofun rfl)⟩
  | relock f =>
    simp only [hpc] at hs
    exact ⟨marker, h.lockShared hpc hs rfl ⟨rfl, rfl, rfl⟩ (hfree rfl nofun rfl)⟩
  | prepare f =>
    simp only [hpc, Option.some.injEq] at hs
    exact ⟨marker, hs ▸ (h.data _ _).goto hpc ⟨rfl, rfl, rfl, rfl⟩ (hfree rfl nofun rfl)⟩
  | unlockAgain f =>
    simp only [hpc, Option.some.injEq] at hs
    exact ⟨marker, hs ▸ h.unlockShared hpc rfl ⟨rfl, rfl, rfl⟩ (hfree rfl nofun rfl)⟩
  | queue f =>
    simp only [hpc] at hs
    split at hs <;> cases hs
    rename_i hwriter
    exact ⟨marker, h.announce hpc hwriter⟩
  | awaitReaders f =>
    simp only [hpc] at hs
    split at hs <;> cases hs
    rename_i hreaders
    exact ⟨marker, h.goto hpc ⟨rfl, rfl, rfl, rfl⟩ ⟨nofun, nofun, fun _ => hreaders⟩⟩
  | mutate f =>
    simp only [hpc, Option.some.injEq] at hs
    have halone := (h.sound i).alone (by rw [hpc]; rfl)
    exact ⟨marker, hs ▸ (h.data _ _).goto hpc ⟨rfl, rfl, rfl, rfl⟩ ⟨nofun, nofun, fun _ => halone⟩⟩
  | unlockWriter ret =>
    simp only [hpc, Option.some.injEq] at hs
    exact ⟨marker, hs ▸ h.unlockWriter hpc⟩
  | lockAgain ret =>
    simp only [hpc] at hs
    exact ⟨marker, h.lockShared hpc hs rfl ⟨rfl, rfl, rfl⟩ (hfree rfl nofun rfl)⟩
  | finishLock ret =>
    simp only [hpc] at hs
    exact ⟨marker, h.lock hpc hs rfl ⟨rfl, rfl, rfl⟩ (hfree rfl nofun rfl)⟩
  | finish ret =>
    simp only [hpc, Option.some.injEq] at hs
    exact ⟨none, hs ▸ h.unmark hpc⟩

theorem step_read (hs : s.step (i, .read) = some s') :
    s.pc i = .outside ∧ s' = s.goto i .readLock := by
  unfold Lock.step at hs
  dsimp only at hs
  split at hs <;> simp_all

theorem step_drop (hs : s.step (i, .drop) = some s') :
    s.pc i = .reading ∧ s' = s.unlockShared i .outside := by
  unfold Lock.step at hs
  dsimp only at hs
  split at hs <;> simp_all

theorem step_act (hs : s.step (i, .act g) = some s') :
    s.pc i = .reading ∧ s' = { s with rest := g s.value s.rest } := by
  unfold Lock.step at hs
  dsimp only at hs
  split at hs <;> simp_all

theorem step_tryWriteable (hs : s.step (i, .tryWriteable f) = some s') :
    s.pc i = .reading ∧ s' = s.goto i (.writeLock f) := by
  unfold Lock.step at hs
  dsimp only at hs
  split at hs <;> simp_all

theorem good_step (h : Good s) (hs : s.step m = some s') : Good s' := by
  obtain ⟨i, move⟩ := m
  cases move with
  | read =>
    obtain ⟨hpc, rfl⟩ := step_read hs
    obtain ⟨marker, h⟩ := h
    exact ⟨marker, h.goto hpc ⟨rfl, rfl, rfl, rfl⟩ (Pc.sound_free rfl nofun rfl)⟩
  | drop =>
    obtain ⟨hpc, rfl⟩ := step_drop hs
    obtain ⟨marker, h⟩ := h
    exact ⟨marker, h.unlockShared hpc rfl ⟨rfl, rfl, rfl⟩ (Pc.sound_free rfl nofun rfl)⟩
  | act g =>
    obtain ⟨-, rfl⟩ := step_act hs
    obtain ⟨marker, h⟩ := h
    exact ⟨marker, h.data s.value _⟩
  | tryWriteable f =>
    obtain ⟨hpc, rfl⟩ := step_tryWriteable hs
    obtain ⟨marker, h⟩ := h
    exact ⟨marker, h.goto hpc ⟨rfl, rfl, rfl, rfl⟩ (Pc.sound_free rfl nofun rfl)⟩
  | advance => exact good_advance h hs

end Lock

-- ---------------------------------------------------------------------------
-- What the lock is for
-- ---------------------------------------------------------------------------

/-- A thread that has a guard, or that has given it up until its update is done. -/
inductive Phase (τ ε ρ : Type)
  | outside
  | holding
  | asked (f : Closures τ ε ρ)
  | prepared (f : Closures τ ε ρ)
  | done (ret : ρ)

/-- The update was prepared and has not returned. -/
def Phase.busy : Phase τ ε ρ → Prop
  | .prepared _ | .done _ => True
  | _ => False

/-- A value that is changed by one update at a time, while nobody has a guard. -/
@[ext] structure Cell (τ ε ρ ι : Type) where
  value : τ
  rest : ε
  phase : ι → Phase τ ε ρ

inductive CellMove (τ ε ρ : Type)
  | acquire
  | drop
  | act (g : τ → ε → ε)
  | ask (f : Closures τ ε ρ)
  | prepare
  | apply
  | answer

namespace Cell

variable [DecidableEq ι]

def new (value : τ) (rest : ε) : Cell τ ε ρ ι := ⟨value, rest, fun _ => .outside⟩

def goto (c : Cell τ ε ρ ι) (i : ι) (p : Phase τ ε ρ) : Cell τ ε ρ ι :=
  { c with phase := Function.update c.phase i p }

open Classical in
noncomputable def step (c : Cell τ ε ρ ι) (m : ι × CellMove τ ε ρ) : Option (Cell τ ε ρ ι) :=
  match m.2, c.phase m.1 with
  | .acquire, .outside => if ∃ j, (c.phase j).busy then none else some (c.goto m.1 .holding)
  | .drop, .holding => some (c.goto m.1 .outside)
  | .act g, .holding => some { c with rest := g c.value c.rest }
  | .ask f, .holding => some (c.goto m.1 (.asked f))
  | .prepare, .asked f =>
    if ∃ j, (c.phase j).busy then none
    else some ({ c with rest := f.prepFunc c.value c.rest }.goto m.1 (.prepared f))
  | .apply, .prepared f =>
    if ∃ j, c.phase j = .holding then none
    else
      let (value, rest, ret) := f.mutFunc c.value c.rest
      some ({ c with value, rest }.goto m.1 (.done ret))
  | .answer, .done _ => some (c.goto m.1 .holding)
  | _, _ => none

/-- What an update returns. -/
def answers (c : Cell τ ε ρ ι) (m : ι × CellMove τ ε ρ) : List (ι × ρ) :=
  match m.2, c.phase m.1 with
  | .answer, .done ret => [(m.1, ret)]
  | _, _ => []

/-- Nobody changes the value behind the back of a thread with a guard. -/
theorem value_held {c c' : Cell τ ε ρ ι} (hs : c.step m = some c') (hi : c.phase i = .holding) :
    c'.value = c.value := by
  unfold step at hs
  split at hs
  · split at hs <;> cases hs
    rfl
  · cases hs
    rfl
  · cases hs
    rfl
  · cases hs
    rfl
  · split at hs <;> cases hs
    rfl
  · rw [if_pos ⟨i, hi⟩] at hs
    cases hs
  · cases hs
    rfl
  · cases hs

end Cell

def Pc.phase : Pc τ ε ρ → Phase τ ε ρ
  | .outside | .readLock | .readTest | .readWait | .readWoken | .readInner => .outside
  | .readUnlock | .reading => .holding
  | .writeLock f | .unlocking f | .writeTest f | .writeWait f | .writeWoken f | .relock f
  | .prepare f => .asked f
  | .unlockAgain f | .queue f | .awaitReaders f | .mutate f => .prepared f
  | .unlockWriter ret | .lockAgain ret | .finishLock ret | .finish ret => .done ret

/-- The steps inside the two functions that count. -/
def Pc.counts : Pc τ ε ρ → Option (CellMove τ ε ρ)
  | .readInner => some .acquire
  | .prepare _ => some .prepare
  | .mutate _ => some .apply
  | .finish _ => some .answer
  | _ => none

theorem Pc.phase_holding {p : Pc τ ε ρ} (h : p.phase = .holding) : p.holdsShared = true := by
  cases p <;> first | rfl | cases h

theorem Pc.phase_busy {p : Pc τ ε ρ} (h : p.phase.busy) : p.marked = true := by
  cases p <;> first | rfl | cases h

namespace Lock

variable [DecidableEq ι] {s s' : Lock τ ε ρ ι} {marker : Option ι} {p q : Pc τ ε ρ}

def cell (s : Lock τ ε ρ ι) : Cell τ ε ρ ι := ⟨s.value, s.rest, Pc.phase ∘ s.pc⟩

def results (s : Lock τ ε ρ ι) (m : ι × Move τ ε ρ) : List (ι × ρ) :=
  match m.2, s.pc m.1 with
  | .advance, .finish ret => [(m.1, ret)]
  | _, _ => []

/-- The steps that count. -/
def view (s : Lock τ ε ρ ι) (m : ι × Move τ ε ρ) : Option (ι × CellMove τ ε ρ) :=
  if (s.step m).isNone then none
  else match m.2 with
    | .read => none
    | .drop => some (m.1, .drop)
    | .act g => some (m.1, .act g)
    | .tryWriteable f => some (m.1, .ask f)
    | .advance => (s.pc m.1).counts.map fun j => (m.1, j)

theorem cell_goto (s : Lock τ ε ρ ι) (i : ι) (p : Pc τ ε ρ) :
    (s.goto i p).cell = s.cell.goto i p.phase := by
  simp only [cell, Lock.goto, Cell.goto, Function.comp_update]

theorem cell_lock (hs : s.lock i p = some s') : s'.cell = s.cell.goto i p.phase := by
  unfold Lock.lock at hs
  split at hs <;> cases hs
  exact cell_goto { s with mutex := some i } i p

theorem cell_lockShared (hs : s.lockShared i p = some s') :
    s'.cell = s.cell.goto i p.phase := by
  unfold Lock.lockShared at hs
  split at hs <;> cases hs
  exact cell_goto { s with readers := insert i s.readers } i p

/-- A step that does not change the phase. -/
theorem goto_same (hpc : s.pc i = q) (hp : p.phase = q.phase) : s.cell.goto i p.phase = s.cell := by
  have hphase : s.cell.phase i = p.phase := by rw [hp, ← hpc]; rfl
  unfold Cell.goto
  rw [← hphase, Function.update_eq_self]

omit [DecidableEq ι] in
theorem phase_at (hpc : s.pc i = p) : s.cell.phase i = p.phase := by
  rw [← hpc]
  rfl

omit [DecidableEq ι] in
theorem notBusy_of_wants (h : Inv s marker) (hwants : s.wantsWrite = false) :
    ¬∃ j, (s.cell.phase j).busy := by
  rintro ⟨j, hj⟩
  have hmarked := h.marked.eq_some (Pc.phase_busy hj)
  rw [h.wants, hmarked] at hwants
  cases hwants

omit [DecidableEq ι] in
theorem notBusy_of_marked (h : Inv s marker) (hpc : s.pc i = p) (hp : p.marked = true)
    (hidle : ¬p.phase.busy) : ¬∃ j, (s.cell.phase j).busy := by
  rintro ⟨j, hj⟩
  obtain rfl := h.marked.unique (i := j) (j := i) (Pc.phase_busy hj) (by rw [hpc]; exact hp)
  rw [phase_at hpc] at hj
  exact hidle hj

omit [DecidableEq ι] in
theorem notHolding_of_alone (h : Inv s marker) (hpc : s.pc i = p) (hp : p.alone = true) :
    ¬∃ j, s.cell.phase j = .holding := by
  rintro ⟨j, hj⟩
  have hreader := (h.shared j).mp (Pc.phase_holding hj)
  rw [(h.sound i).alone (by rw [hpc]; exact hp)] at hreader
  cases hreader

theorem phase_wake (p : Pc τ ε ρ) : (wake p).phase = p.phase := by
  cases p <;> rfl

theorem advance_cell (h : Good s) (hs : s.advance i = some s') :
    (s.pc i).counts.elim (s'.cell = s.cell) fun j => s.cell.step (i, j) = some s'.cell := by
  obtain ⟨marker, h⟩ := h
  unfold Lock.advance at hs
  cases hpc : s.pc i with
  | outside | reading | readWait | writeWait f => simp [hpc] at hs
  | readInner =>
    simp only [hpc] at hs
    have hwants := (h.sound i).tested hpc
    simp only [Pc.counts, Option.elim_some, Cell.step, phase_at hpc, Pc.phase]
    rw [if_neg (notBusy_of_wants h hwants), cell_lockShared hs]
    rfl
  | prepare f =>
    simp only [hpc, Option.some.injEq] at hs
    simp only [Pc.counts, Option.elim_some, Cell.step, phase_at hpc, Pc.phase]
    rw [if_neg (notBusy_of_marked h hpc rfl id), ← hs, cell_goto]
    rfl
  | mutate f =>
    simp only [hpc, Option.some.injEq] at hs
    simp only [Pc.counts, Option.elim_some, Cell.step, phase_at hpc, Pc.phase]
    rw [if_neg (notHolding_of_alone h hpc rfl), ← hs, cell_goto]
    rfl
  | finish ret =>
    simp only [hpc, Option.some.injEq] at hs
    have hwoken : ({ s with wantsWrite := false }.notifyAll : Lock τ ε ρ ι).cell = s.cell :=
      Cell.ext rfl rfl (funext fun j => phase_wake (s.pc j))
    simp only [Pc.counts, Option.elim_some, Cell.step, phase_at hpc, Pc.phase]
    rw [← hs, ← hwoken]
    exact congrArg some (cell_goto _ i .reading).symm
  | readLock | readWoken | writeLock f | writeWoken f | finishLock ret =>
    simp only [hpc] at hs
    exact (cell_lock hs).trans (goto_same hpc rfl)
  | relock f | lockAgain ret =>
    simp only [hpc] at hs
    exact (cell_lockShared hs).trans (goto_same hpc rfl)
  | readTest =>
    simp only [hpc] at hs
    split at hs <;> cases hs
    · exact (cell_goto { s with mutex := none } i _).trans (goto_same hpc rfl)
    · exact (cell_goto s i _).trans (goto_same hpc rfl)
  | writeTest f =>
    simp only [hpc] at hs
    split at hs <;> cases hs
    · exact (cell_goto { s with mutex := none } i _).trans (goto_same hpc rfl)
    · exact (cell_goto { s with wantsWrite := true, mutex := none } i _).trans (goto_same hpc rfl)
  | readUnlock =>
    simp only [hpc, Option.some.injEq] at hs
    exact hs ▸ (cell_goto { s with mutex := none } i _).trans (goto_same hpc rfl)
  | unlocking f | unlockAgain f =>
    simp only [hpc, Option.some.injEq] at hs
    exact hs ▸ (cell_goto { s with readers := s.readers.erase i } i _).trans (goto_same hpc rfl)
  | queue f =>
    simp only [hpc] at hs
    split at hs <;> cases hs
    exact (cell_goto { s with writer := some i } i _).trans (goto_same hpc rfl)
  | awaitReaders f =>
    simp only [hpc] at hs
    split at hs <;> cases hs
    exact (cell_goto s i _).trans (goto_same hpc rfl)
  | unlockWriter ret =>
    simp only [hpc, Option.some.injEq] at hs
    exact hs ▸ (cell_goto { s with writer := none } i _).trans (goto_same hpc rfl)

/-- The lock is the cell, one step at a time. -/
theorem embeds_cell : Embeds (step (τ := τ) (ε := ε) (ρ := ρ) (ι := ι)) Cell.step view
    fun s c => Good s ∧ c = s.cell where
  stuck s m hs := by simp [view, hs]
  idle s c m s' h hs hv := by
    obtain ⟨hgood, rfl⟩ := h
    refine ⟨good_step hgood hs, ?_⟩
    obtain ⟨i, move⟩ := m
    simp only [view, hs, Option.isNone_some, Bool.false_eq_true, if_false] at hv
    cases move with
    | read =>
      obtain ⟨hpc, rfl⟩ := step_read hs
      exact (goto_same hpc rfl).symm.trans (cell_goto s i .readLock).symm
    | drop | act g | tryWriteable f => cases hv
    | advance =>
      have hcell := advance_cell hgood hs
      rw [Option.map_eq_none_iff.mp hv] at hcell
      exact hcell.symm
  moves s c m s' j h hs hv := by
    obtain ⟨hgood, rfl⟩ := h
    refine ⟨s'.cell, ?_, good_step hgood hs, rfl⟩
    obtain ⟨i, move⟩ := m
    simp only [view, hs, Option.isNone_some, Bool.false_eq_true, if_false] at hv
    cases move with
    | read => cases hv
    | drop =>
      obtain ⟨hpc, rfl⟩ := step_drop hs
      obtain rfl := Option.some.inj hv
      simp only [Cell.step, phase_at hpc, Pc.phase]
      exact congrArg some (cell_goto { s with readers := s.readers.erase i } i .outside).symm
    | act g =>
      obtain ⟨hpc, rfl⟩ := step_act hs
      obtain rfl := Option.some.inj hv
      simp only [Cell.step, phase_at hpc, Pc.phase]
      rfl
    | tryWriteable f =>
      obtain ⟨hpc, rfl⟩ := step_tryWriteable hs
      obtain rfl := Option.some.inj hv
      simp only [Cell.step, phase_at hpc, Pc.phase]
      exact congrArg some (cell_goto s i (.writeLock f)).symm
    | advance =>
      have hcell := advance_cell hgood hs
      obtain ⟨j, hj, rfl⟩ := Option.map_eq_some_iff.mp hv
      rw [hj] at hcell
      exact hcell

theorem results_cell (s : Lock τ ε ρ ι) (m : ι × Move τ ε ρ) :
    s.results m = (s.view m).elim [] s.cell.answers := by
  obtain ⟨i, move⟩ := m
  cases move with
  | read | drop | act g | tryWriteable f =>
    unfold results view
    split_ifs <;> rfl
  | advance =>
    cases hpc : s.pc i with
    | finish ret =>
      have hs : s.step (i, .advance) =
          some ({ s with wantsWrite := false }.notifyAll.unlock i .reading) := by
        simp only [Lock.step, Lock.advance, hpc]
      simp [results, view, hs, hpc, Pc.counts, Cell.answers, phase_at hpc, Pc.phase]
    | readInner | prepare f | mutate f =>
      simp only [results, view, hpc, Pc.counts]
      split_ifs <;> simp [Cell.answers]
    | _ =>
      simp only [results, view, hpc, Pc.counts]
      split_ifs <;> rfl

theorem value_step (h : Good s) (hi : s.pc i = .reading) (hs : s.step m = some s') :
    s'.value = s.value := by
  have hheld : s.cell.phase i = .holding := phase_at hi
  cases hv : s.view m with
  | none =>
    have hcell := (embeds_cell.idle s s.cell m s' ⟨h, rfl⟩ hs hv).2
    exact (congrArg Cell.value hcell).symm
  | some j =>
    obtain ⟨c, hc, -, rfl⟩ := embeds_cell.moves s s.cell m s' j ⟨h, rfl⟩ hs hv
    exact Cell.value_held hc hheld

/-- Whatever the threads do and in whatever order they take their steps, the lock
is a value that is changed by one update at a time, while nobody has a guard:
with the same value, the same effects and the same answers. A thread keeps its
guard with the value it has read. -/
theorem refines_cell (value : τ) (rest : ε) {ms : List (ι × Move τ ε ρ)}
    (he : exec step (new value rest) ms = some s) :
    (∃ js, exec Cell.step (.new value rest) js = some s.cell ∧
      trace step results (new value rest) ms = trace Cell.step Cell.answers (.new value rest) js) ∧
    ∀ later t i, exec step s later = some t →
      Along step (fun u _ => u.pc i = .reading) s later → t.value = s.value := by
  have hnew : Good (new value rest : Lock τ ε ρ ι) ∧ (.new value rest : Cell τ ε ρ ι) =
      (new value rest : Lock τ ε ρ ι).cell := ⟨⟨none, inv_new value rest⟩, rfl⟩
  obtain ⟨c, hc, hgood, rfl⟩ := embeds_cell.run hnew he
  refine ⟨⟨_, hc, embeds_cell.trace (fun s c m h => h.2 ▸ results_cell s m) hnew⟩, ?_⟩
  intro later t i ht hreading
  refine (invariant (C := fun u _ => u.pc i = .reading) (I := fun u => Good u ∧ u.value = s.value)
    (fun u m u' h hr hs => ⟨good_step h.1 hs, (value_step h.1 hr hs).trans h.2⟩) ⟨hgood, rfl⟩
    hreading ht).2

def sampleClosures : Closures Nat Bool Nat where
  prepFunc _ _ := true
  mutFunc value _ := (value + 5, false, value)

/-- Two readers; the first asks for an update, and the second one leaves and comes
back after it. -/
def sampleMoves : List (Bool × Move Nat Bool Nat) :=
  [(true, .read), (true, .advance), (true, .advance), (true, .advance), (true, .advance),
    (false, .read), (false, .advance), (false, .advance), (false, .advance), (false, .advance),
    (true, .tryWriteable sampleClosures), (true, .advance), (true, .advance), (true, .advance),
    (true, .advance), (true, .advance), (true, .advance), (true, .advance), (false, .drop),
    (false, .read), (false, .advance), (false, .advance), (true, .advance), (true, .advance),
    (true, .advance), (true, .advance), (true, .advance), (true, .advance), (false, .advance),
    (false, .advance), (false, .advance), (false, .advance)]

theorem sampleMoves_results :
    ((exec step (new 7 false) sampleMoves).map fun s => (s.value, s.rest)) = some (12, false) ∧
      trace step results (new 7 false) sampleMoves = [(true, 7)] := by
  decide

theorem refines_cell_sample : ∃ (s : Lock Nat Bool Nat Bool) (js : List _),
    exec Cell.step (.new 7 false) js = some s.cell ∧ s.cell.value = 12 ∧
      trace Cell.step Cell.answers (.new 7 false) js = [(true, 7)] := by
  obtain ⟨s, hs, hvalue⟩ := Option.map_eq_some_iff.mp sampleMoves_results.1
  obtain ⟨⟨js, hj, htrace⟩, -⟩ := refines_cell 7 false hs
  exact ⟨s, js, hj, (Prod.mk.inj hvalue).1, htrace.symm.trans sampleMoves_results.2⟩

end Lock

end Xelt.Boringtun.Device.DevLock
