import Mathlib.Algebra.Order.Field.Rat
import Mathlib.Tactic.Linarith
import Mathlib.Tactic.NormNum
import Xelt.Boringtun.Noise.Tunn
import Xelt.Lib.Simulation

/-!
# The rate limiter of the HTTP server

One token bucket for each address that asks. The bucket is made with the first
request, is refilled by the time since its last use, and the reaper drops
those that were not used for five minutes.
-/

namespace Xelt.Boringtun.HttpApi.RateLimit

open Noise

-- ---------------------------------------------------------------------------
-- Buckets
-- ---------------------------------------------------------------------------

def maxBodyBytes : Nat := 8192
def rateLimitPerSec : ℚ := 1
def rateLimitBurst : ℚ := 10
def rateLimiterPruneSecs : Nat := 300

def secs (ns : Nat) : ℚ := ns / 10 ^ 9

structure TokenBucket where
  tokens : ℚ
  lastRefill : Nat

def TokenBucket.new (now : Nat) : TokenBucket := ⟨rateLimitBurst, now⟩

def TokenBucket.tryConsume (b : TokenBucket) (now : Nat) : Bool × TokenBucket :=
  let elapsed := secs (now - b.lastRefill)
  let tokens := min (b.tokens + elapsed * rateLimitPerSec) rateLimitBurst
  if 1 ≤ tokens then (true, ⟨tokens - 1, now⟩) else (false, ⟨tokens, now⟩)

-- ---------------------------------------------------------------------------
-- The server
-- ---------------------------------------------------------------------------

inductive Reply
  | tooLarge
  | limited
  /-- The request goes on to its handler. -/
  | through
  deriving DecidableEq

structure Limiter where
  buckets : IpAddr → Option TokenBucket
  clock : Nat

def Limiter.start : Limiter := ⟨fun _ => none, 0⟩

/-- What is done under the mutex of the limiter, with the readings of the
monotonic clock made there, in nanoseconds. -/
inductive Event
  | request (remoteAddr : Option IpAddr) (bodyLength : Option Nat) (created consumed : Nat)
  /-- The reaper's test of one entry; a pruning is one for each of them. -/
  | retain (ip : IpAddr) (now : Nat)

structure Decision where
  remoteAddr : Option IpAddr
  consumed : Nat
  reply : Reply
  deriving DecidableEq

namespace Limiter

def request (l : Limiter) (remoteAddr : Option IpAddr) (bodyLength : Option Nat)
    (created consumed : Nat) : (IpAddr → Option TokenBucket) × Reply :=
  if bodyLength.getD 0 > maxBodyBytes then (l.buckets, .tooLarge)
  else
    match remoteAddr with
    | none => (l.buckets, .through)
    | some ip =>
      match ((l.buckets ip).getD (.new created)).tryConsume consumed with
      | (true, b) => (Function.update l.buckets ip (some b), .through)
      | (false, b) => (Function.update l.buckets ip (some b), .limited)

def retain (l : Limiter) (ip : IpAddr) (now : Nat) : IpAddr → Option TokenBucket :=
  Function.update l.buckets ip
    ((l.buckets ip).filter fun b => (now - b.lastRefill) / 10 ^ 9 < rateLimiterPruneSecs)

/-- The clock does not go back. -/
def step (l : Limiter) : Event → Option Limiter
  | .request remoteAddr bodyLength created consumed =>
    if l.clock ≤ created ∧ created ≤ consumed then
      some ⟨(l.request remoteAddr bodyLength created consumed).1, consumed⟩
    else none
  | .retain ip now => if l.clock ≤ now then some ⟨l.retain ip now, now⟩ else none

def decide (l : Limiter) : Event → List Decision
  | .request remoteAddr bodyLength created consumed =>
    if l.clock ≤ created ∧ created ≤ consumed then
      [⟨remoteAddr, consumed, (l.request remoteAddr bodyLength created consumed).2⟩]
    else []
  | .retain .. => []

end Limiter

/-- The decisions of a run, in order. -/
def decisions : List Event → List Decision := Runs.trace Limiter.step Limiter.decide .start

/-- The requests of an address that are let through in an interval. -/
def letThrough (ip : IpAddr) (s t : Nat) (ds : List Decision) : Nat :=
  ds.countP fun d => d.remoteAddr = some ip ∧ d.reply = .through ∧ s ≤ d.consumed ∧ d.consumed ≤ t

-- ---------------------------------------------------------------------------
-- Levels
-- ---------------------------------------------------------------------------

/-- The tokens an address has at a time; an absent bucket is full. -/
def level : Option TokenBucket → Nat → ℚ
  | none, _ => rateLimitBurst
  | some b, now => min (b.tokens + secs (now - b.lastRefill) * rateLimitPerSec) rateLimitBurst

theorem secs_nonneg (ns : Nat) : 0 ≤ secs ns :=
  div_nonneg (Nat.cast_nonneg ns) (by norm_num)

theorem secs_mono (h : m ≤ n) : secs m ≤ secs n := by
  unfold secs
  have hcast : (m : ℚ) ≤ n := by exact_mod_cast h
  linarith

theorem secs_add (m n : Nat) : secs (m + n) = secs m + secs n := by
  unfold secs
  push_cast
  ring

theorem level_le (b : Option TokenBucket) (now : Nat) : level b now ≤ rateLimitBurst := by
  cases b with
  | none => exact le_rfl
  | some b => exact min_le_right _ _

theorem level_nonneg (h : ∀ b', b = some b' → 0 ≤ b'.tokens) (now : Nat) : 0 ≤ level b now := by
  have hburst : (0 : ℚ) ≤ rateLimitBurst := by norm_num [rateLimitBurst]
  cases b with
  | none => exact hburst
  | some b =>
    have htokens := h b rfl
    have hsecs := secs_nonneg (now - b.lastRefill)
    refine le_min ?_ hburst
    rw [rateLimitPerSec]
    linarith

/-- A bucket gains one token a second at most. -/
theorem level_elapse (b : Option TokenBucket) (c c' : Nat) :
    level b c' ≤ level b c + secs (c' - c) * rateLimitPerSec := by
  have hgain := secs_nonneg (c' - c)
  cases b with
  | none =>
    simp only [level, rateLimitPerSec]
    linarith
  | some b =>
    have hle : secs (c' - b.lastRefill) ≤ secs (c - b.lastRefill) + secs (c' - c) := by
      rw [← secs_add]
      exact secs_mono (by omega)
    simp only [level, rateLimitPerSec, mul_one, ← min_add_add_right]
    refine min_le_min ?_ ?_ <;> linarith

/-- Consumption reads the level, of an absent bucket as well. -/
theorem tryConsume_eq (b : Option TokenBucket) (created consumed : Nat) :
    (b.getD (.new created)).tryConsume consumed =
      if 1 ≤ level b consumed then (true, ⟨level b consumed - 1, consumed⟩)
      else (false, ⟨level b consumed, consumed⟩) := by
  cases b with
  | none =>
    have hgain := secs_nonneg (consumed - created)
    have hfull : min (rateLimitBurst + secs (consumed - created) * rateLimitPerSec) rateLimitBurst =
        rateLimitBurst := by
      refine min_eq_right ?_
      rw [rateLimitPerSec]
      linarith
    simp only [Option.getD_none, TokenBucket.tryConsume, TokenBucket.new, hfull, level]
    rfl
  | some b => rfl

/-- A refill does not change what a bucket will hold. -/
theorem level_refilled (hb : ∀ b', b = some b' → b'.lastRefill ≤ c) (h : c ≤ c') :
    level (some ⟨level b c, c⟩) c' = level b c' := by
  have hgain := secs_nonneg (c' - c)
  cases b with
  | none =>
    simp only [level, rateLimitPerSec]
    exact min_eq_right (by linarith)
  | some b =>
    have hsplit : c' - b.lastRefill = (c - b.lastRefill) + (c' - c) := by
      have := hb b rfl
      omega
    simp only [level, rateLimitPerSec, mul_one, hsplit, secs_add]
    rw [← min_add_add_right, min_assoc, ← add_assoc]
    congr 1
    exact min_eq_right (by linarith)

theorem level_at (h : tokens ≤ rateLimitBurst) : level (some ⟨tokens, now⟩) now = tokens := by
  simp only [level, Nat.sub_self]
  rw [secs, Nat.cast_zero, zero_div, zero_mul, add_zero]
  exact min_eq_left h

-- ---------------------------------------------------------------------------
-- Steps
-- ---------------------------------------------------------------------------

namespace Limiter

/-- Tokens are not overdrawn, and buckets are not written ahead of time. -/
def Sound (l : Limiter) : Prop :=
  ∀ ip b, l.buckets ip = some b → 0 ≤ b.tokens ∧ b.lastRefill ≤ l.clock

theorem start_sound : start.Sound := by
  intro ip b h
  cases h

/-- What a step is to one address: its level stays as it was and none of its
requests is let through, or one is and has spent a token. -/
inductive Spends (l l' : Limiter) (ip : IpAddr) : List Decision → Prop
  | kept (hlevel : ∀ now, l'.clock ≤ now → level (l'.buckets ip) now = level (l.buckets ip) now)
      (hds : ∀ d ∈ ds, d.remoteAddr = some ip → d.reply ≠ .through) : Spends l l' ip ds
  | spent (hone : 1 ≤ level (l.buckets ip) l'.clock)
      (hb : l'.buckets ip = some ⟨level (l.buckets ip) l'.clock - 1, l'.clock⟩) :
      Spends l l' ip [⟨some ip, l'.clock, .through⟩]

variable {l l' : Limiter}

theorem Sound.level_nonneg (hl : l.Sound) (ip : IpAddr) (now : Nat) :
    0 ≤ level (l.buckets ip) now :=
  RateLimit.level_nonneg (fun b h => (hl ip b h).1) now

theorem Sound.update (hl : l.Sound) (htokens : 0 ≤ tokens) (hclock : l.clock ≤ now) :
    Sound ⟨Function.update l.buckets ip (some ⟨tokens, now⟩), now⟩ := by
  intro ip' b hb
  dsimp only at hb
  rcases eq_or_ne ip' ip with rfl | hne
  · rw [Function.update_self] at hb
    cases hb
    exact ⟨htokens, le_rfl⟩
  · rw [Function.update_of_ne hne] at hb
    exact ⟨(hl ip' b hb).1, (hl ip' b hb).2.trans hclock⟩

/-- A pruned bucket was full. -/
theorem retain_level (hl : l.Sound) (hnow : now ≤ later) (ip ip' : IpAddr) :
    level (l.retain ip now ip') later = level (l.buckets ip') later := by
  rcases eq_or_ne ip' ip with rfl | hne
  · rw [retain, Function.update_self]
    cases hb : l.buckets ip' with
    | none => rfl
    | some b =>
      rw [Option.filter_some]
      split
      · rfl
      · rename_i hold
        have htokens := (hl ip' b hb).1
        have hage : (300 : ℚ) ≤ secs (later - b.lastRefill) := by
          have hsecs : ¬ (now - b.lastRefill) / 10 ^ 9 < 300 := mt decide_eq_true hold
          have hns : 300 * 10 ^ 9 ≤ later - b.lastRefill := by omega
          have hsecs := secs_mono hns
          norm_num [secs] at hsecs ⊢
          exact hsecs
        have hfull : rateLimitBurst ≤
            b.tokens + secs (later - b.lastRefill) * rateLimitPerSec := by
          simp only [rateLimitBurst, rateLimitPerSec]
          linarith
        exact (min_eq_right hfull).symm
  · rw [retain, Function.update_of_ne hne]

theorem retain_sound (hl : l.Sound) (hclock : l.clock ≤ now) : Sound ⟨l.retain ip now, now⟩ := by
  intro ip' b hb
  have hmem : l.buckets ip' = some b := by
    dsimp only [retain] at hb
    rcases eq_or_ne ip' ip with rfl | hne
    · rw [Function.update_self] at hb
      exact (Option.filter_eq_some_iff.mp hb).1
    · rwa [Function.update_of_ne hne] at hb
  exact ⟨(hl ip' b hmem).1, (hl ip' b hmem).2.trans hclock⟩

/-- A bucket that refuses is refilled. -/
theorem request_limited (hl : l.Sound) (hclock : l.clock ≤ consumed) (hlater : consumed ≤ later)
    (ip ip' : IpAddr) :
    level (Function.update l.buckets ip (some ⟨level (l.buckets ip) consumed,
      consumed⟩) ip') later =
      level (l.buckets ip') later := by
  rcases eq_or_ne ip' ip with rfl | hne
  · rw [Function.update_self]
    exact level_refilled (fun b hb => (hl ip' b hb).2.trans hclock) hlater
  · rw [Function.update_of_ne hne]

theorem step_request (hl : l.Sound) (hclock : l.clock ≤ consumed) (remoteAddr : Option IpAddr)
    (bodyLength : Option Nat) (created : Nat) (ip : IpAddr) :
    Sound ⟨(l.request remoteAddr bodyLength created consumed).1, consumed⟩ ∧
      Spends l ⟨(l.request remoteAddr bodyLength created consumed).1, consumed⟩ ip
        [⟨remoteAddr, consumed, (l.request remoteAddr bodyLength created consumed).2⟩] := by
  have hkept : Sound ⟨l.buckets, consumed⟩ := fun ip b hb =>
    ⟨(hl ip b hb).1, (hl ip b hb).2.trans hclock⟩
  unfold request
  split
  · exact ⟨hkept, .kept (fun _ _ => rfl) (by simp)⟩
  cases remoteAddr with
  | none => exact ⟨hkept, .kept (fun _ _ => rfl) (by simp)⟩
  | some ip' =>
    simp only [tryConsume_eq]
    split
    · rename_i hconsume
      split at hconsume
      · rename_i hone
        cases hconsume
        refine ⟨hl.update (by linarith) hclock, ?_⟩
        rcases eq_or_ne ip ip' with rfl | hne
        · exact .spent hone (Function.update_self ..)
        · refine .kept (fun _ _ => ?_) (by simp [hne.symm])
          dsimp only
          rw [Function.update_of_ne hne]
      · cases hconsume
    · rename_i hconsume
      split at hconsume
      · cases hconsume
      · cases hconsume
        refine ⟨hl.update (hl.level_nonneg ip' consumed) hclock, ?_⟩
        exact .kept (fun later hlater => request_limited hl hclock hlater ip' ip) (by simp)

theorem step_spends (hl : l.Sound) (h : l.step e = some l') (ip : IpAddr) :
    l'.Sound ∧ l.clock ≤ l'.clock ∧ Spends l l' ip (l.decide e) := by
  cases e with
  | request remoteAddr bodyLength created consumed =>
    rw [step] at h
    rw [decide]
    split at h
    · rename_i hclock
      cases h
      rw [if_pos hclock]
      have hle := hclock.1.trans hclock.2
      obtain ⟨hsound, hspends⟩ := step_request hl hle remoteAddr bodyLength created ip
      exact ⟨hsound, hle, hspends⟩
    · cases h
  | retain ip' now =>
    rw [step] at h
    split at h
    · rename_i hclock
      cases h
      exact ⟨retain_sound hl hclock, hclock,
        .kept (fun later hlater => retain_level hl hlater ip' ip) (by simp [decide])⟩
    · cases h

end Limiter

-- ---------------------------------------------------------------------------
-- How many are let through
-- ---------------------------------------------------------------------------

theorem letThrough_append (ip : IpAddr) (s t : Nat) (ds ds' : List Decision) :
    letThrough ip s t (ds ++ ds') = letThrough ip s t ds + letThrough ip s t ds' :=
  List.countP_append

theorem letThrough_eq_zero (h : ∀ d ∈ ds, d.remoteAddr = some ip → d.reply ≠ .through) :
    letThrough ip s t ds = 0 := by
  rw [letThrough, List.countP_eq_zero]
  intro d hd
  simp only [decide_eq_true_eq]
  rintro ⟨haddr, hreply, -⟩
  exact h d hd haddr hreply

/-- What an address has been let through in an interval, with what it could
still be, is paid for by the time since the interval began. -/
structure Paid (ip : IpAddr) (s t : Nat) (l : Limiter) (past : List Decision) : Prop where
  sound : l.Sound
  early : l.clock < s → letThrough ip s t past = 0
  within : s ≤ l.clock → l.clock ≤ t →
    letThrough ip s t past + level (l.buckets ip) l.clock ≤
      rateLimitBurst + secs (l.clock - s) * rateLimitPerSec
  bound : letThrough ip s t past ≤ rateLimitBurst + secs (t - s) * rateLimitPerSec

theorem paid_start (ip : IpAddr) (s t : Nat) : Paid ip s t .start [] := by
  have hburst : (0 : ℚ) ≤ rateLimitBurst := by norm_num [rateLimitBurst]
  have hzero : (letThrough ip s t [] : ℚ) = 0 := Nat.cast_zero
  have hnow := secs_nonneg (Limiter.start.clock - s)
  have hend := secs_nonneg (t - s)
  refine ⟨Limiter.start_sound, fun _ => rfl, fun _ _ => ?_, ?_⟩
  · rw [hzero, zero_add, rateLimitPerSec, mul_one]
    exact (level_le _ _).trans (by linarith)
  · rw [hzero, rateLimitPerSec]
    linarith

/-- The tokens at a later reading are paid for as well. -/
theorem Paid.elapse (h : Paid ip s t l past) (hclock : l.clock ≤ now) (hs : s ≤ now)
    (ht : now ≤ t) :
    letThrough ip s t past + level (l.buckets ip) now ≤
      rateLimitBurst + secs (now - s) * rateLimitPerSec := by
  by_cases hbegun : s ≤ l.clock
  · have hwithin := h.within hbegun (hclock.trans ht)
    have hgain := level_elapse (l.buckets ip) l.clock now
    have hsplit : now - s = (l.clock - s) + (now - l.clock) := by omega
    rw [hsplit, secs_add, add_mul]
    linarith
  · have hlevel := level_le (l.buckets ip) now
    have hnow := secs_nonneg (now - s)
    rw [h.early (not_le.mp hbegun), Nat.cast_zero, rateLimitPerSec]
    linarith

theorem Paid.step (h : Paid ip s t l past) (hstep : l.step e = some l') :
    Paid ip s t l' (past ++ l.decide e) := by
  obtain ⟨hsound, hclock, hspends⟩ := Limiter.step_spends h.sound hstep ip
  generalize l.decide e = ds at hspends ⊢
  cases hspends with
  | kept hlevel hds =>
    have hcount : letThrough ip s t (past ++ ds) = letThrough ip s t past := by
      rw [letThrough_append, letThrough_eq_zero hds, add_zero]
    refine ⟨hsound, fun hs => ?_, fun hs ht => ?_, ?_⟩
    · rw [hcount]
      exact h.early (hclock.trans_lt hs)
    · rw [hcount, hlevel l'.clock le_rfl]
      exact h.elapse hclock hs ht
    · rw [hcount]
      exact h.bound
  | spent hone hb =>
    by_cases hin : s ≤ l'.clock ∧ l'.clock ≤ t
    · have hcount : (letThrough ip s t (past ++ [⟨some ip, l'.clock, .through⟩]) : ℚ) =
          letThrough ip s t past + 1 := by
        rw [letThrough_append]
        simp [letThrough, hin]
      have hpaid := h.elapse hclock hin.1 hin.2
      refine ⟨hsound, fun hs => absurd hin.1 (not_le.mpr hs), fun _ _ => ?_, ?_⟩
      · have hle := level_le (l.buckets ip) l'.clock
        rw [hcount, hb, level_at (by linarith)]
        linarith
      · have hmono : secs (l'.clock - s) ≤ secs (t - s) := secs_mono (by omega)
        rw [rateLimitPerSec] at hpaid ⊢
        rw [hcount]
        linarith
    · have hcount : letThrough ip s t (past ++ [⟨some ip, l'.clock, .through⟩]) =
          letThrough ip s t past := by
        rw [letThrough_append]
        simp only [letThrough, List.countP_singleton]
        simp [hin]
      refine ⟨hsound, fun hs => ?_, fun hs ht => absurd ⟨hs, ht⟩ hin, ?_⟩
      · rw [hcount]
        exact h.early (hclock.trans_lt hs)
      · rw [hcount]
        exact h.bound

-- ---------------------------------------------------------------------------
-- Prunings
-- ---------------------------------------------------------------------------

def Event.isRequest : Event → Bool
  | .request .. => true
  | .retain .. => false

namespace Limiter

/-- The requests that a run serves. -/
def served (l : Limiter) (e : Event) : Option Event :=
  match l.step e with
  | none => none
  | some _ => if e.isRequest then some e else none

/-- A limiter beside one that was never pruned: from now on each address has
the same level in both. -/
structure SameLevels (l full : Limiter) : Prop where
  sound : l.Sound
  clock : full.clock ≤ l.clock
  level : ∀ ip now, l.clock ≤ now →
    RateLimit.level (l.buckets ip) now = RateLimit.level (full.buckets ip) now

theorem start_sameLevels : SameLevels start start := ⟨start_sound, le_rfl, fun _ _ _ => rfl⟩

variable {l full : Limiter}

/-- A request only asks for levels. -/
theorem SameLevels.request (h : SameLevels l full) (hclock : l.clock ≤ consumed)
    (remoteAddr : Option IpAddr) (bodyLength : Option Nat) (created : Nat) :
    (full.request remoteAddr bodyLength created consumed).2 =
        (l.request remoteAddr bodyLength created consumed).2 ∧
      ∀ ip now, consumed ≤ now →
        RateLimit.level ((l.request remoteAddr bodyLength created consumed).1 ip) now =
          RateLimit.level ((full.request remoteAddr bodyLength created consumed).1 ip) now := by
  have hsame : ∀ ip now, consumed ≤ now →
      RateLimit.level (l.buckets ip) now = RateLimit.level (full.buckets ip) now :=
    fun ip now hnow => h.level ip now (hclock.trans hnow)
  simp only [Limiter.request]
  split
  · exact ⟨rfl, hsame⟩
  cases remoteAddr with
  | none => exact ⟨rfl, hsame⟩
  | some ip =>
    simp only [tryConsume_eq, hsame ip consumed le_rfl]
    have hwritten : ∀ (b : TokenBucket) ip' now, consumed ≤ now →
        RateLimit.level (Function.update l.buckets ip (some b) ip') now =
          RateLimit.level (Function.update full.buckets ip (some b) ip') now := by
      intro b ip' now hnow
      rcases eq_or_ne ip' ip with rfl | hne
      · rw [Function.update_self, Function.update_self]
      · rw [Function.update_of_ne hne, Function.update_of_ne hne]
        exact hsame ip' now hnow
    by_cases hone : 1 ≤ RateLimit.level (full.buckets ip) consumed
    · simp only [if_pos hone]
      exact ⟨trivial, hwritten _⟩
    · simp only [if_neg hone]
      exact ⟨trivial, hwritten _⟩

theorem step_requests : Runs.Embeds step step served SameLevels where
  stuck l e h := by rw [served, h]
  idle l full e l' hR hstep hserved := by
    cases e with
    | request remoteAddr bodyLength created consumed =>
      rw [served, hstep] at hserved
      cases hserved
    | retain ip now =>
      have hsound := (step_spends hR.sound hstep ip).1
      rw [step] at hstep
      split at hstep
      · rename_i hclock
        cases hstep
        refine ⟨hsound, hR.clock.trans hclock, fun ip' later hlater => ?_⟩
        exact (retain_level hR.sound hlater ip ip').trans
          (hR.level ip' later (hclock.trans hlater))
      · cases hstep
  moves l full e l' e' hR hstep hserved := by
    cases e with
    | request remoteAddr bodyLength created consumed =>
      rw [served, hstep] at hserved
      cases hserved
      have hsound := (step_spends hR.sound hstep (.v4 0)).1
      rw [step] at hstep
      split at hstep
      · rename_i hclock
        cases hstep
        obtain ⟨-, hlevel⟩ := hR.request (hclock.1.trans hclock.2) remoteAddr bodyLength created
        exact ⟨_, if_pos ⟨hR.clock.trans hclock.1, hclock.2⟩, hsound, le_rfl, hlevel⟩
      · cases hstep
    | retain ip now =>
      rw [served, hstep] at hserved
      cases hserved

theorem decide_served (h : SameLevels l full) (e : Event) :
    l.decide e = (l.served e).elim [] full.decide := by
  cases e with
  | request remoteAddr bodyLength created consumed =>
    rw [decide, served, step]
    split
    · rename_i hclock
      obtain ⟨hreply, -⟩ := h.request (hclock.1.trans hclock.2) remoteAddr bodyLength created
      have hfull : full.clock ≤ created ∧ created ≤ consumed :=
        ⟨h.clock.trans hclock.1, hclock.2⟩
      simp only [Event.isRequest, if_true, Option.elim_some, decide, if_pos hfull, hreply]
    · rfl
  | retain ip now =>
    rw [served]
    cases step l (.retain ip now) <;> rfl

/-- What a run serves are its requests. -/
theorem viewed_served (he : Runs.exec step l es = some l') :
    Runs.viewed step served l es = es.filter Event.isRequest := by
  induction es generalizing l with
  | nil => rfl
  | cons e es ih =>
    obtain ⟨l₁, hstep, he⟩ := (Runs.exec_cons_some step).mp he
    cases hreq : e.isRequest with
    | true =>
      have hserved : served l e = some e := by rw [served, hstep, hreq]; rfl
      rw [Runs.viewed_moves hstep hserved, ih he, List.filter_cons_of_pos hreq]
    | false =>
      have hserved : served l e = none := by rw [served, hstep, hreq]; rfl
      rw [Runs.viewed_idle hstep hserved, ih he, List.filter_cons_of_neg (by simp [hreq])]

end Limiter

-- ---------------------------------------------------------------------------
-- The limit
-- ---------------------------------------------------------------------------

/-- On a clock that does not go back, no interval lets more requests of an
address through than the burst and the rate allow, and the decisions do not
depend on the prunings. -/
theorem rate_limited (es : List Event) (he : Runs.exec Limiter.step .start es = some l) :
    (∀ ip s t, (letThrough ip s t (decisions es) : ℚ) ≤
      rateLimitBurst + secs (t - s) * rateLimitPerSec) ∧
    decisions (es.filter Event.isRequest) = decisions es := by
  refine ⟨fun ip s t => ?_, ?_⟩
  · have hall : Runs.Along Limiter.step (fun _ _ => True) Limiter.start es :=
      Runs.along_iff_at.mpr fun _ _ _ _ _ _ => trivial
    have hpaid := Runs.invariant_trace Limiter.decide [] (I := Paid ip s t)
      (fun l e l' past h _ hstep => h.step hstep) (paid_start ip s t) hall he
    exact hpaid.bound
  · have htrace : decisions es = decisions (Runs.viewed Limiter.step Limiter.served .start es) :=
      Limiter.step_requests.trace (fun l full e h => Limiter.decide_served h e)
        Limiter.start_sameLevels
    rw [Limiter.viewed_served he] at htrace
    exact htrace.symm

-- An address that asks twelve times at once, is pruned and asks again.

def sampleIp : IpAddr := .v4 (.new 198 51 100 7)

def sampleRequests : List Event :=
  List.replicate 12 (.request (some sampleIp) none 0 0) ++
    [.retain sampleIp (301 * 10 ^ 9), .request (some sampleIp) none (302 * 10 ^ 9) (302 * 10 ^ 9)]

theorem rate_limited_sample :
    (letThrough sampleIp 0 (10 ^ 9) (decisions sampleRequests) : ℚ) ≤
        rateLimitBurst + secs (10 ^ 9 - 0) * rateLimitPerSec ∧
      decisions (sampleRequests.filter Event.isRequest) = decisions sampleRequests := by
  have hrun : ∃ l, Runs.exec Limiter.step .start sampleRequests = some l := ⟨_, rfl⟩
  obtain ⟨l, he⟩ := hrun
  exact ⟨(rate_limited sampleRequests he).1 sampleIp 0 (10 ^ 9), (rate_limited sampleRequests he).2⟩

end Xelt.Boringtun.HttpApi.RateLimit
