import Mathlib.Data.Finset.Insert
import Xelt.Lib.Bytes

/-!
# Bandwidth quota

The counters of one peer, as `payment/quota.rs` keeps them: 64-bit atomics
with wrapping `fetch_add` and `fetch_sub`, the blocked flag, and the set of
nonces already used. Every packet path of the device meters a packet the
same way, the flag first and then `consume`; that snippet is `meter`.
-/

namespace Xelt.Boringtun.Payment

/-- 10 MB. -/
def defaultQuotaBytes : UInt64 := 10 * 1024 * 1024

structure BandwidthQuota where
  remainingBytes : UInt64
  blocked : Bool
  totalConsumed : UInt64
  paymentCount : UInt64
  usedNonces : Finset Bytes32
  deriving DecidableEq

namespace BandwidthQuota

def new (initialBytes : UInt64) : BandwidthQuota where
  remainingBytes := initialBytes
  blocked := false
  totalConsumed := 0
  paymentCount := 0
  usedNonces := ∅

/-- Consume bytes from quota. `true` if allowed, `false` if quota just
exhausted; the branch for an already empty quota leaves `blocked` alone. -/
def consume (q : BandwidthQuota) (bytes : UInt64) : Bool × BandwidthQuota :=
  let remaining := q.remainingBytes
  if remaining = 0 then
    (false, q)
  else if bytes > remaining then
    (false, { q with
      remainingBytes := 0
      totalConsumed := q.totalConsumed + remaining
      blocked := true })
  else
    (true, { q with
      remainingBytes := q.remainingBytes - bytes
      totalConsumed := q.totalConsumed + bytes })

def credit (q : BandwidthQuota) (bytes : UInt64) : BandwidthQuota :=
  { q with
    remainingBytes := q.remainingBytes + bytes
    paymentCount := q.paymentCount + 1
    blocked := false }

/-- `true` when the nonce was new; it is recorded either way. -/
def checkAndRecordNonce (q : BandwidthQuota) (nonce : Bytes32) : Bool × BandwidthQuota :=
  (nonce ∉ q.usedNonces, { q with usedNonces := insert nonce q.usedNonces })

def isBlocked (q : BandwidthQuota) : Bool := q.blocked

/-- What a handler does with a packet once its quota was asked. -/
inductive Verdict
  | blocked
  | exhausted
  | forward
  deriving DecidableEq, Repr

/-- The check every packet path makes: drop when blocked, otherwise consume. -/
def meter (q : BandwidthQuota) (bytes : UInt64) : Verdict × BandwidthQuota :=
  if q.isBlocked then (.blocked, q)
  else match q.consume bytes with
    | (true, q') => (.forward, q')
    | (false, q') => (.exhausted, q')

/-- The bytes a `consume` call moves from the remaining to the consumed ones. -/
def taken (q : BandwidthQuota) (bytes : UInt64) : UInt64 :=
  if bytes > q.remainingBytes then q.remainingBytes else bytes

/-- An empty quota whose flag was never set: `consume` refuses without
blocking, so the next packet is refused, and reported, again. -/
def Stuck (q : BandwidthQuota) : Prop := q.remainingBytes = 0 ∧ q.blocked = false

instance (q : BandwidthQuota) : Decidable q.Stuck := by unfold Stuck; infer_instance

-- ---------------------------------------------------------------------------
-- What one call does
-- ---------------------------------------------------------------------------

@[simp] theorem credit_blocked (q : BandwidthQuota) : (q.credit bytes).blocked = false := rfl
@[simp] theorem credit_remainingBytes (q : BandwidthQuota) :
    (q.credit bytes).remainingBytes = q.remainingBytes + bytes := rfl
@[simp] theorem credit_totalConsumed (q : BandwidthQuota) :
    (q.credit bytes).totalConsumed = q.totalConsumed := rfl

@[simp] theorem nonce_blocked (q : BandwidthQuota) :
    (q.checkAndRecordNonce nonce).2.blocked = q.blocked := rfl
@[simp] theorem nonce_remainingBytes (q : BandwidthQuota) :
    (q.checkAndRecordNonce nonce).2.remainingBytes = q.remainingBytes := rfl
@[simp] theorem nonce_totalConsumed (q : BandwidthQuota) :
    (q.checkAndRecordNonce nonce).2.totalConsumed = q.totalConsumed := rfl

@[simp] theorem credit_paymentCount (q : BandwidthQuota) :
    (q.credit bytes).paymentCount = q.paymentCount + 1 := rfl
@[simp] theorem credit_usedNonces (q : BandwidthQuota) :
    (q.credit bytes).usedNonces = q.usedNonces := rfl

@[simp] theorem nonce_paymentCount (q : BandwidthQuota) :
    (q.checkAndRecordNonce nonce).2.paymentCount = q.paymentCount := rfl
@[simp] theorem nonce_usedNonces (q : BandwidthQuota) :
    (q.checkAndRecordNonce nonce).2.usedNonces = insert nonce q.usedNonces := rfl

/-- Everything `meter` can do. -/
theorem meter_cases (q : BandwidthQuota) (bytes : UInt64) :
    (q.blocked = true ∧ q.meter bytes = (.blocked, q)) ∨
    (q.Stuck ∧ q.meter bytes = (.exhausted, q)) ∨
    (q.blocked = false ∧ bytes > q.remainingBytes ∧ q.remainingBytes ≠ 0 ∧
      q.meter bytes = (.exhausted, { q with
        remainingBytes := 0
        totalConsumed := q.totalConsumed + q.remainingBytes
        blocked := true })) ∨
    (q.blocked = false ∧ bytes ≤ q.remainingBytes ∧ q.remainingBytes ≠ 0 ∧
      q.meter bytes = (.forward, { q with
        remainingBytes := q.remainingBytes - bytes
        totalConsumed := q.totalConsumed + bytes })) := by
  cases hb : q.blocked with
  | true => exact .inl ⟨rfl, by simp [meter, isBlocked, hb]⟩
  | false =>
    right
    by_cases h0 : q.remainingBytes = 0
    · exact .inl ⟨⟨h0, hb⟩, by simp [meter, isBlocked, hb, consume, h0]⟩
    · right
      by_cases hgt : bytes > q.remainingBytes
      · exact .inl ⟨rfl, hgt, h0, by simp [meter, isBlocked, hb, consume, h0, hgt]⟩
      · exact .inr ⟨rfl, UInt64.not_lt.mp hgt, h0, by
          simp [meter, isBlocked, hb, consume, h0, hgt]⟩

theorem meter_payments (q : BandwidthQuota) (bytes : UInt64) :
    (q.meter bytes).2.paymentCount = q.paymentCount ∧
      (q.meter bytes).2.usedNonces = q.usedNonces := by
  rcases q.meter_cases bytes with ⟨hb, hm⟩ | ⟨hs, hm⟩ | ⟨hb, hgt, h0, hm⟩ | ⟨hb, hle, h0, hm⟩
  all_goals simp [hm]

/-- A refused packet blocks the peer, unless its quota was already empty. -/
theorem meter_exhausted_blocked {q : BandwidthQuota} (h : (q.meter bytes).1 = .exhausted) :
    (q.meter bytes).2.blocked = true ↔ ¬ q.Stuck := by
  rcases q.meter_cases bytes with ⟨hb, hm⟩ | ⟨hs, hm⟩ | ⟨hb, hgt, h0, hm⟩ | ⟨hb, hle, h0, hm⟩
  · simp [hm] at h
  · simp [hm, hs, hs.2]
  · simp [hm, Stuck, h0]
  · simp [hm] at h

theorem meter_blocked_of_ne_exhausted {q : BandwidthQuota} (h : (q.meter bytes).1 ≠ .exhausted) :
    (q.meter bytes).2.blocked = q.blocked := by
  rcases q.meter_cases bytes with ⟨hb, hm⟩ | ⟨hs, hm⟩ | ⟨hb, hgt, h0, hm⟩ | ⟨hb, hle, h0, hm⟩
  all_goals simp [hm] at h ⊢

theorem not_blocked_of_exhausted {q : BandwidthQuota} (h : (q.meter bytes).1 = .exhausted) :
    q.blocked = false := by
  rcases q.meter_cases bytes with ⟨hb, hm⟩ | ⟨hs, hm⟩ | ⟨hb, hgt, h0, hm⟩ | ⟨hb, hle, h0, hm⟩
  · simp [hm] at h
  · exact hs.2
  · exact hb
  · exact hb

theorem taken_of_forward {q : BandwidthQuota} (h : (q.meter bytes).1 = .forward) :
    q.taken bytes = bytes := by
  rcases q.meter_cases bytes with ⟨hb, hm⟩ | ⟨hs, hm⟩ | ⟨hb, hgt, h0, hm⟩ | ⟨hb, hle, h0, hm⟩
  · simp [hm] at h
  · simp [hm] at h
  · simp [hm] at h
  · simp [taken, UInt64.not_lt.mpr hle]

/-- Metering moves bytes between the counters and makes none: no more than
`taken` goes over, and a packet let through is taken whole. -/
theorem meter_balance (q : BandwidthQuota) (bytes : UInt64)
    (hfit : q.totalConsumed.toNat + (q.taken bytes).toNat < 2 ^ 64) :
    (q.meter bytes).2.remainingBytes.toNat + (q.meter bytes).2.totalConsumed.toNat =
        q.remainingBytes.toNat + q.totalConsumed.toNat ∧
      q.totalConsumed.toNat + (if (q.meter bytes).1 = .forward then bytes.toNat else 0) ≤
        (q.meter bytes).2.totalConsumed.toNat := by
  rcases q.meter_cases bytes with ⟨hb, hm⟩ | ⟨hs, hm⟩ | ⟨hb, hgt, h0, hm⟩ | ⟨hb, hle, h0, hm⟩
  · simp [hm]
  · simp [hm]
  · simp only [taken, hgt, if_true] at hfit
    simp [hm, UInt64.toNat_add]
    omega
  · have hng : ¬ bytes > q.remainingBytes := UInt64.not_lt.mpr hle
    simp only [taken, hng, if_false] at hfit
    have hle' : bytes.toNat ≤ q.remainingBytes.toNat := UInt64.le_iff_toNat_le.mp hle
    simp [hm, UInt64.toNat_add, UInt64.toNat_sub_of_le _ _ hle]
    omega

end BandwidthQuota

end Xelt.Boringtun.Payment
