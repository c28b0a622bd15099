import Xelt.VpnServer.Js

/-!
# Pricing

The length of a session, from the request body, from the session it renews,
or from the configuration; and its price.
-/

namespace Xelt.VpnServer

/-- The numbers are read from the environment and are `none` where that is
not a number. -/
structure PricingConfig where
  pricePerMinuteUsd : Option ℚ
  defaultSessionMinutes : Option Int
  minSessionMinutes : Option Int
  maxSessionMinutes : Option Int
  renewWindowSeconds : Option Int

/-- A number of the configuration in a template string. -/
def numberText : Option Int → String
  | none => "NaN"
  | some n => toString n

namespace PricingConfig

variable (config : PricingConfig)

def durationError : String :=
  "durationMinutes must be between " ++ numberText config.minSessionMinutes ++ " and " ++
    numberText config.maxSessionMinutes

/-- `raw < min || raw > max`; no number is below or above `NaN`. -/
def OutOfBounds (raw : ℚ) : Prop :=
  (∃ m ∈ config.minSessionMinutes, raw < m) ∨ ∃ m ∈ config.maxSessionMinutes, (m : ℚ) < raw

instance (raw : ℚ) : Decidable (config.OutOfBounds raw) :=
  inferInstanceAs (Decidable (_ ∨ _))

end PricingConfig

/-- A number as a value; `NaN` is not finite. -/
def ofNumber : Option Int → JsValue
  | some n => .number n
  | none => .other true

def ofFallback : Option Int → JsValue
  | some n => .number n
  | none => .undefined

def resolveDurationMinutes (durationMinutes : JsValue) (config : PricingConfig)
    (fallbackMinutes : Option Int) : Except String Int :=
  match (durationMinutes.orElse (ofFallback fallbackMinutes)).orElse
      (ofNumber config.defaultSessionMinutes) with
  | .number raw =>
    if config.OutOfBounds raw then .error config.durationError else .ok raw.floor
  | _ => .error config.durationError

/-- `Math.round(minutes * pricePerMinuteUsd * 1e6) / 1e6`, each operation
rounded to a double. -/
def amountUsd (minutes : Int) (config : PricingConfig) : Option ℚ := do
  let price ← config.pricePerMinuteUsd
  let total ← toDouble (minutes * price)
  let micros ← toDouble (total * 1000000)
  toDouble (mathRound micros / 1000000)

def JsValue.Nullish (v : JsValue) : Prop := v = .undefined ∨ v = .null

instance (v : JsValue) : Decidable v.Nullish := inferInstanceAs (Decidable (_ ∨ _))

def PricingConfig.Fits (config : PricingConfig) (minutes : Int) : Prop :=
  ¬ config.OutOfBounds minutes

theorem orElse_nullish {v w : JsValue} (h : v.Nullish) : v.orElse w = w := by
  rcases h with rfl | rfl <;> rfl

theorem orElse_given {v w : JsValue} (h : ¬ v.Nullish) : v.orElse w = v := by
  cases v <;> simp_all [JsValue.Nullish, JsValue.orElse]

theorem resolve_given (h : ¬ v.Nullish) :
    resolveDurationMinutes v config fallback = resolveDurationMinutes v config fallback' := by
  simp only [resolveDurationMinutes, orElse_given h]

theorem resolve_fits (h : resolveDurationMinutes v config fallback = .ok minutes) :
    config.Fits minutes := by
  unfold resolveDurationMinutes at h
  split at h
  · rename_i raw _
    split at h
    · cases h
    · rename_i hraw
      cases h
      simp only [PricingConfig.OutOfBounds, not_or, not_exists, not_and, not_lt] at hraw
      simp only [PricingConfig.Fits, PricingConfig.OutOfBounds, not_or, not_exists, not_and, not_lt]
      refine ⟨fun m hm => ?_, fun m hm => ?_⟩
      · exact_mod_cast Rat.le_floor_iff.mpr (hraw.1 m hm)
      · exact le_trans (Rat.floor_le raw) (hraw.2 m hm)
  · cases h

theorem resolve_stored (hv : v.Nullish) (h : config.Fits minutes) :
    resolveDurationMinutes v config (some minutes) = .ok minutes := by
  have horElse : (v.orElse (ofFallback (some minutes))).orElse
      (ofNumber config.defaultSessionMinutes) = .number minutes := by
    rw [orElse_nullish hv]
    rfl
  simp only [resolveDurationMinutes, horElse, if_neg h, Rat.floor_intCast]

end Xelt.VpnServer
