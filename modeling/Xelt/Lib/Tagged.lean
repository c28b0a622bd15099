/-!
# Tagged lists

The entries of a shared log that belong to one party.
-/

namespace Xelt.Tagged

universe u v

variable {κ : Type u} {α : Type v} [DecidableEq κ]

/-- What stands in the log under one tag. -/
def select (tag : κ) (log : List (κ × α)) : List α :=
  (log.filter (·.1 == tag)).map (·.2)

@[simp] theorem select_nil (tag : κ) : select tag ([] : List (κ × α)) = [] := rfl

@[simp] theorem select_append (tag : κ) (a b : List (κ × α)) :
    select tag (a ++ b) = select tag a ++ select tag b := by
  simp [select]

theorem mem_select {log : List (κ × α)} : a ∈ select tag log ↔ (tag, a) ∈ log := by
  simp [select]

theorem select_self {tag : κ} (as : List α) : select tag (as.map fun a => (tag, a)) = as := by
  simp [select, List.filter_map, Function.comp_def]

theorem select_other {tag tag' : κ} (h : tag' ≠ tag) (as : List α) :
    select tag (as.map fun a => (tag', a)) = [] := by
  simp [select, List.filter_map, Function.comp_def, h]

end Xelt.Tagged
