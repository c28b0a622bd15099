import Xelt.Lib.Bytes

/-!
# Checked indexing

Reading a byte string at an index that may lie outside of it, which would
abort the program.
-/

namespace Xelt

inductive Fault
  | outOfBounds
  deriving DecidableEq

abbrev Checked := Except Fault

namespace Checked

open Bytes

def byteAt (b : Bytes) (i : Nat) : Checked UInt8 :=
  match b[i]? with
  | some x => .ok x
  | none => .error .outOfBounds

/-- `b[lo..hi]`. -/
def range (b : Bytes) (lo hi : Nat) : Checked Bytes :=
  if lo ≤ hi ∧ hi ≤ b.length then .ok ((b.drop lo).take (hi - lo)) else .error .outOfBounds

/-- `b[off..off + n]` as an array. -/
def array (b : Bytes) (off n : Nat) : Checked (ByteArr n) :=
  if h : off + n ≤ b.length then .ok (slice b off n h) else .error .outOfBounds

@[simp] theorem ok_bind (a : α) (f : α → Checked β) : ((.ok a : Checked α) >>= f) = f a := rfl

@[simp] theorem pure_eq (a : α) : (pure a : Checked α) = .ok a := rfl

theorem byteAt_ok (h : i < b.length) : byteAt b i = .ok (b.getD i 0) := by
  simp [byteAt, h]

theorem range_ok (h : lo ≤ hi) (h' : hi ≤ b.length) :
    range b lo hi = .ok ((b.drop lo).take (hi - lo)) := by
  rw [range, if_pos ⟨h, h'⟩]

theorem array_ok (h : off + n ≤ b.length) : array b off n = .ok (slice b off n h) := by
  rw [array, dif_pos h]

end Checked

end Xelt
