import Mathlib.Data.Vector.Basic
import Mathlib.Data.Nat.Digits.Defs
import Mathlib.Tactic.Ring

/-!
# Byte strings

Big- and little-endian integers of a fixed width and slices of a fixed length. A slice
takes the proof that it lies inside the string, so a reader of a message
cannot index past its end.
-/

namespace Xelt

abbrev Bytes := List UInt8

/-- A byte array of a fixed length. -/
abbrev ByteArr (n : Nat) := List.Vector UInt8 n

abbrev Bytes32 := ByteArr 32

instance : CoeOut (ByteArr n) Bytes := ⟨List.Vector.toList⟩

namespace Bytes

/-- The low `width` bytes of a number, most significant first. -/
def beBytes : Nat → Nat → Bytes
  | 0, _ => []
  | width + 1, n => UInt8.ofNat (n / 256 ^ width) :: beBytes width n

def readBe : Bytes → Nat
  | [] => 0
  | b :: bs => b.toNat * 256 ^ bs.length + readBe bs

@[simp] theorem length_beBytes : (beBytes width n).length = width := by
  induction width with
  | zero => rfl
  | succ width ih => simp [beBytes, ih]

/-- The array of a number, most significant byte first. -/
def beArray (n value : Nat) : ByteArr n := ⟨beBytes n value, length_beBytes⟩

theorem readBe_beBytes : readBe (beBytes width n) = n % 256 ^ width := by
  induction width with
  | zero => simp [beBytes, readBe, Nat.mod_one]
  | succ width ih =>
    rw [beBytes, readBe, ih, length_beBytes, Nat.mod_pow_succ, UInt8.toNat_ofNat']
    ring

theorem readBe_beBytes_of_lt (h : n < 256 ^ width) : readBe (beBytes width n) = n := by
  rw [readBe_beBytes, Nat.mod_eq_of_lt h]

theorem readBe_lt (bs : Bytes) : readBe bs < 256 ^ bs.length := by
  induction bs with
  | nil => simp [readBe]
  | cons b bs ih =>
    have hb : b.toNat + 1 ≤ 256 := b.toNat_lt
    have hm := Nat.mul_le_mul_right (256 ^ bs.length) hb
    rw [Nat.succ_mul] at hm
    simp only [readBe, List.length_cons, Nat.pow_succ]
    omega

/-- The low `width` bytes of a number, least significant first. -/
def leBytes : Nat → Nat → Bytes
  | 0, _ => []
  | width + 1, n => UInt8.ofNat n :: leBytes width (n / 256)

def readLe : Bytes → Nat
  | [] => 0
  | b :: bs => b.toNat + 256 * readLe bs

@[simp] theorem length_leBytes : (leBytes width n).length = width := by
  induction width generalizing n with
  | zero => rfl
  | succ width ih => simp [leBytes, ih]

theorem readLe_leBytes : readLe (leBytes width n) = n % 256 ^ width := by
  induction width generalizing n with
  | zero => simp [leBytes, readLe, Nat.mod_one]
  | succ width ih =>
    have hlow : (UInt8.ofNat n).toNat = n % 256 := UInt8.toNat_ofNat'
    rw [leBytes, readLe, ih, hlow, Nat.pow_succ', Nat.mod_mul (a := 256)]

theorem readLe_leBytes_of_lt (h : n < 256 ^ width) : readLe (leBytes width n) = n := by
  rw [readLe_leBytes, Nat.mod_eq_of_lt h]

/-- Numbers of at most `width` bytes are told apart by them. -/
theorem leBytes_inj (hm : m < 256 ^ width) (hn : n < 256 ^ width)
    (h : leBytes width m = leBytes width n) : m = n := by
  rw [← readLe_leBytes_of_lt hm, h, readLe_leBytes_of_lt hn]

/-- A byte string as an array of its own length. -/
def toArr (b : Bytes) : ByteArr b.length := ⟨b, rfl⟩

/-- `bytes[off..off + n]` as an array; `h` is what the indexing would check. -/
def slice (b : Bytes) (off n : Nat) (h : off + n ≤ b.length) : ByteArr n :=
  ⟨(b.drop off).take n, by simp; omega⟩

/-- A slice finds the part of a concatenation that starts at its offset. -/
theorem slice_eq {v : ByteArr n} (pre : Bytes) (hb : b = pre ++ (v.toList ++ post))
    (hp : pre.length = off) (h : off + n ≤ b.length) : slice b off n h = v := by
  subst hb hp
  obtain ⟨v, rfl⟩ := v
  apply Subtype.ext
  simp [slice, List.Vector.toList]

theorem getD_eq {v : UInt8} (pre : Bytes) (hb : b = pre ++ v :: post) (hp : pre.length = off) :
    b.getD off 0 = v := by
  subst hb hp
  simp

end Bytes

end Xelt
