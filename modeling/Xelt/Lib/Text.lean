import Mathlib.Data.List.Lemmas
import Xelt.Lib.Bytes

/-!
# Texts of lines

A text is the list of its characters. Lines as a buffered reader hands them
out, a field and its value, numerals, and bytes in hexadecimal, each with the
reader that takes back what was written.
-/

namespace Xelt

abbrev Text := List Char

namespace Text

-- ---------------------------------------------------------------------------
-- Lines
-- ---------------------------------------------------------------------------

/-- Each line with its newline. -/
def unlines (ls : List Text) : Text := ls.flatMap (· ++ ['\n'])

/-- What one call after the other to read a line yields, newlines included;
the last piece may have none. -/
def rawLines : Text → List Text
  | [] => []
  | c :: cs =>
    if c = '\n' then [c] :: rawLines cs
    else match rawLines cs with
      | [] => [[c]]
      | l :: ls => (c :: l) :: ls

/-- A line without its newline, or without its carriage return and newline. -/
def chomp (raw : Text) : Text :=
  if raw.getLast? = some '\n' then
    let line := raw.dropLast
    if line.getLast? = some '\r' then line.dropLast else line
  else raw

def lines (t : Text) : List Text := (rawLines t).map chomp

/-- No character of the text ends a line. -/
def Plain (t : Text) : Prop := ∀ c ∈ t, c ≠ '\n' ∧ c ≠ '\r'

instance (t : Text) : Decidable (Plain t) :=
  List.decidableBAll (fun c => c ≠ '\n' ∧ c ≠ '\r') t

@[simp] theorem plain_nil : Plain [] := by simp [Plain]

@[simp] theorem plain_cons : Plain (c :: t) ↔ (c ≠ '\n' ∧ c ≠ '\r') ∧ Plain t :=
  List.forall_mem_cons

@[simp] theorem plain_append : Plain (s ++ t) ↔ Plain s ∧ Plain t := by
  simp only [Plain, List.mem_append, or_imp, forall_and]
  exact and_and_and_comm

theorem rawLines_cons (h : Plain l) (rest : Text) :
    rawLines (l ++ '\n' :: rest) = (l ++ ['\n']) :: rawLines rest := by
  induction l with
  | nil => simp [rawLines]
  | cons c l ih =>
    obtain ⟨hc, hl⟩ := plain_cons.mp h
    simp [rawLines, hc.1, ih hl]

theorem rawLines_unlines (h : ∀ l ∈ ls, Plain l) (rest : Text) :
    rawLines (unlines ls ++ rest) = ls.map (· ++ ['\n']) ++ rawLines rest := by
  induction ls with
  | nil => simp [unlines]
  | cons l ls ih =>
    obtain ⟨hl, hls⟩ := List.forall_mem_cons.mp h
    have hsplit : unlines (l :: ls) ++ rest = l ++ '\n' :: (unlines ls ++ rest) := by
      simp [unlines]
    rw [hsplit, rawLines_cons hl, ih hls]
    rfl

theorem chomp_line (h : Plain l) : chomp (l ++ ['\n']) = l := by
  have hlast : l.getLast? ≠ some '\r' := fun hr => (h _ (List.mem_of_getLast? hr)).2 rfl
  simp [chomp, hlast]

theorem lines_unlines (h : ∀ l ∈ ls, Plain l) (rest : Text) :
    lines (unlines ls ++ rest) = ls ++ lines rest := by
  rw [lines, rawLines_unlines h, List.map_append, List.map_map, ← lines]
  congr 1
  exact (List.map_congr_left fun l hl => chomp_line (h l hl)).trans (List.map_id _)

-- ---------------------------------------------------------------------------
-- Fields
-- ---------------------------------------------------------------------------

/-- `name=value`. -/
def field (name : String) (value : Text) : Text := name.toList ++ '=' :: value

/-- What stands before the first separator, and what stands behind it. -/
def splitOnce (sep : Char) : Text → Option (Text × Text)
  | [] => none
  | c :: cs => if c = sep then some ([], cs) else (splitOnce sep cs).map fun p => (c :: p.1, p.2)

theorem splitOnce_append (h : sep ∉ s) (t : Text) :
    splitOnce sep (s ++ sep :: t) = some (s, t) := by
  induction s with
  | nil => simp [splitOnce]
  | cons c s ih =>
    obtain ⟨hc, hs⟩ := not_or.mp (mt List.mem_cons.mpr h)
    simp [splitOnce, Ne.symm hc, ih hs]

theorem splitOnce_none (h : splitOnce sep t = none) : sep ∉ t := by
  induction t with
  | nil => exact List.not_mem_nil
  | cons c t ih =>
    rw [splitOnce] at h
    split at h
    · cases h
    · rename_i hc
      rw [List.mem_cons, not_or]
      exact ⟨Ne.symm hc, ih (Option.map_eq_none_iff.mp h)⟩

theorem splitOnce_some (h : splitOnce sep t = some (s, rest)) : t = s ++ sep :: rest ∧ sep ∉ s := by
  induction t generalizing s with
  | nil => cases h
  | cons c t ih =>
    rw [splitOnce] at h
    split at h
    · rename_i hc
      cases h
      exact ⟨by rw [hc]; rfl, List.not_mem_nil⟩
    · rename_i hc
      obtain ⟨⟨s', rest'⟩, hp, heq⟩ := Option.map_eq_some_iff.mp h
      cases heq
      obtain ⟨ht, hs⟩ := ih hp
      refine ⟨by rw [ht]; rfl, ?_⟩
      rw [List.mem_cons, not_or]
      exact ⟨Ne.symm hc, hs⟩

theorem splitOn_cons {sep : Char} {s : Text} (h : sep ∉ s) (t : Text) :
    (s ++ sep :: t).splitOn sep = s :: t.splitOn sep := by
  have hs : ∀ c ∈ s, (c == sep) = false := by
    intro c hc
    rw [beq_eq_false_iff_ne]
    rintro rfl
    exact h hc
  rw [List.splitOn_eq_splitOnP, List.splitOnP_append_cons_of_forall_mem hs sep (by simp)]
  rfl

theorem splitOn_single {sep : Char} {s : Text} (h : sep ∉ s) : s.splitOn sep = [s] := by
  rw [List.splitOn_eq_splitOnP, List.splitOnP_eq_singleton]
  intro c hc
  rw [beq_eq_false_iff_ne]
  rintro rfl
  exact h hc

theorem ne_nil_of_splitOnce {sep : Char} {t : Text} (h : splitOnce sep t = some r) : t ≠ [] := by
  rintro rfl
  cases h

/-- A text of two fields is split the same by both. -/
theorem splitOnce_of_splitOn {sep : Char} {t key value : Text} (h : t.splitOn sep = [key, value]) :
    splitOnce sep t = some (key, value) := by
  cases hp : splitOnce sep t with
  | none =>
    rw [splitOn_single (splitOnce_none hp)] at h
    cases h
  | some p =>
    obtain ⟨s, rest⟩ := p
    obtain ⟨rfl, hs⟩ := splitOnce_some hp
    rw [splitOn_cons hs] at h
    obtain ⟨rfl, hrest⟩ := List.cons.inj h
    have hvalue : [sep].intercalate (rest.splitOn sep) = rest := List.intercalate_splitOn sep
    rw [hrest, List.intercalate_singleton] at hvalue
    rw [hvalue]

-- ---------------------------------------------------------------------------
-- Numerals
-- ---------------------------------------------------------------------------

/-- The numeral of a number. -/
def decimal (n : Nat) : Text := Nat.toDigits 10 n

/-- An unsigned number of so many bits; a plus sign may precede its digits. -/
def parseUnsigned (width : Nat) (t : Text) : Option Nat :=
  let digits := if t.head? = some '+' then t.tail else t
  if digits ≠ [] ∧ digits.all Char.isDigit ∧ Nat.ofDigitChars 10 digits 0 < 2 ^ width then
    some (Nat.ofDigitChars 10 digits 0)
  else none

theorem isDigit_of_mem_decimal (h : c ∈ decimal n) : c.isDigit :=
  Nat.isDigit_of_mem_toDigits (by omega) le_rfl h

theorem not_mem_decimal (h : c.isDigit = false) : c ∉ decimal n := by
  intro hc
  rw [isDigit_of_mem_decimal hc] at h
  cases h

theorem plain_toDigits (h : 1 < b) (hb : b ≤ 16) (n : Nat) : Plain (Nat.toDigits b n) := by
  have hdigit : ∀ d < 16, Plain [Nat.digitChar d] := by decide
  induction n using Nat.strong_induction_on with
  | _ n ih =>
    rw [Nat.toDigits_eq_if h]
    split
    · exact hdigit n (by omega)
    · refine plain_append.mpr ⟨ih _ (Nat.div_lt_self (by omega) h), hdigit _ ?_⟩
      exact lt_of_lt_of_le (Nat.mod_lt n (by omega)) hb

@[simp] theorem plain_decimal (n : Nat) : Plain (decimal n) :=
    plain_toDigits (by omega) (by omega) n

theorem parseUnsigned_decimal (h : n < 2 ^ width) : parseUnsigned width (decimal n) = some n := by
  have hplus : (decimal n).head? ≠ some '+' := fun hhead =>
    not_mem_decimal (by decide) (List.mem_of_head? hhead)
  have hall : (decimal n).all Char.isDigit :=
    List.all_eq_true.mpr fun _ hc => isDigit_of_mem_decimal hc
  have hvalue : Nat.ofDigitChars 10 (decimal n) 0 = n := Nat.ofDigitChars_ten_toDigits
  have hne : decimal n ≠ [] := Nat.toDigits_ne_nil
  simp [parseUnsigned, hplus, hall, hvalue, hne, h]

def parseBool (t : Text) : Option Bool :=
  if t = "true".toList then some true
  else if t = "false".toList then some false
  else none

-- ---------------------------------------------------------------------------
-- Slices by bytes
-- ---------------------------------------------------------------------------

/-- What is left behind so many bytes; `none` inside a character or behind the
end. -/
def dropBytes : Nat → Text → Option Text
  | 0, t => some t
  | _ + 1, [] => none
  | n + 1, c :: t => if c.utf8Size ≤ n + 1 then dropBytes (n + 1 - c.utf8Size) t else none

def takeBytes : Nat → Text → Option Text
  | 0, _ => some []
  | _ + 1, [] => none
  | n + 1, c :: t =>
    if c.utf8Size ≤ n + 1 then (takeBytes (n + 1 - c.utf8Size) t).map (c :: ·) else none

/-- `t[lo..hi]`. -/
def byteSlice (t : Text) (lo hi : Nat) : Option Text := (dropBytes lo t).bind (takeBytes (hi - lo))

@[simp] theorem takeBytes_zero (t : Text) : takeBytes 0 t = some [] := by cases t <;> rfl

theorem dropBytes_add (h : dropBytes m t = some rest) (n : Nat) :
    dropBytes (m + n) t = dropBytes n rest := by
  induction t generalizing m with
  | nil =>
    cases m with
    | zero => cases h; rw [Nat.zero_add]
    | succ m => cases h
  | cons c t ih =>
    cases m with
    | zero => cases h; rw [Nat.zero_add]
    | succ m =>
      rw [dropBytes] at h
      split at h
      · rename_i hc
        rw [show m + 1 + n = (m + n) + 1 by omega, dropBytes, if_pos (by omega), ← ih h]
        congr 1
        omega
      · cases h

-- ---------------------------------------------------------------------------
-- Hexadecimal
-- ---------------------------------------------------------------------------

def hexEncode (bytes : Bytes) : Text :=
  bytes.flatMap fun b => [Nat.digitChar (b.toNat / 16), Nat.digitChar (b.toNat % 16)]

def hexValue (c : Char) : Option Nat :=
  if '0' ≤ c ∧ c ≤ '9' then some (c.toNat - '0'.toNat)
  else if 'a' ≤ c ∧ c ≤ 'f' then some (c.toNat - 'a'.toNat + 10)
  else if 'A' ≤ c ∧ c ≤ 'F' then some (c.toNat - 'A'.toNat + 10)
  else none

def hexDecode : Text → Option Bytes
  | [] => some []
  | [_] => none
  | a :: b :: rest =>
    match hexValue a, hexValue b, hexDecode rest with
    | some hi, some lo, some bytes => some (UInt8.ofNat (16 * hi + lo) :: bytes)
    | _, _, _ => none

theorem hexValue_digitChar (h : d < 16) : hexValue (Nat.digitChar d) = some d := by
  have hall : ∀ d < 16, hexValue (Nat.digitChar d) = some d := by decide
  exact hall d h

theorem hexEncode_cons (b : UInt8) (bytes : Bytes) : hexEncode (b :: bytes) =
    Nat.digitChar (b.toNat / 16) :: Nat.digitChar (b.toNat % 16) :: hexEncode bytes := rfl

theorem ofNat_digits (b : UInt8) : UInt8.ofNat (16 * (b.toNat / 16) + b.toNat % 16) = b := by
  rw [Nat.div_add_mod, UInt8.ofNat_toNat]

theorem hexDecode_hexEncode (bytes : Bytes) : hexDecode (hexEncode bytes) = some bytes := by
  induction bytes with
  | nil => rfl
  | cons b bytes ih =>
    have hb := b.toNat_lt
    rw [hexEncode_cons, hexDecode, hexValue_digitChar (by omega), hexValue_digitChar (by omega), ih]
    simp only [ofNat_digits]

theorem utf8Size_of_hexValue (h : hexValue c = some n) : c.utf8Size = 1 := by
  have hle : c ≤ 'f' := by
    unfold hexValue at h
    split at h
    · rename_i hc
      exact Char.le_trans hc.2 (by decide)
    split at h
    · rename_i hc
      exact hc.2
    split at h
    · rename_i hc
      exact Char.le_trans hc.2 (by decide)
    · cases h
  exact Char.utf8Size_eq_one_iff.mpr (UInt32.le_trans (Char.le_def.mp hle) (by decide))

theorem hexEncode_injective (h : hexEncode a = hexEncode b) : a = b :=
  Option.some.inj ((hexDecode_hexEncode a).symm.trans (h ▸ hexDecode_hexEncode b))

@[simp] theorem length_hexEncode (bytes : Bytes) : (hexEncode bytes).length = 2 * bytes.length := by
  induction bytes with
  | nil => rfl
  | cons b bytes ih =>
    rw [hexEncode_cons, List.length_cons, List.length_cons, ih, List.length_cons]
    ring

/-- A digit is the character of a number below 16. -/
theorem mem_hexEncode (h : c ∈ hexEncode bytes) : ∃ d < 16, c = Nat.digitChar d := by
  obtain ⟨b, -, hc⟩ := List.mem_flatMap.mp h
  have hb := b.toNat_lt
  rcases List.mem_pair.mp hc with rfl | rfl
  · exact ⟨b.toNat / 16, by omega, rfl⟩
  · exact ⟨b.toNat % 16, by omega, rfl⟩

theorem not_mem_hexEncode (h : ∀ d < 16, c ≠ Nat.digitChar d) : c ∉ hexEncode bytes := by
  intro hc
  obtain ⟨d, hd, hcd⟩ := mem_hexEncode hc
  exact h d hd hcd

@[simp] theorem plain_hexEncode (bytes : Bytes) : Plain (hexEncode bytes) := by
  intro c hc
  constructor <;> rintro rfl <;> exact not_mem_hexEncode (by decide) hc

end Text

end Xelt
