import Mathlib.Data.List.Lemmas
import Xelt.Lib.Text

/-!
# Commands as texts

Two readers of foreign text. A shell splits a command into words; the reader
gives the words of a simple command that is made of literal words only, and
nothing for a text in which a character has, or may have, a meaning of its
own. AppleScript has string literals with a backslash as their escape.
-/

namespace Xelt

namespace Shell

/-- Where the reader is, and the word it has read so far. -/
inductive Mode
  | between
  | word (w : Text)
  | escape (w : Text)
  | single (w : Text)
  | double (w : Text)
  | doubleEscape (w : Text)

def isBlank (c : Char) : Bool := c = ' ' || c = '\t'

/-- The characters that an application quotes if they are to represent
themselves, always or under certain circumstances, and those of brace and
history expansion. -/
def special : Text := "|&;<>()$\x60\\\"' \t\n*?[#~=%\x7b\x7d!^,".toList

/-- A character that is no blank, outside of quotes. -/
def unquoted (w : Text) (c : Char) : Option Mode :=
  if c = '\'' then some (.single w)
  else if c = '"' then some (.double w)
  else if c = '\\' then some (.escape w)
  else if c ∈ special then none
  else some (.word (w ++ [c]))

/-- One character: the word that it ends, and where the reader is behind it. -/
def step : Mode → Char → Option (Option Text × Mode)
  | .between, c => if isBlank c then some (none, .between) else (unquoted [] c).map (none, ·)
  | .word w, c => if isBlank c then some (some w, .between) else (unquoted w c).map (none, ·)
  | .escape w, c => if c = '\n' then none else some (none, .word (w ++ [c]))
  | .single w, c => some (none, if c = '\'' then .word w else .single (w ++ [c]))
  | .double w, c =>
    if c = '"' then some (none, .word w)
    else if c = '\\' then some (none, .doubleEscape w)
    else if c = '$' ∨ c = '\x60' then none
    else some (none, .double (w ++ [c]))
  | .doubleEscape w, c =>
    if c = '$' ∨ c = '\x60' ∨ c = '"' ∨ c = '\\' then some (none, .double (w ++ [c]))
    else if c = '\n' then some (none, .double w)
    else some (none, .double (w ++ ['\\', c]))

def words : Mode → Text → Option (List Text)
  | .between, [] => some []
  | .word w, [] => some [w]
  | .escape _, [] => none
  | .single _, [] => none
  | .double _, [] => none
  | .doubleEscape _, [] => none
  | mode, c :: t =>
    match step mode c with
    | none => none
    | some (done, mode) => (words mode t).map (done.toList ++ ·)

/-- The words of a simple command. Its first word has a slash, so that it is
neither a reserved word nor an alias, a function or a builtin. -/
def simpleCommand (t : Text) : Option (List Text) :=
  (words .between t).filter fun ws => ws.head?.any ('/' ∈ ·)

theorem words_step (h : step mode c = some (done, mode')) (t : Text) :
    words mode (c :: t) = (words mode' t).map (done.toList ++ ·) := by
  cases mode <;> rw [words, h]

theorem words_silent (h : step mode c = some (none, mode')) (t : Text) :
    words mode (c :: t) = words mode' t := by
  rw [words_step h]
  cases words mode' t <;> rfl

theorem unquoted_plain (h : c ∉ special) (w : Text) : unquoted w c = some (.word (w ++ [c])) := by
  have hquote : c ≠ '\'' := fun hc => h (hc ▸ by decide)
  have hdouble : c ≠ '"' := fun hc => h (hc ▸ by decide)
  have hescape : c ≠ '\\' := fun hc => h (hc ▸ by decide)
  rw [unquoted, if_neg hquote, if_neg hdouble, if_neg hescape, if_neg h]

theorem isBlank_plain (h : c ∉ special) : isBlank c = false := by
  have hspace : c ≠ ' ' := fun hc => h (hc ▸ by decide)
  have htab : c ≠ '\t' := fun hc => h (hc ▸ by decide)
  simp [isBlank, hspace, htab]

/-- Characters without a meaning are added to the word. -/
theorem words_plain (h : ∀ c ∈ s, c ∉ special) (w t : Text) :
    words (.word w) (s ++ t) = words (.word (w ++ s)) t := by
  induction s generalizing w with
  | nil => rw [List.append_nil, List.nil_append]
  | cons c s ih =>
    obtain ⟨hc, hs⟩ := List.forall_mem_cons.mp h
    have hstep : step (.word w) c = some (none, .word (w ++ [c])) := by
      simp only [step, isBlank_plain hc, unquoted_plain hc]
      rfl
    rw [List.cons_append, words_silent hstep, ih hs, List.append_assoc, List.singleton_append]

theorem words_plain_start (h : ∀ c ∈ s, c ∉ special) (hne : s ≠ []) (t : Text) :
    words .between (s ++ t) = words (.word s) t := by
  cases s with
  | nil => exact absurd rfl hne
  | cons c s =>
    obtain ⟨hc, hs⟩ := List.forall_mem_cons.mp h
    have hstep : step .between c = some (none, .word [c]) := by
      simp only [step, isBlank_plain hc, unquoted_plain hc]
      rfl
    rw [List.cons_append, words_silent hstep, words_plain hs, List.singleton_append]

/-- Inside single quotes every other character stands for itself. -/
theorem words_single (h : '\'' ∉ s) (w t : Text) :
    words (.single w) (s ++ t) = words (.single (w ++ s)) t := by
  induction s generalizing w with
  | nil => rw [List.append_nil, List.nil_append]
  | cons c s ih =>
    obtain ⟨hc, hs⟩ := not_or.mp (mt List.mem_cons.mpr h)
    have hstep : step (.single w) c = some (none, .single (w ++ [c])) := by
      rw [step, if_neg (Ne.symm hc)]
    rw [List.cons_append, words_silent hstep, ih hs, List.append_assoc, List.singleton_append]

/-- A blank ends the word. -/
theorem words_blank (w t : Text) :
    words (.word w) (' ' :: t) = (words .between t).map (w :: ·) := by
  have hstep : step (.word w) ' ' = some (some w, .between) := rfl
  exact words_step hstep t

end Shell

namespace AppleScript

/-- What a character stands for behind a backslash in a string literal. -/
def escaped : Char → Option Char
  | '\\' => some '\\'
  | '"' => some '"'
  | 'n' => some '\n'
  | 'r' => some '\r'
  | 't' => some '\t'
  | _ => none

/-- The text of a string literal, behind its opening quote, and what follows
its closing one. -/
def stringLiteral : Text → Option (Text × Text)
  | [] => none
  | [c] => if c = '"' then some ([], []) else none
  | c :: d :: t =>
    if c = '"' then some ([], d :: t)
    else if c = '\\' then
      (escaped d).bind fun d => (stringLiteral t).map fun p => (d :: p.1, p.2)
    else (stringLiteral (d :: t)).map fun p => (c :: p.1, p.2)

theorem stringLiteral_end (t : Text) : stringLiteral ('"' :: t) = some ([], t) := by
  cases t <;> simp [stringLiteral]

theorem stringLiteral_escaped (hd : escaped d = some c) (h : stringLiteral t = some (s, rest)) :
    stringLiteral ('\\' :: d :: t) = some (c :: s, rest) := by
  simp [stringLiteral, hd, h]

theorem stringLiteral_plain (hquote : c ≠ '"') (hescape : c ≠ '\\')
    (h : stringLiteral t = some (s, rest)) : stringLiteral (c :: t) = some (c :: s, rest) := by
  cases t with
  | nil => cases h
  | cons d t => simp [stringLiteral, hquote, hescape, h]

end AppleScript

end Xelt
