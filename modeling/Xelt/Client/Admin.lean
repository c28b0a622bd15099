import Xelt.Client.Tunnel
import Xelt.Lib.Shell

/-!
# Commands for the administrator

`run_as_admin_macos` of `vpn.rs` makes one shell command of its arguments,
each quoted for the shell, and puts the command into a string literal of the
script that `osascript` is given.
-/

namespace Xelt.Client

open Text

/-- The characters that need no quotes. -/
def isSafe (c : Char) : Bool := c.isAlphanum || "/._-:".toList.contains c

/-- `s.replace('\'', "'\\''")`. -/
def replaceQuote (s : Text) : Text := s.flatMap fun c => if c = '\'' then "'\\''".toList else [c]

def shlexQuote (s : Text) : Text :=
  if s = [] then "''".toList
  else if s.all isSafe then s
  else '\'' :: (replaceQuote s ++ ['\''])

/-- The commands that may be asked for, with their binaries. -/
def adminBin : String → Option String
  | "route" => some "/sbin/route"
  | "ifconfig" => some "/sbin/ifconfig"
  | "networksetup" => some "/usr/sbin/networksetup"
  | "kill" => some "/bin/kill"
  | "pkill" => some "/usr/bin/pkill"
  | "nc" => some "/usr/bin/nc"
  | _ => none

def adminCmd (bin : Text) (args : List Text) : Text :=
  bin ++ args.flatMap fun arg => ' ' :: shlexQuote arg

/-- `cmd.replace('\\', "\\\\").replace('"', "\\\"")`. -/
def escapeScript (cmd : Text) : Text :=
  (cmd.flatMap fun c => if c = '\\' then ['\\', '\\'] else [c]).flatMap
    fun c => if c = '"' then ['\\', '"'] else [c]

/-- The script of `run_as_admin_macos`, or its error. -/
def adminScript (args : List String) : Except String Text :=
  match args.head?.bind adminBin with
  | none =>
    .error (sudoHint ++ " (unsupported privileged command: " ++ args.head?.getD "?" ++ ")")
  | some bin =>
    .ok ("do shell script \"".toList ++
      escapeScript (adminCmd bin.toList (args.tail.map String.toList)) ++
      "\" with administrator privileges".toList)

-- ---------------------------------------------------------------------------
-- How the script is read
-- ---------------------------------------------------------------------------

/-- The shell command of a script for the administrator. -/
def scriptCommand (script : Text) : Option Text :=
  (script.dropPrefix? "do shell script \"".toList).bind fun rest =>
    (AppleScript.stringLiteral rest).bind fun (cmd, rest) =>
      if rest = " with administrator privileges".toList then some cmd else none

theorem isSafe_plain (h : isSafe c) : c ∉ Shell.special := by
  have hall : (Shell.special.all fun c => !isSafe c) = true := by decide
  intro hc
  have hunsafe := List.all_eq_true.mp hall c hc
  rw [h] at hunsafe
  cases hunsafe

theorem words_replaceQuote (s w t : Text) :
    Shell.words (.single w) (replaceQuote s ++ '\'' :: t) = Shell.words (.word (w ++ s)) t := by
  induction s generalizing w with
  | nil =>
    rw [List.append_nil]
    exact Shell.words_silent rfl t
  | cons c s ih =>
    rw [replaceQuote, List.flatMap_cons, ← replaceQuote, List.append_assoc]
    by_cases hc : c = '\''
    · -- the quote is left, an escaped one is added, and a quote is opened
      subst hc
      rw [if_pos rfl]
      calc Shell.words (.single w) ("'\\''".toList ++ (replaceQuote s ++ '\'' :: t))
        _ = Shell.words (.word w) ('\\' :: '\'' :: '\'' :: (replaceQuote s ++ '\'' :: t)) :=
          Shell.words_silent rfl _
        _ = Shell.words (.escape w) ('\'' :: '\'' :: (replaceQuote s ++ '\'' :: t)) :=
          Shell.words_silent rfl _
        _ = Shell.words (.word (w ++ ['\''])) ('\'' :: (replaceQuote s ++ '\'' :: t)) :=
          Shell.words_silent rfl _
        _ = Shell.words (.single (w ++ ['\''])) (replaceQuote s ++ '\'' :: t) :=
          Shell.words_silent rfl _
        _ = Shell.words (.word (w ++ '\'' :: s)) t := by
          rw [ih, List.append_assoc, List.singleton_append]
    · have hsingle : '\'' ∉ [c] := by simpa using Ne.symm hc
      rw [if_neg hc, Shell.words_single hsingle, ih, List.append_assoc, List.singleton_append]

/-- What is quoted is one word. -/
theorem words_shlexQuote (s t : Text) :
    Shell.words .between (shlexQuote s ++ t) = Shell.words (.word s) t := by
  unfold shlexQuote
  split
  · rename_i hnil
    subst hnil
    exact (Shell.words_silent rfl _).trans (Shell.words_silent rfl t)
  · rename_i hne
    split
    · rename_i hsafe
      exact Shell.words_plain_start
        (fun c hc => isSafe_plain (List.all_eq_true.mp hsafe c hc)) hne t
    · have hopen : Shell.words .between ('\'' :: (replaceQuote s ++ '\'' :: t)) =
          Shell.words (.single []) (replaceQuote s ++ '\'' :: t) := Shell.words_silent rfl _
      rw [List.cons_append, List.append_assoc, List.singleton_append, hopen, words_replaceQuote,
        List.nil_append]

theorem words_args (w : Text) (args : List Text) :
    Shell.words (.word w) (args.flatMap fun arg => ' ' :: shlexQuote arg) = some (w :: args) := by
  induction args generalizing w with
  | nil => rfl
  | cons arg args ih =>
    rw [List.flatMap_cons, List.cons_append, Shell.words_blank, words_shlexQuote, ih,
      Option.map_some]

theorem adminBin_plain (h : adminBin name = some bin) :
    (∀ c ∈ bin.toList, isSafe c) ∧ '/' ∈ bin.toList := by
  have hall : bin.toList.all isSafe = true ∧ '/' ∈ bin.toList := by
    unfold adminBin at h
    split at h <;> cases h <;> decide
  exact ⟨List.all_eq_true.mp hall.1, hall.2⟩

theorem simpleCommand_adminCmd (h : adminBin name = some bin) (args : List Text) :
    Shell.simpleCommand (adminCmd bin.toList args) = some (bin.toList :: args) := by
  obtain ⟨hsafe, hslash⟩ := adminBin_plain h
  have hwords : Shell.words .between (adminCmd bin.toList args) = some (bin.toList :: args) := by
    rw [adminCmd, Shell.words_plain_start (fun c hc => isSafe_plain (hsafe c hc))
      (List.ne_nil_of_mem hslash), words_args]
  rw [Shell.simpleCommand, hwords, Option.filter_some, if_pos]
  simpa using hslash

theorem stringLiteral_escapeScript (cmd t : Text) :
    AppleScript.stringLiteral (escapeScript cmd ++ '"' :: t) = some (cmd, t) := by
  induction cmd with
  | nil => exact AppleScript.stringLiteral_end t
  | cons c cmd ih =>
    rw [escapeScript, List.flatMap_cons, List.flatMap_append, ← escapeScript, List.append_assoc]
    by_cases hescape : c = '\\'
    · subst hescape
      exact AppleScript.stringLiteral_escaped rfl ih
    rw [if_neg hescape, List.flatMap_singleton]
    by_cases hquote : c = '"'
    · subst hquote
      exact AppleScript.stringLiteral_escaped rfl ih
    · rw [if_neg hquote]
      exact AppleScript.stringLiteral_plain hquote hescape ih

/-- The script is read back as one simple command, of the binary and the
arguments as they were given. -/
theorem adminScript_words (args : List String) (h : adminBin name = some bin) :
    ∃ script, adminScript (name :: args) = .ok script ∧
      (scriptCommand script).bind Shell.simpleCommand =
        some (bin.toList :: args.map String.toList) := by
  have hscript : adminScript (name :: args) = .ok ("do shell script \"".toList ++
      (escapeScript (adminCmd bin.toList (args.map String.toList)) ++
        '"' :: " with administrator privileges".toList)) := by
    simp only [adminScript, List.head?_cons, Option.bind_some, h, List.tail_cons, List.append_assoc]
    rfl
  refine ⟨_, hscript, ?_⟩
  rw [scriptCommand, List.dropPrefix?_append_of_beq _ (beq_self_eq_true _), Option.bind_some,
    stringLiteral_escapeScript, Option.bind_some]
  exact simpleCommand_adminCmd h _

theorem adminBin_isSome : (adminBin program).isSome ↔
    program ∈ ["route", "ifconfig", "networksetup", "kill", "pkill", "nc"] := by
  unfold adminBin
  split <;> simp_all

/-- The commands that the tunnel carries out as the administrator. -/
theorem runAsAdminMacos_words (w : World) (h : w.runAsAdminMacos cmd n = .ok n') :
    ∃ bin script, adminScript cmd.args = .ok script ∧
      (scriptCommand script).bind Shell.simpleCommand =
        some (bin :: cmd.args.tail.map String.toList) := by
  have hprogram : cmd.args.headD "?" ∈
      ["route", "ifconfig", "networksetup", "kill", "pkill", "nc"] := by
    by_contra hnot
    simp only [World.runAsAdminMacos, if_neg hnot] at h
    cases h
  cases hargs : cmd.args with
  | nil =>
    rw [hargs] at hprogram
    exact absurd hprogram (by decide)
  | cons program args =>
    rw [hargs] at hprogram
    obtain ⟨bin, hbin⟩ := Option.isSome_iff_exists.mp (adminBin_isSome.mpr hprogram)
    obtain ⟨script, hscript, hwords⟩ := adminScript_words args hbin
    exact ⟨_, script, hscript, hwords⟩

/-- An argument with quotes, a backslash, a command behind a semicolon, a
substitution and a newline, and an empty one. -/
theorem adminScript_words_sample :
    ∃ script, adminScript ["route", "'; rm -rf \"$HOME\" \\ \n", ""] = .ok script ∧
      (scriptCommand script).bind Shell.simpleCommand =
        some ["/sbin/route".toList, "'; rm -rf \"$HOME\" \\ \n".toList, []] :=
  have hroute : adminBin "route" = some "/sbin/route" := rfl
  adminScript_words ["'; rm -rf \"$HOME\" \\ \n", ""] hroute

end Xelt.Client
