import Mathlib.Data.List.Infix
import Mathlib.Data.List.TakeWhile
import Mathlib.Tactic

/-!
A reader of C text that lists string pairs, `{"…", "…"},` again and again: trigraphs, continued lines,
string literals with simple escape sequences. Whatever else C allows (comments, numeric escapes, adjacent
literals) it refuses.
-/

namespace TwinpassGateway.Foundation

variable {cs rest v : List Char}

/-! ### The reader -/

/-- What `??` in front of a character means. -/
def trigraph : Char → Option Char
  | '=' => some '#'
  | '/' => some '\\'
  | '\'' => some '^'
  | '(' => some '['
  | ')' => some ']'
  | '!' => some '|'
  | '<' => some '{'
  | '>' => some '}'
  | '-' => some '~'
  | _ => none

def replaceTrigraphs : List Char → List Char
  | '?' :: '?' :: c :: rest =>
    match trigraph c with
    | some d => d :: replaceTrigraphs rest
    | none => '?' :: replaceTrigraphs ('?' :: c :: rest)
  | c :: rest => c :: replaceTrigraphs rest
  | [] => []

/-- A backslash at the end of a line continues the line. -/
def spliceLines : List Char → List Char
  | '\\' :: '\n' :: rest => spliceLines rest
  | c :: rest => c :: spliceLines rest
  | [] => []

def simpleEscape : Char → Option Char
  | 'n' => some '\n'
  | 'r' => some '\r'
  | 't' => some '\t'
  | 'a' => some '\x07'
  | 'b' => some '\x08'
  | 'f' => some '\x0c'
  | 'v' => some '\x0b'
  | '\\' => some '\\'
  | '"' => some '"'
  | '\'' => some '\''
  | '?' => some '?'
  | _ => none

def literalBody : List Char → Option (List Char × List Char)
  | [] => none
  | '"' :: rest => some ([], rest)
  | '\n' :: _ => none
  | ['\\'] => none
  | '\\' :: c :: rest => do
    let d ← simpleEscape c
    let (v, rest) ← literalBody rest
    some (d :: v, rest)
  | c :: rest => do
    let (v, rest) ← literalBody rest
    some (c :: v, rest)

def skipSpace (cs : List Char) : List Char := cs.dropWhile Char.isWhitespace

def expect (c : Char) (cs : List Char) : Option (List Char) :=
  match skipSpace cs with
  | [] => none
  | d :: rest => if d = c then some rest else none

def stringLiteral (cs : List Char) : Option (List Char × List Char) := (expect '"' cs).bind literalBody

def entry (cs : List Char) : Option ((List Char × List Char) × List Char) := do
  let cs ← expect '{' cs
  let (first, cs) ← stringLiteral cs
  let cs ← expect ',' cs
  let (second, cs) ← stringLiteral cs
  let cs ← expect '}' cs
  let cs ← expect ',' cs
  some ((first, second), cs)

def entries : Nat → List Char → Option (List (List Char × List Char))
  | 0, cs => if skipSpace cs = [] then some [] else none
  | fuel + 1, cs =>
    if skipSpace cs = [] then some []
    else do
      let (e, rest) ← entry cs
      let es ← entries fuel rest
      some (e :: es)

def readEntries (text : List Char) : Option (List (List Char × List Char)) :=
  let text := spliceLines (replaceTrigraphs text)
  entries text.length text

theorem expect_here {c : Char} (visible : c.isWhitespace = false) : expect c (c :: rest) = some rest := by
  have skipped : skipSpace (c :: rest) = c :: rest := List.dropWhile_cons_of_neg (by rw [visible]; decide)
  rw [expect, skipped]
  exact if_pos rfl

theorem expect_behind {lead : List Char} {c : Char} (blank : ∀ d ∈ lead, d.isWhitespace = true)
    (visible : c.isWhitespace = false) : expect c (lead ++ c :: rest) = some rest := by
  have skipped : skipSpace (lead ++ c :: rest) = skipSpace (c :: rest) := List.dropWhile_append_of_pos blank
  rw [expect, skipped]
  exact expect_here visible

/-! ### Texts without trigraphs -/

def TrigraphFree (cs : List Char) : Prop := ∀ c, (trigraph c).isSome = true → ¬['?', '?', c] <:+: cs

/-- No trigraph ends in the text if `marks` question marks stand before it. -/
def NoTrigraph : Nat → List Char → Prop
  | _, [] => True
  | marks, c :: rest => (2 ≤ marks → trigraph c = none) ∧ NoTrigraph (if c = '?' then marks + 1 else 0) rest

theorem NoTrigraph.fewer {marks fewer : Nat} (le : fewer ≤ marks) (free : NoTrigraph marks cs) :
    NoTrigraph fewer cs := by
  induction cs generalizing marks fewer with
  | nil => trivial
  | cons c rest ih =>
    refine ⟨fun two => free.1 (two.trans le), ih ?_ free.2⟩
    split
    · exact Nat.succ_le_succ le
    · exact le_refl 0

theorem noTrigraph_of_free {marks : Nat} (free : TrigraphFree (List.replicate (min marks 2) '?' ++ cs)) :
    NoTrigraph marks cs := by
  induction cs generalizing marks with
  | nil => trivial
  | cons c rest ih =>
    have later : ∀ ys : List Char, ys <:+ List.replicate (min marks 2) '?' ++ c :: rest → TrigraphFree ys :=
      fun ys behind d three inside => free d three (inside.trans behind.isInfix)
    refine ⟨fun two => ?_, ih ?_⟩
    · by_contra three
      have here : ['?', '?', c] <:+: List.replicate (min marks 2) '?' ++ c :: rest := by
        rw [min_eq_right two]
        exact ⟨[], rest, rfl⟩
      exact free c (Option.isSome_iff_ne_none.mpr three) here
    · apply later
      by_cases mark : c = '?'
      · have joined : List.replicate (min marks 2) '?' ++ c :: rest =
            List.replicate (min marks 2 + 1) '?' ++ rest := by
          rw [mark, List.replicate_succ', List.append_assoc]
          rfl
        have split : min marks 2 + 1 = (min marks 2 + 1 - min (marks + 1) 2) + min (marks + 1) 2 := by omega
        rw [if_pos mark, joined, split, List.replicate_add, List.append_assoc]
        exact List.suffix_append _ _
      · rw [if_neg mark]
        exact (List.suffix_cons c rest).trans (List.suffix_append _ _)

theorem replaceTrigraphs_eq (free : NoTrigraph 0 cs) : replaceTrigraphs cs = cs := by
  fun_induction replaceTrigraphs cs with
  | case1 c rest d three ih =>
    have none_here := free.2.2.1 (le_refl 2)
    rw [three] at none_here
    cases none_here
  | case2 c rest three ih => rw [ih (free.2.fewer (Nat.zero_le _))]
  | case3 c rest other ih => rw [ih (free.2.fewer (Nat.zero_le _))]
  | case4 => rfl

/-! ### Texts without continued lines -/

/-- No line is continued in the text behind a backslash (or not). -/
def NoSplice : Bool → List Char → Prop
  | _, [] => True
  | behind, c :: rest => (behind = true → c ≠ '\n') ∧ NoSplice (c = '\\') rest

theorem NoSplice.weaken {behind : Bool} (free : NoSplice behind cs) : NoSplice false cs := by
  cases cs with
  | nil => trivial
  | cons c rest => exact ⟨fun behind => absurd behind Bool.false_ne_true, free.2⟩

theorem spliceLines_eq (free : NoSplice false cs) : spliceLines cs = cs := by
  fun_induction spliceLines cs with
  | case1 rest ih => exact absurd rfl (free.2.1 (by decide))
  | case2 c rest other ih => rw [ih free.2.weaken]
  | case3 => rfl

end TwinpassGateway.Foundation
