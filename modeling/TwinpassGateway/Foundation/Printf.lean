import Mathlib.Data.List.Basic
import Mathlib.Tactic
import TwinpassGateway.Foundation.CharArray

/-!
The formats of `printf`: how a format is read as characters and directives, what is printed for them, and when two of
them print the same. What a single directive prints, and which arguments it takes, is a parameter.
-/

namespace TwinpassGateway.Foundation

def percent : U8 := ascii '%'

/-- What can stand between the percent sign and the conversion: flags, width, precision, position and length. -/
def modifiers : List U8 :=
  [' ', '+', '0', '-', '#', '\'', 'I', '1', '2', '3', '4', '5', '6', '7', '8', '9', '*', '.', '$', 'h', 'l', 'L', 'j', 'z',
    't', 'q', 'Z'].map ascii

/-- A character that is printed as it is, or a directive, given by what follows its percent sign. -/
inductive Piece
  | char (c : U8)
  | directive (spec : List U8)
  deriving DecidableEq

namespace Piece

/-- The piece that a conversion ends. -/
def ending (mods : List U8) (c : U8) : Piece :=
  if mods = [] ∧ c = percent then .char percent else .directive (mods ++ [c])

def spell : Piece → List U8
  | .char c => if c = percent then [percent, percent] else [c]
  | .directive spec => percent :: spec

end Piece

/-- The pieces of a format, where `some mods` says that these modifiers of a directive have been read. A directive that
has no conversion ends with the format. -/
def readFrom : Option (List U8) → List U8 → List Piece
  | none, [] => []
  | some mods, [] => [.directive mods]
  | none, c :: rest => if c = percent then readFrom (some []) rest else .char c :: readFrom none rest
  | some mods, c :: rest =>
    if c ∈ modifiers then readFrom (some (mods ++ [c])) rest else .ending mods c :: readFrom none rest

/-- What has been read of a directive after one more character. -/
def progress : Option (List U8) → U8 → Option (List U8)
  | none, c => if c = percent then some [] else none
  | some mods, c => if c ∈ modifiers then some (mods ++ [c]) else none

/-- The modifiers of the directive inside which a format ends. -/
def unfinished (reading : Option (List U8)) (text : List U8) : Option (List U8) := text.foldl progress reading

def spell (pieces : List Piece) : List U8 := pieces.flatMap Piece.spell

def literal (text : List U8) : List Piece := text.map .char

section Render

variable {ι : Type*}

/-- What is printed, where `conv` says for a directive and the arguments that are left what is printed and what is left
then. -/
def render (conv : List U8 → List ι → List U8 × List ι) : List Piece → List ι → List U8
  | [], _ => []
  | .char c :: rest, args => c :: render conv rest args
  | .directive spec :: rest, args => (conv spec args).1 ++ render conv rest (conv spec args).2

end Render

def upTo : Nat → List Piece → List Piece
  | 0, _ => []
  | _ + 1, [] => []
  | n + 1, .char c :: rest => .char c :: upTo n rest
  | n + 1, .directive spec :: rest => .directive spec :: upTo (n + 1) rest

/-- Pieces as they come from a format: only the last directive can be without a conversion. -/
def Readable : List Piece → Prop
  | [] => True
  | .char _ :: rest => Readable rest
  | .directive spec :: rest =>
    (∀ c ∈ spec, c ∈ modifiers) ∧ rest = [] ∨
      ∃ mods c, (∀ d ∈ mods, d ∈ modifiers) ∧ c ∉ modifiers ∧ Piece.ending mods c = .directive spec ∧ Readable rest

variable {pieces other : List Piece} {reading : Option (List U8)} {mods text rest : List U8} {n : Nat}

@[simp] theorem spell_nil : spell [] = [] := rfl

@[simp] theorem spell_cons (p : Piece) (pieces : List Piece) : spell (p :: pieces) = p.spell ++ spell pieces := rfl

theorem spell_append : spell (pieces ++ other) = spell pieces ++ spell other := List.flatMap_append

/-! ### Reading and spelling -/

theorem percent_not_modifier : percent ∉ modifiers := by decide

theorem spell_ending (mods : List U8) (c : U8) : (Piece.ending mods c).spell = percent :: (mods ++ [c]) := by
  unfold Piece.ending
  split
  · rename_i escaped
    obtain ⟨rfl, rfl⟩ := escaped
    rfl
  · rfl

def spelled : Option (List U8) → List U8
  | none => []
  | some mods => percent :: mods

theorem spell_readFrom (reading : Option (List U8)) (text : List U8) :
    spell (readFrom reading text) = spelled reading ++ text := by
  fun_induction readFrom reading text with
  | case1 => rfl
  | case2 mods => simp [Piece.spell, spelled]
  | case3 rest ih =>
    rw [ih]
    rfl
  | case4 c rest plain ih =>
    rw [spell_cons, ih, Piece.spell, if_neg plain]
    rfl
  | case5 mods c rest modifier ih =>
    rw [ih]
    simp [spelled]
  | case6 mods c rest conversion ih =>
    rw [spell_cons, ih, spell_ending]
    simp [spelled]

theorem readFrom_modifiers (known : ∀ c ∈ mods, c ∈ modifiers) (before rest : List U8) :
    readFrom (some before) (mods ++ rest) = readFrom (some (before ++ mods)) rest := by
  induction mods generalizing before with
  | nil => rw [List.append_nil, List.nil_append]
  | cons c mods ih =>
    rw [List.cons_append, readFrom, if_pos (known c List.mem_cons_self),
      ih (fun d member => known d (List.mem_cons_of_mem _ member)), List.append_assoc]
    rfl

theorem readFrom_ending (known : ∀ d ∈ mods, d ∈ modifiers) {c : U8} (conversion : c ∉ modifiers) (rest : List U8) :
    readFrom none ((Piece.ending mods c).spell ++ rest) = .ending mods c :: readFrom none rest := by
  rw [spell_ending, List.cons_append, readFrom, if_pos rfl, List.append_assoc, readFrom_modifiers known, List.nil_append,
    List.singleton_append, readFrom, if_neg conversion]

theorem read_spell (readable : Readable pieces) : readFrom none (spell pieces) = pieces := by
  induction pieces with
  | nil => rfl
  | cons p pieces ih =>
    rw [spell_cons]
    cases p with
    | char c =>
      by_cases escape : c = percent
      · subst escape
        have none_ : ∀ d ∈ ([] : List U8), d ∈ modifiers := fun _ => nofun
        exact (readFrom_ending none_ percent_not_modifier _).trans (congrArg _ (ih readable))
      · rw [Piece.spell, if_neg escape, List.singleton_append, readFrom, if_neg escape, ih readable]
    | directive spec =>
      rcases readable with ⟨known, rfl⟩ | ⟨mods, c, known, conversion, same, readable⟩
      · rw [spell_nil, Piece.spell, List.cons_append, readFrom, if_pos rfl, readFrom_modifiers known]
        rfl
      · rw [← same, readFrom_ending known conversion, ih readable]

theorem readable_ending (known : ∀ d ∈ mods, d ∈ modifiers) {c : U8} (conversion : c ∉ modifiers) :
    Readable (.ending mods c :: pieces) ↔ Readable pieces := by
  cases same : Piece.ending mods c with
  | char => exact Iff.rfl
  | directive spec =>
    constructor
    · rintro (⟨all, _⟩ | ⟨_, _, _, _, _, readable⟩)
      · unfold Piece.ending at same
        split at same
        · exact absurd same nofun
        · obtain rfl := Piece.directive.inj same
          exact absurd (all c (List.mem_append_right _ (List.mem_singleton.mpr rfl))) conversion
      · exact readable
    · intro readable
      exact Or.inr ⟨mods, c, known, conversion, same, readable⟩

theorem readable_unfinished (known : ∀ c ∈ mods, c ∈ modifiers) :
    Readable (.directive mods :: pieces) ↔ pieces = [] := by
  constructor
  · rintro (⟨_, last⟩ | ⟨before, c, _, conversion, same, _⟩)
    · exact last
    · unfold Piece.ending at same
      split at same
      · exact absurd same nofun
      · obtain rfl := Piece.directive.inj same
        exact absurd (known c (List.mem_append_right _ (List.mem_singleton.mpr rfl))) conversion
  · intro last
    exact Or.inl ⟨known, last⟩

def Begun (reading : Option (List U8)) : Prop := ∀ mods, reading = some mods → ∀ c ∈ mods, c ∈ modifiers

theorem begun_none : Begun none := nofun

theorem begun_empty : Begun (some []) := by
  rintro mods same c member
  obtain rfl := Option.some.inj same
  exact absurd member List.not_mem_nil

theorem Begun.more (begun : Begun (some mods)) {c : U8} (modifier : c ∈ modifiers) : Begun (some (mods ++ [c])) := by
  rintro _ same d member
  obtain rfl := Option.some.inj same
  rcases List.mem_append.mp member with earlier | last
  · exact begun mods rfl d earlier
  · rw [List.mem_singleton.mp last]
    exact modifier

theorem readable_readFrom (begun : Begun reading) (text : List U8) : Readable (readFrom reading text) := by
  fun_induction readFrom reading text with
  | case1 => trivial
  | case2 mods => exact Or.inl ⟨begun mods rfl, rfl⟩
  | case3 rest ih => exact ih begun_empty
  | case4 c rest plain ih => exact ih begun_none
  | case5 mods c rest modifier ih => exact ih (begun.more modifier)
  | case6 mods c rest conversion ih => exact (readable_ending (begun mods rfl) conversion).mpr (ih begun_none)

/-! ### Texts without a percent sign -/

section Literal

variable {t : List U8}

@[simp] theorem literal_cons (c : U8) (t : List U8) : literal (c :: t) = .char c :: literal t := rfl

theorem readable_literal_append (t : List U8) : Readable (literal t ++ pieces) ↔ Readable pieces := by
  induction t with
  | nil => exact Iff.rfl
  | cons c t ih => exact ih

theorem readable_literal (t : List U8) : Readable (literal t) := by
  rw [← List.append_nil (literal t)]
  exact (readable_literal_append t).mpr trivial

theorem readFrom_literal (plain : percent ∉ t) : readFrom none t = literal t := by
  induction t with
  | nil => rfl
  | cons c t ih =>
    obtain ⟨here, later⟩ := not_or.mp (mt List.mem_cons.mpr plain)
    rw [readFrom, if_neg (Ne.symm here), ih later]
    rfl

theorem spell_literal (plain : percent ∉ t) : spell (literal t) = t := by
  rw [← readFrom_literal plain, spell_readFrom]
  rfl

theorem length_spell_literal (t : List U8) : (spell (literal t)).length = t.length + t.count percent := by
  induction t with
  | nil => rfl
  | cons c t ih =>
    rw [literal_cons, spell_cons, List.length_append, ih, List.length_cons, List.count_cons, Piece.spell]
    by_cases escape : c = percent
    · rw [if_pos escape, escape, if_pos (beq_self_eq_true percent)]
      show 2 + _ = _
      omega
    · rw [if_neg escape, if_neg (by simpa using escape)]
      show 1 + _ = _
      omega

end Literal

/-! ### Which formats print the same -/

theorem spell_pos (p : Piece) : 0 < p.spell.length := by
  cases p with
  | char c =>
    rw [Piece.spell]
    split
    · exact Nat.two_pos
    · exact Nat.one_pos
  | directive spec => exact Nat.succ_pos _

@[simp] theorem upTo_zero (pieces : List Piece) : upTo 0 pieces = [] := by rw [upTo]

@[simp] theorem upTo_nil (n : Nat) : upTo n [] = [] := by cases n <;> rfl

theorem upTo_of_shorter (shorter : (spell (upTo n pieces)).length < n) : upTo n pieces = pieces := by
  induction pieces generalizing n with
  | nil => exact upTo_nil n
  | cons p pieces ih =>
    cases n with
    | zero => exact absurd shorter (Nat.not_lt_zero _)
    | succ n =>
      cases p with
      | char c =>
        have := spell_pos (.char c)
        rw [upTo, spell_cons, List.length_append] at shorter
        rw [upTo, ih (by omega)]
      | directive spec =>
        rw [upTo, spell_cons, List.length_append] at shorter
        rw [upTo, ih (by omega)]

/-- A format that is cut off at the `n`th character, and is not longer than `n`, has neither directives nor escapes. -/
theorem plain_of_upTo (short : (spell (upTo n pieces)).length ≤ n) :
    upTo n pieces = pieces ∨ percent ∉ spell (upTo n pieces) := by
  rcases Nat.lt_or_eq_of_le short with shorter | exactly
  · exact Or.inl (upTo_of_shorter shorter)
  induction pieces generalizing n with
  | nil => exact Or.inl (upTo_nil n)
  | cons p pieces ih =>
    cases n with
    | zero => exact Or.inr List.not_mem_nil
    | succ n =>
      cases p with
      | char c =>
        rw [upTo, spell_cons, List.length_append] at exactly
        rw [upTo, spell_cons]
        by_cases escape : c = percent
        · have two : (Piece.char c).spell.length = 2 := by
            rw [Piece.spell, if_pos escape]
            rfl
          have whole : upTo n pieces = pieces := upTo_of_shorter (by omega)
          exact Or.inl (by rw [whole])
        · have one : (Piece.char c).spell = [c] := if_neg escape
          rw [one, List.length_singleton] at exactly
          rcases ih (n := n) (by omega) (by omega) with whole | plain
          · exact Or.inl (by rw [whole])
          · refine Or.inr ?_
            rw [one, List.singleton_append, List.mem_cons]
            exact not_or.mpr ⟨Ne.symm escape, plain⟩
      | directive spec =>
        have := spell_pos (.directive spec)
        rw [upTo, spell_cons, List.length_append] at exactly
        have whole : upTo (n + 1) pieces = pieces := upTo_of_shorter (by omega)
        exact Or.inl (by rw [upTo, whole])

theorem upTo_of_short (short : (spell pieces).length ≤ n) : upTo n pieces = pieces := by
  induction pieces generalizing n with
  | nil => exact upTo_nil n
  | cons p pieces ih =>
    have := spell_pos p
    rw [spell_cons, List.length_append] at short
    obtain ⟨m, rfl⟩ : ∃ m, n = m + 1 := ⟨n - 1, by omega⟩
    cases p with
    | char c => rw [upTo, ih (by omega)]
    | directive spec => rw [upTo, ih (by omega)]

theorem upTo_literal_append (t : List U8) (pieces : List Piece) :
    upTo n (literal t ++ pieces) = literal (t.take n) ++ upTo (n - t.length) pieces := by
  induction t generalizing n with
  | nil => rw [List.take_nil, List.length_nil, Nat.sub_zero]; rfl
  | cons c t ih =>
    cases n with
    | zero => cases pieces <;> rw [Nat.zero_sub] <;> rfl
    | succ n => rw [literal_cons, List.cons_append, upTo, ih, List.length_cons, Nat.add_sub_add_right]; rfl

section Render

variable {ι : Type*}

theorem render_upTo (conv : List U8 → List ι → List U8 × List ι) (pieces : List Piece) (args : List ι) (n : Nat) :
    (render conv (upTo n pieces) args).take n = (render conv pieces args).take n := by
  induction pieces generalizing n args with
  | nil => rw [upTo_nil]
  | cons p pieces ih =>
    cases n with
    | zero => rfl
    | succ n =>
      cases p with
      | char c => rw [upTo, render, render, List.take_succ_cons, List.take_succ_cons, ih]
      | directive spec =>
        rw [upTo, render, render, List.take_append, List.take_append]
        congr 1
        have more := congrArg (List.take (n + 1 - (conv spec args).1.length)) (ih (conv spec args).2 (n + 1))
        rwa [List.take_take, List.take_take, min_eq_left (Nat.sub_le _ _)] at more

/-- Directives that print nothing for the argument `blank`, and a mark of their own for any other. -/
def showing [DecidableEq ι] (blank : ι) (mark : List U8 → U8) (spec : List U8) : List ι → List U8 × List ι
  | [] => ([], [])
  | a :: rest => (if a = blank then [] else [mark spec], rest)

variable [DecidableEq ι] {blank a : ι} {mark : List U8 → U8} {spec : List U8} {args : List ι}

theorem render_blank : render (showing blank mark) (.directive spec :: pieces) (blank :: args) =
    render (showing blank mark) pieces args := by
  rw [render, showing, if_pos rfl, List.nil_append]

theorem render_mark (marked : a ≠ blank) :
    render (showing blank mark) (.directive spec :: pieces) [a] =
      mark spec :: render (showing blank mark) pieces [] := by
  rw [render, showing, if_neg marked, List.singleton_append]

/-- Formats that print the same, whatever the directives print, are the same up to the last character that is kept. -/
theorem upTo_of_render (marked : a ≠ blank)
    (same : ∀ mark args, (render (showing blank mark) pieces args).take n =
      (render (showing blank mark) other args).take n) : upTo n pieces = upTo n other := by
  induction pieces generalizing n other with
  | nil =>
    rcases n with _ | n
    · rw [upTo_zero, upTo_zero]
    rcases other with _ | ⟨_ | spec, other⟩
    · rfl
    · exact absurd (same (fun _ => 0) []) nofun
    · have printed := same (fun _ => 0) [a]
      rw [render_mark marked] at printed
      exact absurd printed nofun
  | cons p pieces ih =>
    rcases n with _ | n
    · rw [upTo_zero, upTo_zero]
    cases p with
    | char c =>
      rcases other with _ | ⟨d | spec, other⟩
      · exact absurd (same (fun _ => 0) []) nofun
      · have each : ∀ mark args, c = d ∧ (render (showing blank mark) pieces args).take n =
            (render (showing blank mark) other args).take n := fun mark args => List.cons.inj (same mark args)
        obtain ⟨rfl, _⟩ := each (fun _ => 0) []
        rw [upTo, upTo, ih fun mark args => (each mark args).2]
      · have printed := same (fun _ => c + 1) [a]
        rw [render_mark marked] at printed
        exact absurd (List.cons.inj printed).1 (by bv_omega)
    | directive spec =>
      rcases other with _ | ⟨d | spec', other⟩
      · have printed := same (fun _ => 0) [a]
        rw [render_mark marked] at printed
        exact absurd printed nofun
      · have printed := same (fun _ => d + 1) [a]
        rw [render_mark marked] at printed
        exact absurd (List.cons.inj printed).1 (by bv_omega)
      · obtain rfl : spec' = spec := by
          by_contra different
          have printed := same (fun s => if s = spec then 0 else 1) [a]
          rw [render_mark marked, render_mark marked, if_pos rfl, if_neg different] at printed
          exact absurd (List.cons.inj printed).1 (by decide)
        have rest : ∀ mark args, (render (showing blank mark) pieces args).take (n + 1) =
            (render (showing blank mark) other args).take (n + 1) := by
          intro mark args
          have printed := same mark (blank :: args)
          rwa [render_blank, render_blank] at printed
        rw [upTo, upTo, ih rest]

/-- Two formats print the same, whatever the directives print, exactly when they are the same up to the last character
that is kept. -/
theorem render_take_iff (marked : a ≠ blank) : (∀ (conv : List U8 → List ι → List U8 × List ι) (args : List ι),
    (render conv pieces args).take n = (render conv other args).take n) ↔ upTo n pieces = upTo n other := by
  constructor
  · intro same
    exact upTo_of_render marked fun mark args => same (showing blank mark) args
  · intro same conv args
    rw [← render_upTo, same, render_upTo]

end Render

end TwinpassGateway.Foundation
