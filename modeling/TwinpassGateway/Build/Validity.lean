import Mathlib.Data.List.TakeWhile
import Mathlib.Data.Nat.Digits.Defs
import TwinpassGateway.Build.ConfigOptions

/-!
The check of the option values, and the numbers that pass it.
-/

namespace TwinpassGateway.Build

variable {val : String} {cs : List Char} {base : Nat}

/-! ### Numbers -/

def isxdigit (c : Char) : Bool := (digitValue 16 c).isSome

/-- The scan of `str_is_number_value`: it gets past the start and up to the end. -/
def onlyXdigits (cs : List Char) : Bool := !(cs.takeWhile isxdigit).isEmpty && (cs.dropWhile isxdigit).isEmpty

def strIsNumberValue (val : String) : Bool :=
  match val.toList with
  | [] => true
  | '0' :: 'x' :: rest => onlyXdigits rest
  | cs => onlyXdigits cs

/-! ### `check_option_validity` -/

def ConfigOption.setting (o : ConfigOption) (v : String) : String :=
  if o.setPrio = .cmdLine then s!"{o.token}={v} (Set by command line)"
  else
    match o.file with
    | some file => s!"{o.token}={v} ({file}:{o.line})"
    | none => s!"{o.token}={v} (config_opt.c)"

def checkOptionValidity (o : ConfigOption) : Option String :=
  match o.value with
  | none => none
  | some v =>
    let isYM := o.has (optModule ||| optModuleExpand)
    -- default case: if we did not mark anything, then this is a y/n option
    let isY := !o.has (optNumber ||| optStr ||| optCStr ||| optModule ||| optModuleExpand)
    if o.has optNumber ∧ strIsNumberValue v = false then some (o.setting v ++ " must be numeric\n")
    else if isY ∧ ¬(v = "" ∨ v = "n" ∨ v = "y") then some (o.setting v ++ " must be 'y' or 'n'\n")
    else if isYM ∧ ¬(v = "" ∨ v = "n" ∨ v = "y" ∨ v = "m") then some (o.setting v ++ " must be 'y' 'm' or 'n'\n")
    else none

/-! ### What a number string denotes -/

-- The characters of the list are tried, not all that there are.
instance allDecidable (p : Char → Bool) (cs : List Char) : Decidable (∀ c ∈ cs, p c = true) :=
  List.decidableBAll (fun c => p c = true) cs

def numeral (base : Nat) (cs : List Char) : Option Nat :=
  if cs ≠ [] ∧ ∀ c ∈ cs, (digitValue base c).isSome = true then
    some (Nat.ofDigits base (cs.reverse.filterMap (digitValue base)))
  else none

/-- Decimal without a prefix, hexadecimal with `0x`, and 0 for the empty string. -/
def denoted (val : String) : Option Nat :=
  match val.toList with
  | [] => some 0
  | '0' :: 'x' :: rest => numeral 16 rest
  | cs => numeral 10 cs

/-- The string denotes a number, and `str_to_number` returns it if it fits in an `int`. -/
def ReadAsWritten (val : String) : Prop := ∃ n, denoted val = some n ∧ (n < 2 ^ 31 → strToNumber val = n)

theorem filterMap_length (digits : ∀ c ∈ cs, (digitValue base c).isSome = true) :
    (cs.filterMap (digitValue base)).length = cs.length := by
  induction cs with
  | nil => rfl
  | cons c rest ih =>
    obtain ⟨d, value⟩ := Option.isSome_iff_exists.mp (digits c List.mem_cons_self)
    rw [List.filterMap_cons_some value, List.length_cons, List.length_cons,
      ih fun c' member => digits c' (List.mem_cons_of_mem _ member)]

theorem scanDigits_all (digits : ∀ c ∈ cs, (digitValue base c).isSome = true) (acc : Nat) :
    scanDigits base acc cs =
      acc * base ^ cs.length + Nat.ofDigits base (cs.reverse.filterMap (digitValue base)) := by
  induction cs generalizing acc with
  | nil => simp [scanDigits]
  | cons c rest ih =>
    have later : ∀ c' ∈ rest, (digitValue base c').isSome = true := fun c' member =>
      digits c' (List.mem_cons_of_mem _ member)
    obtain ⟨d, value⟩ := Option.isSome_iff_exists.mp (digits c List.mem_cons_self)
    have width : (rest.reverse.filterMap (digitValue base)).length = rest.length := by
      rw [filterMap_length fun c' member => later c' (List.mem_reverse.mp member), List.length_reverse]
    have last : [c].filterMap (digitValue base) = [d] := List.filterMap_cons_some value
    rw [scanDigits, value]
    simp only
    rw [ih later, List.reverse_cons, List.filterMap_append, last, Nat.ofDigits_append, width, Nat.ofDigits_singleton,
      List.length_cons, pow_succ]
    ring

theorem scanDigits_numeral {n : Nat} (written : numeral base cs = some n) : scanDigits base 0 cs = n := by
  unfold numeral at written
  split at written
  · rename_i digits
    rw [scanDigits_all digits.2, Nat.zero_mul, Nat.zero_add]
    exact Option.some.inj written
  · cases written

theorem onlyXdigits_iff (cs : List Char) : onlyXdigits cs = true ↔ cs ≠ [] ∧ ∀ c ∈ cs, isxdigit c = true := by
  unfold onlyXdigits
  rw [Bool.and_eq_true, List.isEmpty_iff, List.dropWhile_eq_nil_iff]
  constructor
  · rintro ⟨started, all⟩
    refine ⟨?_, all⟩
    rintro rfl
    cases started
  · rintro ⟨nonempty, all⟩
    refine ⟨?_, all⟩
    rw [List.takeWhile_eq_self_iff.mpr all]
    cases cs with
    | nil => exact absurd rfl nonempty
    | cons c rest => rfl

theorem decimal_iff (c : Char) : (digitValue 10 c).isSome = true ↔ c.isDigit = true := by
  unfold digitValue
  by_cases digit : c.isDigit = true
  · have bounds : 48 ≤ c.toNat ∧ c.toNat ≤ 57 := by
      simpa [Char.isDigit, UInt32.le_iff_toNat_le] using digit
    simp only [digit, if_true, iff_true]
    rw [Option.filter_some, if_pos (by simp; omega)]
    rfl
  · rw [if_neg digit]
    simp only [digit]
    -- the value of a letter is ten or more
    split
    · rename_i lower
      have first : 97 ≤ c.toNat := by simpa [Char.le_def, UInt32.le_iff_toNat_le] using lower.1
      rw [Option.filter_some, if_neg (by simp; omega)]
      decide
    · split
      · rename_i upper
        have first : 65 ≤ c.toNat := by simpa [Char.le_def, UInt32.le_iff_toNat_le] using upper.1
        rw [Option.filter_some, if_neg (by simp; omega)]
        decide
      · decide

/-! ### The accepted strings -/

theorem strToNumber_hex {rest : List Char} (shape : val.toList = '0' :: 'x' :: rest) :
    strToNumber val = scanDigits 16 0 rest := by
  unfold strToNumber
  rw [shape]
  rfl

theorem strToNumber_decimal (digits : ∀ c ∈ val.toList, c.isDigit = true) :
    strToNumber val = scanDigits 10 0 val.toList := by
  unfold strToNumber
  split
  · rename_i rest shape
    rw [shape] at digits
    exact absurd (digits 'x' (by simp)) (by decide)
  · have kept : val.toList.dropWhile Char.isWhitespace = val.toList := by
      cases shape : val.toList with
      | nil => rfl
      | cons c rest =>
        have digit := digits c (by rw [shape]; exact List.mem_cons_self)
        have bounds : 48 ≤ c.toNat ∧ c.toNat ≤ 57 := by
          simpa [Char.isDigit, UInt32.le_iff_toNat_le] using digit
        apply List.dropWhile_cons_of_neg
        simp only [Char.isWhitespace, Bool.or_eq_true, decide_eq_true_eq, not_or]
        refine ⟨⟨⟨?_, ?_⟩, ?_⟩, ?_⟩
        all_goals
          rintro rfl
          exact absurd digit (by decide)
    rw [kept]
    split
    · rename_i rest shape
      rw [shape] at digits
      exact absurd (digits '-' List.mem_cons_self) (by decide)
    · rename_i rest shape
      rw [shape] at digits
      exact absurd (digits '+' List.mem_cons_self) (by decide)
    · rfl

/-- A hexadecimal number has its prefix, or there is no letter in it. -/
def PrefixedOrDecimal (val : String) : Prop :=
  (∃ rest, val.toList = '0' :: 'x' :: rest) ∨ ∀ c ∈ val.toList, c.isDigit = true

theorem accepted_read_iff (accepted : strIsNumberValue val = true) : ReadAsWritten val ↔ PrefixedOrDecimal val := by
  unfold strIsNumberValue at accepted
  split at accepted
  · rename_i shape
    have read : strToNumber val = 0 := by
      rw [strToNumber_decimal (by rw [shape]; simp), shape]
      rfl
    refine ⟨fun _ => Or.inr (by rw [shape]; simp), fun _ => ⟨0, ?_, fun _ => read⟩⟩
    unfold denoted
    rw [shape]
  · rename_i rest shape
    obtain ⟨nonempty, digits⟩ := (onlyXdigits_iff rest).mp accepted
    have written : denoted val = numeral 16 rest := by
      unfold denoted
      rw [shape]
      rfl
    refine ⟨fun _ => Or.inl ⟨rest, shape⟩, fun _ => ⟨_, written.trans (if_pos ⟨nonempty, digits⟩), fun _ => ?_⟩⟩
    rw [strToNumber_hex shape, scanDigits_numeral (if_pos ⟨nonempty, digits⟩)]
  · rename_i cs nonempty plain
    have written : denoted val = numeral 10 val.toList := by
      unfold denoted
      split
      · exact absurd ‹_› nonempty
      · exact absurd ‹_› (plain _)
      · rfl
    constructor
    · rintro ⟨n, number, _⟩
      rw [written] at number
      unfold numeral at number
      split at number
      · rename_i digits
        exact Or.inr fun c member => (decimal_iff c).mp (digits.2 c member)
      · cases number
    · rintro (⟨rest, shape⟩ | digits)
      · exact absurd shape (plain rest)
      · have decimal : ∀ c ∈ val.toList, (digitValue 10 c).isSome = true := fun c member =>
          (decimal_iff c).mpr (digits c member)
        refine ⟨_, written.trans (if_pos ⟨nonempty, decimal⟩), fun _ => ?_⟩
        rw [strToNumber_decimal digits, scanDigits_numeral (if_pos ⟨nonempty, decimal⟩)]

/-! ### Options -/

theorem valid_number {o : ConfigOption} (valid : checkOptionValidity o = none) (number : o.has optNumber = true)
    (set : o.value = some val) : strIsNumberValue val = true := by
  by_contra refused
  unfold checkOptionValidity at valid
  rw [set] at valid
  simp only [number, Bool.not_eq_true _ ▸ refused, and_self, if_true] at valid
  cases valid

/-- An accepted number is read as it is written exactly when a hexadecimal one has its prefix; this goes for the
values that pass the check of the options too. -/
theorem number_read_iff (val : String) :
    (strIsNumberValue val = true → (ReadAsWritten val ↔ PrefixedOrDecimal val)) ∧
    ∀ o : ConfigOption, checkOptionValidity o = none → o.has optNumber = true → o.value = some val →
      (ReadAsWritten val ↔ PrefixedOrDecimal val) :=
  ⟨accepted_read_iff, fun _ valid number set => accepted_read_iff (valid_number valid number set)⟩

theorem letters_cut : strToNumber "1a" = 1 ∧
    ¬ ∀ val : String, strIsNumberValue val = true → ReadAsWritten val := by
  refine ⟨by decide, fun numbers => ?_⟩
  obtain ⟨n, number, _⟩ := numbers "1a" (by decide)
  exact absurd number (by simp [denoted, numeral, digitValue])

end TwinpassGateway.Build
