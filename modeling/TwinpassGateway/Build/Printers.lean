import TwinpassGateway.Build.ConfigStrings
import TwinpassGateway.Build.Validity

/-!
What `print_option` writes for one option: to the makefile, to the C header and to the C file.
-/

namespace TwinpassGateway.Build

variable {o : ConfigOption}

/-! ### Lines -/

inductive MkLine where
  | comment (text : String)
  | override (token : String)
  | export (token : String)
  /-- `token=value`, with `export` in front or not. -/
  | assign (exported : Bool) (token value : String)
  deriving DecidableEq

def MkLine.text : MkLine → String
  | .comment text => s!"# {text}\n"
  | .override token => s!"override {token}=\n"
  | .export token => s!"export {token}\n"
  | .assign exported token value => (if exported then "export " else "") ++ s!"{token}={value}\n"

inductive HLine where
  | comment (text : String)
  | blank
  | define (name text : String)
  /-- `extern type name;`, where the blank belongs to the type. -/
  | declare (type name : String)
  deriving DecidableEq

def HLine.text : HLine → String
  | .comment text => s!"/* {text} */\n"
  | .blank => "\n"
  | .define name text => s!"#define {name} {text}\n"
  | .declare type name => s!"extern {type}{name};\n"

structure CLine where
  type : String
  name : String
  value : String
  deriving DecidableEq

def CLine.text (l : CLine) : String := s!"{l.type}{l.name} = {l.value};\n"

/-! ### The makefile -/

def printMkOption (o : ConfigOption) : List MkLine :=
  let isYM := o.value = some "y" ∨ o.value = some "m"
  if ¬isYM ∧ o.has (optStr ||| optCStr ||| optNumber) = false then
    -- do not print CONFIG_xxx=n, unless it was set by command line
    if o.setPrio = .cmdLine then
      [.comment "Disabled by command line", .override o.token] ++ if o.has optExport then [.export o.token] else []
    else []
  else
    match o.value with
    | none => []
    | some v =>
      let reference := if o.setPrio = .cmdLine then "Set by command line:"
        else match o.file with
          | some file => s!"{file}:{o.line}"
          | none => "config_opt.c (default):"
      [.comment reference, .assign (o.has optExport) o.token v]

/-! ### The header -/

def printRef (avoidPrint : Bool) (o : ConfigOption) : List HLine :=
  if avoidPrint then []
  else if o.setPrio = .cmdLine then [.comment "Set by command line"]
  else if o.line ≠ 0 then
    let file := o.file.getD "(null)"
    [.comment s!"{file}:{o.line}"]
  else [.blank]

def featureExpansion : String := "_FEATURE"

def moduleExpansion : String := "_MODULE"

def ConfigOption.quote (o : ConfigOption) : String := if o.has optCStr then "\"" else ""

/-- `is_y_m` of `print_h_option`. -/
def ConfigOption.isYM (o : ConfigOption) : Bool :=
  o.has (optModule ||| optModuleExpand) || !o.has (optNumber ||| optStr ||| optCStr)

def ConfigOption.hcText (o : ConfigOption) : String :=
  if o.has (optStr ||| optCStr) then
    match o.value with
    | some v => o.quote ++ v ++ o.quote
    | none => "NULL"
  else if o.has optNumber then o.value.getD "0"
  else if o.isYM then if o.value = some "y" ∨ o.value = some "m" then "1" else "0"
  else if o.value.isSome then "1" else "0"

def printHC (o : ConfigOption) : List HLine × List CLine :=
  let type := if o.has (optStr ||| optCStr) then "char *" else "int "
  (printRef false o ++ [.define ("c" ++ o.token) o.hcText, .declare type ("vc" ++ o.token)],
    [⟨type, "vc" ++ o.token, o.hcText⟩])

/-- The text of `#define CONFIG_XXX`, if an option that is not module expanded has one. -/
def ConfigOption.shown (o : ConfigOption) : Option String :=
  match o.value with
  | none => none
  | some v => if o.isYM then if v = "y" ∨ v = "m" then some "1" else none else some v

def printHOption (o : ConfigOption) : List HLine × List CLine :=
  let avoidPrintRef := o.has optHC
  let (h, c) := if o.has optHC then printHC o else ([], [])
  if o.has optModuleExpand = false then
    match o.shown with
    | none => (h, c)
    | some v => (h ++ printRef avoidPrintRef o ++ [.define o.token (o.quote ++ v ++ o.quote)], c)
  else
    let feature := if o.value.isSome ∧ o.value ≠ some "n" then "1" else "0"
    let h := h ++ printRef avoidPrintRef o ++
      [.define ("c" ++ o.token ++ featureExpansion) feature, .declare "int " ("vc" ++ o.token ++ featureExpansion)]
    let c := c ++ [⟨"int ", "vc" ++ o.token ++ featureExpansion, feature⟩]
    match o.value with
    | none => (h, c)
    | some v =>
      if v = "n" then (h, c)
      else
        -- `*v == 'm'`
        let expansion := if v.toList.head? = some 'm' then moduleExpansion else ""
        (h ++ [.define (o.token ++ featureExpansion) "1", .define (o.token ++ expansion) "1"], c)

/-! ### `print_option` -/

structure Printed where
  mkFile : List MkLine := []
  hFile : List HLine := []
  cFile : List CLine := []
  configStrings : Option String := none

def ConfigOption.printsAll (o : ConfigOption) : Bool := !o.has (optH ||| optMK)

def ConfigOption.printsH (o : ConfigOption) : Bool := o.has optH || o.has optHC || o.printsAll

def ConfigOption.printsMk (o : ConfigOption) : Bool := o.has optMK || o.printsAll

/-- The files after the option, or the message that ends the program. -/
def printOption (out : Printed) (o : ConfigOption) : Except String Printed :=
  match checkOptionValidity o with
  | some message => .error message
  | none =>
    let (h, c) := if o.printsH then printHOption o else ([], [])
    let configStrings := match o.value with
      | none => out.configStrings
      | some v => if v ≠ "" ∧ v ≠ "0" then some (addConfigString out.configStrings o.token (some v)) else out.configStrings
    .ok {
      mkFile := out.mkFile ++ if o.printsMk then printMkOption o else []
      hFile := out.hFile ++ h
      cFile := out.cFile ++ c
      configStrings }

/-! ### Agreement -/

/-- The makefile assigns `y` or `m`. -/
def MkEnables (o : ConfigOption) (lines : List MkLine) : Prop :=
  ∃ exported, .assign exported o.token "y" ∈ lines ∨ .assign exported o.token "m" ∈ lines

/-- The header defines `CONFIG_X`, `CONFIG_X_FEATURE` or `CONFIG_X_MODULE` as 1. -/
def HEnables (o : ConfigOption) (lines : List HLine) : Prop :=
  .define o.token "1" ∈ lines ∨ .define (o.token ++ featureExpansion) "1" ∈ lines ∨
    .define (o.token ++ moduleExpansion) "1" ∈ lines

/-- Both files enable the option or both do not, and the header has a module where the makefile has one. -/
structure Agree (o : ConfigOption) : Prop where
  enabled : MkEnables o (printMkOption o) ↔ HEnables o (printHOption o).1
  module : o.has optModuleExpand = true →
    (.define (o.token ++ moduleExpansion) "1" ∈ (printHOption o).1 ↔
      ∃ exported, .assign exported o.token "m" ∈ printMkOption o)

/-! ### Type flags -/

theorem has_or (o : ConfigOption) (a b : Nat) : o.has (a ||| b) = (o.has a || o.has b) := by
  unfold ConfigOption.has
  rw [Nat.and_or_distrib_left, ← Bool.decide_or, decide_eq_decide, ne_eq, Nat.or_eq_zero_iff]
  tauto

theorem isYM_plain (plain : o.has (optStr ||| optCStr ||| optNumber) = false) : o.isYM = true := by
  simp only [has_or, Bool.or_eq_false_iff] at plain
  simp [ConfigOption.isYM, has_or, plain]

theorem quote_plain (plain : o.has (optStr ||| optCStr ||| optNumber) = false) : o.quote = "" := by
  simp only [has_or, Bool.or_eq_false_iff] at plain
  simp [ConfigOption.quote, plain]

/-- The values with which an option that is no string and no number passes the check. -/
theorem valid_value (valid : checkOptionValidity o = none) (plain : o.has (optStr ||| optCStr ||| optNumber) = false) :
    o.value = none ∨ o.value = some "" ∨ o.value = some "n" ∨ o.value = some "y" ∨ o.value = some "m" := by
  simp only [has_or, Bool.or_eq_false_iff] at plain
  obtain ⟨⟨str, cStr⟩, number⟩ := plain
  unfold checkOptionValidity at valid
  cases value : o.value with
  | none => exact Or.inl rfl
  | some v =>
    simp only [value, has_or, str, cStr, number, Bool.false_or, Bool.false_eq_true, false_and, if_false] at valid
    simp only [Option.some.injEq]
    split at valid
    · cases valid
    · rename_i yes
      split at valid
      · cases valid
      · rename_i module
        cases kind : o.has optModule || o.has optModuleExpand with
        | false =>
          rw [kind] at yes
          tauto
        | true =>
          rw [kind] at module
          tauto

/-! ### The makefile -/

theorem mem_mk (plain : o.has (optStr ||| optCStr ||| optNumber) = false) (v : String) :
    (∃ exported, .assign exported o.token v ∈ printMkOption o) ↔ o.value = some v ∧ (v = "y" ∨ v = "m") := by
  unfold printMkOption
  simp only [plain, and_true]
  split
  · rename_i off
    constructor
    · rintro ⟨exported, member⟩
      split at member
      · split at member <;> simp at member
      · cases member
    · rintro ⟨value, rfl | rfl⟩
      · exact absurd (Or.inl value) off
      · exact absurd (Or.inr value) off
  · rename_i on
    rw [not_not] at on
    constructor
    · rintro ⟨exported, member⟩
      rcases on with value | value
      · rw [value] at member
        simp only [List.mem_cons, reduceCtorEq, MkLine.assign.injEq, List.not_mem_nil, or_false, false_or] at member
        exact ⟨by rw [value, member.2.2], Or.inl member.2.2⟩
      · rw [value] at member
        simp only [List.mem_cons, reduceCtorEq, MkLine.assign.injEq, List.not_mem_nil, or_false, false_or] at member
        exact ⟨by rw [value, member.2.2], Or.inr member.2.2⟩
    · rintro ⟨value, _⟩
      rw [value]
      exact ⟨o.has optExport, by simp⟩

theorem mkEnables_iff (plain : o.has (optStr ||| optCStr ||| optNumber) = false) :
    MkEnables o (printMkOption o) ↔ o.value = some "y" ∨ o.value = some "m" := by
  unfold MkEnables
  rw [exists_or, mem_mk plain, mem_mk plain]
  simp

/-! ### The header -/

theorem define_not_ref (avoidPrint : Bool) (o : ConfigOption) (name text : String) :
    HLine.define name text ∉ printRef avoidPrint o := by
  unfold printRef
  split
  · exact List.not_mem_nil
  · split
    · simp
    · split <;> simp

theorem define_not_hc {name : String} (other : name ≠ "c" ++ o.token) (text : String) :
    HLine.define name text ∉ (if o.has optHC = true then printHC o else ([], [])).1 := by
  split
  · simp [printHC, define_not_ref, other]
  · exact List.not_mem_nil

theorem mem_h_flat (flat : o.has optModuleExpand = false) {name : String} (other : name ≠ "c" ++ o.token)
    (text : String) : .define name text ∈ (printHOption o).1 ↔
      name = o.token ∧ ∃ v, o.shown = some v ∧ text = o.quote ++ v ++ o.quote := by
  unfold printHOption
  simp only [if_pos flat]
  cases shown : o.shown with
  | none => simp [define_not_hc other]
  | some v => simp [define_not_hc other, define_not_ref]

theorem mem_h_expanded (expand : o.has optModuleExpand = true) {name : String} (other : name ≠ "c" ++ o.token)
    (other' : name ≠ "c" ++ o.token ++ featureExpansion) (text : String) :
    .define name text ∈ (printHOption o).1 ↔ ∃ v, o.value = some v ∧ v ≠ "n" ∧ text = "1" ∧
      (name = o.token ++ featureExpansion ∨
        name = o.token ++ if v.toList.head? = some 'm' then moduleExpansion else "") := by
  unfold printHOption
  simp only [expand, Bool.true_eq_false, if_false]
  cases value : o.value with
  | none => simp [define_not_hc other, define_not_ref, other']
  | some v =>
    by_cases no : v = "n"
    · simp [define_not_hc other, define_not_ref, other', no]
    · simp [define_not_hc other, define_not_ref, other', no]
      tauto

theorem ne_of_length {a b : String} (other : a.length ≠ b.length) : a ≠ b := fun same => other (congrArg _ same)

/-- The names that the header can enable are not those of the `cCONFIG_XXX` lines. -/
theorem enabling_ne (o : ConfigOption) {expansion : String}
    (known : expansion = "" ∨ expansion = featureExpansion ∨ expansion = moduleExpansion) :
    o.token ++ expansion ≠ "c" ++ o.token ∧ o.token ++ expansion ≠ "c" ++ o.token ++ featureExpansion := by
  have one : "c".length = 1 := by decide
  have feature : featureExpansion.length = 8 := by decide
  have module : moduleExpansion.length = 7 := by decide
  constructor
  all_goals
    apply ne_of_length
    simp only [String.length_append]
    rcases known with rfl | rfl | rfl
    · rw [String.length_empty]
      omega
    · omega
    · omega

theorem expansion_ne (o : ConfigOption) :
    o.token ++ featureExpansion ≠ o.token ∧ o.token ++ moduleExpansion ≠ o.token ∧
      o.token ++ moduleExpansion ≠ o.token ++ featureExpansion := by
  have feature : featureExpansion.length = 8 := by decide
  have module : moduleExpansion.length = 7 := by decide
  refine ⟨?_, ?_, ?_⟩
  all_goals
    apply ne_of_length
    simp only [String.length_append]
    omega

theorem hEnables_flat (flat : o.has optModuleExpand = false) (plain : o.has (optStr ||| optCStr ||| optNumber) = false) :
    HEnables o (printHOption o).1 ↔ o.value = some "y" ∨ o.value = some "m" := by
  obtain ⟨own, _⟩ := enabling_ne o (Or.inl rfl)
  obtain ⟨feature, _⟩ := enabling_ne o (Or.inr (Or.inl rfl))
  obtain ⟨module, _⟩ := enabling_ne o (Or.inr (Or.inr rfl))
  obtain ⟨apart, apart', _⟩ := expansion_ne o
  rw [String.append_empty] at own
  unfold HEnables
  rw [mem_h_flat flat own, mem_h_flat flat feature, mem_h_flat flat module, quote_plain plain]
  simp only [apart, apart', false_and, or_false, true_and]
  unfold ConfigOption.shown
  rw [isYM_plain plain]
  cases value : o.value with
  | none => simp
  | some v =>
    by_cases on : v = "y" ∨ v = "m"
    · simp [on]
    · simp [on]

theorem hEnables_expanded (expand : o.has optModuleExpand = true) :
    HEnables o (printHOption o).1 ↔ ∃ v, o.value = some v ∧ v ≠ "n" := by
  obtain ⟨own, own'⟩ := enabling_ne o (Or.inl rfl)
  obtain ⟨feature, feature'⟩ := enabling_ne o (Or.inr (Or.inl rfl))
  obtain ⟨module, module'⟩ := enabling_ne o (Or.inr (Or.inr rfl))
  rw [String.append_empty] at own own'
  unfold HEnables
  rw [mem_h_expanded expand own own', mem_h_expanded expand feature feature', mem_h_expanded expand module module']
  constructor
  · rintro (⟨v, value, on, _⟩ | ⟨v, value, on, _⟩ | ⟨v, value, on, _⟩)
    · exact ⟨v, value, on⟩
    · exact ⟨v, value, on⟩
    · exact ⟨v, value, on⟩
  · rintro ⟨v, value, on⟩
    exact Or.inr (Or.inl ⟨v, value, on, rfl, Or.inl rfl⟩)

theorem module_expanded (expand : o.has optModuleExpand = true) :
    .define (o.token ++ moduleExpansion) "1" ∈ (printHOption o).1 ↔
      ∃ v, o.value = some v ∧ v.toList.head? = some 'm' := by
  obtain ⟨module, module'⟩ := enabling_ne o (Or.inr (Or.inr rfl))
  obtain ⟨_, apart, apart'⟩ := expansion_ne o
  rw [mem_h_expanded expand module module']
  constructor
  · rintro ⟨v, value, _, _, same | same⟩
    · exact absurd same apart'
    · by_cases first : v.toList.head? = some 'm'
      · exact ⟨v, value, first⟩
      · rw [if_neg first, String.append_empty] at same
        exact absurd same apart
  · rintro ⟨v, value, first⟩
    refine ⟨v, value, ?_, rfl, Or.inr (by rw [if_pos first])⟩
    rintro rfl
    exact absurd first (by decide)

/-- The two files agree on an option that passes the check, unless it is module expanded and its value is empty. -/
theorem printers_agree_iff (o : ConfigOption) (valid : checkOptionValidity o = none)
    (plain : o.has (optStr ||| optCStr ||| optNumber) = false) :
    Agree o ↔ ¬(o.has optModuleExpand = true ∧ o.value = some "") := by
  cases expand : o.has optModuleExpand with
  | false =>
    refine ⟨fun _ both => absurd both.1 Bool.false_ne_true, fun _ => ⟨?_, fun expanded => ?_⟩⟩
    · rw [mkEnables_iff plain, hEnables_flat expand plain]
    · rw [expand] at expanded
      cases expanded
  | true =>
    have reduced : Agree o ↔ ((o.value = some "y" ∨ o.value = some "m") ↔ ∃ v, o.value = some v ∧ v ≠ "n") ∧
        ((∃ v, o.value = some v ∧ v.toList.head? = some 'm') ↔ o.value = some "m") := by
      rw [← mkEnables_iff plain, ← hEnables_expanded expand, ← module_expanded expand]
      have single : o.value = some "m" ↔ ∃ exported, .assign exported o.token "m" ∈ printMkOption o := by
        rw [mem_mk plain]
        simp
      rw [single]
      exact ⟨fun agree => ⟨agree.enabled, agree.module expand⟩, fun both => ⟨both.1, fun _ => both.2⟩⟩
    rw [reduced]
    rcases valid_value valid plain with value | value | value | value | value
    all_goals
      rw [value]
      simp

def emptyModule : ConfigOption :=
  { token := "CONFIG_X", value := some "", type := optModuleExpand, file := none, line := 0, setPrio := .init }

theorem printers_agree_iff_module :
    Agree { emptyModule with value := some "m" } ↔
      ¬(ConfigOption.has { emptyModule with value := some "m" } optModuleExpand = true ∧ some "m" = some "") :=
  printers_agree_iff { emptyModule with value := some "m" } (by decide) (by decide)

/-- An empty value turns the option off in the makefile and on in the header. -/
theorem empty_module_disagrees : ¬ ∀ o : ConfigOption, checkOptionValidity o = none → o.printsH = true →
    o.printsMk = true → o.has (optStr ||| optCStr ||| optNumber) = false → Agree o := by
  intro agrees
  have agree := agrees emptyModule (by decide) (by decide) (by decide) (by decide)
  have on : HEnables emptyModule (printHOption emptyModule).1 := Or.inl (by decide)
  obtain ⟨exported, off⟩ := agree.enabled.mpr on
  cases exported with
  | false => exact absurd off (by decide)
  | true => exact absurd off (by decide)

end TwinpassGateway.Build
