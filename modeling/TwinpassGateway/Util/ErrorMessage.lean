import TwinpassGateway.Foundation.Printf
import TwinpassGateway.Util.ErrorFormat

/-!
The message of an error report (`rg_error.c`): the expanded format is a format again, which `vsnprintf` reads once more.
-/

namespace TwinpassGateway.Util

open Foundation

/-- A printf: what a directive prints for the arguments that are left, and the arguments that are left then. -/
abbrev Conversions := List U8 → List U32 → List U8 × List U32

/-- What `vsnprintf` writes into an array of this size in front of the final NUL. -/
def vsnprintf (conv : Conversions) (size : Nat) (format : List U8) (args : List U32) : List U8 :=
  (render conv (readFrom none format) args).take (size - 1)

/-- `msg` in `_rg_vperror`, where `strError` is NULL for `rg_error` and the text of the error for `rg_perror`. -/
def rgVperror (conv : Conversions) (fuel : Nat) (strerror : CString) (strError : Option CString)
    (formatAfterM : CharArray maxErrSize) (format : Option CString) (args : List U32) : Option (List U8) :=
  match format with
  | none => some ("error in `rg_error': no message specified".toList.map ascii)
  | some format => do
    let formatAfterM ← expandFormat fuel strerror strError formatAfterM format
    some (vsnprintf conv maxErrSize (formatAfterM.text 0) args)

/-! ### What is expected -/

def stand (err : List U8) : Piece → List Piece
  | .char c => [.char c]
  | .directive spec => if spec = [ascii 'm'] then literal err else [.directive spec]

def meant (err : List U8) (strError : Option CString) (format : List U8) : List Piece :=
  (readFrom none format).flatMap (stand err) ++ literal (suffix strError)

/-- Whatever the directives print: the call returns the message that is meant, as far as it fits. -/
def Grammatical (strerror : CString) (strError : Option CString) (format : CString) : Prop :=
  ∀ conv args formatAfterM fuel, format.chars.length < fuel →
    rgVperror conv fuel strerror strError formatAfterM (some format) args =
      some ((render conv (meant strerror.chars strError format.chars) args).take pEnd)

def expanded (err : List U8) (strError : Option CString) (format : List U8) : List U8 :=
  expansion err format ++ suffix strError

/-- Every `%m` of the text is a directive, where `reading` is what has been read of a directive in front of it. -/
def OnlyDirectives (reading : Option (List U8)) (text : List U8) : Prop :=
  ∀ before rest, text = before ++ percentM ++ rest → unfinished reading before = none

/-- No directive is cut off by what is added to the format. -/
def Finished (strError : Option CString) (format : List U8) : Prop := strError = none ∨ unfinished none format = none

/-- Nothing is cut off, and nothing that is put into the format is read again as anything but itself. -/
def Transparent (err : List U8) (strError : Option CString) (format : List U8) : Prop :=
  (expanded err strError format).length ≤ pEnd ∧ OnlyDirectives none format ∧ (percentM <:+: format → percent ∉ err) ∧
    percent ∉ suffix strError

/-- The cut format happens to be a way to write the message. -/
def Coincidence (err : List U8) (strError : Option CString) (format : List U8) : Prop :=
  ¬ OnlyDirectives none format ∧ percent ∈ err ∧
    (expanded err strError format).take pEnd = spell (meant err strError format)

/-! ### Scanning a format -/

/-- How a format is read and, at the same time, searched for `%m`. -/
inductive Scan : Option (List U8) → List U8 → Prop
  | nil {reading} : reading ≠ some [ascii 'm'] → Scan reading []
  | directive {rest} : Scan none rest → Scan none (percent :: ascii 'm' :: rest)
  | char {c rest} : c ≠ percent → Scan none rest → Scan none (c :: rest)
  | opened {rest} : ¬ percentM <+: percent :: rest → Scan (some []) rest → Scan none (percent :: rest)
  | modifier {mods c rest} : c ∈ modifiers → Scan (some (mods ++ [c])) rest → Scan (some mods) (c :: rest)
  | conversion {mods c rest} : c ∉ modifiers → mods ++ [c] ≠ [ascii 'm'] → ¬ percentM <+: c :: rest → Scan none rest →
    Scan (some mods) (c :: rest)
  | escaped {mods rest} : Scan none rest → Scan (some mods) (percent :: ascii 'm' :: rest)

section Scanning

variable {reading : Option (List U8)} {mods rest text err t : List U8} {c : U8}

theorem not_percentM {mods : List U8} {c : U8} (outside : some mods = some [] → c ≠ ascii 'm') :
    mods ++ [c] ≠ [ascii 'm'] := by
  intro same
  cases mods with
  | nil => exact outside rfl (List.cons.inj same).1
  | cons d mods => exact absurd (congrArg List.length same) (by simp)

theorem scan_nil (begun : Begun reading) : Scan reading [] := by
  refine .nil ?_
  rintro rfl
  exact absurd (begun _ rfl (ascii 'm') (List.mem_singleton.mpr rfl)) (by decide)

theorem outside_none (text : List U8) : (none : Option (List U8)) = some [] → text.head? ≠ some (ascii 'm') := nofun

theorem scan (begun : Begun reading) (text : List U8) (outside : reading = some [] → text.head? ≠ some (ascii 'm')) :
    Scan reading text := by
  fun_induction expansion [] text generalizing reading with
  | case1 c d rest here ih =>
    obtain ⟨rfl, rfl⟩ := here
    cases reading with
    | none => exact .directive (ih begun_none (outside_none _))
    | some mods => exact .escaped (ih begun_none (outside_none _))
  | case2 c d rest elsewhere ih =>
    have absent : ¬ percentM <+: c :: d :: rest := mt starts_percentM.mp elsewhere
    cases reading with
    | none =>
      by_cases escape : c = percent
      · subst escape
        exact .opened absent (ih begun_empty fun _ head => elsewhere ⟨rfl, Option.some.inj head⟩)
      · exact .char escape (ih begun_none (outside_none _))
    | some mods =>
      by_cases modifier : c ∈ modifiers
      · exact .modifier modifier (ih (begun.more modifier) fun empty => absurd (Option.some.inj empty) (by simp))
      · exact .conversion modifier (not_percentM fun empty same => outside empty (congrArg some same)) absent
          (ih begun_none (outside_none _))
  | case3 text short =>
    rcases text with _ | ⟨c, _ | ⟨d, text⟩⟩
    · exact scan_nil begun
    · have absent : ¬ percentM <+: [c] := fun front => absurd front.length_le (Nat.not_succ_le_self 1)
      cases reading with
      | none =>
        by_cases escape : c = percent
        · subst escape
          exact .opened absent (scan_nil begun_empty)
        · exact .char escape (scan_nil begun_none)
      | some mods =>
        by_cases modifier : c ∈ modifiers
        · exact .modifier modifier (scan_nil (begun.more modifier))
        · exact .conversion modifier (not_percentM fun empty same => outside empty (congrArg some same)) absent
            (scan_nil begun_none)
    · exact absurd rfl (short c d text)

def meantFrom (err : List U8) (reading : Option (List U8)) (text : List U8) : List Piece :=
  (readFrom reading text).flatMap (stand err)

theorem expansion_cons (absent : ¬ percentM <+: c :: rest) : expansion err (c :: rest) = c :: expansion err rest := by
  cases rest with
  | nil => rfl
  | cons d rest => rw [expansion, if_neg (mt starts_percentM.mpr absent)]

theorem expansion_percentM : expansion err (percent :: ascii 'm' :: rest) = err ++ expansion err rest := by
  rw [expansion, if_pos ⟨rfl, rfl⟩]

theorem stand_ending (other : mods ++ [c] ≠ [ascii 'm']) : stand err (.ending mods c) = [.ending mods c] := by
  unfold Piece.ending
  split
  · rfl
  · exact if_neg other

theorem meantFrom_nil (other : reading ≠ some [ascii 'm']) : spell (meantFrom err reading []) = spelled reading := by
  cases reading with
  | none => rfl
  | some mods =>
    have same : stand err (.directive mods) = [.directive mods] := if_neg fun same => other (congrArg some same)
    show spell (stand err (.directive mods) ++ []) = _
    rw [same]
    exact List.append_nil _

theorem meantFrom_directive :
    meantFrom err none (percent :: ascii 'm' :: rest) = literal err ++ meantFrom err none rest := rfl

theorem meantFrom_char (plain : c ≠ percent) : meantFrom err none (c :: rest) = .char c :: meantFrom err none rest := by
  unfold meantFrom
  rw [readFrom, if_neg plain]
  rfl

theorem meantFrom_modifier (modifier : c ∈ modifiers) :
    meantFrom err (some mods) (c :: rest) = meantFrom err (some (mods ++ [c])) rest := by
  unfold meantFrom
  rw [readFrom, if_pos modifier]

theorem meantFrom_conversion (conversion : c ∉ modifiers) (other : mods ++ [c] ≠ [ascii 'm']) :
    meantFrom err (some mods) (c :: rest) = .ending mods c :: meantFrom err none rest := by
  unfold meantFrom
  rw [readFrom, if_neg conversion, List.flatMap_cons, stand_ending other]
  rfl

theorem meantFrom_escaped : meantFrom err (some mods) (percent :: ascii 'm' :: rest) =
    .ending mods percent :: .char (ascii 'm') :: meantFrom err none rest := by
  rw [meantFrom_conversion percent_not_modifier (not_percentM fun _ => by decide), meantFrom_char (by decide)]

theorem onlyDirectives_cons : OnlyDirectives reading (c :: rest) ↔
    (percentM <+: c :: rest → reading = none) ∧ OnlyDirectives (progress reading c) rest := by
  constructor
  · intro only
    refine ⟨fun ⟨after, same⟩ => only [] after same.symm, fun before after same => ?_⟩
    exact only (c :: before) after (by rw [same]; rfl)
  · rintro ⟨here, later⟩ before after same
    cases before with
    | nil => exact here ⟨after, same.symm⟩
    | cons d before =>
      obtain ⟨rfl, tail⟩ := List.cons.inj same
      exact later before after tail

theorem onlyDirectives_nil : OnlyDirectives reading [] := by
  intro before after same
  exact absurd (congrArg List.length same) (by simp [percentM])

theorem onlyDirectives_step (absent : ¬ percentM <+: c :: rest) :
    OnlyDirectives reading (c :: rest) ↔ OnlyDirectives (progress reading c) rest :=
  onlyDirectives_cons.trans (and_iff_right fun here => absurd here absent)

theorem onlyDirectives_directive :
    OnlyDirectives none (percent :: ascii 'm' :: rest) ↔ OnlyDirectives none rest := by
  have second : ¬ percentM <+: ascii 'm' :: rest := by
    rw [percentM, List.cons_prefix_cons]
    exact fun front => absurd front.1 (by decide)
  rw [onlyDirectives_cons, and_iff_right fun _ => rfl]
  exact onlyDirectives_step second

theorem not_percentM_of_modifier (modifier : c ∈ modifiers) : ¬ percentM <+: c :: rest := by
  rw [percentM, List.cons_prefix_cons]
  rintro ⟨rfl, _⟩
  exact percent_not_modifier modifier

theorem not_percentM_of_plain (plain : c ≠ percent) : ¬ percentM <+: c :: rest := by
  rw [percentM, List.cons_prefix_cons]
  exact fun front => plain front.1.symm

theorem progress_modifier (modifier : c ∈ modifiers) : progress (some mods) c = some (mods ++ [c]) := if_pos modifier

theorem progress_conversion (conversion : c ∉ modifiers) : progress (some mods) c = none := if_neg conversion

theorem progress_char (plain : c ≠ percent) : progress none c = none := if_neg plain

/-- Where every `%m` is a directive, the pieces are spelled by a text of the error in which every percent sign is
doubled. -/
theorem spell_meant (scanned : Scan reading text) (only : OnlyDirectives reading text) :
    spell (meantFrom err reading text) = spelled reading ++ expansion (spell (literal err)) text := by
  induction scanned with
  | nil other =>
    rw [meantFrom_nil other, expansion, List.append_nil]
    intro c d rest same
    cases same
  | directive _ ih =>
    rw [meantFrom_directive, expansion_percentM, spell_append, ih (onlyDirectives_directive.mp only)]
    rfl
  | char plain _ ih =>
    rw [onlyDirectives_step (not_percentM_of_plain plain), progress_char plain] at only
    rw [meantFrom_char plain, expansion_cons (not_percentM_of_plain plain), spell_cons, ih only, Piece.spell,
      if_neg plain]
    rfl
  | opened absent _ ih =>
    rw [onlyDirectives_step absent] at only
    rw [expansion_cons absent]
    exact ih only
  | modifier modifier _ ih =>
    rw [onlyDirectives_step (not_percentM_of_modifier modifier), progress_modifier modifier] at only
    rw [meantFrom_modifier modifier, expansion_cons (not_percentM_of_modifier modifier), ih only]
    simp [spelled]
  | conversion conversion other absent _ ih =>
    rw [onlyDirectives_step absent, progress_conversion conversion] at only
    rw [meantFrom_conversion conversion other, expansion_cons absent, spell_cons, ih only, spell_ending]
    simp [spelled]
  | escaped =>
    have directive := (onlyDirectives_cons.mp only).1 ⟨_, rfl⟩
    cases directive

/-- An empty text of the error makes no expansion longer than the spelled message. -/
theorem length_expansion_nil (scanned : Scan reading text) :
    (spelled reading ++ expansion [] text).length ≤ (spell (meantFrom [] reading text)).length := by
  induction scanned with
  | nil other => rw [meantFrom_nil other]; simp [expansion]
  | directive _ ih => exact ih
  | char plain _ ih =>
    rw [meantFrom_char plain, expansion_cons (not_percentM_of_plain plain), spell_cons, Piece.spell, if_neg plain]
    simp [spelled] at ih ⊢
    omega
  | opened absent _ ih =>
    rw [expansion_cons absent]
    exact ih
  | modifier modifier _ ih =>
    rw [meantFrom_modifier modifier, expansion_cons (not_percentM_of_modifier modifier)]
    simpa [spelled] using ih
  | conversion conversion other absent _ ih =>
    rw [meantFrom_conversion conversion other, expansion_cons absent, spell_cons, spell_ending]
    simp [spelled] at ih ⊢
    omega
  | escaped _ ih =>
    rw [meantFrom_escaped, expansion_percentM, spell_cons, spell_cons, spell_ending]
    simp [spelled] at ih ⊢
    omega

/-- A text of the error without percent signs does not make up for a `%m` that is not a directive. -/
theorem onlyDirectives_of_front (scanned : Scan reading text) (plain : percent ∉ err) {added : List U8}
    (longer : t.length ≤ added.length)
    (front : spell (meantFrom err reading text) ++ added <+: spelled reading ++ (expansion err text ++ t)) :
    OnlyDirectives reading text := by
  induction scanned with
  | nil => exact onlyDirectives_nil
  | directive _ ih =>
    rw [meantFrom_directive, expansion_percentM, spell_append, spell_literal plain, List.append_assoc,
      List.append_assoc] at front
    exact onlyDirectives_directive.mpr (ih ((List.prefix_append_right_inj err).mp front))
  | @char c _ unescaped _ ih =>
    rw [onlyDirectives_step (not_percentM_of_plain unescaped), progress_char unescaped]
    rw [meantFrom_char unescaped, expansion_cons (not_percentM_of_plain unescaped), spell_cons, Piece.spell,
      if_neg unescaped, List.append_assoc] at front
    exact ih ((List.prefix_append_right_inj [c]).mp front)
  | opened absent _ ih =>
    rw [onlyDirectives_step absent]
    rw [expansion_cons absent] at front
    exact ih front
  | @modifier mods c _ modifier _ ih =>
    rw [onlyDirectives_step (not_percentM_of_modifier modifier), progress_modifier modifier]
    rw [meantFrom_modifier modifier, expansion_cons (not_percentM_of_modifier modifier)] at front
    apply ih
    simpa [spelled] using front
  | @conversion mods c _ conversion other absent _ ih =>
    rw [onlyDirectives_step absent, progress_conversion conversion]
    rw [meantFrom_conversion conversion other, expansion_cons absent, spell_cons, spell_ending, List.append_assoc] at front
    apply ih
    apply (List.prefix_append_right_inj (percent :: (mods ++ [c]))).mp
    simpa [spelled] using front
  | @escaped mods rest scanned =>
    rw [meantFrom_escaped, expansion_percentM, spell_cons, spell_cons, spell_ending] at front
    have behind : percent :: ascii 'm' :: (spell (meantFrom err none rest) ++ added) <+:
        err ++ (expansion err rest ++ t) := by
      apply (List.prefix_append_right_inj (percent :: mods)).mp
      simpa [spelled, Piece.spell, show ascii 'm' ≠ percent by decide] using front
    cases err with
    | nil =>
      have bound : (expansion [] rest).length ≤ (spell (meantFrom [] none rest)).length := length_expansion_nil scanned
      have := behind.length_le
      simp only [List.length_cons, List.length_append, List.nil_append] at this
      omega
    | cons e err =>
      rw [List.cons_append, List.cons_prefix_cons] at behind
      exact absurd (List.mem_cons.mpr (Or.inl behind.1)) plain

/-- A cut expansion without percent signs is what is printed. -/
theorem upTo_meant (scanned : Scan reading text) {n : Nat}
    (plain : percent ∉ (spelled reading ++ (expansion err text ++ t)).take n) :
    upTo n (meantFrom err reading text ++ literal t) =
      literal ((spelled reading ++ (expansion err text ++ t)).take n) := by
  have none_ : ∀ {mods x : List U8} {n : Nat}, percent ∉ (spelled (some mods) ++ x).take n → n = 0 := by
    intro mods x n free
    by_contra more
    obtain ⟨k, rfl⟩ := Nat.exists_eq_succ_of_ne_zero more
    exact free List.mem_cons_self
  induction scanned generalizing n with
  | @nil reading =>
    cases reading with
    | none =>
      show upTo n (literal t) = literal (t.take n)
      rw [← List.append_nil (literal t), upTo_literal_append, upTo_nil, List.append_nil]
    | some mods =>
      obtain rfl := none_ plain
      rw [upTo_zero]
      rfl
  | directive _ ih =>
    rw [expansion_percentM, spelled, List.nil_append, List.append_assoc, List.take_append] at plain ⊢
    rw [meantFrom_directive, List.append_assoc, upTo_literal_append,
      ih fun member => plain (List.mem_append_right _ member)]
    exact List.map_append.symm
  | char unescaped _ ih =>
    rw [expansion_cons (not_percentM_of_plain unescaped)] at plain ⊢
    rw [meantFrom_char unescaped]
    cases n with
    | zero =>
      rw [upTo_zero]
      rfl
    | succ n =>
      rw [List.cons_append, upTo, ih fun member => plain (List.mem_cons_of_mem _ member)]
      rfl
  | opened absent _ ih =>
    rw [expansion_cons absent] at plain ⊢
    exact ih plain
  | modifier | conversion | escaped =>
    obtain rfl := none_ plain
    rw [upTo_zero]
    rfl

/-- The message can be spelled as a format unless a directive is cut off in front of what is added. -/
theorem readable_meant (begun : Begun reading) (text t : List U8) :
    Readable (meantFrom err reading text ++ literal t) ↔ t = [] ∨ unfinished reading text = none := by
  induction text generalizing reading with
  | nil =>
    cases reading with
    | none => exact iff_of_true (readable_literal t) (Or.inr rfl)
    | some mods =>
      have other : mods ≠ [ascii 'm'] := by
        rintro rfl
        exact absurd (begun _ rfl (ascii 'm') (List.mem_singleton.mpr rfl)) (by decide)
      have same : meantFrom err (some mods) [] = [.directive mods] := by
        show stand err (.directive mods) ++ [] = _
        rw [List.append_nil]
        exact if_neg other
      rw [same, List.singleton_append, readable_unfinished (begun mods rfl), literal, List.map_eq_nil_iff]
      exact (or_iff_left nofun).symm
  | cons c text ih =>
    have next : unfinished reading (c :: text) = unfinished (progress reading c) text := rfl
    rw [next]
    cases reading with
    | none =>
      by_cases escape : c = percent
      · subst escape
        exact ih begun_empty
      · rw [meantFrom_char escape, progress_char escape]
        exact ih begun_none
    | some mods =>
      by_cases modifier : c ∈ modifiers
      · rw [meantFrom_modifier modifier, progress_modifier modifier]
        exact ih (begun.more modifier)
      rw [progress_conversion modifier, ← ih begun_none]
      by_cases error : mods ++ [c] = [ascii 'm']
      · obtain ⟨rfl, rfl⟩ : mods = [] ∧ c = ascii 'm' := by
          cases mods with
          | nil => exact ⟨rfl, (List.cons.inj error).1⟩
          | cons d mods => exact absurd (congrArg List.length error) (by simp)
        exact (congrArg Readable (List.append_assoc _ _ _)).to_iff.trans (readable_literal_append err)
      · rw [meantFrom_conversion modifier error]
        exact readable_ending (begun mods rfl) modifier

end Scanning

/-! ### When the message is the one that is meant -/

section Message

variable {strerror : CString} {strError : Option CString} {format : CString} {err fmt : List U8}

theorem rgVperror_eq (conv : Conversions) (strerror : CString) (strError : Option CString)
    (formatAfterM : CharArray maxErrSize) (format : CString) (args : List U32) {fuel : Nat}
    (enough : format.chars.length < fuel) :
    rgVperror conv fuel strerror strError formatAfterM (some format) args =
      some ((render conv (readFrom none ((expanded strerror.chars strError format.chars).take pEnd)) args).take pEnd) := by
  obtain ⟨b, expands, _, text⟩ := expandFormat_exact strerror strError formatAfterM format enough
  unfold rgVperror
  dsimp only [Option.bind_eq_bind]
  rw [expands, Option.bind_some, text]
  rfl

theorem grammatical_iff_pieces : Grammatical strerror strError format ↔
    readFrom none ((expanded strerror.chars strError format.chars).take pEnd) =
      upTo pEnd (meant strerror.chars strError format.chars) := by
  have short : (spell (readFrom none ((expanded strerror.chars strError format.chars).take pEnd))).length ≤ pEnd := by
    rw [spell_readFrom]
    exact List.length_take_le _ _
  nth_rewrite 1 [← upTo_of_short short]
  rw [← render_take_iff (by decide : (1 : U32) ≠ 0)]
  constructor
  · intro grammatical conv args
    have enough := Nat.lt_succ_self format.chars.length
    have start : CharArray maxErrSize := ⟨List.replicate maxErrSize 0#8, List.length_replicate⟩
    have message := grammatical conv args start _ enough
    rw [rgVperror_eq conv strerror strError start format args enough] at message
    exact Option.some.inj message
  · intro same conv args formatAfterM fuel enough
    rw [rgVperror_eq conv strerror strError formatAfterM format args enough, same]

theorem suffix_eq_nil : suffix strError = [] ↔ strError = none := by
  cases strError with
  | none => exact iff_of_true rfl rfl
  | some text => exact iff_of_false nofun nofun

theorem readable_iff_finished (err : List U8) : Readable (meant err strError fmt) ↔ Finished strError fmt := by
  rw [Finished, ← suffix_eq_nil]
  exact readable_meant begun_none fmt _

theorem grammatical_iff_spelled : Grammatical strerror strError format ↔
    percent ∉ (expanded strerror.chars strError format.chars).take pEnd ∨
      Finished strError format.chars ∧
        (expanded strerror.chars strError format.chars).take pEnd =
          spell (meant strerror.chars strError format.chars) := by
  rw [grammatical_iff_pieces]
  generalize same : (expanded strerror.chars strError format.chars).take pEnd = cut
  have back : spell (readFrom none cut) = cut := spell_readFrom none cut
  constructor
  · intro pieces
    have short : (spell (upTo pEnd (meant strerror.chars strError format.chars))).length ≤ pEnd := by
      rw [← pieces, back, ← same]
      exact List.length_take_le _ _
    rcases plain_of_upTo short with whole | plain
    · rw [whole] at pieces
      rw [pieces] at back
      refine Or.inr ⟨(readable_iff_finished strerror.chars).mp ?_, back.symm⟩
      rw [← pieces]
      exact readable_readFrom begun_none cut
    · rw [← pieces, back] at plain
      exact Or.inl plain
  · rintro (plain | ⟨finished, spelling⟩)
    · rw [readFrom_literal plain, ← same]
      rw [← same] at plain
      exact (upTo_meant (scan begun_none format.chars nofun) plain).symm
    · have readable := (readable_iff_finished strerror.chars).mpr finished
      have short : (spell (meant strerror.chars strError format.chars)).length ≤ pEnd := by
        rw [← spelling, ← same]
        exact List.length_take_le _ _
      rw [spelling, read_spell readable, upTo_of_short short]

/-- Doubling the percent signs of the text of the error makes the expansion longer where there is something to double. -/
theorem expansion_doubled (err fmt : List U8) :
    (expansion err fmt).length ≤ (expansion (spell (literal err)) fmt).length ∧
      ((expansion (spell (literal err)) fmt).length ≤ (expansion err fmt).length → percentM <:+: fmt → percent ∉ err) := by
  fun_induction expansion err fmt with
  | case1 c d rest here ih =>
    rw [expansion, if_pos here, List.length_append, List.length_append, length_spell_literal]
    refine ⟨by omega, fun same _ => List.count_eq_zero.mp ?_⟩
    omega
  | case2 c d rest elsewhere ih =>
    rw [expansion, if_neg elsewhere, List.length_cons, List.length_cons]
    refine ⟨Nat.succ_le_succ ih.1, fun same inside => ih.2 (Nat.le_of_succ_le_succ same) ?_⟩
    rcases List.infix_cons_iff.mp inside with front | later
    · exact absurd (starts_percentM.mp front) elsewhere
    · exact later
  | case3 fmt short =>
    have same : expansion (spell (literal err)) fmt = fmt := by
      rcases fmt with _ | ⟨c, _ | ⟨d, fmt⟩⟩
      · rfl
      · rfl
      · exact absurd rfl (short c d fmt)
    refine ⟨by rw [same], fun _ inside => ?_⟩
    rcases fmt with _ | ⟨c, _ | ⟨d, fmt⟩⟩
    · exact absurd inside.length_le (Nat.not_succ_le_zero 1)
    · exact absurd inside.length_le (Nat.not_succ_le_self 1)
    · exact absurd rfl (short c d fmt)

theorem expansion_absent (absent : ¬ percentM <:+: fmt) : expansion err fmt = fmt := by
  induction fmt with
  | nil => rfl
  | cons c fmt ih =>
    rw [expansion_cons fun front => absent front.isInfix, ih fun later => absent (List.infix_cons later)]

theorem spell_meant_only (only : OnlyDirectives none fmt) : spell (meant err strError fmt) =
    expansion (spell (literal err)) fmt ++ spell (literal (suffix strError)) := by
  unfold meant
  rw [spell_append]
  exact congrArg (· ++ _) (spell_meant (scan begun_none fmt nofun) only)

theorem spelled_of_transparent (transparent : Transparent err strError fmt) :
    (expanded err strError fmt).take pEnd = spell (meant err strError fmt) := by
  obtain ⟨short, only, plain, plainSuffix⟩ := transparent
  have same : expansion (spell (literal err)) fmt = expansion err fmt := by
    by_cases inside : percentM <:+: fmt
    · rw [spell_literal (plain inside)]
    · rw [expansion_absent inside, expansion_absent inside]
  rw [List.take_of_length_le short, spell_meant_only only, same, spell_literal plainSuffix]
  rfl

theorem transparent_or_coincidence (spelling : (expanded err strError fmt).take pEnd = spell (meant err strError fmt)) :
    Transparent err strError fmt ∨ Coincidence err strError fmt := by
  have front : spell (meant err strError fmt) <+: expanded err strError fmt := by
    rw [← spelling]
    exact List.take_prefix _ _
  have suffixLength := length_spell_literal (suffix strError)
  by_cases only : OnlyDirectives none fmt
  · obtain ⟨longer, exactly⟩ := expansion_doubled err fmt
    have lengths := front.length_le
    rw [spell_meant_only only, expanded, List.length_append, List.length_append] at lengths
    have whole : (expanded err strError fmt).take pEnd = expanded err strError fmt := by
      apply List.IsPrefix.eq_of_length_le (List.take_prefix _ _)
      rw [spelling, spell_meant_only only, expanded, List.length_append, List.length_append]
      omega
    have short : (expanded err strError fmt).length ≤ pEnd := by
      rw [← whole]
      exact List.length_take_le _ _
    exact Or.inl ⟨short, only, exactly (by omega), List.count_eq_zero.mp (by omega)⟩
  · refine Or.inr ⟨only, ?_, spelling⟩
    by_contra plain
    have longer : (suffix strError).length ≤ (spell (literal (suffix strError))).length := by omega
    rw [meant, spell_append] at front
    exact only (onlyDirectives_of_front (scan begun_none fmt nofun) plain longer front)

/-- The message is the one that is meant exactly when the cut expansion has no percent sign; or no directive is cut off
in front of what is added, and all that is put into the format is read as itself, or the cut expansion happens to be a
way to write the message. -/
theorem grammatical_iff (strerror : CString) (strError : Option CString) (format : CString) :
    Grammatical strerror strError format ↔
      percent ∉ (expanded strerror.chars strError format.chars).take pEnd ∨
        Finished strError format.chars ∧
          (Transparent strerror.chars strError format.chars ∨ Coincidence strerror.chars strError format.chars) := by
  rw [grammatical_iff_spelled]
  apply or_congr_right
  apply and_congr_right
  intro _
  constructor
  · exact transparent_or_coincidence
  · rintro (transparent | coincidence)
    · exact spelled_of_transparent transparent
    · exact coincidence.2.2

/-- An escaped percent sign in front of an `m`, where the text of the error is `Success`. -/
theorem escapedPercent_not_grammatical :
    ¬ Grammatical ⟨['S', 'u', 'c', 'c', 'e', 's', 's'].map ascii, by decide⟩ none
      ⟨['%', '%', 'm'].map ascii, by decide⟩ := by
  rw [grammatical_iff_pieces]
  decide

end Message

end TwinpassGateway.Util
