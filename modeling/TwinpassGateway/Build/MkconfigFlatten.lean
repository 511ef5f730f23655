import TwinpassGateway.Build.MkconfigStack

/-!
What the includes of `mkconfig.c` amount to: the lines of the files in the order in which they are met.
-/

namespace TwinpassGateway.Build

open Foundation

/-- A line that `fgets` reads whole. -/
structure TextLine where
  chars : List U8
  plain : ∀ c ∈ chars, c ≠ newline ∧ c ≠ 0#8
  fits : chars.length + 1 < lineSize

def TextLine.text (l : TextLine) : List U8 := l.chars ++ [newline]

def textOf (lines : List TextLine) : List U8 := lines.flatMap TextLine.text

/-! ### A line and what lies behind its NUL -/

def OneLine (q : List U8) : Prop := ∀ c ∈ q, c ≠ newline ∧ c ≠ 0#8

theorem OneLine.tail {c : U8} {q : List U8} (plain : OneLine (c :: q)) : OneLine q :=
  fun d member => plain d (List.mem_cons_of_mem _ member)

theorem commentEnd_line : ∀ {q : List U8}, OneLine q →
    ∃ b q', OneLine q' ∧ ∀ x, commentEnd (q ++ newline :: 0#8 :: x) = some (b, q' ++ newline :: 0#8 :: x)
  | [], plain => ⟨false, [], plain, fun x => by rw [List.nil_append, commentEnd, if_pos rfl]⟩
  | [c], plain => by
    have other := (plain c List.mem_cons_self).1
    refine ⟨false, [], plain.tail, fun x => ?_⟩
    rw [List.singleton_append, commentEnd, if_neg other, if_neg (by rintro ⟨-, same⟩; exact absurd same (by decide)),
      commentEnd, if_pos rfl, List.nil_append]
  | c :: d :: q, plain => by
    have other := (plain c List.mem_cons_self).1
    by_cases close : c = star ∧ d = slash
    · refine ⟨true, q, plain.tail.tail, fun x => ?_⟩
      rw [List.cons_append, List.cons_append, commentEnd, if_neg other, if_pos close]
    · obtain ⟨b, q', plain', ends⟩ := commentEnd_line plain.tail
      refine ⟨b, q', plain', fun x => ?_⟩
      rw [List.cons_append, List.cons_append, commentEnd, if_neg other, if_neg close]
      exact ends x

theorem skipSpaces_line {q : List U8} (plain : OneLine q) :
    (∃ c q', OneLine (c :: q') ∧ ∀ x, skipSpaces (q ++ newline :: 0#8 :: x) = some (c :: q' ++ newline :: 0#8 :: x)) ∨
      ∀ x, skipSpaces (q ++ newline :: 0#8 :: x) = some (0#8 :: x) := by
  induction q with
  | nil => exact Or.inr fun x => rfl
  | cons c q ih =>
    cases space : isspace c with
    | true =>
      obtain ⟨d, q', plain', skips⟩ | ends := ih plain.tail
      · refine Or.inl ⟨d, q', plain', fun x => ?_⟩
        rw [List.cons_append, skipSpaces, space]
        exact skips x
      · refine Or.inr fun x => ?_
        rw [List.cons_append, skipSpaces, space]
        exact ends x
    | false =>
      refine Or.inl ⟨c, q, plain, fun x => ?_⟩
      rw [List.cons_append, skipSpaces, space]
      rfl

/-- A token of a line, whatever lies behind the line's NUL. -/
inductive LineToken (token : List U8 → Option Token) : Prop where
  | outside : (∀ x, token x = none) → LineToken token
  | err : (∀ x, token x = some .err) → LineToken token
  | comment (chars : List U8) : (∀ x, token x = some (.comment chars)) → LineToken token
  | ret (chars q : List U8) : OneLine q → (∀ x, token x = some (.ret chars (q ++ newline :: 0#8 :: x))) → LineToken token

theorem lineToken_ret {chars q : List U8} (plain : OneLine q) :
    LineToken fun x => tokenRet chars (q ++ newline :: 0#8 :: x) := by
  by_cases room : chars.length + 1 < lineSize
  · exact .ret chars q plain fun x => if_pos room
  · exact .outside fun x => if_neg room

theorem getToken_line {tokNum : Nat} (known : tokNum = 1 ∨ tokNum = 2) :
    ∀ {q : List U8} (inComment : Bool) (buf : List U8), OneLine q →
      LineToken fun x => getToken tokNum inComment (q ++ newline :: 0#8 :: x) buf
  | [], true, buf, _ => .comment buf fun x => if_pos rfl
  | [], false, buf, plain => by
    obtain rfl | rfl := known
    · refine .err fun x => ?_
      rfl
    · exact lineToken_ret plain
  | [c], true, buf, plain => by
    have other := (plain c List.mem_cons_self).1
    refine .comment buf fun x => ?_
    rw [List.singleton_append, getToken, if_neg other, if_neg (by rintro ⟨-, same⟩; exact absurd same (by decide))]
    exact if_pos rfl
  | c :: d :: q, true, buf, plain => by
    have other := (plain c List.mem_cons_self).1
    by_cases close : c = star ∧ d = slash
    · simp only [List.cons_append, getToken, if_neg other, if_pos close]
      exact getToken_line known false buf plain.tail.tail
    · simp only [List.cons_append, getToken, if_neg other, if_neg close]
      exact getToken_line known true buf plain.tail
  | c :: q, false, buf, plain => by
    obtain ⟨other, visible⟩ := plain c List.mem_cons_self
    have more : ∀ x, q ++ newline :: 0#8 :: x ≠ [] := fun x => by simp
    have head : ∀ x, (q ++ newline :: 0#8 :: x).head? = (q ++ [newline]).head? := fun x => by cases q <;> rfl
    simp only [List.cons_append, getToken, head, more, and_false, if_false]
    by_cases comment : c = 0#8 ∨ c = hash
    · simp only [if_pos comment]
      exact lineToken_ret plain
    · simp only [if_neg comment]
      by_cases opens : c = slash ∧ (q ++ [newline]).head? = some star
      · simp only [if_pos opens]
        exact getToken_line known true buf plain.tail
      · simp only [if_neg opens]
        by_cases space : tokNum = 1 ∧ (c = 0x20#8 ∨ c = 0x09#8 ∨ c = newline)
        · simp only [if_pos space]
          obtain ⟨e, q', plain', skips⟩ | ends := skipSpaces_line plain
          · simp only [← List.cons_append, skips, Option.bind_some]
            by_cases value : e = equals
            · subst value
              simp only [List.cons_append, List.head?_cons, if_true]
              exact lineToken_ret plain'
            · refine .err fun x => ?_
              rw [List.cons_append, List.head?_cons, if_neg (by simpa using value)]
          · refine .err fun x => ?_
            rw [← List.cons_append, ends]
            rfl
        · have sameLine : ¬ (tokNum = 2 ∧ c = newline) := fun h => other h.2
          simp only [if_neg space, if_neg sameLine]
          by_cases value : tokNum = 1 ∧ c = equals
          · simp only [if_pos value]
            obtain ⟨e, q', plain', skips⟩ | ends := skipSpaces_line plain.tail
            · have seen : e ≠ 0#8 := (plain' e List.mem_cons_self).2
              simp only [skips, Option.bind_some, List.cons_append, List.head?_cons, Option.some.injEq, seen, if_false]
              exact lineToken_ret plain'
            · refine .err fun x => ?_
              rw [ends]
              rfl
          · simp only [if_neg value]
            by_cases room : buf.length < lineSize
            · simp only [if_pos room]
              exact getToken_line known false (buf ++ [c]) plain.tail
            · exact .outside fun x => if_neg room

def TextLine.processed (comment : Bool) (l : TextLine) : Option Processed := processLine comment (l.text ++ [0#8])

theorem processName_line {q : List U8} (plain : OneLine q) :
    ∃ o, ∀ x, (getToken 1 false (q ++ newline :: 0#8 :: x) []).bind withName = o := by
  cases getToken_line (Or.inl rfl) false [] plain with
  | outside none_ => exact ⟨none, fun x => by rw [none_]; rfl⟩
  | err failed => exact ⟨some .exited, fun x => by rw [failed]; rfl⟩
  | comment name opened => exact ⟨withName (.comment name), fun x => by rw [opened]; rfl⟩
  | ret name q' plain' ends =>
    by_cases nothing : name = []
    · exact ⟨some (.returned false none), fun x => by rw [ends, Option.bind_some, withName, if_pos nothing]⟩
    · have value : ∃ o, ∀ x, (getToken 2 false (q' ++ newline :: 0#8 :: x) []).bind (withValue name) = o := by
        cases getToken_line (Or.inr rfl) false [] plain' with
        | outside none_ => exact ⟨none, fun x => by rw [none_]; rfl⟩
        | err failed => exact ⟨some .exited, fun x => by rw [failed]; rfl⟩
        | comment value opened => exact ⟨printTokens true name value, fun x => by rw [opened]; rfl⟩
        | ret value q'' plain'' ends => exact ⟨printTokens false name value, fun x => by rw [ends]; rfl⟩
      obtain ⟨o, same⟩ := value
      exact ⟨o, fun x => by rw [ends, Option.bind_some, withName, if_neg nothing, same]⟩

theorem processLine_text (comment : Bool) (l : TextLine) (x : List U8) :
    processLine comment (l.text ++ 0#8 :: x) = l.processed comment := by
  have behind : ∃ o, ∀ x, processLine comment (l.chars ++ newline :: 0#8 :: x) = o := by
    have left : ∃ b q, OneLine q ∧ ∀ x, leaveComment comment (l.chars ++ newline :: 0#8 :: x) =
        some (b, q ++ newline :: 0#8 :: x) := by
      cases comment with
      | false => exact ⟨false, l.chars, l.plain, fun x => rfl⟩
      | true =>
        obtain ⟨b, q, plain, ends⟩ := commentEnd_line l.plain
        refine ⟨!b, q, plain, fun x => ?_⟩
        rw [leaveComment, if_pos rfl, ends]
        rfl
    obtain ⟨b, q, plain, left⟩ := left
    obtain ⟨o, name⟩ := processName_line plain
    cases q with
    | nil => exact ⟨some (.returned b none), fun x => by rw [processLine, left]; rfl⟩
    | cons c q =>
      by_cases ignored : c = 0#8 ∨ c = hash ∨ c = newline ∨ b = true
      · refine ⟨some (.returned b none), fun x => ?_⟩
        rw [processLine, left, Option.bind_some, List.cons_append]
        exact if_pos ignored
      · refine ⟨o, fun x => ?_⟩
        rw [processLine, left, Option.bind_some, List.cons_append]
        exact (if_neg ignored).trans (name x)
  obtain ⟨o, same⟩ := behind
  rw [TextLine.processed, TextLine.text, List.append_assoc, List.append_assoc]
  exact (same x).trans (same []).symm

/-! ### Reading a line -/

theorem takeLine_text {n : Nat} {chars : List U8} (short : chars.length < n) (plain : OneLine chars) (rest : List U8) :
    takeLine n (chars ++ newline :: rest) = (chars ++ [newline], rest) := by
  induction chars generalizing n with
  | nil =>
    obtain ⟨n, rfl⟩ := Nat.exists_eq_add_one.mpr short
    rw [List.nil_append, takeLine, if_pos rfl]
    rfl
  | cons c chars ih =>
    obtain ⟨n, rfl⟩ := Nat.exists_eq_add_one.mpr ((Nat.zero_le _).trans_lt short)
    rw [List.cons_append, takeLine, if_neg (plain c List.mem_cons_self).1, ih (Nat.lt_of_succ_lt_succ short) plain.tail]
    rfl

theorem fgets_text (line : CharArray lineSize) (l : TextLine) (rest : List U8) :
    ∃ line' x, fgets line (l.text ++ rest) = some (some line', rest) ∧ line'.bytes = l.text ++ 0#8 :: x := by
  have taken : takeLine (lineSize - 1) (l.text ++ rest) = (l.text, rest) := by
    have fits := l.fits
    rw [TextLine.text, List.append_assoc]
    exact takeLine_text (by unfold lineSize at *; omega) l.plain rest
  have length : (l.text ++ [0#8]).length = l.chars.length + 2 := by
    rw [TextLine.text, List.length_append, List.length_append]
    rfl
  obtain ⟨line', stored, bytes⟩ := line.store_eq 0 (l.text ++ [0#8]) (by
    have fits := l.fits
    rw [length]
    unfold lineSize at *
    omega)
  refine ⟨line', line.bytes.drop (0 + (l.text ++ [0#8]).length), ?_, ?_⟩
  · have some_ : l.text ++ rest ≠ [] := by simp [TextLine.text]
    rw [fgets, if_neg some_, taken]
    exact congrArg (fun o => some (o, rest)) stored
  · rw [bytes, List.take_zero, List.nil_append, List.append_assoc]
    rfl

/-- The command has no NUL, so that it lies in front of the line's. -/
theorem command_prefix_iff (text x : List U8) : includeCommand <+: text ++ 0#8 :: x ↔ includeCommand <+: text := by
  refine ⟨fun command => ?_, fun command => command.trans (List.prefix_append _ _)⟩
  have noNul : 0#8 ∉ includeCommand := by decide
  have front : text ++ [0#8] <+: text ++ 0#8 :: x := ⟨x, by rw [List.append_assoc]; rfl⟩
  obtain inside | beyond := List.prefix_or_prefix_of_prefix command front
  · obtain same | inside := List.prefix_concat_iff.mp inside
    · exact absurd (by rw [same]; simp) noNul
    · exact inside
  · exact absurd (beyond.subset (by simp)) noNul

/-- The line is the include of a name of at least two characters. -/
def Includes (l : TextLine) (name : List U8) : Prop :=
  ∃ t c more, l.text = includeCommand ++ t ∧ t.dropWhile isspace = name ++ c :: more ∧ isspace c = true ∧
    (∀ d ∈ name, isspace d = false) ∧ 2 ≤ name.length

namespace Mkconfig

variable {files : List U8 → Option (List U8)} {s : Mkconfig} {f : Nat}

theorem nameScan_name {name : List U8} {c : U8} (more : List U8) (plain : ∀ d ∈ name, ¬ (d = 0#8 ∨ isspace d = true))
    (space : isspace c = true) : nameScan (name ++ c :: more) = some name.length := by
  induction name with
  | nil => rw [List.nil_append, nameScan, if_pos (Or.inr space)]; rfl
  | cons d name ih =>
    rw [List.cons_append, nameScan, if_neg (plain d List.mem_cons_self),
      ih fun e member => plain e (List.mem_cons_of_mem _ member)]
    rfl

/-- An include opens the file that it names. -/
theorem includeFile_includes {l : TextLine} {name x : List U8} (includes : Includes l name)
    (line : s.line.bytes = l.text ++ 0#8 :: x) (room : s.mkindex + 1 < maxNFiles) :
    ∃ line', s.includeFile files f =
      ({ s with line := line', mkindex := s.mkindex + 1 } : Mkconfig).fopen (files name) (some f) := by
  obtain ⟨t, c, more, command, named, space, plain, long⟩ := includes
  obtain ⟨d, rest, rfl⟩ := List.exists_cons_of_length_pos ((Nat.zero_lt_two).trans_le long)
  have visible : ∀ e ∈ d :: rest, e ≠ 0#8 := by
    intro e member same
    have inText : e ∈ l.text := by
      rw [command]
      refine List.mem_append_right _ ((List.dropWhile_suffix isspace).subset ?_)
      rw [named]
      exact List.mem_append_left _ member
    obtain before | last := List.mem_append.mp inText
    · exact (l.plain e before).2 same
    · rw [List.mem_singleton.mp last] at same
      exact absurd same (by decide)
  -- the name in the buffer, between what is in front of it and what lies behind it
  have skipped : skipSpaces (0x20#8 :: (t ++ 0#8 :: x)) = some (d :: rest ++ c :: (more ++ 0#8 :: x)) := by
    rw [skipSpaces, if_pos (by decide), skipSpaces_eq, List.dropWhile_append, named, if_neg (by simp), if_neg (by simp),
      List.append_assoc]
    rfl
  obtain ⟨front, bytes⟩ : ∃ front, s.line.bytes = front ++ (d :: rest ++ c :: (more ++ 0#8 :: x)) := by
    refine ⟨includeCommand ++ t.takeWhile isspace, ?_⟩
    rw [line, command]
    conv_lhs => rw [← List.takeWhile_append_dropWhile (p := isspace) (l := t), named]
    simp
  have scanned : nameScan (d :: rest ++ c :: (more ++ 0#8 :: x)).tail = some rest.length := by
    refine nameScan_name _ (fun e member => ?_) space
    rintro (nul | blank)
    · exact visible e (List.mem_cons_of_mem _ member) nul
    · rw [plain e (List.mem_cons_of_mem _ member)] at blank
      cases blank
  have size := s.line.length_eq
  rw [bytes, List.length_append] at size
  have place : lineSize - (d :: rest ++ c :: (more ++ 0#8 :: x)).length = front.length := by omega
  obtain ⟨line', stored, bytes'⟩ := s.line.store_eq (front.length + (1 + rest.length)) [0#8] (by
    simp only [List.length_append, List.length_cons] at size
    rw [List.length_singleton]
    omega)
  have named' : line'.text front.length = d :: rest := by
    have kept : s.line.bytes.take (front.length + (1 + rest.length)) = front ++ (d :: rest) := by
      rw [bytes, List.take_length_add_append, Nat.add_comm 1 rest.length, ← List.length_cons (a := d),
        List.take_left]
    rw [kept, List.append_assoc, List.append_assoc] at bytes'
    exact CharArray.text_eq bytes' fun member => visible _ member rfl
  refine ⟨line', ?_⟩
  unfold includeFile
  rw [if_neg (not_le.mpr room)]
  dsimp only
  rw [line, command, List.append_assoc, strchr_include]
  dsimp only
  rw [skipped]
  dsimp only
  rw [scanned]
  dsimp only
  rw [place, stored]
  dsimp only
  rw [if_neg (by rw [List.length_cons] at long; omega), named']

end Mkconfig

/-! ### The files and their text -/

structure Reading where
  comment : Bool
  output : List ConfigLine
  status : Status

def Reading.line (r : Reading) (l : TextLine) : Reading :=
  if r.status ≠ .running then r
  else
    match l.processed r.comment with
    | none => { r with status := .undefined }
    | some .exited => { r with status := .exited 3 }
    | some (.returned comment printed) => { r with comment, output := r.output ++ printed.toList }

def Reading.lines (r : Reading) (lines : List TextLine) : Reading := lines.foldl Reading.line r

def Reading.ended (r : Reading) : Reading := if r.status = .running then { r with status := .exited 0 } else r

theorem Reading.lines_stopped {r : Reading} (stopped : r.status ≠ .running) (lines : List TextLine) :
    r.lines lines = r := by
  induction lines with
  | nil => rfl
  | cons l rest ih =>
    have same : r.line l = r := if_pos stopped
    rw [Reading.lines, List.foldl_cons, same]
    exact ih

/-- The lines come to the text when each include is replaced by what its file comes to. There is room for so many files
more; where there is none, an include is skipped. -/
inductive Expands (files : List U8 → Option (List U8)) : Nat → List TextLine → List TextLine → Prop
  | nil {d : Nat} : Expands files d [] []
  | line {d : Nat} {l : TextLine} {rest flat : List TextLine} (other : ¬ includeCommand <+: l.text) :
      Expands files d rest flat → Expands files d (l :: rest) (l :: flat)
  | file {d : Nat} {l : TextLine} {name : List U8} {content inner rest flat : List TextLine} (includes : Includes l name)
      (given : files name = some (textOf content)) :
      Expands files d content inner → Expands files (d + 1) rest flat → Expands files (d + 1) (l :: rest) (inner ++ flat)
  | full {l : TextLine} {rest flat : List TextLine} (command : includeCommand <+: l.text) :
      Expands files 0 rest flat → Expands files 0 (l :: rest) flat

variable {files : List U8 → Option (List U8)}

theorem Expands.others {d : Nat} {lines flat : List TextLine} (expands : Expands files d lines flat) :
    ∀ l ∈ flat, ¬ includeCommand <+: l.text := by
  induction expands with
  | nil => exact nofun
  | line other _ ih =>
    intro l member
    obtain rfl | later := List.mem_cons.mp member
    · exact other
    · exact ih l later
  | file _ _ _ _ ihInner ih =>
    intro l member
    obtain inside | later := List.mem_append.mp member
    · exact ihInner l inside
    · exact ih l later
  | full _ _ ih => exact ih

theorem expands_others {flat : List TextLine} (others : ∀ l ∈ flat, ¬ includeCommand <+: l.text) (d : Nat) :
    Expands files d flat flat := by
  induction flat with
  | nil => exact .nil
  | cons l rest ih => exact .line (others l List.mem_cons_self) (ih fun l' member => others l' (List.mem_cons_of_mem _ member))

/-- Every file is text, and its includes name files. -/
def WellFormed (files : List U8 → Option (List U8)) : Prop :=
  ∀ name content, files name = some content → ∃ lines, content = textOf lines ∧
    ∀ l ∈ lines, includeCommand <+: l.text → ∃ name', Includes l name' ∧ (files name').isSome

/-- Such files come to a text, also when they include each other in a circle. -/
theorem expands_exists (wellFormed : WellFormed files) (d : Nat) :
    ∀ lines : List TextLine, (∀ l ∈ lines, includeCommand <+: l.text → ∃ name, Includes l name ∧ (files name).isSome) →
      ∃ flat, Expands files d lines flat := by
  induction d with
  | zero =>
    intro lines includes
    induction lines with
    | nil => exact ⟨[], .nil⟩
    | cons l rest ih =>
      obtain ⟨flat, expands⟩ := ih fun l' member => includes l' (List.mem_cons_of_mem _ member)
      by_cases command : includeCommand <+: l.text
      · exact ⟨flat, .full command expands⟩
      · exact ⟨l :: flat, .line command expands⟩
  | succ d ihDepth =>
    intro lines includes
    induction lines with
    | nil => exact ⟨[], .nil⟩
    | cons l rest ih =>
      obtain ⟨flat, expands⟩ := ih fun l' member => includes l' (List.mem_cons_of_mem _ member)
      by_cases command : includeCommand <+: l.text
      · obtain ⟨name, named, there⟩ := includes l List.mem_cons_self command
        obtain ⟨content, given⟩ := Option.isSome_iff_exists.mp there
        obtain ⟨inner, rfl, further⟩ := wellFormed name content given
        obtain ⟨flat', within⟩ := ihDepth inner further
        exact ⟨flat' ++ flat, .file named given within expands⟩
      · exact ⟨l :: flat, .line command expands⟩

namespace Mkconfig

variable {s s' s'' : Mkconfig} {f : Nat}

def reading (s : Mkconfig) : Reading := ⟨s.comment, s.output, s.status⟩

structure Top (s : Mkconfig) (f : Nat) : Prop where
  running : s.status = .running
  high : 0 ≤ s.mkindex
  top : s.mkfile s.mkindex.toNat = some f
  open_ : (s.streams f).closed = 0
  old : f < s.opened

/-- The stack is the same up to its top, and so are the streams below it. -/
structure Frame (f : Nat) (s s' : Mkconfig) : Prop where
  mkindex : s'.mkindex = s.mkindex
  mkfile : ∀ i : Nat, (i : Int) ≤ s.mkindex → s'.mkfile i = s.mkfile i
  opened : s.opened ≤ s'.opened
  streams : ∀ g, g < s.opened → g ≠ f → s'.streams g = s.streams g

theorem Frame.refl (f : Nat) (s : Mkconfig) : Frame f s s :=
  ⟨rfl, fun _ _ => rfl, le_refl _, fun _ _ _ => rfl⟩

theorem Frame.trans (first : Frame f s s') (second : Frame f s' s'') : Frame f s s'' where
  mkindex := second.mkindex.trans first.mkindex
  mkfile i low := (second.mkfile i (by rw [first.mkindex]; exact low)).trans (first.mkfile i low)
  opened := first.opened.trans second.opened
  streams g old other := (second.streams g (old.trans_le first.opened) other).trans (first.streams g old other)

theorem Top.frame (top : Top s f) (frame : Frame f s s') (running : s'.status = .running)
    (open_ : (s'.streams f).closed = 0) : Top s' f where
  running := running
  high := by rw [frame.mkindex]; exact top.high
  top := by
    rw [frame.mkindex, frame.mkfile _ (by rw [Int.toNat_of_nonneg top.high])]
    exact top.top
  open_ := open_
  old := top.old.trans_le frame.opened

structure ReadTo (f : Nat) (flat : List TextLine) (s s' : Mkconfig) : Prop where
  reading : s'.reading = s.reading.lines flat
  frame : s'.status = .running → Frame f s s'
  rest : s'.status = .running → s'.streams f = { s.streams f with content := [] }

/-- A line that is not an include. -/
theorem step_other (top : Top s f) {l : TextLine} {rest : List U8} (content : (s.streams f).content = l.text ++ rest)
    (other : ¬ includeCommand <+: l.text) :
    (s.step files).reading = s.reading.line l ∧
      ((s.step files).status = .running →
        Frame f s (s.step files) ∧ (s.step files).streams f = { s.streams f with content := rest }) := by
  obtain ⟨line', x, read, bytes⟩ := fgets_text s.line l rest
  rw [← content] at read
  have plain : ¬ includeCommand <+: line'.bytes := by rwa [bytes, command_prefix_iff]
  rw [step_line top.running top.high top.top top.open_ read, if_neg plain]
  have processed : processLine (s.afterRead f line' rest).comment (s.afterRead f line' rest).line.bytes =
      l.processed s.comment := by
    show processLine s.comment line'.bytes = _
    rw [bytes, processLine_text]
  have frame : Frame f s (s.afterRead f line' rest) := by
    refine ⟨rfl, fun _ _ => rfl, le_refl _, fun g _ other => ?_⟩
    exact Function.update_of_ne other _ _
  have own : (s.afterRead f line' rest).streams f = { s.streams f with content := rest } := Function.update_self _ _ _
  have going : ¬ s.reading.status ≠ .running := not_not.mpr top.running
  rw [otherLine, processed, Reading.line, if_neg going]
  have comment : s.reading.comment = s.comment := rfl
  rw [comment]
  cases l.processed s.comment with
  | none => exact ⟨rfl, nofun⟩
  | some result =>
    cases result with
    | exited => exact ⟨rfl, nofun⟩
    | returned comment printed => exact ⟨rfl, fun _ => ⟨⟨frame.1, frame.2, frame.3, frame.4⟩, own⟩⟩

theorem step_full (top : Top s f) {l : TextLine} {rest : List U8} (content : (s.streams f).content = l.text ++ rest)
    (command : includeCommand <+: l.text) (full : s.mkindex + 1 = maxNFiles) :
    (s.step files).reading = s.reading ∧ Frame f s (s.step files) ∧
      (s.step files).streams f = { s.streams f with content := rest } := by
  obtain ⟨line', x, read, bytes⟩ := fgets_text s.line l rest
  rw [← content] at read
  have include_ : includeCommand <+: line'.bytes := by rwa [bytes, command_prefix_iff]
  have skips : s.step files = s.afterRead f line' rest := by
    rw [step_line top.running top.high top.top top.open_ read, if_pos include_, includeFile]
    exact if_pos full.ge
  rw [skips]
  exact ⟨rfl, ⟨rfl, fun _ _ => rfl, le_refl _, fun g _ other => Function.update_of_ne other _ _⟩,
    Function.update_self _ _ _⟩

/-- The file that an include names is put on top of the stack. -/
theorem step_include (top : Top s f) {l : TextLine} {rest content : List U8} {name : List U8}
    (line : (s.streams f).content = l.text ++ rest) (includes : Includes l name) (given : files name = some content)
    (room : s.mkindex + 1 < maxNFiles) :
    (s.step files).reading = s.reading ∧ Top (s.step files) s.opened ∧ (s.step files).mkindex = s.mkindex + 1 ∧
      (s.step files).opened = s.opened + 1 ∧ ((s.step files).streams s.opened).content = content ∧
      (∀ i : Nat, (i : Int) ≤ s.mkindex → (s.step files).mkfile i = s.mkfile i) ∧
      (s.step files).streams f = { s.streams f with content := rest } ∧
      ∀ g, g < s.opened → g ≠ f → (s.step files).streams g = s.streams g := by
  obtain ⟨line', x, read, bytes⟩ := fgets_text s.line l rest
  rw [← line] at read
  have include_ : includeCommand <+: line'.bytes := by
    obtain ⟨t, _, _, command, _⟩ := includes
    rw [bytes, command, List.append_assoc]
    exact List.prefix_append _ _
  obtain ⟨line'', opens⟩ := includeFile_includes (f := f) (s := s.afterRead f line' rest) includes bytes
    room
  rw [step_line top.running top.high top.top top.open_ read, if_pos include_, opens, given]
  have high := top.high
  have new : (({ s.afterRead f line' rest with line := line'', mkindex := s.mkindex + 1 } : Mkconfig).fopen
      (some content) (some f)).streams s.opened = ⟨content, 0, some f⟩ := Function.update_self _ _ _
  refine ⟨rfl, ⟨top.running, ?_, ?_, ?_, Nat.lt_succ_self _⟩, rfl, rfl, ?_, fun i low => ?_, ?_, fun g old other => ?_⟩
  · show 0 ≤ s.mkindex + 1
    omega
  · exact Function.update_self _ _ _
  · exact congrArg Stream.closed new
  · exact congrArg Stream.content new
  · have below : i ≠ (s.mkindex + 1).toNat := by omega
    exact Function.update_of_ne below _ _
  · refine (Function.update_of_ne top.old.ne _ _).trans ?_
    exact Function.update_self _ _ _
  · refine (Function.update_of_ne old.ne _ _).trans ?_
    exact Function.update_of_ne other _ _

/-- At the end of a file the one below it goes on. -/
theorem step_end (top : Top s f) (ended : (s.streams f).content = []) :
    (s.step files).reading = s.reading ∧ (s.step files).mkindex = s.mkindex - 1 ∧
      (s.step files).mkfile = s.mkfile ∧ (s.step files).opened = s.opened ∧
      ∀ g, g ≠ f → (s.step files).streams g = s.streams g := by
  have read : fgets s.line (s.streams f).content = none := by rw [ended]; rfl
  rw [step_close top.running top.high top.top top.open_ read]
  exact ⟨rfl, rfl, rfl, rfl, fun g other => Function.update_of_ne other _ _⟩

theorem step_empty (running : s.status = .running) (low : s.mkindex < 0) : s.step files = s.exit 0 := by
  unfold step
  rw [if_neg (not_not.mpr running), if_pos low]

/-- The lines of a file are read, and those of the files it includes in their places. -/
theorem expands_run {d : Nat} {lines flat : List TextLine} (expands : Expands files d lines flat) {s : Mkconfig} {f : Nat}
    (top : Top s f) (depth : s.mkindex + 1 + d = maxNFiles) (content : (s.streams f).content = textOf lines) :
    ∃ n, ReadTo f flat s ((step files)^[n] s) := by
  induction expands generalizing s f with
  | nil =>
    refine ⟨0, rfl, fun _ => .refl f s, fun _ => ?_⟩
    rw [← show (s.streams f).content = [] from content]
    rfl
  | @line d l rest flat other _ ih =>
    obtain ⟨read, kept⟩ := step_other top content other
    by_cases running : (s.step files).status = .running
    · obtain ⟨frame, own⟩ := kept running
      have top' := top.frame frame running (by rw [own]; exact top.open_)
      obtain ⟨n, later⟩ := ih top' (by rw [frame.mkindex]; exact depth) (by rw [own]; rfl)
      refine ⟨n + 1, ?_, fun running => ?_, fun running => ?_⟩
      · rw [Function.iterate_succ_apply, later.reading, read]
        rfl
      · rw [Function.iterate_succ_apply] at running ⊢
        exact frame.trans (later.frame running)
      · rw [Function.iterate_succ_apply] at running ⊢
        rw [later.rest running, own]
    · refine ⟨1, ?_, fun still => absurd still running, fun still => absurd still running⟩
      have stopped : (s.reading.line l).status ≠ .running := by rw [← read]; exact running
      rw [Function.iterate_one, read]
      exact (Reading.lines_stopped stopped flat).symm
  | @full l rest flat command _ ih =>
    obtain ⟨read, frame, own⟩ := step_full top content command (by omega)
    have running : (s.step files).status = .running := by
      have same := congrArg Reading.status read
      exact same.trans top.running
    have top' := top.frame frame running (by rw [own]; exact top.open_)
    obtain ⟨n, later⟩ := ih top' (by rw [frame.mkindex]; exact depth) (by rw [own]; rfl)
    refine ⟨n + 1, ?_, fun running => ?_, fun running => ?_⟩
    · rw [Function.iterate_succ_apply, later.reading, read]
    · rw [Function.iterate_succ_apply] at running ⊢
      exact frame.trans (later.frame running)
    · rw [Function.iterate_succ_apply] at running ⊢
      rw [later.rest running, own]
  | @file d l name content' inner rest flat includes given _ _ ihInner ih =>
    obtain ⟨read₁, top₁, index₁, opened₁, content₁, mkfile₁, own₁, others₁⟩ :=
      step_include top content includes given (by omega)
    obtain ⟨n, within⟩ := ihInner top₁ (by omega) content₁
    by_cases running : ((step files)^[n] (s.step files)).status = .running
    · -- the included file is closed, and the rest of this one goes on
      have frame := within.frame running
      have own := within.rest running
      have top₂ := top₁.frame frame running (by rw [own]; exact top₁.open_)
      obtain ⟨read₃, index₃, mkfile₃, opened₃, others₃⟩ := step_end top₂ (by rw [own])
      have whole : Frame f s (step files ((step files)^[n] (s.step files))) := by
        refine ⟨?_, fun i low => ?_, ?_, fun g old other => ?_⟩
        · rw [index₃, frame.mkindex, index₁, Int.add_sub_cancel]
        · rw [mkfile₃, frame.mkfile i (by omega), mkfile₁ i low]
        · rw [opened₃]
          exact (by omega : s.opened ≤ (s.step files).opened).trans frame.opened
        · rw [others₃ g old.ne, frame.streams g (by omega) old.ne, others₁ g old other]
      have below : (step files ((step files)^[n] (s.step files))).streams f =
          { s.streams f with content := textOf rest } := by
        have old := top.old
        rw [others₃ f old.ne, frame.streams f (by omega) old.ne, own₁]
        rfl
      have reading : (step files ((step files)^[n] (s.step files))).reading = s.reading.lines inner := by
        rw [read₃, within.reading, read₁]
      have running₃ : (step files ((step files)^[n] (s.step files))).status = .running :=
        (congrArg Reading.status read₃).trans running
      obtain ⟨m, later⟩ := ih (top.frame whole running₃ (by rw [below]; exact top.open_))
        (by rw [whole.mkindex]; exact depth) (by rw [below])
      refine ⟨m + 1 + n + 1, ?_⟩
      rw [Function.iterate_succ_apply, Function.iterate_add_apply, Function.iterate_succ_apply]
      refine ⟨?_, fun running => whole.trans (later.frame running), fun running => ?_⟩
      · rw [later.reading, reading, Reading.lines, Reading.lines, Reading.lines, List.foldl_append]
      · rw [later.rest running, below]
    · refine ⟨n + 1, ?_⟩
      rw [Function.iterate_succ_apply]
      have stopped : (s.reading.lines inner).status ≠ .running := by
        rw [← read₁, ← within.reading]
        exact running
      refine ⟨?_, fun still => absurd still running, fun still => absurd still running⟩
      rw [within.reading, read₁, Reading.lines, Reading.lines, List.foldl_append]
      exact (Reading.lines_stopped stopped flat).symm

/-! ### Whole runs -/

def EndsWith (files : List U8 → Option (List U8)) (s : Mkconfig) (r : Reading) : Prop :=
  ∃ n, ((step files)^[n] s).reading = r ∧ r.status ≠ .running

def nothingRead : Reading := ⟨false, [], .running⟩

theorem run_ends {lines flat : List TextLine} {main : List U8} (given : files main = some (textOf lines))
    (expands : Expands files (maxNFiles - 1) lines flat) (line : CharArray lineSize) :
    EndsWith files (start files (some main) line) (nothingRead.lines flat).ended := by
  have top : Top (start files (some main) line) 0 := by
    unfold start
    dsimp only
    rw [given]
    exact ⟨rfl, le_refl 0, rfl, rfl, Nat.zero_lt_one⟩
  have content : ((start files (some main) line).streams 0).content = textOf lines := by
    unfold start
    dsimp only
    rw [given]
    rfl
  have reading : (start files (some main) line).reading = nothingRead := by
    unfold start
    dsimp only
    rw [given]
    rfl
  have index : (start files (some main) line).mkindex = 0 := by
    unfold start
    dsimp only
    rw [given]
    rfl
  obtain ⟨n, read⟩ := expands_run expands top (by rw [index]; rfl) content
  have result := read.reading
  rw [reading] at result
  by_cases running : ((step files)^[n] (start files (some main) line)).status = .running
  · -- the main file is closed, and the loop ends
    have own := read.rest running
    have top' := top.frame (read.frame running) running (by rw [own]; exact top.open_)
    obtain ⟨read', index', _⟩ := step_end top' (by rw [own])
    have running' := (congrArg Reading.status read').trans running
    have ends : step files (step files ((step files)^[n] (start files (some main) line))) =
        (step files ((step files)^[n] (start files (some main) line))).exit 0 := by
      have low : (step files ((step files)^[n] (start files (some main) line))).mkindex < 0 := by
        rw [index', (read.frame running).mkindex, index]
        decide
      exact step_empty running' low
    have going : (nothingRead.lines flat).status = .running := by
      rw [← result]
      exact running
    refine ⟨2 + n, ?_, ?_⟩
    · rw [Function.iterate_add_apply, show (2 : Nat) = 1 + 1 from rfl, Function.iterate_succ_apply,
        Function.iterate_one, ends, Reading.ended, if_pos going, ← result, ← read']
      rfl
    · rw [Reading.ended, if_pos going]
      exact nofun
  · have stopped : (nothingRead.lines flat).status ≠ .running := by
      rw [← result]
      exact running
    refine ⟨n, ?_, ?_⟩
    · rw [result, Reading.ended, if_neg stopped]
    · rwa [Reading.ended, if_neg stopped]

/-- Files that are text and whose includes name files, in a circle or not, come to one text: a run on the main file and
a run on that text, wherever it is kept, both end, with the same output and the same status. -/
theorem include_flattens (wellFormed : WellFormed files) {main content : List U8} (given : files main = some content)
    (line : CharArray lineSize) :
    ∃ lines flat, content = textOf lines ∧ Expands files (maxNFiles - 1) lines flat ∧
      ∃ r, EndsWith files (start files (some main) line) r ∧
        ∀ files' main' line', files' main' = some (textOf flat) → EndsWith files' (start files' (some main') line') r := by
  obtain ⟨lines, rfl, includes⟩ := wellFormed main content given
  obtain ⟨flat, expands⟩ := expands_exists wellFormed (maxNFiles - 1) lines includes
  refine ⟨lines, flat, rfl, expands, _, run_ends given expands line, fun files' main' line' given' => ?_⟩
  exact run_ends given' (expands_others expands.others _) line'

def includeSelf : TextLine := ⟨includeCommand ++ [0x6D#8, 0x6B#8], by decide, by decide⟩

def oneSetting : TextLine := ⟨[0x41#8, 0x3D#8, 0x31#8], by decide, by decide⟩

def circle (name : List U8) : Option (List U8) :=
  if name = [0x6D#8, 0x6B#8] then some (textOf [includeSelf, oneSetting]) else none

theorem circle_wellFormed : WellFormed circle := by
  intro name content given
  unfold circle at given
  split at given
  · cases given
    refine ⟨[includeSelf, oneSetting], rfl, fun l member command => ⟨[0x6D#8, 0x6B#8], ?_, rfl⟩⟩
    obtain rfl | rfl := by simpa using member
    · exact ⟨[0x6D#8, 0x6B#8, newline], newline, [], rfl, by decide, by decide, by decide, by decide⟩
    · exact absurd command (by decide)
  · cases given

theorem include_flattens_circle :
    ∃ lines flat, textOf [includeSelf, oneSetting] = textOf lines ∧ Expands circle (maxNFiles - 1) lines flat ∧
      ∃ r, EndsWith circle (start circle (some [0x6D#8, 0x6B#8]) blankLine) r ∧
        ∀ files' main' line', files' main' = some (textOf flat) → EndsWith files' (start files' (some main') line') r :=
  include_flattens circle_wellFormed rfl blankLine

end Mkconfig

end TwinpassGateway.Build
