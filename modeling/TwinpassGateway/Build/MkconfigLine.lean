import TwinpassGateway.Foundation.CharArray

/-!
`process_line` and `get_token` of `mkconfig.c`. A pointer into the line is what is left of its buffer from there on, and a
read behind the buffer is undefined.
-/

namespace TwinpassGateway.Build

open Foundation

def lineSize : Nat := 256

def star : U8 := 0x2A#8

def slash : U8 := 0x2F#8

def hash : U8 := 0x23#8

def equals : U8 := 0x3D#8

def newline : U8 := 0x0A#8

def yText : List U8 := [0x79#8]

def yesText : List U8 := [0x79#8, 0x65#8, 0x73#8]

def mText : List U8 := [0x6D#8]

def noText : List U8 := [0x6E#8, 0x6F#8]

def oneText : List U8 := [0x31#8]

def moduleText : List U8 := [0x5F#8, 0x4D#8, 0x4F#8, 0x44#8, 0x55#8, 0x4C#8, 0x45#8]

/-- The search for the end of a comment: whether it is found, and the rest behind it or from the newline on. -/
def commentEnd : List U8 → Option (Bool × List U8)
  | [] => none
  | [c] => if c = newline then some (false, [c]) else none
  | c :: d :: rest =>
    if c = newline then some (false, c :: d :: rest)
    else if c = star ∧ d = slash then some (true, rest)
    else commentEnd (d :: rest)

/-- `while (*line && isspace(*line)) line++`. -/
def skipSpaces : List U8 → Option (List U8)
  | [] => none
  | c :: rest => if isspace c then skipSpaces rest else some (c :: rest)

/-- What `get_token` returns: the characters in its buffer, and the new `*pline` where it sets it. -/
inductive Token where
  | ret (chars line : List U8)
  /-- A newline in a comment, with `*state` 1. -/
  | comment (chars : List U8)
  /-- The null pointer, with `*state` -1. -/
  | err
  deriving DecidableEq

/-- The label `ret`. The buffer was cleared, so that its characters end with a NUL. -/
def tokenRet (chars line : List U8) : Option Token :=
  if chars.length + 1 < lineSize then some (.ret chars line) else none

/-- The loop of `get_token`, in a comment or not. -/
def getToken (tokNum : Nat) : Bool → List U8 → List U8 → Option Token
  | _, [], _ => none
  | true, [c], buf => if c = newline then some (.comment buf) else none
  | true, c :: d :: rest, buf =>
    if c = newline then some (.comment buf)
    else if c = star ∧ d = slash then getToken tokNum false rest buf
    else getToken tokNum true (d :: rest) buf
  | false, c :: rest, buf =>
    if c = 0#8 ∨ c = hash then tokenRet buf (c :: rest)
    else if c = slash ∧ rest = [] then none
    else if c = slash ∧ rest.head? = some star then getToken tokNum true rest buf
    else if tokNum = 1 ∧ (c = 0x20#8 ∨ c = 0x09#8 ∨ c = newline) then
      (skipSpaces (c :: rest)).bind fun line => if line.head? = some equals then tokenRet buf line else some .err
    else if tokNum = 2 ∧ c = newline then tokenRet buf (c :: rest)
    else if tokNum = 1 ∧ c = equals then
      (skipSpaces rest).bind fun line => if line.head? = some 0#8 then some .err else tokenRet buf line
    else if buf.length < lineSize then getToken tokNum false rest (buf ++ [c])
    else none

inductive ConfigLine where
  | define (name value : List U8)
  | undef (name : List U8)
  deriving DecidableEq

/-- How `process_line` ends: it returns with `state` and what it has printed, or it exits with the status 3. -/
inductive Processed where
  | returned (state : Bool) (printed : Option ConfigLine)
  | exited
  deriving DecidableEq

def printTokens (state : Bool) (name value : List U8) : Option Processed :=
  if value = [] then some .exited
  else if value = yText ∨ value = yesText then some (.returned state (some (.define name oneText)))
  else if value = mText then
    -- `strcat` writes the NUL too
    if name.length + moduleText.length < lineSize then
      some (.returned state (some (.define (name ++ moduleText) oneText)))
    else none
  else if value = noText then some (.returned state (some (.undef name)))
  else some (.returned state (some (.define name value)))

/-- `process_line` behind its second `get_token`. -/
def withValue (name : List U8) : Token → Option Processed
  | .err => some .exited
  | .comment value => printTokens true name value
  | .ret value _ => printTokens false name value

/-- `process_line` behind its first `get_token`. -/
def withName : Token → Option Processed
  | .err => some .exited
  | .comment name => if name = [] then some (.returned true none) else some .exited
  | .ret name line =>
    if name = [] then some (.returned false none) else (getToken 2 false line []).bind (withValue name)

def leaveComment (state : Bool) (line : List U8) : Option (Bool × List U8) :=
  if state then (commentEnd line).map fun (closed, line) => (!closed, line) else some (false, line)

/-- `process_line`; `none` when it leaves a buffer. -/
def processLine (state : Bool) (line : List U8) : Option Processed :=
  (leaveComment state line).bind fun (state, line) =>
    match line with
    | [] => none
    | c :: _ =>
      if c = 0#8 ∨ c = hash ∨ c = newline ∨ state = true then some (.returned state none)
      else (getToken 1 false line []).bind withName

/-! ### Words -/

def nameEnd (c : U8) : Bool := c = 0#8 ∨ c = hash ∨ c = 0x20#8 ∨ c = 0x09#8 ∨ c = newline ∨ c = equals

def valueEnd (c : U8) : Bool := c = 0#8 ∨ c = hash ∨ c = newline

/-- A buffer starts with a word: its characters without the comments, and where it stops, if not in a comment at a
newline. -/
inductive Word (stop : U8 → Bool) : List U8 → List U8 → Option (List U8) → Prop
  | stops {c : U8} {s : List U8} (end_ : stop c = true) : Word stop (c :: s) [] (some (c :: s))
  | char {c : U8} {s chars : List U8} {rest : Option (List U8)} (inside : stop c = false)
      (plain : c = slash → s ≠ [] ∧ s.head? ≠ some star) (word : Word stop s chars rest) :
      Word stop (c :: s) (c :: chars) rest
  | comment {s s' chars : List U8} {rest : Option (List U8)} (closed : commentEnd (star :: s) = some (true, s'))
      (word : Word stop s' chars rest) : Word stop (slash :: star :: s) chars rest
  | broken {s s' : List U8} (open_ : commentEnd (star :: s) = some (false, s')) : Word stop (slash :: star :: s) [] none

/-- What follows a name: the white space, or an `=` and white space, is skipped. -/
def valueStart : List U8 → List U8
  | [] => []
  | c :: s => if c = equals then s.dropWhile isspace else (c :: s).dropWhile isspace

/-- Whether the second token is looked for behind a name. -/
def hasValue : List U8 → Bool
  | [] => false
  | c :: s =>
    if c = 0#8 ∨ c = hash then true
    else if c = equals then (valueStart (c :: s)).head? ≠ some 0#8
    else (valueStart (c :: s)).head? = some equals

/-- The line needs nothing behind its buffer and has room for its tokens: an open comment ends in the buffer and not at its
end; the name and the value are words in it, with the comments in them; and the name has no more than 254 characters, or 248
when `_MODULE` is put behind it. -/
def Fits (state : Bool) (line : List U8) : Prop :=
  ∃ inComment rest, leaveComment state line = some (inComment, rest) ∧ ∃ c s, rest = c :: s ∧
    (c = 0#8 ∨ c = hash ∨ c = newline ∨ inComment = true ∨
      ∃ name stop, Word nameEnd rest name stop ∧ ∀ behind, stop = some behind →
        name.length ≤ 254 ∧ valueStart behind ≠ [] ∧
          (name ≠ [] → hasValue behind = true → ∃ value stop', Word valueEnd (valueStart behind) value stop' ∧
            (value = mText → name.length ≤ 248)))

/-! ### Comments -/

theorem commentEnd_short {b : Bool} {s' : List U8} :
    ∀ {s : List U8}, commentEnd s = some (b, s') → s'.length ≤ s.length
  | [], found => nomatch found
  | [c], found => by
    unfold commentEnd at found
    split at found
    · cases found
      exact Nat.le_refl _
    · cases found
  | c :: d :: rest, found => by
    unfold commentEnd at found
    split at found
    · cases found
      exact Nat.le_refl _
    · split at found
      · cases found
        exact Nat.le_add_right _ 2
      · exact (commentEnd_short found).trans (Nat.le_succ _)

/-- A comment goes on to the end of the buffer exactly if there is neither a newline nor the end of a comment. -/
theorem commentEnd_none_iff : ∀ s : List U8, commentEnd s = none ↔ newline ∉ s ∧ ¬ [star, slash] <:+: s
  | [] => iff_of_true rfl ⟨List.not_mem_nil, by decide⟩
  | [c] => by
    have alone : ¬ [star, slash] <:+: [c] := fun part => absurd part.length_le (show ¬ 2 ≤ 1 by decide)
    unfold commentEnd
    by_cases nl : c = newline
    · rw [if_pos nl]
      exact iff_of_false nofun fun ⟨without, _⟩ => without (by rw [nl]; exact List.mem_singleton_self _)
    · rw [if_neg nl]
      exact iff_of_true rfl ⟨fun member => nl (List.mem_singleton.mp member).symm, alone⟩
  | c :: d :: rest => by
    unfold commentEnd
    by_cases nl : c = newline
    · rw [if_pos nl]
      exact iff_of_false nofun fun ⟨without, _⟩ => without (by rw [nl]; exact List.mem_cons_self)
    · rw [if_neg nl]
      by_cases close : c = star ∧ d = slash
      · rw [if_pos close]
        refine iff_of_false nofun fun ⟨_, without⟩ => without ?_
        rw [close.1, close.2]
        exact (List.prefix_append [star, slash] rest).isInfix
      · have first : ¬ [star, slash] <+: c :: d :: rest := by
          intro starts
          obtain ⟨same, starts⟩ := List.cons_prefix_cons.mp starts
          exact close ⟨same.symm, (List.cons_prefix_cons.mp starts).1.symm⟩
        have other : newline ≠ c := fun same => nl same.symm
        have mem : newline ∈ c :: d :: rest ↔ newline ∈ d :: rest := List.mem_cons.trans (or_iff_right other)
        have part : [star, slash] <:+: c :: d :: rest ↔ [star, slash] <:+: d :: rest :=
          List.infix_cons_iff.trans (or_iff_right first)
        rw [if_neg close, commentEnd_none_iff (d :: rest), mem, part]

theorem getToken_comment (tokNum : Nat) (buf : List U8) :
    ∀ s : List U8, getToken tokNum true s buf =
      match commentEnd s with
      | none => none
      | some (false, _) => some (.comment buf)
      | some (true, s') => getToken tokNum false s' buf
  | [] => rfl
  | [c] => by
    rw [getToken, commentEnd]
    split <;> rfl
  | c :: d :: rest => by
    rw [getToken, commentEnd]
    split
    · rfl
    · split
      · rfl
      · exact getToken_comment tokNum buf (d :: rest)

/-! ### Tokens -/

def tokenEnd (tokNum : Nat) : U8 → Bool := if tokNum = 1 then nameEnd else valueEnd

def atEnd (tokNum : Nat) (buf : List U8) : List U8 → Option Token
  | [] => none
  | c :: s =>
    if c = 0#8 ∨ c = hash then tokenRet buf (c :: s)
    else if tokNum ≠ 1 then tokenRet buf (c :: s)
    else if c = equals then
      (skipSpaces s).bind fun line => if line.head? = some 0#8 then some .err else tokenRet buf line
    else (skipSpaces (c :: s)).bind fun line => if line.head? = some equals then tokenRet buf line else some .err

def atStop (tokNum : Nat) (buf : List U8) : Option (List U8) → Option Token
  | none => some (.comment buf)
  | some s => atEnd tokNum buf s

section Tokens

variable {tokNum : Nat} {line chars buf : List U8} {rest : Option (List U8)}

theorem getToken_end (known : tokNum = 1 ∨ tokNum = 2) {c : U8} {s : List U8} (end_ : tokenEnd tokNum c = true) :
    getToken tokNum false (c :: s) buf = atEnd tokNum buf (c :: s) := by
  rw [getToken, atEnd]
  by_cases stop : c = 0#8 ∨ c = hash
  · rw [if_pos stop, if_pos stop]
  · rw [if_neg stop, if_neg stop]
    have notSlash : c ≠ slash := by
      rintro rfl
      obtain rfl | rfl := known <;> exact absurd end_ (by decide)
    rw [if_neg fun h => notSlash h.1, if_neg fun h => notSlash h.1]
    obtain rfl | rfl := known
    · by_cases space : c = 0x20#8 ∨ c = 0x09#8 ∨ c = newline
      · have other : c ≠ equals := by rintro rfl; exact absurd space (by decide)
        rw [if_pos ⟨rfl, space⟩, if_neg (by decide), if_neg other]
      · have equal : c = equals := by
          have kinds : c = 0#8 ∨ c = hash ∨ c = 0x20#8 ∨ c = 0x09#8 ∨ c = newline ∨ c = equals := of_decide_eq_true end_
          tauto
        rw [if_neg fun h => space h.2, if_neg (fun h => nomatch h.1), if_neg (show ¬ 1 ≠ 1 by decide), if_pos equal,
          if_pos (show 1 = 1 ∧ c = equals from ⟨rfl, equal⟩)]
    · have nl : c = newline := by
        have kinds : c = 0#8 ∨ c = hash ∨ c = newline := of_decide_eq_true end_
        tauto
      rw [if_neg (fun h => nomatch h.1), if_pos (show 2 = 2 ∧ c = newline from ⟨rfl, nl⟩),
        if_pos (show 2 ≠ 1 by decide)]

theorem getToken_char (known : tokNum = 1 ∨ tokNum = 2) {c : U8} {s : List U8} (inside : tokenEnd tokNum c = false)
    (plain : c = slash → s ≠ [] ∧ s.head? ≠ some star) (room : buf.length < lineSize) :
    getToken tokNum false (c :: s) buf = getToken tokNum false s (buf ++ [c]) := by
  have kinds : c ≠ 0#8 ∧ c ≠ hash ∧ c ≠ newline ∧ (tokNum = 1 → c ≠ 0x20#8 ∧ c ≠ 0x09#8 ∧ c ≠ equals) := by
    obtain rfl | rfl := known
    · have none_ := of_decide_eq_false inside
      push Not at none_
      exact ⟨none_.1, none_.2.1, none_.2.2.2.2.1, fun _ => ⟨none_.2.2.1, none_.2.2.2.1, none_.2.2.2.2.2⟩⟩
    · have none_ := of_decide_eq_false inside
      push Not at none_
      exact ⟨none_.1, none_.2.1, none_.2.2, nofun⟩
  obtain ⟨visible, comment, sameLine, name⟩ := kinds
  rw [getToken, if_neg fun h => h.elim visible comment, if_neg fun h => (plain h.1).1 h.2,
    if_neg fun h => (plain h.1).2 h.2, if_neg ?_, if_neg fun h => sameLine h.2, if_neg fun h => (name h.1).2.2 h.2,
    if_pos room]
  rintro ⟨first, space | tab | nl⟩
  · exact (name first).1 space
  · exact (name first).2.1 tab
  · exact sameLine nl

theorem getToken_slash (known : tokNum = 1 ∨ tokNum = 2) : getToken tokNum false [slash] buf = none := by
  obtain rfl | rfl := known <;> rfl

theorem getToken_opens (s : List U8) : getToken tokNum false (slash :: star :: s) buf = getToken tokNum true (star :: s) buf := by
  rw [getToken, if_neg (by decide), if_neg nofun, if_pos ⟨rfl, rfl⟩]

theorem getToken_word (known : tokNum = 1 ∨ tokNum = 2) (word : Word (tokenEnd tokNum) line chars rest)
    (room : buf.length + line.length ≤ lineSize) :
    getToken tokNum false line buf = atStop tokNum (buf ++ chars) rest := by
  induction word generalizing buf with
  | stops end_ =>
    rw [List.append_nil]
    exact getToken_end known end_
  | @char c s chars rest inside plain word ih =>
    rw [List.length_cons] at room
    rw [getToken_char known inside plain (by omega), ih (by rw [List.length_append, List.length_singleton]; omega),
      List.append_assoc, List.singleton_append]
  | @comment s s' chars rest closed word ih =>
    have shorter := commentEnd_short closed
    simp only [List.length_cons] at room shorter
    rw [getToken_opens, getToken_comment, closed]
    exact ih (by omega)
  | broken open_ =>
    rw [getToken_opens, getToken_comment, open_, List.append_nil]
    rfl

/-- Without a word `get_token` leaves the buffer. -/
theorem getToken_noWord (known : tokNum = 1 ∨ tokNum = 2) (n : Nat) :
    ∀ {line buf : List U8}, line.length ≤ n → buf.length + line.length ≤ lineSize →
      (¬ ∃ chars rest, Word (tokenEnd tokNum) line chars rest) → getToken tokNum false line buf = none := by
  induction n with
  | zero =>
    intro line buf short _ _
    rw [List.length_eq_zero_iff.mp (Nat.le_zero.mp short)]
    rfl
  | succ n ih =>
    intro line buf short room without
    match line with
    | [] => rfl
    | c :: s =>
      rw [List.length_cons] at short room
      cases end_ : tokenEnd tokNum c with
      | true => exact absurd ⟨[], some (c :: s), .stops end_⟩ without
      | false =>
        by_cases alone : c = slash ∧ s = []
        · obtain ⟨rfl, rfl⟩ := alone
          exact getToken_slash known
        · by_cases opens : c = slash ∧ s.head? = some star
          · obtain ⟨rfl, head⟩ := opens
            obtain ⟨s, rfl⟩ := List.head?_eq_some_iff.mp head
            rw [getToken_opens, getToken_comment]
            cases found : commentEnd (star :: s) with
            | none => rfl
            | some pair =>
              obtain ⟨closed, s'⟩ := pair
              have shorter := commentEnd_short found
              rw [List.length_cons] at short room shorter
              cases closed with
              | false => exact absurd ⟨[], none, .broken found⟩ without
              | true =>
                refine ih (by omega) (by omega) ?_
                rintro ⟨chars, rest, word⟩
                exact without ⟨chars, rest, .comment found word⟩
          · have plain : c = slash → s ≠ [] ∧ s.head? ≠ some star :=
              fun same => ⟨fun none_ => alone ⟨same, none_⟩, fun head => opens ⟨same, head⟩⟩
            rw [getToken_char known end_ plain (by omega)]
            refine ih (by omega) (by rw [List.length_append, List.length_singleton]; omega) ?_
            rintro ⟨chars, rest, word⟩
            exact without ⟨c :: chars, rest, .char end_ plain word⟩

theorem word_length {stop : U8 → Bool} {behind : List U8} (word : Word stop line chars (some behind)) :
    chars.length + behind.length ≤ line.length ∧ ∃ c s, behind = c :: s ∧ stop c = true := by
  generalize whole : some behind = rest at word
  induction word with
  | @stops c s end_ =>
    cases whole
    exact ⟨(Nat.zero_add _).le, c, s, rfl, end_⟩
  | char inside plain word ih =>
    obtain ⟨short, ends⟩ := ih whole
    simp only [List.length_cons]
    exact ⟨by omega, ends⟩
  | comment closed word ih =>
    obtain ⟨short, ends⟩ := ih whole
    have shorter := commentEnd_short closed
    simp only [List.length_cons] at shorter ⊢
    exact ⟨by omega, ends⟩
  | broken open_ => cases whole

end Tokens

theorem skipSpaces_eq (s : List U8) :
    skipSpaces s = if s.dropWhile isspace = [] then none else some (s.dropWhile isspace) := by
  induction s with
  | nil => rfl
  | cons c s ih =>
    rw [skipSpaces, List.dropWhile_cons]
    split
    · exact ih
    · rw [if_neg (List.cons_ne_nil c s)]

theorem valueStart_short : ∀ s : List U8, (valueStart s).length ≤ s.length
  | [] => Nat.le_refl 0
  | c :: s => by
    rw [valueStart]
    split
    · exact (List.dropWhile_suffix _).length_le.trans (Nat.le_succ _)
    · exact (List.dropWhile_suffix _).length_le

theorem atEnd_name {name : List U8} {c : U8} {s : List U8} (end_ : nameEnd c = true)
    (room : name.length + (c :: s).length ≤ lineSize) :
    atEnd 1 name (c :: s) =
      if name.length ≤ 254 ∧ valueStart (c :: s) ≠ [] then
        some (if hasValue (c :: s) then .ret name (valueStart (c :: s)) else .err)
      else none := by
  have kinds : c = 0#8 ∨ c = hash ∨ c = 0x20#8 ∨ c = 0x09#8 ∨ c = newline ∨ c = equals := of_decide_eq_true end_
  unfold lineSize at room
  rw [List.length_cons] at room
  have ret (l : List U8) : tokenRet name l = if name.length ≤ 254 then some (.ret name l) else none := by
    unfold tokenRet lineSize
    simp only [show name.length + 1 < 256 ↔ name.length ≤ 254 by omega]
  rw [atEnd, hasValue]
  by_cases stop : c = 0#8 ∨ c = hash
  · have here : valueStart (c :: s) = c :: s := by
      obtain rfl | rfl := stop <;> rfl
    rw [if_pos stop, if_pos stop, here, ret, if_pos rfl]
    simp only [ne_eq, reduceCtorEq, not_false_eq_true, and_true]
  · rw [if_neg stop, if_neg stop, if_neg (show ¬ 1 ≠ 1 by decide)]
    by_cases equal : c = equals
    · have here : valueStart (c :: s) = s.dropWhile isspace := if_pos equal
      rw [if_pos equal, if_pos equal, here, skipSpaces_eq]
      by_cases nothing : s.dropWhile isspace = []
      · rw [if_pos nothing, if_neg fun h => h.2 nothing]
        rfl
      · have more : s ≠ [] := by rintro rfl; exact nothing rfl
        have positive := List.length_pos_iff.mpr more
        have short : name.length ≤ 254 := by omega
        rw [if_neg nothing, if_pos ⟨short, nothing⟩, Option.bind_some, ret, if_pos short]
        by_cases nul : (s.dropWhile isspace).head? = some 0#8 <;> simp [nul]
    · have space : isspace c = true := by
        have rest : c = 0x20#8 ∨ c = 0x09#8 ∨ c = newline := by tauto
        obtain rfl | rfl | rfl := rest <;> decide
      have here : valueStart (c :: s) = s.dropWhile isspace := by
        rw [valueStart, if_neg equal, List.dropWhile_cons, if_pos space]
      rw [if_neg equal, if_neg equal, here, skipSpaces_eq, List.dropWhile_cons, if_pos space]
      by_cases nothing : s.dropWhile isspace = []
      · rw [if_pos nothing, if_neg fun h => h.2 nothing]
        rfl
      · have more : s ≠ [] := by rintro rfl; exact nothing rfl
        have positive := List.length_pos_iff.mpr more
        have short : name.length ≤ 254 := by omega
        rw [if_neg nothing, if_pos ⟨short, nothing⟩, Option.bind_some, ret, if_pos short]
        by_cases value : (s.dropWhile isspace).head? = some equals <;> simp [value]

/-! ### The line -/

theorem printTokens_isSome (state : Bool) (name value : List U8) :
    (printTokens state name value).isSome ↔ (value = mText → name.length ≤ 248) := by
  unfold printTokens
  by_cases isM : value = mText
  · subst isM
    have room : name.length + moduleText.length < lineSize ↔ name.length ≤ 248 := by
      show name.length + 7 < 256 ↔ _
      omega
    rw [if_neg (by decide), if_neg (by decide), if_pos rfl]
    simp only [room, forall_const]
    split <;> simp [*]
  · refine iff_of_true ?_ fun same => absurd same isM
    rw [if_neg isM]
    split
    · rfl
    · split
      · rfl
      · split <;> rfl

theorem value_isSome (name : List U8) {line : List U8} (room : line.length < lineSize) :
    ((getToken 2 false line []).bind (withValue name)).isSome ↔
      ∃ value stop, Word valueEnd line value stop ∧ (value = mText → name.length ≤ 248) := by
  have scanned (value : List U8) (stop : Option (List U8)) (word : Word valueEnd line value stop) :
      ((getToken 2 false line []).bind (withValue name)).isSome ↔ (value = mText → name.length ≤ 248) := by
    have token : getToken 2 false line [] = atStop 2 ([] ++ value) stop :=
      getToken_word (Or.inr rfl) word (by simpa using room.le)
    rw [token, List.nil_append]
    cases stop with
    | none => exact printTokens_isSome true name value
    | some behind =>
      obtain ⟨short, c, s, rfl, end_⟩ := word_length word
      have ends : atEnd 2 value (c :: s) = tokenRet value (c :: s) := by
        rw [atEnd]
        split
        · rfl
        · rfl
      have fits : value.length + 1 < lineSize := by
        rw [List.length_cons] at short
        omega
      rw [atStop, ends, tokenRet, if_pos fits]
      exact printTokens_isSome false name value
  constructor
  · intro fine
    by_cases there : ∃ value stop, Word valueEnd line value stop
    · obtain ⟨value, stop, word⟩ := there
      exact ⟨value, stop, word, (scanned value stop word).mp fine⟩
    · have nothing : getToken 2 false line [] = none :=
        getToken_noWord (Or.inr rfl) line.length (Nat.le_refl _) (by simpa using room.le) there
      rw [nothing] at fine
      cases fine
  · rintro ⟨value, stop, word, short⟩
    exact (scanned value stop word).mpr short

theorem name_isSome {line : List U8} (room : line.length ≤ lineSize) :
    ((getToken 1 false line []).bind withName).isSome ↔
      ∃ name stop, Word nameEnd line name stop ∧ ∀ behind, stop = some behind →
        name.length ≤ 254 ∧ valueStart behind ≠ [] ∧
          (name ≠ [] → hasValue behind = true → ∃ value stop', Word valueEnd (valueStart behind) value stop' ∧
            (value = mText → name.length ≤ 248)) := by
  have scanned (name : List U8) (stop : Option (List U8)) (word : Word nameEnd line name stop) :
      ((getToken 1 false line []).bind withName).isSome ↔ ∀ behind, stop = some behind →
        name.length ≤ 254 ∧ valueStart behind ≠ [] ∧
          (name ≠ [] → hasValue behind = true → ∃ value stop', Word valueEnd (valueStart behind) value stop' ∧
            (value = mText → name.length ≤ 248)) := by
    have token : getToken 1 false line [] = atStop 1 ([] ++ name) stop :=
      getToken_word (Or.inl rfl) word (by simpa using room)
    rw [token, List.nil_append]
    cases stop with
    | none =>
      refine iff_of_true ?_ nofun
      show (withName (.comment name)).isSome
      unfold withName
      dsimp only
      split <;> rfl
    | some behind =>
      obtain ⟨short, c, s, rfl, end_⟩ := word_length word
      rw [atStop, atEnd_name end_ (short.trans room)]
      simp only [Option.some.injEq, forall_eq']
      by_cases fits : name.length ≤ 254 ∧ valueStart (c :: s) ≠ []
      · rw [if_pos fits, Option.bind_some, and_iff_right fits.1, and_iff_right fits.2]
        cases has : hasValue (c :: s) with
        | false => exact iff_of_true rfl fun _ => nofun
        | true =>
          rw [if_pos rfl, withName]
          by_cases empty : name = []
          · rw [if_pos empty]
            exact iff_of_true rfl fun some' => absurd empty some'
          · have small : (valueStart (c :: s)).length < lineSize := by
              have positive := List.length_pos_iff.mpr empty
              have part := valueStart_short (c :: s)
              omega
            rw [if_neg empty, value_isSome name small]
            simp only [ne_eq, empty, not_false_eq_true, forall_const]
      · rw [if_neg fits]
        refine iff_of_false nofun fun h => fits ⟨h.1, h.2.1⟩
  constructor
  · intro fine
    by_cases there : ∃ name stop, Word nameEnd line name stop
    · obtain ⟨name, stop, word⟩ := there
      exact ⟨name, stop, word, (scanned name stop word).mp fine⟩
    · have nothing : getToken 1 false line [] = none :=
        getToken_noWord (Or.inl rfl) line.length (Nat.le_refl _) (by simpa using room) there
      rw [nothing] at fine
      cases fine
  · rintro ⟨name, stop, word, short⟩
    exact (scanned name stop word).mpr short

theorem leaveComment_short {state inComment : Bool} {line rest : List U8}
    (left : leaveComment state line = some (inComment, rest)) : rest.length ≤ line.length := by
  unfold leaveComment at left
  split at left
  · obtain ⟨⟨closed, rest'⟩, found, same⟩ := Option.map_eq_some_iff.mp left
    cases same
    exact commentEnd_short found
  · cases left
    exact Nat.le_refl _

/-- `process_line` stays in the line's buffer and in those of its tokens if and only if the line fits. -/
theorem processLine_inside_iff (state : Bool) (line : CharArray lineSize) :
    (processLine state line.bytes).isSome ↔ Fits state line.bytes := by
  unfold processLine Fits
  cases left : leaveComment state line.bytes with
  | none => exact iff_of_false nofun fun ⟨_, _, same, _⟩ => nomatch same
  | some pair =>
    obtain ⟨inComment, rest⟩ := pair
    have short := (leaveComment_short left).trans line.length_eq.le
    rw [Option.bind_some]
    cases rest with
    | nil =>
      refine iff_of_false nofun ?_
      rintro ⟨_, _, same, c, s, rfl, _⟩
      cases same
    | cons c s =>
      dsimp only
      by_cases ignored : c = 0#8 ∨ c = hash ∨ c = newline ∨ inComment = true
      · rw [if_pos ignored]
        refine iff_of_true rfl ⟨inComment, c :: s, rfl, c, s, rfl, ?_⟩
        tauto
      · rw [if_neg ignored, name_isSome short]
        constructor
        · intro words
          refine ⟨inComment, c :: s, rfl, c, s, rfl, ?_⟩
          tauto
        · rintro ⟨_, _, same, _, _, rfl, words⟩
          cases same
          tauto

theorem comment_open (n : Nat) : commentEnd (star :: (List.replicate n 0x61#8 ++ [0#8])) = none := by
  have chars : ∀ c ∈ star :: (List.replicate n 0x61#8 ++ [0#8]), c = star ∨ c = 0x61#8 ∨ c = 0#8 := by
    intro c member
    simp only [List.mem_cons, List.mem_append, List.mem_replicate, List.not_mem_nil, or_false] at member
    tauto
  rw [commentEnd_none_iff]
  constructor
  · intro member
    exact absurd (chars _ member) (by decide)
  · intro part
    exact absurd (chars slash (part.subset (by decide))) (by decide)

def longComment : CharArray lineSize :=
  ⟨slash :: star :: (List.replicate 253 0x61#8 ++ [0#8]), by
    rw [List.length_cons, List.length_cons, List.length_append, List.length_replicate]
    rfl⟩

theorem longComment_outside : ¬ (processLine false longComment.bytes).isSome := by
  have token : getToken 1 false longComment.bytes [] = none := by
    unfold longComment
    rw [getToken_opens, getToken_comment, comment_open]
  have run : processLine false longComment.bytes = (getToken 1 false longComment.bytes []).bind withName := by
    unfold processLine leaveComment longComment
    rw [if_neg (by decide), Option.bind_some]
    dsimp only
    rw [if_neg (by decide)]
  rw [run, token]
  nofun

end TwinpassGateway.Build
