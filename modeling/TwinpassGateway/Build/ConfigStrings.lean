import TwinpassGateway.Build.ConfigOptions
import TwinpassGateway.Foundation.CText

/-!
The config strings: the text of `config_strings.c`, one initializer for each option that is set.
-/

namespace TwinpassGateway.Build

open Foundation

/-! ### `str_catprintf` -/

/-- `str_vprintf_full`: the buffer after the text has been printed, behind what the buffer held if `cat` is set. -/
def strVprintfFull (s : Option String) (cat : Bool) (printed : String) : String :=
  let catLen := if cat then s.elim 0 String.length else 0
  if catLen = 0 then printed else String.ofList ((s.getD "").toList.take catLen) ++ printed

def strCatprintf (s : Option String) (printed : String) : String := strVprintfFull s true printed

theorem strCatprintf_eq (s : Option String) (printed : String) : strCatprintf s printed = s.getD "" ++ printed := by
  unfold strCatprintf strVprintfFull
  cases s with
  | none => simp
  | some held =>
    simp only [if_true, Option.elim_some, Option.getD_some]
    split
    · rename_i empty
      rw [String.length_eq_zero_iff.mp empty, String.empty_append]
    · rw [← String.length_toList, List.take_length, String.ofList_toList]

/-! ### `add_config_string` -/

def escapeChar (c : Char) : String :=
  match c with
  | '\n' => "\\n"
  | '\r' => "\\r"
  | '\t' => "\\t"
  | '\\' => "\\\\"
  | '"' => "\\\""
  | c => String.singleton c

/-- The characters of a C string, up to the terminating zero. -/
def cChars (value : Option String) : List Char := (value.elim [] String.toList).takeWhile (· ≠ '\x00')

def addConfigString (configStrings : Option String) (token : String) (value : Option String) : String :=
  let cvalue := (cChars value).foldl (fun cvalue c => strCatprintf (some cvalue) (escapeChar c)) ""
  strCatprintf configStrings ("    \x7b\"" ++ token ++ "\", \"" ++ cvalue ++ "\"\x7d,\n")

def configStrings (pairs : List (String × String)) : Option String :=
  pairs.foldl (fun text p => some (addConfigString text p.1 (some p.2))) none

/-! ### The text -/

def escape (v : List Char) : List Char := v.flatMap fun c => (escapeChar c).toList

def initializer (token v : List Char) : List Char :=
  [' ', ' ', ' ', ' ', '\x7b', '"'] ++ token ++ ['"', ',', ' ', '"'] ++ escape v ++ ['"', '\x7d', ',']

theorem escape_cons (c : Char) (v : List Char) : escape (c :: v) = (escapeChar c).toList ++ escape v :=
  List.flatMap_cons

theorem foldl_escape (v : List Char) (done : String) :
    (v.foldl (fun cvalue c => cvalue ++ escapeChar c) done).toList = done.toList ++ escape v := by
  induction v generalizing done with
  | nil => simp [escape]
  | cons c rest ih =>
    rw [List.foldl_cons, ih, String.toList_append, escape_cons, List.append_assoc]

theorem cChars_some {value : String} (free : '\x00' ∉ value.toList) : cChars (some value) = value.toList := by
  apply List.takeWhile_eq_self_iff.mpr
  intro c member
  exact decide_eq_true fun zero => free (zero ▸ member)

theorem addConfigString_toList (text : Option String) (token value : String) (free : '\x00' ∉ value.toList) :
    (addConfigString text token (some value)).toList =
      (text.getD "").toList ++ (initializer token.toList value.toList ++ ['\n']) := by
  unfold addConfigString initializer
  have opening : "    \x7b\"".toList = [' ', ' ', ' ', ' ', '\x7b', '"'] := by decide
  have between : "\", \"".toList = ['"', ',', ' ', '"'] := by decide
  have closing : "\"\x7d,\n".toList = ['"', '\x7d', ',', '\n'] := by decide
  simp only [strCatprintf_eq, Option.getD_some, String.toList_append, cChars_some free, foldl_escape, opening, between,
    closing]
  simp

def initializers (pairs : List (String × String)) : List Char :=
  pairs.flatMap fun p => initializer p.1.toList p.2.toList ++ ['\n']

theorem initializers_cons (p : String × String) (rest : List (String × String)) :
    initializers (p :: rest) = initializer p.1.toList p.2.toList ++ '\n' :: initializers rest := by
  rw [initializers, List.flatMap_cons, List.append_assoc]
  rfl

theorem configStrings_toList {pairs : List (String × String)} (free : ∀ p ∈ pairs, '\x00' ∉ p.2.toList) :
    ((configStrings pairs).getD "").toList = initializers pairs := by
  have grown : ∀ (pairs : List (String × String)) (text : Option String), (∀ p ∈ pairs, '\x00' ∉ p.2.toList) →
      ((pairs.foldl (fun text p => some (addConfigString text p.1 (some p.2))) text).getD "").toList =
        (text.getD "").toList ++ initializers pairs := by
    intro pairs
    induction pairs with
    | nil => simp [initializers]
    | cons p rest ih =>
      intro text free
      rw [List.foldl_cons, ih _ fun q member => free q (List.mem_cons_of_mem _ member), Option.getD_some,
        addConfigString_toList text p.1 p.2 (free p List.mem_cons_self), List.append_assoc]
      simp [initializers]
  rw [configStrings, grown pairs none free]
  rfl

/-! ### Reading it back -/

def Identifier (token : List Char) : Prop :=
  token ≠ [] ∧ (∀ c ∈ token, c.isAlphanum = true ∨ c = '_') ∧ ∀ c ∈ token.head?, c.isDigit = false

/-- The characters that stand for themselves in a string literal. -/
def Plain (c : Char) : Prop := c ≠ '"' ∧ c ≠ '\\' ∧ c ≠ '\n'

theorem plain_of_identifier {token : List Char} (identifier : Identifier token) {c : Char} (member : c ∈ token) :
    Plain c ∧ c ≠ '?' := by
  have letter := identifier.2.1 c member
  refine ⟨⟨?_, ?_, ?_⟩, ?_⟩
  all_goals
    rintro rfl
    revert letter
    decide

variable {rest v after : List Char}

theorem literalBody_plain {c : Char} (plain : Plain c) (read : literalBody rest = some (v, after)) :
    literalBody (c :: rest) = some (c :: v, after) := by
  obtain ⟨quote, backslash, newline⟩ := plain
  unfold literalBody
  split <;> simp_all

theorem literalBody_escaped {c d : Char} (simple : simpleEscape c = some d)
    (read : literalBody rest = some (v, after)) : literalBody ('\\' :: c :: rest) = some (d :: v, after) := by
  rw [literalBody, simple, read]
  rfl

theorem literalBody_escapeChar (c : Char) (read : literalBody rest = some (v, after)) :
    literalBody ((escapeChar c).toList ++ rest) = some (c :: v, after) := by
  unfold escapeChar
  split
  · exact literalBody_escaped rfl read
  · exact literalBody_escaped rfl read
  · exact literalBody_escaped rfl read
  · exact literalBody_escaped rfl read
  · exact literalBody_escaped rfl read
  · rename_i newline _ _ backslash quote
    rw [String.toList_singleton]
    exact literalBody_plain ⟨quote, backslash, newline⟩ read

theorem literalBody_escape (v rest : List Char) : literalBody (escape v ++ '"' :: rest) = some (v, rest) := by
  induction v with
  | nil => rfl
  | cons c tail ih =>
    rw [escape_cons, List.append_assoc]
    exact literalBody_escapeChar c ih

theorem literalBody_token {token : List Char} (plain : ∀ c ∈ token, Plain c) (rest : List Char) :
    literalBody (token ++ '"' :: rest) = some (token, rest) := by
  induction token with
  | nil => rfl
  | cons c tail ih =>
    exact literalBody_plain (plain c List.mem_cons_self) (ih fun d member => plain d (List.mem_cons_of_mem _ member))

theorem initializer_append (token v rest : List Char) :
    initializer token v ++ rest = [' ', ' ', ' ', ' '] ++ '\x7b' :: '"' ::
      (token ++ '"' :: ',' :: ([' '] ++ '"' :: (escape v ++ '"' :: '\x7d' :: ',' :: rest))) := by
  simp only [initializer, List.append_assoc, List.cons_append, List.nil_append]

theorem entry_initializer {token lead : List Char} (plain : ∀ c ∈ token, Plain c)
    (blank : ∀ c ∈ lead, c.isWhitespace = true) (v rest : List Char) :
    entry (lead ++ (initializer token v ++ rest)) = some ((token, v), rest) := by
  have indent : ∀ c ∈ lead ++ [' ', ' ', ' ', ' '], c.isWhitespace = true := by
    intro c member
    rcases List.mem_append.mp member with first | second
    · exact blank c first
    · fin_cases second <;> rfl
  have second : stringLiteral ([' '] ++ '"' :: (escape v ++ '"' :: '\x7d' :: ',' :: rest)) =
      some (v, '\x7d' :: ',' :: rest) := by
    rw [stringLiteral, expect_behind (List.forall_mem_singleton.mpr rfl) rfl, Option.bind_some, literalBody_escape]
  have first : stringLiteral ('"' :: (token ++ '"' :: ',' :: ([' '] ++ '"' :: (escape v ++ '"' :: '\x7d' :: ',' :: rest)))) =
      some (token, ',' :: ([' '] ++ '"' :: (escape v ++ '"' :: '\x7d' :: ',' :: rest))) := by
    rw [stringLiteral, expect_here rfl, Option.bind_some, literalBody_token plain]
  rw [initializer_append, ← List.append_assoc, entry, expect_behind indent rfl]
  simp only [Option.bind_eq_bind, Option.bind_some, first]
  rw [expect_here rfl]
  simp only [Option.bind_some, second]
  rw [expect_here rfl]
  simp only [Option.bind_some]
  rw [expect_here rfl]
  simp only [Option.bind_some]

theorem entries_initializers {pairs : List (String × String)} (plain : ∀ p ∈ pairs, ∀ c ∈ p.1.toList, Plain c)
    (lead : List Char) (blank : ∀ c ∈ lead, c.isWhitespace = true) {fuel : Nat} (enough : pairs.length ≤ fuel) :
    entries fuel (lead ++ initializers pairs) = some (pairs.map fun p => (p.1.toList, p.2.toList)) := by
  induction pairs generalizing fuel lead with
  | nil =>
    have ended : skipSpace (lead ++ initializers []) = [] := by
      rw [initializers, List.flatMap_nil, List.append_nil]
      exact List.dropWhile_eq_nil_iff.mpr blank
    cases fuel <;> simp [entries, ended]
  | cons p rest ih =>
    obtain ⟨less, rfl⟩ : ∃ less, fuel = less + 1 := ⟨fuel - 1, by simp at enough; omega⟩
    have here := entry_initializer (plain p List.mem_cons_self) blank p.2.toList ('\n' :: initializers rest)
    have started : skipSpace (lead ++ (initializer p.1.toList p.2.toList ++ '\n' :: initializers rest)) ≠ [] := by
      intro ended
      rw [entry, expect, ended] at here
      cases here
    have more := ih (fun q member => plain q (List.mem_cons_of_mem _ member)) ['\n']
      (List.forall_mem_singleton.mpr rfl) (Nat.le_of_succ_le_succ enough)
    rw [initializers_cons, entries, if_neg started, here]
    simp only [Option.bind_eq_bind, Option.bind_some]
    rw [show '\n' :: initializers rest = ['\n'] ++ initializers rest from rfl, more]
    rfl

/-! ### Nothing is replaced before the text is read -/

theorem noTrigraph_plain (plain : ∀ c ∈ v, c ≠ '?' ∧ trigraph c = none) (free : NoTrigraph 0 rest) :
    NoTrigraph 0 (v ++ rest) := by
  induction v with
  | nil => exact free
  | cons c tail ih =>
    obtain ⟨mark, three⟩ := plain c List.mem_cons_self
    refine ⟨fun _ => three, ?_⟩
    rw [if_neg mark]
    exact ih fun d member => plain d (List.mem_cons_of_mem _ member)

theorem noTrigraph_escape {marks : Nat} (free : NoTrigraph marks v) (after : NoTrigraph 0 rest) :
    NoTrigraph marks (escape v ++ '"' :: rest) := by
  induction v generalizing marks with
  | nil => exact ⟨fun _ => rfl, after⟩
  | cons c tail ih =>
    rw [escape_cons, List.append_assoc]
    have later := ih free.2
    unfold escapeChar
    split
    · exact ⟨fun _ => rfl, fun _ => rfl, later⟩
    · exact ⟨fun _ => rfl, fun _ => rfl, later⟩
    · exact ⟨fun _ => rfl, fun _ => rfl, later⟩
    · exact ⟨fun _ => rfl, fun _ => rfl, later⟩
    · exact ⟨fun _ => rfl, fun _ => rfl, later⟩
    · rw [String.toList_singleton]
      exact ⟨free.1, later⟩

theorem noSplice_line {behind : Bool} (line : '\n' ∉ v) (free : NoSplice false rest) :
    NoSplice behind (v ++ ',' :: '\n' :: rest) := by
  induction v generalizing behind with
  | nil => exact ⟨fun _ => by decide, fun impossible => absurd impossible (by decide), free⟩
  | cons c tail ih =>
    refine ⟨fun _ same => line (same ▸ List.mem_cons_self), ?_⟩
    exact ih fun member => line (List.mem_cons_of_mem _ member)

theorem newline_escape (v : List Char) : '\n' ∉ escape v := by
  induction v with
  | nil => exact List.not_mem_nil
  | cons c tail ih =>
    rw [escape_cons, List.mem_append, not_or]
    refine ⟨?_, ih⟩
    unfold escapeChar
    split
    · decide
    · decide
    · decide
    · decide
    · decide
    · rename_i newline _ _ _ _
      rw [String.toList_singleton, List.mem_singleton]
      exact fun same => newline same.symm

theorem noTrigraph_initializers {pairs : List (String × String)} (tokens : ∀ p ∈ pairs, Identifier p.1.toList)
    (values : ∀ p ∈ pairs, NoTrigraph 0 p.2.toList) : NoTrigraph 0 (initializers pairs) := by
  induction pairs with
  | nil => trivial
  | cons p tail ih =>
    have later := ih (fun q member => tokens q (List.mem_cons_of_mem _ member))
      fun q member => values q (List.mem_cons_of_mem _ member)
    have identifier := tokens p List.mem_cons_self
    have plain : ∀ c ∈ p.1.toList, c ≠ '?' ∧ trigraph c = none := by
      intro c member
      refine ⟨(plain_of_identifier identifier member).2, ?_⟩
      have letter := identifier.2.1 c member
      unfold trigraph
      split
      all_goals first | rfl | (revert letter; decide)
    have value : NoTrigraph 0 (escape p.2.toList ++ '"' :: '\x7d' :: ',' :: '\n' :: initializers tail) :=
      noTrigraph_escape (values p List.mem_cons_self)
        ⟨fun _ => rfl, fun _ => rfl, fun _ => rfl, later⟩
    have indent : ∀ c ∈ [' ', ' ', ' ', ' '], c ≠ '?' ∧ trigraph c = none := by
      intro c member
      fin_cases member <;> exact ⟨by decide, rfl⟩
    rw [initializers_cons, initializer_append]
    refine noTrigraph_plain indent ⟨fun _ => rfl, fun _ => rfl, noTrigraph_plain plain ?_⟩
    exact ⟨fun _ => rfl, fun _ => rfl, fun _ => rfl, fun _ => rfl, value⟩

theorem noSplice_initializers {pairs : List (String × String)} (tokens : ∀ p ∈ pairs, Identifier p.1.toList) :
    NoSplice false (initializers pairs) := by
  induction pairs with
  | nil => trivial
  | cons p tail ih =>
    have later := ih fun q member => tokens q (List.mem_cons_of_mem _ member)
    have token : '\n' ∉ p.1.toList := fun member =>
      (plain_of_identifier (tokens p List.mem_cons_self) member).1.2.2 rfl
    have line : initializer p.1.toList p.2.toList ++ '\n' :: initializers tail =
        ([' ', ' ', ' ', ' ', '\x7b', '"'] ++ (p.1.toList ++ (['"', ',', ' ', '"'] ++ (escape p.2.toList ++ ['"', '\x7d'])))) ++
          ',' :: '\n' :: initializers tail := by
      simp only [initializer, List.append_assoc, List.cons_append, List.nil_append]
    rw [initializers_cons, line]
    refine noSplice_line ?_ later
    simp only [List.mem_append, not_or]
    exact ⟨by decide, token, by decide, newline_escape _, by decide⟩

theorem length_le_initializers (pairs : List (String × String)) : pairs.length ≤ (initializers pairs).length := by
  induction pairs with
  | nil => exact Nat.zero_le _
  | cons p tail ih =>
    rw [initializers_cons, List.length_append, List.length_cons, List.length_cons]
    omega

/-- Reading the text as C initializers gives back the tokens and values. -/
theorem config_strings_round_trip (pairs : List (String × String)) (tokens : ∀ p ∈ pairs, Identifier p.1.toList)
    (values : ∀ p ∈ pairs, '\x00' ∉ p.2.toList ∧ TrigraphFree p.2.toList) :
    readEntries ((configStrings pairs).getD "").toList = some (pairs.map fun p => (p.1.toList, p.2.toList)) := by
  have marks : ∀ p ∈ pairs, NoTrigraph 0 p.2.toList := fun p member => noTrigraph_of_free (values p member).2
  have plain : ∀ p ∈ pairs, ∀ c ∈ p.1.toList, Plain c := fun p member c inside =>
    (plain_of_identifier (tokens p member) inside).1
  rw [configStrings_toList fun p member => (values p member).1, readEntries,
    replaceTrigraphs_eq (noTrigraph_initializers tokens marks), spliceLines_eq (noSplice_initializers tokens)]
  have read := entries_initializers plain [] (fun _ member => nomatch member) (length_le_initializers pairs)
  exact read

theorem config_strings_round_trip_sample :
    readEntries ((configStrings [("CONFIG_X", "\"a\\\n\"\x7d,"), ("CONFIG_Y", "\\")]).getD "").toList =
      some [("CONFIG_X".toList, "\"a\\\n\"\x7d,".toList), ("CONFIG_Y".toList, "\\".toList)] := by
  have free : ∀ v : List Char, '?' ∉ v → TrigraphFree v := fun v unmarked c _ inside =>
    unmarked (inside.subset List.mem_cons_self)
  refine config_strings_round_trip _ (fun p member => ?_) fun p member => ?_
  · simp only [List.mem_cons, List.not_mem_nil, or_false] at member
    rcases member with rfl | rfl
    · simp [Identifier]
    · simp [Identifier]
  · simp only [List.mem_cons, List.not_mem_nil, or_false] at member
    rcases member with rfl | rfl
    · exact ⟨by decide, free _ (by decide)⟩
    · exact ⟨by decide, free _ (by decide)⟩

end TwinpassGateway.Build
