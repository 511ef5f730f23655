import TwinpassGateway.Foundation.CharArray

/-!
`str_wscmp` of `str.c`, which compares two strings without their white space. A pointer into a string is what is left of
its bytes, the terminator included: beyond the terminator nothing can be read.
-/

namespace TwinpassGateway.Util

open Foundation

/-- A character as an `int`; whether `char` is signed is up to the compiler. -/
def promote (signed : Bool) (c : U8) : Int := if signed then c.toInt else c.toNat

def wsSkip : List U8 → Option (List U8)
  | [] => none
  | c :: rest => if isspace c then wsSkip rest else some (c :: rest)

def inc : List U8 → Option (List U8)
  | [] => none
  | _ :: rest => wsSkip rest

/-- The loop of `str_wscmp` and what it returns. -/
def wscmpLoop (signed : Bool) : Nat → List U8 → List U8 → Option Int
  | 0, _, _ => none
  | fuel + 1, p, q => do
    let c ← p.head?
    let d ← q.head?
    if c ≠ 0#8 ∧ c = d then
      let p ← inc p
      let q ← inc q
      wscmpLoop signed fuel p q
    else some (promote signed d - promote signed c)

def strWscmp (signed : Bool) (fuel : Nat) (p q : CString) : Option Int := do
  let p ← wsSkip (p.chars ++ [0#8])
  let q ← wsSkip (q.chars ++ [0#8])
  wscmpLoop signed fuel p q

/-! ### What is expected -/

def squeeze (s : List U8) : List U8 := s.filter fun c => !isspace c

/-- Two strings differ first where `c` stands in the one and `d` in the other; one of the two may be the terminator. -/
def DifferFirst (s t : List U8) (c d : U8) : Prop :=
  c ≠ d ∧ ∃ same, same ++ [c] <+: s ++ [0#8] ∧ same ++ [d] <+: t ++ [0#8]

/-- What `strcmp` says of two strings, as the difference of the characters at which they differ first, with its sign
reversed. -/
def reverseDifference (signed : Bool) : List U8 → List U8 → Int
  | [], [] => 0
  | [], d :: _ => promote signed d - promote signed 0#8
  | c :: _, [] => promote signed 0#8 - promote signed c
  | c :: s, d :: t => if c = d then reverseDifference signed s t else promote signed d - promote signed c

section Difference

variable {signed : Bool} {s t : List U8} {c d : U8}

theorem promote_injective (signed : Bool) : Function.Injective (promote signed) := by
  intro c d same
  cases signed with
  | false => exact BitVec.eq_of_toNat_eq (Int.ofNat.inj same)
  | true => exact BitVec.eq_of_toInt_eq same

theorem DifferFirst.cons (differ : DifferFirst s t c d) (e : U8) : DifferFirst (e :: s) (e :: t) c d := by
  obtain ⟨different, same, left, right⟩ := differ
  exact ⟨different, e :: same, (List.prefix_cons_inj e).mpr left, (List.prefix_cons_inj e).mpr right⟩

theorem differ_here (c d : U8) (s t : List U8) :
    ∃ same, same ++ [c] <+: c :: s ∧ same ++ [d] <+: d :: t :=
  ⟨[], List.prefix_append [c] s, List.prefix_append [d] t⟩

theorem reverseDifference_spec (signed : Bool) (noNul : 0#8 ∉ s) (noNul' : 0#8 ∉ t) :
    (s = t ∧ reverseDifference signed s t = 0) ∨
      ∃ c d, DifferFirst s t c d ∧ reverseDifference signed s t = promote signed d - promote signed c := by
  induction s generalizing t with
  | nil =>
    cases t with
    | nil => exact Or.inl ⟨rfl, rfl⟩
    | cons d t =>
      have different : 0#8 ≠ d := fun same => noNul' (same ▸ List.mem_cons_self)
      exact Or.inr ⟨0#8, d, ⟨different, differ_here _ _ [] (t ++ [0#8])⟩, rfl⟩
  | cons c s ih =>
    cases t with
    | nil =>
      have different : c ≠ 0#8 := fun same => noNul (same ▸ List.mem_cons_self)
      exact Or.inr ⟨c, 0#8, ⟨different, differ_here _ _ (s ++ [0#8]) []⟩, rfl⟩
    | cons d t =>
      rw [reverseDifference]
      by_cases same : c = d
      · subst same
        rw [if_pos rfl]
        obtain ⟨rfl, zero⟩ | ⟨e, f, differ, value⟩ := ih (fun member => noNul (List.mem_cons_of_mem _ member))
          (fun member => noNul' (List.mem_cons_of_mem _ member))
        · exact Or.inl ⟨rfl, zero⟩
        · exact Or.inr ⟨e, f, differ.cons c, value⟩
      · rw [if_neg same]
        exact Or.inr ⟨c, d, ⟨same, differ_here _ _ (s ++ [0#8]) (t ++ [0#8])⟩, rfl⟩

end Difference

/-! ### The scan -/

theorem wsSkip_eq (s : List U8) : wsSkip (s ++ [0#8]) = some (s.dropWhile isspace ++ [0#8]) := by
  induction s with
  | nil => rfl
  | cons c rest ih =>
    rw [List.cons_append, wsSkip, List.dropWhile_cons]
    split
    · exact ih
    · rfl

theorem squeeze_dropWhile (s : List U8) : squeeze (s.dropWhile isspace) = squeeze s := by
  induction s with
  | nil => rfl
  | cons c rest ih =>
    rw [List.dropWhile_cons]
    split
    · rename_i space
      rw [ih, squeeze, squeeze, List.filter_cons_of_neg (by simp [space])]
    · rfl

theorem squeeze_next {s rest : List U8} {c : U8} (next : s.dropWhile isspace = c :: rest) :
    squeeze s = c :: squeeze rest := by
  have black : isspace c = false := by
    have head := List.head?_dropWhile_not isspace s
    rw [next] at head
    simpa using head
  rw [← squeeze_dropWhile, next, squeeze, squeeze, List.filter_cons_of_pos (by simp [black])]

theorem squeeze_end {s : List U8} (blank : s.dropWhile isspace = []) : squeeze s = [] := by
  rw [← squeeze_dropWhile, blank]
  rfl

/-- Both pointers stand on characters that are no white space, or on the terminators. -/
theorem wscmpLoop_eq (signed : Bool) {fuel : Nat} {s t : List U8} (enough : s.length < fuel) (noNul : 0#8 ∉ s) :
    wscmpLoop signed fuel (s.dropWhile isspace ++ [0#8]) (t.dropWhile isspace ++ [0#8]) =
      some (reverseDifference signed (squeeze s) (squeeze t)) := by
  induction fuel generalizing s t with
  | zero => exact absurd enough (Nat.not_lt_zero _)
  | succ fuel ih =>
    cases left : s.dropWhile isspace with
    | nil =>
      rw [squeeze_end left]
      cases right : t.dropWhile isspace with
      | nil =>
        rw [squeeze_end right]
        simp [wscmpLoop, reverseDifference]
      | cons d t' =>
        rw [squeeze_next right]
        simp [wscmpLoop, reverseDifference]
    | cons c s' =>
      have member : c ∈ s := (List.dropWhile_suffix isspace).subset (left ▸ List.mem_cons_self)
      have nonzero : c ≠ 0#8 := fun same => noNul (same ▸ member)
      rw [squeeze_next left]
      cases right : t.dropWhile isspace with
      | nil =>
        rw [squeeze_end right]
        simp [wscmpLoop, reverseDifference]
      | cons d t' =>
        rw [squeeze_next right, reverseDifference]
        by_cases same : c = d
        · subst same
          have shorter : s'.length < fuel := by
            have := (List.dropWhile_suffix isspace (l := s)).length_le
            rw [left, List.length_cons] at this
            omega
          have clean : 0#8 ∉ s' := fun inside =>
            noNul ((List.dropWhile_suffix isspace).subset (left ▸ List.mem_cons_of_mem c inside))
          rw [if_pos rfl, ← ih shorter clean]
          simp [wscmpLoop, nonzero, inc, wsSkip_eq]
        · rw [if_neg same]
          simp [wscmpLoop, nonzero, same]

/-- The result is 0 exactly for strings that are equal without their white space; otherwise it is the difference, the
other way round, of the characters at which these differ first. -/
theorem wscmp_law (signed : Bool) (p q : CString) :
    ∃ v, (∀ fuel, p.chars.length < fuel → strWscmp signed fuel p q = some v) ∧
      (v = 0 ↔ squeeze p.chars = squeeze q.chars) ∧
      (squeeze p.chars ≠ squeeze q.chars →
        ∃ c d, DifferFirst (squeeze p.chars) (squeeze q.chars) c d ∧ v = promote signed d - promote signed c) := by
  have clean (s : CString) : 0#8 ∉ squeeze s.chars := fun member => s.noNul (List.mem_of_mem_filter member)
  refine ⟨reverseDifference signed (squeeze p.chars) (squeeze q.chars), fun fuel enough => ?_, ?_⟩
  · unfold strWscmp
    rw [wsSkip_eq, wsSkip_eq]
    exact wscmpLoop_eq signed enough p.noNul
  · obtain ⟨same, zero⟩ | ⟨c, d, differ, value⟩ := reverseDifference_spec signed (clean p) (clean q)
    · exact ⟨iff_of_true zero same, fun different => absurd same different⟩
    · have apart : squeeze p.chars ≠ squeeze q.chars := by
        intro same
        obtain ⟨different, common, left, right⟩ := differ
        rw [same] at left
        have ends := (List.prefix_of_prefix_length_le left right (by simp)).eq_of_length (by simp)
        exact different (List.singleton_inj.mp (List.append_cancel_left ends))
      refine ⟨iff_of_false ?_ apart, fun _ => ⟨c, d, differ, value⟩⟩
      rw [value]
      intro zero
      exact differ.1 (promote_injective signed (by omega))

end TwinpassGateway.Util
