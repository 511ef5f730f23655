import TwinpassGateway.Eth.ReadProcPages
import TwinpassGateway.Eth.RouteRoundTrip

/-!
The tables whose titles are printed to the page whatever the place in the file: a program gets their text only when it
reads all of it in one call.
-/

namespace TwinpassGateway.Eth.ReadProc

open Foundation Parsers Route

section Titled

variable {titles strs : List (List U8)} {n : U32} {count : Nat}

/-- A page from a line on: the titles are in front of it, and push its end off what is copied. -/
theorem readFile_titled (some_room : 0 < count) (titles pre post : List (List U8)) :
    ∃ more, readFile (titles.map .direct ++ (pre ++ post).map .tested) (titles.flatten ++ pre.flatten).length count =
      ⟨titles.flatten ++ (fitting count post).flatten ++ more, ((fitting count post).flatten.length : Nat),
        leftOver count post = []⟩ := by
  have printed (s : Page) (off : Nat) (rest : List Piece) :
      readPieces off count s (titles.map .direct ++ rest) =
        readPieces off count ⟨s.written ++ titles.flatten, s.len + titles.flatten.length⟩ rest := by
    induction titles generalizing s with
    | nil =>
      rw [List.flatten_nil, List.append_nil]
      rfl
    | cons title others ih =>
      rw [List.map_cons, List.cons_append, readPieces, ih, List.flatten_cons, List.append_assoc, List.length_append,
        Nat.add_assoc]
  have buffered (str : List U8) : Piece.direct str ∉ pre.map .tested := by
    intro member
    obtain ⟨_, -, other⟩ := List.mem_map.mp member
    cases other
  have here : (titles.flatten ++ pre.flatten).length ≤
      (⟨[] ++ titles.flatten, 0 + titles.flatten.length + (texts (pre.map .tested)).length⟩ : Page).len := by
    dsimp only
    rw [texts_tested, List.length_append]
    omega
  obtain ⟨more, read⟩ := readPieces_fitting _ here post
  refine ⟨more, ?_⟩
  rw [readFile, printed, List.map_append, readPieces_behind some_room buffered _ (by
    dsimp only
    rw [texts_tested, List.length_append]
    omega), read]
  dsimp only
  rw [texts_tested, List.length_append]
  simp

theorem readFile_front (count : Nat) (titles strs : List (List U8)) :
    ∃ more, readFile (titles.map .direct ++ strs.map .tested) 0 count =
      ⟨titles.flatten ++ (fitting (count - titles.flatten.length) strs).flatten ++ more,
        ((titles.flatten ++ (fitting (count - titles.flatten.length) strs).flatten).length : Nat),
        leftOver (count - titles.flatten.length) strs = []⟩ := by
  have untested (str : List U8) : Piece.tested str ∉ titles.map .direct := by
    intro member
    obtain ⟨_, -, other⟩ := List.mem_map.mp member
    cases other
  rw [← texts_direct]
  exact readFile_start untested strs

/-- What a program has read so far that will not get the text: nothing, too little, or something else. -/
inductive Incomplete (titles strs : List (List U8)) (n : U32) : Program → Prop
  | start (returned ended : Bool) : Incomplete titles strs n ⟨{ ppos := 0, nbytes := n, returned }, [], ended⟩
  | later {c : Call} {out : List U8} {ended : Bool} {pre post : List (List U8)} (whole : pre ++ post = strs)
      (place : c.ppos = (titles.flatten ++ pre.flatten).length) (counted : c.retval = c.buf.length)
      (empty : ended = true → c.buf = [])
      (got : post ≠ [] ∧ out ++ c.buf = titles.flatten ++ pre.flatten ∨
        ¬ out ++ c.buf <+: titles.flatten ++ strs.flatten) : Incomplete titles strs n ⟨c, out, ended⟩

theorem Incomplete.not_whole {p : Program} (incomplete : Incomplete titles strs n p) (ended : p.ended = true)
    (titled : titles.flatten ≠ []) (nonempty : [] ∉ strs) : p.out ≠ titles.flatten ++ strs.flatten := by
  cases incomplete with
  | start => exact fun none => titled (List.append_eq_nil_iff.mp none.symm).1
  | later whole place counted empty got =>
    rw [empty ended, List.append_nil] at got
    rcases got with ⟨left, short⟩ | wrong
    · rename_i post
      intro same
      rw [short, ← whole, List.flatten_append, List.append_cancel_left_eq] at same
      have none : post.flatten = [] := List.self_eq_append_right.mp same
      obtain ⟨str, rest, rfl⟩ := List.exists_cons_of_ne_nil left
      apply nonempty
      rw [← whole, ← (List.append_eq_nil_iff.mp none).1]
      exact List.mem_append_right _ List.mem_cons_self
    · intro same
      apply wrong
      rw [← same]

/-- Where a page that does not start the file is copied, its titles stand for the next line. -/
theorem not_prefix_of_titles {h : U8} (front : titles.flatten.head? = some h) {pre post fit : List (List U8)}
    {more got : List U8} (marked : ∀ str ∈ post, ∃ x rest, str = x :: rest ∧ x ≠ h) (fits : fit.flatten ≠ [])
    (taken : got = (titles.flatten ++ fit.flatten ++ more).take fit.flatten.length) :
    ¬ titles.flatten ++ pre.flatten ++ got <+: titles.flatten ++ (pre ++ post).flatten := by
  intro same
  rw [List.flatten_append, List.append_assoc, List.prefix_append_right_inj, List.prefix_append_right_inj] at same
  obtain ⟨rest, known⟩ := List.head?_eq_some_iff.mp front
  obtain ⟨k, size⟩ := Nat.exists_eq_succ_of_ne_zero fun none => fits (List.length_eq_zero_iff.mp none)
  rw [taken, size, known, List.cons_append, List.cons_append, List.take_succ_cons] at same
  cases post with
  | nil => exact absurd (List.prefix_nil.mp same) (List.cons_ne_nil _ _)
  | cons str others =>
    obtain ⟨x, rest', rfl, differs⟩ := marked str List.mem_cons_self
    rw [List.flatten_cons, List.cons_append, List.cons_prefix_cons] at same
    exact differs same.1.symm

theorem Incomplete.step {h : U8} (front : titles.flatten.head? = some h) (lines : strs ≠ [])
    (marked : ∀ str ∈ strs, ∃ x rest, str = x :: rest ∧ x ≠ h)
    (long : n.toNat ≤ (titles.flatten ++ strs.flatten).length) {p : Program} (incomplete : Incomplete titles strs n p) :
    Incomplete titles strs n
      (Program.step (readFile (titles.map .direct ++ strs.map .tested)) n p) := by
  cases incomplete with
  | start returned ended =>
    cases ended with
    | true =>
      rw [program_ended]
      exact .start returned true
    | false =>
      cases returned with
      | true =>
        rw [program_ends rfl rfl]
        exact .start true true
      | false =>
        rw [program_call rfl]
        by_cases zero : n = 0
        · rw [step_returns (.inl zero)]
          exact .start true false
        · have whole := fitting_append_leftOver (min procBlockSize n.toNat - titles.flatten.length) strs
          have length := fitting_length (min procBlockSize n.toNat - titles.flatten.length) strs
          obtain ⟨more, answer⟩ := readFile_front (min procBlockSize n.toNat) titles strs
          generalize fitting (min procBlockSize n.toNat - titles.flatten.length) strs = fit at *
          generalize leftOver (min procBlockSize n.toNat - titles.flatten.length) strs = rest at *
          have titled : titles.flatten ≠ [] := by
            intro none
            rw [none] at front
            cases front
          have some_got : titles.flatten ++ fit.flatten ≠ [] := fun none => titled (List.append_eq_nil_iff.mp none).1
          rw [step_gives zero rfl answer some_got]
          have left : rest ≠ [] := by
            rintro rfl
            rw [List.append_nil] at whole
            rcases length with none | below
            · exact lines (whole.symm.trans none)
            · rw [← whole, List.length_append] at long
              omega
          refine .later whole ?_ ?_ (fun ended => absurd ended Bool.false_ne_true) (.inl ⟨left, rfl⟩)
          · exact Nat.zero_add _
          · exact Int.zero_add _
  | later whole place counted empty got =>
    rename_i c out ended pre post
    cases ended with
    | true =>
      rw [program_ended]
      exact .later whole place counted empty got
    | false =>
      cases running : c.returned with
      | true =>
        by_cases some_read : 0 < c.retval
        · rw [program_again running some_read]
          refine .later whole place rfl (fun ended => absurd ended Bool.false_ne_true) ?_
          rwa [List.append_nil]
        · have none : c.retval = 0 := by
            rw [counted] at some_read ⊢
            omega
          rw [program_ends running none]
          refine .later whole place counted (fun _ => ?_) got
          rw [counted] at none
          exact List.length_eq_zero_iff.mp (Int.natCast_eq_zero.mp none)
      | false =>
        rw [program_call running]
        by_cases stops : c.eof = true ∨ fitting (min procBlockSize c.nbytes.toNat) post = []
        · rw [step_returns]
          · exact .later whole place counted empty got
          · rcases stops with eof | none
            · exact .inr (.inl eof)
            · by_cases zero : c.nbytes = 0
              · exact .inl zero
              · have positive : 0 < min procBlockSize c.nbytes.toNat :=
                  Nat.lt_min.mpr ⟨by decide, Nat.pos_of_ne_zero fun none => zero (BitVec.eq_of_toNat_eq none)⟩
                obtain ⟨more, answer⟩ := readFile_titled positive titles pre post
                right
                right
                rw [place, ← whole, answer, none]
                rfl
        · have some_fit : fitting (min procBlockSize c.nbytes.toNat) post ≠ [] := fun none => stops (.inr none)
          have behind := fitting_append_leftOver (min procBlockSize c.nbytes.toNat) post
          have below := (fitting_length (min procBlockSize c.nbytes.toNat) post).resolve_left some_fit
          obtain ⟨more, answer⟩ := readFile_titled (Nat.zero_lt_of_lt below) titles pre post
          generalize fitting (min procBlockSize c.nbytes.toNat) post = fit at *
          generalize leftOver (min procBlockSize c.nbytes.toNat) post = rest at *
          have line (str : List U8) (member : str ∈ post) : ∃ x rest, str = x :: rest ∧ x ≠ h :=
            marked str (whole ▸ List.mem_append_right pre member)
          have fits : fit.flatten ≠ [] := by
            obtain ⟨str, others, rfl⟩ := List.exists_cons_of_ne_nil some_fit
            obtain ⟨x, tail, rfl, -⟩ := line str (behind ▸ List.mem_append_left _ List.mem_cons_self)
            exact List.cons_ne_nil _ _
          generalize taken : (titles.flatten ++ fit.flatten ++ more).take fit.flatten.length = got'
          have size : got'.length = fit.flatten.length := by
            rw [← taken, List.length_take, List.length_append, List.length_append]
            omega
          have some_got : got' ≠ [] := by
            rw [← List.length_pos_iff, size]
            exact List.length_pos_iff.mpr fits
          rw [whole, ← place, ← List.take_append_drop fit.flatten.length (titles.flatten ++ fit.flatten ++ more), taken,
            ← size] at answer
          have left : c.nbytes ≠ 0 := by
            rintro zero
            rw [zero] at below
            exact absurd below (by simp)
          rw [step_gives left (Bool.eq_false_iff.mpr fun eof => stops (.inl eof)) answer some_got]
          have whole' : pre ++ fit ++ rest = strs := by
            rw [List.append_assoc, behind, whole]
          refine .later whole' ?_ ?_ (fun ended => absurd ended Bool.false_ne_true) (.inr ?_)
          · dsimp only
            rw [place, size, List.flatten_append, ← List.append_assoc, ← List.length_append]
          · dsimp only
            rw [counted, List.length_append, Nat.cast_add]
          · dsimp only
            rw [← List.append_assoc]
            rcases got with ⟨-, short⟩ | wrong
            · rw [short, ← whole]
              exact not_prefix_of_titles front line fits taken.symm
            · exact fun same => wrong ((List.prefix_append _ got').trans same)

/-- A program gets the text when it fits into its buffer, with room to spare, and at no other size. -/
theorem titled_file {h : U8} (front : titles.flatten.head? = some h) (lines : strs ≠ [])
    (marked : ∀ str ∈ strs, ∃ x rest, str = x :: rest ∧ x ≠ h)
    (short : (titles.flatten ++ strs.flatten).length < procBlockSize) :
    Gets (readFile (titles.map .direct ++ strs.map .tested)) n (titles.flatten ++ strs.flatten) ↔
      (titles.flatten ++ strs.flatten).length < n.toNat := by
  generalize same : readFile (titles.map .direct ++ strs.map .tested) = file
  have titled : titles.flatten ≠ [] := by
    intro none
    rw [none] at front
    cases front
  constructor
  · rintro ⟨k, ended, out⟩
    by_contra long
    have incomplete (k : Nat) : Incomplete titles strs n ((Program.step file n)^[k] (Program.start n)) := by
      induction k with
      | zero => exact .start false false
      | succ k ih =>
        rw [Function.iterate_succ_apply', ← same]
        rw [← same] at ih
        exact ih.step front lines marked (Nat.le_of_not_lt long)
    have nonempty : [] ∉ strs := by
      intro member
      obtain ⟨_, _, none, -⟩ := marked [] member
      cases none
    exact (incomplete k).not_whole ended titled nonempty out
  · intro room
    obtain ⟨more, answer⟩ := readFile_front (min procBlockSize n.toNat) titles strs
    have all := fitting_append_leftOver (min procBlockSize n.toNat - titles.flatten.length) strs
    have none_left : leftOver (min procBlockSize n.toNat - titles.flatten.length) strs = [] := by
      apply leftOver_eq_nil
      rw [List.length_append] at room short
      omega
    rw [none_left, List.append_nil] at all
    rw [all, none_left, same] at answer
    have left : n ≠ 0 := by
      rintro rfl
      cases room
    have some_got : titles.flatten ++ strs.flatten ≠ [] := fun none => titled (List.append_eq_nil_iff.mp none).1
    have first : ({ ppos := 0, nbytes := n } : Call).step file = _ := step_gives left rfl answer some_got
    -- The next call is for what is behind the text.
    have positive : 0 < min procBlockSize n.toNat := Nat.lt_min.mpr ⟨by decide, Nat.zero_lt_of_lt room⟩
    obtain ⟨more', answer'⟩ := readFile_titled positive titles strs []
    rw [List.append_nil, same] at answer'
    have last : ({ ppos := (titles.flatten ++ strs.flatten).length, nbytes := n } : Call).step file = _ :=
      step_returns (.inr (.inr (by rw [answer']; rfl)))
    have some_read : (0 : Int) < 0 + ((titles.flatten ++ strs.flatten).length : Nat) := by
      rw [Int.zero_add]
      exact Int.natCast_pos.mpr (List.length_pos_iff.mpr some_got)
    have arrived : Arrives (Program.step file n) (Program.start n)
        ⟨{ ppos := (titles.flatten ++ strs.flatten).length, nbytes := n, returned := true },
          titles.flatten ++ strs.flatten, true⟩ := by
      apply Arrives.after (program_call rfl)
      rw [first]
      apply Arrives.after (program_call rfl)
      rw [step_returns (.inr (.inl rfl))]
      apply Arrives.after (program_again rfl some_read)
      apply Arrives.after (program_call rfl)
      dsimp only
      rw [Nat.zero_add, last]
      exact .after (program_ends rfl rfl) (.here _ _)
    exact (gets_iff arrived).mpr rfl

end Titled

/-! ### The lines -/

theorem signedNumeral_length_le {v : Int} (small : v.natAbs < 10 ^ 10) : (signedNumeral v).length ≤ 11 := by
  have digits : (numeral 10 v.natAbs).length ≤ 10 := numeral_length_le (by decide) (by decide) small
  unfold signedNumeral
  split
  · rw [List.length_cons]
    omega
  · omega

theorem spaced_length_le {width : Nat} (narrow : width ≤ 11) {v : Int} (small : v.natAbs < 10 ^ 10) :
    (spaced width v).length ≤ 11 := by
  have digits := signedNumeral_length_le small
  rw [spaced, List.length_append, List.length_replicate]
  omega

theorem toInt_small (v : U32) : v.toInt.natAbs < 10 ^ 10 := by
  have low := BitVec.le_toInt v
  have high := BitVec.toInt_lt (x := v)
  norm_num at low high
  omega

structure Line (line : List U8) : Prop where
  spaced : line.head? = some (ascii ' ')
  short : line.length ≤ 51

theorem head_append {text more : List U8} {c : U8} (front : text.head? = some c) : (text ++ more).head? = some c := by
  obtain ⟨rest, rfl⟩ := List.head?_eq_some_iff.mp front
  rfl

theorem two_spaces : (asciiText "  ").head? = some (ascii ' ') := by decide

theorem vlanLine_line (w : Words) {i : Nat} (inside : i < 8) : Line (vlanLine w i) := by
  constructor
  · unfold vlanLine
    dsimp only
    simp only [List.append_assoc]
    exact head_append two_spaces
  · have number : (signedNumeral (i + 1)).length ≤ 11 := signedNumeral_length_le (by omega)
    have prio : (spaced 4 (w (VLAN_CFG_TBL i) >>> 13).toInt).length ≤ 11 := spaced_length_le (by decide) (toInt_small _)
    have cfi : (spaced 3 (w (VLAN_CFG_TBL i) >>> 12 &&& 0x01).toInt).length ≤ 11 :=
      spaced_length_le (by decide) (toInt_small _)
    have id_ : (spaced 4 (w (VLAN_CFG_TBL i) &&& 0x0FFF).toInt).length ≤ 11 :=
      spaced_length_le (by decide) (toInt_small _)
    have marks : (asciiText "  ").length = 2 ∧ (asciiText ": ").length = 2 ∧ (asciiText " ").length = 1 ∧
        newline.length = 1 := by decide
    simp only [vlanLine, List.length_append, marks]
    omega

theorem numberLine_line {i : Nat} (inside : i < 8) (v : U32) : Line (numberLine i v) := by
  constructor
  · unfold numberLine
    simp only [List.append_assoc]
    exact head_append two_spaces
  · have number : (signedNumeral (i + 1)).length ≤ 11 := signedNumeral_length_le (by omega)
    have value : (signedNumeral v.toInt).length ≤ 11 := signedNumeral_length_le (toInt_small v)
    have marks : (asciiText "  ").length = 2 ∧ (asciiText ": ").length = 2 ∧ newline.length = 1 := by decide
    simp only [numberLine, List.length_append, marks]
    omega

theorem macLine_line (w : Words) (table : Nat → Nat) {i : Nat} (inside : i < 8) : Line (macLine w table i) := by
  constructor
  · unfold macLine
    dsimp only
    simp only [List.append_assoc]
    exact head_append (by decide)
  · have number : (signedNumeral (i + 1)).length ≤ 11 := signedNumeral_length_le (by omega)
    have pair {n : Nat} (below : n < 256) : (hexPair n).length ≤ 2 :=
      paddedNumeral_length_le (by decide) (by decide) below
    have first := pair (highByte_lt (w (table i)))
    have others (x : U32) : (hexPair (x &&& 0xFF).toNat).length ≤ 2 := pair (lowByte_lt x)
    have second_ := others (w (table i) >>> 16)
    have third_ := others (w (table i) >>> 8)
    have fourth := others (w (table i))
    have fifth := pair (highByte_lt (w (table i + 1)))
    have sixth := others (w (table i + 1) >>> 16)
    have marks : (asciiText "    ").length = 4 ∧ (asciiText ": ").length = 2 ∧ (asciiText ":").length = 1 ∧
        newline.length = 1 := by decide
    simp only [macLine, List.length_append, marks]
    omega

theorem hitLine_line (w : Words) {n : Nat} (inside : n < 400) : Line (hitLine w n) := by
  constructor
  · unfold hitLine
    simp only [List.append_assoc]
    exact head_append two_spaces
  · have first : (spaced 3 n).length ≤ 11 := spaced_length_le (by decide) (by omega)
    have last : (spaced 3 (n + 9)).length ≤ 11 := spaced_length_le (by decide) (by omega)
    have bits : ((((hitBits w).drop (n - 1)).take 10).flatMap
        fun bit => asciiText (if bit then " 1" else " 0")).length ≤ 10 * 2 := by
      have few : (((hitBits w).drop (n - 1)).take 10).length ≤ 10 := List.length_take_le _ _
      have two (piece : List U8) (member : piece ∈ (((hitBits w).drop (n - 1)).take 10).map fun bit =>
          asciiText (if bit then " 1" else " 0")) : piece.length ≤ 2 := by
        obtain ⟨bit, -, rfl⟩ := List.mem_map.mp member
        cases bit <;> decide
      have bound := flatten_length_le two
      rw [List.length_map] at bound
      rw [List.flatMap_def]
      omega
    have marks : (asciiText "  ").length = 2 ∧ (asciiText " - ").length = 3 ∧ (asciiText ":").length = 1 ∧
        newline.length = 1 := by decide
    simp only [hitLine, List.length_append, marks]
    omega

theorem lines_line (w : Words) (table : Table) : ∀ str ∈ table.lines w, Line str := by
  intro str member
  cases table with
  | vlan =>
    obtain ⟨i, inside, rfl⟩ := List.mem_map.mp member
    exact vlanLine_line w (List.mem_range.mp inside)
  | pppoe =>
    obtain ⟨i, inside, rfl⟩ := List.mem_map.mp member
    exact numberLine_line (List.mem_range.mp inside) _
  | mtu =>
    obtain ⟨i, inside, rfl⟩ := List.mem_map.mp member
    exact numberLine_line (List.mem_range.mp inside) _
  | hit =>
    obtain ⟨i, inside, rfl⟩ := List.mem_map.mp member
    have below := List.mem_range.mp inside
    exact hitLine_line w (by omega)
  | mac =>
    rcases List.mem_append.mp member with wan | other
    · obtain ⟨i, inside, rfl⟩ := List.mem_map.mp wan
      exact macLine_line w _ (List.mem_range.mp inside)
    · rcases List.mem_cons.mp other with rfl | lan
      · exact ⟨by decide, by decide⟩
      · obtain ⟨i, inside, rfl⟩ := List.mem_map.mp lan
        exact macLine_line w _ (List.mem_range.mp inside)

theorem lines_few (w : Words) (table : Table) : (table.lines w).length ≤ 39 ∧ table.lines w ≠ [] := by
  cases table <;> simp [Table.lines]

def Table.mark : Table → U8
  | vlan => ascii 'V'
  | pppoe => ascii 'P'
  | mtu => ascii 'M'
  | hit => ascii 'U'
  | mac => ascii 'M'

def Table.text (w : Words) (table : Table) : List U8 := table.titles.flatten ++ (table.lines w).flatten

/-- A program gets the text of one of these tables when its buffer is longer than the text, and at no other size. -/
theorem table_file_whole_iff (w : Words) (table : Table) (n : U32) :
    Gets (table.read w) n (table.text w) ↔ (table.text w).length < n.toNat := by
  have front : table.titles.flatten.head? = some table.mark := by
    cases table <;> decide
  have apart : table.mark ≠ ascii ' ' := by
    cases table <;> decide
  have titles : table.titles.flatten.length ≤ 60 := by
    cases table <;> decide
  have marked (str : List U8) (member : str ∈ table.lines w) : ∃ x rest, str = x :: rest ∧ x ≠ table.mark := by
    obtain ⟨rest, same⟩ := List.head?_eq_some_iff.mp (lines_line w table str member).spaced
    exact ⟨ascii ' ', rest, same, apart.symm⟩
  have lines : (table.lines w).flatten.length ≤ 39 * 51 :=
    (flatten_length_le fun str member => (lines_line w table str member).short).trans
      (Nat.mul_le_mul_right 51 (lines_few w table).1)
  have short : (table.titles.flatten ++ (table.lines w).flatten).length < procBlockSize := by
    rw [List.length_append, procBlockSize]
    omega
  exact titled_file front (lines_few w table).2 marked short

end TwinpassGateway.Eth.ReadProc
