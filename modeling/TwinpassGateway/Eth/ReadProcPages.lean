import TwinpassGateway.Eth.ReadProc
import TwinpassGateway.Foundation.Paging
import TwinpassGateway.Foundation.Run

/-!
What the files of `/proc/eth` give a program that reads them with a buffer of one size. The route tables come in whole
pieces, so that a buffer that is too small for one of them ends the text; the other tables have their titles in front of
every page.
-/

namespace TwinpassGateway.Eth.ReadProc

open Foundation Parsers Route

variable {off count : Nat}

/-! ### The pieces of a page -/

def texts (pieces : List Piece) : List U8 := pieces.flatMap Piece.text

theorem texts_cons (piece : Piece) (pieces : List Piece) : texts (piece :: pieces) = piece.text ++ texts pieces :=
  List.flatMap_cons

theorem texts_append (pieces pieces' : List Piece) : texts (pieces ++ pieces') = texts pieces ++ texts pieces' :=
  List.flatMap_append

theorem texts_tested (strs : List (List U8)) : texts (strs.map .tested) = strs.flatten := by
  unfold texts
  rw [List.flatMap_map]
  exact List.flatMap_id'

theorem texts_direct (strs : List (List U8)) : texts (strs.map .direct) = strs.flatten := by
  unfold texts
  rw [List.flatMap_map]
  exact List.flatMap_id'

theorem copy_behind {s : Page} {str : List U8} (behind : s.len + str.length ≤ off) :
    s.copy off str = ⟨s.written, s.len + str.length⟩ := by
  unfold Page.copy
  rw [if_neg (by omega), if_neg (by omega)]

theorem copy_here {s : Page} (here : off ≤ s.len) (str : List U8) :
    s.copy off str = ⟨s.written ++ str, s.len + str.length⟩ := by
  unfold Page.copy
  split
  · rename_i first
    have same : off - s.len = 0 := by omega
    rw [same, List.drop_zero]
  · rename_i later
    split
    · rfl
    · have none : str = [] := by
        apply List.length_eq_zero_iff.mp
        omega
      rw [none, List.append_nil]

/-- The pieces in front of `off` are passed over, unless they are printed to the page itself. -/
theorem readPieces_behind (some_room : 0 < count) {pre : List Piece} (buffered : ∀ str, Piece.direct str ∉ pre) (s : Page)
    (behind : s.len + (texts pre).length ≤ off) (post : List Piece) :
    readPieces off count s (pre ++ post) = readPieces off count ⟨s.written, s.len + (texts pre).length⟩ post := by
  induction pre generalizing s with
  | nil => rfl
  | cons piece rest ih =>
    rw [texts_cons, List.length_append] at behind ⊢
    have later : ∀ str, Piece.direct str ∉ rest := fun str member => buffered str (List.mem_cons_of_mem piece member)
    have passed (str : List U8) (same : piece.text = str) : s.copy off str = ⟨s.written, s.len + str.length⟩ :=
      copy_behind (by rw [← same]; omega)
    have rest_behind (str : List U8) (same : piece.text = str) :
        readPieces off count (s.copy off str) (rest ++ post) =
          readPieces off count ⟨s.written, s.len + (piece.text.length + (texts rest).length)⟩ post := by
      rw [passed str same, ih later ⟨s.written, s.len + str.length⟩ (by rw [← same]; dsimp only; omega), same,
        Nat.add_assoc]
    cases piece with
    | direct str => exact absurd List.mem_cons_self (buffered str)
    | copied str => exact rest_behind str rfl
    | tested str =>
      rw [List.cons_append, readPieces, if_neg]
      · exact rest_behind str rfl
      · have known := passed str rfl
        rw [known]
        dsimp only [Piece.text] at behind ⊢
        omega

/-- The pieces from `off` on are written to the page as long as they fit, and the one that does not is written, too, but
not counted. -/
theorem readPieces_fitting (s : Page) (here : off ≤ s.len) (strs : List (List U8)) :
    ∃ more, readPieces off count s (strs.map .tested) =
      ⟨s.written ++ (fitting (count - (s.len - off)) strs).flatten ++ more,
        s.len + (fitting (count - (s.len - off)) strs).flatten.length - off,
        leftOver (count - (s.len - off)) strs = []⟩ := by
  induction strs generalizing s with
  | nil => exact ⟨[], by simp [readPieces, fitting, leftOver]⟩
  | cons str rest ih =>
    rw [List.map_cons, readPieces, copy_here here]
    dsimp only
    unfold fitting leftOver
    by_cases short : str.length < count - (s.len - off)
    · have room : count - (s.len + str.length - off) = count - (s.len - off) - str.length := by omega
      obtain ⟨more, read⟩ := ih ⟨s.written ++ str, s.len + str.length⟩ (by dsimp only; omega)
      refine ⟨more, ?_⟩
      rw [if_neg (by omega), if_pos short, if_pos short, read]
      dsimp only
      rw [room, List.flatten_cons, List.length_append, List.append_assoc s.written, ← Nat.cast_add, ← Nat.cast_add,
        Nat.add_assoc]
    · refine ⟨str, ?_⟩
      rw [if_pos (by omega), if_neg short, if_neg short]
      simp

/-- A page from the beginning of the file: the titles, and what fits behind them. -/
theorem readFile_start {titles : List Piece} (untested : ∀ str, Piece.tested str ∉ titles) (strs : List (List U8)) :
    ∃ more, readFile (titles ++ strs.map .tested) 0 count =
      ⟨texts titles ++ (fitting (count - (texts titles).length) strs).flatten ++ more,
        ((texts titles ++ (fitting (count - (texts titles).length) strs).flatten).length : Nat),
        leftOver (count - (texts titles).length) strs = []⟩ := by
  have printed : ∀ s : Page, readPieces 0 count s (titles ++ strs.map .tested) =
      readPieces 0 count ⟨s.written ++ texts titles, s.len + (texts titles).length⟩ (strs.map .tested) := by
    induction titles with
    | nil =>
      intro s
      rw [show texts [] = [] from rfl, List.append_nil]
      rfl
    | cons piece rest ih =>
      intro s
      have later : ∀ str, Piece.tested str ∉ rest := fun str member => untested str (List.mem_cons_of_mem piece member)
      have next : ∀ str, piece.text = str →
          readPieces 0 count ⟨s.written ++ str, s.len + str.length⟩ (rest ++ strs.map .tested) =
            readPieces 0 count ⟨s.written ++ texts (piece :: rest), s.len + (texts (piece :: rest)).length⟩
              (strs.map .tested) := by
        intro str same
        rw [ih later, texts_cons, same, List.append_assoc, List.length_append, Nat.add_assoc]
      cases piece with
      | direct str => exact next str rfl
      | copied str =>
        rw [List.cons_append, readPieces, copy_here (Nat.zero_le _)]
        exact next str rfl
      | tested str => exact absurd List.mem_cons_self (untested str)
  obtain ⟨more, read⟩ := readPieces_fitting ⟨[] ++ texts titles, 0 + (texts titles).length⟩ (Nat.zero_le _) strs
  refine ⟨more, ?_⟩
  rw [readFile, printed, read]
  dsimp only
  rw [List.nil_append, Nat.zero_add, Nat.sub_zero, List.length_append]
  simp

/-- A page from a piece on, where nothing is printed to the page itself. -/
theorem readFile_at (some_room : 0 < count) {pre : List Piece} (buffered : ∀ str, Piece.direct str ∉ pre)
    (strs : List (List U8)) :
    ∃ more, readFile (pre ++ strs.map .tested) (texts pre).length count =
      ⟨(fitting count strs).flatten ++ more, ((fitting count strs).flatten.length : Nat), leftOver count strs = []⟩ := by
  have behind : (⟨[], 0⟩ : Page).len + (texts pre).length ≤ (texts pre).length := by
    dsimp only
    omega
  have here : (texts pre).length ≤ (⟨[], 0 + (texts pre).length⟩ : Page).len := by
    dsimp only
    omega
  obtain ⟨more, read⟩ := readPieces_fitting _ here strs
  refine ⟨more, ?_⟩
  rw [readFile, readPieces_behind some_room buffered ⟨[], 0⟩ behind, read]
  dsimp only
  rw [Nat.zero_add, Nat.sub_self, Nat.sub_zero]
  simp

/-! ### A call -/

section Calls

variable {file : Nat → Nat → Answer} {c : Call} {n : U32} {out : List U8}

/-- An iteration that copies something. -/
theorem step_gives {got more : List U8} {eof : Bool} (left : c.nbytes ≠ 0) (running : c.eof = false)
    (gives : file c.ppos (min procBlockSize c.nbytes.toNat) = ⟨got ++ more, (got.length : Nat), eof⟩) (some_got : got ≠ []) :
    c.step file =
      { c with
        ppos := c.ppos + got.length
        nbytes := c.nbytes - BitVec.ofNat 32 got.length
        buf := c.buf ++ got
        retval := c.retval + got.length
        eof } := by
  have positive : 0 < got.length := List.length_pos_iff.mpr some_got
  have goes_on : ¬ (c.nbytes = 0 ∨ c.eof = true) := by
    rintro (none | ended)
    · exact left none
    · rw [running] at ended
      nomatch ended
  unfold Call.step
  rw [if_neg goes_on, gives]
  dsimp only
  rw [if_neg (by omega), if_neg (by omega), Int.toNat_natCast, List.take_left, running, Bool.false_or, BitVec.ofInt_natCast]

theorem step_returns (stops : c.nbytes = 0 ∨ c.eof = true ∨ (file c.ppos (min procBlockSize c.nbytes.toNat)).n = 0) :
    c.step file = { c with returned := true } := by
  unfold Call.step
  by_cases halted : c.nbytes = 0 ∨ c.eof = true
  · rw [if_pos halted]
  · have nothing : (file c.ppos (min procBlockSize c.nbytes.toNat)).n = 0 := by
      rcases stops with left | eof | none
      · exact absurd (.inl left) halted
      · exact absurd (.inr eof) halted
      · exact none
    rw [if_neg halted]
    dsimp only
    rw [if_pos nothing]

theorem program_call (running : c.returned = false) :
    Program.step file n ⟨c, out, false⟩ = ⟨c.step file, out, false⟩ := by
  unfold Program.step
  rw [if_neg Bool.false_ne_true, if_pos running]

/-- A call that has copied something is followed by the next one. -/
theorem program_again (returned : c.returned = true) (some_read : 0 < c.retval) :
    Program.step file n ⟨c, out, false⟩ = ⟨{ ppos := c.ppos, nbytes := n }, out ++ c.buf, false⟩ := by
  unfold Program.step
  rw [if_neg Bool.false_ne_true, if_neg (by rw [returned]; decide), if_pos some_read]

theorem program_ends (returned : c.returned = true) (nothing : c.retval = 0) :
    Program.step file n ⟨c, out, false⟩ = ⟨c, out, true⟩ := by
  unfold Program.step
  rw [if_neg Bool.false_ne_true, if_neg (by rw [returned]; decide), if_neg (by rw [nothing]; decide)]

theorem program_ended (file : Nat → Nat → Answer) (n : U32) (c : Call) (out : List U8) :
    Program.step file n ⟨c, out, true⟩ = ⟨c, out, true⟩ := if_pos rfl

/-- Where a program has ended, it has the text it gets. -/
theorem gets_iff {text : List U8} (arrived : Arrives (Program.step file n) (Program.start n) ⟨c, out, true⟩) :
    Gets file n text ↔ text = out := by
  constructor
  · rintro ⟨k, ended, same⟩
    generalize at_ : (Program.step file n)^[k] (Program.start n) = p at ended same
    obtain ⟨c', out', ended'⟩ := p
    cases ended
    have one : (⟨c, out, true⟩ : Program) = ⟨c', out', true⟩ :=
      arrived.unique ⟨k, at_⟩ (program_ended file n c out) (program_ended file n c' out')
    injection one with _ outs _
    exact same.symm.trans outs.symm
  · rintro rfl
    obtain ⟨k, at_⟩ := arrived
    exact ⟨k, by rw [at_], by rw [at_]⟩

theorem left_sub {left : U32} {k : Nat} (enough : k ≤ left.toNat) :
    (left - BitVec.ofNat 32 k).toNat = left.toNat - k := by
  have small : (BitVec.ofNat 32 k).toNat = k := by
    rw [BitVec.toNat_ofNat]
    exact Nat.mod_eq_of_lt (Nat.lt_of_le_of_lt enough left.isLt)
  rw [BitVec.toNat_sub_of_le (by rw [BitVec.le_def, small]; exact enough), small]

end Calls

end TwinpassGateway.Eth.ReadProc
