import TwinpassGateway.Eth.ReadProcPages
import TwinpassGateway.Eth.RouteRoundTrip
import TwinpassGateway.Foundation.Run

/-!
What a program gets that reads the route tables with a buffer of one size: whole pieces, up to the first that is as long as
its buffer.
-/

namespace TwinpassGateway.Eth.ReadProc

open Foundation Parsers Route

/-! ### Files in pieces -/

section Pieces

variable {file : Nat → Nat → Answer} {n : U32}

/-- A call that is between two pieces, with no more to copy than it was asked for. -/
structure Between (n : U32) (pre : List Piece) (c : Call) : Prop where
  running : c.returned = false
  place : c.ppos = (texts pre).length
  left : c.nbytes.toNat ≤ n.toNat
  copied : c.retval = c.buf.length

theorem Between.moved {pre pre' : List Piece} {c : Call} {got : List U8} {eof : Bool} (between : Between n pre c)
    (within : got.length ≤ c.nbytes.toNat) (place : (texts pre').length = (texts pre).length + got.length) :
    Between n pre' { c with
      ppos := c.ppos + got.length
      nbytes := c.nbytes - BitVec.ofNat 32 got.length
      buf := c.buf ++ got
      retval := c.retval + got.length
      eof } := by
  refine ⟨between.running, ?_, ?_, ?_⟩
  · dsimp only
    rw [place, between.place]
  · dsimp only
    rw [left_sub within]
    exact (Nat.sub_le _ _).trans between.left
  · dsimp only
    rw [between.copied, List.length_append, Nat.cast_add]

theorem buffered_append {pre : List Piece} (buffered : ∀ str, Piece.direct str ∉ pre) (fit : List (List U8)) (str : List U8) :
    Piece.direct str ∉ pre ++ fit.map .tested := by
  intro member
  rcases List.mem_append.mp member with before | here
  · exact buffered str before
  · obtain ⟨_, -, other⟩ := List.mem_map.mp here
    nomatch other

def readable (n : U32) (strs : List (List U8)) : List U8 := (strs.takeWhile fun str => str.length < n.toNat).flatten

theorem readable_fitting {room : Nat} (less : room ≤ n.toNat) (strs : List (List U8)) :
    (fitting room strs).flatten ++ readable n (leftOver room strs) = readable n strs := by
  have whole := fitting_append_leftOver room strs
  have below : ∀ str ∈ fitting room strs, decide (str.length < n.toNat) = true := by
    intro str member
    exact decide_eq_true (Nat.lt_of_lt_of_le (length_of_mem_fitting member) less)
  unfold readable
  conv => rhs; rw [← whole, List.takeWhile_append_of_pos below, List.flatten_append]

theorem readable_stuck {strs : List (List U8)} (short : ∀ str ∈ strs, str.length < procBlockSize)
    (none : fitting (min procBlockSize n.toNat) strs = []) : readable n strs = [] := by
  rcases fitting_eq_nil none with rfl | ⟨str, rest, rfl, long⟩
  · rfl
  · have fits := short str List.mem_cons_self
    unfold readable
    rw [List.takeWhile_cons_of_neg]
    · rfl
    · intro below
      have less := of_decide_eq_true below
      omega

theorem readable_whole_iff {strs : List (List U8)} (nonempty : [] ∉ strs) :
    readable n strs = strs.flatten ↔ ∀ str ∈ strs, str.length < n.toNat := by
  constructor
  · intro same str member
    obtain ⟨rest, whole⟩ := List.takeWhile_prefix (p := fun str : List U8 => decide (str.length < n.toNat)) (l := strs)
    have flat : strs.flatten = readable n strs ++ rest.flatten := by
      conv => lhs; rw [← whole, List.flatten_append]
      rfl
    rw [flat] at same
    have none : rest.flatten = [] := List.self_eq_append_right.mp same
    cases rest with
    | nil =>
      rw [List.append_nil] at whole
      rw [← whole] at member
      exact of_decide_eq_true (List.mem_takeWhile_imp (p := fun str : List U8 => decide (str.length < n.toNat)) member)
    | cons first others =>
      have empty : first = [] := (List.append_eq_nil_iff.mp none).1
      apply absurd _ nonempty
      rw [← whole, empty]
      exact List.mem_append_right _ List.mem_cons_self
  · intro short
    unfold readable
    rw [List.takeWhile_eq_self_iff.mpr]
    intro str member
    exact decide_eq_true (short str member)

/-- An iteration that copies pieces. -/
theorem iteration {strs : List (List U8)} {pre : List Piece} (same : file = readFile (pre ++ strs.map .tested))
    (buffered : ∀ str, Piece.direct str ∉ pre) (nonempty : [] ∉ strs) {c : Call} (between : Between n pre c)
    (running : c.eof = false) (some_fit : fitting (min procBlockSize c.nbytes.toNat) strs ≠ []) :
    ∃ fit rest, fit ++ rest = strs ∧ rest.length < strs.length ∧
      file = readFile ((pre ++ fit.map .tested) ++ rest.map .tested) ∧ fit.flatten ≠ [] ∧
      fit.flatten.length ≤ c.nbytes.toNat ∧ fit.flatten ++ readable n rest = readable n strs ∧
      Between n (pre ++ fit.map .tested) (c.step file) ∧ (c.step file).buf = c.buf ++ fit.flatten ∧
      ((c.step file).eof = true → rest = []) ∧
      (c.step file).nbytes = c.nbytes - BitVec.ofNat 32 fit.flatten.length := by
  have whole := fitting_append_leftOver (min procBlockSize c.nbytes.toNat) strs
  have below := (fitting_length (min procBlockSize c.nbytes.toNat) strs).resolve_left some_fit
  have readable_all : (fitting (min procBlockSize c.nbytes.toNat) strs).flatten ++
      readable n (leftOver (min procBlockSize c.nbytes.toNat) strs) = readable n strs :=
    readable_fitting ((Nat.min_le_right _ _).trans between.left) strs
  obtain ⟨more, answer⟩ := readFile_at (Nat.zero_lt_of_lt below) buffered strs
  generalize fitting (min procBlockSize c.nbytes.toNat) strs = fit at *
  generalize leftOver (min procBlockSize c.nbytes.toNat) strs = rest at *
  rw [← same, ← between.place] at answer
  have some_got : fit.flatten ≠ [] := by
    obtain ⟨str, others, rfl⟩ := List.exists_cons_of_ne_nil some_fit
    rw [List.flatten_cons]
    intro none
    apply nonempty
    rw [← whole, ← (List.append_eq_nil_iff.mp none).1]
    exact List.mem_append_left _ List.mem_cons_self
  have within : fit.flatten.length ≤ c.nbytes.toNat := by omega
  have left : c.nbytes ≠ 0 := by
    rintro zero
    rw [zero] at below
    exact absurd below (by simp)
  have stepped := step_gives left running answer some_got
  have fewer : rest.length < strs.length := by
    have positive := List.length_pos_iff.mpr some_fit
    rw [← whole, List.length_append]
    omega
  have same' : file = readFile ((pre ++ fit.map .tested) ++ rest.map .tested) := by
    rw [List.append_assoc, ← List.map_append, whole]
    exact same
  rw [stepped]
  refine ⟨fit, rest, whole, fewer, same', some_got, within, readable_all, ?_, rfl, of_decide_eq_true, rfl⟩
  exact between.moved within (by rw [texts_append, texts_tested, List.length_append])

/-- From any point between two pieces the program comes to its end, with the pieces that are readable. -/
theorem buffered_rest {strs : List (List U8)} {pre : List Piece} (same : file = readFile (pre ++ strs.map .tested))
    (buffered : ∀ str, Piece.direct str ∉ pre) (nonempty : [] ∉ strs) (short : ∀ str ∈ strs, str.length < procBlockSize)
    {c : Call} (between : Between n pre c) (fresh : c.buf = [] → c.nbytes = n) (last : c.eof = true → strs = [])
    (out : List U8) :
    ∃ c', Arrives (Program.step file n) ⟨c, out, false⟩ ⟨c', out ++ c.buf ++ readable n strs, true⟩ := by
  generalize size : strs.length = count
  induction count using Nat.strongRecOn generalizing strs pre c out with
  | ind count ih =>
    -- An iteration that copies pieces leaves fewer behind.
    have onward (c : Call) (out : List U8) (between : Between n pre c) (running : c.eof = false)
        (some_fit : fitting (min procBlockSize c.nbytes.toNat) strs ≠ []) :
        ∃ c', Arrives (Program.step file n) ⟨c, out, false⟩ ⟨c', out ++ c.buf ++ readable n strs, true⟩ := by
      obtain ⟨fit, rest, whole, fewer, same', some_got, -, readable_all, between', copied, last', -⟩ :=
        iteration same buffered nonempty between running some_fit
      have fresh' : (c.step file).buf = [] → (c.step file).nbytes = n := by
        rw [copied]
        exact fun none => absurd (List.append_eq_nil_iff.mp none).2 some_got
      obtain ⟨c', arrived⟩ := ih rest.length (size ▸ fewer) same' (buffered_append buffered fit)
        (fun member => nonempty (whole ▸ List.mem_append_right fit member))
        (fun str member => short str (whole ▸ List.mem_append_right fit member)) between' fresh' last' out rfl
      refine ⟨c', .after (program_call between.running) ?_⟩
      rwa [copied, ← List.append_assoc out, List.append_assoc _ fit.flatten, readable_all] at arrived
    have halts (c : Call) (between : Between n pre c)
        (stops : c.eof = true ∨ fitting (min procBlockSize c.nbytes.toNat) strs = []) :
        c.step file = { c with returned := true } := by
      apply step_returns
      rcases stops with eof | none
      · exact .inr (.inl eof)
      · by_cases zero : c.nbytes = 0
        · exact .inl zero
        · have positive : 0 < min procBlockSize c.nbytes.toNat :=
            Nat.lt_min.mpr ⟨by decide, Nat.pos_of_ne_zero fun none => zero (BitVec.eq_of_toNat_eq none)⟩
          obtain ⟨more, answer⟩ := readFile_at positive buffered strs
          right
          right
          rw [between.place, same, answer, none]
          rfl
    -- A call that has not copied anything ends the program when it cannot copy the next piece.
    have begins (c : Call) (out : List U8) (between : Between n pre c) (empty : c.buf = []) (full : c.nbytes = n)
        (last : c.eof = true → strs = []) :
        ∃ c', Arrives (Program.step file n) ⟨c, out, false⟩ ⟨c', out ++ readable n strs, true⟩ := by
      by_cases stops : c.eof = true ∨ fitting (min procBlockSize c.nbytes.toNat) strs = []
      · have stuck : fitting (min procBlockSize n.toNat) strs = [] := by
          rw [← full]
          rcases stops with eof | none
          · rw [last eof]
            rfl
          · exact none
        have nothing : c.retval = 0 := by
          rw [between.copied, empty]
          rfl
        have ended : Program.step file n ⟨{ c with returned := true }, out, false⟩ =
            ⟨{ c with returned := true }, out, true⟩ := program_ends rfl nothing
        refine ⟨{ c with returned := true }, .after (program_call between.running) (.after ?_ (.here _ _))⟩
        rw [halts c between stops, ended, readable_stuck short stuck, List.append_nil]
      · have running : c.eof = false := Bool.eq_false_iff.mpr fun eof => stops (.inl eof)
        have arrived := onward c out between running fun none => stops (.inr none)
        rwa [empty, List.append_nil] at arrived
    by_cases stops : c.eof = true ∨ fitting (min procBlockSize c.nbytes.toNat) strs = []
    · by_cases empty : c.buf = []
      · rw [empty, List.append_nil]
        exact begins c out between empty (fresh empty) last
      · have some_read : 0 < c.retval := by
          rw [between.copied]
          exact Int.natCast_pos.mpr (List.length_pos_iff.mpr empty)
        obtain ⟨c', arrived⟩ := begins { ppos := c.ppos, nbytes := n } (out ++ c.buf)
          ⟨rfl, between.place, Nat.le_refl _, rfl⟩ rfl rfl (fun eof => nomatch eof)
        have again : Program.step file n ⟨{ c with returned := true }, out, false⟩ =
            ⟨{ ppos := c.ppos, nbytes := n }, out ++ c.buf, false⟩ := program_again rfl some_read
        refine ⟨c', .after (program_call between.running) (.after ?_ arrived)⟩
        rw [halts c between stops, again]
    · exact onward c out between (Bool.eq_false_iff.mpr fun eof => stops (.inl eof)) fun none => stops (.inr none)

/-- A file whose titles are copied like its other pieces. -/
theorem buffered_file {titles : List Piece} (buffered : ∀ str, Piece.direct str ∉ titles)
    (untested : ∀ str, Piece.tested str ∉ titles) (titled : texts titles ≠ []) (room : (texts titles).length ≤ n.toNat)
    {strs : List (List U8)} (nonempty : [] ∉ strs) (short : ∀ str ∈ strs, str.length < procBlockSize) (text : List U8) :
    Gets (readFile (titles ++ strs.map .tested)) n text ↔ text = texts titles ++ readable n strs := by
  generalize same : readFile (titles ++ strs.map .tested) = file
  have whole := fitting_append_leftOver (min procBlockSize n.toNat - (texts titles).length) strs
  have length := fitting_length (min procBlockSize n.toNat - (texts titles).length) strs
  have readable_all : (fitting (min procBlockSize n.toNat - (texts titles).length) strs).flatten ++
      readable n (leftOver (min procBlockSize n.toNat - (texts titles).length) strs) = readable n strs :=
    readable_fitting ((Nat.sub_le _ _).trans (Nat.min_le_right _ _)) strs
  obtain ⟨more, answer⟩ := readFile_start untested strs
  generalize fitting (min procBlockSize n.toNat - (texts titles).length) strs = fit at *
  generalize leftOver (min procBlockSize n.toNat - (texts titles).length) strs = rest at *
  rw [same] at answer
  have some_got : texts titles ++ fit.flatten ≠ [] := fun none => titled (List.append_eq_nil_iff.mp none).1
  have within : (texts titles ++ fit.flatten).length ≤ n.toNat := by
    rw [List.length_append]
    rcases length with none | below
    · rw [none]
      exact room
    · omega
  have left : n ≠ 0 := by
    rintro rfl
    exact titled (List.length_eq_zero_iff.mp (Nat.le_zero.mp room))
  have stepped : ({ ppos := 0, nbytes := n } : Call).step file = _ := step_gives left rfl answer some_got
  have start : Between n [] { ppos := 0, nbytes := n } := ⟨rfl, rfl, Nat.le_refl _, rfl⟩
  have between : Between n (titles ++ fit.map .tested) (({ ppos := 0, nbytes := n } : Call).step file) := by
    rw [stepped]
    exact start.moved within (by rw [texts_append, texts_tested, List.length_append]; exact (Nat.zero_add _).symm)
  have same' : file = readFile ((titles ++ fit.map .tested) ++ rest.map .tested) := by
    rw [List.append_assoc, ← List.map_append, whole]
    exact same.symm
  obtain ⟨c', arrived⟩ := buffered_rest same' (buffered_append buffered fit)
    (fun member => nonempty (whole ▸ List.mem_append_right fit member))
    (fun str member => short str (whole ▸ List.mem_append_right fit member)) between
    (by
      rw [stepped]
      exact fun none => absurd none some_got)
    (by
      rw [stepped]
      exact of_decide_eq_true) []
  have ended : [] ++ (({ ppos := 0, nbytes := n } : Call).step file).buf ++ readable n rest =
      texts titles ++ readable n strs := by
    rw [stepped, ← readable_all]
    exact List.append_assoc (texts titles) fit.flatten (readable n rest)
  rw [ended] at arrived
  exact gets_iff (.after (program_call rfl) arrived)

/-- A call that is to copy more than there is copies all of it. -/
theorem rest_in_one_call {strs : List (List U8)} {pre : List Piece} (same : file = readFile (pre ++ strs.map .tested))
    (buffered : ∀ str, Piece.direct str ∉ pre) (nonempty : [] ∉ strs) (short : ∀ str ∈ strs, str.length < procBlockSize)
    {c : Call} (between : Between n pre c) (last : c.eof = true → strs = []) (more : strs.flatten.length < c.nbytes.toNat) :
    ∃ c', Arrives (Call.step file) c c' ∧ c'.returned = true ∧ c'.retval = c'.buf.length ∧
      c'.buf = c.buf ++ strs.flatten := by
  generalize size : strs.length = count
  induction count using Nat.strongRecOn generalizing strs pre c with
  | ind count ih =>
    by_cases done : strs = []
    · have stepped : c.step file = { c with returned := true } := by
        apply step_returns
        by_cases zero : c.nbytes = 0
        · exact .inl zero
        · have positive : 0 < min procBlockSize c.nbytes.toNat := Nat.lt_min.mpr ⟨by decide, Nat.zero_lt_of_lt more⟩
          obtain ⟨_, answer⟩ := readFile_at positive buffered strs
          right
          right
          rw [between.place, same, answer, done]
          rfl
      refine ⟨{ c with returned := true }, .after stepped (.here _ _), rfl, between.copied, ?_⟩
      rw [done, List.flatten_nil, List.append_nil]
    · have running : c.eof = false := Bool.eq_false_iff.mpr fun eof => done (last eof)
      have some_fit : fitting (min procBlockSize c.nbytes.toNat) strs ≠ [] := by
        intro none
        rcases fitting_eq_nil none with nothing | ⟨str, others, rfl, long⟩
        · exact done nothing
        · have first := short str List.mem_cons_self
          rw [List.flatten_cons, List.length_append] at more
          omega
      obtain ⟨fit, rest, whole, fewer, same', -, within, -, between', copied, last', left⟩ :=
        iteration same buffered nonempty between running some_fit
      have more' : rest.flatten.length < (c.step file).nbytes.toNat := by
        rw [← whole, List.flatten_append, List.length_append] at more
        rw [left, left_sub within]
        omega
      obtain ⟨c', arrived, returned, counted, all⟩ := ih rest.length (size ▸ fewer) same' (buffered_append buffered fit)
        (fun member => nonempty (whole ▸ List.mem_append_right fit member))
        (fun str member => short str (whole ▸ List.mem_append_right fit member)) between' last' more' rfl
      refine ⟨c', .after rfl arrived, returned, counted, ?_⟩
      rw [all, copied, List.append_assoc, ← List.flatten_append, whole]

end Pieces

/-! ### The route tables -/

theorem routNum_lt (w : Words) (side : Side) : routNum w side < 512 := by
  have high (v : U32) : (v >>> 23).toNat < 512 := by
    rw [BitVec.toNat_ushiftRight, Nat.shiftRight_eq_div_pow]
    have bound := v.isLt
    omega
  cases side with
  | lan => exact high _
  | wan => exact high _

theorem printRoute_ne_nil (newLabel macLabel : String) (i : Int) (c : CompareTbl) (a : ActionTbl) :
    printRoute newLabel macLabel i c a ≠ [] := by
  intro none
  have label := (List.append_eq_nil_iff.mp (List.append_eq_nil_iff.mp (List.append_eq_nil_iff.mp none).1).1).1
  exact absurd label (by decide)

theorem routeEntries_bounds {w : Words} {side : Side} {newLabel macLabel : String}
    (newWidth : (asciiText newLabel).length = 19) (macWidth : (asciiText macLabel).length = 19) {str : List U8}
    (member : str ∈ routeEntries w side (printRoute newLabel macLabel)) : str ≠ [] ∧ str.length ≤ 500 := by
  obtain ⟨i, used, rfl⟩ := List.mem_map.mp member
  have inside : i < routNum w side := List.mem_range.mp (List.mem_of_mem_filter used)
  have few := routNum_lt w side
  exact ⟨printRoute_ne_nil _ _ _ _ _, printRoute_length_le newWidth macWidth (by omega) _ _⟩

theorem routeTexts_bounds {w : Words} {str : List U8} (member : str ∈ routeTexts w) : str ≠ [] ∧ str.length ≤ 500 := by
  rcases List.mem_append.mp member with wan | other
  · exact routeEntries_bounds (by decide) (by decide) wan
  · rcases List.mem_cons.mp other with rfl | lan
    · decide
    · exact routeEntries_bounds (by decide) (by decide) lan

theorem routeTexts_nonempty (w : Words) : [] ∉ routeTexts w := fun member => (routeTexts_bounds member).1 rfl

theorem routeTexts_short (w : Words) (str : List U8) (member : str ∈ routeTexts w) : str.length < procBlockSize :=
  Nat.lt_of_le_of_lt (routeTexts_bounds member).2 (by decide)

theorem routeTexts_few (w : Words) : (routeTexts w).length ≤ 1023 := by
  have entries (side : Side) (print : Int → CompareTbl → ActionTbl → List U8) :
      (routeEntries w side print).length ≤ 511 := by
    have few := routNum_lt w side
    have filtered := List.length_filter_le (fun i => decide (compareRow w side i 0 ≠ 0 ∧ compareRow w side i 1 ≠ 0))
      (List.range (routNum w side))
    rw [List.length_range] at filtered
    rw [routeEntries, List.length_map]
    omega
  have wan := entries .wan printWanRoute
  have lan := entries .lan printLanRoute
  rw [routeTexts, List.length_append, List.length_cons]
  omega

def routeHead : List Piece := [.copied routeTitle]

theorem routeHead_buffered (str : List U8) : Piece.direct str ∉ routeHead := fun member => nomatch List.mem_singleton.mp member

theorem routeHead_untested (str : List U8) : Piece.tested str ∉ routeHead := fun member => nomatch List.mem_singleton.mp member

theorem texts_routeHead : texts routeHead = routeTitle := List.append_nil _

/-- A program that reads the route tables with a buffer that has room for the title gets the title and the entries before the
first one that is as long as the buffer, and so the whole text exactly when they are all shorter. -/
theorem route_file_read (w : Words) {n : U32} (room : 18 ≤ n.toNat) :
    (∀ text, Gets (procReadRoute w) n text ↔ text = routeTitle ++ readable n (routeTexts w)) ∧
      (Gets (procReadRoute w) n (routeTitle ++ (routeTexts w).flatten) ↔
        ∀ str ∈ routeTexts w, str.length < n.toNat) := by
  have titled : texts routeHead ≠ [] := by decide
  have fits : (texts routeHead).length ≤ n.toNat := room
  have gets (text : List U8) : Gets (procReadRoute w) n text ↔ text = routeTitle ++ readable n (routeTexts w) := by
    rw [← texts_routeHead]
    exact buffered_file routeHead_buffered routeHead_untested titled fits (routeTexts_nonempty w) (routeTexts_short w) text
  refine ⟨gets, ?_⟩
  rw [gets, List.append_cancel_left_eq, ← readable_whole_iff (routeTexts_nonempty w)]
  exact eq_comm

def oneEntryTables : Words := fun a =>
  if a = WAN_ROUT_TBL_CFG then 0x00800000#32
  else if a = 0x8090 then 0xC0A80102#32
  else if a = 0x8091 then 0x0A000001#32
  else if a = 0x8092 then 0x04D20050#32
  else 0#32

/-- The entry has 391 characters: a program that reads 100 at a time does not get it. -/
theorem route_file_read_cut : Gets (procReadRoute oneEntryTables) 100#32 routeTitle := by
  have stuck : readable 100#32 (routeTexts oneEntryTables) = [] := by decide +kernel
  apply ((route_file_read oneEntryTables (n := 100#32) (by decide)).1 routeTitle).mpr
  rw [stuck, List.append_nil]

/-- The first call for fewer bytes than the title has copies the whole text, past the end of the buffer: with the title,
more is copied than was asked for, and what is left to copy wraps around. -/
theorem short_read_overruns (w : Words) {n : U32} (some_asked : n ≠ 0) (few : n.toNat < 18) :
    ∃ c, Arrives (Call.step (procReadRoute w)) { ppos := 0, nbytes := n } c ∧ c.returned = true ∧
      c.retval = c.buf.length ∧ c.buf = routeTitle ++ (routeTexts w).flatten := by
  have none : fitting (min procBlockSize n.toNat - (texts routeHead).length) (routeTexts w) = [] := by
    have no_room : min procBlockSize n.toNat - (texts routeHead).length = 0 :=
      Nat.sub_eq_zero_of_le ((Nat.min_le_right _ _).trans (Nat.le_of_lt few))
    rw [no_room, fitting_zero]
  have left_all := fitting_append_leftOver (min procBlockSize n.toNat - (texts routeHead).length) (routeTexts w)
  obtain ⟨more, answer⟩ := readFile_start routeHead_untested (routeTexts w)
  rw [none, List.nil_append] at left_all
  rw [none, left_all, List.flatten_nil, List.append_nil] at answer
  have some_left : routeTexts w ≠ [] := List.append_ne_nil_of_right_ne_nil _ (List.cons_ne_nil _ _)
  have stepped : ({ ppos := 0, nbytes := n } : Call).step (procReadRoute w) = _ :=
    step_gives some_asked rfl answer (by decide)
  have wide : (n - BitVec.ofNat 32 (texts routeHead).length).toNat = n.toNat + 2 ^ 32 - 18 := by
    rw [show (texts routeHead).length = 18 from by decide, BitVec.toNat_sub]
    simp only [BitVec.toNat_ofNat]
    omega
  have total : (routeTexts w).flatten.length ≤ 1023 * 500 :=
    (flatten_length_le fun str member => (routeTexts_bounds member).2).trans
      (Nat.mul_le_mul_right 500 (routeTexts_few w))
  have between : Between (n - BitVec.ofNat 32 (texts routeHead).length) routeHead
      (({ ppos := 0, nbytes := n } : Call).step (procReadRoute w)) := by
    rw [stepped]
    exact ⟨rfl, Nat.zero_add _, Nat.le_refl _, Int.zero_add _⟩
  have same : procReadRoute w = readFile (routeHead ++ (routeTexts w).map .tested) := rfl
  obtain ⟨c, arrived, returned, counted, all⟩ := rest_in_one_call same routeHead_buffered (routeTexts_nonempty w)
    (routeTexts_short w) between
    (by
      rw [stepped]
      exact fun eof => absurd (of_decide_eq_true eof) some_left)
    (by
      rw [stepped, wide]
      omega)
  refine ⟨c, .after rfl arrived, returned, counted, ?_⟩
  rw [all, stepped, ← texts_routeHead]
  rfl

theorem short_read_overruns_one_byte :
    ∃ c, Arrives (Call.step (procReadRoute oneEntryTables)) { ppos := 0, nbytes := 1#32 } c ∧ c.buf.length = 427 := by
  obtain ⟨c, arrived, -, -, all⟩ := short_read_overruns oneEntryTables (n := 1#32) (by decide) (by decide)
  refine ⟨c, arrived, ?_⟩
  rw [all]
  decide +kernel

end TwinpassGateway.Eth.ReadProc
