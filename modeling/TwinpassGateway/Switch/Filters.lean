import TwinpassGateway.Switch.Bandwidth

/-!
The TCP/UDP filters of the switch. The setter and the getter do not split the filters between the two action registers at
the same place.
-/

namespace TwinpassGateway.Switch

open Foundation

def admSwTcpudpFilter0 : Nat := 0x8C

def admSwTcpudpAct0 : Nat := 0x96

def admSwTcpudpAct1 : Nat := 0x97

def admSwTcpudpAct2 : Nat := 0x98

/-- `x << n` as the processor does it: `sllv` takes the count modulo 32. C leaves a count outside of 0 to 31 undefined. -/
def shl (x : U32) (n : Int) : U32 := x <<< (n % 32).toNat

/-- `ifx_sw_get_tcpudp_filter`: the result, `*port` and `*queueno`, which holds `queueno` before. -/
def ifxSwGetTcpudpFilter (r : Regs) (filterno queueno : Nat) : Nat × Nat × Nat :=
  let port := ifxSwRead r (admSwTcpudpFilter0 + filterno)
  let queueno :=
    if filterno ≤ 3 then (fieldAt r admSwTcpudpAct0 (filterno * 4) 0x3#32).toNat
    else if filterno ≤ 7 then (fieldAt r admSwTcpudpAct1 ((filterno - 4) * 4) 0x3#32).toNat
    else queueno
  ((fieldAt r admSwTcpudpAct2 filterno 0x1#32).toNat, port.toNat, queueno)

def ifxSwSetTcpudpFilter (r : Regs) (filterno port queueno : Nat) : Regs :=
  if port = 0 then ifxSwWrite r admSwTcpudpAct2 (ifxSwRead r admSwTcpudpAct2 &&& ~~~(1#32 <<< filterno))
  else
    let r := ifxSwWrite r (admSwTcpudpFilter0 + filterno) (BitVec.ofNat 32 port)
    let r :=
      if filterno < 3 then
        ifxSwWrite r admSwTcpudpAct0 ((ifxSwRead r admSwTcpudpAct0 &&& ~~~(0x3#32 <<< (filterno * 4))) |||
          BitVec.ofNat 32 queueno <<< (filterno * 4))
      else
        ifxSwWrite r admSwTcpudpAct1 ((ifxSwRead r admSwTcpudpAct1 &&& ~~~ shl 0x3#32 (((filterno : Int) - 4) * 4)) |||
          shl (BitVec.ofNat 32 queueno) (((filterno : Int) - 4) * 4))
    ifxSwWrite r admSwTcpudpAct2 (ifxSwRead r admSwTcpudpAct2 ||| 1#32 <<< filterno)

structure Report where
  enabled : Nat
  port : Nat
  queue : Nat
  deriving DecidableEq

def report (r : Regs) (n : Fin 8) : Report :=
  let (isset, port, queueno) := ifxSwGetTcpudpFilter r n 0
  ⟨isset, port, queueno⟩

/-- The filter reads back as it was set, or as it was and disabled where the port is 0; the other filters are as before. -/
def ReportsBack (r : Regs) (n : Fin 8) (port : BitVec 16) (queue : Fin 4) : Prop :=
  let r' := ifxSwSetTcpudpFilter r n port.toNat queue
  report r' n = (if port = 0 then { report r n with enabled := 0 } else ⟨1, port.toNat, queue⟩) ∧
    ∀ other ≠ n, report r' other = report r other

/-! ### The fields of a filter -/

def enabledField (n : Fin 8) : Field := ⟨admSwTcpudpAct2, n, 1⟩

def portField (n : Fin 8) : Field := ⟨admSwTcpudpFilter0 + n, 0, 16⟩

def queueField (n : Fin 8) : Field :=
  ⟨if n.val ≤ 3 then admSwTcpudpAct0 else admSwTcpudpAct1, if n.val ≤ 3 then n * 4 else (n - 4) * 4, 2⟩

def enableMask (n : Fin 8) : Mask 16 := ⟨admSwTcpudpAct2, BitVec.allOnes 16, (1#32 <<< n.val).setWidth 16⟩

def disableMask (n : Fin 8) : Mask 16 := ⟨admSwTcpudpAct2, (~~~(1#32 <<< n.val)).setWidth 16, 0⟩

/-- What the setter writes to an action register. Filter 3 goes to the one the getter does not read, where the count of the
shift is negative. -/
def queueMask (n : Fin 8) (queue : Fin 4) : Mask 16 :=
  if n.val < 3 then
    ⟨admSwTcpudpAct0, (~~~(0x3#32 <<< (n.val * 4))).setWidth 16, (BitVec.ofNat 32 queue <<< (n.val * 4)).setWidth 16⟩
  else
    ⟨admSwTcpudpAct1, (~~~ shl 0x3#32 (((n.val : Int) - 4) * 4)).setWidth 16,
      (shl (BitVec.ofNat 32 queue) (((n.val : Int) - 4) * 4)).setWidth 16⟩

theorem enable_table : ∀ n m, (enableMask n).Makes (enabledField m) (if m = n then some 1 else none) := by
  decide +kernel

theorem disable_table : ∀ n m, (disableMask n).Makes (enabledField m) (if m = n then some 0 else none) := by
  decide +kernel

theorem queue_table : ∀ n queue m,
    (queueMask n queue).Makes (queueField m) (if m = n ∧ n ≠ 3 then some queue.val else none) := by
  decide +kernel

theorem filters_elsewhere : ∀ n m : Fin 8, (portField m).addr ≠ admSwTcpudpAct2 ∧
    (queueField m).addr ≠ admSwTcpudpAct2 ∧ (queueField m).addr ≠ (portField n).addr ∧
    (enabledField m).addr ≠ (portField n).addr ∧
    ∀ queue, (portField m).addr ≠ (queueMask n queue).addr ∧ (enabledField m).addr ≠ (queueMask n queue).addr := by
  decide +kernel

/-! ### What the report shows -/

theorem report_fields (r : Regs) (n : Fin 8) :
    report r n = ⟨((enabledField n).read r).toNat, ((portField n).read r).toNat, ((queueField n).read r).toNat⟩ := by
  have enabled : (fieldAt r admSwTcpudpAct2 n 0x1#32).toNat = ((enabledField n).read r).toNat := shifted_toNat r _ _ rfl
  have port : (ifxSwRead r (admSwTcpudpFilter0 + n)).toNat = ((portField n).read r).toNat := by
    rw [read_toNat, portField, field_toNat, Nat.shiftRight_zero, Nat.mod_eq_of_lt (BitVec.isLt _)]
  have low : (fieldAt r admSwTcpudpAct0 (n * 4) 0x3#32).toNat = (Field.read ⟨admSwTcpudpAct0, n * 4, 2⟩ r).toNat :=
    shifted_toNat r _ _ rfl
  have high : (fieldAt r admSwTcpudpAct1 ((n - 4) * 4) 0x3#32).toNat =
      (Field.read ⟨admSwTcpudpAct1, (n - 4) * 4, 2⟩ r).toNat := shifted_toNat r _ _ rfl
  have last : n.val ≤ 7 := Nat.le_of_lt_succ n.isLt
  unfold report ifxSwGetTcpudpFilter queueField
  dsimp only
  rw [enabled, port]
  by_cases first : n.val ≤ 3
  · simp only [low, field_toNat, if_pos first]
  · simp only [high, field_toNat, if_neg first, if_pos last]

theorem report_disabled (r : Regs) (n m : Fin 8) (queue : Fin 4) :
    report (ifxSwSetTcpudpFilter r n 0 queue) m =
      if m = n then { report r m with enabled := 0 } else report r m := by
  have written : ifxSwSetTcpudpFilter r n 0 queue = (disableMask n).write r := by
    unfold ifxSwSetTcpudpFilter
    rw [if_pos rfl]
    exact write_keep r _ _
  obtain ⟨port, queue, _⟩ := filters_elsewhere n m
  have enabled := (disable_table n m).read r
  rw [written, report_fields, report_fields, enabled]
  have samePort : (portField m).read ((disableMask n).write r) = (portField m).read r := Field.read_update port r _
  have sameQueue : (queueField m).read ((disableMask n).write r) = (queueField m).read r := Field.read_update queue r _
  rw [samePort, sameQueue]
  split <;> rfl

theorem report_set (r : Regs) (n m : Fin 8) {port : BitVec 16} (nonzero : port ≠ 0) (queue : Fin 4) :
    report (ifxSwSetTcpudpFilter r n port.toNat queue) m =
      if m = n then ⟨1, port.toNat, if n = 3 then (report r m).queue else queue⟩ else report r m := by
  have written : ifxSwSetTcpudpFilter r n port.toNat queue =
      (enableMask n).write ((queueMask n queue).write (Function.update r (portField n).addr port)) := by
    have notZero : port.toNat ≠ 0 := fun zero => nonzero (BitVec.eq_of_toNat_eq zero)
    have stored : ifxSwWrite r (admSwTcpudpFilter0 + n) (BitVec.ofNat 32 port.toNat) =
        Function.update r (portField n).addr port := by
      unfold ifxSwWrite portField
      congr 1
      simp
    unfold ifxSwSetTcpudpFilter
    rw [if_neg notZero, stored]
    generalize Function.update r (portField n).addr port = r
    dsimp only
    rw [write_put]
    unfold queueMask
    congr 1
    split
    · exact write_mask r _ _ _
    · exact write_mask r _ _ _
  obtain ⟨port₂, queue₂, queue₀, enabled₀, other⟩ := filters_elsewhere n m
  obtain ⟨port₁, enabled₁⟩ := other queue
  have enabled : ((enabledField m).read (ifxSwSetTcpudpFilter r n port.toNat queue)).toNat =
      (if m = n then some 1 else none).getD ((enabledField m).read r).toNat := by
    rw [written, (enable_table n m).read]
    congr 2
    exact (Field.read_update enabled₁ _ _).trans (Field.read_update enabled₀ r port)
  have queued : ((queueField m).read (ifxSwSetTcpudpFilter r n port.toNat queue)).toNat =
      (if m = n ∧ n ≠ 3 then some queue.val else none).getD ((queueField m).read r).toNat := by
    have last : (queueField m).read ((enableMask n).write
        ((queueMask n queue).write (Function.update r (portField n).addr port))) = _ := Field.read_update queue₂ _ _
    rw [written, last, (queue_table n queue m).read]
    congr 2
    exact Field.read_update queue₀ r port
  have ported : ((portField m).read (ifxSwSetTcpudpFilter r n port.toNat queue)).toNat =
      if m = n then port.toNat else ((portField m).read r).toNat := by
    have last : (portField m).read ((enableMask n).write
        ((queueMask n queue).write (Function.update r (portField n).addr port))) =
          (portField m).read (Function.update r (portField n).addr port) :=
      (Field.read_update port₂ _ _).trans (Field.read_update port₁ _ _)
    rw [written, last]
    split
    · rename_i same
      subst same
      rw [portField, field_toNat, Function.update_self, Nat.shiftRight_zero, Nat.mod_eq_of_lt (BitVec.isLt _)]
    · rename_i different
      have elsewhere : (portField m).addr ≠ (portField n).addr := fun same =>
        different (Fin.ext (Nat.add_left_cancel same))
      rw [Field.read_update elsewhere]
  rw [report_fields, enabled, queued, ported, report_fields]
  by_cases same : m = n
  · subst same
    by_cases third : m = 3
    · simp [third]
    · simp [third]
  · simp [same]

/-- A filter other than 3 reads back whatever the registers hold. Filter 3 keeps the queue it has. -/
theorem reports_back_iff (r : Regs) (n : Fin 8) (port : BitVec 16) (queue : Fin 4) :
    ReportsBack r n port queue ↔ port = 0 ∨ n ≠ 3 ∨ (report r n).queue = queue := by
  unfold ReportsBack
  by_cases zero : port = 0
  · subst zero
    refine iff_of_true ⟨?_, fun other different => ?_⟩ (Or.inl rfl)
    · exact (report_disabled r n n queue).trans (by rw [if_pos rfl, if_pos rfl])
    · exact (report_disabled r n other queue).trans (if_neg different)
  · have own := report_set r n n zero queue
    have others : ∀ other ≠ n, report (ifxSwSetTcpudpFilter r n port.toNat queue) other = report r other :=
      fun other different => (report_set r n other zero queue).trans (if_neg different)
    rw [if_pos rfl] at own
    simp only [zero, if_false, own, false_or, Report.mk.injEq, true_and]
    constructor
    · rintro ⟨set, _⟩
      by_cases third : n = 3
      · exact Or.inr (by rwa [if_pos third] at set)
      · exact Or.inl third
    · intro kept
      refine ⟨?_, others⟩
      split
      · rename_i third
        exact kept.resolve_left (not_not.mpr third)
      · rfl

/-- With all registers 0, filter 3 for port 80 and queue 1 is reported with queue 0. -/
theorem third_filter_not_back : ¬ ReportsBack (fun _ => 0) 3 80 1 := by
  intro back
  have report : report (ifxSwSetTcpudpFilter (fun _ => 0) 3 80 1) 3 = ⟨1, 80, 1⟩ := back.1
  exact absurd report (by decide)

end TwinpassGateway.Switch
