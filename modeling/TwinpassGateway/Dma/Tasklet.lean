import TwinpassGateway.Foundation.Run
import TwinpassGateway.Foundation.Word

/-!
The DMA interrupts and the tasklet that serves the channels. The tasklet runs statement by statement, and
an interrupt can come between any two of them; the handler itself runs with interrupts off (it is requested
with `SA_INTERRUPT`), and so do the parts of the tasklet between `local_irq_save` and `local_irq_restore`.
-/

namespace TwinpassGateway.Dma

open Foundation

/-! ### The machine -/

abbrev Channel := Fin 20

@[instance] theorem twenty_neZero : NeZero 20 := ⟨Nat.succ_ne_zero 19⟩

def dmaIntBudget : Nat := 25

/-- The direction of a channel in `default_dma_map`: every other one receives. -/
def Channel.receives (ch : Channel) : Bool := ch.val % 2 = 0

def Channel.bit (ch : Channel) : U32 := 1#32 <<< ch.val

def Pending (status : U32) (ch : Channel) : Prop := status.getLsbD ch.val = true

inductive TaskletAt where
  | idle
  /-- At the condition of the outer loop. -/
  | loop
  /-- At `if (budget-- < 0)`. -/
  | budget
  /-- In the selection, before channel `i`; `weight` is that of `chan`, the best so far. -/
  | select (i : Nat) (chan : Option Channel) (weight : Int)
  /-- At the condition of `rx_chan_intr_handler`. -/
  | rx (ch : Channel)
  /-- At `pCh->weight--`. -/
  | rxWeight (ch : Channel)
  /-- At the start of `tx_chan_intr_handler`. -/
  | tx (ch : Channel)
  /-- Where it calls the handler of the device. -/
  | txHandler (ch : Channel)
  /-- Where all weights are reset. -/
  | refill
  /-- Behind the outer loop. -/
  | leave

/-- What a statement meets: the descriptor of the channel, and the channels that the handler of the device switches off
with `disable_ch_irq`. -/
structure Surroundings where
  /-- The descriptor is complete, and its packet not too long. -/
  complete : Bool
  /-- The hardware has the descriptor. -/
  own : Bool
  disabled : U32

structure Interrupts where
  /-- `g_danube_dma_int_status`. -/
  status : U32 := 0
  /-- `g_danube_dma_in_process`. -/
  inProcess : Bool := false
  /-- `dma_tasklet` is scheduled. -/
  scheduled : Bool := false
  weight : Channel → Int
  defaultWeight : Channel → Int
  point : TaskletAt := .idle
  budget : Int := 0
  /-- The iterations of this run of the tasklet. -/
  turns : Nat := 0
  /-- What was pending when the selection began, or when it came to the channel. -/
  seen : U32 := 0

inductive InterruptEvent where
  /-- `dma_interrupt`. -/
  | interrupt (ch : Channel)
  /-- The kernel starts the tasklet. -/
  | start
  | run (around : Surroundings)
  /-- A process switches a channel off. -/
  | disable (ch : Channel)

namespace Interrupts

def interrupt (s : Interrupts) (ch : Channel) : Interrupts :=
  { s with status := s.status ||| ch.bit, inProcess := true, scheduled := s.scheduled || !s.inProcess }

def look (s : Interrupts) (i : Channel) : U32 := if s.status.getLsbD i.val = true then s.seen ||| i.bit else s.seen

def selectNext (s : Interrupts) (i : Channel) (chan : Option Channel) (weight : Int) : Interrupts :=
  if s.status.getLsbD i.val = true ∧ 0 < s.weight i ∧ weight < s.weight i then
    { s with seen := s.look i, point := .select (i.val + 1) (some i) (s.weight i) }
  else { s with seen := s.look i, point := .select (i.val + 1) chan weight }

def next (s : Interrupts) (around : Surroundings) : Interrupts :=
  match s.point with
  | .idle => s
  | .loop => if s.status ≠ 0 then { s with point := .budget } else { s with point := .leave }
  | .budget =>
    if s.budget < 0 then { s with budget := s.budget - 1, scheduled := true, point := .idle }
    else
      { s with budget := s.budget - 1, turns := s.turns + 1, seen := s.status, point := .select 0 none 0 }
  | .select i chan weight =>
    if inside : i < 20 then s.selectNext ⟨i, inside⟩ chan weight
    else
      match chan with
      | some ch => { s with point := if ch.receives then .rx ch else .tx ch }
      | none => { s with point := .refill }
  | .rx ch =>
    if around.complete then { s with status := s.status &&& ~~~around.disabled, point := .rxWeight ch }
    else { s with status := if around.own then s.status &&& ~~~ch.bit else s.status, point := .loop }
  | .rxWeight ch => { s with weight := Function.update s.weight ch (s.weight ch - 1), point := .loop }
  | .tx ch => { s with status := s.status &&& ~~~ch.bit, point := .txHandler ch }
  | .txHandler _ => { s with status := s.status &&& ~~~around.disabled, point := .loop }
  | .refill => { s with weight := s.defaultWeight, point := .loop }
  | .leave =>
    -- interrupts are off here
    if s.status ≠ 0 then { s with inProcess := true, scheduled := true, point := .idle }
    else { s with inProcess := false, point := .idle }

def step (s : Interrupts) : InterruptEvent → Interrupts
  | .interrupt ch => s.interrupt ch
  | .start =>
    match s.scheduled, s.point with
    | true, .idle => { s with scheduled := false, budget := dmaIntBudget, turns := 0, point := .loop }
    | _, _ => s
  | .run around => s.next around
  | .disable ch =>
    match s.point with
    | .idle => { s with status := s.status &&& ~~~ch.bit }
    | _ => s

end Interrupts

variable {s : Interrupts} {ch : Channel}

/-! ### Waking -/

structure Interrupts.Awake (s : Interrupts) : Prop where
  pending : s.status ≠ 0 → s.inProcess = true
  woken : s.inProcess = true → s.scheduled = true ∨ s.point ≠ .idle
  inProcess : s.scheduled = true ∨ s.point ≠ .idle → s.inProcess = true
  /-- A tasklet that runs is not scheduled again before it ends. -/
  once : s.point ≠ .idle → s.scheduled = false

theorem awake_running (inProcess : s.inProcess = true) (running : s.point ≠ .idle) (once : s.scheduled = false) :
    s.Awake :=
  ⟨fun _ => inProcess, fun _ => Or.inr running, fun _ => inProcess, fun _ => once⟩

theorem awake_scheduled (inProcess : s.inProcess = true) (scheduled : s.scheduled = true) (idle : s.point = .idle) :
    s.Awake :=
  ⟨fun _ => inProcess, fun _ => Or.inl scheduled, fun _ => inProcess, fun running => absurd idle running⟩

theorem awake_interrupt (awake : s.Awake) (ch : Channel) : (s.interrupt ch).Awake := by
  by_cases idle : s.point = .idle
  · refine awake_scheduled rfl ?_ idle
    show (s.scheduled || !s.inProcess) = true
    cases flag : s.inProcess with
    | false => exact Bool.or_true _
    | true =>
      have scheduled := (awake.woken flag).resolve_right fun running => running idle
      rw [scheduled]
      rfl
  · refine awake_running rfl idle ?_
    show (s.scheduled || !s.inProcess) = false
    rw [awake.once idle, awake.inProcess (Or.inr idle)]
    rfl

theorem awake_start (awake : s.Awake) : (s.step .start).Awake := by
  unfold Interrupts.step
  simp only
  split
  · rename_i scheduled _
    exact awake_running (awake.inProcess (Or.inl scheduled)) (fun impossible => by cases impossible) rfl
  · exact awake

theorem awake_disable (awake : s.Awake) (ch : Channel) : (s.step (.disable ch)).Awake := by
  unfold Interrupts.step
  simp only
  split
  · refine ⟨fun left => awake.pending ?_, awake.woken, awake.inProcess, awake.once⟩
    intro none_pending
    apply left
    show s.status &&& ~~~ch.bit = 0
    rw [none_pending]
    exact BitVec.zero_and
  · exact awake

/-- Wherever the tasklet stands but at its end, its next statement keeps the flags. -/
theorem next_flags (around : Surroundings) (running : s.point ≠ .idle) (inside : s.point ≠ .leave) :
    (s.next around).inProcess = s.inProcess ∧
      ((s.next around).point ≠ .idle ∧ (s.next around).scheduled = s.scheduled ∨
        (s.next around).point = .idle ∧ (s.next around).scheduled = true) := by
  unfold Interrupts.next Interrupts.selectNext
  cases point : s.point with
  | idle => exact absurd point running
  | leave => exact absurd point inside
  | loop =>
    simp only
    split <;> simp
  | budget =>
    simp only
    split <;> simp
  | select i chan weight =>
    simp only
    split
    · split <;> simp
    · cases chan with
      | none => simp
      | some ch =>
        simp only
        split <;> simp
  | rx ch =>
    simp only
    split <;> simp
  | rxWeight ch | tx ch | txHandler ch | refill => simp

theorem awake_next (awake : s.Awake) (around : Surroundings) : (s.next around).Awake := by
  by_cases idle : s.point = .idle
  · have still : s.next around = s := by
      unfold Interrupts.next
      rw [idle]
    rw [still]
    exact awake
  · by_cases last : s.point = .leave
    · unfold Interrupts.next
      rw [last]
      simp only
      split
      · exact awake_scheduled rfl rfl rfl
      · rename_i none_pending
        have once := awake.once idle
        refine ⟨fun some_pending => absurd some_pending none_pending, fun impossible => (by cases impossible), ?_,
          fun running => absurd rfl running⟩
        rintro (scheduled | running)
        · exact absurd (once.symm.trans scheduled) Bool.false_ne_true
        · exact absurd rfl running
    · obtain ⟨flag, ⟨running, same⟩ | ⟨ended, scheduled⟩⟩ := next_flags around idle last
      · exact awake_running (flag.trans (awake.inProcess (Or.inr idle))) running (same.trans (awake.once idle))
      · exact awake_scheduled (flag.trans (awake.inProcess (Or.inr idle))) scheduled ended

theorem awake_step (awake : s.Awake) (e : InterruptEvent) : (s.step e).Awake := by
  cases e with
  | interrupt ch => exact awake_interrupt awake ch
  | start => exact awake_start awake
  | run around => exact awake_next awake around
  | disable ch => exact awake_disable awake ch

/-! ### The budget -/

structure Interrupts.Budgeted (s : Interrupts) : Prop where
  turns : s.turns ≤ dmaIntBudget + 1
  left : s.point ≠ .idle → s.budget + s.turns = dmaIntBudget

theorem next_budget (around : Surroundings) (elsewhere : s.point ≠ .budget) :
    (s.next around).turns = s.turns ∧ (s.next around).budget = s.budget ∧
      ((s.next around).point ≠ .idle → s.point ≠ .idle) := by
  unfold Interrupts.next Interrupts.selectNext
  cases point : s.point with
  | budget => exact absurd point elsewhere
  | idle => exact ⟨rfl, rfl, fun running => absurd point running⟩
  | loop | rx ch | leave =>
    simp only
    split <;> simp
  | select i chan weight =>
    simp only
    split
    · split <;> simp
    · cases chan <;> simp
  | rxWeight ch | tx ch | txHandler ch | refill => simp

theorem budgeted_step (budgeted : s.Budgeted) (e : InterruptEvent) : (s.step e).Budgeted := by
  cases e with
  | interrupt ch => exact ⟨budgeted.turns, budgeted.left⟩
  | start =>
    unfold Interrupts.step
    simp only
    split
    · exact ⟨Nat.zero_le _, fun _ => rfl⟩
    · exact budgeted
  | disable ch =>
    unfold Interrupts.step
    simp only
    split
    · exact ⟨budgeted.turns, budgeted.left⟩
    · exact budgeted
  | run around =>
    show (s.next around).Budgeted
    by_cases counting : s.point = .budget
    · have left := budgeted.left (by rw [counting]; exact fun impossible => by cases impossible)
      unfold Interrupts.next
      rw [counting]
      simp only
      split
      · exact ⟨budgeted.turns, fun running => absurd rfl running⟩
      · rename_i more
        refine ⟨?_, fun _ => ?_⟩
        · show s.turns + 1 ≤ dmaIntBudget + 1
          omega
        · show s.budget - 1 + ((s.turns + 1 : Nat) : Int) = dmaIntBudget
          push_cast
          omega
    · obtain ⟨turns, budget, running⟩ := next_budget around counting
      refine ⟨turns ▸ budgeted.turns, fun still => ?_⟩
      rw [turns, budget]
      exact budgeted.left (running still)

/-! ### The selection -/

theorem pending_interrupt {j : Channel} (found : Pending s.status j) (ch : Channel) : Pending (s.interrupt ch).status j := by
  show (s.status ||| ch.bit).getLsbD j.val = true
  rw [BitVec.getLsbD_or, show s.status.getLsbD j.val = true from found, Bool.true_or]

theorem seen_of_look {i j : Channel} (found : Pending (s.look i) j) : Pending s.seen j ∨ j = i ∧ Pending s.status j := by
  unfold Interrupts.look at found
  split at found
  · rename_i pending
    have either : (s.seen ||| i.bit).getLsbD j.val = true := found
    rw [BitVec.getLsbD_or, Bool.or_eq_true] at either
    refine either.imp_right fun bit => ?_
    have same : j = i := by
      unfold Channel.bit at bit
      simp only [BitVec.getLsbD_shiftLeft, BitVec.getLsbD_one, Bool.and_eq_true, decide_eq_true_eq, Bool.not_eq_true',
        decide_eq_false_iff_not] at bit
      apply Fin.ext
      omega
    subst same
    exact ⟨rfl, pending⟩
  · exact Or.inl found

/-- The best of the channels up to `i` that the selection has seen pending. -/
structure Interrupts.Best (s : Interrupts) (i : Nat) (chan : Option Channel) (weight : Int) : Prop where
  still : ∀ j, Pending s.seen j → Pending s.status j
  best : ∀ j : Channel, j.val < i → Pending s.seen j → s.weight j ≤ weight
  found : ∀ ch, chan = some ch → Pending s.status ch ∧ 0 < weight ∧ s.weight ch = weight
  start : chan = none → weight = 0

/-- The channel is pending, and none that the selection has seen pending has a greater weight. -/
structure Interrupts.Serves (s : Interrupts) (ch : Channel) : Prop where
  pending : Pending s.status ch
  positive : 0 < s.weight ch
  greatest : ∀ j, Pending s.seen j → s.weight j ≤ s.weight ch

/-- What the selection has found so far, and what the tasklet then does. -/
def Interrupts.Selected (s : Interrupts) : Prop :=
  match s.point with
  | .select i chan weight => s.Best i chan weight
  | .rx ch => ch.receives = true ∧ s.Serves ch
  | .tx ch => ch.receives = false ∧ s.Serves ch
  | .refill => ∀ j, Pending s.seen j → s.weight j ≤ 0
  | _ => True

theorem best_next {i : Channel} {chan : Option Channel} {weight : Int} (best : s.Best i.val chan weight) :
    (s.selectNext i chan weight).Selected := by
  have known : 0 ≤ weight := by
    cases chan with
    | none => rw [best.start rfl]
    | some ch => exact (best.found ch rfl).2.1.le
  have still : ∀ j, Pending (s.look i) j → Pending s.status j := by
    intro j found
    rcases seen_of_look found with seen | ⟨_, pending⟩
    · exact best.still j seen
    · exact pending
  unfold Interrupts.selectNext
  split
  · rename_i better
    obtain ⟨pending, positive, more⟩ := better
    refine ⟨still, ?_, ?_, fun impossible => (by cases impossible)⟩
    · intro j before found
      rcases Nat.lt_succ_iff_lt_or_eq.mp before with earlier | same
      · rcases seen_of_look found with seen | ⟨here, _⟩
        · exact (best.best j earlier seen).trans more.le
        · exact absurd (congrArg Fin.val here) earlier.ne
      · rw [Fin.ext same]
    · rintro ch same
      cases same
      exact ⟨pending, positive, rfl⟩
  · rename_i worse
    refine ⟨still, ?_, best.found, best.start⟩
    intro j before found
    rcases Nat.lt_succ_iff_lt_or_eq.mp before with earlier | same
    · rcases seen_of_look found with seen | ⟨here, _⟩
      · exact best.best j earlier seen
      · exact absurd (congrArg Fin.val here) earlier.ne
    · have here : j = i := Fin.ext same
      subst here
      by_contra above
      exact worse ⟨still j found, known.trans_lt (not_le.mp above), not_le.mp above⟩

theorem selected_step (selected : s.Selected) (e : InterruptEvent) : (s.step e).Selected := by
  cases e with
  | interrupt ch =>
    show (s.interrupt ch).Selected
    have same : (s.interrupt ch).point = s.point := rfl
    unfold Interrupts.Selected at selected ⊢
    rw [same]
    cases point : s.point with
    | select i chan weight =>
      rw [point] at selected
      refine ⟨fun j pended => pending_interrupt (selected.still j pended) ch, selected.best, ?_, selected.start⟩
      intro ch' chosen
      obtain ⟨pending, rest⟩ := selected.found ch' chosen
      exact ⟨pending_interrupt pending ch, rest⟩
    | rx ch' | tx ch' =>
      rw [point] at selected
      obtain ⟨direction, serves⟩ := selected
      exact ⟨direction, pending_interrupt serves.pending ch, serves.positive, serves.greatest⟩
    | refill =>
      rw [point] at selected
      exact selected
    | _ => trivial
  | start =>
    unfold Interrupts.step
    simp only
    split
    · trivial
    · exact selected
  | disable ch =>
    unfold Interrupts.step
    simp only
    split
    · rename_i idle
      unfold Interrupts.Selected
      simp only [idle]
    · exact selected
  | run around =>
    show (s.next around).Selected
    unfold Interrupts.next
    cases point : s.point with
    | idle => exact selected
    | budget =>
      simp only
      split
      · trivial
      · refine ⟨fun j pended => pended, fun j before => absurd before (Nat.not_lt_zero _), ?_, fun _ => rfl⟩
        rintro ch impossible
        cases impossible
    | select i chan weight =>
      have best : s.Best i chan weight := by
        unfold Interrupts.Selected at selected
        rw [point] at selected
        exact selected
      simp only
      split
      · rename_i inside
        exact best_next (i := ⟨i, inside⟩) best
      · rename_i past
        have all : ∀ j, Pending s.seen j → s.weight j ≤ weight := fun j pended =>
          best.best j (j.isLt.trans_le (not_lt.mp past)) pended
        cases chan with
        | none =>
          rw [best.start rfl] at all
          exact all
        | some ch =>
          obtain ⟨pending, positive, same⟩ := best.found ch rfl
          have serves : s.Serves ch := ⟨pending, same ▸ positive, fun j pended => same ▸ all j pended⟩
          simp only
          cases direction : ch.receives with
          | true => exact ⟨direction, serves.pending, serves.positive, serves.greatest⟩
          | false => exact ⟨direction, serves.pending, serves.positive, serves.greatest⟩
    | loop | rx ch | leave =>
      simp only
      split <;> trivial
    | rxWeight ch | tx ch | txHandler ch | refill => trivial

/-! ### Runs -/

structure Interrupts.Sound (s : Interrupts) : Prop where
  awake : s.Awake
  budgeted : s.Budgeted
  selected : s.Selected

theorem sound_exec (sound : s.Sound) (events : List InterruptEvent) : (exec Interrupts.step s events).Sound := by
  induction events generalizing s with
  | nil => exact sound
  | cons e rest ih =>
    exact ih ⟨awake_step sound.awake e, budgeted_step sound.budgeted e, selected_step sound.selected e⟩

theorem sound_start (weight defaultWeight : Channel → Int) : Interrupts.Sound { weight, defaultWeight } := by
  refine ⟨⟨fun pending => absurd rfl pending, fun impossible => (by cases impossible), ?_, fun _ => rfl⟩,
    ⟨Nat.zero_le _, fun running => absurd rfl running⟩, trivial⟩
  rintro (impossible | running)
  · cases impossible
  · exact absurd rfl running

theorem woken_of_pending (sound : s.Sound) (pending : Pending s.status ch) : s.scheduled = true ∨ s.point ≠ .idle := by
  apply sound.awake.woken
  apply sound.awake.pending
  intro none_pending
  unfold Pending at pending
  rw [none_pending] at pending
  simp at pending

theorem serves_of_selected (selected : s.Selected) (serving : s.point = .rx ch ∨ s.point = .tx ch) : s.Serves ch := by
  unfold Interrupts.Selected at selected
  rcases serving with point | point
  · rw [point] at selected
    exact selected.2
  · rw [point] at selected
    exact selected.2

/-- Where the tasklet ends with something pending, it is scheduled again. -/
theorem rescheduled (around : Surroundings) :
    (s.point = .budget → s.budget < 0 → (s.next around).scheduled = true ∧ (s.next around).point = .idle) ∧
    (s.point = .leave → s.status ≠ 0 → (s.next around).scheduled = true ∧ (s.next around).point = .idle) := by
  constructor
  · intro point spent
    unfold Interrupts.next
    rw [point]
    dsimp only
    rw [if_pos spent]
    exact ⟨rfl, rfl⟩
  · intro point some_pending
    unfold Interrupts.next
    rw [point]
    dsimp only
    rw [if_pos some_pending]
    exact ⟨rfl, rfl⟩

/-- After every run of interrupts and tasklets from the start: no pending channel is forgotten, the tasklet keeps to its
budget and reschedules itself, and it serves the greatest of the channels that its selection has seen pending. -/
theorem no_interrupt_forgotten (weight defaultWeight : Channel → Int) (events : List InterruptEvent) :
    let s := exec Interrupts.step { weight, defaultWeight } events
    ((∃ ch, Pending s.status ch) → s.scheduled = true ∨ s.point ≠ .idle) ∧
    s.turns ≤ dmaIntBudget + 1 ∧
    (∀ ch, s.point = .rx ch ∨ s.point = .tx ch → s.Serves ch) ∧
    ∀ around, s.point = .budget → s.budget < 0 → (s.next around).scheduled = true ∧ (s.next around).point = .idle := by
  intro s
  have sound : s.Sound := sound_exec (sound_start weight defaultWeight) events
  refine ⟨?_, sound.budgeted.turns, fun ch => serves_of_selected sound.selected, fun around => (rescheduled around).1⟩
  rintro ⟨ch, pending⟩
  exact woken_of_pending sound pending

/-- Channel 0 is pending when the selection begins, channel 2 only when it has been passed. -/
def lateInterrupt : List InterruptEvent :=
  let go : InterruptEvent := .run { complete := false, own := false, disabled := 0 }
  [.interrupt 0, .start] ++ List.replicate 5 go ++ [.interrupt 2] ++ List.replicate 18 go

/-- The selection does not see an interrupt that comes behind it. -/
theorem late_interrupt_waits : ¬ ∀ (weight defaultWeight : Channel → Int) (events : List InterruptEvent) (ch : Channel),
    let s := exec Interrupts.step { weight, defaultWeight } events
    s.point = .rx ch ∨ s.point = .tx ch → ∀ j, Pending s.status j → s.weight j ≤ s.weight ch := by
  intro greatest
  have served := greatest (fun ch => ch.val + 1) (fun ch => ch.val + 1) lateInterrupt 0
  exact absurd (served (Or.inl rfl) 2 rfl) (by decide)

end TwinpassGateway.Dma
