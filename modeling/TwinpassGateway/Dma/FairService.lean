import TwinpassGateway.Dma.Tasklet
import TwinpassGateway.Foundation.Amortized

/-!
How often the tasklet serves one channel while another one waits. The receive handler takes one from the weight of its
channel for every packet; the transmit handler takes nothing.
-/

namespace TwinpassGateway.Dma

open Foundation

/-- The channel whose handler is called, but for a receive handler that finds its descriptor with the hardware: it has
nothing to serve and ends the interrupt. -/
def served (s : Interrupts) : InterruptEvent → Option Channel
  | .run around =>
    match s.point with
    | .rx ch => if around.complete || !around.own then some ch else none
    | .tx ch => some ch
    | _ => none
  | _ => none

def serves (y : Channel) (s : Interrupts) (e : InterruptEvent) : Nat := if served s e = some y then 1 else 0

def Waits (x : Channel) (s : Interrupts) (e : InterruptEvent) : Prop := Pending s.status x ∧ served s e ≠ some x

/-- If the channel is served now, a weight is taken for it. -/
def Weighs (y : Channel) (s : Interrupts) : InterruptEvent → Prop
  | .run around => s.point ≠ .tx y ∧ (s.point = .rx y → around.complete = true ∨ around.own = true)
  | _ => True

variable {s : Interrupts} {x y : Channel} {e : InterruptEvent}

structure Interrupts.Capped (s : Interrupts) (defaultWeight : Channel → Int) : Prop where
  default : s.defaultWeight = defaultWeight
  cap : ∀ ch, s.weight ch ≤ defaultWeight ch

/-- No reset of the weights is to come while `x` waits. -/
def Interrupts.Settled (s : Interrupts) (x : Channel) : Prop :=
  0 < s.weight x ∧
    match s.point with
    | .select i chan _ => x.val < i → chan ≠ none
    | .rxWeight ch => ch ≠ x
    | .refill => False
    | _ => True

/-- How often the weights still allow that `y` is served before a reset. -/
def Interrupts.allowance (s : Interrupts) (y : Channel) : Nat :=
  match s.point with
  | .rxWeight ch => if ch = y then (s.weight y - 1).toNat else (s.weight y).toNat
  | _ => (s.weight y).toNat

open Classical in
noncomputable def Interrupts.potential (s : Interrupts) (x y : Channel) : Nat :=
  s.allowance y + if s.Settled x then 0 else (s.defaultWeight y).toNat

/-! ### A step -/

theorem capped_step {defaultWeight : Channel → Int} (capped : s.Capped defaultWeight) (e : InterruptEvent) :
    (s.step e).Capped defaultWeight := by
  cases e with
  | interrupt ch => exact ⟨capped.default, capped.cap⟩
  | start =>
    unfold Interrupts.step
    dsimp only
    split
    · exact ⟨capped.default, capped.cap⟩
    · exact capped
  | disable ch =>
    unfold Interrupts.step
    dsimp only
    split
    · exact ⟨capped.default, capped.cap⟩
    · exact capped
  | run around =>
    show (s.next around).Capped defaultWeight
    unfold Interrupts.next Interrupts.selectNext
    cases s.point with
    | idle => exact capped
    | loop | budget | rx ch | leave =>
      dsimp only
      split <;> exact ⟨capped.default, capped.cap⟩
    | select i chan weight =>
      dsimp only
      split
      · split <;> exact ⟨capped.default, capped.cap⟩
      · cases chan <;> exact ⟨capped.default, capped.cap⟩
    | rxWeight ch =>
      refine ⟨capped.default, fun j => ?_⟩
      have cap := capped.cap j
      dsimp only
      by_cases same : j = ch
      · subst same
        rw [Function.update_self]
        omega
      · rwa [Function.update_of_ne same]
    | tx ch | txHandler ch => exact ⟨capped.default, capped.cap⟩
    | refill =>
      refine ⟨capped.default, fun j => ?_⟩
      dsimp only
      rw [capped.default]

theorem selectNext_point (s : Interrupts) (i : Channel) (chan : Option Channel) (weight : Int) :
    (s.selectNext i chan weight).weight = s.weight ∧
      ∃ chan' weight', (s.selectNext i chan weight).point = .select (i.val + 1) chan' weight' := by
  unfold Interrupts.selectNext
  split
  · exact ⟨rfl, some i, s.weight i, rfl⟩
  · exact ⟨rfl, chan, weight, rfl⟩

theorem allowance_of {t : Interrupts} (weight : t.weight = s.weight) (point : ∀ ch, t.point ≠ .rxWeight ch)
    (point' : ∀ ch, s.point ≠ .rxWeight ch) : t.allowance y = s.allowance y := by
  have plain {u : Interrupts} (elsewhere : ∀ ch, u.point ≠ .rxWeight ch) : u.allowance y = (u.weight y).toNat := by
    unfold Interrupts.allowance
    split
    · rename_i ch here
      exact absurd here (elsewhere ch)
    · rfl
  rw [plain point, plain point', weight]

/-- Only the two statements on the weights change them. -/
theorem next_weight {around : Surroundings} (refilling : s.point ≠ .refill) (paying : ∀ ch, s.point ≠ .rxWeight ch) :
    (s.next around).weight = s.weight := by
  unfold Interrupts.next
  cases point : s.point with
  | refill => exact absurd point refilling
  | rxWeight ch => exact absurd point (paying ch)
  | idle | tx ch | txHandler ch => rfl
  | loop | budget | leave | rx ch =>
    dsimp only
    split <;> rfl
  | select i chan weight =>
    dsimp only
    split
    · exact (selectNext_point s _ chan weight).1
    · cases chan <;> rfl

/-- A weight is paid behind a packet. -/
theorem next_rxWeight {around : Surroundings} {ch : Channel} (after : (s.next around).point = .rxWeight ch) :
    s.point = .rx ch ∧ around.complete = true := by
  unfold Interrupts.next at after
  cases point : s.point with
  | idle =>
    rw [point] at after
    exact nomatch point.symm.trans after
  | refill | rxWeight ch | tx ch | txHandler ch =>
    rw [point] at after
    cases after
  | loop | budget | leave =>
    rw [point] at after
    dsimp only at after
    split at after <;> cases after
  | rx ch' =>
    rw [point] at after
    dsimp only at after
    split at after
    · rename_i complete
      cases after
      exact ⟨rfl, complete⟩
    · cases after
  | select i chan weight =>
    rw [point] at after
    dsimp only at after
    split at after
    · obtain ⟨-, chan', weight', select⟩ := selectNext_point s ⟨i, by assumption⟩ chan weight
      exact nomatch select.symm.trans after
    · cases chan with
      | none => cases after
      | some ch' =>
        dsimp only at after
        split at after <;> cases after

/-- Away from the service of a receive channel, nothing is paid. -/
theorem allowance_quiet {around : Surroundings} (refilling : s.point ≠ .refill) (receiving : ∀ ch, s.point ≠ .rx ch)
    (paying : ∀ ch, s.point ≠ .rxWeight ch) : (s.next around).allowance y = s.allowance y :=
  allowance_of (next_weight refilling paying) (fun ch after => receiving ch (next_rxWeight after).1) paying

theorem serves_none {around : Surroundings} (receiving : ∀ ch, s.point ≠ .rx ch) (sending : ∀ ch, s.point ≠ .tx ch) :
    serves y s (.run around) = 0 := by
  unfold serves served
  cases point : s.point with
  | rx ch => exact absurd point (receiving ch)
  | tx ch => exact absurd point (sending ch)
  | idle | loop | budget | leave | select | refill | rxWeight | txHandler => rfl

theorem allowance_rx {around : Surroundings} {ch : Channel} (selected : s.Selected) (weighs : Weighs y s (.run around))
    (point : s.point = .rx ch) : serves y s (.run around) + (s.next around).allowance y ≤ s.allowance y := by
  have before : s.allowance y = (s.weight y).toNat := by
    simp only [Interrupts.allowance, point]
  have positive := (serves_of_selected selected (.inl point)).positive
  unfold serves
  rw [before]
  by_cases complete : around.complete = true
  · have after : (s.next around).allowance y = if ch = y then (s.weight y - 1).toNat else (s.weight y).toNat := by
      simp only [Interrupts.next, Interrupts.allowance, point, complete, if_true]
    have serving : served s (.run around) = some ch := by
      simp only [served, point, complete, Bool.true_or, if_true]
    rw [after, serving]
    by_cases same : ch = y
    · subst same
      rw [if_pos rfl, if_pos rfl]
      omega
    · rw [if_neg fun equal => same (Option.some.inj equal), if_neg same, Nat.zero_add]
  · have after : (s.next around).allowance y = (s.weight y).toNat := by
      simp only [Interrupts.next, Interrupts.allowance, point, if_neg complete]
    have unserved : served s (.run around) ≠ some y := by
      simp only [served, point, Bool.not_eq_true _ ▸ complete, Bool.false_or]
      intro serving
      split at serving
      · rename_i kept
        obtain rfl := Option.some.inj serving
        obtain done | own := weighs.2 point
        · exact complete done
        · rw [own] at kept
          cases kept
      · cases serving
    rw [after, if_neg unserved, Nat.zero_add]

theorem allowance_rxWeight {around : Surroundings} {ch : Channel} (point : s.point = .rxWeight ch) :
    (s.next around).allowance y = s.allowance y := by
  have after : (s.next around).allowance y = (Function.update s.weight ch (s.weight ch - 1) y).toNat := by
    simp only [Interrupts.next, Interrupts.allowance, point]
  have before : s.allowance y = if ch = y then (s.weight y - 1).toNat else (s.weight y).toNat := by
    simp only [Interrupts.allowance, point]
  rw [after, before]
  by_cases same : ch = y
  · subst same
    rw [Function.update_self, if_pos rfl]
  · rw [Function.update_of_ne (Ne.symm same), if_neg same]

/-- No event but a reset of the weights raises what is left of the weight of `y`, and each service lowers it. -/
theorem allowance_step (selected : s.Selected) (weighs : Weighs y s e)
    (elsewhere : ∀ around, e = .run around → s.point ≠ .refill) :
    serves y s e + (s.step e).allowance y ≤ s.allowance y := by
  cases e with
  | interrupt ch => exact (Nat.zero_add _).le
  | start =>
    refine (Nat.zero_add _).trans_le (le_of_eq ?_)
    unfold Interrupts.step
    dsimp only
    split
    · rename_i idle
      exact allowance_of rfl nofun (by rw [idle]; exact nofun)
    · rfl
  | disable ch =>
    refine (Nat.zero_add _).trans_le (le_of_eq ?_)
    unfold Interrupts.step
    dsimp only
    split
    · rename_i idle
      exact allowance_of rfl (by rw [idle]; exact nofun) (by rw [idle]; exact nofun)
    · rfl
  | run around =>
    show serves y s (.run around) + (s.next around).allowance y ≤ s.allowance y
    cases point : s.point with
    | refill => exact absurd point (elsewhere around rfl)
    | rx ch => exact allowance_rx selected weighs point
    | rxWeight ch =>
      have unserved : serves y s (.run around) = 0 :=
        serves_none (by rw [point]; exact nofun) (by rw [point]; exact nofun)
      rw [unserved, Nat.zero_add, allowance_rxWeight point]
    | tx ch =>
      have unserved : serves y s (.run around) = 0 := by
        simp only [serves, served, point]
        exact if_neg fun same => weighs.1 (by rw [point, Option.some.inj same])
      rw [unserved, Nat.zero_add]
      exact (allowance_quiet (by rw [point]; exact nofun) (by rw [point]; exact nofun) (by rw [point]; exact nofun)).le
    | idle | loop | budget | leave | select | txHandler =>
      have unserved : serves y s (.run around) = 0 :=
        serves_none (by rw [point]; exact nofun) (by rw [point]; exact nofun)
      rw [unserved, Nat.zero_add]
      exact (allowance_quiet (by rw [point]; exact nofun) (by rw [point]; exact nofun) (by rw [point]; exact nofun)).le

/-- While `x` waits with a weight, no reset comes. -/
theorem settled_step (selected : s.Selected) (waits : Waits x s e) (settled : s.Settled x) : (s.step e).Settled x := by
  obtain ⟨positive, at_point⟩ := settled
  cases e with
  | interrupt ch => exact ⟨positive, at_point⟩
  | start =>
    unfold Interrupts.step
    dsimp only
    split
    · exact ⟨positive, trivial⟩
    · exact ⟨positive, at_point⟩
  | disable ch =>
    unfold Interrupts.step
    dsimp only
    split
    · rename_i idle
      refine ⟨positive, ?_⟩
      rw [idle]
      trivial
    · exact ⟨positive, at_point⟩
  | run around =>
    show (s.next around).Settled x
    obtain ⟨pending, unserved⟩ := waits
    unfold Interrupts.Selected at selected
    unfold Interrupts.next
    cases point : s.point with
    | refill =>
      rw [point] at at_point
      exact at_point.elim
    | idle =>
      refine ⟨positive, ?_⟩
      dsimp only
      rw [point]
      trivial
    | loop | leave =>
      dsimp only
      split <;> exact ⟨positive, trivial⟩
    | budget =>
      dsimp only
      split
      · exact ⟨positive, trivial⟩
      · exact ⟨positive, fun above => absurd above (Nat.not_lt_zero _)⟩
    | select i chan weight =>
      rw [point] at at_point selected
      dsimp only at at_point ⊢
      split
      · rename_i inside
        unfold Interrupts.selectNext
        split
        · exact ⟨positive, fun _ => Option.some_ne_none _⟩
        · rename_i worse
          refine ⟨positive, fun above unchosen => ?_⟩
          obtain earlier | here := Nat.lt_succ_iff_lt_or_eq.mp above
          · exact at_point earlier unchosen
          · have same : x = ⟨i, inside⟩ := Fin.ext here
            refine worse ⟨same ▸ pending, same ▸ positive, ?_⟩
            rw [selected.start unchosen]
            exact same ▸ positive
      · rename_i past
        have chosen := at_point (by omega)
        cases chan with
        | none => exact absurd rfl chosen
        | some ch =>
          dsimp only
          split <;> exact ⟨positive, trivial⟩
    | rx ch =>
      dsimp only
      split
      · rename_i complete
        refine ⟨positive, fun same => unserved ?_⟩
        simp only [served, point, complete, Bool.true_or, if_true, same]
      · exact ⟨positive, trivial⟩
    | rxWeight ch =>
      rw [point] at at_point
      dsimp only at at_point ⊢
      refine ⟨?_, trivial⟩
      dsimp only
      rwa [Function.update_of_ne (Ne.symm at_point)]
    | tx ch | txHandler ch => exact ⟨positive, trivial⟩

/-- A reset settles the weights. -/
theorem settled_refill (positive : 0 < s.defaultWeight x) (point : s.point = .refill) (around : Surroundings) :
    serves y s (.run around) = 0 ∧ (s.next around).Settled x ∧
      (s.next around).allowance y = (s.defaultWeight y).toNat := by
  unfold serves served Interrupts.next Interrupts.Settled Interrupts.allowance
  rw [point]
  exact ⟨rfl, ⟨positive, trivial⟩, rfl⟩

theorem potential_le (capped : s.Capped s.defaultWeight) : s.potential x y ≤ 2 * (s.defaultWeight y).toNat := by
  have cap := capped.cap y
  have allowance : s.allowance y ≤ (s.defaultWeight y).toNat := by
    unfold Interrupts.allowance
    split
    · split <;> omega
    · omega
  unfold Interrupts.potential
  split <;> omega

theorem potential_step (capped : s.Capped s.defaultWeight) (positive : 0 < s.defaultWeight x) (selected : s.Selected)
    (waits : Waits x s e) (weighs : Weighs y s e) :
    serves y s e + (s.step e).potential x y ≤ s.potential x y := by
  have same : (s.step e).defaultWeight = s.defaultWeight := (capped_step capped e).default
  unfold Interrupts.potential
  rw [same]
  by_cases reset : ∃ around, e = .run around ∧ s.point = .refill
  · obtain ⟨around, rfl, point⟩ := reset
    obtain ⟨free, settled, allowance⟩ := settled_refill (y := y) positive point around
    have unsettled : ¬ s.Settled x := by
      rintro ⟨-, at_point⟩
      rwa [point] at at_point
    have settled_then : (s.step (.run around)).Settled x := settled
    rw [if_pos settled_then, if_neg unsettled]
    show serves y s (.run around) + ((s.next around).allowance y + 0) ≤ _
    rw [free, allowance]
    omega
  · have allowance := allowance_step selected weighs fun around run point => reset ⟨around, run, point⟩
    split
    · omega
    · rename_i unsettled
      rw [if_neg fun settled => unsettled (settled_step selected waits settled)]
      omega

structure Interrupts.Ordered (s : Interrupts) (defaultWeight : Channel → Int) : Prop where
  sound : s.Sound
  capped : s.Capped defaultWeight

theorem ordered_step {defaultWeight : Channel → Int} (ordered : s.Ordered defaultWeight) (e : InterruptEvent) :
    (s.step e).Ordered defaultWeight :=
  ⟨sound_exec ordered.sound [e], capped_step ordered.capped e⟩

theorem ordered_start (defaultWeight : Channel → Int) :
    Interrupts.Ordered { weight := defaultWeight, defaultWeight } defaultWeight :=
  ⟨sound_start defaultWeight defaultWeight, rfl, fun _ => le_rfl⟩

theorem ordered_exec {defaultWeight : Channel → Int} (ordered : s.Ordered defaultWeight) (events : List InterruptEvent) :
    (exec Interrupts.step s events).Ordered defaultWeight := by
  induction events generalizing s with
  | nil => exact ordered
  | cons e rest ih => exact ih (ordered_step ordered e)

/-- While a channel waits with a positive default weight, another one that pays for its services is served at most twice
its own default weight times. -/
theorem fair_service (defaultWeight : Channel → Int) (before events : List InterruptEvent) (x y : Channel)
    (positive : 0 < defaultWeight x)
    (fair : Guarded Interrupts.step (fun s e => Waits x s e ∧ Weighs y s e)
      (exec Interrupts.step { weight := defaultWeight, defaultWeight } before) events) :
    totalCost Interrupts.step (serves y) (exec Interrupts.step { weight := defaultWeight, defaultWeight } before) events ≤
      2 * (defaultWeight y).toNat := by
  have ordered := ordered_exec (ordered_start defaultWeight) before
  have pays (s : Interrupts) (e : InterruptEvent) (inv : s.Ordered defaultWeight) (allowed : Waits x s e ∧ Weighs y s e) :
      serves y s e + (s.step e).potential x y ≤ s.potential x y := by
    have default := inv.capped.default
    refine potential_step ?_ ?_ inv.sound.selected allowed.1 allowed.2
    · rw [default]
      exact inv.capped
    · rwa [default]
  have paid := @totalCost_le _ _ Interrupts.step (serves y) (fun s e => Waits x s e ∧ Weighs y s e)
    (fun s => s.Ordered defaultWeight) (fun s => s.potential x y) (fun s e inv _ => ordered_step inv e) pays _ ordered _ fair
  refine paid.trans ?_
  have default := ordered.capped.default
  refine (potential_le ?_).trans_eq ?_
  · rw [default]
    exact ordered.capped
  · rw [default]

def go : InterruptEvent := .run { complete := true, own := false, disabled := 0 }

deriving instance DecidableEq for TaskletAt

instance (y : Channel) (s : Interrupts) : ∀ e, Decidable (Weighs y s e)
  | .run _ => inferInstanceAs (Decidable (_ ∧ (_ → _ ∨ _)))
  | .interrupt _ | .start | .disable _ => instDecidableTrue

instance (status : U32) (x : Channel) : Decidable (Pending status x) := inferInstanceAs (Decidable (_ = true))

instance (x : Channel) (s : Interrupts) (e : InterruptEvent) : Decidable (Waits x s e) :=
  inferInstanceAs (Decidable (_ ∧ _))

theorem fair_service_receive :
    let s := exec Interrupts.step { weight := fun _ => 100, defaultWeight := fun _ => 100 } [.interrupt 2, .interrupt 0, .start]
    serves 0 (exec Interrupts.step s (List.replicate 23 go)) go = 1 ∧
      totalCost Interrupts.step (serves 0) s (List.replicate 24 go) ≤ 200 :=
  ⟨by decide +kernel, fair_service (fun _ => 100) _ (List.replicate 24 go) 2 0 (by decide) (by decide +kernel)⟩

/-! ### A transmit channel -/

/-- A run in which channel 3 waits and channel 1 is served `n` times. -/
structure Crowded (s : Interrupts) (events : List InterruptEvent) (s' : Interrupts) (n : Nat) : Prop where
  ends : exec Interrupts.step s events = s'
  services : totalCost Interrupts.step (serves 1) s events = n
  waits : Guarded Interrupts.step (Waits 3) s events

theorem Crowded.trans {s s' s'' : Interrupts} {events events' : List InterruptEvent} {n n' : Nat}
    (first : Crowded s events s' n) (second : Crowded s' events' s'' n') : Crowded s (events ++ events') s'' (n + n') where
  ends := by rw [exec_append, first.ends, second.ends]
  services := by rw [totalCost_append, first.ends, first.services, second.services]
  waits := guarded_append.mpr ⟨first.waits, by rw [first.ends]; exact second.waits⟩

theorem Crowded.one {s s' : Interrupts} {e : InterruptEvent} (ends : s.step e = s') (waits : Waits 3 s e) :
    Crowded s [e] s' (serves 1 s e) :=
  ⟨ends, rfl, waits, trivial⟩

/-- The tasklet with every weight `DANUBE_DMA_CH_DEFAULT_WEIGHT`. -/
def transmitting (status : U32) (point : TaskletAt) (budget : Int) (turns : Nat) (seen : U32) : Interrupts where
  status := status
  inProcess := true
  weight := fun _ => 100
  defaultWeight := fun _ => 100
  point := point
  budget := budget
  turns := turns
  seen := seen

variable {budget : Int} {turns : Nat} {seen : U32}

theorem pending_three : Pending 0xA 3 ∧ Pending 0x8 3 := ⟨by unfold Pending; decide, by unfold Pending; decide⟩

theorem select_behind {i : Nat} (inside : i < 20) :
    (transmitting 0xA (.select i (some 1) 100) budget turns seen).step go =
      transmitting 0xA (.select (i + 1) (some 1) 100) budget turns
        ((transmitting 0xA (.select i (some 1) 100) budget turns seen).look ⟨i, inside⟩) := by
  have no_better (pending : Prop) : ¬ (pending ∧ 0 < (100 : Int) ∧ (100 : Int) < 100) := by omega
  simp only [Interrupts.step, go, Interrupts.next, transmitting, dif_pos inside, Interrupts.selectNext]
  exact if_neg (no_better _)

/-- Behind channel 1 the selection finds no greater weight. -/
theorem crowded_select (k i : Nat) (inside : i + k = 20) :
    ∃ seen', Crowded (transmitting 0xA (.select i (some 1) 100) budget turns seen) (List.replicate k go)
      (transmitting 0xA (.select 20 (some 1) 100) budget turns seen') 0 := by
  induction k generalizing i seen with
  | zero =>
    obtain rfl : i = 20 := by omega
    exact ⟨seen, rfl, rfl, trivial⟩
  | succ k ih =>
    have below : i < 20 := by omega
    obtain ⟨seen', rest⟩ := @ih ((transmitting 0xA (.select i (some 1) 100) budget turns seen).look ⟨i, below⟩) (i + 1)
      (by omega)
    have waits : Waits 3 (transmitting 0xA (.select i (some 1) 100) budget turns seen) go := ⟨pending_three.1, nofun⟩
    exact ⟨seen', (Crowded.one (select_behind below) waits).trans rest⟩

def transmitRound : List InterruptEvent :=
  List.replicate 4 go ++ (List.replicate 18 go ++ (List.replicate 3 go ++ [.interrupt 1]))

theorem crowded_enter (left : 0 ≤ budget) :
    Crowded (transmitting 0xA .loop budget turns seen) (List.replicate 4 go)
      (transmitting 0xA (.select 2 (some 1) 100) (budget - 1) (turns + 1) 0xA) 0 := by
  have looped : (transmitting 0xA .loop budget turns seen).step go = transmitting 0xA .budget budget turns seen := by
    simp [Interrupts.step, Interrupts.next, go, transmitting]
  have begun : (transmitting 0xA .budget budget turns seen).step go =
      transmitting 0xA (.select 0 none 0) (budget - 1) (turns + 1) 0xA := by
    simp [Interrupts.step, Interrupts.next, go, transmitting, not_lt.mpr left]
  have passed : (transmitting 0xA (.select 0 none 0) (budget - 1) (turns + 1) 0xA).step go =
      transmitting 0xA (.select 1 none 0) (budget - 1) (turns + 1) 0xA := by
    simp [Interrupts.step, Interrupts.next, go, transmitting, Interrupts.selectNext, Interrupts.look]
  have chosen : (transmitting 0xA (.select 1 none 0) (budget - 1) (turns + 1) 0xA).step go =
      transmitting 0xA (.select 2 (some 1) 100) (budget - 1) (turns + 1) 0xA := by
    simp [Interrupts.step, Interrupts.next, go, transmitting, Interrupts.selectNext, Interrupts.look, Channel.bit]
  exact (Crowded.one looped ⟨pending_three.1, nofun⟩).trans ((Crowded.one begun ⟨pending_three.1, nofun⟩).trans
    ((Crowded.one passed ⟨pending_three.1, nofun⟩).trans (Crowded.one chosen ⟨pending_three.1, nofun⟩)))

theorem crowded_serve :
    Crowded (transmitting 0xA (.select 20 (some 1) 100) budget turns seen) (List.replicate 3 go ++ [.interrupt 1])
      (transmitting 0xA .loop budget turns seen) 1 := by
  have selected : (transmitting 0xA (.select 20 (some 1) 100) budget turns seen).step go =
      transmitting 0xA (.tx 1) budget turns seen := by
    simp [Interrupts.step, Interrupts.next, go, transmitting, Channel.receives]
  have cleared : (transmitting 0xA (.tx 1) budget turns seen).step go = transmitting 0x8 (.txHandler 1) budget turns seen := by
    simp [Interrupts.step, Interrupts.next, go, transmitting, Channel.bit]
  have returned : (transmitting 0x8 (.txHandler 1) budget turns seen).step go = transmitting 0x8 .loop budget turns seen := by
    simp [Interrupts.step, Interrupts.next, go, transmitting]
  have again : (transmitting 0x8 .loop budget turns seen).step (.interrupt 1) = transmitting 0xA .loop budget turns seen := by
    simp [Interrupts.step, Interrupts.interrupt, transmitting, Channel.bit]
  exact (Crowded.one selected ⟨pending_three.1, nofun⟩).trans ((Crowded.one cleared ⟨pending_three.1, nofun⟩).trans
    ((Crowded.one returned ⟨pending_three.2, nofun⟩).trans (Crowded.one again ⟨pending_three.2, nofun⟩)))

theorem crowded_round (left : 0 ≤ budget) :
    ∃ seen', Crowded (transmitting 0xA .loop budget turns seen) transmitRound
      (transmitting 0xA .loop (budget - 1) (turns + 1) seen') 1 := by
  obtain ⟨seen', behind⟩ := @crowded_select (budget - 1) (turns + 1) 0xA 18 2 rfl
  exact ⟨seen', (crowded_enter left).trans (behind.trans crowded_serve)⟩

theorem crowded_rounds (n : Nat) (left : n ≤ budget + 1) :
    ∃ seen', Crowded (transmitting 0xA .loop budget turns seen) (List.replicate n transmitRound).flatten
      (transmitting 0xA .loop (budget - n) (turns + n) seen') n := by
  induction n generalizing budget turns seen with
  | zero => exact ⟨seen, by simp [transmitting], rfl, trivial⟩
  | succ n ih =>
    obtain ⟨between, first⟩ := @crowded_round budget turns seen (by omega)
    obtain ⟨seen', rest⟩ := @ih (budget - 1) (turns + 1) between (by omega)
    refine ⟨seen', ?_⟩
    have all := first.trans rest
    rwa [show budget - 1 - n = budget - ((n + 1 : Nat) : Int) by omega, show turns + 1 + n = turns + (n + 1) by omega,
      Nat.add_comm 1 n] at all

def transmitRun : List InterruptEvent := (List.replicate 26 transmitRound).flatten ++ [go, go, .start]

theorem crowded_run : ∃ seen', Crowded (transmitting 0xA .loop 25 0 seen) transmitRun (transmitting 0xA .loop 25 0 seen') 26 := by
  obtain ⟨seen', rounds⟩ := @crowded_rounds 25 0 seen 26 (by decide)
  have looped : (transmitting 0xA .loop (-1) 26 seen').step go = transmitting 0xA .budget (-1) 26 seen' := by
    simp [Interrupts.step, Interrupts.next, go, transmitting]
  have spent : (transmitting 0xA .budget (-1) 26 seen').step go =
      { transmitting 0xA .idle (-2) 26 seen' with scheduled := true } := by
    simp [Interrupts.step, Interrupts.next, go, transmitting]
  have restarted : ({ transmitting 0xA .idle (-2) 26 seen' with scheduled := true } : Interrupts).step .start =
      transmitting 0xA .loop 25 0 seen' := rfl
  exact ⟨seen', rounds.trans ((Crowded.one looped ⟨pending_three.1, nofun⟩).trans
    ((Crowded.one spent ⟨pending_three.1, nofun⟩).trans (Crowded.one restarted ⟨pending_three.1, nofun⟩)))⟩

theorem crowded_runs (k : Nat) :
    ∃ seen', Crowded (transmitting 0xA .loop 25 0 seen) (List.replicate k transmitRun).flatten
      (transmitting 0xA .loop 25 0 seen') (26 * k) := by
  induction k generalizing seen with
  | zero => exact ⟨seen, rfl, rfl, trivial⟩
  | succ k ih =>
    obtain ⟨between, first⟩ := @crowded_run seen
    obtain ⟨seen', rest⟩ := @ih between
    refine ⟨seen', ?_⟩
    have all := first.trans rest
    rwa [show 26 + 26 * k = 26 * (k + 1) by omega] at all

/-- Channel 1 transmits 208 times while channel 3 waits, and would go on so. -/
theorem transmit_channel_unfair :
    let s := exec Interrupts.step { weight := fun _ => 100, defaultWeight := fun _ => 100 } [.interrupt 3, .interrupt 1, .start]
    let events := (List.replicate 8 transmitRun).flatten
    Guarded Interrupts.step (Waits 3) s events ∧ totalCost Interrupts.step (serves 1) s events = 208 ∧
      ¬ ∀ (defaultWeight : Channel → Int) (before events : List InterruptEvent) (x y : Channel), 0 < defaultWeight x → y ≠ x →
        Guarded Interrupts.step (Waits x) (exec Interrupts.step { weight := defaultWeight, defaultWeight } before) events →
        totalCost Interrupts.step (serves y) (exec Interrupts.step { weight := defaultWeight, defaultWeight } before) events ≤
          2 * (defaultWeight y).toNat := by
  intro s events
  have begun : s = transmitting 0xA .loop 25 0 0 := by
    simp only [s, exec_cons, exec_nil, Interrupts.step, Interrupts.interrupt]
    rfl
  obtain ⟨seen', crowded⟩ := @crowded_runs 0 8
  rw [← begun] at crowded
  refine ⟨crowded.waits, crowded.services, fun fair => ?_⟩
  have bound := fair (fun _ => 100) _ events 3 1 (by decide) (by decide) crowded.waits
  exact absurd (crowded.services.symm.trans_le bound) (by decide)

end TwinpassGateway.Dma
