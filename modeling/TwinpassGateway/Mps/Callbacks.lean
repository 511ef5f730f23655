import TwinpassGateway.Foundation.Run
import TwinpassGateway.Foundation.Word

/-!
The two callback tables of the MPS driver: `callback_function` of the device, through which messages are delivered,
and `data_callback_funct`, through which the entry of the driver calls the user's function.
-/

namespace TwinpassGateway.Mps

open Foundation

/-- `ifx_mps_cmd_rcv_callback` and `ifx_mbx_data_rcv_callback`. -/
inductive DriverCallback where
  | cmdRcv
  | dataRcv
  deriving DecidableEq

/-- The null pointer is `none`. The user's functions are addresses. -/
structure CallbackTables where
  callbackFunction : U8 → Option DriverCallback
  dataCallbackFunct : U8 → Option Nat

/-- After `ifx_mps_init_module`: sequence number 0 is the driver's own. -/
def CallbackTables.start : CallbackTables :=
  { callbackFunction := fun seq => if seq = 0#8 then some .cmdRcv else none, dataCallbackFunct := fun _ => none }

def mpsError : Int := -1

def mpsdrvRegisterCallback (s : CallbackTables) (seqNum : U8) (callback : DriverCallback) : Int × CallbackTables :=
  if (s.callbackFunction seqNum).isSome then (mpsError, s)
  else (0, { s with callbackFunction := Function.update s.callbackFunction seqNum (some callback) })

def mpsdrvUnregisterCallback (s : CallbackTables) (seqNum : U8) : Int × CallbackTables :=
  if (s.callbackFunction seqNum).isNone then (mpsError, s)
  else (0, { s with callbackFunction := Function.update s.callbackFunction seqNum none })

/-- `ifx_mps_register_callback`. The result of the driver is ignored. -/
def mpsRegisterCallback (s : CallbackTables) (seq : U8) (callback : Option Nat) : Int × CallbackTables :=
  if seq = 0#8 then (mpsError, s)
  else if (s.dataCallbackFunct seq).isSome then (mpsError, s)
  else
    let s := { s with dataCallbackFunct := Function.update s.dataCallbackFunct seq callback }
    (0, (mpsdrvRegisterCallback s seq .dataRcv).2)

def mpsUnregisterCallback (s : CallbackTables) (seq : U8) : Int × CallbackTables :=
  if seq = 0#8 then (mpsError, s)
  else if (s.dataCallbackFunct seq).isNone then (mpsError, s)
  else
    let s := { s with dataCallbackFunct := Function.update s.dataCallbackFunct seq none }
    (0, (mpsdrvUnregisterCallback s seq).2)

/-- `ifx_mpsdrv_reset_structures`, as far as the tables go. -/
def mpsdrvResetStructures (s : CallbackTables) : CallbackTables := { s with callbackFunction := fun _ => none }

/-! ### Delivery -/

/-- The commands that `ifx_mbx_data_rcv_callback` hands to the user. -/
inductive DataCmd where
  | dataMsg
  | appMsg
  | dataListMsg
  | unknown
  deriving DecidableEq

inductive Delivery where
  /-- No driver entry: the message is freed. -/
  | dropped
  | command
  | unknown
  | called (callback : Nat)
  | nullCall
  deriving DecidableEq

def mbxDataRcvCallback (s : CallbackTables) (seqno : U8) : DataCmd → Delivery
  | .unknown => .unknown
  | _ =>
    match s.dataCallbackFunct seqno with
    | some callback => .called callback
    | none => .nullCall

/-- The end of `ifx_mpsdrv_mbx_data_upstream` and its siblings. -/
def deliver (s : CallbackTables) (seqNum : U8) (cmd : DataCmd) : Delivery :=
  match s.callbackFunction seqNum with
  | none => .dropped
  | some .cmdRcv => .command
  | some .dataRcv => mbxDataRcvCallback s seqNum cmd

inductive TableEvent where
  | register (seq : U8) (callback : Option Nat)
  | unregister (seq : U8)
  | reset
  | message (seq : U8) (cmd : DataCmd)

def CallbackTables.step (s : CallbackTables) : TableEvent → CallbackTables
  | .register seq callback => (mpsRegisterCallback s seq callback).2
  | .unregister seq => (mpsUnregisterCallback s seq).2
  | .reset => mpsdrvResetStructures s
  | .message .. => s

/-! ### The tables in step -/

def CallbackTables.InStep (s : CallbackTables) : Prop :=
  ∀ seq, seq ≠ 0#8 → ((s.callbackFunction seq).isSome ↔ (s.dataCallbackFunct seq).isSome)

/-- The event leaves the tables in step, and a message does not reach a null callback. -/
def CallbackTables.Keeps (s : CallbackTables) (e : TableEvent) : Prop :=
  (s.step e).InStep ∧ ∀ seq cmd, e = .message seq cmd → deliver s seq cmd ≠ .nullCall

/-- A registration that is accepted has a function to register, and a reset finds no callback registered. -/
def CallbackTables.Clean (s : CallbackTables) : TableEvent → Prop
  | .register seq callback => seq ≠ 0#8 → s.dataCallbackFunct seq = none → callback.isSome
  | .reset => ∀ seq, seq ≠ 0#8 → s.dataCallbackFunct seq = none
  | _ => True

/-- Sequence number 0 never leads to the user's table. -/
structure CallbackTables.Ready (s : CallbackTables) : Prop where
  inStep : s.InStep
  own : s.callbackFunction 0#8 ≠ some .dataRcv

variable {s : CallbackTables}

theorem start_ready : CallbackTables.start.Ready := by
  refine ⟨fun seq user => ?_, by decide⟩
  simp [CallbackTables.start, user]

theorem deliver_ne_nullCall (ready : s.Ready) (seq : U8) (cmd : DataCmd) : deliver s seq cmd ≠ .nullCall := by
  unfold deliver
  split
  · exact nofun
  · exact nofun
  · rename_i entry
    have user : seq ≠ 0#8 := by
      rintro rfl
      exact ready.own entry
    have present := (ready.inStep seq user).mp (by rw [entry]; rfl)
    obtain ⟨callback, known⟩ := Option.isSome_iff_exists.mp present
    cases cmd <;> simp [mbxDataRcvCallback, known]

/-- In step, an accepted registration sets both entries, or only the driver's when there is no function. -/
theorem register_eq (ready : s.Ready) {seq : U8} (user : seq ≠ 0#8) (free : s.dataCallbackFunct seq = none)
    (callback : Option Nat) :
    (mpsRegisterCallback s seq callback).2 =
      { callbackFunction := Function.update s.callbackFunction seq (some .dataRcv)
        dataCallbackFunct := Function.update s.dataCallbackFunct seq callback } := by
  have unused : s.callbackFunction seq = none := by
    have same := ready.inStep seq user
    rw [free] at same
    simpa using same
  simp [mpsRegisterCallback, mpsdrvRegisterCallback, user, free, unused]

theorem unregister_eq (ready : s.Ready) {seq : U8} (user : seq ≠ 0#8) (used : s.dataCallbackFunct seq ≠ none) :
    (mpsUnregisterCallback s seq).2 =
      { callbackFunction := Function.update s.callbackFunction seq none
        dataCallbackFunct := Function.update s.dataCallbackFunct seq none } := by
  have present : (s.callbackFunction seq).isSome := (ready.inStep seq user).mpr (Option.isSome_iff_ne_none.mpr used)
  have entry := Option.isSome_iff_ne_none.mp present
  simp [mpsUnregisterCallback, mpsdrvUnregisterCallback, user, used, entry]

theorem inStep_update (inStep : s.InStep) (seq : U8) (entry : Option DriverCallback) (callback : Option Nat) :
    CallbackTables.InStep
        { callbackFunction := Function.update s.callbackFunction seq entry
          dataCallbackFunct := Function.update s.dataCallbackFunct seq callback } ↔
      (seq ≠ 0#8 → (entry.isSome ↔ callback.isSome)) := by
  constructor
  · intro updated user
    simpa using updated seq user
  · intro here other user
    by_cases same : other = seq
    · subst same
      simpa using here user
    · simpa [Function.update_of_ne same] using inStep other user

theorem register_refused {seq : U8} {callback : Option Nat} (refused : seq = 0#8 ∨ s.dataCallbackFunct seq ≠ none) :
    (mpsRegisterCallback s seq callback).2 = s := by
  unfold mpsRegisterCallback
  obtain zero | used := refused
  · rw [if_pos zero]
  · split
    · rfl
    · rw [if_pos (Option.isSome_iff_ne_none.mpr used)]

theorem unregister_refused {seq : U8} (refused : seq = 0#8 ∨ s.dataCallbackFunct seq = none) :
    (mpsUnregisterCallback s seq).2 = s := by
  unfold mpsUnregisterCallback
  obtain zero | unused := refused
  · rw [if_pos zero]
  · split
    · rfl
    · rw [if_pos (by rw [unused]; rfl)]

theorem step_inStep_iff (ready : s.Ready) (e : TableEvent) : (s.step e).InStep ↔ s.Clean e := by
  cases e with
  | register seq callback =>
    show (mpsRegisterCallback s seq callback).2.InStep ↔ _
    by_cases refused : seq = 0#8 ∨ s.dataCallbackFunct seq ≠ none
    · rw [register_refused refused]
      exact iff_of_true ready.inStep fun user free => absurd refused (by simp [user, free])
    · obtain ⟨user, free⟩ := not_or.mp refused
      rw [register_eq ready user (not_not.mp free), inStep_update ready.inStep]
      simp [CallbackTables.Clean, user, not_not.mp free]
  | unregister seq =>
    show (mpsUnregisterCallback s seq).2.InStep ↔ _
    refine iff_of_true ?_ trivial
    by_cases refused : seq = 0#8 ∨ s.dataCallbackFunct seq = none
    · rw [unregister_refused refused]
      exact ready.inStep
    · obtain ⟨user, used⟩ := not_or.mp refused
      rw [unregister_eq ready user used, inStep_update ready.inStep]
      exact fun _ => Iff.rfl
  | reset =>
    refine forall₂_congr fun seq user => ?_
    simp [CallbackTables.step, mpsdrvResetStructures]
  | message seq cmd => exact iff_of_true ready.inStep trivial

theorem step_own (ready : s.Ready) (e : TableEvent) : (s.step e).callbackFunction 0#8 ≠ some .dataRcv := by
  cases e with
  | register seq callback =>
    show (mpsRegisterCallback s seq callback).2.callbackFunction 0#8 ≠ _
    by_cases refused : seq = 0#8 ∨ s.dataCallbackFunct seq ≠ none
    · rw [register_refused refused]
      exact ready.own
    · obtain ⟨user, free⟩ := not_or.mp refused
      rw [register_eq ready user (not_not.mp free)]
      simpa [Function.update_of_ne (Ne.symm user)] using ready.own
  | unregister seq =>
    show (mpsUnregisterCallback s seq).2.callbackFunction 0#8 ≠ _
    by_cases refused : seq = 0#8 ∨ s.dataCallbackFunct seq = none
    · rw [unregister_refused refused]
      exact ready.own
    · obtain ⟨user, used⟩ := not_or.mp refused
      rw [unregister_eq ready user used]
      simpa [Function.update_of_ne (Ne.symm user)] using ready.own
  | reset => exact nofun
  | message seq cmd => exact ready.own

theorem tables_keeps_iff (ready : s.Ready) (e : TableEvent) : s.Keeps e ↔ s.Clean e := by
  refine Iff.trans ?_ (step_inStep_iff ready e)
  exact and_iff_left fun seq cmd _ => deliver_ne_nullCall ready seq cmd

/-- The tables are in step after every event of a run, and no message reaches a null callback, exactly when every
accepted registration has a function and every reset finds no callback registered. -/
theorem tables_in_step_iff (events : List TableEvent) :
    (∀ before e after, events = before ++ e :: after →
      (exec CallbackTables.step .start before).Keeps e) ↔
      Guarded CallbackTables.step CallbackTables.Clean .start events := by
  rw [← guarded_iff]
  have agree (s : CallbackTables) (e : TableEvent) (ready : s.Ready) : s.Keeps e ↔ s.Clean e := tables_keeps_iff ready e
  exact guarded_congr agree (fun _ e ready keeps => ⟨keeps.1, step_own ready e⟩) start_ready

/-- A reset clears the driver's table only: the registered callback is not called any more. -/
theorem reset_out_of_step :
    ¬ ∀ before e after, [TableEvent.register 10 (some 1), .reset] = before ++ e :: after →
      (exec CallbackTables.step .start before).Keeps e := by
  intro keeps
  have inStep := (keeps [.register 10 (some 1)] .reset [] rfl).1 10 (by decide)
  exact absurd inStep (by decide)

end TwinpassGateway.Mps
