import TwinpassGateway.Util.ErrorNotify

/-!
The callbacks of `rg_error.c` over whole histories of registrations, unregistrations and reports, and what a registration
without memory does to them.
-/

namespace TwinpassGateway.Util

open Foundation

/-! ### Histories -/

/-- A call of one of the functions, with the memory that `malloc` returns (`i` for the default callback, which the first
registration or report registers). -/
inductive NotifyEvent
  | register (e : NotifyEntry) (i a : U32)
  | unregister (func : NotifyFunc) (data : U32)
  | report (level : U32) (msg : String) (i : U32)

inductive NotifyOutcome
  | registered (calls : List NotifyCall)
  | unregistered (freed : Nat)
  | reported (calls : List NotifyCall)
  deriving DecidableEq

namespace Notifier

def initial : Notifier := ⟨none, fun _ => none, false⟩

def step (s : Notifier) : NotifyEvent → Option (Notifier × NotifyOutcome)
  | .register e i a => (s.rgErrorRegister e (some i) (some a)).map fun r => (r.1, .registered r.2)
  | .unregister func data => (s.rgErrorUnregister func data).map fun r => (r.1, .unregistered r.2)
  | .report level msg i => (s.rgError level msg (some i)).map fun r => (r.1, .reported r.2)

def run : Notifier → List NotifyEvent → Option (Notifier × List NotifyOutcome)
  | s, [] => some (s, [])
  | s, ev :: rest => do
    let (s, outcome) ← s.step ev
    let (s, outcomes) ← s.run rest
    some (s, outcome :: outcomes)

/-- `malloc` returns memory that is not in use. -/
def Unused (s : Notifier) : NotifyEvent → Prop
  | .register _ i a => s.heap a = none ∧ (s.inited = false → s.heap i = none ∧ a ≠ i)
  | .unregister _ _ => True
  | .report _ _ i => s.inited = false → s.heap i = none

def Available : Notifier → List NotifyEvent → Prop
  | _, [] => True
  | s, ev :: rest => s.Unused ev ∧ match s.step ev with
    | none => True
    | some (s', _) => s'.Available rest

instance (p : Option NotifyNode) : Decidable (p = none) := decidable_of_iff _ Option.isNone_iff_eq_none

instance (s : Notifier) : ∀ ev, Decidable (s.Unused ev)
  | .register _ _ _ => inferInstanceAs (Decidable (_ ∧ (_ → _ ∧ _)))
  | .unregister _ _ => instDecidableTrue
  | .report _ _ _ => inferInstanceAs (Decidable (_ → _))

instance decidableAvailable : ∀ (s : Notifier) (events : List NotifyEvent), Decidable (s.Available events)
  | _, [] => instDecidableTrue
  | s, ev :: rest =>
    @instDecidableAnd _ _ inferInstance <| match s.step ev with
      | none => instDecidableTrue
      | some (s', _) => decidableAvailable s' rest

end Notifier

/-! ### What is expected -/

/-- The registrations that have not been undone, as they arrived and as they are called. -/
structure Registry where
  inited : Bool
  arrivals : List NotifyEntry
  entries : List NotifyEntry

namespace Registry

def initial : Registry := ⟨false, [], []⟩

def add (r : Registry) (e : NotifyEntry) : Registry :=
  { r with arrivals := r.arrivals ++ [e], entries := insertByKey NotifyEntry.sequence e r.entries }

def init (r : Registry) : Registry := if r.inited then r else { r with inited := true }.add Notifier.defaultEntry

def remove (r : Registry) (func : NotifyFunc) (data : U32) : Registry :=
  { r with arrivals := r.arrivals.filter (!Notifier.matching func data ·),
           entries := r.entries.filter (!Notifier.matching func data ·) }

def step (r : Registry) : NotifyEvent → Registry
  | .register e _ _ => r.init.add e
  | .unregister func data => r.remove func data
  | .report _ _ _ => r.init

def outcome (r : Registry) : NotifyEvent → NotifyOutcome
  | .register _ _ _ => .registered []
  | .unregister func data => .unregistered (r.entries.countP (Notifier.matching func data))
  | .report level msg _ => .reported (Notifier.notified level msg r.init.entries)

def outcomes : Registry → List NotifyEvent → List NotifyOutcome
  | _, [] => []
  | r, ev :: rest => r.outcome ev :: (r.step ev).outcomes rest

end Registry

/-- The memory holds the list of the registry. -/
structure Refines (s : Notifier) (r : Registry) : Prop where
  represents : s.Represents r.entries
  inited : s.inited = r.inited
  sorted : StablySorted NotifyEntry.sequence r.arrivals r.entries

/-! ### Runs -/

section Runs

variable {s : Notifier} {r : Registry} {ev : NotifyEvent} {e : NotifyEntry} {i a : U32}

theorem refines_initial : Refines .initial .initial := ⟨⟨[], chain_nil.mpr rfl, rfl⟩, rfl, stablySorted_nil⟩

theorem add_refines (refines : Refines s r) (e : NotifyEntry) (unused : s.heap a = none) :
    ∃ s', s.registerInited e (some a) = some (s', []) ∧ Refines s' (r.add e) ∧
      ∀ b, b ≠ a → s.heap b = none → s'.heap b = none := by
  obtain ⟨s', call, represents, inited, elsewhere⟩ := Notifier.registerInited_some refines.represents e unused
  refine ⟨s', call, ⟨represents, inited.trans refines.inited, refines.sorted.insert e⟩, fun b other free => ?_⟩
  rw [← Notifier.entryAt_eq_none, elsewhere b other, Notifier.entryAt_eq_none]
  exact free

theorem init_refines (refines : Refines s r) (unused : s.inited = false → s.heap i = none) :
    ∃ s', s.checkInited (some i) = some (s', []) ∧ Refines s' r.init ∧
      ∀ b, (s.inited = false → b ≠ i) → s.heap b = none → s'.heap b = none := by
  unfold Notifier.checkInited Registry.init
  rw [← refines.inited]
  by_cases before : s.inited = true
  · rw [if_pos before, if_pos before]
    exact ⟨s, rfl, refines, fun _ _ free => free⟩
  · rw [if_neg before, if_neg before]
    have first : s.inited = false := Bool.eq_false_iff.mpr before
    obtain ⟨addrs, chain, cells⟩ := refines.represents
    obtain ⟨s', call, refines', elsewhere⟩ :=
      add_refines (s := { s with inited := true }) (r := { r with inited := true })
        ⟨⟨addrs, chain, cells⟩, rfl, refines.sorted⟩ Notifier.defaultEntry (unused first)
    exact ⟨s', call, refines', fun b other => elsewhere b (other first)⟩

theorem step_refines (refines : Refines s r) (unused : s.Unused ev) :
    ∃ s', s.step ev = some (s', r.outcome ev) ∧ Refines s' (r.step ev) := by
  cases ev with
  | register e i a =>
    obtain ⟨free, first⟩ := unused
    obtain ⟨s₁, checked, refines₁, kept⟩ := init_refines refines fun before => (first before).1
    obtain ⟨s₂, call, refines₂, _⟩ := add_refines refines₁ e (kept a (fun before => (first before).2) free)
    refine ⟨s₂, ?_, refines₂⟩
    unfold Notifier.step Notifier.rgErrorRegister
    dsimp only [Option.bind_eq_bind]
    rw [checked, Option.bind_some, call]
    rfl
  | unregister func data =>
    obtain ⟨s', call, represents, inited⟩ := Notifier.rgErrorUnregister_eq refines.represents func data
    refine ⟨s', ?_, ⟨represents, inited.trans refines.inited, refines.sorted.filter _⟩⟩
    unfold Notifier.step
    dsimp only
    rw [call]
    rfl
  | report level msg i =>
    obtain ⟨s', checked, refines', _⟩ := init_refines refines unused
    refine ⟨s', ?_, refines'⟩
    unfold Notifier.step Notifier.rgError
    dsimp only [Option.bind_eq_bind]
    rw [checked, Option.bind_some, Notifier.logMsgDeliver_eq refines'.represents]
    rfl

theorem run_refines {events : List NotifyEvent} (refines : Refines s r) (available : s.Available events) :
    ∃ s', s.run events = some (s', r.outcomes events) ∧ Refines s' (exec Registry.step r events) := by
  induction events generalizing s r with
  | nil => exact ⟨s, rfl, refines⟩
  | cons ev rest ih =>
    obtain ⟨unused, later⟩ := available
    obtain ⟨s₁, call, refines₁⟩ := step_refines refines unused
    rw [call] at later
    obtain ⟨s₂, run, refines₂⟩ := ih refines₁ later
    refine ⟨s₂, ?_, refines₂⟩
    unfold Notifier.run
    dsimp only [Option.bind_eq_bind]
    rw [call, Option.bind_some, run]
    rfl

end Runs

/-- In every history in which memory is found, the functions do what the registry does: a report calls, in the order of
the list, the registered callbacks that cover it; an unregistration removes every matching entry and says how many. -/
theorem notify_law (events : List NotifyEvent) (available : Notifier.initial.Available events) :
    ∃ s, Notifier.initial.run events = some (s, Registry.initial.outcomes events) ∧
      s.Represents (exec Registry.step .initial events).entries ∧
      StablySorted NotifyEntry.sequence (exec Registry.step .initial events).arrivals
        (exec Registry.step .initial events).entries := by
  obtain ⟨s, run, refines⟩ := run_refines refines_initial available
  exact ⟨s, run, refines.represents, refines.sorted⟩

/-- A callback that is registered twice behind the default one, for messages up to errors. -/
def twice : List NotifyEvent :=
  [.register ⟨.callback 0x1000#32, 0#32, 3#32, 1⟩ 0x10#32 0x20#32,
    .register ⟨.callback 0x1000#32, 0#32, 3#32, 1⟩ 0#32 0x30#32]

/-- One unregistration ends both registrations. -/
theorem twice_unregistered :
    ∃ s, Notifier.initial.run (twice ++ [.unregister (.callback 0x1000#32) 0#32]) =
        some (s, [.registered [], .registered [], .unregistered 2]) ∧
      s.Represents [Notifier.defaultEntry] ∧
      StablySorted NotifyEntry.sequence [Notifier.defaultEntry] [Notifier.defaultEntry] :=
  notify_law (twice ++ [.unregister (.callback 0x1000#32) 0#32]) (by decide +kernel)

def RemovesOne (func : NotifyFunc) (data : U32) (before after : List NotifyEntry) : Prop :=
  ∃ xs x ys, before = xs ++ x :: ys ∧ Notifier.matching func data x = true ∧ after = xs ++ ys

theorem RemovesOne.length {func : NotifyFunc} {data : U32} {before after : List NotifyEntry}
    (removes : RemovesOne func data before after) : before.length = after.length + 1 := by
  obtain ⟨xs, x, ys, rfl, _, rfl⟩ := removes
  rw [List.length_append, List.length_append, List.length_cons, Nat.add_assoc]

/-- Two equal registrations: a debug message reaches nobody, and one unregistration removes both. -/
theorem twice_removed : ∃ s entries s' freed entries',
    Notifier.initial.run twice = some (s, [.registered [], .registered []]) ∧ s.Represents entries ∧
      s.logMsgDeliver 7#32 "message" ≠ some (entries.map fun e => ⟨e.func, e.data, "message", 7#32⟩) ∧
      s.rgErrorUnregister (.callback 0x1000#32) 0#32 = some (s', freed) ∧ s'.Represents entries' ∧
      ¬ RemovesOne (.callback 0x1000#32) 0#32 entries entries' := by
  have available : Notifier.initial.Available twice := by decide +kernel
  obtain ⟨s, run, refines⟩ := run_refines refines_initial available
  obtain ⟨s', call, represents, _⟩ := Notifier.rgErrorUnregister_eq refines.represents (.callback 0x1000#32) 0#32
  refine ⟨s, _, s', _, _, run, refines.represents, ?_, call, represents, fun removes => ?_⟩
  · rw [Notifier.logMsgDeliver_eq refines.represents]
    decide
  · exact absurd removes.length (by decide)

/-! ### A registration without memory -/

section Failure

variable {s : Notifier} {entries : List NotifyEntry} {e : NotifyEntry} {i : Option U32}

/-- The callbacks that are registered when the memory for a new one is asked for. -/
def awaiting (s : Notifier) (entries : List NotifyEntry) (i : Option U32) : List NotifyEntry :=
  if s.inited then entries
  else match i with
    | none => []
    | some _ => [Notifier.defaultEntry]

/-- Without memory for it, a registration returns and leaves the list as it is. -/
def Intact (s : Notifier) (entries : List NotifyEntry) (e : NotifyEntry) (i : Option U32) : Prop :=
  ∃ s' calls, s.rgErrorRegister e i none = some (s', calls) ∧ s'.Represents (awaiting s entries i)

theorem checkInited_awaiting (represents : s.Represents entries) (fresh : s.inited = false → entries = [])
    (unused : ∀ a, i = some a → s.heap a = none) :
    ∃ s' calls, s.checkInited i = some (s', calls) ∧ s'.Represents (awaiting s entries i) := by
  unfold Notifier.checkInited awaiting
  by_cases before : s.inited = true
  · rw [if_pos before, if_pos before]
    exact ⟨s, [], rfl, represents⟩
  · rw [if_neg before, if_neg before]
    obtain rfl := fresh (Bool.eq_false_iff.mpr before)
    obtain ⟨addrs, chain, cells⟩ := represents
    have empty : Notifier.Represents { s with inited := true } [] := ⟨addrs, chain, cells⟩
    cases i with
    | none =>
      obtain ⟨s', call, represents, _⟩ := Notifier.registerInited_none empty Notifier.defaultEntry
      exact ⟨s', _, call, represents⟩
    | some a =>
      obtain ⟨s', call, represents, _⟩ :=
        Notifier.registerInited_some empty Notifier.defaultEntry (unused a rfl)
      exact ⟨s', _, call, represents⟩

theorem rgErrorRegister_none (represents : s.Represents entries) (fresh : s.inited = false → entries = [])
    (unused : ∀ a, i = some a → s.heap a = none) (e : NotifyEntry) :
    ∃ s' calls, s.rgErrorRegister e i none = some (s', calls) ∧
      s'.Represents ((awaiting s entries i).takeWhile (·.sequence ≤ e.sequence)) := by
  obtain ⟨s₁, first, checked, represents₁⟩ := checkInited_awaiting represents fresh unused
  obtain ⟨s₂, call, represents₂, _⟩ := Notifier.registerInited_none represents₁ e
  have both : s.rgErrorRegister e i none = some (s₂, first ++ Notifier.notified lexit Notifier.failedMalloc
      ((awaiting s entries i).takeWhile (·.sequence ≤ e.sequence))) := by
    unfold Notifier.rgErrorRegister
    rw [checked]
    dsimp only [Option.bind_eq_bind, Option.bind_some]
    rw [call]
    rfl
  exact ⟨s₂, _, both, represents₂⟩

/-- The list survives exactly when the new callback would have stood behind all others. -/
theorem failed_intact_iff (represents : s.Represents entries) (fresh : s.inited = false → entries = [])
    (unused : ∀ a, i = some a → s.heap a = none) :
    Intact s entries e i ↔ ∀ x ∈ awaiting s entries i, x.sequence ≤ e.sequence := by
  obtain ⟨s', calls, call, cut⟩ := rgErrorRegister_none represents fresh unused e
  have kept : (awaiting s entries i).takeWhile (·.sequence ≤ e.sequence) = awaiting s entries i ↔
      ∀ x ∈ awaiting s entries i, x.sequence ≤ e.sequence := by
    rw [List.takeWhile_eq_self_iff]
    exact forall₂_congr fun x _ => decide_eq_true_iff
  rw [← kept]
  constructor
  · intro ⟨s'', calls', call', whole⟩
    obtain ⟨rfl, _⟩ := Prod.mk.inj (Option.some.inj (call.symm.trans call'))
    exact cut.unique whole
  · intro same
    rw [same] at cut
    exact ⟨s', calls, call, cut⟩

def defaultOnly : Notifier :=
  ⟨some 0x10#32, Function.update (fun _ => none) 0x10#32 (some ⟨none, Notifier.defaultEntry⟩), true⟩

theorem defaultOnly_represents : defaultOnly.Represents [Notifier.defaultEntry] :=
  ⟨[0x10#32], chain_cons.mpr ⟨rfl, chain_nil.mpr rfl⟩, rfl⟩

theorem laterCallback_intact : Intact defaultOnly [Notifier.defaultEntry] ⟨.callback 0x1000#32, 0#32, 3#32, 1⟩ none :=
  (failed_intact_iff (i := none) defaultOnly_represents nofun fun _ => nofun).mpr (by decide)

/-- A callback that should come before the default one takes it along. -/
theorem earlierCallback_not_intact :
    ¬ Intact defaultOnly [Notifier.defaultEntry] ⟨.callback 0x1000#32, 0#32, 3#32, -1⟩ none := by
  intro ⟨s', calls, call, whole⟩
  obtain ⟨s'', calls', call', cut⟩ := rgErrorRegister_none (i := none) defaultOnly_represents nofun
    (fun _ => nofun) ⟨.callback 0x1000#32, 0#32, 3#32, -1⟩
  obtain ⟨rfl, _⟩ := Prod.mk.inj (Option.some.inj (call.symm.trans call'))
  exact absurd (whole.unique cut) (by decide)

end Failure

end TwinpassGateway.Util
