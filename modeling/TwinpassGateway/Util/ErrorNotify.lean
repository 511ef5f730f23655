import TwinpassGateway.Foundation.Linked
import TwinpassGateway.Foundation.Run
import TwinpassGateway.Foundation.StableOrder
import TwinpassGateway.Foundation.Word

/-!
The list of callbacks that are notified of errors (`rg_error.c`): `rg_error_register`, `rg_error_unregister` and the
delivery of a message.
-/

namespace TwinpassGateway.Util

open Foundation

/-! ### The memory -/

inductive NotifyFunc
  | defaultErrorCb
  | callback (p : U32)
  deriving DecidableEq

structure NotifyEntry where
  func : NotifyFunc
  data : U32
  level : U32
  sequence : Int
  deriving DecidableEq

structure NotifyNode where
  next : Option U32
  entry : NotifyEntry

/-- The head of the list, the memory that is allocated for its nodes, and `inited`. -/
structure Notifier where
  rgErrorNotify : Option U32
  heap : U32 → Option NotifyNode
  inited : Bool

/-- A `rg_error_notify_t **`: the address of `rg_error_notify` (`none`) or of the `next` of a node. -/
abbrev Link := Option U32

namespace Notifier

/-- `*n`, where there is memory. -/
def load (s : Notifier) : Link → Option (Option U32)
  | none => some s.rgErrorNotify
  | some a => (s.heap a).map NotifyNode.next

def store (s : Notifier) (n : Link) (p : Option U32) : Option Notifier :=
  match n with
  | none => some { s with rgErrorNotify := p }
  | some a => (s.heap a).map fun node => { s with heap := Function.update s.heap a (some { node with next := p }) }

def free (s : Notifier) (a : U32) : Notifier := { s with heap := Function.update s.heap a none }

end Notifier

/-! ### The functions -/

def levelMask : U32 := 0x0000000f#32

def flagsMask : U32 := 0x00000f00#32

def lnoticeLconsole : U32 := 0x00000105#32

def lexit : U32 := 0x00000202#32

def covers (level : U32) (e : NotifyEntry) : Bool :=
  e.level &&& levelMask ≥ level &&& levelMask || level &&& e.level &&& flagsMask ≠ 0

structure NotifyCall where
  func : NotifyFunc
  data : U32
  msg : String
  level : U32
  deriving DecidableEq

/-- The turns after which a loop over the list has met a node twice. -/
def turns : Nat := 2 ^ 32 + 1

namespace Notifier

def deliverFrom (s : Notifier) (level : U32) (msg : String) : Nat → Option U32 → Option (List NotifyCall)
  | 0, _ => none
  | _ + 1, none => some []
  | fuel + 1, some notify => do
    let node ← s.heap notify
    let later ← s.deliverFrom level msg fuel node.next
    some (if covers level node.entry then ⟨node.entry.func, node.entry.data, msg, level⟩ :: later else later)

def logMsgDeliver (s : Notifier) (level : U32) (msg : String) : Option (List NotifyCall) :=
  s.deliverFrom level msg turns s.rgErrorNotify

def seek (s : Notifier) (sequence : Int) : Nat → Link → Option Link
  | 0, _ => none
  | fuel + 1, n => do
    match ← s.load n with
    | none => some n
    | some a =>
      let node ← s.heap a
      if node.entry.sequence ≤ sequence then s.seek sequence fuel (some a) else some n

def failedMalloc : String := "rg_error_register:315: failed malloc"

/-- `rg_error_register` after `check_inited`, with what `malloc` returns. When that is NULL the failure is reported, and
where `LEXIT` does not end the program the function returns. -/
def registerInited (s : Notifier) (e : NotifyEntry) (malloc : Option U32) : Option (Notifier × List NotifyCall) := do
  let n ← s.seek e.sequence turns none
  let next ← s.load n
  let s ← s.store n malloc
  match malloc with
  | none => do
    let calls ← s.logMsgDeliver lexit failedMalloc
    some (s, calls)
  | some a => some ({ s with heap := Function.update s.heap a (some ⟨next, e⟩) }, [])

def defaultEntry : NotifyEntry := ⟨.defaultErrorCb, 0, lnoticeLconsole, 0⟩

def checkInited (s : Notifier) (malloc : Option U32) : Option (Notifier × List NotifyCall) :=
  if s.inited then some (s, []) else registerInited { s with inited := true } defaultEntry malloc

/-- `rg_error_register`, where `check_inited` may allocate first. -/
def rgErrorRegister (s : Notifier) (e : NotifyEntry) (mallocInit malloc : Option U32) :
    Option (Notifier × List NotifyCall) := do
  let (s, first) ← s.checkInited mallocInit
  let (s, second) ← s.registerInited e malloc
  some (s, first ++ second)

def unregisterFrom (func : NotifyFunc) (data : U32) : Nat → Notifier → Link → Nat → Option (Notifier × Nat)
  | 0, _, _, _ => none
  | fuel + 1, s, cur, freed => do
    match ← s.load cur with
    | none => some (s, freed)
    | some tmp =>
      let node ← s.heap tmp
      if data = node.entry.data ∧ func = node.entry.func then do
        let s ← s.store cur node.next
        unregisterFrom func data fuel (s.free tmp) cur (freed + 1)
      else unregisterFrom func data fuel s (some tmp) freed

def rgErrorUnregister (s : Notifier) (func : NotifyFunc) (data : U32) : Option (Notifier × Nat) :=
  unregisterFrom func data turns s none 0

def rgError (s : Notifier) (level : U32) (msg : String) (mallocInit : Option U32) :
    Option (Notifier × List NotifyCall) := do
  let (s, first) ← s.checkInited mallocInit
  let second ← s.logMsgDeliver level msg
  some (s, first ++ second)

/-! ### What the memory represents -/

def slot (s : Notifier) : Link → Option U32
  | none => s.rgErrorNotify
  | some a => (s.heap a).bind NotifyNode.next

def entryAt (s : Notifier) (a : U32) : Option NotifyEntry := (s.heap a).map NotifyNode.entry

/-- From a link on, the list has these nodes with these entries. -/
structure Part (s : Notifier) (n : Link) (addrs : List U32) (entries : List NotifyEntry) : Prop where
  chain : Chain s.slot n addrs
  cells : addrs.map s.entryAt = entries.map some

def Represents (s : Notifier) (entries : List NotifyEntry) : Prop := ∃ addrs, s.Part none addrs entries

def Valid (s : Notifier) (n : Link) : Prop := ∀ a, n = some a → s.entryAt a ≠ none

section Memory

variable {s : Notifier} {n : Link} {a : U32} {addrs : List U32} {e : NotifyEntry} {entries : List NotifyEntry}

theorem valid_none : s.Valid none := nofun

theorem valid_some (allocated : s.entryAt a = some e) : s.Valid (some a) := by
  rintro _ same
  obtain rfl := Option.some.inj same
  rw [allocated]
  exact nofun

theorem load_eq (valid : s.Valid n) : s.load n = some (s.slot n) := by
  cases n with
  | none => rfl
  | some a =>
    have allocated := valid a rfl
    unfold entryAt at allocated
    unfold load slot
    dsimp only
    cases node : s.heap a with
    | none => exact absurd (by rw [node]; rfl) allocated
    | some node => rfl

theorem entryAt_eq_none : s.entryAt a = none ↔ s.heap a = none := Option.map_eq_none_iff

theorem heap_eq (allocated : s.entryAt a = some e) : s.heap a = some ⟨s.slot (some a), e⟩ := by
  obtain ⟨node, here, rfl⟩ := Option.map_eq_some_iff.mp allocated
  have next : s.slot (some a) = node.next := by
    unfold slot
    dsimp only
    rw [here]
    rfl
  rw [here, next]

theorem set_eq (s : Notifier) (a : U32) (node : Option NotifyNode) :
    ({ s with heap := Function.update s.heap a node } : Notifier).slot =
        Function.update s.slot (some a) (node.bind NotifyNode.next) ∧
      ({ s with heap := Function.update s.heap a node } : Notifier).entryAt =
        Function.update s.entryAt a (node.map NotifyNode.entry) := by
  constructor
  · funext m
    cases m with
    | none => rw [Function.update_of_ne (Option.some_ne_none a).symm]; rfl
    | some b =>
      unfold slot
      dsimp only
      by_cases same : b = a
      · subst same
        rw [Function.update_self, Function.update_self]
      · rw [Function.update_of_ne same, Function.update_of_ne fun both => same (Option.some.inj both)]
  · funext b
    unfold entryAt
    dsimp only
    by_cases same : b = a
    · subst same
      rw [Function.update_self, Function.update_self]
    · rw [Function.update_of_ne same, Function.update_of_ne same]

theorem store_eq (valid : s.Valid n) (p : Option U32) :
    ∃ s', s.store n p = some s' ∧ s'.slot = Function.update s.slot n p ∧ s'.entryAt = s.entryAt ∧
      s'.inited = s.inited := by
  cases n with
  | none =>
    refine ⟨_, rfl, ?_, rfl, rfl⟩
    funext m
    cases m with
    | none => rw [Function.update_self]; rfl
    | some b => rw [Function.update_of_ne (Option.some_ne_none b)]; rfl
  | some a =>
    obtain ⟨e, allocated⟩ := Option.ne_none_iff_exists'.mp (valid a rfl)
    obtain ⟨links, entries⟩ := set_eq s a (some ⟨p, e⟩)
    refine ⟨_, ?_, links, ?_, rfl⟩
    · unfold store
      dsimp only
      rw [heap_eq allocated]
      rfl
    · rw [entries, Option.map_some, ← allocated, Function.update_eq_self]

/-! ### The loops -/

theorem part_nil : s.Part n [] entries ↔ s.slot n = none ∧ entries = [] := by
  constructor
  · intro ⟨chain, cells⟩
    exact ⟨chain_nil.mp chain, List.map_eq_nil_iff.mp cells.symm⟩
  · rintro ⟨last, rfl⟩
    exact ⟨chain_nil.mpr last, rfl⟩

theorem Part.cons (part : s.Part n (a :: addrs) entries) :
    ∃ e rest, entries = e :: rest ∧ s.slot n = some a ∧ s.entryAt a = some e ∧ s.Part (some a) addrs rest := by
  obtain ⟨chain, cells⟩ := part
  obtain ⟨here, chain⟩ := chain_cons.mp chain
  cases entries with
  | nil => exact absurd cells nofun
  | cons e rest =>
    obtain ⟨cell, cells⟩ := List.cons.inj cells
    exact ⟨e, rest, rfl, here, cell, chain, cells⟩

theorem Part.length_eq (part : s.Part n addrs entries) : addrs.length = entries.length := by
  have lengths := congrArg List.length part.cells
  rwa [List.length_map, List.length_map] at lengths

def matching (func : NotifyFunc) (data : U32) (e : NotifyEntry) : Bool := decide (data = e.data ∧ func = e.func)

def notified (level : U32) (msg : String) (entries : List NotifyEntry) : List NotifyCall :=
  (entries.filter (covers level)).map fun e => ⟨e.func, e.data, msg, level⟩

/-- No list has more nodes than there are addresses. -/
theorem Part.length_lt (part : s.Part n addrs entries) : entries.length < turns := by
  have distinct : (addrs.map BitVec.toNat).Nodup := part.chain.nodup.map fun _ _ same => BitVec.eq_of_toNat_eq same
  have inside : addrs.map BitVec.toNat ⊆ List.range (2 ^ 32) := by
    intro i member
    obtain ⟨b, _, rfl⟩ := List.mem_map.mp member
    exact List.mem_range.mpr b.isLt
  have bound := (List.subperm_of_subset distinct inside).length_le
  rw [List.length_map, List.length_range, part.length_eq] at bound
  exact Nat.lt_succ_of_le bound

theorem deliverFrom_eq (part : s.Part n addrs entries) (level : U32) (msg : String) {fuel : Nat}
    (enough : entries.length < fuel) : s.deliverFrom level msg fuel (s.slot n) = some (notified level msg entries) := by
  induction addrs generalizing n entries fuel with
  | nil =>
    obtain ⟨last, rfl⟩ := part_nil.mp part
    obtain ⟨fuel, rfl⟩ := Nat.exists_eq_succ_of_ne_zero (Nat.ne_of_gt enough)
    rw [last]
    rfl
  | cons a addrs ih =>
    obtain ⟨e, rest, rfl, here, cell, part⟩ := part.cons
    obtain ⟨fuel, rfl⟩ := Nat.exists_eq_succ_of_ne_zero (Nat.ne_of_gt (Nat.zero_lt_of_lt enough))
    rw [here, deliverFrom, heap_eq cell]
    dsimp only [Option.bind_eq_bind, Option.bind_some]
    rw [ih part (Nat.lt_of_succ_lt_succ enough), Option.bind_some]
    unfold notified
    by_cases covered : covers level e = true
    · rw [if_pos covered, List.filter_cons_of_pos covered]
      rfl
    · rw [if_neg covered, List.filter_cons_of_neg covered]

theorem logMsgDeliver_eq (represents : s.Represents entries) (level : U32) (msg : String) :
    s.logMsgDeliver level msg = some (notified level msg entries) := by
  obtain ⟨addrs, part⟩ := represents
  exact deliverFrom_eq part level msg part.length_lt

theorem seek_eq (part : s.Part n addrs entries) (valid : s.Valid n) (sequence : Int) {fuel : Nat}
    (enough : entries.length < fuel) :
    ∃ front back, addrs = front ++ back ∧ s.seek sequence fuel n = some (endLink n front) ∧
      s.Valid (endLink n front) ∧ front.map s.entryAt = (entries.takeWhile (·.sequence ≤ sequence)).map some ∧
      back.map s.entryAt = (entries.dropWhile (·.sequence ≤ sequence)).map some := by
  induction addrs generalizing n entries fuel with
  | nil =>
    obtain ⟨last, rfl⟩ := part_nil.mp part
    obtain ⟨fuel, rfl⟩ := Nat.exists_eq_succ_of_ne_zero (Nat.ne_of_gt enough)
    refine ⟨[], [], rfl, ?_, valid, rfl, rfl⟩
    rw [seek, load_eq valid, last]
    rfl
  | cons a addrs ih =>
    obtain ⟨e, rest, rfl, here, cell, later⟩ := part.cons
    obtain ⟨fuel, rfl⟩ := Nat.exists_eq_succ_of_ne_zero (Nat.ne_of_gt (Nat.zero_lt_of_lt enough))
    have turn : s.seek sequence (fuel + 1) n =
        if e.sequence ≤ sequence then s.seek sequence fuel (some a) else some n := by
      rw [seek, load_eq valid, here]
      dsimp only [Option.bind_eq_bind, Option.bind_some]
      rw [heap_eq cell]
      rfl
    by_cases before : e.sequence ≤ sequence
    · obtain ⟨front, back, rfl, found, valid, first, second⟩ :=
        ih later (valid_some cell) (Nat.lt_of_succ_lt_succ enough)
      refine ⟨a :: front, back, rfl, ?_, valid, ?_, ?_⟩
      · rw [turn, if_pos before, found]
        rfl
      · rw [List.takeWhile_cons_of_pos (by simpa using before), List.map_cons, List.map_cons, first, cell]
      · rw [List.dropWhile_cons_of_pos (by simpa using before), second]
    · refine ⟨[], a :: addrs, rfl, ?_, valid, ?_, ?_⟩
      · rw [turn, if_neg before]
        rfl
      · rw [List.takeWhile_cons_of_neg (by simpa using before)]
        rfl
      · rw [List.dropWhile_cons_of_neg (by simpa using before)]
        exact part.cells

theorem Part.allocated (part : s.Part n addrs entries) {b : U32} (member : b ∈ addrs) : s.entryAt b ≠ none := by
  have cell : s.entryAt b ∈ addrs.map s.entryAt := List.mem_map_of_mem member
  rw [part.cells] at cell
  obtain ⟨e, _, same⟩ := List.mem_map.mp cell
  rw [← same]
  exact nofun

/-- A registration puts the entry behind all that do not come after it. -/
theorem registerInited_some (represents : s.Represents entries) (e : NotifyEntry) (unused : s.heap a = none) :
    ∃ s', s.registerInited e (some a) = some (s', []) ∧ s'.Represents (insertByKey NotifyEntry.sequence e entries) ∧
      s'.inited = s.inited ∧ ∀ b, b ≠ a → s'.entryAt b = s.entryAt b := by
  obtain ⟨addrs, part⟩ := represents
  obtain ⟨front, back, rfl, found, valid, first, second⟩ := seek_eq part valid_none e.sequence part.length_lt
  obtain ⟨s₁, stored, links, cells, inited⟩ := store_eq valid (some a)
  obtain ⟨links', cells'⟩ := set_eq s₁ a (some ⟨s.slot (endLink none front), e⟩)
  have free : s.entryAt a = none := entryAt_eq_none.mpr unused
  have new : ∀ b ∈ front ++ back, b ≠ a := by
    rintro b member rfl
    exact part.allocated member free
  have other : endLink none front ≠ some a := fun same => valid a same free
  have call : s.registerInited e (some a) = some
      ({ s₁ with heap := Function.update s₁.heap a (some ⟨s.slot (endLink none front), e⟩) }, []) := by
    unfold registerInited
    rw [found]
    dsimp only [Option.bind_eq_bind, Option.bind_some]
    rw [load_eq valid]
    dsimp only [Option.bind_some]
    rw [stored]
    rfl
  have flag : ({ s₁ with heap := Function.update s₁.heap a (some ⟨s.slot (endLink none front), e⟩) } : Notifier).inited =
      s.inited := inited
  generalize ({ s₁ with heap := Function.update s₁.heap a (some ⟨s.slot (endLink none front), e⟩) } : Notifier) = s₂
    at links' cells' call flag
  rw [links] at links'
  rw [cells] at cells'
  have kept : ∀ m, m ≠ some a → m ≠ endLink none front → s₂.slot m = s.slot m := by
    intro m here there
    rw [links', Function.update_of_ne here, Function.update_of_ne there]
  have entry : ∀ b, b ≠ a → s₂.entryAt b = s.entryAt b := fun b here => by rw [cells', Function.update_of_ne here]
  refine ⟨s₂, call, ⟨front ++ a :: back, ?_, ?_⟩, flag, entry⟩
  · apply part.chain.splice (fun _ _ => nofun)
    · intro m there within
      refine kept m ?_ there
      rintro rfl
      rcases within with within | ⟨b, member, same⟩
      · exact absurd within nofun
      · exact new b (List.mem_append_left _ member) (Option.some.inj same).symm
    · refine chain_cons.mpr ⟨?_, part.chain.behind.frame ?_ fun b member => ?_⟩
      · rw [links', Function.update_of_ne other, Function.update_self]
      · rw [links', Function.update_self]
        rfl
      · apply kept
        · exact fun same => new b (List.mem_append_right _ member) (Option.some.inj same)
        · exact (part.chain.endLink_ne member).symm
  · rw [List.map_append, List.map_cons, insertByKey, List.map_append, List.map_cons, ← first, ← second, cells',
      Function.update_self, ← cells']
    congr 1
    · exact List.map_congr_left fun b member => entry b (new b (List.mem_append_left _ member))
    · congr 1
      exact List.map_congr_left fun b member => entry b (new b (List.mem_append_right _ member))

/-- A registration without memory cuts the list off where the entry would stand. -/
theorem registerInited_none (represents : s.Represents entries) (e : NotifyEntry) :
    ∃ s', s.registerInited e none =
        some (s', notified lexit failedMalloc (entries.takeWhile (·.sequence ≤ e.sequence))) ∧
      s'.Represents (entries.takeWhile (·.sequence ≤ e.sequence)) ∧ s'.inited = s.inited := by
  obtain ⟨addrs, part⟩ := represents
  obtain ⟨front, back, rfl, found, valid, first, second⟩ := seek_eq part valid_none e.sequence part.length_lt
  obtain ⟨s', stored, links, cells, inited⟩ := store_eq valid none
  have cut : s'.Represents (entries.takeWhile (·.sequence ≤ e.sequence)) := by
    refine ⟨front ++ [], ?_, by rw [List.append_nil, cells, first]⟩
    apply part.chain.splice (fun _ _ => nofun)
    · intro m there _
      rw [links, Function.update_of_ne there]
    · rw [chain_nil, links, Function.update_self]
  refine ⟨s', ?_, cut, inited⟩
  unfold registerInited
  rw [found]
  dsimp only [Option.bind_eq_bind, Option.bind_some]
  rw [load_eq valid]
  dsimp only [Option.bind_some]
  rw [stored]
  dsimp only [Option.bind_some]
  rw [logMsgDeliver_eq cut]
  rfl

/-- The loop of an unregistration takes the matching nodes out of its part of the list, and leaves everything else. -/
theorem unregisterFrom_eq (func : NotifyFunc) (data : U32) (part : s.Part n addrs entries) (valid : s.Valid n)
    (outside : ∀ b ∈ addrs, n ≠ some b) {fuel : Nat} (enough : entries.length < fuel) (freed : Nat) :
    ∃ s' addrs', unregisterFrom func data fuel s n freed =
        some (s', freed + entries.countP (matching func data)) ∧
      s'.Part n addrs' (entries.filter (!matching func data ·)) ∧
      (∀ m, m ≠ n → (∀ b ∈ addrs, m ≠ some b) → s'.slot m = s.slot m) ∧
      (∀ b, b ∉ addrs → s'.entryAt b = s.entryAt b) ∧ s'.inited = s.inited := by
  induction addrs generalizing s n entries fuel freed with
  | nil =>
    obtain ⟨last, rfl⟩ := part_nil.mp part
    obtain ⟨fuel, rfl⟩ := Nat.exists_eq_succ_of_ne_zero (Nat.ne_of_gt enough)
    refine ⟨s, [], ?_, part, fun _ _ _ => rfl, fun _ _ => rfl, rfl⟩
    rw [unregisterFrom, load_eq valid, last]
    rfl
  | cons a addrs ih =>
    obtain ⟨e, rest, rfl, here, cell, later⟩ := part.cons
    obtain ⟨fuel, rfl⟩ := Nat.exists_eq_succ_of_ne_zero (Nat.ne_of_gt (Nat.zero_lt_of_lt enough))
    obtain ⟨fresh, _⟩ := List.nodup_cons.mp part.chain.nodup
    have distinct : ∀ b ∈ addrs, (some a : Link) ≠ some b := by
      rintro b member same
      obtain rfl := Option.some.inj same
      exact fresh member
    have turn : unregisterFrom func data (fuel + 1) s n freed =
        if data = e.data ∧ func = e.func then
          (s.store n (s.slot (some a))).bind fun s => unregisterFrom func data fuel (s.free a) n (freed + 1)
        else unregisterFrom func data fuel s (some a) freed := by
      rw [unregisterFrom, load_eq valid, here]
      dsimp only [Option.bind_eq_bind, Option.bind_some]
      rw [heap_eq cell]
      rfl
    by_cases found : data = e.data ∧ func = e.func
    · obtain ⟨s₁, stored, links, cells, inited⟩ := store_eq valid (s.slot (some a))
      have gone : matching func data e = true := decide_eq_true found
      have links' : (s₁.free a).slot = Function.update s₁.slot (some a) none := (set_eq s₁ a none).1
      have cells' : (s₁.free a).entryAt = Function.update s₁.entryAt a none := (set_eq s₁ a none).2
      rw [links] at links'
      rw [cells] at cells'
      have kept : ∀ m, m ≠ some a → m ≠ n → (s₁.free a).slot m = s.slot m := by
        intro m first second
        rw [links', Function.update_of_ne first, Function.update_of_ne second]
      have entry : ∀ b, b ≠ a → (s₁.free a).entryAt b = s.entryAt b := by
        intro b other
        rw [cells', Function.update_of_ne other]
      have away : n ≠ some a := outside a List.mem_cons_self
      have others : ∀ b ∈ addrs, n ≠ some b := fun b member => outside b (List.mem_cons_of_mem _ member)
      have rest_ : (s₁.free a).Part n addrs rest := by
        refine ⟨later.chain.frame ?_ fun b member => kept _ (distinct b member).symm (others b member).symm, ?_⟩
        · rw [links', Function.update_of_ne away, Function.update_self]
        · rw [← later.cells]
          exact List.map_congr_left fun b member => entry b fun same => fresh (same ▸ member)
      have valid' : (s₁.free a).Valid n := by
        rintro b rfl
        rw [entry b fun same => away (congrArg some same)]
        exact valid b rfl
      obtain ⟨s', addrs', run, part', slots, entries', flag⟩ :=
        ih rest_ valid' others (Nat.lt_of_succ_lt_succ enough) (freed + 1)
      refine ⟨s', addrs', ?_, ?_, ?_, ?_, flag.trans inited⟩
      · rw [turn, if_pos found, stored, Option.bind_some, run, List.countP_cons_of_pos gone]
        congr 2
        omega
      · rw [List.filter_cons_of_neg (by rw [gone]; exact Bool.false_ne_true)]
        exact part'
      · intro m other elsewhere
        rw [slots m other fun b member => elsewhere b (List.mem_cons_of_mem _ member),
          kept m (elsewhere a List.mem_cons_self) other]
      · intro b elsewhere
        rw [entries' b fun member => elsewhere (List.mem_cons_of_mem _ member),
          entry b fun same => elsewhere (same ▸ List.mem_cons_self)]
    · obtain ⟨s', addrs', run, part', links, cells, inited⟩ :=
        ih later (valid_some cell) distinct (Nat.lt_of_succ_lt_succ enough) freed
      have kept : matching func data e = false := decide_eq_false found
      refine ⟨s', a :: addrs', ?_, ⟨?_, ?_⟩, ?_, ?_, inited⟩
      · rw [turn, if_neg found, run, List.countP_cons_of_neg (by rw [kept]; exact Bool.false_ne_true)]
      · refine chain_cons.mpr ⟨?_, part'.chain⟩
        rw [links n (outside a List.mem_cons_self) fun b member => outside b (List.mem_cons_of_mem _ member), here]
      · rw [List.filter_cons_of_pos (by rw [kept]; rfl), List.map_cons, List.map_cons, part'.cells, cells a fresh, cell]
      · intro m other others
        exact links m (others a List.mem_cons_self) fun b member => others b (List.mem_cons_of_mem _ member)
      · intro b others
        exact cells b fun member => others (List.mem_cons_of_mem _ member)

theorem rgErrorUnregister_eq (represents : s.Represents entries) (func : NotifyFunc) (data : U32) :
    ∃ s', s.rgErrorUnregister func data = some (s', entries.countP (matching func data)) ∧
      s'.Represents (entries.filter (!matching func data ·)) ∧ s'.inited = s.inited := by
  obtain ⟨addrs, part⟩ := represents
  obtain ⟨s', addrs', run, part', _, _, inited⟩ :=
    unregisterFrom_eq func data part valid_none (fun _ _ => nofun) part.length_lt 0
  rw [Nat.zero_add] at run
  exact ⟨s', run, ⟨addrs', part'⟩, inited⟩

theorem Represents.unique {other : List NotifyEntry} (first : s.Represents entries) (second : s.Represents other) :
    entries = other := by
  obtain ⟨addrs, part⟩ := first
  obtain ⟨addrs', part'⟩ := second
  obtain rfl := part.chain.unique part'.chain
  exact List.map_injective_iff.mpr (Option.some_injective _) (part.cells.symm.trans part'.cells)

end Memory

end Notifier

end TwinpassGateway.Util
