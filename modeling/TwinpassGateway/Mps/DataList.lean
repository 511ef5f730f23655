import TwinpassGateway.Foundation.Linked

/-!
Allocation and release of data lists: `ifx_mps_cpu0_datalist_alloc` and `ifx_mps_cpu0_datalist_free`, which CPU0 also
runs when CPU1 asks for a list. Nodes and buffers are addresses, the null pointer is `none`.
-/

namespace TwinpassGateway.Mps

open Foundation

structure DataList where
  data : Option Nat
  len : Nat
  next : Option Nat

structure MpsDatalist where
  no : Int
  datalist : Option Nat

/-- The answers of `kmalloc` to the requests of one call, of which none is released in between. -/
structure Kmalloc where
  answer : Nat → Option Nat
  distinct : ∀ j k a, answer j = some a → answer k = some a → j = k

structure DatalistAlloc where
  ret : Option Nat
  list : MpsDatalist
  node : Nat → DataList
  requests : Nat
  released : List Nat

/-- The loop, up to the `NULL` in the last node, with the memory and the number of requests so far. There is no
check, and a null node is dereferenced: then there is no result. -/
def datalistLoop (k : Kmalloc) : Nat → Nat → (Nat → DataList) → Nat → Option ((Nat → DataList) × Nat)
  | 0, r, node, used => some (Function.update node r { node r with next := none }, used)
  | turns + 1, r, node, used =>
    match k.answer used with
    | none => none
    | some listPtr =>
      let node := Function.update node listPtr { node listPtr with data := k.answer (used + 1), len := 0 }
      let node := Function.update node r { node r with next := some listPtr }
      datalistLoop k turns listPtr node (used + 2)

/-- `ifx_mps_cpu0_datalist_alloc`, with what the memory holds before. -/
def ifxMpsCpu0DatalistAlloc (k : Kmalloc) (n : Int) (node : Nat → DataList) : Option DatalistAlloc :=
  match k.answer 0 with
  | none => none
  | some pdatapointerList =>
    match k.answer 1 with
    | none => none
    | some r =>
      let node := Function.update node r { node r with data := k.answer 2 }
      match datalistLoop k n.toNat r node 3 with
      | none => none
      | some (node, requests) =>
        some { ret := some pdatapointerList, list := { no := n, datalist := some r }, node, requests, released := [] }

/-- The loop of `ifx_mps_cpu0_datalist_free`: the pointer afterwards, the memory, and what `kfree` was given. -/
def datalistFreeLoop : Nat → Option Nat → (Nat → DataList) → Option (Option Nat × (Nat → DataList) × List Nat)
  | 0, p, node => some (p, node, [])
  | _ + 1, none, _ => none
  | turns + 1, some a, node =>
    let buffer := (node a).data.toList
    let node := Function.update node a { node a with len := 0 }
    (datalistFreeLoop turns (node a).next node).map fun (p, node, released) => (p, node, buffer ++ released)

/-- `ifx_mps_cpu0_datalist_free`: everything it releases. -/
def ifxMpsCpu0DatalistFree (pdatapointerList : Nat) (list : MpsDatalist) (node : Nat → DataList) : Option (List Nat) :=
  (datalistFreeLoop list.no.toNat list.datalist node).map fun (_, _, released) => released ++ [pdatapointerList]

/-! ### What is expected -/

def AllocSound (k : Kmalloc) (n : Int) (result : Option DatalistAlloc) : Prop :=
  ∃ r, result = some r ∧
    match r.ret with
    | none => r.released.Perm ((List.range r.requests).filterMap k.answer)
    | some _ =>
      ∃ nodes buffers, Linked (fun a => (r.node a).next) r.list.datalist nodes ∧ nodes.length = n ∧
        nodes.map (fun a => (r.node a).data) = buffers.map some ∧ (nodes ++ buffers).Nodup

def FreeSound (r : DatalistAlloc) : Prop :=
  ∀ p ∈ r.ret, ∃ nodes released, Linked (fun a => (r.node a).next) r.list.datalist nodes ∧
    ifxMpsCpu0DatalistFree p r.list r.node = some released ∧
    released.Perm (nodes ++ nodes.filterMap (fun a => (r.node a).data) ++ [p])

/-! ### What is built -/

variable {k : Kmalloc}

theorem cons_map_range {β : Type*} {f g : Nat → β} {m : Nat} {x : β} (first : x = f 0)
    (shifted : ∀ i, f (i + 1) = g i) : x :: (List.range m).map g = (List.range (m + 1)).map f := by
  rw [List.range_succ_eq_map, List.map_cons, List.map_map, first]
  exact congrArg (f 0 :: ·) (List.map_congr_left fun i _ => (shifted i).symm)

/-- The loop adds as many nodes as it has turns, each with the buffer that `kmalloc` gave for it, and leaves all other
nodes as they are. -/
theorem datalistLoop_builds {turns r used : Nat} {node node' : Nat → DataList} {used' : Nat}
    (old : ∀ j ≥ used, k.answer j ≠ some r) (built : datalistLoop k turns r node used = some (node', used')) :
    ∃ nodes, nodes.length = turns ∧ Linked (fun a => (node' a).next) (node' r).next nodes ∧
      (node' r).data = (node r).data ∧
      (∀ a, a ≠ r → (∀ j ≥ used, k.answer j ≠ some a) → node' a = node a) ∧
      nodes.map some = (List.range turns).map (fun i => k.answer (used + 2 * i)) ∧
      nodes.map (fun a => (node' a).data) = (List.range turns).map fun i => k.answer (used + 2 * i + 1) := by
  induction turns generalizing r node used with
  | zero =>
    obtain ⟨rfl, rfl⟩ := Prod.mk.inj (Option.some.inj built)
    refine ⟨[], rfl, ?_, ?_, fun a other _ => Function.update_of_ne other _ _, rfl, rfl⟩
    · rw [Function.update_self]
      rfl
    · rw [Function.update_self]
  | succ turns ih =>
    rw [datalistLoop] at built
    cases granted : k.answer used with
    | none => rw [granted] at built; cases built
    | some p =>
      rw [granted] at built
      have apart : r ≠ p := fun same => old used (Nat.le_refl _) (by rw [granted, same])
      have later : ∀ j ≥ used + 2, k.answer j ≠ some p := by
        intro j after again
        have same := k.distinct _ _ _ again granted
        omega
      obtain ⟨nodes, counted, linked, data, frame, addresses, buffers⟩ := ih later built
      have kept := frame r apart fun j after => old j (by omega)
      refine ⟨p :: nodes, by rw [List.length_cons, counted], ?_, ?_, ?_, ?_, ?_⟩
      · rw [kept, Function.update_self]
        exact ⟨rfl, linked⟩
      · rw [kept, Function.update_self, Function.update_of_ne apart]
      · intro a other fresh
        have notP : a ≠ p := by
          rintro rfl
          exact fresh used (Nat.le_refl _) granted
        rw [frame a notP fun j after => fresh j (by omega), Function.update_of_ne other, Function.update_of_ne notP]
      · rw [List.map_cons, addresses, ← granted]
        exact cons_map_range rfl fun i => congrArg k.answer (by omega)
      · rw [List.map_cons, buffers, data, Function.update_of_ne apart.symm, Function.update_self]
        exact cons_map_range rfl fun i => congrArg k.answer (by omega)

variable {n : Int} {node : Nat → DataList} {r : DatalistAlloc}

/-- A call that returns has built one node more than `n`, and takes a null pointer for a buffer as it comes. -/
theorem datalist_alloc_nodes (returned : ifxMpsCpu0DatalistAlloc k n node = some r) :
    ∃ p nodes, r.ret = some p ∧ r.list.no = n ∧ Linked (fun a => (r.node a).next) r.list.datalist nodes ∧
      nodes.map some = (List.range (n.toNat + 1)).map (fun i => k.answer (2 * i + 1)) ∧
      nodes.map (fun a => (r.node a).data) = (List.range (n.toNat + 1)).map fun i => k.answer (2 * i + 2) := by
  unfold ifxMpsCpu0DatalistAlloc at returned
  cases first : k.answer 0 with
  | none => rw [first] at returned; cases returned
  | some p =>
    cases second : k.answer 1 with
    | none => rw [first, second] at returned; cases returned
    | some a =>
      rw [first, second] at returned
      dsimp only at returned
      cases built : datalistLoop k n.toNat a (Function.update node a { node a with data := k.answer 2 }) 3 with
      | none => rw [built] at returned; cases returned
      | some result =>
        obtain ⟨node', requests⟩ := result
        rw [built] at returned
        obtain rfl := Option.some.inj returned
        have old : ∀ j ≥ 3, k.answer j ≠ some a := by
          intro j after again
          have same := k.distinct _ _ _ again second
          omega
        obtain ⟨nodes, _, linked, data, _, addresses, buffers⟩ := datalistLoop_builds old built
        refine ⟨p, a :: nodes, rfl, rfl, ⟨rfl, linked⟩, ?_, ?_⟩
        · rw [List.map_cons, addresses, ← second]
          exact cons_map_range rfl fun i => congrArg k.answer (by omega)
        · rw [List.map_cons, buffers, data, Function.update_self]
          exact cons_map_range rfl fun i => congrArg k.answer (by omega)

theorem filterMap_cons_toList {α β : Type*} (f : α → Option β) (a : α) (rest : List α) :
    (a :: rest).filterMap f = (f a).toList ++ rest.filterMap f := by
  cases own : f a with
  | none => rw [List.filterMap_cons_none own, Option.toList_none, List.nil_append]
  | some b => rw [List.filterMap_cons_some own, Option.toList_some, List.singleton_append]

theorem datalistFreeLoop_releases {turns : Nat} {p : Option Nat} {nodes : List Nat}
    (linked : Linked (fun a => (node a).next) p nodes) (enough : turns ≤ nodes.length) :
    ∃ p' node', datalistFreeLoop turns p node =
      some (p', node', (nodes.take turns).filterMap fun a => (node a).data) := by
  induction turns generalizing p node nodes with
  | zero => exact ⟨p, node, by rw [datalistFreeLoop, List.take_zero, List.filterMap_nil]⟩
  | succ turns ih =>
    cases nodes with
    | nil => exact absurd enough (Nat.not_succ_le_zero turns)
    | cons a rest =>
      obtain ⟨rfl, linked⟩ := linked
      have next (b : Nat) : (Function.update node a { node a with len := 0 } b).next = (node b).next := by
        by_cases here : b = a
        · rw [here, Function.update_self]
        · rw [Function.update_of_ne here]
      have data (b : Nat) : (Function.update node a { node a with len := 0 } b).data = (node b).data := by
        by_cases here : b = a
        · rw [here, Function.update_self]
        · rw [Function.update_of_ne here]
      obtain ⟨p', node', freed⟩ := ih (linked.frame fun b _ => next b) (Nat.le_of_succ_le_succ enough)
      have freed : datalistFreeLoop turns (node a).next _ = _ := freed
      refine ⟨p', node', ?_⟩
      rw [datalistFreeLoop, next, freed]
      simp only [data, Option.map_some, List.take_succ_cons]
      rw [filterMap_cons_toList]

/-- The last node keeps its buffer, and no node is released at all. -/
theorem datalist_free_releases {p : Nat} {nodes : List Nat}
    (linked : Linked (fun a => (r.node a).next) r.list.datalist nodes) (enough : r.list.no.toNat ≤ nodes.length) :
    ifxMpsCpu0DatalistFree p r.list r.node =
      some ((nodes.take r.list.no.toNat).filterMap (fun a => (r.node a).data) ++ [p]) := by
  obtain ⟨p', node', freed⟩ := datalistFreeLoop_releases linked enough
  rw [ifxMpsCpu0DatalistFree, freed]
  rfl

/-! ### What is not -/

theorem nodes_length {nodes : List Nat} {f : Nat → Option Nat} {m : Nat}
    (addresses : nodes.map some = (List.range m).map f) : nodes.length = m := by
  have counted := congrArg List.length addresses
  rwa [List.length_map, List.length_map, List.length_range] at counted

theorem datalist_alloc_unsound (returned : ifxMpsCpu0DatalistAlloc k n node = some r) : ¬ AllocSound k n (some r) := by
  obtain ⟨p, nodes, ret, _, linked, addresses, _⟩ := datalist_alloc_nodes returned
  rintro ⟨r', same, sound⟩
  obtain rfl := Option.some.inj same
  rw [ret] at sound
  obtain ⟨nodes', buffers, linked', exact, _⟩ := sound
  obtain rfl := linked.unique linked'
  rw [nodes_length addresses] at exact
  omega

theorem datalist_free_unsound (returned : ifxMpsCpu0DatalistAlloc k n node = some r) : ¬ FreeSound r := by
  obtain ⟨p, nodes, ret, no, linked, addresses, _⟩ := datalist_alloc_nodes returned
  have counted := nodes_length addresses
  intro sound
  obtain ⟨nodes', released, linked', freed, perm⟩ := sound p ret
  obtain rfl := linked.unique linked'
  rw [datalist_free_releases linked (by rw [no]; omega), no] at freed
  obtain rfl := Option.some.inj freed
  have sizes := perm.length_eq
  have fewer : ((nodes.take n.toNat).filterMap fun a => (r.node a).data).length ≤ n.toNat :=
    (List.length_filterMap_le _ _).trans (List.length_take_le _ _)
  simp only [List.length_append, List.length_singleton] at sizes
  omega

/-- No request is served as expected, whatever `kmalloc` answers, and no list that is returned is released whole. -/
theorem datalist_never_round_trips (k : Kmalloc) (n : Int) (node : Nat → DataList) :
    ¬ AllocSound k n (ifxMpsCpu0DatalistAlloc k n node) ∧
      ¬ ∃ r, ifxMpsCpu0DatalistAlloc k n node = some r ∧ FreeSound r := by
  refine ⟨fun sound => ?_, fun ⟨r, returned, sound⟩ => datalist_free_unsound returned sound⟩
  obtain ⟨r, returned, _⟩ := id sound
  rw [returned] at sound
  exact datalist_alloc_unsound returned sound

def plentiful : Kmalloc where
  answer j := some (0x1000 + j)
  distinct j k a first second := by
    have here := Option.some.inj first
    have there := Option.some.inj second
    omega

/-- Two elements asked for, three made; of seven pieces of memory three are released. -/
theorem datalist_of_two :
    ∃ r, ifxMpsCpu0DatalistAlloc plentiful 2 (fun _ => ⟨none, 0, none⟩) = some r ∧
      Linked (fun a => (r.node a).next) r.list.datalist [0x1001, 0x1003, 0x1005] ∧
      ifxMpsCpu0DatalistFree 0x1000 r.list r.node = some [0x1002, 0x1004, 0x1000] ∧
      ¬ AllocSound plentiful 2 (some r) ∧ ¬ FreeSound r := by
  have made : ifxMpsCpu0DatalistAlloc plentiful 2 (fun _ => ⟨none, 0, none⟩) = some _ := rfl
  exact ⟨_, made, ⟨rfl, rfl, rfl, rfl⟩, rfl, datalist_alloc_unsound made, datalist_free_unsound made⟩

end TwinpassGateway.Mps
