import Mathlib.Data.List.Basic
import Mathlib.Tactic

/-!
Singly linked lists: the addresses that are met when following the successors of a memory.
-/

namespace TwinpassGateway.Foundation

variable {α : Type*}

/-- Following `next` from a pointer meets exactly these addresses before the null pointer. -/
def Linked (next : α → Option α) : Option α → List α → Prop
  | p, [] => p = none
  | p, a :: rest => p = some a ∧ Linked next (next a) rest

variable {next next' : α → Option α} {p : Option α} {xs ys : List α}

theorem Linked.unique (first : Linked next p xs) (second : Linked next p ys) : xs = ys := by
  induction xs generalizing p ys with
  | nil =>
    cases ys with
    | nil => rfl
    | cons b ys => exact absurd (second.1.symm.trans first) nofun
  | cons a xs ih =>
    cases ys with
    | nil => exact absurd (first.1.symm.trans second) nofun
    | cons b ys =>
      obtain rfl := Option.some.inj (first.1.symm.trans second.1)
      rw [ih first.2 second.2]

theorem Linked.frame (linked : Linked next p xs) (same : ∀ a ∈ xs, next' a = next a) : Linked next' p xs := by
  induction xs generalizing p with
  | nil => exact linked
  | cons a xs ih =>
    refine ⟨linked.1, ?_⟩
    rw [same a List.mem_cons_self]
    exact ih linked.2 fun b member => same b (List.mem_cons_of_mem _ member)

/-! ### Lists that are changed through pointers to their links

A link is the variable that holds the head of the list (`none`) or the successor of an element.
-/

/-- Following the links from one of them meets exactly these addresses. -/
def Chain (slot : Option α → Option α) (l : Option α) (xs : List α) : Prop := Linked (fun a => slot (some a)) (slot l) xs

def endLink : Option α → List α → Option α
  | l, [] => l
  | _, a :: rest => endLink (some a) rest

variable {slot slot' : Option α → Option α} {l : Option α} {zs : List α}

theorem chain_nil : Chain slot l [] ↔ slot l = none := Iff.rfl

theorem chain_cons {a : α} : Chain slot l (a :: xs) ↔ slot l = some a ∧ Chain slot (some a) xs := Iff.rfl

theorem Chain.behind (chain : Chain slot l (xs ++ ys)) : Chain slot (endLink l xs) ys := by
  induction xs generalizing l with
  | nil => exact chain
  | cons a xs ih => exact ih (chain_cons.mp chain).2

theorem Chain.nodup (chain : Chain slot l xs) : xs.Nodup := by
  induction xs generalizing l with
  | nil => exact List.nodup_nil
  | cons a xs ih =>
    obtain ⟨_, rest⟩ := chain_cons.mp chain
    refine List.nodup_cons.mpr ⟨fun member => ?_, ih rest⟩
    obtain ⟨before, after, rfl⟩ := List.append_of_mem member
    -- the part behind the second occurrence would be the part behind the first
    have again : Chain slot (some a) after := (chain_cons.mp rest.behind).2
    have same := congrArg List.length (Linked.unique rest again)
    simp only [List.length_append, List.length_cons] at same
    omega

theorem endLink_mem (l : Option α) (xs : List α) : endLink l xs = l ∨ ∃ a ∈ xs, endLink l xs = some a := by
  induction xs generalizing l with
  | nil => exact Or.inl rfl
  | cons a xs ih =>
    rcases ih (some a) with same | ⟨b, member, same⟩
    · exact Or.inr ⟨a, List.mem_cons_self, same⟩
    · exact Or.inr ⟨b, List.mem_cons_of_mem _ member, same⟩

/-- Where only the link behind a part of the list has changed, that part is kept. -/
theorem Chain.splice (chain : Chain slot l (xs ++ ys)) (outside : ∀ a ∈ xs, l ≠ some a)
    (same : ∀ m, m ≠ endLink l xs → (m = l ∨ ∃ a ∈ xs, m = some a) → slot' m = slot m)
    (behind : Chain slot' (endLink l xs) zs) : Chain slot' l (xs ++ zs) := by
  have distinct := chain.nodup
  induction xs generalizing l with
  | nil => exact behind
  | cons a xs ih =>
    obtain ⟨here, rest⟩ := chain_cons.mp chain
    obtain ⟨fresh, distinct⟩ := List.nodup_cons.mp distinct
    have inside : ∀ b ∈ xs, (some a : Option α) ≠ some b := by
      rintro b member same
      obtain rfl := Option.some.inj same
      exact fresh (List.mem_append_left _ member)
    refine chain_cons.mpr ⟨?_, ih rest inside (fun m other within => same m other (Or.inr ?_)) behind distinct⟩
    · rw [← here]
      refine same l (fun last => ?_) (Or.inl rfl)
      rcases endLink_mem (some a) xs with first | ⟨b, member, later⟩
      · exact outside a List.mem_cons_self (last.trans first)
      · exact outside b (List.mem_cons_of_mem _ member) (last.trans later)
    · rcases within with rfl | ⟨b, member, rfl⟩
      · exact ⟨a, List.mem_cons_self, rfl⟩
      · exact ⟨b, List.mem_cons_of_mem _ member, rfl⟩

theorem Chain.frame {l' : Option α} (chain : Chain slot l xs) (here : slot' l' = slot l)
    (same : ∀ a ∈ xs, slot' (some a) = slot (some a)) : Chain slot' l' xs := by
  unfold Chain
  rw [here]
  exact Linked.frame chain same

theorem Chain.endLink_ne (chain : Chain slot none (xs ++ ys)) {b : α} (member : b ∈ ys) : endLink none xs ≠ some b := by
  intro same
  rcases endLink_mem none xs with first | ⟨c, inside, last⟩
  · exact absurd (first.symm.trans same) nofun
  · obtain rfl := Option.some.inj (last.symm.trans same)
    exact (List.nodup_append.mp chain.nodup).2.2 c inside c member rfl

end TwinpassGateway.Foundation
