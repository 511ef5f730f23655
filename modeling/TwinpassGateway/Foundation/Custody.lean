import Mathlib.Data.List.Count
import Mathlib.Tactic

/-!
Custody of items that are supplied, kept on shelves and given back. An item that is outstanding is on
exactly one shelf, exactly once; the same item may be supplied again after it has been given back.
-/

namespace TwinpassGateway.Foundation

variable {ι β : Type*} [DecidableEq ι] [DecidableEq β]

/-- `place` says on which shelf every outstanding item is. -/
structure Custody (shelf : ι → List β) (supplied returned : List β) (place : β → Option ι) : Prop where
  shelves : ∀ p b, (shelf p).count b = if place b = some p then 1 else 0
  ledger : ∀ b, supplied.count b = returned.count b + if place b = none then 0 else 1

def putOn (shelf : ι → List β) (p : ι) (b : β) : ι → List β := Function.update shelf p (shelf p ++ [b])

def takeOff (shelf : ι → List β) (p : ι) (b : β) : ι → List β := Function.update shelf p ((shelf p).erase b)

variable {shelf : ι → List β} {supplied returned : List β} {place : β → Option ι} {p p' : ι} {b : β}

theorem count_putOn (p' : ι) (c : β) :
    (putOn shelf p b p').count c = (shelf p').count c + if p' = p ∧ c = b then 1 else 0 := by
  unfold putOn
  by_cases own : p' = p
  · subst own
    by_cases same : c = b
    · subst same; simp
    · simp [same, List.count_cons_of_ne (Ne.symm same)]
  · simp [own]

theorem count_takeOff (member : b ∈ shelf p) (p' : ι) (c : β) :
    (takeOff shelf p b p').count c + (if p' = p ∧ c = b then 1 else 0) = (shelf p').count c := by
  unfold takeOff
  by_cases own : p' = p
  · subst own
    by_cases same : c = b
    · subst same
      have := List.count_pos_iff.mpr member
      simp only [Function.update_self, List.count_erase_self, and_self, if_true]
      omega
    · simp [same, List.count_erase_of_ne same]
  · simp [own]

namespace Custody

theorem place_of_mem (held : Custody shelf supplied returned place) (member : b ∈ shelf p) : place b = some p := by
  have counted := held.shelves p b
  have := List.count_pos_iff.mpr member
  by_contra elsewhere
  rw [if_neg elsewhere] at counted
  omega

theorem place_of_count (held : Custody shelf supplied returned place) (free : supplied.count b = returned.count b) :
    place b = none := by
  have counted := held.ledger b
  by_contra somewhere
  rw [if_neg somewhere] at counted
  omega

theorem supply (held : Custody shelf supplied returned place) (free : supplied.count b = returned.count b) :
    Custody (putOn shelf p b) (supplied ++ [b]) returned (Function.update place b (some p)) := by
  have here := held.place_of_count free
  refine ⟨fun p' c => ?_, fun c => ?_⟩
  · rw [count_putOn, held.shelves]
    by_cases same : c = b
    · subst same
      simp [here, eq_comm]
    · simp [same]
  · have before := held.ledger c
    by_cases same : c = b
    · subst same
      simp [free]
    · simp [same, List.count_cons_of_ne (Ne.symm same), before]

theorem giveBack (held : Custody shelf supplied returned place) (member : b ∈ shelf p) :
    Custody (takeOff shelf p b) supplied (returned ++ [b]) (Function.update place b none) := by
  have here := held.place_of_mem member
  refine ⟨fun p' c => ?_, fun c => ?_⟩
  · have before := count_takeOff member p' c
    rw [held.shelves] at before
    by_cases same : c = b
    · subst same
      by_cases own : p' = p
      · subst own; simp_all
      · simp_all [eq_comm]
    · simpa [same] using before
  · have before := held.ledger c
    by_cases same : c = b
    · subst same
      simp [before, here]
    · simp [same, List.count_cons_of_ne (Ne.symm same), before]

theorem move (held : Custody shelf supplied returned place) (member : b ∈ shelf p) (p' : ι) :
    Custody (putOn (takeOff shelf p b) p' b) supplied returned (Function.update place b (some p')) := by
  have here := held.place_of_mem member
  refine ⟨fun p'' c => ?_, fun c => ?_⟩
  · have before := count_takeOff member p'' c
    rw [held.shelves] at before
    rw [count_putOn]
    by_cases same : c = b
    · subst same
      by_cases own : p'' = p
      · subst own; simp_all [eq_comm]
      · simp_all [eq_comm]
    · simpa [same] using before
  · have before := held.ledger c
    by_cases same : c = b
    · subst same
      simp [before, here]
    · simp [same, before]

end Custody

end TwinpassGateway.Foundation
