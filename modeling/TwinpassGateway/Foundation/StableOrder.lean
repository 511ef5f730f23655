import Mathlib.Data.List.Basic
import Mathlib.Data.List.TakeWhile
import Mathlib.Order.Basic
import Mathlib.Tactic

/-!
Lists that are kept in the order of a key, equal keys in the order of arrival.
-/

namespace TwinpassGateway.Foundation

variable {α κ : Type*} [LinearOrder κ] {key : α → κ} {e : α} {xs ys zs : List α}

/-- The list with an element put behind all that do not come after it. -/
def insertByKey (key : α → κ) (e : α) (xs : List α) : List α :=
  xs.takeWhile (key · ≤ key e) ++ e :: xs.dropWhile (key · ≤ key e)

/-- The second list has the elements of the first by their keys, and equal keys in the order of the first. -/
structure StablySorted (key : α → κ) (arrivals sorted : List α) : Prop where
  ordered : sorted.Pairwise (key · ≤ key ·)
  stable : ∀ k, sorted.filter (key · = k) = arrivals.filter (key · = k)

theorem stablySorted_nil : StablySorted key [] [] := ⟨List.Pairwise.nil, fun _ => rfl⟩

theorem above_of_mem_dropWhile (ordered : xs.Pairwise (key · ≤ key ·)) {x : α}
    (member : x ∈ xs.dropWhile (key · ≤ key e)) : key e < key x := by
  induction xs with
  | nil => exact absurd member List.not_mem_nil
  | cons y xs ih =>
    obtain ⟨first, ordered⟩ := List.pairwise_cons.mp ordered
    by_cases below : key y ≤ key e
    · rw [List.dropWhile_cons_of_pos (by simpa using below)] at member
      exact ih ordered member
    · rw [List.dropWhile_cons_of_neg (by simpa using below)] at member
      rcases List.mem_cons.mp member with rfl | later
      · exact lt_of_not_ge below
      · exact (lt_of_not_ge below).trans_le (first x later)

theorem le_of_mem_takeWhile {x : α} (member : x ∈ xs.takeWhile (key · ≤ key e)) : key x ≤ key e := by
  simpa using List.mem_takeWhile_imp member

theorem StablySorted.insert (sorted : StablySorted key xs ys) (e : α) :
    StablySorted key (xs ++ [e]) (insertByKey key e ys) := by
  obtain ⟨ordered, stable⟩ := sorted
  have split : ys.takeWhile (key · ≤ key e) ++ ys.dropWhile (key · ≤ key e) = ys := List.takeWhile_append_dropWhile
  constructor
  · unfold insertByKey
    rw [← split] at ordered
    obtain ⟨front, back, across⟩ := List.pairwise_append.mp ordered
    rw [split] at ordered
    refine List.pairwise_append.mpr ⟨front, List.pairwise_cons.mpr ⟨fun x member => ?_, back⟩, fun x first y later => ?_⟩
    · exact (above_of_mem_dropWhile ordered member).le
    · rcases List.mem_cons.mp later with rfl | later
      · exact le_of_mem_takeWhile first
      · exact across x first y later
  · intro k
    have before := stable k
    rw [← split, List.filter_append] at before
    unfold insertByKey
    rw [List.filter_append, List.filter_append, ← before]
    by_cases here : key e = k
    · have none_ : (ys.dropWhile (key · ≤ key e)).filter (key · = k) = [] := by
        rw [List.filter_eq_nil_iff]
        intro x member
        have above := above_of_mem_dropWhile ordered member
        rw [here] at above
        simpa using above.ne'
      rw [List.filter_cons_of_pos (by simpa using here), none_, List.append_nil,
        List.filter_cons_of_pos (by simpa using here)]
      rfl
    · rw [List.filter_cons_of_neg (by simpa using here), List.filter_cons_of_neg (by simpa using here), List.filter_nil,
        List.append_nil]

theorem StablySorted.filter (sorted : StablySorted key xs ys) (p : α → Bool) :
    StablySorted key (xs.filter p) (ys.filter p) := by
  refine ⟨sorted.ordered.filter p, fun k => ?_⟩
  rw [List.filter_filter, List.filter_filter]
  have both : ∀ zs : List α, zs.filter (fun a => decide (key a = k) && p a) = (zs.filter (key · = k)).filter p := by
    intro zs
    rw [List.filter_filter]
    exact List.filter_congr fun a _ => Bool.and_comm _ _
  rw [both, both, sorted.stable]

end TwinpassGateway.Foundation
