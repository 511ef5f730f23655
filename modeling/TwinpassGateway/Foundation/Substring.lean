import Mathlib.Data.List.Infix
import Mathlib.Tactic

/-!
Occurrences of one list in another, and their replacement from left to right.
-/

namespace TwinpassGateway.Foundation

variable {α : Type*}

/-- Reading from the left, `needle` is replaced where it begins, and the reading goes on behind it. The number is that of
the replacements. -/
inductive Replaced (needle rep : List α) : List α → List α → Nat → Prop
  | done : Replaced needle rep [] [] 0
  | keep {c : α} {s t : List α} {n : Nat} (other : ¬ needle <+: c :: s) (rest : Replaced needle rep s t n) :
    Replaced needle rep (c :: s) (c :: t) n
  | replace {s t : List α} {n : Nat} (rest : Replaced needle rep s t n) :
    Replaced needle rep (needle ++ s) (rep ++ t) (n + 1)

def occurrence [DecidableEq α] (needle : List α) : List α → Option Nat
  | [] => if needle = [] then some 0 else none
  | c :: rest => if needle <+: c :: rest then some 0 else (occurrence needle rest).map (· + 1)

variable {needle rep s t u : List α} {i m n : Nat}

/-- There is only one way to read a text. -/
theorem Replaced.unique (nonempty : needle ≠ []) (first : Replaced needle rep s t m) (second : Replaced needle rep s u n) :
    t = u ∧ m = n := by
  induction first generalizing u n with
  | done =>
    generalize same : ([] : List α) = s at second
    cases second with
    | done => exact ⟨rfl, rfl⟩
    | keep => cases same
    | replace => exact absurd (List.append_eq_nil_iff.mp same.symm).1 nonempty
  | @keep c s t m other rest ih =>
    generalize same : c :: s = s' at second
    cases second with
    | done => cases same
    | keep _ rest' =>
      cases same
      obtain ⟨rfl, rfl⟩ := ih rest'
      exact ⟨rfl, rfl⟩
    | replace => exact absurd (same ▸ List.prefix_append needle _) other
  | @replace s t m rest ih =>
    generalize same : needle ++ s = s' at second
    cases second with
    | done => exact absurd (List.append_eq_nil_iff.mp same).1 nonempty
    | keep other => exact absurd (same ▸ List.prefix_append needle s) other
    | replace rest' =>
      obtain rfl := List.append_cancel_left same
      obtain ⟨rfl, rfl⟩ := ih rest'
      exact ⟨rfl, rfl⟩

variable [DecidableEq α]

theorem occurrence_some (found : occurrence needle s = some i) :
    ∃ front rest, s = front ++ (needle ++ rest) ∧ front.length = i := by
  induction s generalizing i with
  | nil =>
    unfold occurrence at found
    split at found
    · rename_i empty
      cases found
      exact ⟨[], [], by rw [empty]; rfl, rfl⟩
    · cases found
  | cons c s ih =>
    unfold occurrence at found
    split at found
    · rename_i here
      cases found
      obtain ⟨rest, same⟩ := here
      exact ⟨[], rest, same.symm, rfl⟩
    · obtain ⟨j, later, rfl⟩ := Option.map_eq_some_iff.mp found
      obtain ⟨front, rest, same, length⟩ := ih later
      exact ⟨c :: front, rest, by rw [same]; rfl, by rw [List.length_cons, length]⟩

theorem Replaced.of_none (absent : occurrence needle s = none) : Replaced needle rep s s 0 := by
  induction s with
  | nil => exact .done
  | cons c s ih =>
    unfold occurrence at absent
    split at absent
    · cases absent
    · rename_i other
      exact .keep other (ih (Option.map_eq_none_iff.mp absent))

/-- What stands before the first occurrence is kept. -/
theorem Replaced.of_some {front rest : List α} (found : occurrence needle (front ++ (needle ++ rest)) = some front.length)
    (replaced : Replaced needle rep rest t n) :
    Replaced needle rep (front ++ (needle ++ rest)) (front ++ (rep ++ t)) (n + 1) := by
  induction front with
  | nil => exact replaced.replace
  | cons c front ih =>
    rw [List.cons_append, occurrence] at found
    split at found
    · cases found
    · rename_i other
      obtain ⟨j, later, same⟩ := Option.map_eq_some_iff.mp found
      rw [List.length_cons, Nat.add_right_cancel_iff] at same
      exact .keep other (ih (later.trans (congrArg some same)))

/-- Induction from one occurrence to the next. -/
theorem occurrence_induction (nonempty : needle ≠ []) {P : List α → Prop} (absent : ∀ s, occurrence needle s = none → P s)
    (found : ∀ front rest, occurrence needle (front ++ (needle ++ rest)) = some front.length → P rest →
      P (front ++ (needle ++ rest))) (s : List α) : P s := by
  induction length : s.length using Nat.strong_induction_on generalizing s with
  | _ k ih =>
    cases here : occurrence needle s with
    | none => exact absent s here
    | some i =>
      obtain ⟨front, rest, rfl, rfl⟩ := occurrence_some here
      have progress := List.length_pos_iff.mpr nonempty
      rw [List.length_append, List.length_append] at length
      exact found front rest here (ih rest.length (by omega) rest rfl)

/-- Every text can be read. -/
theorem Replaced.exists (nonempty : needle ≠ []) (rep s : List α) : ∃ t n, Replaced needle rep s t n := by
  induction s using occurrence_induction nonempty with
  | absent s here => exact ⟨s, 0, .of_none here⟩
  | found front rest here ih =>
    obtain ⟨t, n, replaced⟩ := ih
    exact ⟨front ++ (rep ++ t), n + 1, .of_some here replaced⟩

end TwinpassGateway.Foundation
