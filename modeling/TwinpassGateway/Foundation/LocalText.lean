import TwinpassGateway.Foundation.LocalMemory

/-!
What routines read of a text in a local array, as equations: characters that an array shows, one after the other, from a
place on.
-/

namespace TwinpassGateway.Foundation

namespace Routine

variable {ω α β γ : Type}

theorem pure_then (a : α) (next : α → Routine ω β) : (pure a >>= next : Routine ω β) = next a := rfl

/-- A part whose result is known. -/
theorem run_then {m : Routine ω α} {a : α} (run : m = pure a) (next : α → Routine ω β) : m >>= next = next a := by
  rw [run, pure_then]

theorem then_assoc (m : Routine ω α) (next : α → Routine ω β) (last : β → Routine ω γ) :
    m >>= next >>= last = m >>= fun a => next a >>= last := by
  obtain ⟨result, output⟩ := m
  cases result with
  | error stop => rfl
  | ok a =>
    show ({ result := (next a).result, output := output ++ (next a).output } : Routine ω β) >>= last =
      { result := (next a >>= last).result, output := output ++ (next a >>= last).output }
    generalize next a = second
    obtain ⟨result, output'⟩ := second
    cases result with
    | error stop => rfl
    | ok b =>
      show ({ result := (last b).result, output := output ++ output' ++ (last b).output } : Routine ω γ) =
        { result := (last b).result, output := output ++ (output' ++ (last b).output) }
      rw [List.append_assoc]

end Routine

namespace LocalChars

variable {ω : Type} {size : Nat} {a : LocalChars size} {p : Nat} {c d : U8} {text rest lead : List U8}

def Shows (a : LocalChars size) (p : Nat) (text : List U8) : Prop := p + text.length ≤ size ∧ a.Holds p text

theorem Shows.head (shows_ : a.Shows p (c :: rest)) : (a.load p : Routine ω U8) = pure c := by
  obtain ⟨inside, held⟩ := shows_
  rw [List.length_cons] at inside
  have here : a.cells p = some c := held 0 (Nat.zero_lt_succ _)
  unfold load
  rw [if_pos ⟨Int.natCast_nonneg p, by exact_mod_cast (show p < size by omega)⟩, Int.toNat_natCast, here]

theorem Shows.behind (shows_ : a.Shows p (lead ++ rest)) : a.Shows (p + lead.length) rest := by
  obtain ⟨inside, held⟩ := shows_
  rw [List.length_append] at inside
  refine ⟨by omega, fun k below => ?_⟩
  rw [Nat.add_assoc, held (lead.length + k) (by rw [List.length_append]; omega),
    List.getElem_append_right (Nat.le_add_right _ _)]
  simp only [Nat.add_sub_cancel_left]

theorem Shows.tail (shows_ : a.Shows p (c :: rest)) : a.Shows (p + 1) rest := @Shows.behind size a p rest [c] shows_

theorem Shows.front (shows_ : a.Shows p (lead ++ rest)) : a.Shows p lead := by
  obtain ⟨inside, held⟩ := shows_
  rw [List.length_append] at inside
  refine ⟨by omega, fun k below => ?_⟩
  rw [held k (by rw [List.length_append]; omega), List.getElem_append_left below]

/-- A character behind some others. -/
theorem Shows.load_behind (shows_ : a.Shows p (lead ++ c :: rest)) :
    (a.load (p + lead.length : Nat) : Routine ω U8) = pure c :=
  shows_.behind.head

theorem store_eq (inside : p < size) (c : U8) :
    (a.store p c : Routine ω (LocalChars size)) = pure { cells := Function.update a.cells p (some c) } := by
  unfold LocalChars.store
  rw [if_pos ⟨Int.natCast_nonneg _, by exact_mod_cast inside⟩, Int.toNat_natCast]

theorem Shows.store (shows_ : a.Shows p (lead ++ c :: rest)) (d : U8) :
    ∃ b : LocalChars size, (a.store (p + lead.length : Nat) d : Routine ω _) = pure b ∧ b.Shows p (lead ++ d :: rest) := by
  obtain ⟨inside, held⟩ := shows_
  rw [List.length_append, List.length_cons] at inside
  refine ⟨_, store_eq (by omega) d, ?_, fun k below => ?_⟩
  · rw [List.length_append, List.length_cons]
    exact inside
  · have below' : k < (lead ++ c :: rest).length := by
      rw [List.length_append, List.length_cons] at below ⊢
      exact below
    dsimp only
    obtain before | rfl | after := Nat.lt_trichotomy k lead.length
    · rw [Function.update_of_ne (by omega), held k below', List.getElem_append_left before, List.getElem_append_left before]
    · rw [Function.update_self, List.getElem_append_right le_rfl]
      simp
    · rw [Function.update_of_ne (by omega), held k below', List.getElem_append_right after.le,
        List.getElem_append_right after.le]
      obtain ⟨m, rfl⟩ := Nat.exists_eq_add_of_lt after
      simp only [Nat.add_assoc, Nat.add_sub_cancel_left, List.getElem_cons_succ]

theorem fill_eq {bytes : List U8} (inside : p + bytes.length ≤ size) :
    (a.fill p bytes : Routine ω (LocalChars size)) = pure (a.filled p bytes) := by
  induction bytes generalizing a p with
  | nil => rfl
  | cons c rest ih =>
    rw [List.length_cons] at inside
    rw [fill, Routine.run_then (store_eq (by omega) c), ih (by omega), filled]

theorem shows_withText {bytes : List U8} (short : bytes.length < size) : (a.withText bytes).Shows 0 (bytes ++ [0#8]) :=
  ⟨by rw [List.length_append, List.length_singleton, Nat.zero_add]; exact short, withText_holds⟩

end LocalChars

end TwinpassGateway.Foundation
