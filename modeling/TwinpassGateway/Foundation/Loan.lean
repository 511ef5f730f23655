import Mathlib.Data.List.Nodup
import Mathlib.Logic.Function.Basic
import Mathlib.Tactic

/-!
Slots lent to a device. A slot keeps its last item until it is taken again, and only then the item is
freed. One worker takes a slot in steps, and others may take slots in one go while it is at work.
-/

namespace TwinpassGateway.Foundation

variable {ι β : Type*}

/-- `given` has the pairs of slot and item that the device has not handed back, and `freed` the items
freed so far. -/
structure Loans (ι β : Type*) where
  lent : ι → Bool
  kept : ι → β
  given : List (ι × β)
  accepted : List β
  freed : List β

inductive Role (ι β : Type*)
  | idle
  | carrying (k : β)
  | holding (p : ι) (k : β)
  | emptied (p : ι) (k : β)
  | filled (p : ι) (k : β)

def Role.holds : Role ι β → Option (ι × β)
  | .holding p k | .emptied p k | .filled p k => some (p, k)
  | .idle | .carrying _ => none

def Role.carried : Role ι β → Option β
  | .carrying k | .holding _ k | .emptied _ k => some k
  | .idle | .filled _ _ => none

namespace Loans

def grant (l : Loans ι β) (p : ι) (k : β) : Loans ι β :=
  { l with given := (p, k) :: l.given, accepted := k :: l.accepted }

def free (l : Loans ι β) (k : β) : Loans ι β := { l with freed := k :: l.freed }

def keep [DecidableEq ι] (l : Loans ι β) (p : ι) (k : β) : Loans ι β := { l with kept := Function.update l.kept p k }

def lend [DecidableEq ι] (l : Loans ι β) (p : ι) : Loans ι β := { l with lent := Function.update l.lent p true }

def settle [DecidableEq ι] (l : Loans ι β) (p : ι) : Loans ι β :=
  { l with lent := Function.update l.lent p false, given := l.given.filter fun g => g.1 ≠ p }

/-- All steps of the worker in one go. -/
def swap [DecidableEq ι] (l : Loans ι β) (p : ι) (k : β) : Loans ι β :=
  (((l.grant p k).free (l.kept p)).keep p k).lend p

section

variable [DecidableEq ι] (l : Loans ι β) (p : ι) (k : β)

@[simp] theorem swap_lent : (l.swap p k).lent = Function.update l.lent p true := rfl

@[simp] theorem swap_kept : (l.swap p k).kept = Function.update l.kept p k := rfl

@[simp] theorem swap_freed : (l.swap p k).freed = l.kept p :: l.freed := rfl

@[simp] theorem settle_lent : (l.settle p).lent = Function.update l.lent p false := rfl

@[simp] theorem settle_kept : (l.settle p).kept = l.kept := rfl

end

/-- The item has been seen: it is freed, kept in a slot or in the worker's hands. -/
def Known (inside : ι → Prop) (l : Loans ι β) (r : Role ι β) (k : β) : Prop :=
  k ∈ l.freed ∨ (∃ p, inside p ∧ l.kept p = k) ∨ r.carried = some k

/-- What holds while the items come from `seen` and the slots are those `inside`. -/
structure Sound (inside : ι → Prop) (seen : β → Prop) (l : Loans ι β) (r : Role ι β) : Prop where
  owner : ∀ g ∈ l.given, inside g.1 ∧ (l.lent g.1 = true ∧ l.kept g.1 = g.2 ∨ r.holds = some g)
  holder : ∀ g, r.holds = some g → g ∈ l.given ∧ l.lent g.1 = false
  distinct : (l.given.map Prod.fst).Nodup
  apart : ∀ p q, inside p → inside q → l.kept p = l.kept q → p = q
  carried : ∀ k, r.carried = some k → k ∉ l.freed ∧ ∀ p, inside p → l.kept p ≠ k
  stays : ∀ p, inside p → (∀ k, r ≠ .emptied p k) → l.kept p ∉ l.freed
  gone : ∀ p k, r = .emptied p k → l.kept p ∈ l.freed
  filled : ∀ p k, r = .filled p k → l.kept p = k
  once : l.freed.Nodup
  found : ∀ k ∈ l.accepted, Known inside l r k
  known : ∀ k, Known inside l r k → seen k

variable {inside : ι → Prop} {seen : β → Prop} {l : Loans ι β} {r : Role ι β} {p q : ι} {k k' : β}

theorem Sound.unlent_slot (sound : Sound inside seen l r) (free : l.lent q = false)
    (member : q ∈ l.given.map Prod.fst) : ∃ k, r.holds = some (q, k) := by
  obtain ⟨⟨q, k⟩, given, rfl⟩ := List.mem_map.mp member
  rcases (sound.owner _ given).2 with ⟨lent, _⟩ | holds
  · exact absurd lent (by simp [free])
  · exact ⟨k, holds⟩

theorem Sound.released (sound : Sound inside seen l r) {g : ι × β} (given : g ∈ l.given) : g.2 ∉ l.freed := by
  obtain ⟨isInside, ⟨lent, kept⟩ | holds⟩ := sound.owner g given
  · rw [← kept]
    refine sound.stays g.1 isInside fun k emptied => ?_
    have unlent := (sound.holder (g.1, k) (by rw [emptied]; rfl)).2
    exact absurd lent (by simp [unlent])
  · cases r with
    | idle | carrying => cases holds
    | holding p k | emptied p k =>
      cases holds
      exact (sound.carried k rfl).1
    | filled p k =>
      cases holds
      rw [← sound.filled p k rfl]
      exact sound.stays p isInside fun k' other => by cases other

/-! ### The steps of the worker -/

theorem Sound.start (sound : Sound inside seen l .idle) (fresh : ¬ Known inside l .idle k) (new : seen k) :
    Sound inside seen l (.carrying k) where
  owner g given := ⟨(sound.owner g given).1, .inl ((sound.owner g given).2.resolve_right (by simp [Role.holds]))⟩
  holder := by simp [Role.holds]
  distinct := sound.distinct
  apart := sound.apart
  carried k' same := by
    cases same
    exact ⟨fun freed => fresh (.inl freed), fun p isInside kept => fresh (.inr (.inl ⟨p, isInside, kept⟩))⟩
  stays p isInside _ := sound.stays p isInside (by simp)
  gone := by simp
  filled := by simp
  once := sound.once
  found k' member := (sound.found k' member).imp_right fun known => known.imp_right (by simp [Role.carried])
  known := by
    rintro k' (freed | kept | same)
    · exact sound.known k' (.inl freed)
    · exact sound.known k' (.inr (.inl kept))
    · cases same
      exact new

theorem Sound.grant (sound : Sound inside seen l (.carrying k)) (isInside : inside p) (free : l.lent p = false) :
    Sound inside seen (l.grant p k) (.holding p k) where
  owner := by
    simp only [Loans.grant, List.mem_cons]
    rintro g (rfl | given)
    · exact ⟨isInside, .inr rfl⟩
    · obtain ⟨inside', lent | holds⟩ := sound.owner g given
      · exact ⟨inside', .inl lent⟩
      · cases holds
  holder := by
    intro g same
    cases same
    exact ⟨List.mem_cons_self, free⟩
  distinct := by
    refine List.nodup_cons.mpr ⟨fun member => ?_, sound.distinct⟩
    obtain ⟨_, holds⟩ := sound.unlent_slot free member
    cases holds
  apart := sound.apart
  carried := sound.carried
  stays p' isInside' _ := sound.stays p' isInside' (by simp)
  gone := by simp
  filled := by simp
  once := sound.once
  found := by
    simp only [Loans.grant, List.mem_cons]
    rintro k' (rfl | member)
    · exact .inr (.inr rfl)
    · exact sound.found k' member
  known := sound.known

theorem Sound.drop (sound : Sound inside seen l (.carrying k)) : Sound inside seen (l.free k) .idle where
  owner g given := ⟨(sound.owner g given).1, .inl ((sound.owner g given).2.resolve_right (by simp [Role.holds]))⟩
  holder := by simp [Role.holds]
  distinct := sound.distinct
  apart := sound.apart
  carried := by simp [Role.carried]
  stays p isInside _ := by
    simp only [free, List.mem_cons, not_or]
    exact ⟨(sound.carried k rfl).2 p isInside, sound.stays p isInside (by simp)⟩
  gone := by simp
  filled := by simp
  once := List.nodup_cons.mpr ⟨(sound.carried k rfl).1, sound.once⟩
  found k' member := by
    rcases sound.found k' member with freed | kept | same
    · exact .inl (List.mem_cons_of_mem _ freed)
    · exact .inr (.inl kept)
    · cases same
      exact .inl List.mem_cons_self
  known := by
    rintro k' (freed | kept | same)
    · rcases List.mem_cons.mp freed with rfl | freed
      · exact sound.known k' (.inr (.inr rfl))
      · exact sound.known k' (.inl freed)
    · exact sound.known k' (.inr (.inl kept))
    · cases same

theorem Sound.empty (sound : Sound inside seen l (.holding p k)) :
    Sound inside seen (l.free (l.kept p)) (.emptied p k) where
  owner := sound.owner
  holder := sound.holder
  distinct := sound.distinct
  apart := sound.apart
  carried := by
    intro k' same
    cases same
    have isInside := (sound.owner _ (sound.holder _ rfl).1).1
    obtain ⟨unfreed, unkept⟩ := sound.carried k rfl
    simp only [free, List.mem_cons, not_or]
    exact ⟨⟨(unkept p isInside).symm, unfreed⟩, unkept⟩
  stays := by
    intro p' isInside' other
    have isInside := (sound.owner _ (sound.holder _ rfl).1).1
    simp only [free, List.mem_cons, not_or]
    refine ⟨fun same => ?_, sound.stays p' isInside' (by simp)⟩
    obtain rfl := sound.apart p' p isInside' isInside same
    exact other k rfl
  gone := by
    intro p' k' same
    cases same
    exact List.mem_cons_self
  filled := by simp
  once := by
    have isInside := (sound.owner _ (sound.holder _ rfl).1).1
    exact List.nodup_cons.mpr ⟨sound.stays p isInside (by simp), sound.once⟩
  found k' member := by
    rcases sound.found k' member with freed | known
    · exact .inl (List.mem_cons_of_mem _ freed)
    · exact .inr known
  known := by
    have isInside := (sound.owner _ (sound.holder _ rfl).1).1
    rintro k' (freed | known)
    · rcases List.mem_cons.mp freed with rfl | freed
      · exact sound.known _ (.inr (.inl ⟨p, isInside, rfl⟩))
      · exact sound.known k' (.inl freed)
    · exact sound.known k' (.inr known)

variable [DecidableEq ι]

theorem Sound.fill (sound : Sound inside seen l (.emptied p k)) : Sound inside seen (l.keep p k) (.filled p k) where
  owner g given := by
    obtain ⟨isInside, ⟨lent, kept⟩ | holds⟩ := sound.owner g given
    · have other : g.1 ≠ p := by
        rintro rfl
        exact absurd lent (by simp [(sound.holder (g.1, k) rfl).2])
      refine ⟨isInside, .inl ⟨lent, ?_⟩⟩
      rw [← kept]
      exact Function.update_of_ne other _ _
    · exact ⟨isInside, .inr holds⟩
  holder := sound.holder
  distinct := sound.distinct
  apart := by
    intro a b insideA insideB same
    have unkept := (sound.carried k rfl).2
    simp only [keep, Function.update_apply] at same
    split at same <;> split at same
    · simp_all
    · exact absurd same.symm (unkept b insideB)
    · exact absurd same (unkept a insideA)
    · exact sound.apart a b insideA insideB same
  carried := by simp [Role.carried]
  stays := by
    intro a isInside _
    simp only [keep, Function.update_apply]
    split
    · exact (sound.carried k rfl).1
    · rename_i other
      refine sound.stays a isInside fun k' same => ?_
      cases same
      exact other rfl
  gone := by simp
  filled := by
    intro p' k' same
    cases same
    simp [keep]
  once := sound.once
  found := by
    intro k' member
    have isInside := (sound.owner _ (sound.holder (p, k) rfl).1).1
    rcases sound.found k' member with freed | ⟨a, insideA, kept⟩ | same
    · exact .inl freed
    · by_cases here : a = p
      · subst here
        rw [← kept]
        exact .inl (sound.gone a k rfl)
      · exact .inr (.inl ⟨a, insideA, by simpa [keep, here] using kept⟩)
    · cases same
      exact .inr (.inl ⟨p, isInside, by simp [keep]⟩)
  known := by
    rintro k' (freed | ⟨a, insideA, kept⟩ | same)
    · exact sound.known k' (.inl freed)
    · by_cases here : a = p
      · subst here
        obtain rfl : k = k' := by simpa [keep] using kept
        exact sound.known k (.inr (.inr rfl))
      · exact sound.known k' (.inr (.inl ⟨a, insideA, by simpa [keep, here] using kept⟩))
    · cases same

theorem Sound.lend (sound : Sound inside seen l (.filled p k)) : Sound inside seen (l.lend p) .idle where
  owner g given := by
    obtain ⟨isInside, ⟨lent, kept⟩ | holds⟩ := sound.owner g given
    · refine ⟨isInside, .inl ⟨?_, kept⟩⟩
      simp only [Loans.lend, Function.update_apply, lent, ite_self]
    · cases holds
      exact ⟨isInside, .inl ⟨by simp [Loans.lend], sound.filled p k rfl⟩⟩
  holder := by simp [Role.holds]
  distinct := sound.distinct
  apart := sound.apart
  carried := by simp [Role.carried]
  stays a isInside _ := sound.stays a isInside (by simp)
  gone := by simp
  filled := by simp
  once := sound.once
  found k' member := (sound.found k' member).imp_right fun known => known.imp_right (by simp [Role.carried])
  known k' known := sound.known k' (known.imp_right fun known => known.imp_right (by simp [Role.carried]))

/-! ### What happens around the worker -/

omit [DecidableEq ι] in
theorem Sound.widen {seen' : β → Prop} (sound : Sound inside seen l r) (more : ∀ k, seen k → seen' k) :
    Sound inside seen' l r :=
  { sound with known := fun k known => more k (sound.known k known) }

omit [DecidableEq ι] in
theorem Sound.outside (sound : Sound inside seen l r) {lent : ι → Bool} (same : ∀ p, inside p → lent p = l.lent p) :
    Sound inside seen { l with lent := lent } r :=
  { sound with
    owner := fun g given => by
      obtain ⟨isInside, ⟨own, kept⟩ | holds⟩ := sound.owner g given
      · exact ⟨isInside, .inl ⟨(same g.1 isInside).trans own, kept⟩⟩
      · exact ⟨isInside, .inr holds⟩
    holder := fun g holds => by
      obtain ⟨given, unlent⟩ := sound.holder g holds
      exact ⟨given, (same g.1 (sound.owner g given).1).trans unlent⟩ }

theorem Sound.settle (sound : Sound inside seen l r) (lent : l.lent p = true) :
    Sound inside seen (l.settle p) r where
  owner := by
    intro g given
    obtain ⟨given, other⟩ := List.mem_filter.mp given
    have other : g.1 ≠ p := by simpa using other
    simpa [other] using sound.owner g given
  holder := by
    intro g holds
    obtain ⟨given, unlent⟩ := sound.holder g holds
    have other : g.1 ≠ p := by
      rintro rfl
      exact absurd lent (by simp [unlent])
    exact ⟨List.mem_filter.mpr ⟨given, by simpa using other⟩, by simpa [other] using unlent⟩
  distinct := sound.distinct.sublist (List.filter_sublist.map _)
  apart := sound.apart
  carried := sound.carried
  stays := sound.stays
  gone := sound.gone
  filled := sound.filled
  once := sound.once
  found := sound.found
  known := sound.known

omit [DecidableEq ι] in
/-- Another one gives up an item that has not been seen before. -/
theorem Sound.discard (sound : Sound inside seen l r) (fresh : ¬ Known inside l r k) (new : seen k) :
    Sound inside seen (l.free k) r where
  owner := sound.owner
  holder := sound.holder
  distinct := sound.distinct
  apart := sound.apart
  carried k' same := by
    obtain ⟨unfreed, unkept⟩ := sound.carried k' same
    refine ⟨fun member => ?_, unkept⟩
    rcases List.mem_cons.mp member with rfl | freed
    · exact fresh (.inr (.inr same))
    · exact unfreed freed
  stays p isInside other member := by
    rcases List.mem_cons.mp member with kept | freed
    · exact fresh (.inr (.inl ⟨p, isInside, kept⟩))
    · exact sound.stays p isInside other freed
  gone p k' emptied := List.mem_cons_of_mem _ (sound.gone p k' emptied)
  filled := sound.filled
  once := List.nodup_cons.mpr ⟨fun freed => fresh (.inl freed), sound.once⟩
  found k' member := (sound.found k' member).imp_left (List.mem_cons_of_mem _)
  known := by
    rintro k' (freed | known)
    · rcases List.mem_cons.mp freed with rfl | freed
      · exact new
      · exact sound.known k' (.inl freed)
    · exact sound.known k' (.inr known)

/-- Another one takes a slot that is neither lent nor the worker's. -/
theorem Sound.swap (sound : Sound inside seen l r) (isInside : inside q) (unlent : l.lent q = false)
    (free : ∀ k', r.holds ≠ some (q, k')) (fresh : ¬ Known inside l r k) (new : seen k) :
    Sound inside seen (l.swap q k) r where
  owner := by
    intro g member
    rcases List.mem_cons.mp member with rfl | given
    · exact ⟨isInside, .inl ⟨by simp, by simp⟩⟩
    · have other : g.1 ≠ q := by
        rintro rfl
        obtain ⟨k', holds⟩ := sound.unlent_slot unlent (List.mem_map_of_mem given)
        exact free k' holds
      simpa [other] using sound.owner g given
  holder := by
    intro g holds
    obtain ⟨given, unlent'⟩ := sound.holder g holds
    have other : g.1 ≠ q := by
      rintro rfl
      exact free g.2 holds
    exact ⟨List.mem_cons_of_mem _ given, by
      simpa [other] using unlent'⟩
  distinct := by
    refine List.nodup_cons.mpr ⟨fun member => ?_, sound.distinct⟩
    obtain ⟨k', holds⟩ := sound.unlent_slot unlent member
    exact free k' holds
  apart := by
    have unkept : ∀ p, inside p → l.kept p ≠ k := fun p isInside kept => fresh (.inr (.inl ⟨p, isInside, kept⟩))
    intro a b insideA insideB same
    simp only [swap_kept, Function.update_apply] at same
    split at same <;> split at same
    · simp_all
    · exact absurd same.symm (unkept b insideB)
    · exact absurd same (unkept a insideA)
    · exact sound.apart a b insideA insideB same
  carried := by
    intro k' same
    obtain ⟨unfreed, unkept⟩ := sound.carried k' same
    refine ⟨fun member => ?_, fun a insideA => ?_⟩
    · rcases List.mem_cons.mp member with rfl | freed
      · exact unkept q isInside rfl
      · exact unfreed freed
    · simp only [swap_kept, Function.update_apply]
      split
      · rintro rfl
        exact fresh (.inr (.inr same))
      · exact unkept a insideA
  stays := by
    intro a insideA other
    simp only [swap_kept, swap_freed, Function.update_apply, List.mem_cons, not_or]
    split
    · exact ⟨fun kept => fresh (.inr (.inl ⟨q, isInside, kept.symm⟩)), fun freed => fresh (.inl freed)⟩
    · rename_i away
      exact ⟨fun same => away (sound.apart a q insideA isInside same), sound.stays a insideA other⟩
  gone := by
    intro a k' emptied
    have other : a ≠ q := by
      rintro rfl
      exact free k' (by rw [emptied]; rfl)
    simpa [other] using .inr (sound.gone a k' emptied)
  filled := by
    intro a k' filled
    have other : a ≠ q := by
      rintro rfl
      exact free k' (by rw [filled]; rfl)
    simpa [other] using sound.filled a k' filled
  once := by
    refine List.nodup_cons.mpr ⟨sound.stays q isInside fun k' emptied => ?_, sound.once⟩
    exact free k' (by rw [emptied]; rfl)
  found := by
    intro k' member
    rcases List.mem_cons.mp member with rfl | member
    · exact .inr (.inl ⟨q, isInside, by simp⟩)
    · rcases sound.found k' member with freed | ⟨a, insideA, kept⟩ | same
      · exact .inl (List.mem_cons_of_mem _ freed)
      · by_cases here : a = q
        · subst here
          rw [← kept]
          exact .inl List.mem_cons_self
        · exact .inr (.inl ⟨a, insideA, by
            simpa [here] using kept⟩)
      · exact .inr (.inr same)
  known := by
    rintro k' (freed | ⟨a, insideA, kept⟩ | same)
    · rcases List.mem_cons.mp freed with rfl | freed
      · exact sound.known _ (.inr (.inl ⟨q, isInside, rfl⟩))
      · exact sound.known k' (.inl freed)
    · simp only [swap_kept, Function.update_apply] at kept
      split at kept
      · rwa [← kept]
      · exact sound.known k' (.inr (.inl ⟨a, insideA, kept⟩))
    · exact sound.known k' (.inr (.inr same))

/-- A slot that the worker has taken is given a second time when another one takes it. -/
theorem Sound.swap_clash (sound : Sound inside seen l r) (holds : r.holds = some (q, k')) :
    ¬ ((l.swap q k).given.map Prod.fst).Nodup := by
  intro distinct
  have member := List.mem_map_of_mem (f := Prod.fst) (sound.holder _ holds).1
  exact (List.nodup_cons.mp distinct).1 member

end Loans

end TwinpassGateway.Foundation
