import Mathlib.Logic.Function.Basic
import Mathlib.Tactic

/-!
Fields of registers, and writes that keep some bits of a register and set others.
-/

namespace TwinpassGateway.Foundation

variable {w : Nat}

/-- `width` bits of a register, from bit `lo` on. -/
structure Field where
  addr : Nat
  lo : Nat
  width : Nat

def Field.of (f : Field) (word : BitVec w) : BitVec f.width := word.extractLsb' f.lo f.width

def Field.read (f : Field) (regs : Nat → BitVec w) : BitVec f.width := f.of (regs f.addr)

structure Mask (w : Nat) where
  addr : Nat
  keep : BitVec w
  put : BitVec w

def Mask.write (m : Mask w) (regs : Nat → BitVec w) : Nat → BitVec w :=
  Function.update regs m.addr ((regs m.addr &&& m.keep) ||| m.put)

/-- The write leaves the field as it is. -/
def Mask.Keeps (m : Mask w) (f : Field) : Prop :=
  f.addr = m.addr → f.of m.keep = BitVec.allOnes f.width ∧ f.of m.put = 0

/-- The write gives the field the value `x` whatever it was. -/
def Mask.Fixes (m : Mask w) (f : Field) (x : Nat) : Prop :=
  f.addr = m.addr ∧ f.of m.keep &&& ~~~ f.of m.put = 0 ∧ (f.of m.put).toNat = x

instance (m : Mask w) (f : Field) : Decidable (m.Keeps f) := inferInstanceAs (Decidable (_ → _))

instance (m : Mask w) (f : Field) (x : Nat) : Decidable (m.Fixes f x) := instDecidableAnd

/-- What becomes of the field: a new value, or the one it has. -/
def Mask.Makes (m : Mask w) (f : Field) : Option Nat → Prop
  | some x => m.Fixes f x
  | none => m.Keeps f

instance (m : Mask w) (f : Field) : ∀ x, Decidable (m.Makes f x)
  | some x => inferInstanceAs (Decidable (m.Fixes f x))
  | none => inferInstanceAs (Decidable (m.Keeps f))

variable {m : Mask w} {f : Field}

theorem Field.of_masked (f : Field) (word keep put : BitVec w) :
    f.of ((word &&& keep) ||| put) = (f.of word &&& f.of keep) ||| f.of put := by
  simp only [Field.of, BitVec.extractLsb'_and, BitVec.extractLsb'_or]

theorem Mask.read_same (m : Mask w) (f : Field) (same : f.addr = m.addr) (regs : Nat → BitVec w) :
    f.read (m.write regs) = (f.read regs &&& f.of m.keep) ||| f.of m.put := by
  rw [Field.read, Mask.write, same, Function.update_self, Field.of_masked, Field.read, same]

theorem Mask.Keeps.read (keeps : m.Keeps f) (regs : Nat → BitVec w) : f.read (m.write regs) = f.read regs := by
  by_cases same : f.addr = m.addr
  · obtain ⟨all, none⟩ := keeps same
    rw [m.read_same f same, all, none, BitVec.and_allOnes]
    exact BitVec.or_zero
  · rw [Field.read, Mask.write, Function.update_of_ne same, Field.read]

theorem Mask.Fixes.read {x : Nat} (fixes : m.Fixes f x) (regs : Nat → BitVec w) :
    (f.read (m.write regs)).toNat = x := by
  obtain ⟨same, covered, value⟩ := fixes
  have absorbed : (f.read regs &&& f.of m.keep) ||| f.of m.put = f.of m.put := by
    apply BitVec.eq_of_getLsbD_eq
    intro i below
    have bit := congrArg (fun b => b.getLsbD i) covered
    simp only [BitVec.getLsbD_and, BitVec.getLsbD_not, below, decide_true, Bool.true_and, BitVec.ofNat_eq_ofNat,
      BitVec.getLsbD_zero] at bit
    rw [BitVec.getLsbD_or, BitVec.getLsbD_and]
    cases kept : (f.of m.keep).getLsbD i <;> cases set : (f.of m.put).getLsbD i <;> simp_all
  rw [m.read_same f same, absorbed, value]

theorem Mask.Makes.read {x : Option Nat} (makes : m.Makes f x) (regs : Nat → BitVec w) :
    (f.read (m.write regs)).toNat = x.getD (f.read regs).toNat := by
  cases x with
  | some x => exact Mask.Fixes.read makes regs
  | none => exact congrArg BitVec.toNat (Mask.Keeps.read makes regs)

/-! ### Writing one field -/

def Field.set (f : Field) (x : BitVec f.width) : Mask w :=
  ⟨f.addr, ~~~((BitVec.allOnes f.width).setWidth w <<< f.lo), x.setWidth w <<< f.lo⟩

def Field.Apart (f g : Field) : Prop := f.addr ≠ g.addr ∨ f.lo + f.width ≤ g.lo ∨ g.lo + g.width ≤ f.lo

instance (f g : Field) : Decidable (f.Apart g) := inferInstanceAs (Decidable (_ ∨ _ ∨ _))

variable {g : Field}

theorem Field.read_update {addr : Nat} (other : f.addr ≠ addr) (regs : Nat → BitVec w) (word : BitVec w) :
    f.read (Function.update regs addr word) = f.read regs := by
  rw [Field.read, Function.update_of_ne other, Field.read]

theorem Field.read_set (inside : f.lo + f.width ≤ w) (x : BitVec f.width) (regs : Nat → BitVec w) :
    f.read ((f.set x).write regs) = x := by
  apply BitVec.eq_of_toNat_eq
  refine Mask.Fixes.read ⟨rfl, ?_, ?_⟩ regs
  · apply BitVec.eq_of_getLsbD_eq
    intro i below
    simp [Field.set, Field.of, below]
    omega
  · congr 1
    apply BitVec.eq_of_getLsbD_eq
    intro i below
    have here : f.lo + i < w := by omega
    simp [Field.set, Field.of, below, here]

theorem Field.Apart.read_set (apart : f.Apart g) (inside : g.lo + g.width ≤ w) (x : BitVec f.width)
    (regs : Nat → BitVec w) : g.read ((f.set x).write regs) = g.read regs := by
  apply Mask.Keeps.read
  intro same
  have beside : f.lo + f.width ≤ g.lo ∨ g.lo + g.width ≤ f.lo := apart.resolve_left fun other => other same.symm
  constructor
  · apply BitVec.eq_of_getLsbD_eq
    intro i below
    simp only [Field.set, Field.of, BitVec.getLsbD_extractLsb', BitVec.getLsbD_not, BitVec.getLsbD_shiftLeft,
      BitVec.getLsbD_setWidth, BitVec.getLsbD_allOnes, below]
    grind
  · apply BitVec.eq_of_getLsbD_eq
    intro i below
    simp only [Field.set, Field.of, BitVec.getLsbD_extractLsb', BitVec.getLsbD_shiftLeft, BitVec.getLsbD_setWidth,
      below]
    have outside (k : Nat) (high : f.width ≤ k) : x.getLsbD k = false := BitVec.getLsbD_of_ge x k high
    grind

end TwinpassGateway.Foundation
