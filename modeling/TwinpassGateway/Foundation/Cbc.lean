import Mathlib.Data.Nat.Notation

/-!
Cipher block chaining over any block type.
-/

namespace TwinpassGateway.Foundation

variable {β : Type*} (xor : β → β → β) (E D : β → β)

/-- One block under an initialisation vector: the result and the next vector. -/
def cbcStep (decrypt : Bool) (iv x : β) : β × β :=
  if decrypt then (xor (D x) iv, x) else (E (xor x iv), E (xor x iv))

def cbc (decrypt : Bool) : β → List β → List β
  | _, [] => []
  | iv, x :: rest => (cbcStep xor E D decrypt iv x).1 :: cbc decrypt (cbcStep xor E D decrypt iv x).2 rest

variable {xor E D}

theorem cbc_length (decrypt : Bool) (iv : β) (text : List β) : (cbc xor E D decrypt iv text).length = text.length := by
  induction text generalizing iv with
  | nil => rfl
  | cons x rest ih => exact congrArg (· + 1) (ih _)

/-- Chaining is undone block by block. -/
theorem cbc_round_trip (cancel : ∀ a b, xor (xor a b) b = a) (inverse : ∀ x, D (E x) = x) (iv : β) (text : List β) :
    cbc xor E D true iv (cbc xor E D false iv text) = text := by
  induction text generalizing iv with
  | nil => rfl
  | cons x rest ih =>
    have block : xor (D (E (xor x iv))) iv = x := by rw [inverse, cancel]
    exact (congrArg (· :: _) block).trans (congrArg (x :: ·) (ih (E (xor x iv))))

end TwinpassGateway.Foundation
