import TwinpassGateway.Foundation.Word

/-!
HMAC over a hash function, and hash engines that take a message in pieces.
-/

namespace TwinpassGateway.Foundation

/-- The key as it fills a block: hashed first if it is longer. -/
def blockKey (H : List U8 → List U8) (blockSize : Nat) (key : List U8) : List U8 :=
  let key := if key.length > blockSize then H key else key
  key ++ List.replicate (blockSize - key.length) 0

def ipad : U8 := 0x36#8

def opad : U8 := 0x5C#8

def hmac (H : List U8 → List U8) (blockSize : Nat) (key text : List U8) : List U8 :=
  let key := blockKey H blockSize key
  H (key.map (· ^^^ opad) ++ H (key.map (· ^^^ ipad) ++ text))

structure Hasher where
  State : Type
  init : State → State
  update : State → List U8 → State
  final : State → List U8 × State

variable (e : Hasher) {H : List U8 → List U8} {ok : List U8 → Prop}

/-- The digest is the one of the pieces joined, if each piece is acceptable. -/
def Hasher.Computes (H : List U8 → List U8) (ok : List U8 → Prop) : Prop :=
  ∀ (s : e.State) (pieces : List (List U8)), (∀ piece ∈ pieces, ok piece) →
    (e.final (pieces.foldl e.update (e.init s))).1 = H pieces.flatten

variable {e}

theorem Hasher.Computes.one (computes : e.Computes H ok) (s : e.State) {piece : List U8} (fine : ok piece) :
    (e.final (e.update (e.init s) piece)).1 = H piece := by
  have whole := computes s [piece] (by simpa using fine)
  simpa using whole

theorem Hasher.Computes.two (computes : e.Computes H ok) (s : e.State) {first second : List U8} (fine : ok first)
    (fine' : ok second) : (e.final (e.update (e.update (e.init s) first) second)).1 = H (first ++ second) := by
  have whole := computes s [first, second] (by simpa using ⟨fine, fine'⟩)
  simpa using whole

/-- The engine that keeps the pieces until the end. -/
def Hasher.collecting (H : List U8 → List U8) : Hasher where
  State := List U8
  init _ := []
  update s piece := s ++ piece
  final s := (H s, s)

theorem Hasher.collecting_computes (H : List U8 → List U8) : (Hasher.collecting H).Computes H fun _ => True := by
  intro s pieces _
  have joined : ∀ before : List U8, pieces.foldl (· ++ ·) before = before ++ pieces.flatten := by
    induction pieces with
    | nil => simp
    | cons piece rest ih => intro before; simp [ih (by simp)]
  exact congrArg H (joined [])

end TwinpassGateway.Foundation
