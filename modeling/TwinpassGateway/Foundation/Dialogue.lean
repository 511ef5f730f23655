import Mathlib.Logic.Relation
import Mathlib.Tactic

/-!
Two parties that talk over a connection. A party is the tree of what it does next; between the two lie two queues.
-/

namespace TwinpassGateway.Foundation

/-! ### Runs that may be reordered -/

section Diamond

variable {σ : Type*} {r : σ → σ → Prop}

inductive Steps (r : σ → σ → Prop) : Nat → σ → σ → Prop where
  | refl (s : σ) : Steps r 0 s s
  | head {n : Nat} {s t u : σ} : r s t → Steps r n t u → Steps r (n + 1) s u

theorem Steps.single {s t : σ} (step : r s t) : Steps r 1 s t := .head step (.refl t)

theorem Steps.trans {m n : Nat} {s t u : σ} (first : Steps r m s t) (second : Steps r n t u) : Steps r (m + n) s u := by
  induction first with
  | refl s => rwa [Nat.zero_add]
  | head step _ ih =>
    rw [Nat.add_right_comm]
    exact .head step (ih second)

theorem Steps.reaches {n : Nat} {s t : σ} (run : Steps r n s t) : Relation.ReflTransGen r s t := by
  induction run with
  | refl s => exact .refl
  | head step _ ih => exact .head step ih

theorem Steps.mono {q : σ → σ → Prop} (sub : ∀ s t, r s t → q s t) {n : Nat} {s t : σ} (run : Steps r n s t) :
    Steps q n s t := by
  induction run with
  | refl s => exact .refl s
  | head step _ ih => exact .head (sub _ _ step) ih

/-- Two different steps from one state are joined by one step each. -/
def Diamond (r : σ → σ → Prop) : Prop := ∀ s t u, r s t → r s u → t = u ∨ ∃ v, r t v ∧ r u v

variable (diamond : Diamond r) {s t u : σ} {m n : Nat}

include diamond

theorem Diamond.after_step (run : Steps r n s t) (stuck : ∀ v, ¬ r t v) (step : r s u) :
    ∃ k, n = k + 1 ∧ Steps r k u t := by
  induction run generalizing u with
  | refl s => exact absurd step (stuck u)
  | @head n s s' t first rest ih =>
    obtain rfl | ⟨v, left, right⟩ := diamond s s' u first step
    · exact ⟨n, rfl, rest⟩
    · obtain ⟨k, rfl, later⟩ := ih stuck left
      exact ⟨k + 1, rfl, .head right later⟩

/-- All runs from a state are begun runs to the same last state, if one run comes to an end. -/
theorem Diamond.run_to_end (run : Steps r n s t) (stuck : ∀ v, ¬ r t v) (other : Steps r m s u) :
    ∃ k, n = m + k ∧ Steps r k u t := by
  induction other generalizing n with
  | refl s => exact ⟨n, (Nat.zero_add n).symm, run⟩
  | head step _ ih =>
    obtain ⟨k, rfl, later⟩ := diamond.after_step run stuck step
    obtain ⟨j, rfl, last⟩ := ih later
    exact ⟨j, by omega, last⟩

end Diamond

/-! ### A party -/

inductive Party (β α : Type*) where
  | done (val : α)
  | put (b : β) (next failed : Party β α)
  | get (next : β → Party β α) (failed : Party β α)
  /-- A step that leaves the connection alone. -/
  | act (next failed : Party β α)

namespace Party

variable {α β γ : Type*}

def bind : Party β α → (α → Party β γ) → Party β γ
  | done a, k => k a
  | put b next failed, k => put b (next.bind k) (failed.bind k)
  | get next failed, k => get (fun b => (next b).bind k) (failed.bind k)
  | act next failed, k => act (next.bind k) (failed.bind k)

theorem bind_bind {δ : Type*} (p : Party β α) (k : α → Party β γ) (j : γ → Party β δ) :
    (p.bind k).bind j = p.bind fun a => (k a).bind j := by
  induction p with
  | done a => rfl
  | put b next failed ihNext ihFailed => exact congrArg₂ (Party.put b) ihNext ihFailed
  | get next failed ihNext ihFailed => exact congrArg₂ Party.get (funext ihNext) ihFailed
  | act next failed ihNext ihFailed => exact congrArg₂ Party.act ihNext ihFailed

def putAll : List β → Party β Bool
  | [] => done true
  | b :: rest => put b (putAll rest) (done false)

def getAll : Nat → Party β (List β)
  | 0 => done []
  | n + 1 => get (fun b => (getAll n).bind fun rest => done (b :: rest)) (done [])

/-- What becomes of a party on its own, with what it has put and got. -/
inductive Alone : Party β α → List β → List β → Party β α → Prop where
  | stop (p : Party β α) : Alone p [] [] p
  | put {b next failed sent got p} : Alone next sent got p → Alone (put b next failed) (b :: sent) got p
  | putFails {b next failed sent got p} : Alone failed sent got p → Alone (.put b next failed) sent got p
  | get {next failed b sent got p} : Alone (next b) sent got p → Alone (get next failed) sent (b :: got) p
  | getFails {next failed sent got p} : Alone failed sent got p → Alone (.get next failed) sent got p
  | act {next failed sent got p} : Alone next sent got p → Alone (act next failed) sent got p
  | actFails {next failed sent got p} : Alone failed sent got p → Alone (.act next failed) sent got p

theorem Alone.trans {p q r : Party β α} {sent got sent' got' : List β} (first : Alone p sent got q)
    (second : Alone q sent' got' r) : Alone p (sent ++ sent') (got ++ got') r := by
  induction first with
  | stop p => exact second
  | put _ ih => exact .put (ih second)
  | putFails _ ih => exact .putFails (ih second)
  | get _ ih => exact .get (ih second)
  | getFails _ ih => exact .getFails (ih second)
  | act _ ih => exact .act (ih second)
  | actFails _ ih => exact .actFails (ih second)

theorem alone_done {a : α} {sent got : List β} {q : Party β α} (alone : Alone (done a) sent got q) :
    sent = [] ∧ got = [] ∧ q = done a := by
  cases alone
  exact ⟨rfl, rfl, rfl⟩

/-- A party that is put together of two is still in the first, or has come to its result. -/
theorem alone_bind {p : Party β α} {k : α → Party β γ} {sent got : List β} {q : Party β γ}
    (alone : Alone (p.bind k) sent got q) :
    (∃ p', Alone p sent got p' ∧ (∀ a, p' ≠ done a) ∧ q = p'.bind k) ∨
      ∃ a sent₁ got₁ sent₂ got₂, Alone p sent₁ got₁ (done a) ∧ Alone (k a) sent₂ got₂ q ∧
        sent = sent₁ ++ sent₂ ∧ got = got₁ ++ got₂ := by
  induction p generalizing sent got with
  | done a => exact Or.inr ⟨a, [], [], sent, got, .stop _, alone, rfl, rfl⟩
  | put b next failed ihNext ihFailed =>
    cases alone with
    | stop => exact Or.inl ⟨_, .stop _, nofun, rfl⟩
    | put later =>
      obtain ⟨p', begun, same⟩ | ⟨a, s₁, g₁, s₂, g₂, first, second, rfl, rfl⟩ := ihNext later
      · exact Or.inl ⟨p', .put begun, same⟩
      · exact Or.inr ⟨a, b :: s₁, g₁, s₂, g₂, .put first, second, rfl, rfl⟩
    | putFails later =>
      obtain ⟨p', begun, same⟩ | ⟨a, s₁, g₁, s₂, g₂, first, second, split⟩ := ihFailed later
      · exact Or.inl ⟨p', .putFails begun, same⟩
      · exact Or.inr ⟨a, s₁, g₁, s₂, g₂, .putFails first, second, split⟩
  | get next failed ihNext ihFailed =>
    cases alone with
    | stop => exact Or.inl ⟨_, .stop _, nofun, rfl⟩
    | @get _ _ b _ _ _ later =>
      obtain ⟨p', begun, same⟩ | ⟨a, s₁, g₁, s₂, g₂, first, second, rfl, rfl⟩ := ihNext b later
      · exact Or.inl ⟨p', .get begun, same⟩
      · exact Or.inr ⟨a, s₁, b :: g₁, s₂, g₂, .get first, second, rfl, rfl⟩
    | getFails later =>
      obtain ⟨p', begun, same⟩ | ⟨a, s₁, g₁, s₂, g₂, first, second, split⟩ := ihFailed later
      · exact Or.inl ⟨p', .getFails begun, same⟩
      · exact Or.inr ⟨a, s₁, g₁, s₂, g₂, .getFails first, second, split⟩
  | act next failed ihNext ihFailed =>
    cases alone with
    | stop => exact Or.inl ⟨_, .stop _, nofun, rfl⟩
    | act later =>
      obtain ⟨p', begun, same⟩ | ⟨a, s₁, g₁, s₂, g₂, first, second, split⟩ := ihNext later
      · exact Or.inl ⟨p', .act begun, same⟩
      · exact Or.inr ⟨a, s₁, g₁, s₂, g₂, .act first, second, split⟩
    | actFails later =>
      obtain ⟨p', begun, same⟩ | ⟨a, s₁, g₁, s₂, g₂, first, second, split⟩ := ihFailed later
      · exact Or.inl ⟨p', .actFails begun, same⟩
      · exact Or.inr ⟨a, s₁, g₁, s₂, g₂, .actFails first, second, split⟩

theorem bind_eq_done {p : Party β α} {k : α → Party β γ} {c : γ} (same : p.bind k = done c) :
    ∃ a, p = done a ∧ k a = done c := by
  cases p with
  | done a => exact ⟨a, rfl, same⟩
  | put b next failed => cases same
  | get next failed => cases same
  | act next failed => cases same

theorem alone_bind_done {p : Party β α} {k : α → Party β γ} {sent got : List β} {c : γ}
    (alone : Alone (p.bind k) sent got (done c)) :
    ∃ a sent₁ got₁ sent₂ got₂, Alone p sent₁ got₁ (done a) ∧ Alone (k a) sent₂ got₂ (done c) ∧
      sent = sent₁ ++ sent₂ ∧ got = got₁ ++ got₂ := by
  obtain ⟨p', _, going, same⟩ | both := alone_bind alone
  · obtain ⟨a, done_, _⟩ := bind_eq_done same.symm
    exact absurd done_ (going a)
  · exact both

theorem Alone.bind {p : Party β α} {k : α → Party β γ} {a : α} {sent got sent' got' : List β} {q : Party β γ}
    (first : Alone p sent got (done a)) (second : Alone (k a) sent' got' q) :
    Alone (p.bind k) (sent ++ sent') (got ++ got') q := by
  generalize last : done a = p' at first
  induction first with
  | stop p =>
    subst last
    exact second
  | put _ ih => exact .put (ih last)
  | putFails _ ih => exact .putFails (ih last)
  | get _ ih => exact .get (ih last)
  | getFails _ ih => exact .getFails (ih last)
  | act _ ih => exact .act (ih last)
  | actFails _ ih => exact .actFails (ih last)

theorem alone_putAll {bytes sent got : List β} {q : Party β Bool} (alone : Alone (putAll bytes) sent got q) :
    sent <+: bytes ∧ got = [] ∧ (q = done true → sent = bytes) := by
  induction bytes generalizing sent with
  | nil =>
    obtain ⟨rfl, rfl, rfl⟩ := alone_done alone
    exact ⟨List.prefix_refl _, rfl, fun _ => rfl⟩
  | cons b rest ih =>
    cases alone with
    | stop => exact ⟨List.nil_prefix, rfl, nofun⟩
    | put later =>
      obtain ⟨begun, none_, all⟩ := ih later
      exact ⟨(List.prefix_cons_inj b).mpr begun, none_, fun ok => congrArg (b :: ·) (all ok)⟩
    | putFails later =>
      obtain ⟨rfl, rfl, rfl⟩ := alone_done later
      exact ⟨List.nil_prefix, rfl, nofun⟩

theorem alone_getAll {n : Nat} {sent got bytes : List β} (alone : Alone (getAll n) sent got (done bytes)) :
    sent = [] ∧ got = bytes ∧ bytes.length ≤ n := by
  induction n generalizing sent got bytes with
  | zero =>
    obtain ⟨rfl, rfl, same⟩ := alone_done alone
    cases same
    exact ⟨rfl, rfl, Nat.le_refl _⟩
  | succ n ih =>
    cases alone with
    | get later =>
      obtain ⟨rest, s₁, g₁, s₂, g₂, first, second, rfl, rfl⟩ := alone_bind_done later
      obtain ⟨rfl, rfl, few⟩ := ih first
      obtain ⟨rfl, rfl, same⟩ := alone_done second
      cases same
      exact ⟨rfl, by rw [List.append_nil], Nat.succ_le_succ few⟩
    | getFails later =>
      obtain ⟨rfl, rfl, same⟩ := alone_done later
      cases same
      exact ⟨rfl, rfl, Nat.zero_le _⟩

/-- Getting puts nothing, however far it has come. -/
theorem alone_getAll_sent {n : Nat} {sent got : List β} {q : Party β (List β)} (alone : Alone (getAll n) sent got q) :
    sent = [] := by
  induction n generalizing sent got q with
  | zero => exact (alone_done alone).1
  | succ n ih =>
    cases alone with
    | stop => rfl
    | get later =>
      obtain ⟨_, begun, _⟩ | ⟨_, s₁, _, s₂, _, first, second, rfl, _⟩ := alone_bind later
      · exact ih begun
      · rw [ih first, (alone_done second).1, List.append_nil]
    | getFails later => exact (alone_done later).1

/-! ### What can happen to a party -/

theorem putAll_alone (bytes : List β) : Alone (putAll bytes) bytes [] (done true) := by
  induction bytes with
  | nil => exact .stop _
  | cons b rest ih => exact .put ih

theorem putAll_alone_part {bytes : List β} {n : Nat} (part : n < bytes.length) :
    Alone (putAll bytes) (bytes.take n) [] (done false) := by
  induction bytes generalizing n with
  | nil => exact absurd part (Nat.not_lt_zero _)
  | cons b rest ih =>
    cases n with
    | zero => exact .putFails (.stop _)
    | succ n => exact .put (ih (Nat.lt_of_succ_lt_succ part))

theorem getAll_alone {bytes : List β} {n : Nat} (few : bytes.length ≤ n) : Alone (getAll n) [] bytes (done bytes) := by
  induction bytes generalizing n with
  | nil =>
    cases n with
    | zero => exact .stop _
    | succ n => exact .getFails (.stop _)
  | cons b rest ih =>
    obtain ⟨n, rfl⟩ := Nat.exists_eq_add_one.mpr ((Nat.succ_pos _).trans_le few)
    have more := (ih (Nat.le_of_succ_le_succ few)).bind (k := fun rest => done (b :: rest)) (.stop _)
    rw [List.append_nil, List.append_nil] at more
    exact .get more

/-- The party puts only what the given bytes begin with, and all of them when its result is good. -/
def Says (p : Party β α) (bytes : List β) (good : α → Prop) : Prop :=
  ∀ ⦃sent got q⦄, Alone p sent got q → sent <+: bytes ∧ ∀ a, q = done a → good a → sent = bytes

theorem Says.bind {p : Party β α} {k : α → Party β γ} {front back : List β} {good : α → Prop} {good' : γ → Prop}
    (first : Says p front good) (second : ∀ a, good a → Says (k a) back good')
    (ends : ∀ a, ¬ good a → ∃ c, k a = done c ∧ ¬ good' c) : Says (p.bind k) (front ++ back) good' := by
  intro sent got q alone
  obtain ⟨p', begun, going, rfl⟩ | ⟨a, s₁, g₁, s₂, g₂, one, two, rfl, rfl⟩ := alone_bind alone
  · refine ⟨(first begun).1.trans (List.prefix_append _ _), fun c same _ => ?_⟩
    obtain ⟨a, done_, _⟩ := bind_eq_done same
    exact absurd done_ (going a)
  · by_cases fine : good a
    · obtain rfl := (first one).2 a rfl fine
      obtain ⟨begun, all⟩ := second a fine two
      exact ⟨(List.prefix_append_right_inj s₁).mpr begun, fun c same good => congrArg (s₁ ++ ·) (all c same good)⟩
    · obtain ⟨c, last, bad⟩ := ends a fine
      rw [last] at two
      obtain ⟨rfl, rfl, rfl⟩ := alone_done two
      rw [List.append_nil]
      refine ⟨(first one).1.trans (List.prefix_append _ _), fun c' same good => ?_⟩
      cases same
      exact absurd good bad

theorem Says.bind_silent {p : Party β α} {k : α → Party β γ} {front : List β} {good : α → Prop} {good' : γ → Prop}
    (first : Says p front good) (second : ∀ a, good a → Says (k a) [] good')
    (ends : ∀ a, ¬ good a → ∃ c, k a = done c ∧ ¬ good' c) : Says (p.bind k) front good' := by
  have whole := first.bind second ends
  rwa [List.append_nil] at whole

theorem says_done {a : α} {good : α → Prop} : Says (done a : Party β α) [] good := by
  intro sent got q alone
  obtain ⟨rfl, _, _⟩ := alone_done alone
  exact ⟨List.prefix_refl _, fun _ _ _ => rfl⟩

theorem says_putAll (bytes : List β) : Says (putAll bytes) bytes (· = true) := by
  intro sent got q alone
  obtain ⟨begun, _, all⟩ := alone_putAll alone
  exact ⟨begun, fun a same good => all (by rw [same, good])⟩

theorem says_getAll (n : Nat) : Says (getAll n : Party β (List β)) [] fun _ => True := by
  intro sent got q alone
  rw [alone_getAll_sent alone]
  exact ⟨List.prefix_refl _, fun _ _ _ => rfl⟩

theorem says_act {a a' : α} {good : α → Prop} : Says (act (done a) (done a') : Party β α) [] good := by
  intro sent got q alone
  have nothing : sent = [] := by
    cases alone with
    | stop => rfl
    | act later => exact (alone_done later).1
    | actFails later => exact (alone_done later).1
  rw [nothing]
  exact ⟨List.prefix_refl _, fun _ _ _ => rfl⟩

def Deaf (p : Party β α) : Prop := ∀ ⦃sent got q⦄, Alone p sent got q → got = []

theorem Deaf.bind {p : Party β α} {k : α → Party β γ} (first : Deaf p) (second : ∀ a, Deaf (k a)) :
    Deaf (p.bind k) := by
  intro sent got q alone
  obtain ⟨_, begun, _⟩ | ⟨a, _, _, _, _, one, two, _, rfl⟩ := alone_bind alone
  · exact first begun
  · rw [first one, second a two, List.append_nil]

theorem deaf_done {a : α} : Deaf (done a : Party β α) := fun _ _ _ alone => (alone_done alone).2.1

theorem deaf_putAll (bytes : List β) : Deaf (putAll bytes) := fun _ _ _ alone => (alone_putAll alone).2.1

end Party

/-! ### The connection -/

structure Talk (β α γ : Type*) where
  left : Party β α
  right : Party β γ
  toRight : List β := []
  toLeft : List β := []

namespace Talk

variable {α β γ : Type*}

def swap (s : Talk β α γ) : Talk β γ α := { left := s.right, right := s.left, toRight := s.toLeft, toLeft := s.toRight }

/-- The next step of the left party. Getting waits for the other party, and fails once that is done and nothing is
left. -/
def advance (s : Talk β α γ) : Option (Talk β α γ) :=
  match s.left with
  | .done _ => none
  | .put b next _ => some { s with left := next, toRight := s.toRight ++ [b] }
  | .act next _ => some { s with left := next }
  | .get next failed =>
    match s.toLeft, s.right with
    | b :: rest, _ => some { s with left := next b, toLeft := rest }
    | [], .done _ => some { s with left := failed }
    | [], _ => none

def fault (s : Talk β α γ) : Option (Talk β α γ) :=
  match s.left with
  | .done _ => none
  | .put _ _ failed | .get _ failed | .act _ failed => some { s with left := failed }

def Next (s t : Talk β α γ) : Prop := s.advance = some t ∨ s.swap.advance = some t.swap

/-- One party makes its next step, or an action of it fails. -/
def Any (s t : Talk β α γ) : Prop :=
  s.Next t ∨ s.fault = some t ∨ s.swap.fault = some t.swap

theorem advance_right {s t : Talk β α γ} (step : s.advance = some t) : t.right = s.right := by
  unfold Talk.advance at step
  split at step
  · cases step
  · cases step; rfl
  · cases step; rfl
  · split at step <;> cases step <;> rfl

theorem fault_right {s t : Talk β α γ} (step : s.fault = some t) : t.right = s.right := by
  unfold Talk.fault at step
  split at step <;> cases step <;> rfl

/-! ### What each has put and got -/

/-- Each party has come from where it started by what it has put and got, and got what the other has put but for what
is on its way. -/
def Heard (l : Party β α) (r : Party β γ) (s : Talk β α γ) : Prop :=
  ∃ sentL gotL sentR gotR, l.Alone sentL gotL s.left ∧ r.Alone sentR gotR s.right ∧
    sentL = gotR ++ s.toRight ∧ sentR = gotL ++ s.toLeft

theorem Heard.swap {l : Party β α} {r : Party β γ} {s : Talk β α γ} (heard : Heard l r s) : Heard r l s.swap := by
  obtain ⟨sentL, gotL, sentR, gotR, left, right, toRight, toLeft⟩ := heard
  exact ⟨sentR, gotR, sentL, gotL, right, left, toLeft, toRight⟩

theorem Heard.advance {l : Party β α} {r : Party β γ} {s t : Talk β α γ} (heard : Heard l r s)
    (step : s.advance = some t) : Heard l r t := by
  obtain ⟨sentL, gotL, sentR, gotR, left, right, toRight, toLeft⟩ := heard
  unfold Talk.advance at step
  cases now : s.left with
  | done a => rw [now] at step; cases step
  | put b next failed =>
    rw [now] at step left
    cases step
    refine ⟨sentL ++ [b], gotL ++ [], sentR, gotR, left.trans (.put (.stop _)), right, ?_, by rw [List.append_nil, toLeft]⟩
    rw [toRight, List.append_assoc]
  | act next failed =>
    rw [now] at step left
    cases step
    refine ⟨sentL ++ [], gotL ++ [], sentR, gotR, left.trans (.act (.stop _)), right, ?_, ?_⟩
    · rw [List.append_nil, toRight]
    · rw [List.append_nil, toLeft]
  | get next failed =>
    rw [now] at step left
    cases waiting : s.toLeft with
    | cons b rest =>
      rw [waiting] at step
      cases step
      refine ⟨sentL ++ [], gotL ++ [b], sentR, gotR, left.trans (.get (.stop _)), right, ?_, ?_⟩
      · rw [List.append_nil, toRight]
      · rw [toLeft, waiting, List.append_assoc]
        rfl
    | nil =>
      rw [waiting] at step
      cases other : s.right with
      | done c =>
        rw [other] at step
        cases step
        refine ⟨sentL ++ [], gotL ++ [], sentR, gotR, left.trans (.getFails (.stop _)), ?_, ?_, ?_⟩
        · rwa [other] at right
        · rw [List.append_nil, toRight]
        · rw [List.append_nil, toLeft, waiting]
      | put b' next' failed' => rw [other] at step; cases step
      | get next' failed' => rw [other] at step; cases step
      | act next' failed' => rw [other] at step; cases step

theorem Heard.fault {l : Party β α} {r : Party β γ} {s t : Talk β α γ} (heard : Heard l r s)
    (step : s.fault = some t) : Heard l r t := by
  obtain ⟨sentL, gotL, sentR, gotR, left, right, toRight, toLeft⟩ := heard
  have stays {failed : Party β α} (more : s.left.Alone [] [] failed) : Heard l r { s with left := failed } := by
    refine ⟨sentL ++ [], gotL ++ [], sentR, gotR, left.trans more, right, ?_, ?_⟩
    · rw [List.append_nil, toRight]
    · rw [List.append_nil, toLeft]
  unfold Talk.fault at step
  cases now : s.left with
  | done a => rw [now] at step; cases step
  | put b next failed =>
    rw [now] at step stays
    cases step
    exact stays (.putFails (.stop _))
  | act next failed =>
    rw [now] at step stays
    cases step
    exact stays (.actFails (.stop _))
  | get next failed =>
    rw [now] at step stays
    cases step
    exact stays (.getFails (.stop _))

theorem Heard.any {l : Party β α} {r : Party β γ} {s t : Talk β α γ} (heard : Heard l r s) (step : s.Any t) :
    Heard l r t := by
  obtain (moves | moves) | fails | fails := step
  · exact heard.advance moves
  · exact (heard.swap.advance moves).swap
  · exact heard.fault fails
  · exact (heard.swap.fault fails).swap

theorem heard_start (l : Party β α) (r : Party β γ) : Heard l r { left := l, right := r } :=
  ⟨[], [], [], [], .stop l, .stop r, rfl, rfl⟩

/-! ### The order of the steps -/

theorem advance_comm {s t : Talk β α γ} {u : Talk β γ α} (left : s.advance = some t) (right : s.swap.advance = some u) :
    ∃ v, t.swap.advance = some v ∧ u.swap.advance = some v.swap := by
  obtain ⟨l, r, toRight, toLeft⟩ := s
  unfold Talk.advance at left right
  cases l with
  | done a => cases left
  | put b next failed =>
    cases left
    cases r with
    | done a => cases right
    | put b' next' failed' => cases right; exact ⟨_, rfl, rfl⟩
    | act next' failed' => cases right; exact ⟨_, rfl, rfl⟩
    | get next' failed' =>
      cases toRight with
      | nil => cases right
      | cons b' rest => cases right; exact ⟨_, rfl, rfl⟩
  | act next failed =>
    cases left
    cases r with
    | done a => cases right
    | put b' next' failed' => cases right; exact ⟨_, rfl, rfl⟩
    | act next' failed' => cases right; exact ⟨_, rfl, rfl⟩
    | get next' failed' =>
      cases toRight with
      | nil =>
        -- the left party is not done, so the right one waits
        cases right
      | cons b' rest => cases right; exact ⟨_, rfl, rfl⟩
  | get next failed =>
    cases toLeft with
    | nil =>
      cases r with
      | done a => cases right
      | put b' next' failed' => cases left
      | act next' failed' => cases left
      | get next' failed' => cases left
    | cons b rest =>
      cases left
      cases r with
      | done a => cases right
      | put b' next' failed' => cases right; exact ⟨_, rfl, rfl⟩
      | act next' failed' => cases right; exact ⟨_, rfl, rfl⟩
      | get next' failed' =>
        cases toRight with
        | nil => cases right
        | cons b' rest => cases right; exact ⟨_, rfl, rfl⟩

theorem next_diamond : Diamond (Next : Talk β α γ → Talk β α γ → Prop) := by
  rintro s t u (left | right) (left' | right')
  · exact Or.inl (Option.some.inj (left.symm.trans left'))
  · obtain ⟨v, first, second⟩ := advance_comm left right'
    exact Or.inr ⟨v.swap, Or.inr first, Or.inl second⟩
  · obtain ⟨v, first, second⟩ := advance_comm left' right
    exact Or.inr ⟨v.swap, Or.inl second, Or.inr first⟩
  · exact Or.inl (congrArg swap (Option.some.inj (right.symm.trans right')))

/-! ### A party that goes on for a while -/

theorem Next.swap {s t : Talk β α γ} (step : s.Next t) : s.swap.Next t.swap := Or.comm.mp step

theorem steps_swap {n : Nat} {s t : Talk β α γ} (run : Steps Next n s t) : Steps Next n s.swap t.swap := by
  induction run with
  | refl s => exact .refl _
  | head step _ ih => exact .head step.swap ih

theorem steps_putAll (bytes : List β) (k : Bool → Party β α) (r : Party β γ) (toRight toLeft : List β) :
    Steps Next bytes.length ⟨(Party.putAll bytes).bind k, r, toRight, toLeft⟩ ⟨k true, r, toRight ++ bytes, toLeft⟩ := by
  induction bytes generalizing toRight with
  | nil =>
    rw [List.append_nil]
    exact .refl _
  | cons b rest ih =>
    have first : Next ⟨(Party.putAll (b :: rest)).bind k, r, toRight, toLeft⟩
        ⟨(Party.putAll rest).bind k, r, toRight ++ [b], toLeft⟩ := Or.inl rfl
    rw [List.append_cons]
    exact .head first (ih (toRight ++ [b]))

theorem steps_getAll (bytes : List β) (k : List β → Party β α) (r : Party β γ) (toRight toLeft : List β) :
    Steps Next bytes.length ⟨(Party.getAll bytes.length).bind k, r, toRight, bytes ++ toLeft⟩
      ⟨k bytes, r, toRight, toLeft⟩ := by
  induction bytes generalizing k with
  | nil => exact .refl _
  | cons b rest ih =>
    have first : Next ⟨(Party.getAll (b :: rest).length).bind k, r, toRight, b :: rest ++ toLeft⟩
        ⟨(Party.getAll rest.length).bind fun more => k (b :: more), r, toRight, rest ++ toLeft⟩ := by
      refine Or.inl ?_
      rw [List.length_cons, Party.getAll]
      simp only [Party.bind, Party.bind_bind]
      rfl
    exact .head first (ih fun more => k (b :: more))

/-- Where there are too few, getting takes them all and waits for more. -/
theorem steps_getAll_few {bytes : List β} {n : Nat} (few : bytes.length < n) (k : List β → Party β α) (r : Party β γ)
    (toRight : List β) :
    ∃ next failed, Steps Next bytes.length ⟨(Party.getAll n).bind k, r, toRight, bytes⟩
      ⟨.get next failed, r, toRight, []⟩ := by
  induction bytes generalizing n k with
  | nil =>
    obtain ⟨n, rfl⟩ := Nat.exists_eq_add_one.mpr few
    exact ⟨_, _, .refl _⟩
  | cons b rest ih =>
    obtain ⟨n, rfl⟩ := Nat.exists_eq_add_one.mpr ((Nat.succ_pos _).trans few)
    obtain ⟨next, failed, later⟩ := ih (Nat.lt_of_succ_lt_succ few) fun more => k (b :: more)
    refine ⟨next, failed, .head (Or.inl ?_) later⟩
    rw [Party.getAll]
    simp only [Party.bind, Party.bind_bind]
    rfl

/-- Both parties wait for the other, and nothing is on its way. -/
structure Deadlock (s : Talk β α γ) : Prop where
  left : ∃ next failed, s.left = .get next failed
  right : ∃ next failed, s.right = .get next failed
  toRight : s.toRight = []
  toLeft : s.toLeft = []

theorem Deadlock.swap {s : Talk β α γ} (dead : s.Deadlock) : s.swap.Deadlock :=
  ⟨dead.right, dead.left, dead.toLeft, dead.toRight⟩

theorem Deadlock.advance {s : Talk β α γ} (dead : s.Deadlock) : s.advance = none := by
  obtain ⟨⟨next, failed, left⟩, ⟨next', failed', right⟩, _, toLeft⟩ := dead
  unfold Talk.advance
  rw [left, toLeft, right]

theorem Deadlock.stuck {s t : Talk β α γ} (dead : s.Deadlock) : ¬ s.Next t := by
  rintro (moves | moves)
  · exact nomatch dead.advance.symm.trans moves
  · exact nomatch dead.swap.advance.symm.trans moves

theorem finished_stuck {a : α} {c : γ} {s t : Talk β α γ} (left : s.left = .done a) (right : s.right = .done c) :
    ¬ s.Next t := by
  rintro (moves | moves)
  · unfold Talk.advance at moves
    rw [left] at moves
    cases moves
  · unfold Talk.advance at moves
    rw [show s.swap.left = s.right from rfl, right] at moves
    cases moves

end Talk

end TwinpassGateway.Foundation
