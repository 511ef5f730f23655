import TwinpassGateway.Build.ConfigOptions
import TwinpassGateway.Foundation.Ranked

/-!
Sequences of `_token_set` calls. To such a sequence every option is a cell that is written with the
priorities of the calls.
-/

namespace TwinpassGateway.Build

open Foundation

theorem SetPrio.rank_injective : Function.Injective SetPrio.rank := by
  intro a b same
  cases a <;> cases b <;> first | rfl | exact absurd same (by decide)

instance SetPrio.linearOrder : LinearOrder SetPrio := LinearOrder.lift' SetPrio.rank SetPrio.rank_injective

variable {s : CreateConfig} {file : String} {line i : Nat} {prio : SetPrio} {token value : String} {opt : ConfigOption}

/-! ### One call -/

/-- `token_get("CONFIG_RG_DEV")` returns and is not zero. -/
def CreateConfig.develop (s : CreateConfig) : Bool := (tokenGet s "CONFIG_RG_DEV").any (· ≠ 0)

def storedValue (s : CreateConfig) (opt : ConfigOption) (value : String) : String :=
  if value = "m" ∧ opt.has optStaticOnDevelop ∧ s.develop then "y" else value

theorem tokenSetOption_below (below : prio < opt.setPrio) : tokenSetOption s file line prio i opt value = s :=
  if_pos below

theorem tokenSetOption_reaches (enough : opt.setPrio ≤ prio)
    (alive : (tokenSetOption s file line prio i opt value).exited = false) :
    tokenSetOption s file line prio i opt value =
      s.setOption i { opt with
        file := some file, line, value := some (storedValue s opt value), setPrio := prio } := by
  have reached : ¬prio.rank < opt.setPrio.rank := not_lt.mpr enough
  unfold tokenSetOption at alive ⊢
  simp only [if_neg reached] at alive ⊢
  by_cases module : value = "m"
  · simp only [if_pos module] at alive ⊢
    by_cases untyped : opt.type = 0
    · rw [if_pos untyped] at alive
      exact absurd alive (by simp [CreateConfig.confErr])
    · simp only [if_neg untyped] at alive ⊢
      by_cases static : opt.has optStaticOnDevelop
      · simp only [if_pos static] at alive ⊢
        cases dev : tokenGet s "CONFIG_RG_DEV" with
        | none =>
          rw [dev] at alive
          exact absurd alive (by simp [CreateConfig.confErr])
        | some dev' => simp [storedValue, CreateConfig.develop, dev, module, static]
      · simp [static, storedValue]
  · simp [module, storedValue]

/-- What makes `_token_set` end the program when it stores `m`. -/
def Stopped (s : CreateConfig) (opt : ConfigOption) : Prop :=
  opt.type = 0 ∨ opt.has optStaticOnDevelop = true ∧ tokenGet s "CONFIG_RG_DEV" = none

theorem setOption_exited (s : CreateConfig) (i : Nat) (o : ConfigOption) : (s.setOption i o).exited = s.exited := by
  unfold CreateConfig.setOption
  split <;> rfl

theorem tokenSetOption_exited_iff (running : s.exited = false) :
    (tokenSetOption s file line prio i opt value).exited = true ↔
      opt.setPrio ≤ prio ∧ value = "m" ∧ Stopped s opt := by
  unfold tokenSetOption Stopped
  rcases lt_or_ge prio opt.setPrio with below | enough
  · have dropped : prio.rank < opt.setPrio.rank := below
    simp [dropped, running, not_le.mpr below]
  · have reached : ¬prio.rank < opt.setPrio.rank := not_lt.mpr enough
    simp only [if_neg reached, enough, true_and]
    by_cases module : value = "m"
    · simp only [module, true_and]
      by_cases untyped : opt.type = 0
      · simp [untyped, CreateConfig.confErr]
      · rw [if_neg untyped]
        by_cases static : opt.has optStaticOnDevelop = true
        · rw [if_pos static]
          cases dev : tokenGet s "CONFIG_RG_DEV" with
          | none => simp [static, CreateConfig.confErr]
          | some dev' => simp [untyped, setOption_exited, running]
        · rw [if_neg static]
          simp [untyped, static, setOption_exited, running]
    · simp [module, setOption_exited, running]

theorem tokenSet_exited_iff (running : s.exited = false)
    (place : optionTokenGetNofail s.openrgConfigOptions token = some i) (found : s.openrgConfigOptions[i]? = some opt) :
    (tokenSet s file line prio token value).exited = true ↔
      4094 < value.utf8ByteSize ∨ opt.setPrio ≤ prio ∧ value = "m" ∧ Stopped s opt := by
  unfold tokenSet
  by_cases long : value.utf8ByteSize > 4094
  · rw [if_pos long]
    exact ⟨fun _ => Or.inl long, fun _ => rfl⟩
  · simp only [if_neg long, place, found]
    rw [tokenSetOption_exited_iff running]
    exact ⟨Or.inr, fun h => h.resolve_left long⟩

theorem tokenSet_alive (alive : (tokenSet s file line prio token value).exited = false) :
    ∃ i opt, optionTokenGetNofail s.openrgConfigOptions token = some i ∧ s.openrgConfigOptions[i]? = some opt ∧
      tokenSet s file line prio token value = tokenSetOption s file line prio i opt value := by
  unfold tokenSet at alive ⊢
  by_cases long : value.utf8ByteSize > 4094
  · rw [if_pos long] at alive
    exact absurd alive (by simp [CreateConfig.confErr])
  · simp only [if_neg long] at alive ⊢
    cases place : optionTokenGetNofail s.openrgConfigOptions token with
    | none =>
      rw [place] at alive
      exact absurd alive (by simp [CreateConfig.confErr])
    | some i =>
      simp only [place] at alive
      cases found : s.openrgConfigOptions[i]? with
      | none =>
        rw [found] at alive
        exact absurd alive (by simp [CreateConfig.confErr])
      | some opt => exact ⟨i, opt, rfl, found, by simp only [found]⟩

/-! ### The table -/

def CreateConfig.optionAt (s : CreateConfig) (i : Nat) : ConfigOption :=
  s.openrgConfigOptions.getD i { token := "", value := none, type := 0, file := none, line := 0, setPrio := .unset }

def CreateConfig.shape (s : CreateConfig) : List (String × Nat) :=
  s.openrgConfigOptions.map fun o => (o.token, o.type)

theorem optionAt_found (found : s.openrgConfigOptions[i]? = some opt) : s.optionAt i = opt := by
  rw [CreateConfig.optionAt, List.getD_eq_getElem?_getD, found, Option.getD_some]

theorem openrgConfigOptions_setOption (s : CreateConfig) (i : Nat) (o : ConfigOption) :
    (s.setOption i o).openrgConfigOptions = s.openrgConfigOptions.set i o := by
  unfold CreateConfig.setOption CreateConfig.openrgConfigOptions
  cases current : s.current with
  | none => rfl
  | some k => cases found : s.jpkgDists[k]? <;> simp [found]

theorem optionAt_setOption (inside : i < s.openrgConfigOptions.length) (o : ConfigOption) :
    (s.setOption i o).optionAt i = o := by
  rw [CreateConfig.optionAt, openrgConfigOptions_setOption, List.getD_eq_getElem?_getD,
    List.getElem?_set_self inside, Option.getD_some]

theorem optionAt_setOption_ne {j : Nat} (other : i ≠ j) (o : ConfigOption) :
    (s.setOption i o).optionAt j = s.optionAt j := by
  rw [CreateConfig.optionAt, openrgConfigOptions_setOption, List.getD_eq_getElem?_getD,
    List.getElem?_set_ne other, ← List.getD_eq_getElem?_getD]
  rfl

theorem shape_setOption {o : ConfigOption} (found : s.openrgConfigOptions[i]? = some opt)
    (kept : (o.token, o.type) = (opt.token, opt.type)) : (s.setOption i o).shape = s.shape := by
  unfold CreateConfig.shape
  rw [openrgConfigOptions_setOption, List.map_set, kept]
  obtain ⟨inside, same⟩ := List.getElem?_eq_some_iff.mp found
  have mapped : i < (s.openrgConfigOptions.map fun o => (o.token, o.type)).length := by simpa using inside
  have here : (opt.token, opt.type) = (s.openrgConfigOptions.map fun o => (o.token, o.type))[i] := by
    rw [List.getElem_map, same]
  rw [here, List.set_getElem_self mapped]

theorem place_of_shape (s : CreateConfig) (token : String) :
    optionTokenGetNofail s.openrgConfigOptions token = s.shape.findIdx? (·.1 = token) := by
  rw [CreateConfig.shape, List.findIdx?_map]
  rfl

theorem type_of_shape (s : CreateConfig) (i : Nat) : (s.optionAt i).type = (s.shape.getD i ("", 0)).2 := by
  rw [CreateConfig.optionAt, CreateConfig.shape, List.getD_eq_getElem?_getD, List.getD_eq_getElem?_getD,
    List.getElem?_map]
  cases s.openrgConfigOptions[i]? <;> rfl

theorem place_inside (place : optionTokenGetNofail s.openrgConfigOptions token = some i) :
    i < s.openrgConfigOptions.length := (List.findIdx?_eq_some_iff_findIdx_eq.mp place).1

theorem place_found (place : optionTokenGetNofail s.openrgConfigOptions token = some i) :
    s.openrgConfigOptions[i]? = some (s.optionAt i) := by
  have inside := place_inside place
  rw [optionAt_found (List.getElem?_eq_getElem inside), List.getElem?_eq_getElem inside]

theorem place_token (place : optionTokenGetNofail s.openrgConfigOptions token = some i) :
    (s.optionAt i).token = token := by
  obtain ⟨inside, named, _⟩ := List.findIdx?_eq_some_iff_getElem.mp place
  rw [optionAt_found (List.getElem?_eq_getElem inside)]
  exact of_decide_eq_true named

/-! ### Sequences of calls -/

structure SetCall where
  file : String
  line : Nat
  setPrio : SetPrio
  token : String
  value : String

def SetCall.step (s : CreateConfig) (c : SetCall) : CreateConfig :=
  if s.exited then s else tokenSet s c.file c.line c.setPrio c.token c.value

def SetCall.writes (c : SetCall) (s : CreateConfig) (i : Nat) : ConfigOption :=
  { s.optionAt i with
    file := some c.file, line := c.line, value := some (storedValue s (s.optionAt i) c.value), setPrio := c.setPrio }

theorem exited_step {c : SetCall} (alive : (SetCall.step s c).exited = false) : s.exited = false := by
  unfold SetCall.step at alive
  split at alive
  · exact alive
  · rename_i running
    simpa using running

/-- All that a call which returns can do. -/
theorem step_cases {c : SetCall} (alive : (SetCall.step s c).exited = false) :
    ∃ i, optionTokenGetNofail s.openrgConfigOptions c.token = some i ∧
      (c.setPrio < (s.optionAt i).setPrio ∧ SetCall.step s c = s ∨
        (s.optionAt i).setPrio ≤ c.setPrio ∧ SetCall.step s c = s.setOption i (c.writes s i)) := by
  have running := exited_step alive
  have same : SetCall.step s c = tokenSet s c.file c.line c.setPrio c.token c.value := by
    simp [SetCall.step, running]
  rw [same] at alive ⊢
  obtain ⟨i, opt, place, found, reached⟩ := tokenSet_alive alive
  rw [reached] at alive ⊢
  refine ⟨i, place, ?_⟩
  rw [SetCall.writes, optionAt_found found]
  rcases lt_or_ge c.setPrio opt.setPrio with below | enough
  · exact Or.inl ⟨below, tokenSetOption_below below⟩
  · exact Or.inr ⟨enough, tokenSetOption_reaches enough alive⟩

theorem tokenSetOption_exited (running : s.exited = false)
    (exited : (tokenSetOption s file line prio i opt value).exited = true) :
    tokenSetOption s file line prio i opt value = s.confErr := by
  obtain ⟨enough, module, stopped⟩ := (tokenSetOption_exited_iff running).mp exited
  have reached : ¬prio.rank < opt.setPrio.rank := not_lt.mpr enough
  unfold tokenSetOption
  simp only [if_neg reached, if_pos module]
  by_cases untyped : opt.type = 0
  · rw [if_pos untyped]
  · obtain ⟨static, dev⟩ := stopped.resolve_left untyped
    rw [if_neg untyped, if_pos static, dev]

/-- A call that ends the program leaves every option as it is. -/
theorem step_exited {c : SetCall} (running : s.exited = false) (exited : (SetCall.step s c).exited = true) :
    SetCall.step s c = s.confErr := by
  have same : SetCall.step s c = tokenSet s c.file c.line c.setPrio c.token c.value := by
    simp [SetCall.step, running]
  rw [same] at exited ⊢
  unfold tokenSet at exited ⊢
  split
  · rfl
  · rename_i short
    rw [if_neg short] at exited
    cases place : optionTokenGetNofail s.openrgConfigOptions c.token with
    | none => rfl
    | some i =>
      simp only [place] at exited ⊢
      cases found : s.openrgConfigOptions[i]? with
      | none => rfl
      | some opt =>
        simp only [found] at exited ⊢
        exact tokenSetOption_exited running exited

theorem step_changes (s : CreateConfig) (c : SetCall) : SetCall.step s c = s ∨ SetCall.step s c = s.confErr ∨
    ∃ i, optionTokenGetNofail s.openrgConfigOptions c.token = some i ∧ (s.optionAt i).setPrio ≤ c.setPrio ∧
      SetCall.step s c = s.setOption i (c.writes s i) := by
  cases running : s.exited with
  | true => exact Or.inl (if_pos running)
  | false =>
    cases exited : (SetCall.step s c).exited with
    | true => exact Or.inr (Or.inl (step_exited running exited))
    | false =>
      obtain ⟨i, place, ⟨_, same⟩ | ⟨enough, same⟩⟩ := step_cases exited
      · exact Or.inl same
      · exact Or.inr (Or.inr ⟨i, place, enough, same⟩)

theorem shape_step (s : CreateConfig) (c : SetCall) : (SetCall.step s c).shape = s.shape := by
  obtain same | same | ⟨i, place, _, same⟩ := step_changes s c
  · rw [same]
  · rw [same]
    rfl
  · rw [same]
    exact shape_setOption (place_found place) rfl

theorem shape_exec (s : CreateConfig) (calls : List SetCall) : (exec SetCall.step s calls).shape = s.shape := by
  induction calls generalizing s with
  | nil => rfl
  | cons c rest ih => exact (ih (SetCall.step s c)).trans (shape_step s c)

theorem place_exec (calls : List SetCall) (place : optionTokenGetNofail s.openrgConfigOptions token = some i) :
    optionTokenGetNofail (exec SetCall.step s calls).openrgConfigOptions token = some i := by
  rw [place_of_shape, shape_exec, ← place_of_shape, place]

/-! ### The option as a cell -/

def CreateConfig.cell (i : Nat) (s : CreateConfig) : Ranked SetPrio ConfigOption :=
  ⟨(s.optionAt i).setPrio, s.optionAt i⟩

def SetCall.write (token : String) (i : Nat) (s : CreateConfig) (c : SetCall) : Option (Ranked SetPrio ConfigOption) :=
  if c.token = token then some ⟨c.setPrio, c.writes s i⟩ else none

theorem step_cell {c : SetCall} (place : optionTokenGetNofail s.openrgConfigOptions token = some i)
    (alive : (SetCall.step s c).exited = false) :
    (SetCall.step s c).cell i = (c.write token i s).elim (s.cell i) (s.cell i).put := by
  obtain ⟨j, named, effect⟩ := step_cases alive
  by_cases own : c.token = token
  · rw [own, place] at named
    cases named
    rw [SetCall.write, if_pos own, Option.elim_some]
    rcases effect with ⟨below, same⟩ | ⟨enough, same⟩
    · rw [same, Ranked.put_below below]
    · rw [same, Ranked.put_reaches enough, CreateConfig.cell, optionAt_setOption (place_inside place)]
      rfl
  · rw [SetCall.write, if_neg own, Option.elim_none]
    rcases effect with ⟨_, same⟩ | ⟨_, same⟩
    · rw [same]
    · have apart : j ≠ i := by
        rintro rfl
        exact own ((place_token named).symm.trans (place_token place))
      rw [same, CreateConfig.cell, CreateConfig.cell, optionAt_setOption_ne apart]

theorem guarded_calls {calls : List SetCall} (finished : (exec SetCall.step s calls).exited = false) :
    s.exited = false ∧ Guarded SetCall.step (fun s c => (SetCall.step s c).exited = false) s calls :=
  guarded_of_last (P := fun t : CreateConfig => t.exited = false) (fun _ _ => exited_step) finished

theorem cell_exec {calls : List SetCall} (place : optionTokenGetNofail s.openrgConfigOptions token = some i)
    (finished : (exec SetCall.step s calls).exited = false) :
    (exec SetCall.step s calls).cell i =
      exec Ranked.put (s.cell i) (cellWrites SetCall.step (SetCall.write token i) s calls) := by
  have tracks : ∀ (t : CreateConfig) (c : SetCall), optionTokenGetNofail t.openrgConfigOptions token = some i →
      (SetCall.step t c).exited = false →
      optionTokenGetNofail (SetCall.step t c).openrgConfigOptions token = some i ∧
        (SetCall.step t c).cell i = (c.write token i t).elim (t.cell i) (t.cell i).put := by
    intro t c same alive
    exact ⟨place_exec [c] same, step_cell same alive⟩
  exact view_exec tracks place (guarded_calls finished).2

theorem finished_before {before after : List SetCall}
    (finished : (exec SetCall.step s (before ++ after)).exited = false) :
    (exec SetCall.step s before).exited = false := by
  rw [exec_append] at finished
  exact (guarded_calls finished).1

theorem write_rank {c : SetCall} {v : Ranked SetPrio ConfigOption} (written : c.write token i s = some v) :
    c.token = token ∧ c.setPrio = v.rank := by
  unfold SetCall.write at written
  split at written
  · rename_i own
    cases written
    exact ⟨own, rfl⟩
  · cases written

/-! ### The final value -/

/-- The last one of the strongest calls for an option, if it is not weaker than the option was. -/
structure Decides (token : String) (initial : SetPrio) (before : List SetCall) (c : SetCall) (after : List SetCall) :
    Prop where
  own : c.token = token
  enough : initial ≤ c.setPrio
  earlier : ∀ b ∈ before, b.token = token → b.setPrio ≤ c.setPrio
  later : ∀ b ∈ after, b.token = token → b.setPrio < c.setPrio

theorem decided {before after : List SetCall} {c : SetCall}
    (place : optionTokenGetNofail s.openrgConfigOptions token = some i)
    (finished : (exec SetCall.step s (before ++ c :: after)).exited = false)
    (decides : Decides token (s.optionAt i).setPrio before c after) :
    (exec SetCall.step s (before ++ c :: after)).optionAt i = c.writes (exec SetCall.step s before) i := by
  have won : (exec SetCall.step s (before ++ c :: after)).cell i =
      ⟨c.setPrio, c.writes (exec SetCall.step s before) i⟩ := by
    rw [cell_exec place finished, cellWrites_append, cellWrites, SetCall.write, if_pos decides.own]
    refine Ranked.exec_winner decides.enough ?_ ?_
    · intro v member
      obtain ⟨b, inside, t, written⟩ := mem_cellWrites member
      obtain ⟨own, rank⟩ := write_rank written
      rw [← rank]
      exact decides.earlier b inside own
    · intro v member
      obtain ⟨b, inside, t, written⟩ := mem_cellWrites member
      obtain ⟨own, rank⟩ := write_rank written
      rw [← rank]
      exact decides.later b inside own
  exact congrArg Ranked.value won

theorem undecided {calls : List SetCall} (place : optionTokenGetNofail s.openrgConfigOptions token = some i)
    (finished : (exec SetCall.step s calls).exited = false)
    (weak : ∀ c ∈ calls, c.token = token → c.setPrio < (s.optionAt i).setPrio) :
    (exec SetCall.step s calls).optionAt i = s.optionAt i := by
  have kept : (exec SetCall.step s calls).cell i = s.cell i := by
    rw [cell_exec place finished]
    refine Ranked.exec_below fun v member => ?_
    obtain ⟨c, inside, t, written⟩ := mem_cellWrites member
    obtain ⟨own, rank⟩ := write_rank written
    rw [← rank]
    exact weak c inside own
  exact congrArg Ranked.value kept

theorem decides_or_weak (token : String) (initial : SetPrio) (calls : List SetCall) :
    (∃ before c after, calls = before ++ c :: after ∧ Decides token initial before c after) ∨
      ∀ c ∈ calls, c.token = token → c.setPrio < initial := by
  by_cases strong : ∃ c ∈ calls, c.token = token ∧ initial ≤ c.setPrio
  · left
    obtain ⟨c, member, own, enough⟩ := strong
    obtain ⟨before, d, after, split, named, earlier, later⟩ :=
      exists_last_max (P := fun b => b.token = token) SetCall.setPrio ⟨c, member, own⟩
    refine ⟨before, d, after, split, named, ?_, earlier, later⟩
    rw [split, List.mem_append, List.mem_cons] at member
    rcases member with inside | rfl | inside
    · exact enough.trans (earlier c inside own)
    · exact enough
    · exact enough.trans (later c inside own).le
  · right
    intro c member own
    exact not_le.mp fun enough => strong ⟨c, member, own, enough⟩

theorem optionAt_confErr (s : CreateConfig) (i : Nat) : s.confErr.optionAt i = s.optionAt i := rfl

theorem prio_step (c : SetCall) (place : optionTokenGetNofail s.openrgConfigOptions token = some i) :
    (s.optionAt i).setPrio ≤ ((SetCall.step s c).optionAt i).setPrio := by
  obtain same | same | ⟨j, named, enough, same⟩ := step_changes s c
  · rw [same]
  · rw [same, optionAt_confErr]
  · rw [same]
    by_cases own : j = i
    · subst own
      rw [optionAt_setOption (place_inside place)]
      exact enough
    · rw [optionAt_setOption_ne own]

theorem prio_exec (calls : List SetCall) (place : optionTokenGetNofail s.openrgConfigOptions token = some i) :
    (s.optionAt i).setPrio ≤ ((exec SetCall.step s calls).optionAt i).setPrio := by
  induction calls generalizing s with
  | nil => exact le_refl _
  | cons c rest ih => exact (prio_step c place).trans (ih (place_exec [c] place))

/-- A call below the recorded priority is ignored, unless its text is too long. -/
theorem step_weak {c : SetCall} (place : optionTokenGetNofail s.openrgConfigOptions c.token = some i)
    (below : c.setPrio < (s.optionAt i).setPrio) :
    SetCall.step s c = s ∨ 4094 < c.value.utf8ByteSize ∧ SetCall.step s c = s.confErr := by
  by_cases long : 4094 < c.value.utf8ByteSize
  · unfold SetCall.step
    split
    · exact Or.inl rfl
    · exact Or.inr ⟨long, if_pos long⟩
  · left
    unfold SetCall.step
    split
    · rfl
    · unfold tokenSet
      rw [if_neg long, place]
      simp only [place_found place]
      exact tokenSetOption_below below

/-! ### The law -/

def PrioRises (s : CreateConfig) (i : Nat) (calls : List SetCall) : Prop :=
  ∀ before after, calls = before ++ after →
    ((exec SetCall.step s before).optionAt i).setPrio ≤ ((exec SetCall.step s calls).optionAt i).setPrio

/-- The last one of the strongest calls gives the value, if it is strong enough; if no call is, the option is as it
was. -/
def FinalValue (s : CreateConfig) (token : String) (i : Nat) (calls : List SetCall) : Prop :=
  (∀ before c after, calls = before ++ c :: after → Decides token (s.optionAt i).setPrio before c after →
    ((exec SetCall.step s calls).optionAt i).value =
      some (storedValue (exec SetCall.step s before) (s.optionAt i) c.value) ∧
    ((exec SetCall.step s calls).optionAt i).setPrio = c.setPrio) ∧
  ((∃ before c after, calls = before ++ c :: after ∧ Decides token (s.optionAt i).setPrio before c after) ∨
    (exec SetCall.step s calls).optionAt i = s.optionAt i)

def WeakIgnored (s : CreateConfig) (token : String) (i : Nat) (calls : List SetCall) : Prop :=
  ∀ before c after, calls = before ++ c :: after → c.token = token →
    c.setPrio < ((exec SetCall.step s before).optionAt i).setPrio →
    exec SetCall.step s (before ++ [c]) = exec SetCall.step s before

theorem storedValue_congr {o o' : ConfigOption} (kind : o.type = o'.type) (value : String) :
    storedValue s o value = storedValue s o' value := by
  have flag : o.has optStaticOnDevelop = o'.has optStaticOnDevelop := by simp only [ConfigOption.has, kind]
  simp only [storedValue, flag]

theorem final_value {calls : List SetCall} (place : optionTokenGetNofail s.openrgConfigOptions token = some i)
    (finished : (exec SetCall.step s calls).exited = false) : FinalValue s token i calls := by
  constructor
  · rintro before c after rfl decides
    have kind : ((exec SetCall.step s before).optionAt i).type = (s.optionAt i).type := by
      rw [type_of_shape, shape_exec, ← type_of_shape]
    rw [decided place finished decides, SetCall.writes]
    exact ⟨congrArg some (storedValue_congr kind c.value), rfl⟩
  · rcases decides_or_weak token (s.optionAt i).setPrio calls with found | weak
    · exact Or.inl found
    · exact Or.inr (undecided place finished weak)

theorem token_set_final_value (s : CreateConfig) (token : String) (i : Nat) (calls : List SetCall)
    (place : optionTokenGetNofail s.openrgConfigOptions token = some i) :
    PrioRises s i calls ∧
    ((exec SetCall.step s calls).exited = false → FinalValue s token i calls ∧ WeakIgnored s token i calls) ∧
    ∀ before c after, calls = before ++ c :: after → c.token = token →
      c.setPrio < ((exec SetCall.step s before).optionAt i).setPrio →
      exec SetCall.step s (before ++ [c]) = exec SetCall.step s before ∨
        4094 < c.value.utf8ByteSize ∧ exec SetCall.step s (before ++ [c]) = (exec SetCall.step s before).confErr := by
  refine ⟨?_, fun finished => ⟨final_value place finished, ?_⟩, ?_⟩
  · rintro before after rfl
    rw [exec_append]
    exact prio_exec after (place_exec before place)
  · rintro before c after rfl rfl below
    have alive : (exec SetCall.step s (before ++ [c])).exited = false := by
      apply finished_before
      rwa [List.append_assoc]
    rw [exec_append] at alive ⊢
    rcases step_weak (place_exec before place) below with same | ⟨_, ended⟩
    · exact same
    · rw [exec_cons, exec_nil, ended] at alive
      cases alive
  · rintro before c after rfl rfl below
    rw [exec_append]
    exact step_weak (place_exec before place) below

def developTable : CreateConfig :=
  .start [
    { token := "CONFIG_RG_DEV", value := some "y", type := 0, file := none, line := 0, setPrio := .init },
    { token := "CONFIG_X", value := none, type := 0x3, file := none, line := 0, setPrio := .unset }]

def developCalls : List SetCall :=
  [⟨"feature_config.c", 1, .tokenSetDefault, "CONFIG_X", "y"⟩, ⟨"dist_config.c", 2, .tokenSet, "CONFIG_X", "m"⟩,
    ⟨"feature_config.c", 3, .tokenSetDefault, "CONFIG_X", "n"⟩]

theorem token_set_final_value_develop :
    PrioRises developTable 1 developCalls ∧
      FinalValue developTable "CONFIG_X" 1 developCalls ∧ WeakIgnored developTable "CONFIG_X" 1 developCalls := by
  obtain ⟨rises, final, _⟩ := token_set_final_value developTable "CONFIG_X" 1 developCalls (by decide)
  exact ⟨rises, final (by decide)⟩

example : ((exec SetCall.step developTable developCalls).optionAt 1).value = some "y" := by decide

def pinnedTable : CreateConfig :=
  .start [{ token := "CONFIG_X", value := some "y", type := 0x100, file := none, line := 0, setPrio := .cmdLine }]

def longCall : SetCall :=
  { file := "dist_config.c", line := 1, setPrio := .tokenSet, token := "CONFIG_X",
    value := String.ofList (List.replicate 4095 'a') }

theorem utf8ByteSize_replicate (n : Nat) : (String.ofList (List.replicate n 'a')).utf8ByteSize = n := by
  induction n with
  | zero => rfl
  | succ n ih =>
    rw [List.replicate_succ, String.ofList_cons, String.utf8ByteSize_append, ih, show (String.singleton 'a').utf8ByteSize = 1 from rfl]
    exact Nat.add_comm 1 n

theorem longCall_long : 4094 < longCall.value.utf8ByteSize := by
  show 4094 < (String.ofList (List.replicate 4095 'a')).utf8ByteSize
  rw [utf8ByteSize_replicate]
  decide

/-- A text that is too long ends the program also where the option would not have been changed. -/
theorem weak_call_exits : ¬ ∀ (s : CreateConfig) (token : String) (i : Nat) (calls : List SetCall), s.exited = false →
    optionTokenGetNofail s.openrgConfigOptions token = some i →
    PrioRises s i calls ∧ FinalValue s token i calls ∧ WeakIgnored s token i calls := by
  intro law
  obtain ⟨_, _, ignored⟩ := law pinnedTable "CONFIG_X" 0 [longCall] rfl (by decide)
  have same := ignored [] longCall [] rfl rfl (by decide)
  have gone : SetCall.step pinnedTable longCall = pinnedTable.confErr := by
    unfold SetCall.step tokenSet
    rw [if_neg (by decide), if_pos longCall_long]
  rw [List.nil_append, exec_cons, exec_nil, exec_nil, gone] at same
  exact absurd (congrArg CreateConfig.exited same) (by decide)

end TwinpassGateway.Build
