import TwinpassGateway.Build.TokenSetting

/-!
Which options can get the value `m`. The check of `_token_set` binds `!` before `&`, so it stops a call
for an option without any type flag and no other.
-/

namespace TwinpassGateway.Build

open Foundation

variable {s : CreateConfig} {c : SetCall} {i : Nat}

/-- Only `OPT_MODULE_EXPAND` options are modules. -/
def ModulesAllowed (s : CreateConfig) : Prop :=
  ∀ o ∈ s.openrgConfigOptions, o.value = some "m" → o.has optModuleExpand = true

/-- The call is for the option at `i`, which is no `OPT_MODULE_EXPAND` option, and strong enough to make it a module. -/
structure SetCall.Attempts (c : SetCall) (s : CreateConfig) (i : Nat) : Prop where
  place : optionTokenGetNofail s.openrgConfigOptions c.token = some i
  module : c.value = "m"
  plain : (s.optionAt i).has optModuleExpand = false
  enough : (s.optionAt i).setPrio ≤ c.setPrio

theorem attempt_exits_iff (running : s.exited = false) (attempts : c.Attempts s i) :
    (SetCall.step s c).exited = true ↔ Stopped s (s.optionAt i) := by
  have same : SetCall.step s c = tokenSet s c.file c.line c.setPrio c.token c.value := by
    simp [SetCall.step, running]
  have short : ¬4094 < c.value.utf8ByteSize := by
    rw [attempts.module]
    decide
  rw [same, tokenSet_exited_iff running attempts.place (place_found attempts.place)]
  constructor
  · intro exits
    exact (exits.resolve_left short).2.2
  · intro stopped
    exact Or.inr ⟨attempts.enough, attempts.module, stopped⟩

/-! ### One call -/

/-- The program has ended, or it ends on every attempt. -/
def Harmless (s : CreateConfig) (c : SetCall) : Prop := s.exited = true ∨ ∀ i, c.Attempts s i → Stopped s (s.optionAt i)

/-- The call keeps modules where they are allowed, and is rejected where it attempts the opposite. -/
def ModuleSafe (s : CreateConfig) (c : SetCall) : Prop :=
  ModulesAllowed (SetCall.step s c) ∧ ∀ i, c.Attempts s i → (SetCall.step s c).exited = true

theorem allowed_of_harmless (allowed : ModulesAllowed s) (harmless : Harmless s c) :
    ModulesAllowed (SetCall.step s c) := by
  cases ended : s.exited with
  | true => simpa [SetCall.step, ended] using allowed
  | false =>
    have stops := harmless.resolve_left (by simp [ended])
    obtain same | same | ⟨i, place, enough, same⟩ := step_changes s c
    · rw [same]
      exact allowed
    · rw [same]
      exact allowed
    · have alive : (SetCall.step s c).exited = false := by rw [same, setOption_exited, ended]
      rw [same]
      intro o member module
      rw [openrgConfigOptions_setOption] at member
      rcases List.mem_or_eq_of_mem_set member with before | rfl
      · exact allowed o before module
      · by_contra plain
        -- a stored `m` comes from the call: development replaces `m`, and nothing else becomes `m`
        have wanted : c.value = "m" := by
          unfold SetCall.writes storedValue at module
          split at module
          · exact absurd (Option.some.inj module) (by decide)
          · exact Option.some.inj module
        have attempts : c.Attempts s i := ⟨place, wanted, Bool.not_eq_true _ ▸ plain, enough⟩
        rw [(attempt_exits_iff ended attempts).mpr (stops i attempts)] at alive
        cases alive

theorem moduleSafe_iff (allowed : ModulesAllowed s) : ModuleSafe s c ↔ Harmless s c := by
  constructor
  · rintro ⟨_, rejected⟩
    cases ended : s.exited with
    | true => exact Or.inl ended
    | false => exact Or.inr fun i attempts => (attempt_exits_iff ended attempts).mp (rejected i attempts)
  · intro harmless
    refine ⟨allowed_of_harmless allowed harmless, fun i attempts => ?_⟩
    cases ended : s.exited with
    | true => simp [SetCall.step, ended]
    | false =>
      exact (attempt_exits_iff ended attempts).mpr (harmless.resolve_left (by simp [ended]) i attempts)

/-! ### Runs -/

/-- No option that is not `OPT_MODULE_EXPAND` is a module at any point of the run, and every attempt is rejected. -/
structure ModulesKept (s : CreateConfig) (calls : List SetCall) : Prop where
  allowed : ∀ before after, calls = before ++ after → ModulesAllowed (exec SetCall.step s before)
  rejected : ∀ before c after, calls = before ++ c :: after → ∀ i, c.Attempts (exec SetCall.step s before) i →
    (exec SetCall.step s (before ++ [c])).exited = true

theorem modulesKept_iff_guarded {calls : List SetCall} :
    ModulesKept s calls ↔ ModulesAllowed s ∧ Guarded SetCall.step ModuleSafe s calls := by
  constructor
  · intro kept
    refine ⟨kept.allowed [] calls rfl, guarded_iff.mpr fun before c after split => ?_⟩
    have next := kept.allowed (before ++ [c]) after (by rw [split, List.append_assoc]; rfl)
    have rejected := kept.rejected before c after split
    rw [exec_append] at next rejected
    exact ⟨next, rejected⟩
  · rintro ⟨start, guarded⟩
    have preserved : ∀ (t : CreateConfig) (c : SetCall), ModulesAllowed t → ModuleSafe t c →
        ModulesAllowed (SetCall.step t c) := fun _ _ _ safe => safe.1
    constructor
    · rintro before after rfl
      exact guarded_invariant preserved start (guarded_append.mp guarded).1
    · intro before c after split i attempts
      rw [exec_append]
      exact (guarded_iff.mp guarded before c after split).2 i attempts

theorem modules_kept_iff (s : CreateConfig) (calls : List SetCall) :
    ModulesKept s calls ↔ ModulesAllowed s ∧
      ∀ before c after, calls = before ++ c :: after → Harmless (exec SetCall.step s before) c := by
  rw [modulesKept_iff_guarded, ← guarded_iff]
  refine and_congr_right fun start => ?_
  have agree : ∀ (t : CreateConfig) (c : SetCall), ModulesAllowed t → (ModuleSafe t c ↔ Harmless t c) :=
    fun _ _ allowed => moduleSafe_iff allowed
  exact guarded_congr agree (fun _ _ _ safe => safe.1) start

def headerTable : CreateConfig :=
  .start [{ token := "CONFIG_X", value := none, type := 0x100, file := none, line := 0, setPrio := .unset }]

/-- An option of type `OPT_H` becomes a module. -/
theorem plain_option_gets_module : ¬ ∀ (s : CreateConfig) (calls : List SetCall), ModulesAllowed s →
    (exec SetCall.step s calls).exited = false → ModulesAllowed (exec SetCall.step s calls) := by
  intro kept
  have start : ModulesAllowed headerTable := by
    intro o member module
    simp only [CreateConfig.openrgConfigOptions, headerTable, CreateConfig.start, List.mem_singleton] at member
    rw [member] at module
    cases module
  have broken := kept headerTable [⟨"dist_config.c", 1, .tokenSet, "CONFIG_X", "m"⟩] start (by decide)
  exact absurd (broken _ List.mem_cons_self rfl) (by decide)

end TwinpassGateway.Build
