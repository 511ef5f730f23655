import TwinpassGateway.Build.TokenSetting

/-!
The `-f` arguments. `add_feature_parse` cuts the argument with `strtok`, uses the value as a format, and
pins the option, so the first argument for an option decides.
-/

namespace TwinpassGateway.Build

open Foundation

variable {vsnprintf : String → String} {s : CreateConfig} {arg token : String} {i : Nat}

/-! ### One argument -/

def featureToken (arg : String) : Option String := (strtok arg.toList).map fun p => String.ofList p.1

/-- The text behind the name, up to the next `=`; an empty text is no text. -/
def featureText (arg : String) : Option String :=
  (strtok arg.toList).bind fun p => (strtok p.2).map fun q => String.ofList q.1

theorem strtok_given {name rest : List Char} (nonempty : name ≠ []) (plain : '=' ∉ name) :
    strtok (name ++ '=' :: rest) = some (name, rest) := by
  have other : ∀ c ∈ name, decide (c ≠ '=') = true := fun c member =>
    decide_eq_true fun same => plain (same ▸ member)
  have taken : (name ++ '=' :: rest).takeWhile (· ≠ '=') = name := by
    rw [List.takeWhile_append_of_pos other]
    simp
  have dropped : (name ++ '=' :: rest).dropWhile (· ≠ '=') = '=' :: rest := by
    rw [List.dropWhile_append_of_pos other]
    simp
  unfold strtok
  cases name with
  | nil => exact absurd rfl nonempty
  | cons c tail =>
    have first : ¬c = '=' := fun same => plain (same ▸ List.mem_cons_self)
    have kept : (c :: tail ++ '=' :: rest).dropWhile (· = '=') = c :: tail ++ '=' :: rest := by
      rw [List.cons_append, List.dropWhile_cons_of_neg (by simpa using first)]
    rw [kept, List.cons_append]
    simp only [← List.cons_append, taken, dropped, List.drop_one, List.tail_cons]

theorem featureToken_given (named : token ≠ "" ∧ '=' ∉ token.toList) (value : String) :
    featureToken (token ++ "=" ++ value) = some token := by
  have cut : (token ++ "=" ++ value).toList = token.toList ++ '=' :: value.toList := by
    simp [String.toList_append]
  have nonempty : token.toList ≠ [] := fun empty => named.1 (String.toList_eq_nil_iff.mp empty)
  rw [featureToken, cut, strtok_given nonempty named.2, Option.map_some, String.ofList_toList]

/-- The call of `_token_set` that an argument makes, if it has a text. -/
def featureCalls (vsnprintf : String → String) (token arg : String) : List SetCall :=
  (featureText arg).toList.map fun text => ⟨"create_config.c", 100, .tokenSet, token, vsnprintf text⟩

theorem featureValue_eq (running : s.exited = false) {name rest : List Char}
    (cut : strtok arg.toList = some (name, rest)) :
    featureValue vsnprintf s token rest = exec SetCall.step s (featureCalls vsnprintf token arg) := by
  unfold featureValue featureCalls featureText
  rw [cut, Option.bind_some]
  cases strtok rest with
  | none => rfl
  | some q => simp [SetCall.step, running]

/-- All that an argument does to a program that goes on. -/
theorem feature_cases (running : s.exited = false) (alive : (addFeatureParse vsnprintf s arg).exited = false) :
    ∃ token i, featureToken arg = some token ∧ optionTokenGetNofail s.openrgConfigOptions token = some i ∧
      (s.optionAt i).has optInt = false ∧
      (exec SetCall.step s (featureCalls vsnprintf token arg)).exited = false ∧
      addFeatureParse vsnprintf s arg = pinOption (exec SetCall.step s (featureCalls vsnprintf token arg)) i := by
  unfold addFeatureParse at alive ⊢
  cases cut : strtok arg.toList with
  | none =>
    rw [cut] at alive
    cases alive
  | some p =>
    obtain ⟨name, rest⟩ := p
    simp only [cut] at alive ⊢
    cases place : optionTokenGetNofail s.openrgConfigOptions (String.ofList name) with
    | none =>
      rw [place] at alive
      cases alive
    | some i =>
      simp only [place, place_found place] at alive ⊢
      by_cases internal : (s.optionAt i).has optInt = true
      · rw [if_pos internal] at alive
        cases alive
      · simp only [if_neg internal, featureValue_eq running cut] at alive ⊢
        refine ⟨String.ofList name, i, by simp [featureToken, cut], place, by simpa using internal, ?_⟩
        split at alive
        · rename_i ended
          rw [ended] at alive
          cases alive
        · rename_i going
          exact ⟨by simpa using going, if_neg going⟩

def featureOutcome (vsnprintf : String → String) (s : CreateConfig) (opt : ConfigOption) (arg : String) :
    Option String :=
  match featureText arg with
  | none => opt.value
  | some text => if opt.setPrio ≤ .tokenSet then some (storedValue s opt (vsnprintf text)) else opt.value

theorem featureCalls_effect (place : optionTokenGetNofail s.openrgConfigOptions token = some i)
    (alive : (exec SetCall.step s (featureCalls vsnprintf token arg)).exited = false) :
    ((exec SetCall.step s (featureCalls vsnprintf token arg)).optionAt i).value =
        featureOutcome vsnprintf s (s.optionAt i) arg ∧
      ∀ j, i ≠ j → (exec SetCall.step s (featureCalls vsnprintf token arg)).optionAt j = s.optionAt j := by
  unfold featureOutcome featureCalls at *
  cases text : featureText arg with
  | none => exact ⟨rfl, fun _ _ => rfl⟩
  | some text =>
    rw [text] at alive
    simp only [Option.toList_some, List.map_cons, List.map_nil, exec_cons, exec_nil] at alive ⊢
    obtain ⟨k, named, effect⟩ := step_cases alive
    rw [place] at named
    cases named
    rcases effect with ⟨below, same⟩ | ⟨enough, same⟩
    · rw [same, if_neg (not_le.mpr below)]
      exact ⟨rfl, fun _ _ => rfl⟩
    · rw [same, if_pos enough, optionAt_setOption (place_inside place)]
      exact ⟨rfl, fun j other => optionAt_setOption_ne other _⟩

theorem pinOption_eq (inside : i < s.openrgConfigOptions.length) :
    pinOption s i = s.setOption i { s.optionAt i with setPrio := .cmdLine } := by
  unfold pinOption
  rw [List.getElem?_eq_getElem inside, optionAt_found (List.getElem?_eq_getElem inside)]

theorem place_eq {t : CreateConfig} (same : t.shape = s.shape) (token : String) :
    optionTokenGetNofail t.openrgConfigOptions token = optionTokenGetNofail s.openrgConfigOptions token := by
  rw [place_of_shape, same, ← place_of_shape]

/-! ### The arguments of a run -/

def featureStep (vsnprintf : String → String) (s : CreateConfig) (arg : String) : CreateConfig :=
  s.step vsnprintf (.feature arg)

theorem featureStep_running (running : s.exited = false) :
    featureStep vsnprintf s arg = addFeatureParse vsnprintf s arg := by
  simp [featureStep, CreateConfig.step, running]

theorem exited_featureStep (alive : (featureStep vsnprintf s arg).exited = false) : s.exited = false := by
  by_contra going
  have ended : s.exited = true := by simpa using going
  rw [featureStep, CreateConfig.step, if_pos ended] at alive
  exact going alive

theorem feature_step (alive : (featureStep vsnprintf s arg).exited = false) :
    ∃ token i, featureToken arg = some token ∧ optionTokenGetNofail s.openrgConfigOptions token = some i ∧
      (featureStep vsnprintf s arg).shape = s.shape ∧
      ((featureStep vsnprintf s arg).optionAt i).value = featureOutcome vsnprintf s (s.optionAt i) arg ∧
      ((featureStep vsnprintf s arg).optionAt i).setPrio = .cmdLine ∧
      ∀ j, i ≠ j → (featureStep vsnprintf s arg).optionAt j = s.optionAt j := by
  have running := exited_featureStep alive
  rw [featureStep_running running] at alive ⊢
  obtain ⟨token, i, named, place, _, valued, same⟩ := feature_cases running alive
  have placed := place_exec (featureCalls vsnprintf token arg) place
  have inside := place_inside placed
  obtain ⟨outcome, frame⟩ := featureCalls_effect place valued
  rw [same, pinOption_eq inside]
  refine ⟨token, i, named, place, ?_, ?_, ?_, ?_⟩
  · refine Eq.trans ?_ (shape_exec s (featureCalls vsnprintf token arg))
    exact shape_setOption (place_found placed) rfl
  · rw [optionAt_setOption inside]
    exact outcome
  · rw [optionAt_setOption inside]
  · intro j other
    rw [optionAt_setOption_ne other]
    exact frame j other

theorem guarded_features {args : List String} (finished : (exec (featureStep vsnprintf) s args).exited = false) :
    s.exited = false ∧
      Guarded (featureStep vsnprintf) (fun t arg => (featureStep vsnprintf t arg).exited = false) s args :=
  guarded_of_last (P := fun t : CreateConfig => t.exited = false) (fun _ _ => exited_featureStep) finished

theorem features_before {before after : List String}
    (finished : (exec (featureStep vsnprintf) s (before ++ after)).exited = false) :
    (exec (featureStep vsnprintf) s before).exited = false := by
  rw [exec_append] at finished
  exact (guarded_features finished).1

theorem shape_features {args : List String} (finished : (exec (featureStep vsnprintf) s args).exited = false) :
    (exec (featureStep vsnprintf) s args).shape = s.shape := by
  have preserved : ∀ (t : CreateConfig) (arg : String), t.shape = s.shape →
      (featureStep vsnprintf t arg).exited = false → (featureStep vsnprintf t arg).shape = s.shape := by
    intro t arg same alive
    obtain ⟨_, _, _, _, shape, _⟩ := feature_step alive
    exact shape.trans same
  have kept := guarded_invariant preserved rfl (guarded_features finished).2
  exact kept

theorem features_other {args : List String} (place : optionTokenGetNofail s.openrgConfigOptions token = some i)
    (finished : (exec (featureStep vsnprintf) s args).exited = false)
    (others : ∀ arg ∈ args, featureToken arg ≠ some token) :
    (exec (featureStep vsnprintf) s args).optionAt i = s.optionAt i := by
  induction args generalizing s with
  | nil => rfl
  | cons arg rest ih =>
    have alive : (featureStep vsnprintf s arg).exited = false := (guarded_features finished).2.1
    obtain ⟨name, j, named, found, shape, _, _, frame⟩ := feature_step alive
    have apart : j ≠ i := by
      rintro rfl
      have same : name = token := (place_token found).symm.trans (place_token place)
      exact others arg List.mem_cons_self (same ▸ named)
    rw [exec_cons, ih ((place_eq shape token).trans place) finished
      fun arg' member => others arg' (List.mem_cons_of_mem _ member)]
    exact frame i apart

theorem features_pinned {args : List String} (place : optionTokenGetNofail s.openrgConfigOptions token = some i)
    (finished : (exec (featureStep vsnprintf) s args).exited = false) (pinned : (s.optionAt i).setPrio = .cmdLine) :
    ((exec (featureStep vsnprintf) s args).optionAt i).value = (s.optionAt i).value ∧
      ((exec (featureStep vsnprintf) s args).optionAt i).setPrio = .cmdLine := by
  induction args generalizing s with
  | nil => exact ⟨rfl, pinned⟩
  | cons arg rest ih =>
    have alive : (featureStep vsnprintf s arg).exited = false := (guarded_features finished).2.1
    obtain ⟨name, j, named, found, shape, valued, pinned', frame⟩ := feature_step alive
    have kept : ((featureStep vsnprintf s arg).optionAt i).value = (s.optionAt i).value ∧
        ((featureStep vsnprintf s arg).optionAt i).setPrio = .cmdLine := by
      by_cases own : j = i
      · subst own
        refine ⟨?_, pinned'⟩
        rw [valued, featureOutcome]
        split
        · rfl
        · rw [if_neg (by rw [pinned]; decide)]
      · rw [frame i own]
        exact ⟨rfl, pinned⟩
    obtain ⟨value, prio⟩ := ih ((place_eq shape token).trans place) finished kept.2
    exact ⟨value.trans kept.1, prio⟩

/-- The first argument for an option decides its value. -/
theorem features_first {before after : List String} (place : optionTokenGetNofail s.openrgConfigOptions token = some i)
    (finished : (exec (featureStep vsnprintf) s (before ++ arg :: after)).exited = false)
    (others : ∀ b ∈ before, featureToken b ≠ some token) (own : featureToken arg = some token) :
    ((exec (featureStep vsnprintf) s (before ++ arg :: after)).optionAt i).value =
      featureOutcome vsnprintf (exec (featureStep vsnprintf) s before) (s.optionAt i) arg ∧
    ((exec (featureStep vsnprintf) s (before ++ arg :: after)).optionAt i).setPrio = .cmdLine := by
  have early := features_before finished
  rw [exec_append, exec_cons] at finished ⊢
  have alive := (guarded_features finished).1
  have placed := (place_eq (shape_features early) token).trans place
  obtain ⟨name, j, named, found, shape, valued, pinned, _⟩ := feature_step alive
  have same : name = token := Option.some.inj (named.symm.trans own)
  rw [same, placed] at found
  cases found
  obtain ⟨value, prio⟩ := features_pinned ((place_eq shape token).trans placed) finished pinned
  rw [value, valued, features_other place early others]
  exact ⟨rfl, prio⟩

/-! ### Arguments that do not end the program -/

/-- The argument names an option that is not internal, and its text is short enough and no module that stops
`_token_set`. -/
def Accepted (vsnprintf : String → String) (s : CreateConfig) (arg : String) : Prop :=
  ∃ token i, featureToken arg = some token ∧ optionTokenGetNofail s.openrgConfigOptions token = some i ∧
    (s.optionAt i).has optInt = false ∧ ∀ text, featureText arg = some text →
      (vsnprintf text).utf8ByteSize ≤ 4094 ∧
        ¬((s.optionAt i).setPrio ≤ .tokenSet ∧ vsnprintf text = "m" ∧ Stopped s (s.optionAt i))

theorem featureCalls_alive_iff (running : s.exited = false)
    (place : optionTokenGetNofail s.openrgConfigOptions token = some i) :
    (exec SetCall.step s (featureCalls vsnprintf token arg)).exited = false ↔
      ∀ text, featureText arg = some text → (vsnprintf text).utf8ByteSize ≤ 4094 ∧
        ¬((s.optionAt i).setPrio ≤ .tokenSet ∧ vsnprintf text = "m" ∧ Stopped s (s.optionAt i)) := by
  unfold featureCalls
  cases found : featureText arg with
  | none => simp [running]
  | some text =>
    have same : SetCall.step s ⟨"create_config.c", 100, .tokenSet, token, vsnprintf text⟩ =
        tokenSet s "create_config.c" 100 .tokenSet token (vsnprintf text) := by
      simp [SetCall.step, running]
    simp only [Option.toList_some, List.map_cons, List.map_nil, exec_cons, exec_nil, same]
    rw [← Bool.not_eq_true, tokenSet_exited_iff running place (place_found place), not_or, not_lt]
    constructor
    · rintro alive other equal
      cases equal
      exact alive
    · intro alive
      exact alive text rfl

theorem feature_alive_iff (running : s.exited = false) :
    (featureStep vsnprintf s arg).exited = false ↔ Accepted vsnprintf s arg := by
  rw [featureStep_running running]
  constructor
  · intro alive
    obtain ⟨token, i, named, place, external, valued, _⟩ := feature_cases running alive
    exact ⟨token, i, named, place, external, (featureCalls_alive_iff running place).mp valued⟩
  · rintro ⟨token, i, named, place, external, accepted⟩
    have valued := (featureCalls_alive_iff running place).mpr accepted
    unfold addFeatureParse
    cases cut : strtok arg.toList with
    | none =>
      rw [featureToken, cut] at named
      cases named
    | some p =>
      obtain ⟨name, rest⟩ := p
      rw [featureToken, cut] at named
      cases named
      simp only [place, place_found place, external, Bool.false_eq_true, if_false]
      rw [featureValue_eq running cut, if_neg (by rw [valued]; decide)]
      have placed := place_exec (featureCalls vsnprintf (String.ofList name) arg) place
      rw [pinOption_eq (place_inside placed), setOption_exited, valued]

theorem features_alive_iff {args : List String} (running : s.exited = false) :
    (exec (featureStep vsnprintf) s args).exited = false ↔
      Guarded (featureStep vsnprintf) (Accepted vsnprintf) s args := by
  have agree : ∀ (t : CreateConfig) (arg : String), t.exited = false →
      ((featureStep vsnprintf t arg).exited = false ↔ Accepted vsnprintf t arg) :=
    fun _ _ going => feature_alive_iff going
  have preserved : ∀ (t : CreateConfig) (arg : String), t.exited = false →
      (featureStep vsnprintf t arg).exited = false → (featureStep vsnprintf t arg).exited = false :=
    fun _ _ _ alive => alive
  rw [← guarded_congr agree preserved running]
  constructor
  · intro finished
    exact (guarded_features finished).2
  · intro guarded
    have last := guarded_invariant preserved running guarded
    exact last

/-! ### The value of the last argument -/

/-- After the arguments the option has the value `value`, from the command line. -/
def ValueGiven (vsnprintf : String → String) (s : CreateConfig) (i : Nat) (value : String) (args : List String) : Prop :=
  (exec (featureStep vsnprintf) s args).exited = false ∧
    ((exec (featureStep vsnprintf) s args).optionAt i).value = some value ∧
    ((exec (featureStep vsnprintf) s args).optionAt i).setPrio = .cmdLine

/-- The first argument for the option gives it the value `value`, or has no text and the option has that value. -/
def FirstGives (vsnprintf : String → String) (s : CreateConfig) (token : String) (i : Nat) (value : String)
    (args : List String) : Prop :=
  ∃ before arg after, args = before ++ arg :: after ∧ (∀ b ∈ before, featureToken b ≠ some token) ∧
    featureToken arg = some token ∧
    match featureText arg with
    | none => (s.optionAt i).value = some value
    | some text => storedValue (exec (featureStep vsnprintf) s before) (s.optionAt i) (vsnprintf text) = value

theorem exists_first {P : String → Prop} [DecidablePred P] {args : List String} (some_one : ∃ arg ∈ args, P arg) :
    ∃ before arg after, args = before ++ arg :: after ∧ (∀ b ∈ before, ¬P b) ∧ P arg := by
  have isFound : (args.find? fun arg => decide (P arg)).isSome = true := by simpa using some_one
  obtain ⟨arg, found⟩ := Option.isSome_iff_exists.mp isFound
  obtain ⟨kind, before, after, split, others⟩ := List.find?_eq_some_iff_append.mp found
  exact ⟨before, arg, after, split, by simpa using others, of_decide_eq_true kind⟩

theorem featureOutcome_eq_iff {t : CreateConfig} {opt : ConfigOption} (unpinned : opt.setPrio ≤ .tokenSet)
    (value : String) :
    featureOutcome vsnprintf t opt arg = some value ↔
      match featureText arg with
      | none => opt.value = some value
      | some text => storedValue t opt (vsnprintf text) = value := by
  unfold featureOutcome
  cases featureText arg with
  | none => exact Iff.rfl
  | some text =>
    simp only [if_pos unpinned, Option.some.injEq]

/-- The value of an argument `token=value` arrives exactly when every argument is accepted and the first argument for
the option leaves that value. -/
theorem feature_value_iff (vsnprintf : String → String) {s : CreateConfig} {token value : String} {i : Nat}
    {args : List String} (running : s.exited = false) (named : token ≠ "" ∧ '=' ∉ token.toList)
    (place : optionTokenGetNofail s.openrgConfigOptions token = some i)
    (unpinned : (s.optionAt i).setPrio ≤ .tokenSet) (given : token ++ "=" ++ value ∈ args) :
    ValueGiven vsnprintf s i value args ↔
      (∀ before arg after, args = before ++ arg :: after →
        Accepted vsnprintf (exec (featureStep vsnprintf) s before) arg) ∧
      FirstGives vsnprintf s token i value args := by
  rw [← guarded_iff, ← features_alive_iff running, ValueGiven]
  refine and_congr_right fun finished => ?_
  constructor
  · rintro ⟨valued, _⟩
    obtain ⟨before, arg, after, rfl, others, own⟩ :=
      exists_first (P := fun arg => featureToken arg = some token) ⟨_, given, featureToken_given named value⟩
    rw [(features_first place finished others own).1] at valued
    exact ⟨before, arg, after, rfl, others, own, (featureOutcome_eq_iff unpinned value).mp valued⟩
  · rintro ⟨before, arg, after, rfl, others, own, gives⟩
    obtain ⟨valued, pinned⟩ := features_first place finished others own
    exact ⟨valued.trans ((featureOutcome_eq_iff unpinned value).mpr gives), pinned⟩

def stringTable : CreateConfig :=
  .start [{ token := "CONFIG_X", value := none, type := 0x1400, file := none, line := 0, setPrio := .unset }]

def twoOptions : CreateConfig :=
  .start [{ token := "CONFIG_X", value := none, type := 0x1400, file := none, line := 0, setPrio := .unset },
    { token := "CONFIG_Y", value := none, type := 0x1400, file := none, line := 0, setPrio := .unset }]

/-- Two arguments for `CONFIG_X`, the first of which counts. -/
def someArguments : List String := ["CONFIG_Y=b", "CONFIG_X=a", "CONFIG_X=c"]

theorem feature_value_iff_plain : ValueGiven id twoOptions 0 "a" someArguments ∧
    (∀ before arg after, someArguments = before ++ arg :: after →
      Accepted id (exec (featureStep id) twoOptions before) arg) ∧
    FirstGives id twoOptions "CONFIG_X" 0 "a" someArguments := by
  have valued : ValueGiven id twoOptions 0 "a" someArguments := ⟨by decide, by decide, by decide⟩
  exact ⟨valued, (feature_value_iff id rfl (by decide) (by decide) (by decide) (by decide)).mp valued⟩

/-- What follows a second `=` is lost. -/
theorem feature_value_cut : ¬ ∀ (base : List ConfigOption) (token value : String) (i : Nat) (before after : List String),
    (token ≠ "" ∧ '=' ∉ token.toList) →
    optionTokenGetNofail (CreateConfig.start base).openrgConfigOptions token = some i →
    ((CreateConfig.start base).optionAt i).has optInt = false → ((CreateConfig.start base).optionAt i).setPrio ≤ .init →
    value.length ≤ 4094 → value ≠ "m" → (∀ arg ∈ after, ¬(token ++ "=").toList <+: arg.toList) →
    (exec (featureStep id) (.start base) (before ++ (token ++ "=" ++ value) :: after)).exited = false →
    ValueGiven id (.start base) i value (before ++ (token ++ "=" ++ value) :: after) := by
  intro given
  obtain ⟨_, valued, _⟩ := given stringTable.base "CONFIG_X" "a=b" 0 [] [] (by decide) (by decide) (by decide)
    (by decide) (by decide) (by decide) (by simp) (by decide)
  exact absurd valued (by decide)

end TwinpassGateway.Build
