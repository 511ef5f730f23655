import TwinpassGateway.Build.ConfigOptions

/-!
Options set from the command line. Every call respects their priority except the jpkg merge, which
looks at the value alone.
-/

namespace TwinpassGateway.Build

open Foundation

variable {s : CreateConfig}

/-- An option that is replaced by another one keeps what the command line has set, and stays set. -/
structure Replaces (o o' : ConfigOption) : Prop where
  pinned : o.setPrio = .cmdLine → o'.value = o.value ∧ o'.setPrio = .cmdLine
  valued : o.value.isSome = true → o'.value.isSome = true

theorem Replaces.refl (o : ConfigOption) : Replaces o o := ⟨fun h => ⟨rfl, h⟩, fun h => h⟩

theorem Replaces.trans {o o' o'' : ConfigOption} (first : Replaces o o') (second : Replaces o' o'') :
    Replaces o o'' := by
  refine ⟨fun pinned => ?_, fun valued => second.valued (first.valued valued)⟩
  obtain ⟨value, prio⟩ := first.pinned pinned
  obtain ⟨value', prio'⟩ := second.pinned prio
  exact ⟨value'.trans value, prio'⟩

/-- Every option of a table is replaced by one that `Replaces` allows. -/
def Respects (xs ys : List ConfigOption) : Prop :=
  ∀ (i : Nat) (o : ConfigOption), xs[i]? = some o → ∃ o', ys[i]? = some o' ∧ Replaces o o'

theorem Respects.refl (xs : List ConfigOption) : Respects xs xs := fun _ o found => ⟨o, found, Replaces.refl o⟩

theorem Respects.trans {xs ys zs : List ConfigOption} (first : Respects xs ys) (second : Respects ys zs) :
    Respects xs zs := by
  intro i o found
  obtain ⟨o', found', replaces⟩ := first i o found
  obtain ⟨o'', found'', replaces'⟩ := second i o' found'
  exact ⟨o'', found'', replaces.trans replaces'⟩

theorem respects_set {xs : List ConfigOption} {i : Nat} {o o' : ConfigOption} (found : xs[i]? = some o)
    (replaces : Replaces o o') : Respects xs (xs.set i o') := by
  intro j p place
  by_cases own : i = j
  · subst own
    rw [found] at place
    cases place
    have inside : i < xs.length := (List.getElem?_eq_some_iff.mp found).1
    exact ⟨o', by simp [inside], replaces⟩
  · exact ⟨p, by rw [List.getElem?_set_ne own, place], Replaces.refl p⟩

theorem respects_setOption {i : Nat} {o o' : ConfigOption} (found : s.openrgConfigOptions[i]? = some o)
    (replaces : Replaces o o') : Respects s.options (s.setOption i o').options := by
  unfold CreateConfig.openrgConfigOptions at found
  unfold CreateConfig.setOption
  cases current : s.current with
  | none =>
    rw [current] at found
    exact respects_set found replaces
  | some k => exact Respects.refl _

/-! ### Setting options -/

theorem respects_tokenSetOption (file : String) (line : Nat) {prio : SetPrio} (weak : prio ≠ .cmdLine) {i : Nat}
    {o : ConfigOption} (found : s.openrgConfigOptions[i]? = some o) (value : String) :
    Respects s.options (tokenSetOption s file line prio i o value).options := by
  have store : ∀ v, ¬prio.rank < o.setPrio.rank →
      Respects s.options (s.setOption i { o with file := some file, line, value := some v, setPrio := prio }).options := by
    intro v allowed
    refine respects_setOption found ⟨fun pinned => ?_, fun _ => rfl⟩
    rw [pinned] at allowed
    cases prio <;> first | exact absurd rfl weak | exact absurd (by decide) allowed
  unfold tokenSetOption
  split
  · exact Respects.refl _
  · rename_i allowed
    split
    · split
      · exact Respects.refl _
      · split
        · split
          · exact Respects.refl _
          · exact store _ allowed
        · exact store _ allowed
    · exact store _ allowed

theorem respects_tokenSet (s : CreateConfig) (file : String) (line : Nat) {prio : SetPrio} (weak : prio ≠ .cmdLine)
    (token value : String) : Respects s.options (tokenSet s file line prio token value).options := by
  unfold tokenSet
  split
  · exact Respects.refl _
  · split
    · exact Respects.refl _
    · split
      · exact Respects.refl _
      · rename_i found
        exact respects_tokenSetOption file line weak found value

theorem respects_tokenSetM (s : CreateConfig) (file : String) (line : Nat) (token : String) :
    Respects s.options (tokenSetM s file line token).options := by
  unfold tokenSetM
  split
  · exact Respects.refl _
  · exact respects_tokenSet s file line (by decide) token _

theorem respects_pinOption (s : CreateConfig) (i : Nat) : Respects s.options (pinOption s i).options := by
  unfold pinOption
  split
  · exact Respects.refl _
  · rename_i o found
    exact respects_setOption found ⟨fun _ => ⟨rfl, rfl⟩, fun h => h⟩

theorem respects_featureValue (vsnprintf : String → String) (s : CreateConfig) (token : String) (rest : List Char) :
    Respects s.options (featureValue vsnprintf s token rest).options := by
  unfold featureValue
  split
  · exact Respects.refl _
  · exact respects_tokenSet s _ _ (by decide) _ _

theorem respects_addFeatureParse (vsnprintf : String → String) (s : CreateConfig) (arg : String) :
    Respects s.options (addFeatureParse vsnprintf s arg).options := by
  unfold addFeatureParse
  split
  · exact Respects.refl _
  · split
    · exact Respects.refl _
    · split
      · exact Respects.refl _
      · split
        · exact Respects.refl _
        · -- the value comes first, with the priority of `token_set`; then the priority is raised
          have valued := respects_featureValue vsnprintf s
          dsimp only
          split
          · exact valued _ _
          · exact (valued _ _).trans (respects_pinOption _ _)

/-! ### The jpkg merge -/

/-- No option of the main table that the command line has left without a value has one in a jpkg
table. -/
def CreateConfig.MergeSafe (s : CreateConfig) : Prop :=
  ∀ (i : Nat) (o : ConfigOption), s.options[i]? = some o → o.setPrio = .cmdLine → o.value = none →
    ∀ p ∈ s.jpkgDists, ∀ q : ConfigOption, p.options[i]? = some q → q.value = none

theorem mergeOption_of_value {dists : List JpkgDist} {i : Nat} {o : ConfigOption} (valued : o.value.isSome = true) :
    mergeOption dists i o = o := by simp [mergeOption, valued]

theorem mergeFrom_isSome {i : Nat} {o : ConfigOption} (p : JpkgDist) (valued : o.value.isSome = true) :
    (mergeFrom i o p).value.isSome = true := by
  unfold mergeFrom
  split
  · exact valued
  · split
    · assumption
    · exact valued

theorem foldl_mergeFrom_isSome {i : Nat} {o : ConfigOption} (dists : List JpkgDist) (valued : o.value.isSome = true) :
    (dists.foldl (mergeFrom i) o).value.isSome = true := by
  induction dists generalizing o with
  | nil => exact valued
  | cons p rest ih => exact ih (mergeFrom_isSome p valued)

theorem mergeOption_of_none {dists : List JpkgDist} {i : Nat} {o : ConfigOption}
    (unset : ∀ p ∈ dists, ∀ q : ConfigOption, p.options[i]? = some q → q.value = none) : mergeOption dists i o = o := by
  unfold mergeOption
  split
  · rfl
  · induction dists with
    | nil => rfl
    | cons p rest ih =>
      have skip : mergeFrom i o p = o := by
        unfold mergeFrom
        split
        · rfl
        · rename_i q found
          simp [unset p List.mem_cons_self q found]
      rw [List.foldl_cons, skip]
      exact ih fun p' member => unset p' (List.mem_cons_of_mem _ member)

theorem mergeOption_isSome {dists : List JpkgDist} {i : Nat} (o : ConfigOption) {p : JpkgDist} {q : ConfigOption}
    (member : p ∈ dists) (found : p.options[i]? = some q) (valued : q.value.isSome = true) :
    (mergeOption dists i o).value.isSome = true := by
  unfold mergeOption
  split
  · assumption
  · obtain ⟨before, after, rfl⟩ := List.append_of_mem member
    rw [List.foldl_append, List.foldl_cons]
    apply foldl_mergeFrom_isSome
    simp [mergeFrom, found, valued]

theorem respects_jpkgMerge (safe : s.MergeSafe) : Respects s.options (jpkgMerge s).options := by
  intro i o found
  refine ⟨mergeOption s.jpkgDists i o, by simp [jpkgMerge, found], ?_⟩
  by_cases valued : o.value.isSome = true
  · rw [mergeOption_of_value valued]
    exact Replaces.refl o
  · refine ⟨fun pinned => ?_, fun h => absurd h valued⟩
    rw [mergeOption_of_none (safe i o found pinned (by simpa using valued))]
    exact ⟨rfl, pinned⟩

/-! ### Runs -/

/-- Once an option of the main table has been set from the command line it keeps its value to the end
of the run. -/
def PriorityKept (vsnprintf : String → String) (base : List ConfigOption) (events : List ConfigEvent) : Prop :=
  ∀ done rest, events = done ++ rest → ∀ (i : Nat) (o : ConfigOption),
    (exec (CreateConfig.step vsnprintf) (.start base) done).options[i]? = some o → o.setPrio = .cmdLine →
    ∃ o', (exec (CreateConfig.step vsnprintf) (.start base) events).options[i]? = some o' ∧ o'.value = o.value

theorem respects_step (vsnprintf : String → String) (e : ConfigEvent)
    (safe : e = .jpkgMerge → s.exited = true ∨ s.MergeSafe) : Respects s.options (s.step vsnprintf e).options := by
  unfold CreateConfig.step
  split
  · exact Respects.refl _
  · rename_i running
    cases e with
    | feature arg => exact respects_addFeatureParse vsnprintf s arg
    | tokenSet file line token value => exact respects_tokenSet s file line (by decide) token value
    | tokenSetDefault file line token value => exact respects_tokenSet s file line (by decide) token value
    | tokenSetM file line token => exact respects_tokenSetM s file line token
    | jpkgDistAdd dist => exact Respects.refl _
    | jpkgNext k => exact Respects.refl _
    | jpkgMerge => exact respects_jpkgMerge ((safe rfl).resolve_left running)

theorem valued_step (vsnprintf : String → String) (e : ConfigEvent) {i : Nat} {o : ConfigOption}
    (found : s.options[i]? = some o) (valued : o.value.isSome = true) :
    ∃ o', (s.step vsnprintf e).options[i]? = some o' ∧ o'.value.isSome = true := by
  by_cases merge : e = .jpkgMerge
  · subst merge
    unfold CreateConfig.step
    split
    · exact ⟨o, found, valued⟩
    · exact ⟨o, by simp [jpkgMerge, found, mergeOption_of_value valued], valued⟩
  · obtain ⟨o', found', replaces⟩ := respects_step vsnprintf e (fun same => absurd same merge) i o found
    exact ⟨o', found', replaces.valued valued⟩

theorem valued_exec (vsnprintf : String → String) (events : List ConfigEvent) {i : Nat} {o : ConfigOption}
    (found : s.options[i]? = some o) (valued : o.value.isSome = true) :
    ∃ o', (exec (CreateConfig.step vsnprintf) s events).options[i]? = some o' ∧ o'.value.isSome = true := by
  induction events generalizing s o with
  | nil => exact ⟨o, found, valued⟩
  | cons e rest ih =>
    obtain ⟨o', found', valued'⟩ := valued_step vsnprintf e found valued
    exact ih found' valued'

theorem respects_exec (vsnprintf : String → String) (events : List ConfigEvent)
    (safe : ∀ done rest, events = done ++ .jpkgMerge :: rest →
      (exec (CreateConfig.step vsnprintf) s done).exited = true ∨ (exec (CreateConfig.step vsnprintf) s done).MergeSafe) :
    Respects s.options (exec (CreateConfig.step vsnprintf) s events).options := by
  induction events generalizing s with
  | nil => exact Respects.refl _
  | cons e rest ih =>
    have first : Respects s.options (s.step vsnprintf e).options :=
      respects_step vsnprintf e fun same => safe [] rest (by rw [same]; rfl)
    refine first.trans (ih fun done later split => ?_)
    have whole := safe (e :: done) later (by rw [split]; rfl)
    rwa [exec_cons] at whole

/-- Options set from the command line keep their values exactly in the runs in which every jpkg merge
is safe. -/
theorem priority_kept_iff (vsnprintf : String → String) (base : List ConfigOption) (events : List ConfigEvent) :
    PriorityKept vsnprintf base events ↔ ∀ done rest, events = done ++ .jpkgMerge :: rest →
      (exec (CreateConfig.step vsnprintf) (.start base) done).exited = true ∨
      (exec (CreateConfig.step vsnprintf) (.start base) done).MergeSafe := by
  constructor
  · intro kept done rest split
    by_contra broken
    push Not at broken
    obtain ⟨running, broken⟩ := broken
    simp only [CreateConfig.MergeSafe, not_forall] at broken
    obtain ⟨i, o, found, pinned, unset, p, member, q, listed, set⟩ := broken
    -- the merge gives the option a value, and it never loses it again
    obtain ⟨o', found', same⟩ := kept done _ split i o found pinned
    have merged : ((exec (CreateConfig.step vsnprintf) (.start base) done).step vsnprintf .jpkgMerge).options[i]? =
        some (mergeOption (exec (CreateConfig.step vsnprintf) (.start base) done).jpkgDists i o) := by
      simp [CreateConfig.step, running, jpkgMerge, found]
    obtain ⟨o'', found'', valued⟩ := valued_exec vsnprintf rest merged
      (mergeOption_isSome o member listed (Option.isSome_iff_ne_none.mpr set))
    rw [split, exec_append, exec_cons, found''] at found'
    cases found'
    rw [same, unset] at valued
    exact absurd valued (by decide)
  · intro safe done rest split i o found pinned
    have later := respects_exec (s := exec (CreateConfig.step vsnprintf) (.start base) done) vsnprintf rest fun d r place => by
      rw [← exec_append]
      exact safe (done ++ d) r (by rw [split, place, List.append_assoc])
    obtain ⟨o', found', replaces⟩ := later i o found
    exact ⟨o', by rw [split, exec_append]; exact found', (replaces.pinned pinned).1⟩

/-- `-f CONFIG_X=` and a jpkg distribution that sets the option. -/
def sampleConfigRun : List ConfigEvent :=
  [.feature "CONFIG_X=", .jpkgDistAdd "JPKG", .jpkgNext 0, .tokenSet "dist_config.c" 1 "CONFIG_X" "y", .jpkgMerge]

def sampleOption : ConfigOption :=
  { token := "CONFIG_X", value := none, type := 0x100, file := none, line := 0, setPrio := .unset }

/-- The jpkg merge overrides an option that the command line has set to no value. -/
theorem priority_lost_at_merge : ¬PriorityKept id [sampleOption] sampleConfigRun := by
  intro kept
  have pinned : (exec (CreateConfig.step id) (.start [sampleOption]) [.feature "CONFIG_X="]).options =
      [{ sampleOption with setPrio := .cmdLine }] := by decide
  have merged : ((exec (CreateConfig.step id) (.start [sampleOption]) sampleConfigRun).options[0]?).map
      (·.value) = some (some "y") := by decide
  obtain ⟨o', found, same⟩ := kept [.feature "CONFIG_X="] _ rfl 0 _ (by rw [pinned]; rfl) rfl
  rw [found, Option.map_some, same] at merged
  exact absurd merged (by decide)

end TwinpassGateway.Build
