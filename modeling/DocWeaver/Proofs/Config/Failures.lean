import DocWeaver.Proofs.Config.Entries

/-!
How making settings fails.

Settings are made from a settings file's mapping, the environment and overrides, and every step
that refuses them (a document that is no mapping, a bad action input or repository slug, a value
the validator refuses) refuses with a configuration error. Other failures come only from the shape
of the file's data: the file's entries are passed on by name, so a key that is not text fails as
the interpreter fails on it, and so does a `generation` entry that is no mapping, or a
`repository` entry that counts as true and is none.

`Configured P x` says that `x` gives a value satisfying `P` or fails with a configuration error;
its rules `Configured.pure`, `.configuration` and `.bind` carry it through the code. Whatever the
loader and validators (`SettingsReaders`), when the loader raises only its own errors and every
settings file is of the shape the code needs (`wellShaped`), loading the file and making the
settings fails only with configuration errors (`settings_fail_only_as_configuration`). A `generation` entry that is a number fails with a
`TypeError` (`number_generation_entry_escapes`).
-/

namespace DocWeaver.Config

open Value

variable {α β : Type}

def textKeyed (es : List (Value × Value)) : Bool := es.all fun kv => kv.1.str?.isSome

/-- Settings of the shape the code needs to pass them on by name: keys that are text, a
`generation` entry (when there is one) that is a mapping with text keys, and a `repository` entry
(when there is one) that is such a mapping or counts as false. -/
def wellShaped (es : List (Value × Value)) : Bool :=
  textKeyed es &&
    (match lookupName es "generation" with
      | some (.map fs) => textKeyed fs
      | some _ => false
      | none => true) &&
    (match lookupName es "repository" with
      | some (.map fs) => textKeyed fs
      | some v => !v.truthy
      | none => true)

theorem textKeys_of_textKeyed {es : List (Value × Value)} (h : textKeyed es) : TextKeys es := by
  intro kv hkv
  have hsome := List.all_eq_true.1 h kv hkv
  cases hk : kv.1 with
  | str k => exact ⟨k, rfl⟩
  | _ => simp [hk, str?] at hsome

/-- A result that is a value satisfying `P`, or a configuration error. -/
def Configured (P : α → Prop) : Except ConfigError α → Prop
  | .ok a => P a
  | .error e => ∃ message, e = .configuration message

namespace Configured

variable {P : α → Prop} {Q : β → Prop}

theorem pure {a : α} (h : P a) : Configured P (Pure.pure a : Except ConfigError α) := h

theorem configuration (message : String) :
    Configured P (throw (.configuration message) : Except ConfigError α) := ⟨message, rfl⟩

theorem bind {x : Except ConfigError α} {f : α → Except ConfigError β} (hx : Configured P x)
    (hf : ∀ a, P a → Configured Q (f a)) : Configured Q (x >>= f) := by
  cases x with
  | error e => exact hx
  | ok a => exact hf a hx

theorem map {x : Except ConfigError α} {f : α → β} (hx : Configured P x) (hf : ∀ a, P a → Q (f a)) :
    Configured Q (f <$> x) := by
  cases x with
  | error e => exact hx
  | ok a => exact hf a hx

theorem mono {x : Except ConfigError α} {P' : α → Prop} (hx : Configured P x) (h : ∀ a, P a → P' a) :
    Configured P' x := by
  cases x with
  | error e => exact hx
  | ok a => exact h a hx

end Configured

theorem configured_keywords {es : List (Value × Value)} (h : TextKeys es) :
    Configured (fun _ => True) (keywords es) := by
  obtain ⟨fs, hfs, -⟩ := keywords_of_textKeys h
  rw [hfs]
  trivial

theorem configured_updatePairs_map {fs : List (Value × Value)} (h : TextKeys fs) :
    Configured TextKeys (updatePairs (.map fs)) := h

/-! ### The steps of making settings -/

namespace ConfigManager

variable (m : ConfigManager)

theorem configured_generationSection (h : wellShaped m.settings) :
    Configured TextKeys m.generationSection := by
  unfold wellShaped at h
  simp only [Bool.and_eq_true] at h
  obtain ⟨⟨-, hgen⟩, -⟩ := h
  unfold generationSection
  split
  · rename_i v hv
    rw [hv] at hgen
    cases v with
    | map fs => exact configured_updatePairs_map (textKeys_of_textKeyed hgen)
    | _ => cases hgen
  · exact .pure fun _ h => absurd h List.not_mem_nil

theorem configured_generationConfig (h : wellShaped m.settings) (overrides : List (String × Value)) :
    Configured (fun _ => True) (m.generationConfig overrides) := by
  unfold generationConfig
  extract_lets base
  have hbase : TextKeys base := fun kv hkv => ⟨"api_key", by rw [List.mem_singleton.1 hkv]⟩
  refine .bind (configured_generationSection m h) fun fromFile hfile => ?_
  refine .bind (configured_keywords ((hbase.updateWith hfile).updateNamed overrides)) fun _ _ => ?_
  split
  · trivial
  · exact .configuration _

theorem configured_repositorySection (h : wellShaped m.settings) :
    Configured TextKeys m.repositorySection := by
  unfold wellShaped at h
  simp only [Bool.and_eq_true] at h
  obtain ⟨-, hrepo⟩ := h
  unfold repositorySection
  extract_lets given
  split
  · rename_i htrue
    -- the section is copied as a mapping would be, so a key given twice keeps its last value
    refine .map ?_ fun pairs hpairs => TextKeys.updateWith (fun _ h => absurd h List.not_mem_nil) hpairs
    cases hv : lookupName m.settings "repository" with
    | none => simp only [given, hv, Option.getD_none] at htrue; cases htrue
    | some v =>
      simp only [given, hv, Option.getD_some] at hrepo htrue ⊢
      cases v with
      | map fs => exact configured_updatePairs_map (textKeys_of_textKeyed hrepo)
      | _ => simp_all
  · exact .pure fun _ h => absurd h List.not_mem_nil

theorem configured_slugEntries : Configured (fun _ => True) m.slugEntries := by
  unfold slugEntries
  split
  · split
    · extract_lets name
      split
      · exact ⟨_, rfl⟩
      · trivial
    · exact ⟨_, rfl⟩
  · trivial

theorem configured_repository (h : wellShaped m.settings) :
    Configured (fun r => ∀ es, r = some es → TextKeys es) m.repository := by
  unfold repository
  refine .bind (configured_repositorySection m h) fun given hgiven => ?_
  refine .bind (configured_slugEntries m) fun slug _ => ?_
  extract_lets repo
  split
  · exact .pure fun _ hnone => by cases hnone
  · exact .pure fun es hes => by cases hes; exact (hgiven.updateNamed _).updateNamed _

theorem configured_repositorySettings (h : wellShaped m.settings) :
    Configured (fun _ => True) m.repositorySettings := by
  unfold repositorySettings
  refine .bind (configured_repository m h) fun r hr => ?_
  cases r with
  | some entries =>
    refine .bind (configured_keywords (hr entries rfl)) fun fs _ => ?_
    split
    · trivial
    · exact .configuration _
  | none => trivial

theorem configured_config (h : wellShaped m.settings) (root : String)
    (overrides generationOverrides : List (String × Value)) :
    Configured (fun _ => True) (m.config root overrides generationOverrides) := by
  have hkeys : TextKeys m.settings := by
    unfold wellShaped at h
    simp only [Bool.and_eq_true] at h
    exact textKeys_of_textKeyed h.1.1
  have hinputs : Configured (fun _ => True) (m.environment.mapError .configuration) := by
    cases m.environment with
    | ok _ => trivial
    | error e => exact ⟨e, rfl⟩
  unfold config
  refine .bind hinputs fun inputs _ => ?_
  refine .bind (configured_generationConfig m h _) fun generation _ => ?_
  refine .bind (configured_repositorySettings m h) fun repo _ => ?_
  have hentries : TextKeys (m.runEntries inputs overrides) :=
    ((hkeys.filter _).updateNamed inputs).updateNamed _
  refine .bind (configured_keywords hentries) fun fs _ => ?_
  split
  · trivial
  · exact .configuration _

theorem readSettings_configured (loadYaml : String → Except Yaml.LoadError Value)
    (path content : String) (hyaml : ∀ message, loadYaml content ≠ .error (.value message)) :
    Configured (fun es => es = [] ∨ loadYaml content = .ok (.map es))
      (readSettings loadYaml path content) := by
  unfold readSettings
  split
  · exact .configuration _
  · rename_i message hload
    exact absurd hload (hyaml message)
  · rename_i es hload
    exact .inr hload
  · split
    · exact .configuration _
    · exact .inl rfl

theorem load_configured (readers : SettingsReaders) (explicit : Option String)
    (defaults : List String) (files : String → Option String) (environ : List (String × String))
    (hyaml : ∀ p c, files p = some c → ∀ message, readers.loadYaml c ≠ .error (.value message))
    (hshape : ∀ p c es, files p = some c → readers.loadYaml c = .ok (.map es) → wellShaped es) :
    Configured (fun m => wellShaped m.settings) (load readers explicit defaults files environ) := by
  have hread : ∀ p c, files p = some c →
      Configured (fun m : ConfigManager => wellShaped m.settings)
        (readSettings readers.loadYaml p c >>= fun es => Pure.pure ⟨some p, es, environ, readers⟩) :=
    fun p c hc => .bind (readSettings_configured readers.loadYaml p c (hyaml p c hc)) fun es hes => by
      rcases hes with rfl | hload
      · rfl
      · exact hshape p c es hc hload
  unfold load
  split
  · rename_i p
    split
    · exact .configuration _
    · rename_i c hc
      exact hread p c hc
  · split
    · rename_i p hfound
      have hsome : (files p).isSome := List.find?_some (p := fun p => (files p).isSome) hfound
      obtain ⟨c, hc⟩ := Option.isSome_iff_exists.1 hsome
      rw [hc]
      exact hread p c hc
    · rfl

end ConfigManager

/-- Making settings fails only with configuration errors, when the loader raises only its own
errors and every settings file is of the shape the code needs (`wellShaped`): loading the file
and making the run settings, or only the generation settings, either gives settings or fails with
a configuration error. -/
theorem settings_fail_only_as_configuration (readers : SettingsReaders) (explicit : Option String)
    (defaults : List String) (files : String → Option String) (environ : List (String × String))
    (root : String) (overrides generationOverrides : List (String × Value))
    (hyaml : ∀ p c, files p = some c → ∀ message, readers.loadYaml c ≠ .error (.value message))
    (hshape : ∀ p c es, files p = some c → readers.loadYaml c = .ok (.map es) → wellShaped es) :
    Configured (fun _ => True) (ConfigManager.load readers explicit defaults files environ >>=
        fun m => m.config root overrides generationOverrides) ∧
      Configured (fun _ => True) (ConfigManager.load readers explicit defaults files environ >>=
        fun m => m.generationConfig generationOverrides) :=
  ⟨.bind (ConfigManager.load_configured readers explicit defaults files environ hyaml hshape)
      fun m hm => m.configured_config hm root overrides generationOverrides,
    .bind (ConfigManager.load_configured readers explicit defaults files environ hyaml hshape)
      fun m hm => m.configured_generationConfig hm generationOverrides⟩

def settingsTextOk (c : String) : Bool :=
  match Yaml.load c with
  | .ok (.map es) => wellShaped es
  | .ok _ | .error (.invalid _) => true
  | .error (.value _) => false

theorem settingsTextOk_sound {c : String} (h : settingsTextOk c) :
    (∀ message, Yaml.load c ≠ .error (.value message)) ∧
      ∀ es, Yaml.load c = .ok (.map es) → wellShaped es := by
  unfold settingsTextOk at h
  refine ⟨fun message hload => ?_, fun es hload => ?_⟩
  · rw [hload] at h
    cases h
  · rw [hload] at h
    exact h

/-- A settings file with a `generation` section: its settings fail only with configuration
errors. -/
theorem generation_section_fails_only_as_configuration :
    let files : String → Option String := fun p =>
      if p = "config.yaml" then some "generation:\n  max_concurrency: 8\n" else none
    (∀ p c, files p = some c → ∀ message, Yaml.load c ≠ .error (.value message)) ∧
      (∀ p c es, files p = some c → Yaml.load c = .ok (.map es) → wellShaped es) ∧
      Configured (fun _ => True) (ConfigManager.load {} (some "config.yaml") [] files [] >>= fun m =>
        m.config "/repo" [] []) ∧
      Configured (fun _ => True) (ConfigManager.load {} (some "config.yaml") [] files [] >>= fun m =>
        m.generationConfig []) := by
  intro files
  have hok : ∀ p c, files p = some c → settingsTextOk c := by
    intro p c hc
    simp only [files] at hc
    split at hc
    · rw [← Option.some.inj hc]
      decide +kernel
    · cases hc
  have hyaml : ∀ p c, files p = some c → ∀ message, Yaml.load c ≠ .error (.value message) :=
    fun p c hc => (settingsTextOk_sound (hok p c hc)).1
  have hshape : ∀ p c es, files p = some c → Yaml.load c = .ok (.map es) → wellShaped es :=
    fun p c es hc => (settingsTextOk_sound (hok p c hc)).2 es
  exact ⟨hyaml, hshape,
    settings_fail_only_as_configuration {} (some "config.yaml") [] files [] "/repo" [] [] hyaml hshape⟩

theorem eq_failure_of_check {r : Except ConfigError α} {kind message : String}
    (h : (match r with
      | .error (.failure k m) => k == kind && m == message
      | _ => false) = true) :
    r = .error (.failure kind message) := by
  rcases r with (_ | ⟨k, m⟩) | _
  · cases h
  · simp only [Bool.and_eq_true, beq_iff_eq] at h
    rw [h.1, h.2]
  · cases h

/-- A `generation` entry that is a number: making the settings fails with a `TypeError`, where a
configuration error was due. -/
theorem number_generation_entry_escapes :
    (ConfigManager.load {} (some "config.yaml") [] (fun _ => some "generation: 5\n") [] >>= fun m =>
      m.config "/repo" [] []) = .error (.failure "TypeError" "'int' object is not iterable") :=
  eq_failure_of_check (by decide +kernel)

end DocWeaver.Config
