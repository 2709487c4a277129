import DocWeaver.Proofs.Config.Entries
import Mathlib

/-!
Settings in layers, by precedence.

A run setting comes from the first layer that gives it: the overrides that are not `null`, then
the action inputs of the environment, then the settings file; a setting no layer gives takes its
default. A generation setting comes from the generation overrides, then the API key of the
environment, then the file's `generation` section; a repository setting from the slug and token
of the environment, then the file's `repository` section. A layer given as a list of named values
counts its last value for a name, so it is looked up reversed.

Settings are made by updating entries in place, so a name reads the value of the latest update
that gives it (`lookupName_updateNamed`). Validators that read each field by its name alone
(`SettingsReaders.ReadsByName`, as the default ones do by `autodocConfig_congr` and its kin) then
put the layers in order. Two inputs break the
order. The API key of the environment is written first, so the file's section overrides it; and
the pull request number is read whenever its variable is set, so a blank one clears the file's.
-/

namespace DocWeaver.Validate

open DocWeaver.Config

section Congruence

variable {fs fs' : List (String × Value)}

theorem field_congr (h : ∀ k, fs.lookup k = fs'.lookup k) {α : Type} (k : String)
    (check : Value → Checked α) (d : α) : field fs k check d = field fs' k check d := by
  unfold field
  rw [h k]

theorem field_optional_congr {k : String}
    (h : (fs.lookup k).getD .null = (fs'.lookup k).getD .null) {α : Type} (check : Value → Checked α) :
    field fs k (optional check) none = field fs' k (optional check) none := by
  unfold field
  cases h₁ : fs.lookup k <;> cases h₂ : fs'.lookup k <;>
    simp only [h₁, h₂, Option.getD_none, Option.getD_some] at h
  · rfl
  all_goals subst h; rfl

theorem autodocConfig_congr (h : ∀ k, fs.lookup k = fs'.lookup k) (root : String)
    (generation : GenerationConfig) (repository : Option RepositoryConfig) :
    autodocConfig fs root generation repository = autodocConfig fs' root generation repository := by
  unfold autodocConfig
  simp only [field_congr h]

theorem repositoryConfig_congr (h : ∀ k, fs.lookup k = fs'.lookup k) :
    repositoryConfig fs = repositoryConfig fs' := by
  unfold repositoryConfig required
  simp only [field_congr h, h]

theorem generationConfig_congr (h : ∀ k, k ≠ "api_key" → fs.lookup k = fs'.lookup k)
    (hkey : (fs.lookup "api_key").getD .null = (fs'.lookup "api_key").getD .null) :
    generationConfig fs = generationConfig fs' := by
  have hfield : ∀ {α : Type} (k : String) (check : Value → Checked α) (d : α), k ≠ "api_key" →
      field fs k check d = field fs' k check d := by
    intro α k check d hk
    unfold field
    rw [h k hk]
  unfold generationConfig
  simp (disch := decide) only [hfield, field_optional_congr hkey]

end Congruence

theorem autodocConfig_parts {fs : List (String × Value)} {root : String} {generation : GenerationConfig}
    {repository : Option RepositoryConfig} {c : AutodocConfig}
    (h : autodocConfig fs root generation repository = .ok c) :
    c.generation = generation ∧ c.repository = repository := by
  unfold autodocConfig at h
  extract_lets at h
  split at h
  · cases h
  · cases h
    exact ⟨rfl, rfl⟩

theorem autodocConfig_pullNumber {fs : List (String × Value)} {root : String}
    {generation : GenerationConfig} {repository : Option RepositoryConfig} {c : AutodocConfig}
    (h : autodocConfig fs root generation repository = .ok c) :
    c.pullNumber = getD (field fs "pull_number" (optional asInt) none) none := by
  unfold autodocConfig at h
  extract_lets at h
  split at h
  · cases h
  · cases h
    rfl

end DocWeaver.Validate

namespace DocWeaver.Config

open Value

/-- Validators that read each field by its name alone: the run validator gives the same for named
values that look every name up alike, and keeps the generation and repository settings it is
given; so does the repository validator; and so does the generation validator, which reads the
API key alike when it is `null` and when it is absent. -/
structure SettingsReaders.ReadsByName (r : SettingsReaders) : Prop where
  run : ∀ {fs fs' : List (String × Value)}, (∀ k, fs.lookup k = fs'.lookup k) →
    ∀ root generation repository,
      r.run fs root generation repository = r.run fs' root generation repository
  run_parts : ∀ {fs root generation repository c}, r.run fs root generation repository = .ok c →
    c.generation = generation ∧ c.repository = repository
  repository : ∀ {fs fs' : List (String × Value)}, (∀ k, fs.lookup k = fs'.lookup k) →
    r.repository fs = r.repository fs'
  generation : ∀ {fs fs' : List (String × Value)}, (∀ k, k ≠ "api_key" → fs.lookup k = fs'.lookup k) →
    (fs.lookup "api_key").getD .null = (fs'.lookup "api_key").getD .null →
      r.generation fs = r.generation fs'

theorem SettingsReaders.readsByName_default : ({} : SettingsReaders).ReadsByName where
  run h := Validate.autodocConfig_congr h
  run_parts h := Validate.autodocConfig_parts h
  repository h := Validate.repositoryConfig_congr h
  generation h hkey := Validate.generationConfig_congr h hkey

theorem except_bind_eq_ok {ε α β : Type} {x : Except ε α} {f : α → Except ε β} {b : β} :
    x >>= f = .ok b ↔ ∃ a, x = .ok a ∧ f a = .ok b := by
  cases x <;> simp [bind, Except.bind]

theorem filterMapM_congr_of_mem {m : Type → Type} [Monad m] [LawfulMonad m] {α β : Type}
    {l : List α} {f g : α → m (Option β)} (h : ∀ a ∈ l, f a = g a) :
    l.filterMapM f = l.filterMapM g := by
  induction l with
  | nil => rfl
  | cons a l ih =>
    rw [List.filterMapM_cons, List.filterMapM_cons, h a List.mem_cons_self,
      ih fun b hb => h b (List.mem_cons_of_mem a hb)]

theorem lookup_eq_none_iff_not_mem {fs : List (String × Value)} {k : String} :
    fs.lookup k = none ↔ k ∉ fs.map Prod.fst := by
  rw [List.lookup_eq_none_iff]
  constructor
  · intro h hk
    obtain ⟨p, hp, rfl⟩ := List.mem_map.1 hk
    exact bne_iff_ne.1 (h p hp) rfl
  · intro h p hp
    refine bne_iff_ne.2 fun hk => h ?_
    rw [hk]
    exact List.mem_map_of_mem hp

theorem lookup_reverse_of_nodup {fs : List (String × Value)} (h : (fs.map Prod.fst).Nodup)
    (n : String) : fs.reverse.lookup n = fs.lookup n := by
  induction fs with
  | nil => rfl
  | cons f fs ih =>
    rw [List.map_cons, List.nodup_cons] at h
    rw [List.reverse_cons, List.lookup_append, ih h.2, List.lookup_cons, List.lookup_cons,
      List.lookup_nil]
    by_cases hf : n = f.1
    · subst hf
      rw [lookup_eq_none_iff_not_mem.2 h.1]
      simp
    · rw [beq_false_of_ne hf]
      cases fs.lookup n <;> rfl

theorem lookupName_reverse_eq_none {es : List (Value × Value)} {n : String}
    (h : lookupName es n = none) : lookupName es.reverse n = none := by
  rw [← lookup_textEntries] at h ⊢
  rw [textEntries, List.filterMap_reverse, lookup_eq_none_iff_not_mem, List.map_reverse,
    List.mem_reverse]
  exact lookup_eq_none_iff_not_mem.1 h

/-! ### Action inputs -/

theorem reading_ne_pullNumber_of_mem :
    ∀ i ∈ actionInputs, i.reading ≠ .pullNumber ∨ i.var = "INPUT_PULL_NUMBER" := by
  decide

theorem actionInputs_fields_nodup : (actionInputs.map (·.field)).Nodup := by
  decide

theorem ConfigManager.envSet_eq_env (m : ConfigManager) {k : String} (h : m.env k ≠ some "") :
    m.envSet k = m.env k := by
  unfold envSet
  cases he : m.env k with
  | none => rfl
  | some v =>
    have hv : v.isEmpty = false :=
      Bool.eq_false_iff.2 fun hv => h (by rw [he, String.isEmpty_iff.1 hv])
    simp [hv]

theorem ConfigManager.inputText_eq_envSet (m : ConfigManager) (i : ActionInput)
    (h : i.reading ≠ .pullNumber ∨ m.env i.var ≠ some "") : m.inputText i = m.envSet i.var := by
  unfold ConfigManager.inputText
  cases hr : i.reading with
  | pullNumber => exact (m.envSet_eq_env (h.resolve_left fun hne => hne hr)).symm
  | text | list | flag => rfl

/-- Inputs with distinct settings supply each of them as its text reads, if its text is given,
and nothing else, once each. -/
theorem lookup_filterMapM_supply (given : ActionInput → Option String) {l : List ActionInput}
    {vs : List (String × Value)} (hl : (l.map (·.field)).Nodup)
    (h : l.filterMapM (fun i => i.supply (given i)) = .ok vs) :
    (∀ i ∈ l, vs.lookup i.field = (given i).bind fun v => (i.reading.read i.var v).toOption) ∧
    (∀ k, k ∉ l.map (·.field) → vs.lookup k = none) ∧ (vs.map Prod.fst).Nodup := by
  induction l generalizing vs with
  | nil =>
    cases h
    exact ⟨fun _ hi => absurd hi List.not_mem_nil, fun _ _ => rfl, List.nodup_nil⟩
  | cons j l ih =>
    rw [List.map_cons, List.nodup_cons] at hl
    obtain ⟨hj, hl⟩ := hl
    rw [List.filterMapM_cons] at h
    obtain ⟨o, ho, h⟩ := except_bind_eq_ok.1 h
    cases hg : given j with
    | none =>
      rw [hg, ActionInput.supply] at ho
      cases ho
      obtain ⟨hmem, hout, hnodup⟩ := ih hl h
      refine ⟨fun i hi => ?_, fun k hk => hout k fun hk' => hk (List.mem_cons_of_mem _ hk'), hnodup⟩
      rcases List.mem_cons.1 hi with rfl | hi
      · rw [hg]
        exact hout _ hj
      · exact hmem i hi
    | some v =>
      cases hread : j.reading.read j.var v with
      | error e =>
        rw [hg, ActionInput.supply, hread] at ho
        cases ho
      | ok x =>
        rw [hg, ActionInput.supply, hread] at ho
        cases ho
        obtain ⟨rest, hrest, hvs⟩ := except_bind_eq_ok.1 h
        cases hvs
        obtain ⟨hmem, hout, hnodup⟩ := ih hl hrest
        refine ⟨fun i hi => ?_, fun k hk => ?_, ?_⟩
        · rcases List.mem_cons.1 hi with rfl | hi
          · simp [hg, hread, Except.toOption]
          · have hne : i.field ≠ j.field := fun heq => hj (heq ▸ List.mem_map_of_mem hi)
            rw [List.lookup_cons, beq_false_of_ne hne]
            exact hmem i hi
        · have hne : k ≠ j.field := fun heq => hk (heq ▸ List.mem_cons_self)
          rw [List.lookup_cons, beq_false_of_ne hne]
          exact hout k fun hk' => hk (List.mem_cons_of_mem _ hk')
        · rw [List.map_cons, List.nodup_cons]
          exact ⟨lookup_eq_none_iff_not_mem.1 (hout _ hj), hnodup⟩

def ConfigManager.suppliedInputs (m : ConfigManager) : Except String (List (String × Value)) :=
  readInputs fun i => m.envSet i.var

theorem ConfigManager.environment_eq_suppliedInputs (m : ConfigManager)
    (hpull : m.env "INPUT_PULL_NUMBER" ≠ some "") : m.environment = m.suppliedInputs := by
  unfold ConfigManager.environment ConfigManager.suppliedInputs readInputs
  refine filterMapM_congr_of_mem fun i hi => ?_
  rw [m.inputText_eq_envSet i ?_]
  rcases reading_ne_pullNumber_of_mem i hi with hr | hvar
  · exact .inl hr
  · exact .inr (hvar ▸ hpull)

theorem lookup_readInputs {given : ActionInput → Option String} {vs : List (String × Value)}
    (h : readInputs given = .ok vs) :
    (∀ i ∈ actionInputs, vs.lookup i.field = (given i).bind fun v => (i.reading.read i.var v).toOption) ∧
    (∀ k, k ∉ actionInputs.map (·.field) → vs.lookup k = none) ∧ (vs.map Prod.fst).Nodup :=
  lookup_filterMapM_supply given actionInputs_fields_nodup h

/-! ### The layers -/

def RepositoryFrom (validate : List (String × Value) → Validate.Checked RepositoryConfig)
    (fs : List (String × Value)) : Option RepositoryConfig → Prop
  | none => fs.lookup "owner" = none ∨ fs.lookup "name" = none
  | some r => (fs.lookup "owner").isSome ∧ (fs.lookup "name").isSome ∧ validate fs = .ok r

namespace ConfigManager

variable (m : ConfigManager)

def apiKeyInput : List (String × Value) :=
  match m.envSet "ANTHROPIC_API_KEY" with
  | some k => [("api_key", .str k)]
  | none => []

theorem lookupName_runEntries (inputs overrides : List (String × Value)) (k : String) :
    lookupName (m.runEntries inputs overrides) k =
      (((overrides.filter fun o => !o.2.isNull).reverse.lookup k).or
        ((inputs.reverse.lookup k).or (lookupName m.fileEntries k))) := by
  unfold runEntries
  rw [lookupName_updateNamed, lookupName_updateNamed]

theorem config_eq_ok {root : String} {overrides generationOverrides : List (String × Value)}
    {c : AutodocConfig} (h : m.config root overrides generationOverrides = .ok c) :
    ∃ inputs fs generation repo, m.environment = .ok inputs ∧
      m.generationConfig generationOverrides = .ok generation ∧
      m.repositorySettings = .ok repo ∧ keywords (m.runEntries inputs overrides) = .ok fs ∧
      m.readers.run fs root generation repo = .ok c := by
  unfold config at h
  obtain ⟨inputs, hinputs, h⟩ := except_bind_eq_ok.1 h
  obtain ⟨generation, hgeneration, h⟩ := except_bind_eq_ok.1 h
  obtain ⟨repo, hrepo, h⟩ := except_bind_eq_ok.1 h
  obtain ⟨fs, hfs, h⟩ := except_bind_eq_ok.1 h
  have hvalid : m.readers.run fs root generation repo = .ok c := by
    split at h
    · rename_i c' hc'
      cases h
      exact hc'
    · cases h
  have henv : m.environment = .ok inputs := by
    cases he : m.environment with
    | error e => rw [he] at hinputs; cases hinputs
    | ok vs => rw [he] at hinputs; cases hinputs; rfl
  exact ⟨inputs, fs, generation, repo, henv, hgeneration, hrepo, hfs, hvalid⟩

theorem lookup_apiKeyInput_of_ne {k : String} (hk : k ≠ "api_key") : m.apiKeyInput.lookup k = none := by
  unfold apiKeyInput
  split
  · rw [List.lookup_cons, beq_false_of_ne hk]
    rfl
  · rfl

theorem generationConfig_eq_ok {overrides : List (String × Value)} {g : GenerationConfig}
    (h : m.generationConfig overrides = .ok g) :
    ∃ gs fs, m.generationSection = .ok gs ∧ m.readers.generation fs = .ok g ∧
      ∀ k, fs.lookup k = (overrides.reverse.lookup k).or
        ((lookupName gs.reverse k).or (lookupName [(.str "api_key", m.apiKey)] k)) := by
  unfold generationConfig at h
  obtain ⟨gs, hgs, h⟩ := except_bind_eq_ok.1 h
  obtain ⟨fs, hfs, h⟩ := except_bind_eq_ok.1 h
  refine ⟨gs, fs, hgs, ?_, fun k => ?_⟩
  · split at h
    · rename_i g' hg'
      cases h
      exact hg'
    · cases h
  · rw [keywords_lookup hfs, lookupName_updateNamed, lookupName_updateWith]

theorem generationConfig_layers {overrides : List (String × Value)} {g : GenerationConfig}
    (hreaders : m.readers.ReadsByName) (hkey : m.env "ANTHROPIC_API_KEY" ≠ some "")
    (hfileKey : ∀ gs, m.generationSection = .ok gs → (m.env "ANTHROPIC_API_KEY").isSome →
      lookupName gs "api_key" = none)
    (h : m.generationConfig overrides = .ok g) :
    ∃ gs, m.generationSection = .ok gs ∧
      m.readers.generation (overrides.reverse ++ m.apiKeyInput ++ textEntries gs.reverse) = .ok g := by
  obtain ⟨gs, fs, hgs, hvalid, hfs⟩ := m.generationConfig_eq_ok h
  refine ⟨gs, hgs, ?_⟩
  rw [← hvalid]
  have hstack : ∀ k, (overrides.reverse ++ m.apiKeyInput ++ textEntries gs.reverse).lookup k =
      (overrides.reverse.lookup k).or ((m.apiKeyInput.lookup k).or (lookupName gs.reverse k)) := by
    intro k
    rw [List.lookup_append, List.lookup_append, lookup_textEntries, Option.or_assoc]
  apply hreaders.generation
  · -- a field other than the API key: the environment gives none
    intro k hk
    have hbase : lookupName [(.str "api_key", m.apiKey)] k = none := by
      rw [lookupName_singleton, if_neg]
      exact fun h => hk (Option.some.inj h).symm
    rw [hstack, hfs, lookup_apiKeyInput_of_ne m hk, hbase, Option.none_or, Option.or_none]
  · -- the API key: from the environment when set, where the file's section has none
    have hset := m.envSet_eq_env hkey
    rw [hstack, hfs, lookupName_singleton, if_pos (show (str "api_key").str? = some "api_key" from rfl)]
    unfold apiKeyInput apiKey
    rw [hset]
    cases he : m.env "ANTHROPIC_API_KEY" with
    | none =>
      cases overrides.reverse.lookup "api_key" <;> cases lookupName gs.reverse "api_key" <;> rfl
    | some key =>
      have hfile : lookupName gs.reverse "api_key" = none :=
        lookupName_reverse_eq_none (hfileKey gs hgs (by rw [he]; rfl))
      rw [hfile]
      rfl

/-- Repository settings follow their layers: the environment's slug and token, then the file's
section; there are none unless owner and name are both known. -/
theorem repositorySettings_from {repo : Option RepositoryConfig} (hreaders : m.readers.ReadsByName)
    (h : m.repositorySettings = .ok repo) :
    ∃ given slug, m.repositorySection = .ok given ∧ m.slugEntries = .ok slug ∧
      RepositoryFrom m.readers.repository ((slug ++ m.tokenEntries).reverse ++ textEntries given)
        repo := by
  unfold repositorySettings at h
  obtain ⟨ro, hro, h⟩ := except_bind_eq_ok.1 h
  unfold repository at hro
  obtain ⟨given, hgiven, hro⟩ := except_bind_eq_ok.1 hro
  obtain ⟨slug, hslug, hro⟩ := except_bind_eq_ok.1 hro
  refine ⟨given, slug, hgiven, hslug, ?_⟩
  have hstack : ∀ k, ((slug ++ m.tokenEntries).reverse ++ textEntries given).lookup k =
      lookupName (updateNamed (updateNamed given slug) m.tokenEntries) k := by
    intro k
    rw [List.lookup_append, List.reverse_append, List.lookup_append, lookup_textEntries,
      Option.or_assoc, lookupName_updateNamed, lookupName_updateNamed]
  extract_lets entries at hro
  split at hro
  · -- owner or name unknown
    rename_i hunknown
    cases hro
    cases h
    simp only [Bool.or_eq_true, Option.isNone_iff_eq_none] at hunknown
    rw [RepositoryFrom, hstack, hstack]
    exact hunknown
  · -- both known: the entries are validated
    rename_i hknown
    cases hro
    obtain ⟨fs, hfs, h⟩ := except_bind_eq_ok.1 h
    simp only [Bool.or_eq_true, Option.isNone_iff_eq_none, not_or] at hknown
    split at h
    · rename_i rc hrc
      cases h
      refine ⟨?_, ?_, ?_⟩
      · rw [hstack, Option.isSome_iff_ne_none]
        exact hknown.1
      · rw [hstack, Option.isSome_iff_ne_none]
        exact hknown.2
      · have hsame : ∀ k, ((slug ++ m.tokenEntries).reverse ++ textEntries given).lookup k =
            fs.lookup k := fun k => by rw [hstack, keywords_lookup hfs]
        rw [hreaders.repository hsame]
        exact hrc
    · cases h

end ConfigManager

/-- Run settings `c` follow the layers of the loaded settings `m` by precedence: a run setting
comes from the overrides that are not `null`, then the action inputs that are set and not empty,
then the settings file; a generation setting from the generation overrides, then the
environment's API key, then the file's section; a repository setting from the environment's slug
and token, then the file's section; a setting no layer gives takes its default. -/
def FollowsLayers (m : ConfigManager) (root : String)
    (overrides generationOverrides : List (String × Value)) (c : AutodocConfig) : Prop :=
  ∃ inputs gs given slug, m.suppliedInputs = .ok inputs ∧
    (∀ i ∈ actionInputs,
      inputs.lookup i.field = (m.envSet i.var).bind fun v => (i.reading.read i.var v).toOption) ∧
    m.readers.run ((overrides.filter fun o => !o.2.isNull).reverse ++ inputs ++
      textEntries m.fileEntries) root c.generation c.repository = .ok c ∧
    m.generationSection = .ok gs ∧
    m.readers.generation (generationOverrides.reverse ++ m.apiKeyInput ++
      textEntries gs.reverse) = .ok c.generation ∧
    m.repositorySection = .ok given ∧ m.slugEntries = .ok slug ∧
    RepositoryFrom m.readers.repository ((slug ++ m.tokenEntries).reverse ++ textEntries given)
      c.repository

/-- Settings, whenever they are made by validators that read each field by its name, follow their
layers, unless the pull request number input is blank or the API key of the environment is empty
or meets one in the file's section. -/
theorem config_follows_layer_precedence (m : ConfigManager) (root : String)
    (overrides generationOverrides : List (String × Value)) (c : AutodocConfig)
    (hreaders : m.readers.ReadsByName) (hpull : m.env "INPUT_PULL_NUMBER" ≠ some "")
    (hkey : m.env "ANTHROPIC_API_KEY" ≠ some "")
    (hfileKey : ∀ gs, m.generationSection = .ok gs → (m.env "ANTHROPIC_API_KEY").isSome →
      lookupName gs "api_key" = none)
    (h : m.config root overrides generationOverrides = .ok c) :
    FollowsLayers m root overrides generationOverrides c := by
  obtain ⟨inputs, fs, generation, repo, henv, hgen, hrepo, hfs, hvalid⟩ := m.config_eq_ok h
  obtain ⟨rfl, rfl⟩ := hreaders.run_parts hvalid
  have hsupplied : m.suppliedInputs = .ok inputs := m.environment_eq_suppliedInputs hpull ▸ henv
  obtain ⟨hinputs, -, hnodup⟩ := lookup_readInputs hsupplied
  obtain ⟨gs, hgs, hgeneration⟩ := m.generationConfig_layers hreaders hkey hfileKey hgen
  obtain ⟨given, slug, hgiven, hslug, hrepository⟩ := m.repositorySettings_from hreaders hrepo
  refine ⟨inputs, gs, given, slug, hsupplied, hinputs, ?_, hgs, hgeneration, hgiven, hslug,
    hrepository⟩
  -- the run entries read each name from the highest layer that gives it
  rw [← hvalid]
  refine hreaders.run (fun k => ?_) _ _ _
  rw [List.lookup_append, List.lookup_append, lookup_textEntries, keywords_lookup hfs,
    m.lookupName_runEntries, lookup_reverse_of_nodup hnodup, Option.or_assoc]

/-- The branch of the action input over the file's, the reviewers of the overrides, the file's
generation model with the environment's API key and the override's token limit, and the file's
repository with the environment's token. -/
theorem input_branch_and_environment_key_take_precedence :
    let m : ConfigManager := ⟨some "config.yaml",
      [(.str "branch", .str "main"), (.str "reviewers", .seq [.str "a"]),
        (.str "generation", .map [(.str "model", .str "m1")]),
        (.str "repository", .map [(.str "owner", .str "o"), (.str "name", .str "n")])],
      [("ANTHROPIC_API_KEY", "env-key"), ("INPUT_BRANCH", "dev"), ("GITHUB_ACCESS_TOKEN", "tok")], {}⟩
    let overrides : List (String × Value) := [("reviewers", .seq [.str "b"])]
    let generationOverrides : List (String × Value) := [("max_tokens", .int 64)]
    let c : AutodocConfig :=
      { rootPath := "/repo", branch := "dev", reviewers := ["b"],
        generation := { apiKey := some "env-key", model := "m1", maxTokens := 64 },
        repository := some { owner := "o", name := "n", token := some "tok" } }
    (m.readers.ReadsByName ∧ m.env "INPUT_PULL_NUMBER" ≠ some "" ∧ m.env "ANTHROPIC_API_KEY" ≠ some "" ∧
      (∀ gs, m.generationSection = .ok gs → (m.env "ANTHROPIC_API_KEY").isSome →
        lookupName gs "api_key" = none) ∧
      m.config "/repo" overrides generationOverrides = .ok c) ∧
    FollowsLayers m "/repo" overrides generationOverrides c := by
  intro m overrides generationOverrides c
  have hpull : m.env "INPUT_PULL_NUMBER" ≠ some "" := by
    rw [show m.env "INPUT_PULL_NUMBER" = none from rfl]
    simp
  have hkey : m.env "ANTHROPIC_API_KEY" ≠ some "" := by
    rw [show m.env "ANTHROPIC_API_KEY" = some "env-key" from rfl]
    simp
  have hfileKey : ∀ gs, m.generationSection = .ok gs → (m.env "ANTHROPIC_API_KEY").isSome →
      lookupName gs "api_key" = none := by
    intro gs hgs _
    have hsection : m.generationSection = .ok [(.str "model", .str "m1")] := rfl
    rw [hsection] at hgs
    cases hgs
    rfl
  have h : m.config "/repo" overrides generationOverrides = .ok c := rfl
  have hreaders : m.readers.ReadsByName := SettingsReaders.readsByName_default
  exact ⟨⟨hreaders, hpull, hkey, hfileKey, h⟩,
    config_follows_layer_precedence m "/repo" overrides generationOverrides c hreaders hpull hkey
      hfileKey h⟩

theorem blank_pull_number_input_clears_pull_number (m : ConfigManager) (root : String)
    (overrides generationOverrides : List (String × Value)) (c : AutodocConfig)
    (hrun : m.readers.run = Validate.autodocConfig) (hblank : m.env "INPUT_PULL_NUMBER" = some "")
    (hoverride : ∀ o ∈ overrides, o.1 = "pull_number" → o.2.isNull)
    (h : m.config root overrides generationOverrides = .ok c) : c.pullNumber = none := by
  obtain ⟨inputs, fs, generation, repo, henv, -, -, hfs, hvalid⟩ := m.config_eq_ok h
  rw [hrun] at hvalid
  obtain ⟨hinputs, -, hnodup⟩ := lookup_readInputs henv
  have hinput : inputs.lookup "pull_number" = some .null := by
    rw [hinputs ⟨"pull_number", "INPUT_PULL_NUMBER", .pullNumber⟩ (by decide)]
    simp only [ConfigManager.inputText, hblank]
    rfl
  have hoverrides : (overrides.filter fun o => !o.2.isNull).reverse.lookup "pull_number" = none := by
    rw [lookup_eq_none_iff_not_mem, List.map_reverse, List.mem_reverse]
    intro hmem
    obtain ⟨o, ho, hname⟩ := List.mem_map.1 hmem
    rw [List.mem_filter] at ho
    rw [hoverride o ho.1 hname] at ho
    cases ho.2
  have hfield : fs.lookup "pull_number" = some .null := by
    rw [keywords_lookup hfs, m.lookupName_runEntries, hoverrides, Option.none_or,
      lookup_reverse_of_nodup hnodup, hinput]
    rfl
  rw [Validate.autodocConfig_pullNumber hvalid]
  unfold Validate.field
  rw [hfield]
  rfl

/-- Two inputs out of their layer: the API key of the file's section wins over the environment's,
and a blank pull request number input clears the file's number. -/
theorem environment_inputs_break_precedence :
    ((ConfigManager.load {} (some "config.yaml") [] (fun _ => some "generation:\n  api_key: file-key\n")
        [("ANTHROPIC_API_KEY", "env-key")] >>= fun m => m.generationConfig []).toOption.map
          (·.apiKey)) = some (some "file-key") ∧
    ((ConfigManager.load {} (some "config.yaml") [] (fun _ => some "pull_number: 5\n")
        [("INPUT_PULL_NUMBER", "")] >>= fun m => m.config "/repo" [] []).toOption.map
          (·.pullNumber)) = some none := by
  constructor <;> decide +kernel

end DocWeaver.Config
