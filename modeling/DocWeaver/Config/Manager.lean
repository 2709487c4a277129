import DocWeaver.Config.Yaml
import DocWeaver.Config.Validate

/-!
Settings in layers: the settings file, then the action inputs of the environment, then explicit
overrides.

The settings file is the one given, or the first of the default locations that exists. Its
`generation` and `repository` sections feed the generation and repository settings; the
environment supplies the API key, the repository slug and token, and `INPUT_*` inputs for the
scan. Errors are configuration errors with a message.
-/

namespace DocWeaver.Config

open DocWeaver.Validate

def splitList (v : String) : List String :=
  ((v.splitOn ",").map Text.strip).filter (· != "")

def upperForFlag (s : String) : String :=
  String.ofList (s.toList.map fun c =>
    if c == 'ſ' then 'S' else if c == 'ı' then 'I' else c.toUpper)

def parseFlag (name value : String) : Except String Bool :=
  let w := upperForFlag (Text.strip value)
  if w == "T" || w == "TRUE" then .ok true
  else if w == "F" || w == "FALSE" then .ok false
  else .error (name ++ " must be 'T' or 'F', got '" ++ value ++ "'")

def parsePullNumber (value : String) : Except String (Option Int) :=
  if (Text.strip value).isEmpty then .ok none
  else match Text.readInt? value with
    | some n => .ok (some n)
    | none => .error ("INPUT_PULL_NUMBER must be an integer, got '" ++ value ++ "'")

/-- Why settings cannot be made. -/
inductive ConfigError where
  | configuration (message : String)
  | failure (kind message : String)
  deriving Inhabited

/-- What settings are read with: a YAML loader for the settings file, and validators that make
the generation, repository and run settings from named values, or count their errors. -/
structure SettingsReaders where
  loadYaml : String → Except Yaml.LoadError Value := Yaml.load
  generation : List (String × Value) → Checked GenerationConfig := Validate.generationConfig
  repository : List (String × Value) → Checked RepositoryConfig := Validate.repositoryConfig
  run : List (String × Value) → String → GenerationConfig → Option RepositoryConfig →
    Checked AutodocConfig := Validate.autodocConfig

def readSettings (loadYaml : String → Except Yaml.LoadError Value) (path content : String) :
    Except ConfigError (List (Value × Value)) :=
  match loadYaml content with
  | .error (.invalid e) => .error (.configuration ("Invalid YAML in " ++ path ++ ": " ++ e.describe path))
  | .error (.value e) => .error (.failure "ValueError" e)
  | .ok (.map es) => .ok es
  | .ok v =>
    if v.truthy then .error (.configuration s!"Config file {path} must contain a mapping")
    else .ok []

/-- The pairs a value adds when a mapping is updated with it. A mapping adds its entries. A list
adds one pair per item: a text of two characters, a list of two items whose first is not a
collection, or a mapping of two keys; text adds one pair per character, so only empty text is
accepted. Anything else fails as the update fails. -/
def updatePairs (v : Value) : Except ConfigError (List (Value × Value)) :=
  let lengthError (i n : Nat) : ConfigError := .failure "ValueError"
    ("dictionary update sequence element #" ++ toString i ++ " has length " ++ toString n ++ "; 2 is required")
  let pairOf (x : Value) (i : Nat) : Except ConfigError (Value × Value) :=
    match x with
    | .str s => match s.toList with
      | [a, b] => .ok (.str (String.singleton a), .str (String.singleton b))
      | cs => .error (lengthError i cs.length)
    | .seq [k, w] =>
      if Yaml.isCollection k then .error (.failure "TypeError" ("unhashable type: '" ++ k.typeName ++ "'"))
      else .ok (k, w)
    | .seq ys => .error (lengthError i ys.length)
    | .map [(k₁, _), (k₂, _)] => .ok (k₁, k₂)
    | .map es => .error (lengthError i es.length)
    | _ => .error (.failure "TypeError"
      ("cannot convert dictionary update sequence element #" ++ toString i ++ " to a sequence"))
  match v with
  | .map es => .ok es
  | .str s => if s.isEmpty then .ok [] else .error (lengthError 0 1)
  | .seq xs => xs.zipIdx.mapM fun (x, i) => pairOf x i
  | other => .error (.failure "TypeError" ("'" ++ other.typeName ++ "' object is not iterable"))

def keywords (es : List (Value × Value)) : Except ConfigError (List (String × Value)) :=
  match Value.named? es with
  | some fs => .ok fs
  | none => .error (.failure "TypeError" "keywords must be strings")

def updateWith (es more : List (Value × Value)) : List (Value × Value) :=
  more.foldl (fun acc (k, v) => Value.insert acc k v) es

def updateNamed (es : List (Value × Value)) (more : List (String × Value)) : List (Value × Value) :=
  updateWith es (more.map fun (k, v) => (.str k, v))

def update (fs more : List (String × Value)) : List (String × Value) :=
  more.foldl (fun acc (k, v) =>
    if acc.any (·.1 == k) then acc.map fun (k', v') => if k' == k then (k', v) else (k', v')
    else acc ++ [(k, v)]) fs

/-- How the text of an action input reads as a setting. -/
inductive InputReading where
  | text
  | list
  | flag
  | pullNumber
  deriving DecidableEq

def InputReading.read (var v : String) : InputReading → Except String Value
  | .text => .ok (.str v)
  | .list => .ok (.seq ((splitList v).map .str))
  | .flag => (parseFlag var v).map .bool
  | .pullNumber => (parsePullNumber v).map fun
    | some k => .int k
    | none => .null

/-- An action input: the setting it gives, its environment variable and how its text reads. -/
structure ActionInput where
  field : String
  var : String
  reading : InputReading
  deriving DecidableEq

def actionInputs : List ActionInput := [
  ⟨"root_directory", "INPUT_ROOT_DIRECTORY", .text⟩,
  ⟨"excluded_directories", "INPUT_EXCLUDED_DIRECTORIES", .list⟩,
  ⟨"excluded_files", "INPUT_EXCLUDED_FILES", .list⟩,
  ⟨"pull_number", "INPUT_PULL_NUMBER", .pullNumber⟩,
  ⟨"generate_code_comments", "INPUT_JSDOC", .flag⟩,
  ⟨"generate_summary_doc", "INPUT_README", .flag⟩,
  ⟨"reviewers", "INPUT_REVIEWERS", .list⟩,
  ⟨"branch", "INPUT_BRANCH", .text⟩]

def ActionInput.supply (i : ActionInput) : Option String → Except String (Option (String × Value))
  | some v => (i.reading.read i.var v).map fun x => some (i.field, x)
  | none => pure none

def readInputs (given : ActionInput → Option String) : Except String (List (String × Value)) :=
  actionInputs.filterMapM fun i => i.supply (given i)

/-- Loaded settings: the settings file's mapping and its path, the environment, and what the
settings are read with. -/
structure ConfigManager where
  path : Option String
  settings : List (Value × Value)
  environ : List (String × String)
  readers : SettingsReaders := {}

namespace ConfigManager

def load (readers : SettingsReaders) (explicit : Option String) (defaults : List String)
    (files : String → Option String) (environ : List (String × String)) :
    Except ConfigError ConfigManager :=
  match explicit with
  | some p =>
    match files p with
    | none => .error (.configuration s!"Config file not found: {p}")
    | some c => do pure ⟨some p, ← readSettings readers.loadYaml p c, environ, readers⟩
  | none =>
    match defaults.find? fun p => (files p).isSome with
    | some p =>
      do pure ⟨some p, ← readSettings readers.loadYaml p ((files p).getD ""), environ, readers⟩
    | none => .ok ⟨none, [], environ, readers⟩

def env (m : ConfigManager) (k : String) : Option String := m.environ.lookup k

def envSet (m : ConfigManager) (k : String) : Option String :=
  match m.env k with
  | some v => if v.isEmpty then none else some v
  | none => none

def inputText (m : ConfigManager) (i : ActionInput) : Option String :=
  match i.reading with
  | .pullNumber => m.env i.var
  | _ => m.envSet i.var

def environment (m : ConfigManager) : Except String (List (String × Value)) :=
  readInputs m.inputText

def repositorySection (m : ConfigManager) : Except ConfigError (List (Value × Value)) :=
  let given := (Value.lookupName m.settings "repository").getD .null
  if given.truthy then updateWith [] <$> updatePairs given else pure []

def slugEntries (m : ConfigManager) : Except ConfigError (List (String × Value)) :=
  match m.envSet "GITHUB_REPOSITORY" with
  | some slug =>
    match slug.splitOn "/" with
    | owner :: rest =>
      let name := "/".intercalate rest
      if owner.isEmpty || rest.isEmpty || name.isEmpty then
        .error (.configuration ("GITHUB_REPOSITORY must be 'owner/name', got '" ++ slug ++ "'"))
      else .ok [("owner", .str owner), ("name", .str name)]
    | [] => .error (.configuration ("GITHUB_REPOSITORY must be 'owner/name', got '" ++ slug ++ "'"))
  | none => .ok []

def tokenEntries (m : ConfigManager) : List (String × Value) :=
  match m.envSet "GITHUB_ACCESS_TOKEN" with
  | some token => [("token", .str token)]
  | none => []

def repository (m : ConfigManager) : Except ConfigError (Option (List (Value × Value))) := do
  let given ← m.repositorySection
  let repo := updateNamed (updateNamed given (← m.slugEntries)) m.tokenEntries
  if (Value.lookupName repo "owner").isNone || (Value.lookupName repo "name").isNone then return none
  return some repo

def generationSection (m : ConfigManager) : Except ConfigError (List (Value × Value)) :=
  match Value.lookupName m.settings "generation" with
  | some v => updatePairs v
  | none => pure []

def apiKey (m : ConfigManager) : Value :=
  match m.env "ANTHROPIC_API_KEY" with
  | some k => .str k
  | none => .null

def generationConfig (m : ConfigManager) (overrides : List (String × Value)) :
    Except ConfigError GenerationConfig := do
  let base : List (Value × Value) := [(.str "api_key", m.apiKey)]
  let fromFile ← m.generationSection
  let fields ← keywords (updateNamed (updateWith base fromFile) overrides)
  match m.readers.generation fields with
  | .ok g => pure g
  | .error n => throw (.configuration ("Invalid generation configuration: " ++ errorSummary n "GenerationConfig"))

def repositorySettings (m : ConfigManager) : Except ConfigError (Option RepositoryConfig) := do
  match ← m.repository with
  | some r => match m.readers.repository (← keywords r) with
    | .ok c => pure (some c)
    | .error n => throw (.configuration ("Invalid repository configuration: " ++ errorSummary n "RepositoryConfig"))
  | none => pure none

def fileEntries (m : ConfigManager) : List (Value × Value) :=
  m.settings.filter fun (k, _) => k.str? != some "generation" && k.str? != some "repository"

def runEntries (m : ConfigManager) (inputs overrides : List (String × Value)) : List (Value × Value) :=
  updateNamed (updateNamed m.fileEntries inputs) (overrides.filter fun (_, v) => !v.isNull)

def config (m : ConfigManager) (root : String) (overrides generationOverrides : List (String × Value)) :
    Except ConfigError AutodocConfig := do
  let inputs ← m.environment.mapError .configuration
  let generation ← m.generationConfig generationOverrides
  let repo ← m.repositorySettings
  match m.readers.run (← keywords (m.runEntries inputs overrides)) root generation repo with
  | .ok c => pure c
  | .error n => throw (.configuration ("Invalid configuration: " ++ errorSummary n "AutodocConfig"))

end ConfigManager

def defaultConfigYaml : String :=
  "root_directory: .\n" ++
  "excluded_directories:\n- node_modules\n- dist\n- build\n- .git\n- coverage\n" ++
  "excluded_files: []\n" ++
  "excluded_file_patterns:\n- '*.d.ts'\n" ++
  "generate_code_comments: true\n" ++
  "generate_summary_doc: false\n" ++
  "branch: main\n" ++
  "reviewers: []\n" ++
  "generation:\n" ++
  "  model: claude-3-5-sonnet-20241022\n" ++
  "  temperature: 0.2\n" ++
  "  max_tokens: 1024\n" ++
  "  max_concurrency: 5\n" ++
  "  max_attempts: 4\n" ++
  "  context_lines: 20\n"

end DocWeaver.Config
