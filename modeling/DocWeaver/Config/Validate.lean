import DocWeaver.Model.Config
import DocWeaver.Config.Value
import DocWeaver.Text.Numbers

/-!
Settings read from loaded values, the way a lax model validator reads them.

Integers also come from booleans, integral floats and numeric strings; floats from integers,
booleans and numeric strings; booleans from `0`, `1` and words such as `yes` or `off`; strings
and lists only from themselves. No field takes a timestamp. Unknown fields are ignored. A value that does not fit counts as
one error (a list counts one per bad item), and a model is refused with the number of errors
over all its fields.
-/

namespace DocWeaver.Validate

open DocWeaver.Numeric
open DocWeaver.Config

abbrev Checked (α : Type) := Except Nat α

def errors {α : Type} : Checked α → Nat
  | .error n => n
  | .ok _ => 0

def getD {α : Type} (c : Checked α) (d : α) : α :=
  match c with
  | .ok a => a
  | .error _ => d

def asInt : Value → Checked Int
  | .int n => .ok n
  | .bool b => .ok (if b then 1 else 0)
  | .float x =>
    match x with
    | .finite neg _ _ =>
      let (_, n, d) := x.ratio
      if n % d == 0 then .ok (if neg then -((n / d : Nat) : Int) else ((n / d : Nat) : Int)) else .error 1
    | _ => .error 1
  | .str s => match Text.laxInt? s with
    | some n => .ok n
    | none => .error 1
  | _ => .error 1

def asFloat : Value → Checked Binary64
  | .float x => .ok x
  | .int n => .ok (Binary64.ofInt n)
  | .bool b => .ok (Binary64.ofInt (if b then 1 else 0))
  | .str s => match Text.laxFloat? s with
    | some x => .ok x
    | none => .error 1
  | _ => .error 1

def trueWords : List String := ["1", "t", "y", "on", "yes", "true"]

def falseWords : List String := ["0", "f", "n", "no", "off", "false"]

def asBool : Value → Checked Bool
  | .bool b => .ok b
  | .int n => if n == 0 then .ok false else if n == 1 then .ok true else .error 1
  | .float x => match x with
    | .finite _ m _ => if m == 0 then .ok false
      else if Binary64.ofInt 1 == x then .ok true else .error 1
    | _ => .error 1
  | .str s =>
    let w := String.ofList (Text.asciiLower s.toList)
    if trueWords.contains w then .ok true
    else if falseWords.contains w then .ok false
    else .error 1
  | _ => .error 1

def asStr : Value → Checked String
  | .str s => .ok s
  | _ => .error 1

def asStrList : Value → Checked (List String)
  | .seq xs =>
    let bad := (xs.filter fun x => (asStr x).toOption.isNone).length
    if bad > 0 then .error bad else .ok (xs.filterMap Value.str?)
  | _ => .error 1

def optional {α : Type} (check : Value → Checked α) : Value → Checked (Option α)
  | .null => .ok none
  | v => (check v).map some

def intAtLeast (lo : Int) (v : Value) : Checked Int := do
  let n ← asInt v
  if n < lo then throw 1 else pure n

def floatNonNegative (v : Value) : Checked Binary64 := do
  let x ← asFloat v
  match x with
  | .finite neg m _ => if neg && m != 0 then throw 1 else pure x
  | .infinite neg => if neg then throw 1 else pure x
  | .nan => throw 1

def asOutput : Value → Checked OutputMode
  | .str s => match OutputMode.ofLabel? s with
    | some m => .ok m
    | none => .error 1
  | _ => .error 1

def field {α : Type} (fs : List (String × Value)) (k : String) (check : Value → Checked α)
    (d : α) : Checked α :=
  match fs.lookup k with
  | some v => check v
  | none => .ok d

def required {α : Type} (fs : List (String × Value)) (k : String) (check : Value → Checked α) :
    Checked (Option α) :=
  match fs.lookup k with
  | some v => (check v).map some
  | none => .error 1

/-- Generation settings from fields. -/
def generationConfig (fs : List (String × Value)) : Checked GenerationConfig :=
  let d : GenerationConfig := {}
  let apiKey := field fs "api_key" (optional asStr) d.apiKey
  let model := field fs "model" asStr d.model
  let temperature := field fs "temperature" asFloat d.temperature
  let maxTokens := field fs "max_tokens" asInt d.maxTokens
  let maxConcurrency := field fs "max_concurrency" (intAtLeast 1) d.maxConcurrency
  let maxAttempts := field fs "max_attempts" (intAtLeast 1) d.maxAttempts
  let backoffInitial := field fs "backoff_initial" floatNonNegative d.backoffInitial
  let backoffMax := field fs "backoff_max" floatNonNegative d.backoffMax
  let contextLines := field fs "context_lines" (intAtLeast 0) d.contextLines
  let contextChars := field fs "context_chars" (intAtLeast 200) d.contextChars
  let timeoutSeconds := field fs "timeout_seconds" (optional asFloat) d.timeoutSeconds
  let n := errors apiKey + errors model + errors temperature + errors maxTokens +
    errors maxConcurrency + errors maxAttempts + errors backoffInitial + errors backoffMax +
    errors contextLines + errors contextChars + errors timeoutSeconds
  if n > 0 then .error n
  else .ok { apiKey := getD apiKey none, model := getD model d.model
             temperature := getD temperature d.temperature, maxTokens := getD maxTokens d.maxTokens
             maxConcurrency := getD maxConcurrency d.maxConcurrency
             maxAttempts := getD maxAttempts d.maxAttempts
             backoffInitial := getD backoffInitial d.backoffInitial
             backoffMax := getD backoffMax d.backoffMax
             contextLines := getD contextLines d.contextLines
             contextChars := getD contextChars d.contextChars
             timeoutSeconds := getD timeoutSeconds none }

def repositoryConfig (fs : List (String × Value)) : Checked RepositoryConfig :=
  let owner := required fs "owner" asStr
  let name := required fs "name" asStr
  let token := field fs "token" (optional asStr) none
  let apiUrl := field fs "api_url" asStr "https://api.github.com"
  let n := errors owner + errors name + errors token + errors apiUrl
  if n > 0 then .error n
  else .ok { owner := (getD owner none).getD "", name := (getD name none).getD ""
             token := getD token none, apiUrl := getD apiUrl "https://api.github.com" }

/-- Run settings from fields, with the repository root, generation and repository settings
already made. -/
def autodocConfig (fs : List (String × Value)) (root : String) (generation : GenerationConfig)
    (repository : Option RepositoryConfig) : Checked AutodocConfig :=
  let d : AutodocConfig := { rootPath := root }
  let rootDirectory := field fs "root_directory" asStr d.rootDirectory
  let excludedDirectories := field fs "excluded_directories" asStrList d.excludedDirectories
  let excludedFiles := field fs "excluded_files" asStrList d.excludedFiles
  let excludedFilePatterns := field fs "excluded_file_patterns" asStrList d.excludedFilePatterns
  let generateCodeComments := field fs "generate_code_comments" asBool d.generateCodeComments
  let generateSummaryDoc := field fs "generate_summary_doc" asBool d.generateSummaryDoc
  let summaryPath := field fs "summary_path" asStr d.summaryPath
  let pullNumber := field fs "pull_number" (optional asInt) d.pullNumber
  let output := field fs "output" asOutput d.output
  let branch := field fs "branch" asStr d.branch
  let reviewers := field fs "reviewers" asStrList d.reviewers
  let n := errors rootDirectory + errors excludedDirectories + errors excludedFiles +
    errors excludedFilePatterns + errors generateCodeComments + errors generateSummaryDoc +
    errors summaryPath + errors pullNumber + errors output + errors branch + errors reviewers
  if n > 0 then .error n
  else .ok { rootPath := root, rootDirectory := getD rootDirectory d.rootDirectory
             excludedDirectories := getD excludedDirectories d.excludedDirectories
             excludedFiles := getD excludedFiles d.excludedFiles
             excludedFilePatterns := getD excludedFilePatterns d.excludedFilePatterns
             generateCodeComments := getD generateCodeComments d.generateCodeComments
             generateSummaryDoc := getD generateSummaryDoc d.generateSummaryDoc
             summaryPath := getD summaryPath d.summaryPath, pullNumber := getD pullNumber none
             output := getD output d.output, branch := getD branch d.branch
             reviewers := getD reviewers d.reviewers, generation, repository }

def errorSummary (n : Nat) (model : String) : String :=
  s!"{n} validation error" ++ (if n == 1 then "" else "s") ++ s!" for {model}"

end DocWeaver.Validate
