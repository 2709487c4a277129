import DocWeaver.Numeric.Binary64
import DocWeaver.Coverage.Verdict

/-!
Run settings: where results go, what to scan, how to generate text, and which repository to
publish to. Every setting has a default, except the repository root.
-/

namespace DocWeaver

open DocWeaver.Numeric

/-- Where the results of a run go. -/
inductive OutputMode where
  | dryRun
  | disk
  | pullRequest
  deriving Repr, DecidableEq, Inhabited

def OutputMode.label : OutputMode → String
  | .dryRun => "dry-run"
  | .disk => "disk"
  | .pullRequest => "pull-request"

def OutputMode.ofLabel? : String → Option OutputMode
  | "dry-run" => some .dryRun
  | "disk" => some .disk
  | "pull-request" => some .pullRequest
  | _ => none

/-- How documentation text is generated: the model and its sampling, the bounds on concurrent
requests and attempts, the retry backoff, the context shown, and an overall deadline. -/
structure GenerationConfig where
  apiKey : Option String := none
  model : String := "claude-3-5-sonnet-20241022"
  temperature : Binary64 := Binary64.ofRatio false 1 5
  maxTokens : Int := 1024
  maxConcurrency : Int := 5
  maxAttempts : Int := 4
  backoffInitial : Binary64 := Binary64.ofInt 1
  backoffMax : Binary64 := Binary64.ofInt 30
  contextLines : Int := 20
  contextChars : Int := 4000
  timeoutSeconds : Option Binary64 := none
  deriving Repr, Inhabited

/-- A hosted repository and the credentials for it. -/
structure RepositoryConfig where
  owner : String
  name : String
  token : Option String := none
  apiUrl : String := "https://api.github.com"
  deriving Repr, DecidableEq, Inhabited

def defaultExcludedDirectories : List String := ["node_modules", "dist", "build", ".git", "coverage"]

/-- The settings of a run. -/
structure AutodocConfig where
  rootPath : String
  rootDirectory : String := "."
  excludedDirectories : List String := defaultExcludedDirectories
  excludedFiles : List String := []
  excludedFilePatterns : List String := ["*.d.ts"]
  generateCodeComments : Bool := true
  generateSummaryDoc : Bool := false
  summaryPath : String := "docs/AUTODOC_SUMMARY.md"
  pullNumber : Option Int := none
  output : OutputMode := .dryRun
  branch : String := "main"
  reviewers : List String := []
  generation : GenerationConfig := {}
  repository : Option RepositoryConfig := none
  deriving Repr, Inhabited

def AutodocConfig.mode (c : AutodocConfig) : AnalysisMode :=
  if c.pullNumber.isSome then .incremental else .fullScan

end DocWeaver
