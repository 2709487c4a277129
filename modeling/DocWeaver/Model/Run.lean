import DocWeaver.Model.Config
import DocWeaver.Data.Json

/-!
The record of a run: what happened to each file, every verdict, the extra files written, the pull
request opened and the errors of publishing. Counts over it give the run's summary.
-/

namespace DocWeaver

/-- What happened to one file. -/
inductive FileOutcome where
  | unchanged
  | patched
  | failed
  deriving Repr, DecidableEq, Inhabited

def FileOutcome.label : FileOutcome → String
  | .unchanged => "unchanged"
  | .patched => "patched"
  | .failed => "failed"

/-- One file's result: its outcome and why, its new text and diff when patched, the
declarations documented, and the declarations that failed, by label, with the reason. -/
structure FileResult where
  relativePath : String
  outcome : FileOutcome
  reason : Option String := none
  newText : Option String := none
  diff : Option String := none
  documented : List String := []
  failedDeclarations : List (String × String) := []
  deriving Repr, Inhabited

/-- The record of one run. -/
structure PipelineRun where
  mode : AnalysisMode
  output : OutputMode
  files : List FileResult := []
  verdicts : List CoverageVerdict := []
  extraFiles : List (String × String) := []
  pullRequestNumber : Option JsonValue := none
  publishErrors : List String := []
  deriving Inhabited

/-- The counts a run's summary gives, in the order it gives them. -/
structure RunSummary where
  generated : Nat
  regenerated : Nat
  skipped : Nat
  patchedFiles : Nat
  failedFiles : Nat
  failedDeclarations : Nat
  deriving Repr, DecidableEq, Inhabited

namespace PipelineRun

def count (r : PipelineRun) (v : Verdict) : Nat := (r.verdicts.filter (·.verdict == v)).length

def patchedFiles (r : PipelineRun) : List FileResult := r.files.filter (·.outcome == .patched)

def failedFiles (r : PipelineRun) : List FileResult := r.files.filter (·.outcome == .failed)

def failedDeclarations (r : PipelineRun) : List (String × String) :=
  r.files.flatMap fun f => f.failedDeclarations.map fun (n, why) => (f.relativePath ++ ":" ++ n, why)

def summary (r : PipelineRun) : RunSummary :=
  { generated := r.count .generate, regenerated := r.count .regenerate, skipped := r.count .skip
    patchedFiles := r.patchedFiles.length, failedFiles := r.failedFiles.length
    failedDeclarations := r.failedDeclarations.length }

end PipelineRun

def RunSummary.entries (s : RunSummary) : List (String × Nat) :=
  [("generated", s.generated), ("regenerated", s.regenerated), ("skipped", s.skipped),
    ("patched_files", s.patchedFiles), ("failed_files", s.failedFiles),
    ("failed_declarations", s.failedDeclarations)]

end DocWeaver
