import DocWeaver.Model.Change
import DocWeaver.Text.Glob
import DocWeaver.Files.Path
import DocWeaver.Numeric.Binary64

/-!
Coverage: which declarations get documentation written.

A full scan writes documentation for every declaration that has none. An incremental run looks
only at declarations whose lines a change set touches: it writes documentation for those
without, and rewrites it for those with. Declarations of files whose name matches an excluded
pattern are always skipped.
-/

namespace DocWeaver

/-- What to do about one declaration. -/
inductive Verdict where
  | skip
  | generate
  | regenerate
  deriving Repr, DecidableEq, Inhabited

def Verdict.label : Verdict → String
  | .skip => "skip"
  | .generate => "generate"
  | .regenerate => "regenerate"

def Verdict.all : List Verdict := [.skip, .generate, .regenerate]

def Verdict.ofLabel? (s : String) : Option Verdict := Verdict.all.find? (·.label == s)

/-- How much of a repository a run looks at. -/
inductive AnalysisMode where
  | fullScan
  | incremental
  deriving Repr, DecidableEq, Inhabited

def AnalysisMode.label : AnalysisMode → String
  | .fullScan => "full-scan"
  | .incremental => "incremental"

def AnalysisMode.ofLabel? : String → Option AnalysisMode
  | "full-scan" => some .fullScan
  | "incremental" => some .incremental
  | _ => none

/-- A declaration with its verdict and the reason for it. -/
structure CoverageVerdict where
  declaration : Declaration
  verdict : Verdict
  reason : String
  deriving Repr, DecidableEq, Inhabited

/-- The settings of a coverage analysis. -/
structure CoverageAnalyzer where
  mode : AnalysisMode := .fullScan
  changeSet : Option ChangeSet := none
  excludedPatterns : List String := ["*.d.ts"]

namespace CoverageAnalyzer

def create (mode : AnalysisMode) (changeSet : Option ChangeSet) (patterns : List String) :
    Except String CoverageAnalyzer :=
  if mode == .incremental && changeSet.isNone then .error "Incremental analysis requires a change set"
  else .ok ⟨mode, changeSet, patterns⟩

def isExcludedFile (a : CoverageAnalyzer) (path : String) : Bool :=
  a.excludedPatterns.any fun p => Text.globMatches (Files.pathName path) p

def isTouched (a : CoverageAnalyzer) (d : Declaration) : Bool :=
  match a.changeSet with
  | none => false
  | some cs => (cs.rangesFor d.filePath).any fun r => d.full.meetsLines r.start r.stop

/-- The verdict on one declaration. -/
def judge (a : CoverageAnalyzer) (d : Declaration) : CoverageVerdict :=
  let v (x : Verdict) (why : String) : CoverageVerdict := ⟨d, x, why⟩
  if a.isExcludedFile d.filePath then v .skip "file excluded from documentation"
  else
    match a.mode with
    | .fullScan =>
      if d.isDocumented then v .skip "already documented" else v .generate "no documentation comment"
    | .incremental =>
      let listed := match a.changeSet with
        | some cs => cs.contains d.filePath
        | none => false
      if !listed then v .skip "file not part of the change set"
      else if !a.isTouched d then v .skip "not touched by the change set"
      else if d.isDocumented then v .regenerate "documented declaration changed"
      else v .generate "changed declaration has no documentation"

def analyze (a : CoverageAnalyzer) (ds : List Declaration) : List CoverageVerdict := ds.map a.judge

end CoverageAnalyzer

/-- Counts over verdicts: how many, how many documented, the documented share (one when there
are none), and how many per verdict and per kind. -/
structure CoverageSummary where
  total : Nat
  documented : Nat
  coverage : Numeric.Binary64
  byVerdict : List (Verdict × Nat)
  byKind : List (DeclKind × Nat)
  deriving Repr, Inhabited

def summarize (vs : List CoverageVerdict) : CoverageSummary :=
  let total := vs.length
  let documented := (vs.filter (·.declaration.isDocumented)).length
  { total, documented
    coverage := if total == 0 then Numeric.Binary64.ofInt 1 else Numeric.Binary64.ofRatio false documented total
    byVerdict := Verdict.all.map fun x => (x, (vs.filter (·.verdict == x)).length)
    byKind := DeclKind.all.map fun k => (k, (vs.filter (·.declaration.kind == k)).length) }

end DocWeaver
