import DocWeaver.Pipeline.Sink
import DocWeaver.Files.Walk
import DocWeaver.Extract.Declarations
import DocWeaver.Extract.Context
import DocWeaver.Generate.Client
import DocWeaver.Patch.Writer
import DocWeaver.Coverage.Verdict

/-!
One documentation pass over a source tree.

The pass finds the source files below the scan root, reads and parses each one, and judges its
declarations. In an incremental run only files of the pull request's change set are worked on;
the others only add their verdicts. Documentation is then generated for every declaration not
skipped, all files' requests going through one bounded pool, and each file is patched as a whole
or not at all: a file any of whose requests was cancelled is left as it was. The summary
document is rendered from the documentation as it stands after the pass, and everything is
handed to the sink.

Failures of a file or a declaration are recorded in the run. Only a missing collaborator, a
missing scan root, a failure to learn the change set, or a source file found outside the
repository root (a scan root that lies outside it) ends the pass.
-/

namespace DocWeaver

/-- Why a pass could not run. -/
inductive RunError where
  | configuration (message : String)
  | rootDirectory (message : String)
  | other (kind message : String)
  deriving Inhabited

def RunError.kind : RunError → String
  | .configuration _ => "ConfigurationError"
  | .rootDirectory _ => "RootDirectoryError"
  | .other k _ => k

def RunError.message : RunError → String
  | .configuration m | .rootDirectory m | .other _ m => m

/-- What a pass works with, on a state `ω`: the working directory and the disk, and the
generation backend, the source of change sets and the sink, when there are such. -/
structure Services (ω : Type) where
  cwd : Files.Location
  disk : ω → Files.Disk
  backend : Option (Backend ω) := none
  changes : Option (Int → ω → Except RunError ChangeSet × ω) := none
  sink : Option (Sink ω) := none
  schedule : Backend ω → GenerationConfig → List GenerationRequest → ω → List Nat := fifoSchedule
  outline : Syntax.OutlineReader := Syntax.readOutline

/-- A file being worked on: its text, its verdicts and the results of its requests. -/
structure FileWork where
  source : SourceFile
  verdicts : List CoverageVerdict
  results : List (CoverageVerdict × GenerationResult) := []
  deriving Inhabited

/-- The record of a pass and the last progress report `(completed, total)` of its generation. -/
structure PassOutcome where
  run : PipelineRun
  progress : Option (Nat × Nat)
  deriving Inhabited

def setEntry (fs : List (String × String)) (k v : String) : List (String × String) :=
  if fs.any (·.1 == k) then fs.map fun (x, y) => if x == k then (x, v) else (x, y) else fs ++ [(k, v)]

def declarationLabels (vs : List CoverageVerdict) : List (Nat × String) :=
  let names := vs.map (·.declaration.qualifiedName)
  vs.map fun v =>
    let d := v.declaration
    let label := if names.count d.qualifiedName > 1 then d.qualifiedName ++ s!"@{d.header.startLine}"
      else d.qualifiedName
    (d.header.startByte, label)

def failureReason (kind : GenerationErrorKind) (message : String) : String :=
  if message.isEmpty then kind.label else kind.label ++ ": " ++ message

def FileWork.cancelled (item : FileWork) : Bool :=
  item.results.any fun (_, r) => match r with
    | .failure _ .cancelled _ _ => true
    | _ => false

def FileWork.successes (item : FileWork) : List (CoverageVerdict × String) :=
  item.results.filterMap fun (v, r) => match r with
    | .success _ t _ => some (v, t)
    | _ => none

/-- The result of a file whose requests have finished. -/
def patchFile (item : FileWork) : FileResult :=
  let source := item.source
  let rel := source.relativePath
  if item.cancelled then { relativePath := rel, outcome := .unchanged, reason := some "run aborted before generation finished" }
  else
    let successes := item.successes
    let labels := declarationLabels item.verdicts
    let failures := item.results.foldl (fun acc (_, r) => match r with
      | .failure d k _ m => setEntry acc ((labels.lookup d.header.startByte).getD d.qualifiedName) (failureReason k m)
      | _ => acc) []
    let unchanged : FileResult := { relativePath := rel, outcome := .unchanged, failedDeclarations := failures }
    match applyPatch source (buildPatch source successes) with
    | .error e =>
      { relativePath := rel, outcome := .failed, reason := some ("patch conflict: " ++ e), failedDeclarations := failures }
    | .ok (.unchanged _) | .ok (.undecodable _) => unchanged
    | .ok (.changed patched) =>
      if patched.text == source.text then unchanged
      else { relativePath := rel, outcome := .patched, newText := some patched.text, diff := some (diffFiles source patched)
             documented := successes.map (·.1.declaration.qualifiedName), failedDeclarations := failures }

/-- The documentation of a file's declarations, in document order: the text generated for a
declaration whose request succeeded, when the file is patched, and otherwise the text of its
existing comment. -/
def FileWork.summaryRows (item : FileWork) (patched : Bool) : List (Declaration × String) :=
  let generated : List (Nat × String) :=
    if patched then
      item.results.filterMap fun (v, r) => match r with
        | .success _ t _ => some (v.declaration.header.startByte, t)
        | _ => none
    else []
  item.verdicts.filterMap fun v =>
    let d := v.declaration
    match generated.lookup d.header.startByte with
    | some t => some (d, t)
    | none => d.doc.map fun c => (d, c.text)

/-- The documentation of each declaration as it stands after the pass, by file: the generated
text for patched files, else the existing comment. -/
def documentedEntries (work : List FileWork) (run : PipelineRun) : List (String × List (Declaration × String)) :=
  let patched := run.patchedFiles.map (·.relativePath)
  work.filterMap fun item =>
    let rows := item.summaryRows (patched.contains item.source.relativePath)
    if rows.isEmpty then none else some (item.source.relativePath, rows)

/-- What reading and parsing a found file gives. -/
inductive SourceLoad where
  | failed (why : String)
  | unsupported
  | loaded (text : String) (declarations : List Declaration)

/-- Reads, decodes and parses with `read` the file found at `p`, whose path relative to the
repository root is `rel`. -/
def loadSource (read : Syntax.OutlineReader) (d : Files.Disk) (rel : String) (p : Files.Location) :
    SourceLoad :=
  match d.readFile p with
  | .error e => .failed ("unreadable: " ++ e)
  | .ok bytes =>
    match Text.Utf8.decode bytes with
    | .error e => .failed ("unreadable: " ++ e.message)
    | .ok text =>
      match Extract.extractDeclarations read (p.getLastD "") rel text.toUTF8 with
      | .error (.malformed path line) => .failed (Extract.syntaxMessage path line)
      | .error (.unsupported _) => .unsupported
      | .ok ds => .loaded text ds

def inScope (changeSet : Option ChangeSet) (rel : String) : Bool :=
  match changeSet with
  | some cs => cs.contains rel
  | none => true

def analyzeFile (coverage : CoverageAnalyzer) (worked : Bool) (rel : String) :
    SourceLoad → List FileWork × PipelineRun → List FileWork × PipelineRun
  | .failed why, (work, run) =>
    if worked then (work, { run with files := run.files ++ [{ relativePath := rel, outcome := .failed, reason := some why }] })
    else (work, run)
  | .unsupported, acc => acc
  | .loaded text ds, (work, run) =>
    let verdicts := coverage.analyze ds
    let run := { run with verdicts := run.verdicts ++ verdicts }
    if worked then (work ++ [{ source := ⟨rel, text⟩, verdicts }], run) else (work, run)

/-- The files worked on, the verdicts and the results of unreadable or malformed files, from the
source files found. -/
def analyzeFiles (read : Syntax.OutlineReader) (d : Files.Disk) (root : Files.Location)
    (coverage : CoverageAnalyzer) (changeSet : Option ChangeSet) (paths : List Files.Location) :
    List FileWork × PipelineRun → List FileWork × PipelineRun :=
  fun init => paths.foldl (fun acc p =>
    let rel := Files.relativeTo root p
    analyzeFile coverage (inScope changeSet rel) rel (loadSource read d rel p) acc) init

def requestsOf (g : GenerationConfig) (work : List FileWork) : List (Nat × GenerationRequest) :=
  work.zipIdx.flatMap fun (item, i) =>
    let ls := Text.splitLines item.source.text
    (item.verdicts.filter (·.verdict != .skip)).map fun v =>
      (i, ⟨v, Extract.contextInLines ls v.declaration g.contextLines g.contextChars⟩)

def attachResults (work : List FileWork) (owners : List Nat) (results : List GenerationResult) : List FileWork :=
  let pairs := owners.zip results
  work.zipIdx.map fun (item, i) =>
    let asked := item.verdicts.filter (·.verdict != .skip)
    { item with results := asked.zip ((pairs.filter (·.1 == i)).map (·.2)) }

/-- Generates documentation for the requests of all files worked on, in one run of the backend,
and gives each file the results of its own requests: the files, and the run's outcome. -/
def generateFor {ω : Type} (backend : Backend ω) (g : GenerationConfig)
    (schedule : List GenerationRequest → ω → List Nat) (work : List FileWork) (s : ω) :
    List FileWork × RunOutcome ω :=
  let reqs := requestsOf g work
  let out := generateAll backend g (reqs.map (·.2)) s (schedule (reqs.map (·.2)) s)
  (attachResults work (reqs.map (·.1)) out.results, out)

/-- Hands the patched files, then the extra files, to the sink. Failures of writes fail their
file or are recorded; a failure to begin fails every patched file. -/
def publish {ω : Type} (sink : Sink ω) (run : PipelineRun) (s : ω) : Except RunError PipelineRun × ω :=
  let pending := run.patchedFiles
  if pending.isEmpty && run.extraFiles.isEmpty then (.ok run, s)
  else
    match sink.begin run s with
    | (.error (.fatal k m), s) => (.error (.other k m), s)
    | (.error (.recorded e), s) =>
      (.ok { run with publishErrors := run.publishErrors ++ ["begin failed: " ++ e]
                      files := run.files.map fun r =>
                        if r.outcome == .patched then { r with outcome := .failed, reason := some ("publish failed: " ++ e) } else r }, s)
    | (.ok (), s) =>
      let step (acc : Except RunError (List FileResult × List String) × ω) (r : FileResult) :
          Except RunError (List FileResult × List String) × ω :=
        match acc with
        | (.error e, s) => (.error e, s)
        | (.ok (done, written), s) =>
          if r.outcome != .patched then (.ok (done ++ [r], written), s)
          else match sink.write r.relativePath (r.newText.getD "") s with
            | (.ok (), s) => (.ok (done ++ [r], written ++ [r.relativePath]), s)
            | (.error (.recorded e), s) =>
              (.ok (done ++ [{ r with outcome := .failed, reason := some ("write failed: " ++ e) }], written), s)
            | (.error (.fatal k m), s) => (.error (.other k m), s)
      match run.files.foldl step (.ok ([], []), s) with
      | (.error e, s) => (.error e, s)
      | (.ok (files, written), s) =>
        let extra (acc : Except RunError (List String × List String) × ω) (f : String × String) :
            Except RunError (List String × List String) × ω :=
          match acc with
          | (.error e, s) => (.error e, s)
          | (.ok (errs, written), s) =>
            match sink.write f.1 f.2 s with
            | (.ok (), s) => (.ok (errs, written ++ [f.1]), s)
            | (.error (.recorded e), s) => (.ok (errs ++ [f.1 ++ ": write failed: " ++ e], written), s)
            | (.error (.fatal k m), s) => (.error (.other k m), s)
        match run.extraFiles.foldl extra (.ok ([], written), s) with
        | (.error e, s) => (.error e, s)
        | (.ok (errs, written), s) =>
          let run := { run with files, publishErrors := run.publishErrors ++ errs }
          match sink.finish run written s with
          | (.ok none, s) => (.ok run, s)
          | (.ok (some n), s) => (.ok { run with pullRequestNumber := some n }, s)
          | (.error (.recorded e), s) => (.ok { run with publishErrors := run.publishErrors ++ ["finish failed: " ++ e] }, s)
          | (.error (.fatal k m), s) => (.error (.other k m), s)

def checkServices {ω : Type} (cfg : AutodocConfig) (svc : Services ω) : Except RunError Unit :=
  if cfg.generateCodeComments && svc.backend.isNone then
    .error (.configuration "Generating code comments requires a generation client")
  else if cfg.mode == .incremental && svc.changes.isNone then
    .error (.configuration "Pull request mode requires a change source")
  else if cfg.output != .dryRun && svc.sink.isNone then
    .error (.configuration ("Output mode '" ++ cfg.output.label ++ "' requires a sink"))
  else .ok ()

/-- The repository root and the source files found below the scan root. A scan root that is no
directory ends the pass, and so does a file found outside the repository root, which has no path
relative to it. -/
def findSources (cfg : AutodocConfig) (d : Files.Disk) (cwd : Files.Location) :
    Except RunError (Files.Location × List Files.Location) :=
  let rules : Files.WalkRules :=
    { excludedDirectories := cfg.excludedDirectories, excludedFiles := cfg.excludedFiles
      suffixes := Syntax.Dialect.suffixes }
  match Files.sourceFiles d cwd (Files.joinPath cfg.rootPath cfg.rootDirectory) rules with
  | .error e => .error (.rootDirectory e)
  | .ok paths =>
    let root := d.resolve cwd cfg.rootPath
    match paths.find? (!Files.isWithin root ·) with
    | some p => .error (.other "ValueError" (Files.notWithinMessage root p))
    | none => .ok (root, paths)

/-- Documentation for the files worked on, when the pass generates it: the files with their
results, the run with each file's result, and the last progress report. Without generation each
file worked on is left unchanged. -/
def generateStage {ω : Type} (cfg : AutodocConfig) (svc : Services ω) (work : List FileWork)
    (run : PipelineRun) (s : ω) :
    Except RunError (List FileWork × PipelineRun × Option (Nat × Nat)) × ω :=
  if cfg.generateCodeComments then
    match svc.backend with
    | some backend =>
      let (done, out) := generateFor backend cfg.generation (svc.schedule backend cfg.generation) work s
      (.ok (done, { run with files := run.files ++ done.map patchFile }, out.progress.getLast?),
        out.state)
    | none => (.error (.configuration "Generating code comments requires a generation client"), s)
  else
    (.ok (work, { run with files := run.files ++ work.map fun item =>
      { relativePath := item.source.relativePath, outcome := .unchanged } }, none), s)

/-- The run with the summary document as its extra file, when the pass writes one. -/
def withSummary (cfg : AutodocConfig) (work : List FileWork) (run : PipelineRun) : PipelineRun :=
  if cfg.generateSummaryDoc then
    { run with extraFiles := [(cfg.summaryPath, Report.renderSummaryDocument (documentedEntries work run))] }
  else run

def publishStage {ω : Type} (cfg : AutodocConfig) (svc : Services ω) (run : PipelineRun) (s : ω) :
    Except RunError PipelineRun × ω :=
  if cfg.output != .dryRun then
    match svc.sink with
    | some sink => publish sink run s
    | none => (.error (.configuration ("Output mode '" ++ cfg.output.label ++ "' requires a sink")), s)
  else (.ok run, s)

/-- A pass once its change set, if it has one, is known: the files are found, read and judged,
documentation is generated and handed to the sink. -/
def runScan {ω : Type} (cfg : AutodocConfig) (svc : Services ω) (changeSet : Option ChangeSet)
    (s : ω) : Except RunError PassOutcome × ω :=
  let d := svc.disk s
  match findSources cfg d svc.cwd with
  | .error e => (.error e, s)
  | .ok (root, paths) =>
    let coverage : CoverageAnalyzer := ⟨cfg.mode, changeSet, cfg.excludedFilePatterns⟩
    let (work, run) :=
      analyzeFiles svc.outline d root coverage changeSet paths
        ([], { mode := cfg.mode, output := cfg.output })
    match generateStage cfg svc work run s with
    | (.error e, s) => (.error e, s)
    | (.ok (work, run, progress), s) =>
      match publishStage cfg svc (withSummary cfg work run) s with
      | (.error e, s) => (.error e, s)
      | (.ok run, s) => (.ok ⟨run, progress⟩, s)

def AutodocConfig.scopeTo (cfg : AutodocConfig) : Option Int → AutodocConfig
  | some n => { cfg with pullNumber := some n }
  | none => cfg

/-- Runs one pass; `pullNumber`, when given, scopes it to that pull request. -/
def runPipeline {ω : Type} (cfg : AutodocConfig) (svc : Services ω) (pullNumber : Option Int)
    (s : ω) : Except RunError PassOutcome × ω :=
  match checkServices cfg svc with
  | .error e => (.error e, s)
  | .ok () =>
    let cfg := cfg.scopeTo pullNumber
    if cfg.mode == .incremental then
      match svc.changes with
      | none => (.error (.configuration "Pull request mode requires a change source"), s)
      | some changes =>
        match changes (cfg.pullNumber.getD 0) s with
        | (.ok cs, s) => runScan cfg svc (some cs) s
        | (.error e, s) => (.error e, s)
    else runScan cfg svc none s

end DocWeaver
