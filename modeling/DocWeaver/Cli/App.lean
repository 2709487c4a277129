import DocWeaver.Cli.Args
import DocWeaver.Cli.Help
import DocWeaver.Console.Layout
import DocWeaver.Pipeline.Run
import DocWeaver.Config.Manager
import DocWeaver.Generate.Anthropic
import DocWeaver.Text.Numbers

/-!
The command line: `scan` reports documentation coverage, `run` documents declarations and
publishes the result, and `init-config` writes a default settings file.

A session runs against a disk, a working directory, environment variables and input lines, and
talks to the messages API and the repository host through the services it is given. What it
prints, its exit code and the disk afterwards are its results. Errors of use are reported with
the usage line and end with code 2; failures of a run are printed and end with code 1.
-/

namespace DocWeaver.Cli

/-- What a session talks to: the messages API, the repository host, and the clock, as a UTC
time `YYYYMMDDHHMMSS`. -/
structure Outside (α β : Type) where
  api : α → JsonValue → ApiExchange × α
  transport : Hosting.Transport β
  clock : String

/-- The state of a session. -/
structure Session (α β : Type) where
  disk : Files.Disk
  cwd : Files.Location
  env : List (String × String)
  input : List String
  api : α
  host : β
  output : String := ""

/-- How a session ends early: with an exit code, or with a failure of the given kind that
nothing handled. -/
inductive Exit where
  | code (n : Nat)
  | crash (kind : String)
  deriving Inhabited

abbrev CliM (α β : Type) := ExceptT Exit (StateM (Session α β))

variable {α β : Type}

def emit (text : String) : CliM α β Unit := modify fun s => { s with output := s.output ++ text }

def printText (text : String) : CliM α β Unit :=
  emit ("\n".intercalate (Console.wrapText Console.screenWidth text) ++ "\n")

def printSuccess (m : String) : CliM α β Unit := printText ("✓ " ++ m)

def printError (m : String) : CliM α β Unit := printText ("✗ " ++ m)

def printWarning (m : String) : CliM α β Unit := printText ("⚠ " ++ m)

def printInfo (m : String) : CliM α β Unit := printText ("ℹ " ++ m)

def exitWith {γ : Type} (n : Nat) : CliM α β γ := throw (.code n)

def reportedKinds : List String :=
  ["ConfigurationError", "RootDirectoryError", "SourceReadError", "ParseError", "PatchConflictError",
   "BackendError", "TransientBackendError", "GitHubError", "InvalidOutputError"]

def osErrorKind (message : String) : String :=
  if message.startsWith "[Errno 2]" then "FileNotFoundError"
  else if message.startsWith "[Errno 17]" then "FileExistsError"
  else if message.startsWith "[Errno 20]" then "NotADirectoryError"
  else if message.startsWith "[Errno 21]" then "IsADirectoryError"
  else "OSError"

def writeText (path text : String) : CliM α β Unit := do
  let s ← get
  let parent := Files.parentPath path
  let written := do
    let d ← s.disk.makeDirs (s.disk.resolve s.cwd parent) parent
    d.writeFile (d.resolve s.cwd parent ++ [Files.pathName path]) text.toUTF8 path
  match written with
  | .ok d => set { s with disk := d }
  | .error e => throw (.crash (osErrorKind e))

abbrev ValueCheck (α β : Type) := Session α β → String → Option String

def intCheck : ValueCheck α β := fun _ v =>
  if (Text.readInt? v).isSome then none else some (Text.quote v ++ " is not a valid integer.")

def floatCheck : ValueCheck α β := fun _ v =>
  if (Text.readFloat? v).isSome then none else some (Text.quote v ++ " is not a valid float.")

def choiceCheck (choices : List String) : ValueCheck α β := fun _ v =>
  if choices.contains v then none
  else some (Text.quote v ++ " is not one of " ++ ", ".intercalate (choices.map Text.quote) ++ ".")

def pathCheck (mustExist fileOk dirOk : Bool) : ValueCheck α β := fun s v =>
  let kind := if !fileOk then "Directory" else if !dirOk then "File" else "Path"
  match s.disk.stat? (s.disk.resolve s.cwd v) with
  | none => if mustExist then some (kind ++ " " ++ Text.quote v ++ " does not exist.") else none
  | some .dir => if dirOk then none else some (kind ++ " " ++ Text.quote v ++ " is a directory.")
  | some _ => if fileOk then none else some (kind ++ " " ++ Text.quote v ++ " is a file.")

/-- A command's option with how messages name it and how its values are checked. -/
structure Param (α β : Type) where
  spec : OptSpec
  hint : String
  check : Option (ValueCheck α β) := none

def hintOf (long : String) (short : Option Char) : String :=
  match short with
  | some c => quoted long ++ " / " ++ quoted ("-" ++ String.singleton c)
  | none => quoted long

def param (dest long : String) (short : Option Char) (kind : ValueKind) (check : Option (ValueCheck α β)) :
    Param α β :=
  ⟨⟨dest, long, short, kind⟩, hintOf long short, check⟩

def paramsOf : Command → List (Param α β)
  | .scan =>
    [param "exclude_dir" "--exclude-dir" none .many none, param "exclude_file" "--exclude-file" none .many none,
     param "config" "--config" none .single (some (pathCheck true true false)),
     param "verbose" "--verbose" (some 'v') .flag none, param "help" "--help" none .flag none]
  | .run =>
    [param "pull_number" "--pull-number" none .single (some intCheck),
     param "output" "--output" (some 'o') .single (some (choiceCheck ["dry-run", "disk", "pull-request"])),
     param "exclude_dir" "--exclude-dir" none .many none, param "exclude_file" "--exclude-file" none .many none,
     param "config" "--config" none .single (some (pathCheck true true false)),
     param "concurrency" "--concurrency" none .single (some intCheck),
     param "timeout" "--timeout" none .single (some floatCheck),
     param "no_comments" "--no-comments" none .flag none, param "summary" "--summary" none .flag none,
     param "report" "--report" none .single (some (pathCheck false true false)),
     param "verbose" "--verbose" (some 'v') .flag none, param "help" "--help" none .flag none]
  | .initConfig => [param "help" "--help" none .flag none]

def pathArgument : Command → ValueCheck α β × String
  | .initConfig => (pathCheck false true false, ".autodoc.yaml")
  | _ => (pathCheck true false true, ".")

def firstInvalid (s : Session α β) (c : Command) (p : Parsed) : Option String :=
  let params : List (Param α β) := paramsOf c
  let optionError := p.order.findSome? fun dest =>
    match params.find? (·.spec.dest == dest) with
    | some prm =>
      match prm.check with
      | some check =>
        let values := if prm.spec.kind == .many then p.all dest else (p.last? dest).toList
        values.findSome? fun v => (check s v).map fun m => "Invalid value for " ++ prm.hint ++ ": " ++ m
      | none => none
    | none => none
  match optionError with
  | some e => some e
  | none =>
    let (check, default) := pathArgument c
    (check s (p.args.headD default)).map fun m => "Invalid value for '[PATH]': " ++ m

def loadConfig (rootArg : String) (configFile : Option String) (overrides generation : List (String × Config.Value)) :
    CliM α β (Except Config.ConfigError AutodocConfig) := do
  let s ← get
  let files (p : String) : Option String :=
    match s.disk.readFile (s.disk.resolve s.cwd p) with
    | .ok bytes => some (Text.Utf8.decodeLossy bytes)
    | .error _ => none
  let home := (s.env.lookup "HOME").getD "/root"
  let defaults := [".autodoc.yaml", ".autodoc.yml", Files.joinPath home ".config/autodoc/config.yaml"]
  pure do
    let m ← Config.ConfigManager.load {} (configFile.map Files.normalPath) defaults files s.env
    m.config (Files.normalPath rootArg) overrides generation

def configFailed {γ : Type} : Config.ConfigError → CliM α β γ
  | .configuration m => do
    printError m
    exitWith 1
  | .failure kind _ => throw (.crash kind)

def exclusions (p : Parsed) : List (String × Config.Value) :=
  let strs (xs : List String) : Config.Value := .seq (xs.map .str)
  (if p.has "exclude_dir" then [("excluded_directories", strs (p.all "exclude_dir"))] else []) ++
  (if p.has "exclude_file" then [("excluded_files", strs (p.all "exclude_file"))] else [])

def showFailedFiles (run : PipelineRun) : CliM α β Unit := do
  for f in run.failedFiles do
    printError (f.relativePath ++ ": " ++ (f.reason.getD "None"))

def printTable (t : Console.Table) : CliM α β Unit := emit (String.join (t.render.map (· ++ "\n")))

def diskServices (s : Session α β) : Services (Session α β) := { cwd := s.cwd, disk := (·.disk) }

def failRun {γ : Type} (e : RunError) : CliM α β γ := do
  if reportedKinds.contains e.kind then
    printError e.message
    exitWith 1
  else throw (.crash e.kind)

/-- `scan`: reports the documentation coverage below a directory. -/
def scanCommand (p : Parsed) : CliM α β Unit := do
  let overrides := exclusions p ++
    [("generate_code_comments", .bool false), ("generate_summary_doc", .bool false), ("output", .str "dry-run")]
  let cfg ← match ← loadConfig (p.args.headD ".") (p.last? "config") overrides [] with
    | .ok c => pure c
    | .error e => configFailed e
  let cfg := { cfg with pullNumber := none }
  let s ← get
  let (r, s') := runPipeline cfg (diskServices s) none s
  set s'
  let out ← match r with
    | .ok o => pure o
    | .error e => failRun e
  let run := out.run
  let stats := summarize run.verdicts
  let kindRows := (stats.byKind.filter (·.2 > 0)).map fun (k, n) => [k.label, toString n]
  printTable
    { title := "Documentation Coverage", columns := [⟨"Kind", false⟩, ⟨"Declarations", true⟩]
      rows := kindRows ++ [["Total", toString stats.total], ["Documented", toString stats.documented],
        ["Coverage", Numeric.Binary64.percent stats.coverage]]
      sectionEnds := if kindRows.isEmpty then [] else [kindRows.length - 1] }
  let undocumented := (run.verdicts.filter (·.verdict != .skip)).map (·.declaration)
  if undocumented.isEmpty then printSuccess "All declarations are documented"
  else
    printWarning s!"{undocumented.length} declarations need documentation"
    for d in undocumented.take 20 do
      printText ("  " ++ d.filePath ++ s!":{d.header.startLine} " ++ d.qualifiedName)
    if undocumented.length > 20 then printText s!"  ... and {undocumented.length - 20} more"
  showFailedFiles run

/-- The summary of a finished run, its failures and the files it left alone. -/
def showRun (run : PipelineRun) : CliM α β Unit := do
  let s := run.summary
  printTable
    { title := "Run Summary", columns := [⟨"Metric", false⟩, ⟨"Value", true⟩]
      rows := [["Mode", run.mode.label], ["Output", run.output.label], ["Generated", toString s.generated],
        ["Regenerated", toString s.regenerated], ["Skipped", toString s.skipped],
        ["Files patched", toString s.patchedFiles], ["Files failed", toString s.failedFiles]] ++
        (match run.pullRequestNumber with
          | some n => [["Pull request", "#" ++ n.shown]]
          | none => []) }
  showFailedFiles run
  for e in run.publishErrors do printError ("Publishing: " ++ e)
  let failed := run.failedDeclarations
  if !failed.isEmpty then
    printWarning s!"{failed.length} declarations could not be documented"
    for (n, why) in failed do printText ("  " ++ n ++ ": " ++ why)
  for f in run.files do
    if f.outcome == .unchanged then
      if let some why := f.reason then
        if !why.isEmpty then printInfo (f.relativePath ++ " left unchanged: " ++ why)

def showDiffs (run : PipelineRun) : CliM α β Unit := do
  if run.patchedFiles.isEmpty && run.extraFiles.isEmpty then
    printInfo "No changes"
  else
    for f in run.patchedFiles do
      printText ("\n" ++ f.relativePath)
      emit (String.join ((Console.codeLines (f.diff.getD "")).map (· ++ "\n")))
    for path in (run.extraFiles.map (·.1)).mergeSort (fun a b => decide (a ≤ b)) do
      printInfo ("Would write " ++ path)

def apiBackend (o : Outside α β) (g : GenerationConfig) : Backend (Session α β) :=
  (Anthropic.backend g o.api).focus (fun s => (s.api, [])) (fun s (a, _) => { s with api := a })

def hostRun {γ : Type} (call : Hosting.Hosted β γ) (s : Session α β) : Except Hosting.HostingError γ × Session α β :=
  let (r, h) := call.run.run s.host
  (r, { s with host := h })

/-- `run`: documents the declarations below a directory and publishes the result. -/
def runCommand (o : Outside α β) (p : Parsed) : CliM α β Unit := do
  let intArg (k : String) : Config.Value := match (p.last? k).bind Text.readInt? with
    | some n => .int n
    | none => .null
  let overrides := exclusions p ++
    [("pull_number", intArg "pull_number"), ("output", match p.last? "output" with
        | some v => .str v
        | none => .null),
     ("generate_code_comments", if p.has "no_comments" then .bool false else .null),
     ("generate_summary_doc", if p.has "summary" then .bool true else .null)]
  let generation := (if p.has "concurrency" then [("max_concurrency", intArg "concurrency")] else []) ++
    (match (p.last? "timeout").bind Text.readFloat? with
      | some x => [("timeout_seconds", .float x)]
      | none => [])
  let cfg ← match ← loadConfig (p.args.headD ".") (p.last? "config") overrides generation with
    | .ok c => pure c
    | .error e => configFailed e
  let s ← get
  let scanRoot := Files.render (s.disk.resolve s.cwd (Files.joinPath cfg.rootPath cfg.rootDirectory))
  emit (String.join ((Console.panelLines ["autodoc " ++ version,
    scanRoot ++ " (" ++ cfg.mode.label ++ ", " ++ cfg.output.label ++ ")"]).map (· ++ "\n")))
  let backend ← if cfg.generateCodeComments then
      match Anthropic.apiKey cfg.generation (s.env.lookup "ANTHROPIC_API_KEY") with
      | some _ => pure (some (apiBackend o cfg.generation))
      | none => do printError Anthropic.missingKeyMessage; exitWith 1
    else pure none
  let client ← if cfg.pullNumber.isSome || cfg.output == .pullRequest then
      match cfg.repository with
      | none => do printError "GITHUB_REPOSITORY is not set (expected 'owner/name')"; exitWith 1
      | some repo =>
        match Hosting.GitHubClient.create repo (s.env.lookup "GITHUB_ACCESS_TOKEN") o.transport with
        | .ok c => pure (some c)
        | .error e => do printError e.message; exitWith 1
    else pure none
  let sink : Option (Sink (Session α β)) := match cfg.output, client with
    | .disk, _ => some (diskSink cfg.rootPath s.cwd (·.disk) fun w d => { w with disk := d })
    | .pullRequest, some c =>
      some (pullRequestSink c (·.host) (fun w h => { w with host := h }) cfg.branch ("autodocs-" ++ o.clock)
        cfg.reviewers prLabels)
    | _, _ => none
  let changes := client.map fun c n w =>
    let (r, w) := hostRun (c.pullRequestChanges n) w
    (r.mapError fun e => RunError.other e.kind e.message, w)
  let svc : Services (Session α β) := { diskServices s with backend, changes, sink }
  if let .error e := checkServices cfg svc then
    printError e.message
    exitWith 1
  let (r, s') := runPipeline cfg svc none (← get)
  set s'
  let progress := match r with
    | .ok out => out.progress
    | .error _ => none
  emit (Console.progressLine "Generating documentation..." progress ++ "\n")
  let out ← match r with
    | .ok o => pure o
    | .error e => failRun e
  let run := out.run
  showRun run
  if run.output == .dryRun then showDiffs run
  if let some report := p.last? "report" then
    writeText report (Report.reportText run)
    printSuccess ("Report exported to " ++ Files.normalPath report)

def confirm (question : String) : Nat → CliM α β Bool
  | 0 => pure false
  | fuel + 1 => do
    emit (question ++ " [y/N]: ")
    let s ← get
    match s.input with
    | [] => do emit "Aborted!\n"; exitWith 1
    | line :: rest =>
      set { s with input := rest }
      emit (line ++ "\n")
      let answer := String.ofList (Text.asciiLower (Text.strip line).toList)
      if answer == "y" || answer == "yes" then pure true
      else if answer == "n" || answer == "no" || answer == "" then pure false
      else do
        emit "Error: invalid input\n"
        confirm question fuel

def initConfigCommand (p : Parsed) : CliM α β Unit := do
  let path := p.args.headD ".autodoc.yaml"
  let s ← get
  if s.disk.exists? (s.disk.resolve s.cwd path) then
    if !(← confirm (Files.normalPath path ++ " already exists. Overwrite?") (s.input.length + 1)) then return
  writeText path Config.defaultConfigYaml
  printSuccess ("Created configuration file at " ++ Files.normalPath path)

/-- Runs a command with its arguments. -/
def runCommandLine (prog : String) (o : Outside α β) (c : Command) (args : List String) : CliM α β Unit := do
  let params : List (Param α β) := paramsOf c
  let usage := commandUsage prog c
  let tryHelp := prog ++ " " ++ c.name
  match parse (params.map (·.spec)) true args with
  | .error e => do emit (usageError usage tryHelp e); exitWith 2
  | .ok p =>
    if p.has "help" then
      emit (commandHelp prog c)
      exitWith 0
    let s ← get
    if let some e := firstInvalid s c p then
      emit (usageError usage tryHelp e)
      exitWith 2
    match p.args with
    | _ :: extra@(_ :: _) =>
      let noun := if extra.length == 1 then "argument" else "arguments"
      emit (usageError usage tryHelp ("Got unexpected extra " ++ noun ++ " (" ++ " ".intercalate extra ++ ")"))
      exitWith 2
    | _ =>
      match c with
      | .scan => scanCommand p
      | .run => runCommand o p
      | .initConfig => initConfigCommand p

/-- Runs the program with its arguments. -/
def program (prog : String) (o : Outside α β) (args : List String) : CliM α β Unit := do
  let specs : List OptSpec := [⟨"help", "--help", none, .flag⟩, ⟨"version", "--version", none, .flag⟩]
  if args.isEmpty then
    emit (groupHelp prog)
    exitWith 2
  match parse specs false args with
  | .error e => do emit (usageError (groupUsage prog) prog e); exitWith 2
  | .ok p =>
    match p.order.head? with
    | some "help" => do emit (groupHelp prog); exitWith 0
    | some _ => do emit (prog ++ ", version " ++ version ++ "\n"); exitWith 0
    | none =>
      match p.args with
      | [] => do emit (groupHelp prog); exitWith 2
      | name :: rest =>
        match Command.ofName? name with
        | some c => runCommandLine prog o c rest
        | none => do
          emit (usageError (groupUsage prog) prog ("No such command " ++ Text.quote name ++ "."))
          exitWith 2

/-- How a session ended: its exit code, and the kind of failure nothing handled. -/
structure Ending where
  code : Nat
  crash : Option String := none

def runSession (prog : String) (o : Outside α β) (args : List String) (s : Session α β) : Ending × Session α β :=
  let (r, s) := (program prog o args).run.run s
  match r with
  | .ok () => (⟨0, none⟩, s)
  | .error (.code n) => (⟨n, none⟩, s)
  | .error (.crash k) => (⟨1, some k⟩, s)

end DocWeaver.Cli
