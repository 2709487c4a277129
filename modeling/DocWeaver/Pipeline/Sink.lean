import DocWeaver.Files.Disk
import DocWeaver.Files.Path
import DocWeaver.Hosting.GitHub
import DocWeaver.Report.Markdown

/-!
Where patched files go: the disk, or a pull request.

A sink is told when publishing begins, gets each file's whole new text, and is told when
publishing ends, with the paths it took. Its failures are either recorded in the run (failures
of the host or of the file system) or end the run.

The disk sink writes each file beside its target under a temporary name and then moves it into
place, so a file is never half written. The pull request sink commits each file to a branch made
from the base branch, and at the end opens a pull request if any file was committed.
-/

namespace DocWeaver

/-- A failure of a sink: one the run records, or one that ends it, with its kind. -/
inductive SinkError where
  | recorded (message : String)
  | fatal (kind message : String)
  deriving Inhabited

/-- A sink working on a state `ω`. Finishing may give the number of a pull request. -/
structure Sink (ω : Type) where
  begin : PipelineRun → ω → Except SinkError Unit × ω
  write : String → String → ω → Except SinkError Unit × ω
  finish : PipelineRun → List String → ω → Except SinkError (Option JsonValue) × ω

def prTitle : String := "JSDoc documentation added"

def prLabels : List String := ["documentation", "automated-pr"]

def commitMessage (relativePath : String) : String := "docs: add JSDoc documentation to " ++ relativePath

def temporaryName (name : String) : String := "." ++ name ++ ".XXXXXXXX.tmp"

def replaceFile (d : Files.Disk) (cwd : Files.Location) (target : String) (data : ByteArray) :
    Except String Files.Disk := do
  let parent := Files.parentPath target
  let d ← d.makeDirs (d.resolve cwd parent) parent
  let tmp := Files.childPath parent (temporaryName (Files.pathName target))
  let place := d.place (d.resolve cwd parent ++ [Files.pathName target])
  match d.entry? place with
  | some .dir => throw (Files.osMessage 21 "Is a directory" [tmp, target])
  | _ => pure (d.put place (.file data))

def diskSink {ω : Type} (root : String) (cwd : Files.Location) (get : ω → Files.Disk)
    (set : ω → Files.Disk → ω) : Sink ω where
  begin _ s := (.ok (), s)
  write rel text s :=
    match replaceFile (get s) cwd (Files.joinPath root rel) text.toUTF8 with
    | .ok d => (.ok (), set s d)
    | .error e => (.error (.recorded e), s)
  finish _ _ s := (.ok none, s)

def hostCall {ω σ α : Type} (get : ω → σ) (set : ω → σ → ω) (call : Hosting.Hosted σ α) (s : ω) :
    Except SinkError α × ω :=
  let (r, h) := call.run.run (get s)
  let r := match r with
    | .ok a => .ok a
    | .error (.value kind m) => .error (.fatal kind m)
    | .error e => .error (.recorded e.message)
  (r, set s h)

def pullRequestSink {ω σ : Type} (client : Hosting.GitHubClient σ) (get : ω → σ) (set : ω → σ → ω)
    (base branch : String) (reviewers labels : List String) : Sink ω where
  begin _ := hostCall get set (client.createBranch branch base)
  write rel text := hostCall get set (client.commitFile branch rel text (commitMessage rel))
  finish run written s :=
    if written.isEmpty then (.ok none, s)
    else hostCall get set (some <$> client.createPullRequest prTitle (Report.renderPullRequestBody run)
      branch base labels reviewers) s

end DocWeaver
