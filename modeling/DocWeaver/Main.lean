import DocWeaver.Cli.App
import DocWeaver.Cli.Clock

/-!
The program: runs the command line on the working directory.

The files below the working directory (and the settings file of the home directory) are read
into a disk, the command runs on it, and the files it wrote or changed are written back. This
build has no network access: requests to the messages API fail to connect, and so do requests
to the repository host.
-/

open DocWeaver

def knownVariables : List String :=
  ["HOME", "ANTHROPIC_API_KEY", "GITHUB_REPOSITORY", "GITHUB_ACCESS_TOKEN", "INPUT_ROOT_DIRECTORY",
   "INPUT_EXCLUDED_DIRECTORIES", "INPUT_EXCLUDED_FILES", "INPUT_PULL_NUMBER", "INPUT_JSDOC", "INPUT_README",
   "INPUT_REVIEWERS", "INPUT_BRANCH"]

partial def loadTree (d : Files.Disk) (dir : Files.Location) (depth : Nat) (path : IO.FS.DirEntry) :
    IO Files.Disk := do
  let p := path.path
  let md ← p.metadata
  let here := dir ++ [path.fileName]
  match md.type with
  | .dir =>
    if depth == 0 then return d.put here .dir
    let mut d := d.put here .dir
    for e in ← p.readDir do
      d ← loadTree d here (depth - 1) e
    return d
  | .file => return d.put here (.file (← IO.FS.readBinFile p))
  | _ => return d

def filesUnder (d : Files.Disk) (base : Files.Location) : List (Files.Location × ByteArray) :=
  d.entries.filterMap fun (q, e) =>
    match e with
    | .file data => if base.isPrefixOf q then some (q, data) else none
    | _ => none

/-- Runs the program. -/
def main (args : List String) : IO UInt32 := do
  let cwdPath ← IO.currentDir
  let cwd := Files.pathParts cwdPath.toString
  let mut disk : Files.Disk := {}
  disk := (disk.makeDirs cwd "").toOption.getD disk
  for e in ← cwdPath.readDir do
    disk ← loadTree disk cwd 64 e
  let mut env : List (String × String) := []
  for k in knownVariables do
    if let some v ← IO.getEnv k then env := env ++ [(k, v)]
  let home := (env.lookup "HOME").getD "/root"
  let homeConfig := { cwdPath with toString := home ++ "/.config/autodoc/config.yaml" }
  if ← homeConfig.pathExists then
    let loc := Files.pathParts homeConfig.toString
    disk := (disk.makeDirs loc.dropLast "").toOption.getD disk
    disk := disk.put loc (.file (← IO.FS.readBinFile homeConfig))
  let mut input : List String := []
  if args.head? == some "init-config" then
    let line ← (← IO.getStdin).getLine
    if !line.isEmpty then input := [line.trimAsciiEnd.toString]
  let proc := { cwdPath with toString := "/proc/self" }
  let seconds ← try pure (← proc.metadata).modified.sec.toNat catch _ => pure 0
  let outside : Cli.Outside Unit Unit :=
    { api := fun _ _ => (.unreachable, ())
      transport := fun _ _ => (.error "network access is not available", ())
      clock := Cli.timeStamp seconds }
  let before := filesUnder disk cwd
  let (ending, s) := Cli.runSession "autodoc" outside args
    { disk, cwd, env, input, api := (), host := () }
  IO.print s.output
  for (q, data) in filesUnder s.disk cwd do
    let same := match before.lookup q with
      | some old => old.data == data.data
      | none => false
    if !same then
      let target := { cwdPath with toString := Files.render q }
      if let some parent := target.parent then IO.FS.createDirAll parent
      IO.FS.writeBinFile target data
  if let some kind := ending.crash then IO.eprintln ("error: " ++ kind)
  return ending.code.toUInt32
