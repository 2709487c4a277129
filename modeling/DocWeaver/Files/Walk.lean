import DocWeaver.Files.Disk
import DocWeaver.Files.Path

/-!
Finding the source files below a root directory.

The walk goes top-down: in each directory it takes the files, sorted by name, then the
subdirectories, sorted by name, one after the other. An excluded directory name prunes its
whole subtree wherever it occurs; an excluded file name drops every file of that name. Only
files whose suffix is one of the given ones are kept. Links to directories are listed but not
entered, and links to anything else count as files.
-/

namespace DocWeaver.Files

def sourceExtensions : List String := [".ts", ".tsx", ".mts", ".cts", ".js", ".jsx", ".mjs", ".cjs"]

def sortNames (names : List String) : List String := names.mergeSort fun a b => decide (a ≤ b)

/-- What to skip and what to keep in a walk. -/
structure WalkRules where
  excludedDirectories : List String := []
  excludedFiles : List String := []
  suffixes : List String := sourceExtensions

/-- The files the walk yields from a directory and below, in order. -/
def walkFrom (d : Disk) (rules : WalkRules) : Nat → Location → List Location
  | 0, _ => []
  | n + 1, dir =>
    let names := sortNames ((d.children dir).map (·.1))
    let files := names.filter fun nm => !d.isDir (dir ++ [nm])
    let dirs := names.filter fun nm => d.isDir (dir ++ [nm]) && !rules.excludedDirectories.contains nm
    let here := (files.filter fun nm =>
      !rules.excludedFiles.contains nm && rules.suffixes.contains (pathSuffix nm)).map (dir ++ [·])
    here ++ dirs.flatMap fun nm =>
      if d.isLink (dir ++ [nm]) then [] else walkFrom d rules n (dir ++ [nm])

/-- The source files below `root`, resolved from `cwd`, as locations in walk order. A root that
is not a directory is an error naming its resolved path. -/
def sourceFiles (d : Disk) (cwd : Location) (root : String) (rules : WalkRules) :
    Except String (List Location) :=
  let r := d.resolve cwd root
  if d.isDir r then .ok (walkFrom d rules (d.entries.length + 1) r)
  else .error ("Root directory does not exist: " ++ render r)

end DocWeaver.Files
