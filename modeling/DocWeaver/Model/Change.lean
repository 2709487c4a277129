import DocWeaver.Model.Declaration

/-!
Change sets: for each file of a pull request, its status and the lines changed on the new side,
as inclusive 1-based ranges.
-/

namespace DocWeaver

/-- Lines `start` to `stop` of the new side of a diff, both included. -/
structure LineRange where
  start : Int
  stop : Int
  deriving Repr, DecidableEq, Inhabited

/-- What a pull request did to a file. -/
inductive ChangeStatus where
  | added
  | modified
  | removed
  | renamed
  deriving Repr, DecidableEq, Inhabited

def ChangeStatus.label : ChangeStatus → String
  | .added => "added"
  | .modified => "modified"
  | .removed => "removed"
  | .renamed => "renamed"

def ChangeStatus.ofLabel? : String → Option ChangeStatus
  | "added" => some .added
  | "modified" => some .modified
  | "removed" => some .removed
  | "renamed" => some .renamed
  | _ => none

/-- One file of a pull request. -/
structure FileChange where
  path : String
  status : ChangeStatus
  ranges : List LineRange := []
  previousPath : Option String := none
  deriving Repr, DecidableEq, Inhabited

/-- The changed files of a pull request by path, in the order they were first listed. -/
structure ChangeSet where
  files : List (String × FileChange) := []
  deriving Repr, DecidableEq, Inhabited

def ChangeSet.contains (cs : ChangeSet) (path : String) : Bool :=
  cs.files.any (·.1 == path)

def ChangeSet.rangesFor (cs : ChangeSet) (path : String) : List LineRange :=
  match cs.files.lookup path with
  | some c => c.ranges
  | none => []

def ChangeSet.insert (cs : ChangeSet) (c : FileChange) : ChangeSet :=
  if cs.contains c.path then ⟨cs.files.map fun (p, x) => if p == c.path then (p, c) else (p, x)⟩
  else ⟨cs.files ++ [(c.path, c)]⟩

end DocWeaver
