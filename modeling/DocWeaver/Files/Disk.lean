import DocWeaver.Text.Quote

/-!
A file system held in memory.

A disk maps absolute locations, given by their parts, to files, directories and symbolic links;
the root is always a directory. Paths are resolved the way the operating system resolves them:
`.` is dropped, `..` goes up, and a link is replaced by its target, relative to the link's
directory unless the target is absolute. A link whose target does not exist is left as the
target's path. Failures are reported in the wording of the operating system's error messages.
-/

namespace DocWeaver.Files

/-- What a location holds. -/
inductive Entry where
  | file (data : ByteArray)
  | dir
  | link (target : String)
  deriving Inhabited

abbrev Location := List String

def render (p : Location) : String := "/" ++ "/".intercalate p

def relativeTo (base p : Location) : String := "/".intercalate (p.drop base.length)

def isWithin (base p : Location) : Bool := base.isPrefixOf p

def notWithinMessage (base p : Location) : String :=
  Text.quote (render p) ++ " is not in the subpath of " ++ Text.quote (render base)

def osMessage (errno : Nat) (words : String) (paths : List String) : String :=
  s!"[Errno {errno}] " ++ words ++ ": " ++ " -> ".intercalate (paths.map Text.quote)

/-- The disk: the entries below the root. -/
structure Disk where
  entries : List (Location × Entry) := []
  deriving Inhabited

namespace Disk

def entry? (d : Disk) (p : Location) : Option Entry :=
  if p.isEmpty then some .dir else d.entries.lookup p

def resolveFuel (d : Disk) (parts : List String) : Nat := 64 * (d.entries.length + parts.length + 1)

def walkParts (d : Disk) : Nat → Location → List String → Location
  | 0, base, rest => base ++ rest
  | _ + 1, base, [] => base
  | n + 1, base, c :: rest =>
    if c == "." || c == "" then walkParts d n base rest
    else if c == ".." then walkParts d n base.dropLast rest
    else
      let p := base ++ [c]
      match d.entry? p with
      | some (.link t) => walkParts d n (if t.startsWith "/" then [] else base) (t.splitOn "/" ++ rest)
      | _ => walkParts d n p rest

def resolve (d : Disk) (cwd : Location) (path : String) : Location :=
  let parts := path.splitOn "/"
  walkParts d (d.resolveFuel parts) (if path.startsWith "/" then [] else cwd) parts

def follow (d : Disk) (p : Location) : Location := walkParts d (d.resolveFuel p) [] p

def stat? (d : Disk) (p : Location) : Option Entry := d.entry? (d.follow p)

def isDir (d : Disk) (p : Location) : Bool :=
  match d.stat? p with
  | some .dir => true
  | _ => false

def exists? (d : Disk) (p : Location) : Bool := (d.stat? p).isSome

def isLink (d : Disk) (p : Location) : Bool :=
  match d.entry? p with
  | some (.link _) => true
  | _ => false

def children (d : Disk) (p : Location) : List (String × Entry) :=
  d.entries.filterMap fun (q, e) =>
    if q.length == p.length + 1 && p.isPrefixOf q then some (q.getLastD "", e) else none

def put (d : Disk) (p : Location) (e : Entry) : Disk :=
  if (d.entries.lookup p).isSome then
    { entries := d.entries.map fun (q, x) => if q == p then (q, e) else (q, x) }
  else { entries := d.entries ++ [(p, e)] }

def erase (d : Disk) (p : Location) : Disk := { entries := d.entries.filter fun (q, _) => q != p }

def readFile (d : Disk) (p : Location) : Except String ByteArray :=
  match d.stat? p with
  | some (.file data) => .ok data
  | some _ => .error (osMessage 21 "Is a directory" [render p])
  | none => .error (osMessage 2 "No such file or directory" [render p])

def makeDirs (d : Disk) (p : Location) (shown : String) : Except String Disk :=
  let prefixes := (List.range p.length).map fun i => p.take (i + 1)
  prefixes.foldlM (fun (d : Disk) q =>
    match d.stat? q with
    | some .dir => .ok d
    | some _ =>
      if q.length == p.length then .error (osMessage 17 "File exists" [shown])
      else .error (osMessage 20 "Not a directory" [shown])
    | none => .ok (d.put (d.follow q.dropLast ++ [q.getLastD ""]) .dir)) d

def place (d : Disk) (p : Location) : Location := d.follow p.dropLast ++ [p.getLastD ""]

def writeFile (d : Disk) (p : Location) (data : ByteArray) (shown : String) : Except String Disk :=
  let q := d.place p
  match d.entry? q with
  | some .dir => .error (osMessage 21 "Is a directory" [shown])
  | _ => .ok (d.put q (.file data))

def filesBelow (d : Disk) (base : Location) : List (String × ByteArray) :=
  let fs := d.entries.filterMap fun (q, e) =>
    match e with
    | .file data => if isWithin base q && q.length > base.length then some (relativeTo base q, data) else none
    | _ => none
  fs.mergeSort fun a b => decide (a.1 ≤ b.1)

end Disk

end DocWeaver.Files
