/-!
Slash-separated paths as text.

A path's parts are its pieces between slashes, empty pieces and `.` left out. Its name is the
last part, and its suffix is the name from the last dot on, when that dot is neither the
first nor the last character of the name.
-/

namespace DocWeaver.Files

def pathParts (p : String) : List String :=
  (p.splitOn "/").filter fun s => s != "" && s != "."

def pathName (p : String) : String := (pathParts p).getLast?.getD ""

def lastDot : List Char → Nat → Option Nat → Option Nat
  | [], _, found => found
  | c :: cs, i, found => lastDot cs (i + 1) (if c == '.' then some i else found)

def pathSuffix (p : String) : String :=
  let cs := (pathName p).toList
  match lastDot cs 0 none with
  | some i => if 0 < i && i + 1 < cs.length then String.ofList (cs.drop i) else ""
  | none => ""

def normalPath (p : String) : String :=
  let parts := pathParts p
  if p.startsWith "/" then "/" ++ "/".intercalate parts
  else if parts.isEmpty then "." else "/".intercalate parts

def joinPath (dir p : String) : String :=
  if p.startsWith "/" then normalPath p else normalPath (dir ++ "/" ++ p)

def parentPath (p : String) : String :=
  let parts := pathParts p
  if parts.isEmpty then normalPath p
  else if p.startsWith "/" then "/" ++ "/".intercalate parts.dropLast
  else if parts.length == 1 then "." else "/".intercalate parts.dropLast

def childPath (dir name : String) : String := if dir.endsWith "/" then dir ++ name else dir ++ "/" ++ name

end DocWeaver.Files
