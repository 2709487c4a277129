/-!
Byte edits of a file, applied in one pass.

An edit replaces the bytes `[start, stop)` of the original. Edits are checked against the
original first, in order of start and then end: each must lie within the file, and none may
start before the previous one ends. The output is then assembled from the end of the file back
to its start. Insertions at the same offset keep their given order.
-/

namespace DocWeaver

/-- Replace the original bytes `[start, stop)` with `replacement`. -/
structure TextEdit where
  start : Int
  stop : Int
  replacement : String
  label : String := ""
  deriving Repr, DecidableEq, Inhabited

def TextEdit.keyLe (a b : TextEdit) : Bool :=
  decide (a.start < b.start) || (decide (a.start = b.start) && decide (a.stop ≤ b.stop))

def sortEdits (es : List TextEdit) : List TextEdit := es.mergeSort TextEdit.keyLe

def editConflict (size : Nat) : Option TextEdit → List TextEdit → Option String
  | _, [] => none
  | prev, e :: es =>
    if e.start < 0 || e.stop < e.start || e.stop > size then
      some s!"Edit {e.label} [{e.start}, {e.stop}) outside file of {size} bytes"
    else
      match prev with
      | some p =>
        if e.start < p.stop then
          some s!"Edits {p.label} [{p.start}, {p.stop}) and {e.label} [{e.start}, {e.stop}) overlap"
        else editConflict size (some e) es
      | none => editConflict size (some e) es

def spliceEdits (original : ByteArray) (cursor : Nat) : List TextEdit → ByteArray
  | [] => original.extract cursor original.size
  | e :: es =>
    original.extract cursor e.start.toNat ++ e.replacement.toUTF8 ++ spliceEdits original e.stop.toNat es

def assembleStep (original : ByteArray) (acc : List ByteArray × Nat) (e : TextEdit) :
    List ByteArray × Nat :=
  (acc.1 ++ [original.extract e.stop.toNat acc.2, e.replacement.toUTF8], e.start.toNat)

def assembleEdits (original : ByteArray) (sorted : List TextEdit) : ByteArray :=
  let acc := sorted.reverse.foldl (assembleStep original) ([], original.size)
  (acc.1 ++ [original.extract 0 acc.2]).reverse.foldl (· ++ ·) ByteArray.empty

/-- The bytes of a file with edits applied, or the conflict that prevents it. -/
def applyEdits (original : ByteArray) (edits : List TextEdit) : Except String ByteArray :=
  let sorted := sortEdits edits
  match editConflict original.size none sorted with
  | some msg => .error msg
  | none => .ok (assembleEdits original sorted)

end DocWeaver
