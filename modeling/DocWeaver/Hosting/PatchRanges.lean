import DocWeaver.Model.Change
import DocWeaver.Text.Lines
import DocWeaver.Text.Digits

/-!
Changed lines of a unified diff, on its new side.

Inside a hunk an added line counts as changed, and a removed line marks the new-side line at the
point of removal (at least line 1), so a change that only removes code still touches the code
around it. Lines before the first hunk header and `\` lines are ignored.
-/

namespace DocWeaver

/-- Line numbers collapsed into ranges of consecutive lines, in order, duplicates dropped. -/
def mergeLines (ls : List Int) : List LineRange :=
  let sorted := (ls.mergeSort (· ≤ ·)).eraseDups
  (sorted.foldl (fun acc l => match acc with
    | r :: rest => if l == r.stop + 1 then ⟨r.start, l⟩ :: rest else ⟨l, l⟩ :: r :: rest
    | [] => [⟨l, l⟩]) []).reverse

def spanDecimal (cs : List Char) : List Char × List Char :=
  (cs.takeWhile Text.isDecimalDigit, cs.dropWhile Text.isDecimalDigit)

def skipCount (cs : List Char) : Option (List Char) :=
  match cs with
  | ',' :: rest =>
    let (ds, r) := spanDecimal rest
    if ds.isEmpty then none else some r
  | _ => some cs

/-- The new-side start line of a hunk header `@@ -a[,b] +c[,d] @@`. -/
def hunkStart (line : String) : Option Nat := do
  let cs := line.toList
  let cs ← match cs with
    | '@' :: '@' :: ' ' :: '-' :: r => some r
    | _ => none
  let (d1, r) := spanDecimal cs
  if d1.isEmpty then none
  -- a count without digits after it ends the old side: the header does not match
  let r ← match r with
    | ',' :: r' => if (spanDecimal r').1.isEmpty then none else some (spanDecimal r').2
    | _ => some r
  let r ← match r with
    | ' ' :: '+' :: r' => some r'
    | _ => none
  let (d2, r) := spanDecimal r
  if d2.isEmpty then none
  let r ← skipCount r
  match r with
  | ' ' :: '@' :: '@' :: _ => some (Text.digitsNumber d2)
  | _ => none

/-- The changed new-side lines of a diff's lines, from line `next` within a hunk or not. -/
def changedLines : List String → Int → Bool → List Int → List Int
  | [], _, _, acc => acc.reverse
  | l :: ls, next, inHunk, acc =>
    match hunkStart l with
    | some s => changedLines ls s true acc
    | none =>
      if !inHunk || l.startsWith "\\" then changedLines ls next inHunk acc
      else if l.startsWith "+" then changedLines ls (next + 1) inHunk (next :: acc)
      else if l.startsWith "-" then changedLines ls next inHunk (max next 1 :: acc)
      else changedLines ls (next + 1) inHunk acc

/-- The changed line ranges of a unified diff, sorted and merged. -/
def parsePatchRanges (patch : String) : List LineRange :=
  mergeLines (changedLines (Text.splitLines patch) 0 false [])

end DocWeaver
