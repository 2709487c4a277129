import DocWeaver.Console.Cells
import DocWeaver.Numeric.Binary64

/-!
Laying text out on a terminal of a fixed width: wrapped paragraphs, boxed tables, fitted panels,
the line of a progress bar, and code shown line by line.

Wrapping breaks a line between words, keeping each word's trailing blanks on its line, and cuts
a word longer than the width into pieces. Tables have a heavy head and light body; panels have
rounded corners and fit their content.
-/

namespace DocWeaver.Console

def screenWidth : Nat := 100

def wordsFrom (cs : List Char) (pos : Nat) (fuel : Nat) : List (Nat × List Char) :=
  match fuel with
  | 0 => []
  | fuel + 1 =>
    let lead := cs.takeWhile Char.isWhitespace
    let rest := cs.drop lead.length
    let body := rest.takeWhile (!·.isWhitespace)
    if body.isEmpty then []
    else
      let rest := rest.drop body.length
      let trail := rest.takeWhile Char.isWhitespace
      let word := lead ++ body ++ trail
      (pos, word) :: wordsFrom (rest.drop trail.length) (pos + word.length) fuel

def breakOffsets (width : Nat) (words : List (Nat × List Char)) : List Nat :=
  let step (acc : List Nat × Nat) (w : Nat × List Char) : List Nat × Nat :=
    let (breaks, offset) := acc
    let (start, word) := w
    let wordLen := cellLen (String.ofList (word.reverse.dropWhile Char.isWhitespace).reverse)
    if width - offset ≥ wordLen && offset ≤ width then (breaks, offset + cellLen (String.ofList word))
    else if wordLen > width then
      let pieces := chopCells width word (word.length + 1)
      let (breaks, _, offset) := pieces.foldl (fun (bs, s, _) piece =>
        ((if s > 0 then bs ++ [s] else bs), s + piece.length, cellLen piece)) (breaks, start, 0)
      (breaks, offset)
    else (breaks ++ [start], cellLen (String.ofList word))
  (words.foldl step ([], 0)).1

def cutAt (cs : List Char) (offsets : List Nat) : List (List Char) :=
  let bounds := 0 :: offsets ++ [cs.length]
  (bounds.zip bounds.tail).map fun (a, b) => (cs.drop a).take (b - a)

def trimOver (width : Nat) (cs : List Char) : List Char :=
  if cs.length > width then
    let blanks := (cs.reverse.takeWhile Char.isWhitespace).length
    cs.take (cs.length - min blanks (cs.length - width))
  else cs

def wrapLine (width : Nat) (line : String) : List String :=
  let cs := line.toList
  let pieces := cutAt cs (breakOffsets width (wordsFrom cs 0 (cs.length + 1)))
  pieces.map fun p => cropCells width (String.ofList (trimOver width p))

def wrapText (width : Nat) (text : String) : List String := (text.splitOn "\n").flatMap (wrapLine width)

def justifyCells (right : Bool) (width : Nat) (s : String) : String :=
  let gap := String.ofList (List.replicate (width - cellLen s) ' ')
  if right then gap ++ s else s ++ gap

def centerCells (width : Nat) (s : String) : String :=
  let excess := width - cellLen s
  let left := excess / 2
  String.ofList (List.replicate left ' ') ++ s ++ String.ofList (List.replicate (excess - left) ' ')

/-- A column of a table: its header and whether its cells are aligned right. -/
structure Column where
  header : String
  right : Bool := false

/-- A table: a title, columns, rows, and the rows after which a section ends. -/
structure Table where
  title : String
  columns : List Column
  rows : List (List String) := []
  sectionEnds : List Nat := []

def Table.render (t : Table) : List String :=
  let widths := t.columns.zipIdx.map fun (c, i) =>
    (c.header :: t.rows.map fun r => r.getD i "").foldl (fun m s => max m (cellLen s)) 0 + 2
  let total := widths.foldl (· + ·) 0 + widths.length + 1
  let rule (l m r h : String) : String :=
    l ++ m.intercalate (widths.map fun w => String.join (List.replicate w h)) ++ r
  let cells (sep : String) (r : List String) : String :=
    sep ++ sep.intercalate ((t.columns.zip widths).zipIdx.map fun ((c, w), i) =>
      " " ++ justifyCells c.right (w - 2) (r.getD i "") ++ " ") ++ sep
  let body := t.rows.zipIdx.flatMap fun (r, i) =>
    cells "│" r :: (if t.sectionEnds.contains i && i + 1 < t.rows.length then [rule "├" "┼" "┤" "─"] else [])
  [centerCells total t.title, rule "┏" "┳" "┓" "━", cells "┃" (t.columns.map (·.header)),
    rule "┡" "╇" "┩" "━"] ++ body ++ [rule "└" "┴" "┘" "─"]

def panelLines (lines : List String) : List String :=
  let w := min (lines.foldl (fun m s => max m (cellLen s)) 0) (screenWidth - 4)
  let bar := String.join (List.replicate (w + 2) "─")
  ["╭" ++ bar ++ "╮"] ++ lines.map (fun l => "│ " ++ fitCells w l ++ " │") ++ ["╰" ++ bar ++ "╯"]

def barWidth : Nat := 40

def progressLine (description : String) (report : Option (Nat × Nat)) : String :=
  match report with
  | none => "* " ++ description ++ " " ++ String.join (List.replicate barWidth "━") ++ "  "
  | some (c, t) =>
    let c := min c t
    let halves := if t == 0 then barWidth * 2 else barWidth * 2 * c / t
    let bar := String.join (List.replicate (halves / 2) "━") ++ (if halves % 2 == 1 then "╸" else "")
    let pct := if t == 0 then "100%" else
      let p := Numeric.Binary64.percent (Numeric.Binary64.ofRatio false c t)
      String.ofList (List.replicate (4 - p.length) ' ') ++ p
    (if c ≥ t then " " else "*") ++ " " ++ description ++ " " ++ fitCells barWidth bar ++ " " ++ pct

def expandTabs (size : Nat) (line : String) : String :=
  String.ofList (line.toList.foldl (fun acc c =>
    if c == '\t' then acc ++ List.replicate (size - acc.length % size) ' ' else acc ++ [c]) [])

def codeLines (code : String) : List String :=
  let text := (code.replace "\r\n" "\n").replace "\r" "\n"
  let text := if text.endsWith "\n" then text else text ++ "\n"
  let lines := text.splitOn "\n"
  let lines := if code.endsWith "\n" then lines else lines.dropLast
  lines.map fun l => fitCells screenWidth (expandTabs 4 l)

end DocWeaver.Console
