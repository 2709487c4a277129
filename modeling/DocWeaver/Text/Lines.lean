import DocWeaver.Text.Blank

/-!
Lines, trimming and words of plain text.

`splitBreaks` cuts text after every line boundary (CR LF counts once) and keeps each break with
its line; `lines` drops the breaks. No empty last line is produced for text that ends in a break.
Trimming and `words` use the blank characters of `DocWeaver.Text.isBlank`.
-/

namespace DocWeaver.Text

def splitBreaksAux (acc : List Char) : List Char → List (List Char × List Char)
  | [] => if acc.isEmpty then [] else [(acc.reverse, [])]
  | '\r' :: '\n' :: rest => (acc.reverse, ['\r', '\n']) :: splitBreaksAux [] rest
  | c :: rest =>
    if isLineBoundary c then (acc.reverse, [c]) :: splitBreaksAux [] rest
    else splitBreaksAux (c :: acc) rest

def splitBreaks (s : List Char) : List (List Char × List Char) := splitBreaksAux [] s

def lines (s : List Char) : List (List Char) := (splitBreaks s).map Prod.fst

def linesWithBreaks (s : List Char) : List (List Char) :=
  (splitBreaks s).map fun p => p.1 ++ p.2

def trimStart (s : List Char) : List Char := s.dropWhile isBlank

def trimEnd (s : List Char) : List Char := (s.reverse.dropWhile isBlank).reverse

def trim (s : List Char) : List Char := trimEnd (trimStart s)

def wordsAux (acc : List Char) : List Char → List (List Char)
  | [] => if acc.isEmpty then [] else [acc.reverse]
  | c :: rest =>
    if isBlank c then (if acc.isEmpty then wordsAux [] rest else acc.reverse :: wordsAux [] rest)
    else wordsAux (c :: acc) rest

def words (s : List Char) : List (List Char) := wordsAux [] s

def splitLines (s : String) : List String := (lines s.toList).map String.ofList

def splitLinesKeep (s : String) : List String := (linesWithBreaks s.toList).map String.ofList

def strip (s : String) : String := String.ofList (trim s.toList)

def stripStart (s : String) : String := String.ofList (trimStart s.toList)

def stripEnd (s : String) : String := String.ofList (trimEnd s.toList)

def splitWords (s : String) : List String := (words s.toList).map String.ofList

def hasContent (s : String) : Bool := s.toList.any fun c => !isBlank c

def dropMargin (l : List Char) : List Char :=
  let l := l.dropWhile isBlank
  let l := match l with
    | '*' :: r => r
    | r => r
  match l with
  | c :: r => if isBlank c then r else c :: r
  | [] => []

def unwrapComment (inner : List Char) : String :=
  String.ofList (trim (List.intercalate ['\n'] ((lines inner).map fun l => trimEnd (dropMargin l))))

end DocWeaver.Text
