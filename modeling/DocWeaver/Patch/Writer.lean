import DocWeaver.Patch.Edit
import DocWeaver.Patch.Comment
import DocWeaver.Coverage.Verdict
import DocWeaver.Text.Diff
import DocWeaver.Text.Utf8

/-!
Patches: the edits that write generated documentation into one file.

A new comment goes on its own line right before the declaration's header, with the header's
indentation; when other code stands before the header on its line, the line is broken there.
A rewritten comment replaces the old one in place. Line breaks follow the file: CRLF when the
header's line ends with one, or when it is the last line and the file uses CRLF anywhere.
-/

namespace DocWeaver

/-- A loaded source file. -/
structure SourceFile where
  relativePath : String
  text : String
  deriving Repr, DecidableEq, Inhabited

def SourceFile.data (f : SourceFile) : ByteArray := f.text.toUTF8

/-- All edits for one file, against its original text. -/
structure Patch where
  relativePath : String
  edits : List TextEdit := []
  deriving Repr, DecidableEq, Inhabited

def lineStartOf (data : ByteArray) (i : Nat) : Nat :=
  match ((data.extract 0 i).toList.reverse.findIdx? (· == 10)) with
  | some k => i - k
  | none => 0

def lineFeedFrom (data : ByteArray) (i : Nat) : Option Nat :=
  ((data.extract i data.size).toList.findIdx? (· == 10)).map (· + i)

def hasCrlf (data : ByteArray) : Bool :=
  let bs := data.toList
  (bs.zip (bs.drop 1)).any fun (a, b) => a == 13 && b == 10

def lineBreakAt (data : ByteArray) (i : Nat) : String :=
  match lineFeedFrom data i with
  | some e => if e > 0 && data[e - 1]? == some 13 then "\r\n" else "\n"
  | none => if hasCrlf data then "\r\n" else "\n"

def leadingIndent (s : String) : String :=
  String.ofList (s.toList.takeWhile fun c => c == ' ' || c == '\t')

/-- The edit that writes documentation `text` for a verdict, if the verdict asks for one. -/
def editFor (data : ByteArray) (v : CoverageVerdict) (text : String) : Option TextEdit :=
  let d := v.declaration
  match v.verdict with
  | .skip => none
  | .generate =>
    let start := d.header.startByte
    let ls := lineStartOf data start
    let prefixBytes := data.extract ls start
    let indent := leadingIndent (Text.Utf8.decodeLossy prefixBytes)
    let newline := lineBreakAt data start
    let comment := formatDocComment text indent newline
    if prefixBytes.toList.any (fun b => !(b == 32 || (9 ≤ b && b ≤ 13))) then
      some ⟨start, start, comment ++ newline ++ indent, d.qualifiedName⟩
    else
      some ⟨ls, ls, indent ++ comment ++ newline, d.qualifiedName⟩
  | .regenerate =>
    let r := match d.doc with
      | some c => c.range
      | none => d.header
    let ls := lineStartOf data r.startByte
    let indent := leadingIndent (Text.Utf8.decodeLossy (data.extract ls r.startByte))
    let newline := lineBreakAt data r.startByte
    some ⟨r.startByte, r.endByte, formatDocComment text indent newline, d.qualifiedName⟩

/-- The patch that writes generated documentation for the given verdicts of one file. -/
def buildPatch (source : SourceFile) (items : List (CoverageVerdict × String)) : Patch :=
  let data := source.data
  ⟨source.relativePath, items.filterMap fun (v, t) => editFor data v t⟩

/-- How applying a patch went. -/
inductive Applied where
  | unchanged (file : SourceFile)
  | changed (file : SourceFile)
  | undecodable (error : Text.Utf8.DecodeError)
  deriving Inhabited

/-- A source file with a patch applied, or the conflict that prevents it. -/
def applyPatch (source : SourceFile) (p : Patch) : Except String Applied :=
  if p.edits.isEmpty then .ok (.unchanged source)
  else do
    let bytes ← applyEdits source.data p.edits
    match Text.Utf8.decode bytes with
    | .ok t => pure (.changed { source with text := t })
    | .error e => pure (.undecodable e)

def diffFiles (old new : SourceFile) : String :=
  Text.unifiedDiff (Text.splitLinesKeep old.text) (Text.splitLinesKeep new.text)
    s!"a/{old.relativePath}" s!"b/{new.relativePath}"

end DocWeaver
