import DocWeaver.Syntax.Program
import DocWeaver.Model.Declaration
import DocWeaver.Files.Path
import DocWeaver.Text.Lines
import DocWeaver.Text.LineTable

/-!
Declarations from the outline of a file.

Each top-level statement gives at most one declaration, a class also one per method of its
body. A function, class, interface or type alias statement declares itself; a variable
statement with a single binding to a function declares a function of the binding's name; an
exported `const` statement with other bindings declares a constant named by all its bindings.
The anchor of a declaration is its statement, `export` included, or for a method the first of
the decorators that stand right before it. A doc comment is a `/** … */` comment that is the
item right before the anchor with nothing but ASCII blank space between them.
-/

namespace DocWeaver.Extract

open DocWeaver.Syntax
open DocWeaver.Text

/-- Why a file gave no declarations. -/
inductive ExtractError where
  | unsupported (suffix : String)
  | malformed (path : String) (line : Option Nat)
  deriving Repr, DecidableEq, Inhabited

def syntaxMessage (path : String) (line : Option Nat) : String :=
  match line with
  | some l => if l == 0 then s!"Syntax error in {path}" else s!"Syntax error in {path}:{l}"
  | none => s!"Syntax error in {path}"

/-- A doc comment's text: the text between `/**` and `*/`, each line without its leading
blanks, one `*` and one blank after it, and without trailing blanks; then trimmed. -/
def cleanDocText (raw : String) : String :=
  let cs := raw.toList
  unwrapComment (if raw.endsWith "*/" then (cs.drop 3).take (cs.length - 5) else cs.drop 3)

def stripAnnotation (s : String) : String :=
  strip (String.ofList (s.toList.dropWhile (· == ':')))

/-- What the walk over one file knows. -/
structure Walk where
  src : ByteArray
  path : String
  lines : LineTable

def Walk.text (w : Walk) (s : Span) : String := Utf8.slice w.src s.start s.stop

def Walk.range (w : Walk) (start stop : Nat) : SourceRange :=
  ⟨start, stop, w.lines.line start, w.lines.line (max start (stop - 1))⟩

def Walk.docComment (w : Walk) (prev : Option Span) (anchor : Nat) : Option DocComment :=
  match prev with
  | none => none
  | some c =>
    let raw := w.text c
    if !raw.startsWith "/**" || raw == "/**/" then none
    else if (w.src.extract c.stop anchor).toList.any (fun b => !isAsciiBlank (Char.ofNat b.toNat)) then none
    else some ⟨w.range c.start c.stop, cleanDocText raw⟩

def Walk.parameters (w : Walk) (c : Callable) : List Parameter :=
  c.params.map fun p => ⟨w.text p.binding, p.annotation.map fun a => stripAnnotation (w.text a)⟩

def Walk.declaration (w : Walk) (kind : DeclKind) (name qualified : String) (prev : Option Span)
    (anchor node : Span) (body : Option Span) (exported : Bool) (c : Callable) : Declaration :=
  let start := anchor.start
  let stop := max anchor.stop node.stop
  let headerEnd := match body with
    | some b => b.start
    | none => stop
  let headerText := w.text ⟨start, headerEnd⟩
  { kind, name, qualifiedName := qualified, filePath := w.path
    signature := " ".intercalate (splitWords headerText)
    header := w.range start (start + (stripEnd headerText).utf8ByteSize)
    full := w.range start stop
    doc := w.docComment prev start
    exported
    parameters := w.parameters c
    returnType := c.returnType.map fun r => stripAnnotation (w.text r) }

def Walk.nameOr (w : Walk) (n : Option Span) : String :=
  match n with
  | some s => let t := w.text s; if t.isEmpty then "default" else t
  | none => "default"

def leadingDecorators : List Member → List Span × List Member
  | .decorator s :: rest => let (ds, r) := leadingDecorators rest; (s :: ds, r)
  | r => ([], r)

def Member.comment? : List Member → Option Span
  | .comment s :: _ => some s
  | _ => none

def Walk.methods (w : Walk) (owner : String) (ownerExported : Bool) :
    List Member → List Member → List Declaration
  | _, [] => []
  | before, m :: rest =>
    let here := match m with
      | .method span nameSpan isPrivate body callable =>
        let (ds, r) := leadingDecorators before
        let anchor := ds.getLast?.getD span
        let name := w.text nameSpan
        let priv := isPrivate || name.startsWith "#"
        [w.declaration .method name s!"{owner}.{name}" (Member.comment? r) anchor span body
          (ownerExported && !priv) callable]
      | _ => []
    here ++ w.methods owner ownerExported (m :: before) rest

/-- The declarations of a statement node anchored at `anchor`. -/
def Walk.node (w : Walk) (prev : Option Span) (anchor : Span) (exported : Bool) : Decl → List Declaration
  | .variables span isConst ds =>
    match ds with
    | [] => []
    | [⟨n, some (.function vs f)⟩] =>
      let name := w.text n
      [w.declaration .function name name prev anchor vs f.body exported f.callable]
    | _ =>
      if exported && isConst then
        let name := ", ".intercalate (ds.map fun d => w.text d.name)
        [w.declaration .const name name prev anchor span none exported {}]
      else []
  | .function span f =>
    let name := w.nameOr f.name
    [w.declaration .function name name prev anchor span f.body exported f.callable]
  | .klass span c =>
    let name := w.nameOr c.name
    w.declaration .klass name name prev anchor span (some c.body) exported {} ::
      w.methods name exported [] c.members
  | .interface span n body =>
    let name := w.nameOr (some n)
    [w.declaration .interface name name prev anchor span (some body) exported {}]
  | .typeAlias span n =>
    let name := w.nameOr (some n)
    [w.declaration .typeAlias name name prev anchor span none exported {}]
  | .other _ => []

def Item.comment? : List Item → Option Span
  | .comment s :: _ => some s
  | _ => none

def Walk.items (w : Walk) : List Item → List Item → List Declaration
  | _, [] => []
  | before, it :: rest =>
    let here := match it with
      | .export span (some d) => w.node (Item.comment? before) span true d
      | .decl d => w.node (Item.comment? before) d.span false d
      | _ => []
    here ++ w.items (it :: before) rest

/-- The declarations of a file's outline, in document order; `relPath` is the path that they
name. -/
def declarationsOf (src : ByteArray) (relPath : String) (items : List Item) : List Declaration :=
  (Walk.mk src relPath (LineTable.ofBytes src)).items [] items

/-- The declarations of a source file in document order, read with `read`. `name` is the file's
path, whose suffix picks the grammar, and `relPath` the path that declarations and errors name. -/
def extractDeclarations (read : OutlineReader) (name relPath : String) (src : ByteArray) :
    Except ExtractError (List Declaration) :=
  let suffix := Files.pathSuffix name
  match Dialect.ofSuffix? suffix with
  | none => .error (.unsupported suffix)
  | some dialect =>
    match read src dialect with
    | .error pos => .error (.malformed relPath (some (lineOf src pos)))
    | .ok items => .ok (declarationsOf src relPath items)

end DocWeaver.Extract
