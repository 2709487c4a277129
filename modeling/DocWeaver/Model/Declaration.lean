/-!
Declarations: the documentable things of a source file, with where they stand in it.

A range is a byte span `[startByte, endByte)` with the 1-based lines of its first and last
byte. A declaration has a header (the text up to its body, trailing blanks left out) and a full
range (header and body), its doc comment if one stands right before it, and its parameters and
return type as written.
-/

namespace DocWeaver

/-- What a declaration declares. -/
inductive DeclKind where
  | function
  | klass
  | method
  | interface
  | typeAlias
  | const
  deriving Repr, DecidableEq, Inhabited

def DeclKind.label : DeclKind → String
  | .function => "function"
  | .klass => "class"
  | .method => "method"
  | .interface => "interface"
  | .typeAlias => "type"
  | .const => "const"

def DeclKind.all : List DeclKind := [.function, .klass, .method, .interface, .typeAlias, .const]

def DeclKind.ofLabel? (s : String) : Option DeclKind :=
  DeclKind.all.find? (·.label == s)

/-- Bytes `[startByte, endByte)` of a file, on the 1-based lines `startLine` to `endLine`. -/
structure SourceRange where
  startByte : Nat
  endByte : Nat
  startLine : Nat
  endLine : Nat
  deriving Repr, DecidableEq, Inhabited

def SourceRange.meetsLines (r : SourceRange) (start stop : Int) : Bool :=
  decide ((r.startLine : Int) ≤ stop) && decide (start ≤ (r.endLine : Int))

/-- A doc comment in the file: where it stands and its text without the comment marks. -/
structure DocComment where
  range : SourceRange
  text : String
  deriving Repr, DecidableEq, Inhabited

/-- A declared parameter: its binding as written and its type annotation, if any. -/
structure Parameter where
  name : String
  type : Option String := none
  deriving Repr, DecidableEq, Inhabited

/-- A documentable declaration of one source file. -/
structure Declaration where
  kind : DeclKind
  name : String
  qualifiedName : String
  filePath : String
  signature : String
  header : SourceRange
  full : SourceRange
  doc : Option DocComment := none
  exported : Bool := false
  parameters : List Parameter := []
  returnType : Option String := none
  deriving Repr, DecidableEq, Inhabited

def Declaration.isDocumented (d : Declaration) : Bool := d.doc.isSome

end DocWeaver
