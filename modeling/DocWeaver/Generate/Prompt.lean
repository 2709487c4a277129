import DocWeaver.Coverage.Verdict
import DocWeaver.Text.Lines

/-!
Prompts for documentation text, and the cleaning of the text that comes back.

A prompt describes the declaration (kind, name, place, signature, parameters and return type),
shows the code around it, and for a rewrite also the current documentation. The text that comes
back loses surrounding code fences and the marks of a `/** … */` block; it is refused when it is
empty or would end or open a comment.
-/

namespace DocWeaver

def DeclKind.promptLabel : DeclKind → String
  | .function => "function"
  | .klass => "class"
  | .method => "class method"
  | .interface => "interface"
  | .typeAlias => "type alias"
  | .const => "exported constant"

def DeclKind.guidance : DeclKind → String
  | .function => "Describe what the function does, then one @param tag per parameter and @returns if it returns a value."
  | .method => "Describe what the method does, then one @param tag per parameter and @returns if it returns a value."
  | .klass => "Describe the responsibility of the class. Do not document individual members."
  | .interface => "Describe what the interface models. Do not document individual properties."
  | .typeAlias => "Describe what the type represents."
  | .const => "Describe what the constant holds and how it is used."

/-- One declaration to write documentation for, with the code around it. -/
structure GenerationRequest where
  verdict : CoverageVerdict
  context : String
  deriving Repr, Inhabited

def GenerationRequest.declaration (r : GenerationRequest) : Declaration := r.verdict.declaration

/-- The prompt for a request. -/
def buildPrompt (r : GenerationRequest) : String :=
  let d := r.declaration
  let header := [
    "You are an expert technical writer documenting a TypeScript/JavaScript codebase.",
    "Write the body of a JSDoc comment for the declaration below.",
    "",
    "### Declaration:",
    s!"- Kind: {d.kind.promptLabel}",
    s!"- Name: {d.qualifiedName}",
    s!"- File: {d.filePath}:{d.header.startLine}",
    "- Exported: " ++ (if d.exported then "yes" else "no"),
    "- Signature: \x60" ++ d.signature ++ "\x60"]
  let params :=
    if d.parameters.isEmpty then []
    else s!"- Parameters ({d.parameters.length}):" :: d.parameters.map fun p =>
      match p.type with
      | some t => if t.isEmpty then s!"  - {p.name}" else s!"  - {p.name}: {t}"
      | none => s!"  - {p.name}"
  let ret := match d.returnType with
    | some t => if t.isEmpty then [] else [s!"- Return Type: {t}"]
    | none => []
  let code := ["", "### Code:", "\x60\x60\x60typescript", r.context, "\x60\x60\x60"]
  let current := match r.verdict.verdict, d.doc with
    | .regenerate, some c =>
      ["", "### Current Documentation (the code has changed since it was written):", "\x60\x60\x60", c.text, "\x60\x60\x60"]
    | _, _ => []
  let task := ["", "### Task:", d.kind.guidance,
    "- Start with a one-line summary sentence",
    "- Be concise and base the text on the actual implementation",
    "- Output only the comment text: no \x60/**\x60, no \x60*/\x60, no leading \x60*\x60, no code fences"]
  "\n".intercalate (header ++ params ++ ret ++ code ++ current ++ task)

def stripFences (ls : List String) : List String :=
  let ls := match ls with
    | l :: rest => if l.startsWith "\x60\x60\x60" then rest else ls
    | [] => []
  match ls.getLast? with
  | some l => if Text.strip l == "\x60\x60\x60" then ls.dropLast else ls
  | none => ls

def unwrapDocBlock (text : String) : String :=
  if text.startsWith "/**" && text.endsWith "*/" then
    let cs := text.toList
    Text.unwrapComment ((cs.drop 3).take (cs.length - 5))
  else text

def checkInsertable (text : String) : Except String String :=
  if text.isEmpty then .error "empty output"
  else if text.contains "*/" then .error "output contains a comment terminator"
  else if text.startsWith "/*" then .error "output starts an unterminated comment"
  else .ok text

/-- Generated text made ready to insert: code fences around it and the marks of a complete
`/** … */` block removed, then trimmed; or why it cannot be inserted. -/
def cleanGeneratedText (raw : String) : Except String String :=
  checkInsertable (unwrapDocBlock (Text.strip ("\n".intercalate (stripFences (Text.splitLines (Text.strip raw))))))

end DocWeaver
