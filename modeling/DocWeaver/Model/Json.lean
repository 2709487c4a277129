import DocWeaver.Model.Declaration
import DocWeaver.Data.Json

/-!
The JSON form of declarations: objects with snake_case keys, kinds as their words, absent
optional parts as `null`.
-/

namespace DocWeaver

def SourceRange.toJson (r : SourceRange) : JsonValue :=
  .obj [("start_byte", .int r.startByte), ("end_byte", .int r.endByte),
    ("start_line", .int r.startLine), ("end_line", .int r.endLine)]

def DocComment.toJson (d : DocComment) : JsonValue :=
  .obj [("range", d.range.toJson), ("text", .str d.text)]

def JsonValue.ofOption (s : Option String) : JsonValue :=
  match s with
  | some t => .str t
  | none => .null

def Parameter.toJson (p : Parameter) : JsonValue :=
  .obj [("name", .str p.name), ("type", JsonValue.ofOption p.type)]

def Declaration.toJson (d : Declaration) : JsonValue :=
  .obj [("kind", .str d.kind.label), ("name", .str d.name), ("qualified_name", .str d.qualifiedName),
    ("file_path", .str d.filePath), ("signature", .str d.signature),
    ("header", d.header.toJson), ("full", d.full.toJson),
    ("doc", match d.doc with
      | some c => c.toJson
      | none => .null),
    ("exported", .bool d.exported),
    ("parameters", .arr (d.parameters.map Parameter.toJson)),
    ("return_type", JsonValue.ofOption d.returnType)]

def JsonValue.natField? (j : JsonValue) (k : String) : Option Nat := do
  let n ← (← j.field? k).int?
  if n < 0 then none else pure n.toNat

def SourceRange.ofJson? (j : JsonValue) : Option SourceRange := do
  pure ⟨← j.natField? "start_byte", ← j.natField? "end_byte", ← j.natField? "start_line",
    ← j.natField? "end_line"⟩

def JsonValue.optStr? (j : JsonValue) (k : String) : Option (Option String) :=
  match j.field? k with
  | none | some .null => some none
  | some (.str s) => some (some s)
  | some _ => none

def Declaration.ofJson? (j : JsonValue) : Option Declaration := do
  let kind ← DeclKind.ofLabel? (← (← j.field? "kind").str?)
  let doc ← match j.field? "doc" with
    | none | some .null => some none
    | some d => do pure (some ⟨← SourceRange.ofJson? (← d.field? "range"), ← (← d.field? "text").str?⟩)
  let params ← match j.field? "parameters" with
    | none => some []
    | some ps => (← ps.arr?).mapM fun p => do
      pure (⟨← (← p.field? "name").str?, ← p.optStr? "type"⟩ : Parameter)
  pure { kind, name := ← (← j.field? "name").str?, qualifiedName := ← (← j.field? "qualified_name").str?
         filePath := ← (← j.field? "file_path").str?, signature := ← (← j.field? "signature").str?
         header := ← SourceRange.ofJson? (← j.field? "header"), full := ← SourceRange.ofJson? (← j.field? "full")
         doc, exported := (j.field? "exported").bind JsonValue.bool? |>.getD false
         parameters := params, returnType := ← j.optStr? "return_type" }

end DocWeaver
