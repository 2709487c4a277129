import DocWeaver.Text.Lines

/-!
Doc comments as written into a file. Text of one line becomes `/** text */`; longer text
becomes a block whose continuation lines carry the declaration's indentation and ` * `.
-/

namespace DocWeaver

/-- The comment for documentation `text`, continuation lines indented by `indent` and joined
by `newline`. -/
def formatDocComment (text : String) (indent : String := "") (newline : String := "\n") : String :=
  let ls := (Text.splitLines (Text.strip text)).map Text.stripEnd
  match ls with
  | [l] => s!"/** {l} */"
  | _ =>
    let body := ls.map fun l => if l.isEmpty then s!"{indent} *" else s!"{indent} * {l}"
    newline.intercalate ("/**" :: body ++ [s!"{indent} */"])

end DocWeaver
