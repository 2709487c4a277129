import DocWeaver.Model.Run
import DocWeaver.Text.Lines

/-!
Markdown written about a run: the API summary document, the pull request description, and the
review report.
-/

namespace DocWeaver.Report

def descriptionOf (text : String) : String :=
  let t := Text.strip text
  let first := if t.isEmpty then "" else (Text.splitLines t).headD ""
  first.replace "|" "\\|"

def summaryRow (d : Declaration) (text : String) : String :=
  "| `" ++ d.qualifiedName ++ "` | " ++ d.kind.label ++ " | " ++ (if d.exported then "yes" else "no") ++
    " | " ++ descriptionOf text ++ " |"

def summaryLines (entries : List (String × List (Declaration × String))) : List String :=
  let total := (entries.map (·.2.length)).foldl (· + ·) 0
  let head := ["# API Summary", "", s!"{total} documented declarations across {entries.length} files.", ""]
  let sorted := entries.mergeSort fun a b => decide (a.1 ≤ b.1)
  let body := sorted.flatMap fun (path, rows) =>
    ["## `" ++ path ++ "`", "", "| Declaration | Kind | Exported | Description |", "| --- | --- | --- | --- |"] ++
      rows.map (fun (d, t) => summaryRow d t) ++ [""]
  head ++ body

def renderSummaryDocument (entries : List (String × List (Declaration × String))) : String :=
  "\n".intercalate (summaryLines entries)

def renderPullRequestBody (run : PipelineRun) : String :=
  let s := run.summary
  let head := ["This pull request adds JSDoc documentation generated by autodoc.", "",
    s!"- Generated: {s.generated}", s!"- Regenerated: {s.regenerated}", s!"- Files changed: {s.patchedFiles}",
    "", "### Modified files", ""]
  let files := run.patchedFiles.flatMap fun r =>
    ("- `" ++ r.relativePath ++ "`") :: r.documented.map fun n => "  - `" ++ n ++ "`"
  let extras := (run.extraFiles.map (·.1)).mergeSort (fun a b => decide (a ≤ b)) |>.map fun p => "- `" ++ p ++ "`"
  let failed := run.failedDeclarations
  let tail := if failed.isEmpty then []
    else ["", "### Not documented", ""] ++ failed.map fun (n, why) => "- `" ++ n ++ "`: " ++ why
  "\n".intercalate (head ++ files ++ extras ++ tail)

def fileSection (r : FileResult) : String :=
  let reason := match r.reason with
    | some why => if why.isEmpty then "" else "**Reason:** " ++ why ++ "\n"
    | none => ""
  let failures := String.join (r.failedDeclarations.map fun (n, why) => "- `" ++ n ++ "` failed: " ++ why ++ "\n")
  let failures := if r.failedDeclarations.isEmpty then "" else failures ++ "\n"
  let diff := match r.diff with
    | some d => if d.isEmpty then "" else "```diff\n" ++ d ++ (if d.endsWith "\n" then "" else "\n") ++ "```\n\n"
    | none => ""
  "## " ++ r.relativePath ++ "\n\n" ++ "**Outcome:** " ++ r.outcome.label ++ "\n" ++ reason ++ "\n" ++ failures ++ diff

def reportText (run : PipelineRun) : String :=
  let counts := String.join (run.summary.entries.map fun (k, v) => "- " ++ k.replace "_" " " ++ s!": {v}\n")
  let errors := if run.publishErrors.isEmpty then ""
    else "## Publishing errors\n\n" ++ String.join (run.publishErrors.map fun e => "- " ++ e ++ "\n") ++ "\n"
  let shown := run.files.filter fun r => !(r.outcome == .unchanged && r.failedDeclarations.isEmpty)
  "# Documentation Report\n\n" ++ "**Mode:** " ++ run.mode.label ++ "\n" ++ "**Output:** " ++ run.output.label ++
    "\n\n" ++ counts ++ "\n" ++ errors ++ String.join (shown.map fileSection)

end DocWeaver.Report
