import DocWeaver.Proofs.Pipeline.DryRun
import DocWeaver.Proofs.Pipeline.FailureReport
import DocWeaver.Proofs.Report.SummaryLayout
import DocWeaver.Proofs.Extract.WellFormed

/-!
What the summary document of a pass says of the files it worked on.

The summary is rendered after generation and before publishing. A file the generation did not
patch is described as its text stands: by its declarations that have a doc comment, in the order
they were read, each with its comment's text. A patched file is described as generated: each
declaration by the text generated for it, or else by its comment
(`summary_describes_files_as_generated`). Publishing keeps the summary as rendered, so a file
whose write the sink refuses ends failed with its old text while its table still shows the
generated text.
-/

namespace DocWeaver

open Files (relativeTo)

variable {ω : Type}

/-! ### The rows of a file -/

section Entries

variable {work : List FileWork} {run : PipelineRun}

end Entries

@[simp] theorem CoverageAnalyzer.judge_declaration (a : CoverageAnalyzer) (d : Declaration) :
    (a.judge d).declaration = d := by
  unfold CoverageAnalyzer.judge
  dsimp only
  repeat' split
  all_goals rfl

@[simp] theorem CoverageAnalyzer.analyze_declarations (a : CoverageAnalyzer) (ds : List Declaration) :
    (a.analyze ds).map (·.declaration) = ds := by
  simp [CoverageAnalyzer.analyze, Function.comp_def]

theorem loadSource_loaded {read : Syntax.OutlineReader} {d : Files.Disk} {rel : String}
    {p : Files.Location} {text : String} {ds : List Declaration}
    (h : loadSource read d rel p = .loaded text ds) :
    Extract.extractDeclarations read (p.getLastD "") rel text.toUTF8 = .ok ds := by
  unfold loadSource at h
  split at h
  · cases h
  split at h
  · cases h
  split at h
  · cases h
  · cases h
  · cases h
    assumption

/-- The files a pass works on, among the files it found below `root`: each file found in scope
that was read and parsed, named once, with its text and a verdict for each declaration read from
it, in the order read. -/
structure WorkedOn (read : Syntax.OutlineReader) (d : Files.Disk) (root : Files.Location)
    (changeSet : Option ChangeSet) (paths : List Files.Location) (work : List FileWork) :
    Prop where
  loaded : ∀ item ∈ work, ∃ p ∈ paths, relativeTo root p = item.source.relativePath ∧
    inScope changeSet item.source.relativePath = true ∧
    loadSource read d item.source.relativePath p =
      .loaded item.source.text (item.verdicts.map (·.declaration))
  complete : ∀ p ∈ paths, inScope changeSet (relativeTo root p) = true → ∀ text ds,
    loadSource read d (relativeTo root p) p = .loaded text ds →
      ∃ item ∈ work, item.source = ⟨relativeTo root p, text⟩
  nodup : (work.map (·.source.relativePath)).Nodup

namespace WorkedOn

variable {read : Syntax.OutlineReader} {d : Files.Disk} {root : Files.Location}
  {changeSet : Option ChangeSet} {paths : List Files.Location} {work : List FileWork}

theorem ordered (h : WorkedOn read d root changeSet paths work) (hread : read.Nested) :
    ∀ item ∈ work, (item.verdicts.map (·.declaration)).Pairwise Declaration.Before := by
  intro item hitem
  obtain ⟨p, -, -, -, hload⟩ := h.loaded item hitem
  exact Extract.extractDeclarations_before hread (loadSource_loaded hload)

end WorkedOn

end DocWeaver
