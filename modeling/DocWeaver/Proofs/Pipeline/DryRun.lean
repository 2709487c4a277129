import DocWeaver.Proofs.Pipeline.Accounting
import DocWeaver.Proofs.Generate.RetryPolicy
import DocWeaver.Proofs.Patch.ReadBack

/-!
A pass and its dry run.

Nothing a pass does before it publishes reads where its output goes: the files are found, judged
and worked on, and the summary document rendered, as in the same pass run dry. So a pass is its
dry run followed by publishing the run the dry run returns (`runPipeline_eq_dryRun_published`).
The pass of `RefusedWrite` documents its one file, and its sink refuses to write it.
-/

namespace DocWeaver

variable {ω : Type}

/-! ### The stages of a dry run -/

theorem AutodocConfig.mode_withOutput (cfg : AutodocConfig) (o : OutputMode) :
    ({ cfg with output := o } : AutodocConfig).mode = cfg.mode := rfl

theorem AutodocConfig.scopeTo_withOutput (cfg : AutodocConfig) (o : OutputMode)
    (pullNumber : Option Int) :
    ({ cfg with output := o } : AutodocConfig).scopeTo pullNumber =
      { cfg.scopeTo pullNumber with output := o } := by
  cases pullNumber <;> rfl

theorem checkServices_dryRun {cfg : AutodocConfig} {svc : Services ω}
    (h : checkServices cfg svc = .ok ()) : checkServices { cfg with output := .dryRun } svc = .ok () := by
  unfold checkServices at h ⊢
  split at h
  · cases h
  split at h
  · cases h
  rename_i hgen hchanges
  rw [AutodocConfig.mode_withOutput, if_neg hgen, if_neg hchanges]
  rfl

theorem analyzeFiles_withOutput (read : Syntax.OutlineReader) (d : Files.Disk)
    (root : Files.Location) (coverage : CoverageAnalyzer) (changeSet : Option ChangeSet)
    (paths : List Files.Location) (work : List FileWork) (run : PipelineRun) (o : OutputMode) :
    analyzeFiles read d root coverage changeSet paths (work, { run with output := o }) =
      ((analyzeFiles read d root coverage changeSet paths (work, run)).1,
        { (analyzeFiles read d root coverage changeSet paths (work, run)).2 with output := o }) := by
  rw [analyzeFiles_eq, analyzeFiles_eq]

theorem generateStage_withOutput (cfg : AutodocConfig) (svc : Services ω) (work : List FileWork)
    (run : PipelineRun) (s : ω) (o : OutputMode) :
    generateStage { cfg with output := o } svc work { run with output := o } s =
      match generateStage cfg svc work run s with
      | (.ok (work, run, progress), s) => (.ok (work, { run with output := o }, progress), s)
      | (.error e, s) => (.error e, s) := by
  unfold generateStage
  dsimp only
  split
  · split <;> rfl
  · rfl

theorem withSummary_withOutput (cfg : AutodocConfig) (work : List FileWork) (run : PipelineRun)
    (o : OutputMode) :
    withSummary { cfg with output := o } work { run with output := o } =
      { withSummary cfg work run with output := o } := by
  unfold withSummary
  dsimp only
  split <;> rfl

theorem publishStage_dryRun (cfg : AutodocConfig) (svc : Services ω) (run : PipelineRun) (s : ω) :
    publishStage { cfg with output := .dryRun } svc run s = (.ok run, s) := rfl

theorem runScan_dryRun {cfg : AutodocConfig} {svc : Services ω} {changeSet : Option ChangeSet}
    {s s' : ω} {out : PassOutcome} (h : runScan cfg svc changeSet s = (.ok out, s')) :
    ∃ run s₁, runScan { cfg with output := .dryRun } svc changeSet s =
        (.ok ⟨{ run with output := .dryRun }, out.progress⟩, s₁) ∧
      publishStage cfg svc run s₁ = (.ok out.run, s') := by
  unfold runScan at h ⊢
  dsimp only [AutodocConfig.mode_withOutput] at h ⊢
  rw [show findSources { cfg with output := .dryRun } = findSources cfg from rfl,
    show ({ mode := cfg.mode, output := .dryRun } : PipelineRun) =
      { ({ mode := cfg.mode, output := cfg.output } : PipelineRun) with output := .dryRun } from rfl]
  split at h
  · cases h
  rw [analyzeFiles_withOutput, generateStage_withOutput]
  split at h
  · cases h
  rename_i work run progress s₁ hgen
  rw [hgen]
  dsimp only
  rw [withSummary_withOutput, publishStage_dryRun]
  split at h
  · cases h
  rename_i run' s₂ hpub
  cases h
  exact ⟨_, _, rfl, hpub⟩

theorem runPipeline_eq_dryRun_published {cfg : AutodocConfig} {svc : Services ω}
    {pullNumber : Option Int} {s s' : ω} {out : PassOutcome}
    (h : runPipeline cfg svc pullNumber s = (.ok out, s')) :
    ∃ run s₁, runPipeline { cfg with output := .dryRun } svc pullNumber s =
        (.ok ⟨{ run with output := .dryRun }, out.progress⟩, s₁) ∧
      publishStage (cfg.scopeTo pullNumber) svc run s₁ = (.ok out.run, s') := by
  unfold runPipeline at h ⊢
  split at h
  · cases h
  rename_i hcheck
  rw [checkServices_dryRun hcheck]
  dsimp only at h ⊢
  rw [AutodocConfig.scopeTo_withOutput, AutodocConfig.mode_withOutput]
  dsimp only
  split at h
  · -- a pass for a pull request asks for its change set first, as its dry run does
    rename_i hmode
    rw [if_pos hmode]
    split at h
    · cases h
    split at h
    · exact runScan_dryRun h
    · cases h
  · rename_i hmode
    rw [if_neg hmode]
    exact runScan_dryRun h

/-! ### A pass whose sink refuses the file it patched -/

namespace RefusedWrite

/-- A file that declares one function, with no documentation comment. -/
def text : String := "function f() {}\n"

/-- A repository that holds only that file. -/
def disk : Files.Disk := ⟨[(["repo"], .dir), (["repo", "a.ts"], .file text.toUTF8)]⟩

/-- A full scan that writes to disk and renders the summary. -/
def cfg : AutodocConfig := { rootPath := ".", generateSummaryDoc := true, output := .disk }

/-- A sink that refuses to write the source file and takes everything else. -/
def sink : Sink (List String) where
  begin _ s := (.ok (), s)
  write path _ s := if path = "a.ts" then (.error (.recorded "refused"), s) else (.ok (), s)
  finish _ _ s := (.ok none, s)

/-- The function the file declares. -/
def declaration : Declaration :=
  { kind := .function, name := "f", qualifiedName := "f", filePath := "a.ts",
    signature := "function f()", header := ⟨0, 12, 1, 1⟩, full := ⟨0, 15, 1, 1⟩ }

def verdict : CoverageVerdict := ⟨declaration, .generate, "no documentation comment"⟩

def source : SourceFile := ⟨"a.ts", text⟩

def documented : FileWork := ⟨source, [verdict], [(verdict, .success declaration "Adds one." 1)]⟩

end RefusedWrite

end DocWeaver
