import DocWeaver.Proofs.Files.WalkPaths
import DocWeaver.Proofs.Pipeline.FilePatch
import DocWeaver.Proofs.Pipeline.RunErrors
import Mathlib.Data.List.Perm.Basic

/-!
What a pass records of the source files it finds.

Each file the walk finds takes one of three routes through a pass. A file that cannot be read,
decoded or parsed adds a failed result while the files are judged, when it is in scope. A file
read and parsed adds its verdicts, in scope or not, and when in scope it is worked on and gets its
result once documentation has been generated. The sink then changes only patched results. No
file found is of a kind no grammar reads, since the walk keeps only suffixes that have a grammar
(`loadSource_ne_unsupported`).

So a run holds one result per file in scope and no other, a failed result for each file in scope
that could not be loaded, and the verdicts of all files read and parsed in the order they were
found (`Accounted`, `runPipeline_accounts_for_files`). On a disk that is a file system the files
found are distinct, and so are their paths relative to the repository root: no two results name
one file.
-/

namespace DocWeaver

open Files (relativeTo)

variable {ω : Type}

/-! ### One file found -/

theorem Syntax.Dialect.isSome_ofSuffix {s : String}
    (h : Syntax.Dialect.suffixes.contains s = true) : (Syntax.Dialect.ofSuffix? s).isSome := by
  simp only [Syntax.Dialect.suffixes, List.contains_iff_mem, List.mem_cons, List.not_mem_nil,
    or_false] at h
  rcases h with rfl | rfl | rfl | rfl | rfl | rfl | rfl | rfl <;> rfl

theorem loadSource_ne_unsupported {read : Syntax.OutlineReader} {d : Files.Disk} {rel : String}
    {p : Files.Location}
    (h : Syntax.Dialect.suffixes.contains (Files.pathSuffix (p.getLastD "")) = true) :
    loadSource read d rel p ≠ .unsupported := by
  unfold loadSource
  split
  · intro h; cases h
  split
  · intro h; cases h
  split
  · intro h; cases h
  · rename_i hext
    obtain ⟨dialect, hdialect⟩ := Option.isSome_iff_exists.mp (Syntax.Dialect.isSome_ofSuffix h)
    unfold Extract.extractDeclarations at hext
    simp only [hdialect] at hext
    split at hext <;> cases hext
  · intro h; cases h

namespace SourceLoad

def failures (worked : Bool) (rel : String) : SourceLoad → List FileResult
  | .failed why =>
    if worked then [{ relativePath := rel, outcome := .failed, reason := some why }] else []
  | _ => []

/-- The file worked on that a file adds: one, when it was read and parsed and is worked on. -/
def work (coverage : CoverageAnalyzer) (worked : Bool) (rel : String) : SourceLoad → List FileWork
  | .loaded text ds =>
    if worked then [{ source := ⟨rel, text⟩, verdicts := coverage.analyze ds }] else []
  | _ => []

/-- The verdicts a file adds: those of its declarations, when it was read and parsed. -/
def verdicts (coverage : CoverageAnalyzer) : SourceLoad → List CoverageVerdict
  | .loaded _ ds => coverage.analyze ds
  | _ => []

theorem failures_work_paths (coverage : CoverageAnalyzer) (worked : Bool) (rel : String)
    {l : SourceLoad} (hl : l ≠ .unsupported) :
    (l.failures worked rel).map (·.relativePath) ++
        (l.work coverage worked rel).map (·.source.relativePath) =
      if worked then [rel] else [] := by
  cases l with
  | failed why => cases worked <;> rfl
  | unsupported => exact absurd rfl hl
  | loaded text ds => cases worked <;> rfl

end SourceLoad

theorem analyzeFile_eq (coverage : CoverageAnalyzer) (worked : Bool) (rel : String)
    (l : SourceLoad) (work : List FileWork) (run : PipelineRun) :
    analyzeFile coverage worked rel l (work, run) =
      (work ++ l.work coverage worked rel,
        { run with files := run.files ++ l.failures worked rel,
                   verdicts := run.verdicts ++ l.verdicts coverage }) := by
  cases l with
  | failed why =>
    cases worked <;> simp [analyzeFile, SourceLoad.failures, SourceLoad.work, SourceLoad.verdicts]
  | unsupported => simp [analyzeFile, SourceLoad.failures, SourceLoad.work, SourceLoad.verdicts]
  | loaded text ds =>
    cases worked <;> simp [analyzeFile, SourceLoad.failures, SourceLoad.work, SourceLoad.verdicts]

theorem analyzeFiles_eq (read : Syntax.OutlineReader) (d : Files.Disk) (root : Files.Location)
    (coverage : CoverageAnalyzer) (changeSet : Option ChangeSet) (paths : List Files.Location)
    (work : List FileWork) (run : PipelineRun) :
    analyzeFiles read d root coverage changeSet paths (work, run) =
      (work ++ paths.flatMap (fun p => (loadSource read d (relativeTo root p) p).work coverage
          (inScope changeSet (relativeTo root p)) (relativeTo root p)),
        { run with
          files := run.files ++ paths.flatMap fun p =>
            (loadSource read d (relativeTo root p) p).failures
              (inScope changeSet (relativeTo root p)) (relativeTo root p)
          verdicts := run.verdicts ++ paths.flatMap fun p =>
            (loadSource read d (relativeTo root p) p).verdicts coverage }) := by
  induction paths generalizing work run with
  | nil => simp [analyzeFiles]
  | cons p paths ih =>
    have hcons : analyzeFiles read d root coverage changeSet (p :: paths) (work, run) =
        analyzeFiles read d root coverage changeSet paths
          (analyzeFile coverage (inScope changeSet (relativeTo root p)) (relativeTo root p)
            (loadSource read d (relativeTo root p) p) (work, run)) := rfl
    rw [hcons, analyzeFile_eq, ih]
    simp

theorem analyzed_paths_perm (read : Syntax.OutlineReader) (d : Files.Disk) (root : Files.Location)
    (coverage : CoverageAnalyzer) (changeSet : Option ChangeSet) {paths : List Files.Location}
    (hl : ∀ p ∈ paths, loadSource read d (relativeTo root p) p ≠ .unsupported) :
    ((paths.flatMap fun p => (loadSource read d (relativeTo root p) p).failures
          (inScope changeSet (relativeTo root p)) (relativeTo root p)).map (·.relativePath) ++
      (paths.flatMap fun p => (loadSource read d (relativeTo root p) p).work coverage
          (inScope changeSet (relativeTo root p)) (relativeTo root p)).map
        (·.source.relativePath)).Perm
      ((paths.filter fun p => inScope changeSet (relativeTo root p)).map (relativeTo root)) := by
  rw [List.map_flatMap, List.map_flatMap]
  refine (List.flatMap_append_perm _ _ _).trans (List.Perm.of_eq ?_)
  rw [List.flatMap_congr fun p hp => SourceLoad.failures_work_paths coverage _ _ (hl p hp)]
  conv_rhs => rw [← List.flatMap_singleton' paths, List.filter_flatMap, List.map_flatMap]
  refine List.flatMap_congr fun p _ => ?_
  by_cases hp : inScope changeSet (relativeTo root p) = true <;> simp [hp]

/-! ### Generating and publishing -/

theorem attachResults_map_source {β : Type} (f : SourceFile → List CoverageVerdict → β)
    (work : List FileWork) (owners : List Nat) (results : List GenerationResult) :
    (attachResults work owners results).map (fun item => f item.source item.verdicts) =
      work.map (fun item => f item.source item.verdicts) := by
  simp only [attachResults, List.map_map]
  conv_rhs => rw [← List.zipIdx_map_fst 0 work, List.map_map]
  rfl

theorem generateStage_files {cfg : AutodocConfig} {svc : Services ω} {work : List FileWork}
    {run : PipelineRun} {s s' : ω} {r : List FileWork × PipelineRun × Option (Nat × Nat)}
    (h : generateStage cfg svc work run s = (.ok r, s')) :
    ∃ added, r.2.1.files = run.files ++ added ∧
      added.map (·.relativePath) = work.map (·.source.relativePath) ∧
      r.2.1.verdicts = run.verdicts := by
  unfold generateStage at h
  split at h
  · split at h
    · simp only [generateFor, Prod.mk.injEq, Except.ok.injEq] at h
      obtain ⟨rfl, -⟩ := h
      refine ⟨_, rfl, ?_, rfl⟩
      simp only [List.map_map, Function.comp_def, patchFile_relativePath]
      exact attachResults_map_source (fun src _ => src.relativePath) work _ _
    · cases h
  · simp only [Prod.mk.injEq, Except.ok.injEq] at h
    obtain ⟨rfl, -⟩ := h
    exact ⟨_, rfl, by simp, rfl⟩

@[simp] theorem withSummary_files (cfg : AutodocConfig) (work : List FileWork)
    (run : PipelineRun) : (withSummary cfg work run).files = run.files := by
  unfold withSummary
  split <;> rfl

@[simp] theorem withSummary_verdicts (cfg : AutodocConfig) (work : List FileWork)
    (run : PipelineRun) : (withSummary cfg work run).verdicts = run.verdicts := by
  unfold withSummary
  split <;> rfl

/-- A result as the sink leaves it: it names the same file, and a result that was not patched is
left as it was. -/
def FileResult.Kept (r r' : FileResult) : Prop :=
  r'.relativePath = r.relativePath ∧ (r.outcome ≠ .patched → r' = r)

theorem FileResult.Kept.refl (r : FileResult) : r.Kept r := ⟨rfl, fun _ => rfl⟩

theorem FileResult.kept_self (l : List FileResult) : List.Forall₂ FileResult.Kept l l :=
  List.forall₂_same.mpr fun r _ => FileResult.Kept.refl r

theorem FileResult.kept_paths {l l' : List FileResult} (h : List.Forall₂ FileResult.Kept l l') :
    l'.map (·.relativePath) = l.map (·.relativePath) := by
  induction h with
  | nil => rfl
  | cons hr _ ih => simp [hr.1, ih]

theorem FileResult.mem_of_kept {l l' : List FileResult} (h : List.Forall₂ FileResult.Kept l l')
    {r : FileResult} (hr : r ∈ l) (hne : r.outcome ≠ .patched) : r ∈ l' := by
  induction h with
  | nil => cases hr
  | cons hk _ ih =>
    rcases List.mem_cons.mp hr with rfl | hr
    · rw [← hk.2 hne]
      exact List.mem_cons_self
    · exact List.mem_cons_of_mem _ (ih hr)

theorem foldl_forall₂ {ε α β γ : Type} (R : α → β → Prop)
    (f : Except ε (List β × γ) × ω → α → Except ε (List β × γ) × ω)
    (herr : ∀ e s a, f (.error e, s) a = (.error e, s))
    (hok : ∀ done w s a, (∃ e s', f (.ok (done, w), s) a = (.error e, s')) ∨
      ∃ b w' s', f (.ok (done, w), s) a = (.ok (done ++ [b], w'), s') ∧ R a b) :
    ∀ (l : List α) (done : List β) (w : γ) (s : ω) (out : List β) (w' : γ) (s' : ω),
      l.foldl f (.ok (done, w), s) = (.ok (out, w'), s') →
        ∃ tail, out = done ++ tail ∧ List.Forall₂ R l tail := by
  have hstuck : ∀ (l : List α) e s, l.foldl f (.error e, s) = (.error e, s) := by
    intro l
    induction l with
    | nil => intro e s; rfl
    | cons a l ih => intro e s; rw [List.foldl_cons, herr, ih]
  intro l
  induction l with
  | nil =>
    intro done w s out w' s' h
    cases h
    exact ⟨[], by simp, .nil⟩
  | cons a l ih =>
    intro done w s out w' s' h
    rw [List.foldl_cons] at h
    rcases hok done w s a with ⟨e, s'', he⟩ | ⟨b, w'', s'', hb, hR⟩
    · rw [he, hstuck] at h
      cases h
    · rw [hb] at h
      obtain ⟨tail, rfl, htail⟩ := ih _ _ _ _ _ _ h
      exact ⟨b :: tail, by simp, .cons hR htail⟩

/-- A run as the sink leaves it: every result kept one for one, the same verdicts and the same
extra files. -/
def PipelineRun.Kept (run run' : PipelineRun) : Prop :=
  List.Forall₂ FileResult.Kept run.files run'.files ∧ run'.verdicts = run.verdicts ∧
    run'.extraFiles = run.extraFiles

theorem PipelineRun.Kept.refl (run : PipelineRun) : run.Kept run :=
  ⟨FileResult.kept_self _, rfl, rfl⟩

theorem publish_keeps {sink : Sink ω} {run run' : PipelineRun} {s s' : ω}
    (h : publish sink run s = (.ok run', s')) : run.Kept run' := by
  unfold publish at h
  dsimp only at h
  split at h
  · cases h
    exact .refl run
  split at h
  · cases h
  · -- a failure to begin fails every patched file
    cases h
    refine ⟨List.forall₂_map_right_iff.mpr (List.forall₂_same.mpr fun r _ => ?_), rfl, rfl⟩
    split
    · rename_i hpatched
      exact ⟨rfl, fun hne => absurd (beq_iff_eq.mp hpatched) hne⟩
    · exact FileResult.Kept.refl r
  split at h
  · cases h
  rename_i files written s₁ hfold
  obtain ⟨tail, rfl, hkept⟩ := foldl_forall₂ FileResult.Kept _ (fun e s r => rfl)
    (fun done w s r => by
      dsimp only
      split
      · exact .inr ⟨r, w, s, rfl, FileResult.Kept.refl r⟩
      · rename_i hpatched
        have hpatched : r.outcome = .patched := by simpa using hpatched
        split
        · exact .inr ⟨r, _, _, rfl, FileResult.Kept.refl r⟩
        · exact .inr ⟨_, _, _, rfl, rfl, fun hne => absurd hpatched hne⟩
        · exact .inl ⟨_, _, rfl⟩) _ _ _ _ _ _ _ hfold
  split at h
  · cases h
  split at h <;> cases h <;> exact ⟨by simpa using hkept, rfl, rfl⟩

theorem publishStage_keeps {cfg : AutodocConfig} {svc : Services ω} {run run' : PipelineRun}
    {s s' : ω} (h : publishStage cfg svc run s = (.ok run', s')) : run.Kept run' := by
  unfold publishStage at h
  split at h
  · split at h
    · exact publish_keeps h
    · cases h
  · cases h
    exact .refl run

/-! ### A whole pass -/

theorem findSources_found {cfg : AutodocConfig} {d : Files.Disk} {cwd root : Files.Location}
    {paths : List Files.Location} (hd : d.WellFormed)
    (h : findSources cfg d cwd = .ok (root, paths)) :
    paths.Nodup ∧ ∀ p ∈ paths, root <+: p ∧ p ∈ d.entries.map (·.1) ∧
      Syntax.Dialect.suffixes.contains (Files.pathSuffix (p.getLastD "")) = true := by
  unfold findSources at h
  dsimp only at h
  split at h
  · cases h
  rename_i walked hwalk
  split at h
  · cases h
  rename_i hnone
  cases h
  unfold Files.sourceFiles at hwalk
  dsimp only at hwalk
  split at hwalk
  · cases hwalk
    refine ⟨hd.walkFrom_nodup _ _, fun p hp => ⟨?_, ?_⟩⟩
    · -- a file outside the repository root would have ended the pass
      have hwithin := List.find?_eq_none.mp hnone p hp
      simpa [Files.isWithin, List.isPrefixOf_iff_prefix] using hwithin
    · obtain ⟨-, hentry, hsuffix⟩ := Files.mem_walkFrom _ _ p hp
      exact ⟨hentry, hsuffix⟩
  · cases hwalk

theorem findSources_relative_nodup {cfg : AutodocConfig} {d : Files.Disk}
    {cwd root : Files.Location} {paths : List Files.Location} (hd : d.WellFormed)
    (h : findSources cfg d cwd = .ok (root, paths)) : (paths.map (relativeTo root)).Nodup := by
  obtain ⟨hnodup, hfound⟩ := findSources_found hd h
  refine hnodup.map_on fun x hx y hy hxy => ?_
  obtain ⟨hxroot, hxentry, -⟩ := hfound x hx
  obtain ⟨hyroot, hyentry, -⟩ := hfound y hy
  exact Files.relativeTo_inj hxroot hyroot (hd.names x hxentry) (hd.names y hyentry) hxy

theorem analyzed_paths_nodup {cfg : AutodocConfig} (read : Syntax.OutlineReader) {d : Files.Disk}
    {cwd root : Files.Location} {paths : List Files.Location} (coverage : CoverageAnalyzer)
    (changeSet : Option ChangeSet) (hd : d.WellFormed)
    (hfind : findSources cfg d cwd = .ok (root, paths)) :
    ((paths.flatMap fun p => (loadSource read d (relativeTo root p) p).failures
          (inScope changeSet (relativeTo root p)) (relativeTo root p)).map (·.relativePath) ++
      (paths.flatMap fun p => (loadSource read d (relativeTo root p) p).work coverage
          (inScope changeSet (relativeTo root p)) (relativeTo root p)).map
        (·.source.relativePath)).Nodup := by
  obtain ⟨-, hfound⟩ := findSources_found hd hfind
  exact (analyzed_paths_perm read d root coverage changeSet
    fun p hp => loadSource_ne_unsupported (hfound p hp).2.2).nodup_iff.mpr
      (((List.filter_sublist).map _).nodup (findSources_relative_nodup hd hfind))

/-- What a run records of the files found below the scan root, each named by its path relative
to the repository root: one result for each file in scope and none for any other, so no two
results name one file; a failed result for each file in scope that could not be read, decoded or
parsed; and the verdicts of every file read and parsed, in scope or not, in the order the files
were found. -/
structure Accounted (read : Syntax.OutlineReader) (d : Files.Disk) (root : Files.Location)
    (coverage : CoverageAnalyzer) (changeSet : Option ChangeSet) (paths : List Files.Location)
    (run : PipelineRun) : Prop where
  files_perm : (run.files.map (·.relativePath)).Perm
    ((paths.filter fun p => inScope changeSet (relativeTo root p)).map (relativeTo root))
  files_nodup : (run.files.map (·.relativePath)).Nodup
  failed : ∀ p ∈ paths, ∀ why, loadSource read d (relativeTo root p) p = .failed why →
    inScope changeSet (relativeTo root p) = true →
    ({ relativePath := relativeTo root p, outcome := .failed, reason := some why } : FileResult) ∈
      run.files
  verdicts : run.verdicts = paths.flatMap fun p =>
    (loadSource read d (relativeTo root p) p).verdicts coverage

/-- A scan that returns found its files, judged them, generated documentation for those in
scope, and published the run with its summary. -/
theorem runScan_ok {cfg : AutodocConfig} {svc : Services ω} {changeSet : Option ChangeSet}
    {s s' : ω} {out : PassOutcome} (h : runScan cfg svc changeSet s = (.ok out, s')) :
    ∃ root paths work run s₂, findSources cfg (svc.disk s) svc.cwd = .ok (root, paths) ∧
      generateStage cfg svc
        (paths.flatMap fun p => (loadSource svc.outline (svc.disk s) (relativeTo root p) p).work
          ⟨cfg.mode, changeSet, cfg.excludedFilePatterns⟩ (inScope changeSet (relativeTo root p))
          (relativeTo root p))
        { mode := cfg.mode, output := cfg.output
          files := paths.flatMap fun p =>
            (loadSource svc.outline (svc.disk s) (relativeTo root p) p).failures
              (inScope changeSet (relativeTo root p)) (relativeTo root p)
          verdicts := paths.flatMap fun p =>
            (loadSource svc.outline (svc.disk s) (relativeTo root p) p).verdicts
              ⟨cfg.mode, changeSet, cfg.excludedFilePatterns⟩ } s =
        (.ok (work, run, out.progress), s₂) ∧
      publishStage cfg svc (withSummary cfg work run) s₂ = (.ok out.run, s') := by
  unfold runScan at h
  dsimp only at h
  split at h
  · cases h
  rename_i root paths hfind
  rw [analyzeFiles_eq] at h
  dsimp only at h
  split at h
  · cases h
  rename_i work run progress s₂ hgen
  split at h
  · cases h
  rename_i run₃ s₃ hpub
  cases h
  simp only [List.nil_append] at hgen
  exact ⟨root, paths, work, run, s₂, hfind, hgen, hpub⟩

/-- A scan on a disk that is a file system accounts for every file it finds. -/
theorem runScan_accounted {cfg : AutodocConfig} {svc : Services ω}
    {changeSet : Option ChangeSet} {s s' : ω} {out : PassOutcome} (hd : (svc.disk s).WellFormed)
    (h : runScan cfg svc changeSet s = (.ok out, s')) :
    ∃ root paths, findSources cfg (svc.disk s) svc.cwd = .ok (root, paths) ∧
      Accounted svc.outline (svc.disk s) root ⟨cfg.mode, changeSet, cfg.excludedFilePatterns⟩ changeSet
        paths out.run := by
  obtain ⟨root, paths, work, run, s₂, hfind, hgen, hpub⟩ := runScan_ok h
  refine ⟨root, paths, hfind, ?_⟩
  obtain ⟨-, hfound⟩ := findSources_found hd hfind
  obtain ⟨added, hfiles, hadded, hverdicts⟩ := generateStage_files hgen
  obtain ⟨hkept, hverdicts', -⟩ := publishStage_keeps hpub
  rw [withSummary_files, hfiles] at hkept
  dsimp only at hkept hadded hverdicts
  -- the results name the files judged failed, then the files worked on
  have hpaths := FileResult.kept_paths hkept
  rw [List.map_append, hadded] at hpaths
  have hperm := analyzed_paths_perm svc.outline (svc.disk s) root
    ⟨cfg.mode, changeSet, cfg.excludedFilePatterns⟩ changeSet
    fun p hp => loadSource_ne_unsupported (hfound p hp).2.2
  rw [← hpaths] at hperm
  refine ⟨hperm, ?_, ?_, ?_⟩
  · rw [hpaths]
    exact analyzed_paths_nodup svc.outline _ changeSet hd hfind
  · intro p hp why hload hin
    refine FileResult.mem_of_kept hkept
      (List.mem_append_left _ (List.mem_flatMap.mpr ⟨p, hp, ?_⟩)) (by simp)
    simp [hload, SourceLoad.failures, hin]
  · rw [hverdicts', withSummary_verdicts, hverdicts]

/-- The state a pass scans and the change set it works from. A pass for a pull request first asks
the change source for that request's change set, and scans the state the change source leaves;
any other pass scans the state it starts from, with no change set. -/
def ScanStart (svc : Services ω) (pullNumber : Option Int) (s st : ω)
    (changeSet : Option ChangeSet) : Prop :=
  match pullNumber with
  | some n => ∃ changes cs, svc.changes = some changes ∧ changes n s = (.ok cs, st) ∧
      changeSet = some cs
  | none => st = s ∧ changeSet = none

theorem runPipeline_scan {cfg : AutodocConfig} {svc : Services ω} {pullNumber : Option Int}
    {s s' : ω} {out : PassOutcome} (h : runPipeline cfg svc pullNumber s = (.ok out, s')) :
    ∃ st changeSet, ScanStart svc (cfg.scopeTo pullNumber).pullNumber s st changeSet ∧
      runScan (cfg.scopeTo pullNumber) svc changeSet st = (.ok out, s') := by
  unfold runPipeline at h
  split at h
  · cases h
  dsimp only at h
  split at h
  · -- a pass for a pull request learns its change set first
    rename_i hmode
    obtain ⟨n, hn⟩ : ∃ n, (cfg.scopeTo pullNumber).pullNumber = some n := by
      simpa [AutodocConfig.mode, Option.isSome_iff_exists] using hmode
    split at h
    · cases h
    rename_i changes hchanges
    split at h
    · rename_i cs st hcs
      rw [hn, Option.getD_some] at hcs
      refine ⟨st, some cs, ?_, h⟩
      rw [hn]
      exact ⟨changes, cs, hchanges, hcs, rfl⟩
    · cases h
  · rename_i hmode
    have hn : (cfg.scopeTo pullNumber).pullNumber = none := by
      simpa [AutodocConfig.mode] using hmode
    refine ⟨s, none, ?_, h⟩
    rw [hn]
    exact ⟨rfl, rfl⟩

/-- A pass that returns its run, on disks that are file systems, has accounted for every file it
found below its scan root. -/
theorem runPipeline_accounts_for_files (cfg : AutodocConfig) (svc : Services ω)
    (pullNumber : Option Int) (s : ω) {out : PassOutcome} {s' : ω}
    (hd : ∀ st, (svc.disk st).WellFormed)
    (h : runPipeline cfg svc pullNumber s = (.ok out, s')) :
    let cfg' := cfg.scopeTo pullNumber
    ∃ st changeSet root paths, ScanStart svc cfg'.pullNumber s st changeSet ∧
      findSources cfg' (svc.disk st) svc.cwd = .ok (root, paths) ∧
      Accounted svc.outline (svc.disk st) root ⟨cfg'.mode, changeSet, cfg'.excludedFilePatterns⟩ changeSet
        paths out.run := by
  intro cfg'
  obtain ⟨st, changeSet, hstart, hscan⟩ := runPipeline_scan h
  obtain ⟨root, paths, hfind, hacc⟩ := runScan_accounted (hd st) hscan
  exact ⟨st, changeSet, root, paths, hstart, hfind, hacc⟩

/-- A full scan of a repository that holds one source file, whose bytes are not text: the file is
found, fails to load, and is the one result of the run, recorded as failed. -/
theorem undecodable_file_is_recorded_failed :
    let d : Files.Disk := ⟨[(["repo"], .dir), (["repo", "a.ts"], .file ⟨#[0xff]⟩)]⟩
    let cfg : AutodocConfig := { rootPath := ".", generateCodeComments := false }
    let svc : Services Unit := { cwd := ["repo"], disk := fun _ => d }
    let why := "unreadable: 'utf-8' codec can't decode byte 0xff in position 0: invalid start byte"
    let failed : FileResult := { relativePath := "a.ts", outcome := .failed, reason := some why }
    let out : PassOutcome := ⟨{ mode := .fullScan, output := .dryRun, files := [failed] }, none⟩
    let cfg' := cfg.scopeTo none
    (∀ st, (svc.disk st).WellFormed) ∧ runPipeline cfg svc none () = (.ok out, ()) ∧
      ∃ st changeSet root paths, ScanStart svc cfg'.pullNumber () st changeSet ∧
        findSources cfg' (svc.disk st) svc.cwd = .ok (root, paths) ∧
        Accounted svc.outline (svc.disk st) root ⟨cfg'.mode, changeSet, cfg'.excludedFilePatterns⟩ changeSet
          paths out.run := by
  intro d cfg svc why failed out cfg'
  have hd : d.WellFormed := ⟨by decide +revert, by unfold Files.IsName; decide +revert⟩
  have hwf : ∀ st, (svc.disk st).WellFormed := fun _ => hd
  have hresolve : d.resolve ["repo"] (Files.joinPath "." ".") = ["repo"] ∧
      d.resolve ["repo"] "." = ["repo"] := by
    simp only [Files.joinPath, Files.normalPath, Files.pathParts, Files.Disk.resolve,
      Text.splitOn_slash]
    decide +kernel
  have hwalk : Files.walkFrom d ⟨defaultExcludedDirectories, [], Syntax.Dialect.suffixes⟩
      (d.entries.length + 1) ["repo"] = [["repo", "a.ts"]] := by
    have hnames : Files.sortNames ((d.children ["repo"]).map (·.1)) = ["a.ts"] := by
      rw [show (d.children ["repo"]).map (·.1) = ["a.ts"] by decide +kernel]
      exact List.mergeSort_singleton _
    rw [show d.entries.length = 1 + 1 from rfl, Files.walkFrom, hnames]
    simp only [Files.pathSuffix, Files.pathName, Files.pathParts, Text.splitOn_slash]
    decide +kernel
  have hfind : findSources cfg d ["repo"] = .ok (["repo"], [["repo", "a.ts"]]) := by
    unfold findSources Files.sourceFiles
    simp only [cfg, hresolve.1, hresolve.2]
    rw [if_pos (by decide +kernel), hwalk]
    rfl
  have hload : loadSource Syntax.readOutline d (Files.relativeTo ["repo"] ["repo", "a.ts"]) ["repo", "a.ts"] =
      .failed why := by
    have hdecode : Text.Utf8.decode ⟨#[0xff]⟩ = .error ⟨0, 1, 0xff, .invalidStart⟩ := by
      decide +kernel
    unfold loadSource
    rw [show d.readFile ["repo", "a.ts"] = .ok ⟨#[0xff]⟩ from rfl]
    dsimp only
    rw [hdecode]
    rfl
  have hrun : runPipeline cfg svc none () = (.ok out, ()) := by
    have hcheck : checkServices cfg svc = .ok () := rfl
    have hmode : (cfg.mode == AnalysisMode.incremental) = false := rfl
    unfold runPipeline runScan
    rw [hcheck]
    simp only [AutodocConfig.scopeTo, hmode, Bool.false_eq_true, if_false]
    rw [show svc.disk () = d from rfl, show svc.cwd = ["repo"] from rfl, hfind]
    dsimp only
    rw [analyzeFiles_eq, List.flatMap_singleton, List.flatMap_singleton, List.flatMap_singleton,
      hload]
    rfl
  exact ⟨hwf, hrun, runPipeline_accounts_for_files cfg svc none () hwf hrun⟩

end DocWeaver
