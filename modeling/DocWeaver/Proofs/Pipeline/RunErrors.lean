import DocWeaver.Pipeline.Run
import DocWeaver.Proofs.Text.SplitOn

/-!
How a documentation pass can fail.

A pass ends with an error in few places: a collaborator it needs is missing, the scan root is no
directory, the change source fails, the sink fails in a way it does not record, or a source file
lies outside the repository root, which it cannot name relative to the root. Every other failure,
of a file, of a declaration or of a write the sink records, is recorded in the run. So with a
change source that answers, a sink that records its failures and a scan root within the
repository root, a pass fails only for a configuration that does not do or a root directory that
does not exist (`runPipeline_error_expected`). A scan root outside the repository root ends the
pass with a `ValueError` (`scan_root_outside_root_fails`).
-/

namespace DocWeaver

variable {ω : Type}

/-- The errors a pass is documented to end with: a configuration that does not do, or a missing
root directory. -/
def RunError.Expected : RunError → Prop
  | .configuration _ | .rootDirectory _ => True
  | .other _ _ => False

/-- The sink records every failure in the run: none of its calls ends the pass. -/
def Sink.RecordsFailures (sink : Sink ω) : Prop :=
  (∀ run s k m, (sink.begin run s).1 ≠ .error (.fatal k m)) ∧
    (∀ path text s k m, (sink.write path text s).1 ≠ .error (.fatal k m)) ∧
    ∀ run written s k m, (sink.finish run written s).1 ≠ .error (.fatal k m)

/-! ### Source files and the repository root -/

theorem walkFrom_extends_dir (d : Files.Disk) (rules : Files.WalkRules) :
    ∀ (n : Nat) (dir : Files.Location), ∀ p ∈ Files.walkFrom d rules n dir, dir <+: p := by
  intro n
  induction n with
  | zero => intro dir p hp; simp [Files.walkFrom] at hp
  | succ n ih =>
    intro dir p hp
    simp only [Files.walkFrom, List.mem_append, List.mem_map, List.mem_flatMap] at hp
    rcases hp with ⟨nm, -, rfl⟩ | ⟨nm, -, hp⟩
    · exact List.prefix_append dir [nm]
    · -- a subdirectory is walked unless it is a link
      split at hp
      · nomatch hp
      · exact (List.prefix_append dir [nm]).trans (ih _ p hp)

theorem sourceFiles_within {d : Files.Disk} {cwd : Files.Location} {root : String}
    {rules : Files.WalkRules} {ps : List Files.Location}
    (h : Files.sourceFiles d cwd root rules = .ok ps) :
    ∀ p ∈ ps, Files.isWithin (d.resolve cwd root) p = true := by
  intro p hp
  unfold Files.sourceFiles at h
  dsimp only at h
  split at h
  · cases h
    exact List.isPrefixOf_iff_prefix.mpr (walkFrom_extends_dir d rules _ _ p hp)
  · cases h

theorem isWithin_trans {a b c : Files.Location} (hab : Files.isWithin a b = true)
    (hbc : Files.isWithin b c = true) : Files.isWithin a c = true := by
  simp only [Files.isWithin, List.isPrefixOf_iff_prefix] at *
  exact hab.trans hbc

theorem findSources_error_expected {cfg : AutodocConfig} {d : Files.Disk} {cwd : Files.Location}
    (hroot : Files.isWithin (d.resolve cwd cfg.rootPath)
      (d.resolve cwd (Files.joinPath cfg.rootPath cfg.rootDirectory)) = true)
    {e : RunError} (h : findSources cfg d cwd = .error e) : e.Expected := by
  unfold findSources at h
  dsimp only at h
  split at h
  · cases h
    trivial
  · rename_i paths hpaths
    split at h
    · -- a file outside the root: impossible, it lies below the scan root
      rename_i p hp
      obtain ⟨hout, hmem⟩ := List.find?_some hp, List.mem_of_find?_eq_some hp
      have hin := isWithin_trans hroot (sourceFiles_within hpaths p hmem)
      simp [hin] at hout
    · cases h

/-! ### The later stages -/

theorem checkServices_expected {cfg : AutodocConfig} {svc : Services ω} {e : RunError}
    (h : checkServices cfg svc = .error e) : e.Expected := by
  unfold checkServices at h
  split_ifs at h <;> cases h <;> trivial

theorem generateStage_expected (cfg : AutodocConfig) (svc : Services ω) (work : List FileWork)
    (run : PipelineRun) (s : ω) {e : RunError}
    (h : (generateStage cfg svc work run s).1 = .error e) : e.Expected := by
  unfold generateStage at h
  split at h
  · split at h
    · cases h
    · cases h
      trivial
  · cases h

theorem foldl_ne_error {ε α β : Type} (f : Except ε α × ω → β → Except ε α × ω)
    (hf : ∀ a s b, ∃ a', (f (.ok a, s) b).1 = .ok a') :
    ∀ (l : List β) (a : α) (s : ω) (e : ε) (s' : ω), l.foldl f (.ok a, s) ≠ (.error e, s') := by
  intro l
  induction l with
  | nil => intro a s e s' h; cases h
  | cons b l ih =>
    intro a s e s'
    obtain ⟨a', ha'⟩ := hf a s b
    have hpair : f (.ok a, s) b = (.ok a', (f (.ok a, s) b).2) := by
      rw [← ha']
    rw [List.foldl_cons, hpair]
    exact ih a' _ e s'

/-- A sink that records its failures lets publishing succeed. -/
theorem publish_ok {sink : Sink ω} (hs : sink.RecordsFailures) (run : PipelineRun) (s : ω) :
    ∃ r, (publish sink run s).1 = .ok r := by
  obtain ⟨hbegin, hwrite, hfinish⟩ := hs
  unfold publish
  dsimp only
  by_cases hempty : (run.patchedFiles.isEmpty && run.extraFiles.isEmpty) = true
  · rw [if_pos hempty]
    exact ⟨_, rfl⟩
  rw [if_neg hempty]
  split
  · rename_i k m s' h
    exact absurd (congrArg Prod.fst h) (hbegin run s k m)
  · exact ⟨_, rfl⟩
  split
  · rename_i e s'' heq
    refine absurd heq (foldl_ne_error _ (fun a s r => ?_) _ _ _ _ _)
    dsimp only
    split
    · exact ⟨_, rfl⟩
    split
    · exact ⟨_, rfl⟩
    · exact ⟨_, rfl⟩
    · rename_i k m s' h
      exact absurd (congrArg Prod.fst h) (hwrite _ _ s k m)
  split
  · rename_i e s'' heq
    refine absurd heq (foldl_ne_error _ (fun a s f => ?_) _ _ _ _ _)
    dsimp only
    split
    · exact ⟨_, rfl⟩
    · exact ⟨_, rfl⟩
    · rename_i k m s' h
      exact absurd (congrArg Prod.fst h) (hwrite _ _ s k m)
  split
  · exact ⟨_, rfl⟩
  · exact ⟨_, rfl⟩
  · exact ⟨_, rfl⟩
  · rename_i k m s' h
    exact absurd (congrArg Prod.fst h) (hfinish _ _ _ k m)

theorem publishStage_expected {cfg : AutodocConfig} {svc : Services ω}
    (hsink : ∀ sink ∈ svc.sink, sink.RecordsFailures) (run : PipelineRun) (s : ω) {e : RunError}
    (h : (publishStage cfg svc run s).1 = .error e) : e.Expected := by
  unfold publishStage at h
  split at h
  · split at h
    · rename_i sink hsome
      obtain ⟨r, hr⟩ := publish_ok (hsink sink hsome) run s
      rw [hr] at h
      cases h
    · cases h
      trivial
  · cases h

/-! ### A whole pass -/

theorem runScan_expected {cfg : AutodocConfig} {svc : Services ω}
    (hsink : ∀ sink ∈ svc.sink, sink.RecordsFailures)
    (hroot : ∀ s', Files.isWithin ((svc.disk s').resolve svc.cwd cfg.rootPath)
      ((svc.disk s').resolve svc.cwd (Files.joinPath cfg.rootPath cfg.rootDirectory)) = true)
    (changeSet : Option ChangeSet) (s : ω) {e : RunError}
    (h : (runScan cfg svc changeSet s).1 = .error e) : e.Expected := by
  unfold runScan at h
  dsimp only at h
  split at h
  · rename_i e' hfind
    cases h
    exact findSources_error_expected (hroot s) hfind
  · split at h
    · rename_i e' s' hgen
      cases h
      exact generateStage_expected cfg svc _ _ s (by rw [hgen])
    · split at h
      · rename_i e' s'' hpub
        cases h
        exact publishStage_expected hsink _ _ (by rw [hpub])
      · cases h

theorem runPipeline_error_expected (cfg : AutodocConfig) (svc : Services ω)
    (pullNumber : Option Int) (s : ω)
    (hchanges : ∀ changes ∈ svc.changes, ∀ n s, ∃ cs, (changes n s).1 = .ok cs)
    (hsink : ∀ sink ∈ svc.sink, sink.RecordsFailures)
    (hroot : ∀ s', Files.isWithin ((svc.disk s').resolve svc.cwd cfg.rootPath)
      ((svc.disk s').resolve svc.cwd (Files.joinPath cfg.rootPath cfg.rootDirectory)) = true)
    {e : RunError} (h : (runPipeline cfg svc pullNumber s).1 = .error e) : e.Expected := by
  have hscoped : ∀ s', Files.isWithin
      ((svc.disk s').resolve svc.cwd (cfg.scopeTo pullNumber).rootPath)
      ((svc.disk s').resolve svc.cwd (Files.joinPath (cfg.scopeTo pullNumber).rootPath
        (cfg.scopeTo pullNumber).rootDirectory)) = true := by
    cases pullNumber <;> exact hroot
  unfold runPipeline at h
  split at h
  · rename_i e' hcheck
    cases h
    exact checkServices_expected hcheck
  dsimp only at h
  split at h
  · -- an incremental pass learns its change set first
    split at h
    · cases h
      trivial
    · rename_i changes hsome
      split at h
      · exact runScan_expected hsink hscoped _ _ h
      · rename_i e' s' hchg
        obtain ⟨cs, hcs⟩ := hchanges changes hsome _ s
        rw [hchg] at hcs
        cases hcs
  · exact runScan_expected hsink hscoped _ _ h

/-- A pass with a change source that answers, a sink that records its failures, and a scan root
within the repository root, either gives its run or fails for a configuration that does not do or
a root directory that does not exist: every failure of a file, a declaration or a write is
recorded in the run. -/
theorem runPipeline_fails_only_as_documented (cfg : AutodocConfig) (svc : Services ω)
    (pullNumber : Option Int) (s : ω)
    (hchanges : ∀ changes ∈ svc.changes, ∀ n s, ∃ cs, (changes n s).1 = .ok cs)
    (hsink : ∀ sink ∈ svc.sink, sink.RecordsFailures)
    (hroot : ∀ s', Files.isWithin ((svc.disk s').resolve svc.cwd cfg.rootPath)
      ((svc.disk s').resolve svc.cwd (Files.joinPath cfg.rootPath cfg.rootDirectory)) = true) :
    (∃ out, (runPipeline cfg svc pullNumber s).1 = .ok out) ∨
      ∃ e, (runPipeline cfg svc pullNumber s).1 = .error e ∧ e.Expected := by
  cases h : (runPipeline cfg svc pullNumber s).1 with
  | ok out => exact Or.inl ⟨out, rfl⟩
  | error e =>
    exact Or.inr ⟨e, rfl, runPipeline_error_expected cfg svc pullNumber s hchanges hsink hroot h⟩

/-- A scan of `src` with the root directory `.` on a disk holding `a.ts` and `src/b.ts`. -/
theorem scan_within_root_fails_only_as_documented :
    let d : Files.Disk :=
      ⟨[(["repo"], .dir), (["repo", "a.ts"], .file "function f() \x7b\x7d\n".toUTF8),
        (["repo", "src"], .dir), (["repo", "src", "b.ts"], .file "function g() \x7b\x7d\n".toUTF8)]⟩
    let cfg : AutodocConfig := { rootPath := "src", generateCodeComments := false }
    let svc : Services Unit := { cwd := ["repo"], disk := fun _ => d }
    (∀ s', Files.isWithin ((svc.disk s').resolve svc.cwd cfg.rootPath)
      ((svc.disk s').resolve svc.cwd (Files.joinPath cfg.rootPath cfg.rootDirectory)) = true) ∧
    ((∃ out, (runPipeline cfg svc none ()).1 = .ok out) ∨
      ∃ e, (runPipeline cfg svc none ()).1 = .error e ∧ e.Expected) := by
  intro d cfg svc
  have hroot : ∀ s', Files.isWithin ((svc.disk s').resolve svc.cwd cfg.rootPath)
      ((svc.disk s').resolve svc.cwd (Files.joinPath cfg.rootPath cfg.rootDirectory)) = true := by
    intro _
    simp only [svc, cfg, Files.joinPath, Files.normalPath, Files.pathParts, Files.Disk.resolve,
      Text.splitOn_slash]
    decide +kernel
  exact ⟨hroot, runPipeline_fails_only_as_documented cfg svc none () (fun _ h => nomatch h)
    (fun _ h => nomatch h) hroot⟩

/-- A scan root outside the repository root ends the pass with a `ValueError`. Scanning with the
repository root `src` and the root directory `..` walks the directory above `src` and finds
`a.ts` there, which has no path relative to `src`. -/
theorem scan_root_outside_root_fails :
    let d : Files.Disk :=
      ⟨[(["repo"], .dir), (["repo", "a.ts"], .file "function f() \x7b\x7d\n".toUTF8),
        (["repo", "src"], .dir), (["repo", "src", "b.ts"], .file "function g() \x7b\x7d\n".toUTF8)]⟩
    let cfg : AutodocConfig :=
      { rootPath := "src", rootDirectory := "..", generateCodeComments := false }
    let svc : Services Unit := { cwd := ["repo"], disk := fun _ => d }
    (runPipeline cfg svc none ()).1 =
      .error (.other "ValueError" (Files.notWithinMessage ["repo", "src"] ["repo", "a.ts"])) := by
  intro d cfg svc
  have hcheck : checkServices cfg svc = .ok () := rfl
  have hresolve : d.resolve ["repo"] (Files.joinPath "src" "..") = ["repo"] ∧
      d.resolve ["repo"] "src" = ["repo", "src"] := by
    simp only [Files.joinPath, Files.normalPath, Files.pathParts, Files.Disk.resolve,
      Text.splitOn_slash]
    decide +kernel
  have hwalk : Files.walkFrom d ⟨defaultExcludedDirectories, [], Syntax.Dialect.suffixes⟩
      (d.entries.length + 1) ["repo"] =
      [["repo", "a.ts"], ["repo", "src", "b.ts"]] := by
    have hsrc : Files.walkFrom d ⟨defaultExcludedDirectories, [], Syntax.Dialect.suffixes⟩ (3 + 1)
        ["repo", "src"] = [["repo", "src", "b.ts"]] := by
      rw [Files.walkFrom]
      have hnames : Files.sortNames ((d.children ["repo", "src"]).map (·.1)) = ["b.ts"] := by
        rw [show (d.children ["repo", "src"]).map (·.1) = ["b.ts"] by decide +kernel]
        exact List.mergeSort_singleton _
      rw [hnames]
      simp only [Files.pathSuffix, Files.pathName, Files.pathParts, Text.splitOn_slash]
      decide +kernel
    have hnames : Files.sortNames ((d.children ["repo"]).map (·.1)) = ["a.ts", "src"] := by
      rw [show (d.children ["repo"]).map (·.1) = ["a.ts", "src"] by decide +kernel]
      exact List.mergeSort_of_pairwise (by decide)
    have hdirs : (["a.ts", "src"].filter fun nm => d.isDir (["repo"] ++ [nm]) &&
        !defaultExcludedDirectories.contains nm) = ["src"] := by
      decide +kernel
    rw [Files.walkFrom, hnames, hdirs, List.flatMap_cons, List.flatMap_nil, List.append_nil,
      if_neg (by decide +kernel), show d.entries.length = 3 + 1 from rfl, List.singleton_append,
      hsrc]
    simp only [Files.pathSuffix, Files.pathName, Files.pathParts, Text.splitOn_slash]
    decide +kernel
  have hfind : findSources cfg d ["repo"] =
      .error (.other "ValueError" (Files.notWithinMessage ["repo", "src"] ["repo", "a.ts"])) := by
    unfold findSources Files.sourceFiles
    simp only [cfg, hresolve.1, hresolve.2]
    rw [if_pos (by decide +kernel), hwalk]
    rfl
  have hscan : runScan cfg svc none () = (.error (.other "ValueError"
      (Files.notWithinMessage ["repo", "src"] ["repo", "a.ts"])), ()) := by
    unfold runScan
    dsimp only
    rw [show svc.disk () = d from rfl, show svc.cwd = ["repo"] from rfl, hfind]
  unfold runPipeline
  rw [hcheck]
  simp only [AutodocConfig.scopeTo]
  have hmode : (cfg.mode == AnalysisMode.incremental) = false := rfl
  simp only [hmode, Bool.false_eq_true, if_false, hscan]

end DocWeaver
