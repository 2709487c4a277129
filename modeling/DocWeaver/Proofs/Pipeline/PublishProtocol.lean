import DocWeaver.Proofs.Pipeline.RunErrors
import Mathlib

/-!
What publishing asks of the sink.

Publishing hands the patched files, then the extra files, to a sink. To see the calls it makes,
`Sink.logged` wraps a sink so that its state also holds every call made to it, each with the
answer it gave; publishing is generic in the sink, so the calls it makes to the wrapped sink are
those it makes to any sink. `Published` says what publishing may do, as the calls it makes and
the run it leaves: with nothing to publish it makes no call; when beginning fails it makes no
other call and fails every patched file; otherwise it writes each patched file once, with its new
text, in the order of the run's files, then each extra file once, then finishes once. A patched
file stays patched exactly when its write returns, and every failed write of an extra file, and a
failed finish, adds one publish error (`publish_follows_protocol`).
-/

namespace DocWeaver

variable {ω : Type}

/-- A call made to a sink, with the answer it gave. -/
inductive SinkCall where
  | begin (answer : Except SinkError Unit)
  | write (path text : String) (answer : Except SinkError Unit)
  | finish (run : PipelineRun) (written : List String) (answer : Except SinkError (Option JsonValue))

/-- The sink that makes the calls of `sink` and logs each one, with its answer, after the calls
made before. -/
def Sink.logged (sink : Sink ω) : Sink (ω × List SinkCall) where
  begin run s := ((sink.begin run s.1).1, ((sink.begin run s.1).2, s.2 ++ [.begin (sink.begin run s.1).1]))
  write path text s := ((sink.write path text s.1).1,
    ((sink.write path text s.1).2, s.2 ++ [.write path text (sink.write path text s.1).1]))
  finish run written s := ((sink.finish run written s.1).1,
    ((sink.finish run written s.1).2, s.2 ++ [.finish run written (sink.finish run written s.1).1]))

@[simp] theorem Sink.logged_begin (sink : Sink ω) (run : PipelineRun) (s : ω) (log : List SinkCall) :
    sink.logged.begin run (s, log) =
      ((sink.begin run s).1, ((sink.begin run s).2, log ++ [.begin (sink.begin run s).1])) := rfl

@[simp] theorem Sink.logged_write (sink : Sink ω) (path text : String) (s : ω) (log : List SinkCall) :
    sink.logged.write path text (s, log) = ((sink.write path text s).1,
      ((sink.write path text s).2, log ++ [.write path text (sink.write path text s).1])) := rfl

@[simp] theorem Sink.logged_finish (sink : Sink ω) (run : PipelineRun) (written : List String) (s : ω)
    (log : List SinkCall) :
    sink.logged.finish run written (s, log) = ((sink.finish run written s).1,
      ((sink.finish run written s).2, log ++ [.finish run written (sink.finish run written s).1])) :=
  rfl

def writtenPaths (calls : List SinkCall) : List String :=
  calls.filterMap fun
    | .write path _ (.ok ()) => some path
    | _ => none

@[simp] theorem writtenPaths_nil : writtenPaths [] = [] := rfl

@[simp] theorem writtenPaths_append (calls calls' : List SinkCall) :
    writtenPaths (calls ++ calls') = writtenPaths calls ++ writtenPaths calls' :=
  List.filterMap_append

@[simp] theorem writtenPaths_write_ok (path text : String) :
    writtenPaths [.write path text (.ok ())] = [path] := rfl

@[simp] theorem writtenPaths_write_error (path text : String) (e : SinkError) :
    writtenPaths [.write path text (.error e)] = [] := rfl

@[simp] theorem writtenPaths_begin_cons (answer : Except SinkError Unit) (calls : List SinkCall) :
    writtenPaths (.begin answer :: calls) = writtenPaths calls := rfl

@[simp] theorem writtenPaths_finish (run : PipelineRun) (written : List String)
    (answer : Except SinkError (Option JsonValue)) : writtenPaths [.finish run written answer] = [] :=
  rfl

theorem writtenPaths_ne_nil_iff (calls : List SinkCall) :
    writtenPaths calls ≠ [] ↔ ∃ path text, SinkCall.write path text (.ok ()) ∈ calls := by
  rw [writtenPaths, Ne, List.filterMap_eq_nil_iff]
  constructor
  · intro h
    by_contra hno
    apply h
    intro call hmem
    cases call with
    | begin a => rfl
    | write path text a =>
      cases a with
      | error e => rfl
      | ok u => exact absurd ⟨path, text, hmem⟩ hno
    | finish r w a => rfl
  · rintro ⟨path, text, hmem⟩ hnone
    exact absurd (hnone _ hmem) (by simp)

/-! ### The protocol -/

def FileWritten (r r' : FileResult) (calls : List SinkCall) : Prop :=
  (r.outcome ≠ .patched ∧ r' = r ∧ calls = []) ∨
    (r.outcome = .patched ∧
      ((calls = [.write r.relativePath (r.newText.getD "") (.ok ())] ∧ r' = r) ∨
        ∃ e, calls = [.write r.relativePath (r.newText.getD "") (.error (.recorded e))] ∧
          r' = { r with outcome := .failed, reason := some ("write failed: " ++ e) }))

def ExtraWritten (f : String × String) (errors : List String) (calls : List SinkCall) : Prop :=
  (calls = [.write f.1 f.2 (.ok ())] ∧ errors = []) ∨
    ∃ e, calls = [.write f.1 f.2 (.error (.recorded e))] ∧ errors = [f.1 ++ ": write failed: " ++ e]

def Finished (run : PipelineRun) (answer : Except SinkError (Option JsonValue)) (run' : PipelineRun) :
    Prop :=
  (answer = .ok none ∧ run' = run) ∨
    (∃ n, answer = .ok (some n) ∧ run' = { run with pullRequestNumber := some n }) ∨
    ∃ e, answer = .error (.recorded e) ∧
      run' = { run with publishErrors := run.publishErrors ++ ["finish failed: " ++ e] }

def writtenRun (run : PipelineRun) (files : List FileResult) (errors : List String) : PipelineRun :=
  { run with files, publishErrors := run.publishErrors ++ errors }

/-- What publishing may do, as the calls it makes to the sink, each with its answer, and the run
it leaves. With nothing to publish it makes no call. Otherwise it begins; when beginning fails it
makes no other call and fails every patched file. Otherwise it writes each patched file once, with
its new text, in the order of the run's files, then each extra file once, then finishes once,
with the run as the writes left it and the paths whose writes returned. -/
inductive Published (run : PipelineRun) : List SinkCall → PipelineRun → Prop
  | nothing : run.patchedFiles = [] → run.extraFiles = [] → Published run [] run
  | beginFailed (e : String) : (run.patchedFiles ≠ [] ∨ run.extraFiles ≠ []) →
      Published run [.begin (.error (.recorded e))]
        { run with
          publishErrors := run.publishErrors ++ ["begin failed: " ++ e]
          files := run.files.map fun r =>
            if r.outcome = .patched then { r with outcome := .failed, reason := some ("publish failed: " ++ e) }
            else r }
  | written (files : List (FileResult × List SinkCall)) (extras : List (List String × List SinkCall))
      (answer : Except SinkError (Option JsonValue)) (run' : PipelineRun) :
      (run.patchedFiles ≠ [] ∨ run.extraFiles ≠ []) →
      List.Forall₂ (fun r o => FileWritten r o.1 o.2) run.files files →
      List.Forall₂ (fun f o => ExtraWritten f o.1 o.2) run.extraFiles extras →
      Finished (writtenRun run (files.map (·.1)) (extras.flatMap (·.1))) answer run' →
      Published run (.begin (.ok ()) :: (files.flatMap (·.2) ++ extras.flatMap (·.2)) ++
        [.finish (writtenRun run (files.map (·.1)) (extras.flatMap (·.1)))
          (writtenPaths (files.flatMap (·.2) ++ extras.flatMap (·.2))) answer]) run'

/-! ### Publishing follows the protocol -/

theorem Sink.RecordsFailures.logged {sink : Sink ω} (hs : sink.RecordsFailures) :
    sink.logged.RecordsFailures := by
  obtain ⟨hbegin, hwrite, hfinish⟩ := hs
  exact ⟨fun run s k m => hbegin run s.1 k m, fun path text s k m => hwrite path text s.1 k m,
    fun run written s k m => hfinish run written s.1 k m⟩

theorem foldl_logs {α β γ : Type} (emb : γ → List β) (R : α → γ → List SinkCall → Prop)
    (f : Except RunError (List β × List String) × (ω × List SinkCall) → α →
      Except RunError (List β × List String) × (ω × List SinkCall))
    (herr : ∀ e st a, f (.error e, st) a = (.error e, st))
    (hstep : ∀ done w s log a, (∃ e st, f (.ok (done, w), (s, log)) a = (.error e, st)) ∨
      ∃ piece calls s', f (.ok (done, w), (s, log)) a =
        (.ok (done ++ emb piece, w ++ writtenPaths calls), (s', log ++ calls)) ∧ R a piece calls) :
    ∀ (l : List α) (done : List β) (w : List String) (s : ω) (log : List SinkCall) res st,
      l.foldl f (.ok (done, w), (s, log)) = (.ok res, st) →
      ∃ outs : List (γ × List SinkCall), ∃ s', List.Forall₂ (fun a o => R a o.1 o.2) l outs ∧
        res = (done ++ outs.flatMap (fun o => emb o.1), w ++ writtenPaths (outs.flatMap (·.2))) ∧
        st = (s', log ++ outs.flatMap (·.2)) := by
  have hstuck : ∀ (l : List α) e st, l.foldl f (.error e, st) = (.error e, st) := by
    intro l
    induction l with
    | nil => intro e st; rfl
    | cons a l ih => intro e st; rw [List.foldl_cons, herr, ih]
  intro l
  induction l with
  | nil =>
    intro done w s log res st h
    cases h
    exact ⟨[], s, .nil, by simp, by simp⟩
  | cons a l ih =>
    intro done w s log res st h
    rw [List.foldl_cons] at h
    rcases hstep done w s log a with ⟨e, st', he⟩ | ⟨piece, calls, s', hf, hR⟩
    · rw [he, hstuck] at h
      cases h
    · rw [hf] at h
      obtain ⟨outs, s'', hrel, hres, hst⟩ := ih _ _ _ _ _ _ h
      refine ⟨(piece, calls) :: outs, s'', .cons hR hrel, ?_, ?_⟩
      · rw [hres]
        simp
      · rw [hst]
        simp

/-- Publishing that succeeds followed the protocol: the calls it logged, after those made
before, and the run it left are as `Published` says, and the last call, when it is the finish
call, left the sink as publishing ends. -/
theorem published_of_publish_logged {sink : Sink ω} {run run' : PipelineRun} {s s' : ω}
    {log log' : List SinkCall} (h : publish sink.logged run (s, log) = (.ok run', (s', log'))) :
    ∃ calls, log' = log ++ calls ∧ Published run calls run' ∧
      ∀ run₁ written answer, calls.getLast? = some (.finish run₁ written answer) →
        ∃ s₂, sink.finish run₁ written s₂ = (answer, s') := by
  unfold publish at h
  dsimp only at h
  split at h
  · -- nothing to publish: no call
    rename_i hempty
    cases h
    simp only [Bool.and_eq_true, List.isEmpty_iff] at hempty
    exact ⟨[], by simp, .nothing hempty.1 hempty.2, by simp⟩
  rename_i hempty
  have hsome : run.patchedFiles ≠ [] ∨ run.extraFiles ≠ [] := by
    by_cases hp : run.patchedFiles = []
    · exact Or.inr fun hx => hempty (by simp [hp, hx])
    · exact Or.inl hp
  rw [Sink.logged_begin] at h
  split at h
  · cases h
  · -- beginning failed: no other call, and every patched file fails
    rename_i e st hb
    rw [Prod.mk.injEq] at hb
    obtain ⟨hb, rfl⟩ := hb
    cases h
    rw [hb]
    refine ⟨[.begin (.error (.recorded e))], rfl, ?_, by simp⟩
    simpa using Published.beginFailed e hsome
  rename_i st hb
  rw [Prod.mk.injEq] at hb
  obtain ⟨hb, rfl⟩ := hb
  rw [hb] at h
  split at h
  · cases h
  rename_i files written st₂ hfold
  obtain ⟨outs, s₂, hfiles, hres, rfl⟩ := foldl_logs (fun r : FileResult => [r]) FileWritten _
    (fun e st r => rfl) (fun done w s₀ log₀ r => by
      dsimp only
      split
      · rename_i hne
        exact .inr ⟨r, [], s₀, by simp, .inl ⟨by simpa using hne, rfl, rfl⟩⟩
      · rename_i hpatched
        have hpatched : r.outcome = .patched := by simpa using hpatched
        rw [Sink.logged_write]
        rcases sink.write r.relativePath (r.newText.getD "") s₀ with ⟨(e | ⟨k, m⟩) | ⟨⟩, s₁⟩
        · exact .inr ⟨_, _, s₁, by simp, .inr ⟨hpatched, .inr ⟨e, rfl, rfl⟩⟩⟩
        · exact .inl ⟨_, _, rfl⟩
        · exact .inr ⟨r, _, s₁, by simp, .inr ⟨hpatched, .inl ⟨rfl, rfl⟩⟩⟩)
    _ _ _ _ _ _ _ hfold
  rw [Prod.mk.injEq] at hres
  obtain ⟨rfl, rfl⟩ := hres
  split at h
  · cases h
  rename_i errs written₂ st₃ hfold₂
  obtain ⟨extras, s₃, hextras, hres₂, rfl⟩ := foldl_logs id ExtraWritten _
    (fun e st f => rfl) (fun errs w s₀ log₀ f => by
      dsimp only
      rw [Sink.logged_write]
      rcases sink.write f.1 f.2 s₀ with ⟨(e | ⟨k, m⟩) | ⟨⟩, s₁⟩
      · exact .inr ⟨[f.1 ++ ": write failed: " ++ e], _, s₁, by simp, .inr ⟨e, rfl, rfl⟩⟩
      · exact .inl ⟨_, _, rfl⟩
      · exact .inr ⟨[], _, s₁, by simp, .inl ⟨rfl, rfl⟩⟩)
    _ _ _ _ _ _ _ hfold₂
  rw [Prod.mk.injEq] at hres₂
  obtain ⟨rfl, rfl⟩ := hres₂
  have hfilesEq : [] ++ outs.flatMap (fun o => [o.1]) = outs.map (·.1) := by
    rw [List.nil_append, List.map_eq_flatMap]
  have herrsEq : [] ++ extras.flatMap (fun o => id o.1) = extras.flatMap (·.1) := by simp
  have hwrittenEq : [] ++ writtenPaths (outs.flatMap (·.2)) ++ writtenPaths (extras.flatMap (·.2)) =
      writtenPaths (outs.flatMap (·.2) ++ extras.flatMap (·.2)) := by simp
  rw [hfilesEq, herrsEq, hwrittenEq, Sink.logged_finish] at h
  generalize hfin : sink.finish _ _ s₃ = fr at h
  obtain ⟨answer, s₄⟩ := fr
  have hlast : ∀ (calls : List SinkCall) run₁ written answer',
      (calls ++ [SinkCall.finish (writtenRun run (outs.map (·.1)) (extras.flatMap (·.1)))
          (writtenPaths (outs.flatMap (·.2) ++ extras.flatMap (·.2))) answer]).getLast? =
        some (.finish run₁ written answer') → ∃ s₂, sink.finish run₁ written s₂ = (answer', s₄) := by
    intro calls run₁ written answer' hcall
    simp only [List.getLast?_append, List.getLast?_singleton, Option.some_or, Option.some.injEq,
      SinkCall.finish.injEq] at hcall
    obtain ⟨rfl, rfl, rfl⟩ := hcall
    exact ⟨s₃, hfin⟩
  rcases answer with (e | ⟨k, m⟩) | (_ | n)
  · -- a failed finish adds one publish error
    cases h
    exact ⟨_, by simp [writtenRun], .written outs extras _ _ hsome hfiles hextras (.inr (.inr ⟨e, rfl, rfl⟩)),
      hlast _⟩
  · cases h
  · cases h
    exact ⟨_, by simp [writtenRun], .written outs extras _ _ hsome hfiles hextras (.inl ⟨rfl, rfl⟩), hlast _⟩
  · -- the pull request's number is kept
    cases h
    exact ⟨_, by simp [writtenRun], .written outs extras _ _ hsome hfiles hextras (.inr (.inl ⟨n, rfl, rfl⟩)),
      hlast _⟩

def SinkCall.IsWrite : SinkCall → Prop
  | .write .. => True
  | _ => False

theorem FileWritten.isWrite {r r' : FileResult} {calls : List SinkCall} (h : FileWritten r r' calls) :
    ∀ c ∈ calls, c.IsWrite := by
  rcases h with ⟨-, -, rfl⟩ | ⟨-, ⟨rfl, -⟩ | ⟨e, rfl, -⟩⟩ <;> simp [SinkCall.IsWrite]

theorem ExtraWritten.isWrite {f : String × String} {errors : List String} {calls : List SinkCall}
    (h : ExtraWritten f errors calls) : ∀ c ∈ calls, c.IsWrite := by
  rcases h with ⟨rfl, -⟩ | ⟨e, rfl, -⟩ <;> simp [SinkCall.IsWrite]

theorem isWrite_of_forall₂ {α γ : Type} {R : α → γ → List SinkCall → Prop}
    (hR : ∀ a x calls, R a x calls → ∀ c ∈ calls, c.IsWrite) {l : List α}
    {outs : List (γ × List SinkCall)} (h : List.Forall₂ (fun a o => R a o.1 o.2) l outs) :
    ∀ c ∈ outs.flatMap (·.2), c.IsWrite := by
  induction h with
  | nil => simp
  | cons hr _ ih =>
    intro c hc
    rcases List.mem_append.mp (List.flatMap_cons ▸ hc) with hc | hc
    · exact hR _ _ _ hr c hc
    · exact ih c hc

theorem Published.finish_call {run run' : PipelineRun} {calls : List SinkCall}
    (h : Published run calls run') {run₁ : PipelineRun} {written : List String}
    {answer : Except SinkError (Option JsonValue)} (hmem : SinkCall.finish run₁ written answer ∈ calls) :
    calls.getLast? = some (.finish run₁ written answer) ∧ run₁.files = run'.files ∧
      written = writtenPaths calls := by
  cases h with
  | nothing => cases hmem
  | beginFailed e => simp at hmem
  | written outs extras answer' run' hsome hfiles hextras hfin =>
    have hwrites : ∀ c ∈ outs.flatMap (·.2) ++ extras.flatMap (·.2), c.IsWrite := by
      intro c hc
      rcases List.mem_append.mp hc with hc | hc
      · exact isWrite_of_forall₂ (fun r r' calls (h : FileWritten r r' calls) => h.isWrite) hfiles c hc
      · exact isWrite_of_forall₂ (fun f errors calls (h : ExtraWritten f errors calls) => h.isWrite)
          hextras c hc
    have hlast : SinkCall.finish run₁ written answer = .finish
        (writtenRun run (outs.map (·.1)) (extras.flatMap (·.1)))
        (writtenPaths (outs.flatMap (·.2) ++ extras.flatMap (·.2))) answer' := by
      rcases List.mem_append.mp hmem with hmem | hmem
      · rcases List.mem_cons.mp hmem with hmem | hmem
        · cases hmem
        · exact absurd (hwrites _ hmem) (by simp [SinkCall.IsWrite])
      · exact List.mem_singleton.mp hmem
    rw [SinkCall.finish.injEq] at hlast
    obtain ⟨rfl, rfl, rfl⟩ := hlast
    refine ⟨List.getLast?_concat, ?_, by simp⟩
    rcases hfin with ⟨-, rfl⟩ | ⟨n, -, rfl⟩ | ⟨e, -, rfl⟩ <;> rfl

theorem publish_logged_ok {sink : Sink ω} (hs : sink.RecordsFailures) (run : PipelineRun) (s : ω)
    (log : List SinkCall) : ∃ run' s' log', publish sink.logged run (s, log) = (.ok run', (s', log')) := by
  obtain ⟨run', hrun'⟩ := publish_ok hs.logged run (s, log)
  exact ⟨run', (publish sink.logged run (s, log)).2.1, (publish sink.logged run (s, log)).2.2,
    by rw [← hrun']⟩

/-- Publishing is atomic per file and never fails, for any sink that records every failure of
its calls. It returns a run, and the calls it makes and the run it leaves are as `Published` says:
no call with nothing to publish; after a failed beginning no other call, and every patched file
failed; otherwise one write per patched file with its new text, in the order of the run's files,
then one per extra file, then one finish, with a patched file kept patched exactly when its write
returns, one publish error for each failed write of an extra file and for a failed finish, and
every file that was not patched left as it was. With the pull request sink, the finish call is
given the run as the writes left it, whose patched files are those still patched at the end, and
the paths whose writes returned; it asks the host for a pull request, described from that run,
exactly when some write returned. -/
theorem publish_follows_protocol :
    (∀ {ω : Type} (sink : Sink ω), sink.RecordsFailures → ∀ (run : PipelineRun) (s : ω),
      ∃ run' s' calls, publish sink.logged run (s, []) = (.ok run', (s', calls)) ∧
        Published run calls run') ∧
    ∀ {ω σ : Type} (client : Hosting.GitHubClient σ) (get : ω → σ) (set : ω → σ → ω)
      (base branch : String) (reviewers labels : List String),
      (pullRequestSink client get set base branch reviewers labels).RecordsFailures →
      ∀ (run : PipelineRun) (s : ω), ∃ run' s' calls,
        publish (pullRequestSink client get set base branch reviewers labels).logged run (s, []) =
          (.ok run', (s', calls)) ∧ Published run calls run' ∧
        ∀ run₁ written answer, SinkCall.finish run₁ written answer ∈ calls →
          run₁.patchedFiles = run'.patchedFiles ∧
          (written ≠ [] ↔ ∃ path text, SinkCall.write path text (.ok ()) ∈ calls) ∧
          ∃ s₂, (answer, s') = if written = [] then (.ok none, s₂) else
            hostCall get set (some <$> client.createPullRequest prTitle
              (Report.renderPullRequestBody run₁) branch base labels reviewers) s₂ := by
  refine ⟨fun sink hs run s => ?_, fun client get set base branch reviewers labels hs run s => ?_⟩
  · obtain ⟨run', s', log', h⟩ := publish_logged_ok hs run s []
    obtain ⟨calls, hcalls, hpub, -⟩ := published_of_publish_logged h
    rw [hcalls, List.nil_append] at h
    exact ⟨run', s', calls, h, hpub⟩
  · obtain ⟨run', s', log', h⟩ := publish_logged_ok hs run s []
    obtain ⟨calls, hcalls, hpub, hlast⟩ := published_of_publish_logged h
    rw [hcalls, List.nil_append] at h
    refine ⟨run', s', calls, h, hpub, fun run₁ written answer hmem => ?_⟩
    obtain ⟨hgetLast, hfiles, rfl⟩ := hpub.finish_call hmem
    obtain ⟨s₂, hfin⟩ := hlast run₁ _ answer hgetLast
    refine ⟨by simp [PipelineRun.patchedFiles, hfiles], writtenPaths_ne_nil_iff calls, s₂, ?_⟩
    -- the sink opens a pull request exactly when a path was written
    rw [← hfin]
    simp only [pullRequestSink, List.isEmpty_iff]

/-- A disk that refuses `b.ts` and a host that cannot be reached both record every failure.
Publishing two patched files, one unchanged file and an extra file to the disk writes `a.ts`, fails
`b.ts`, leaves `c.ts` alone and writes the extra file; to the host, beginning fails and every
patched file fails with it. -/
theorem publish_protocol_on_refused_write :
    let disk : Sink Nat :=
      { begin := fun _ n => (.ok (), n)
        write := fun path _ n => if path = "b.ts" then (.error (.recorded "disk full"), n) else (.ok (), n + 1)
        finish := fun _ _ n => (.ok none, n) }
    let client : Hosting.GitHubClient Unit :=
      ⟨⟨"o", "r", none, "https://api.github.com"⟩, "t", fun h _ => (.error "offline", h)⟩
    let host := pullRequestSink client id (fun _ h => h) "main" "docs" [] []
    let run : PipelineRun :=
      { mode := .fullScan
        output := .disk
        files := [⟨"a.ts", .patched, none, some "A", none, [], []⟩,
          ⟨"b.ts", .patched, none, some "B", none, [], []⟩, ⟨"c.ts", .unchanged, none, none, none, [], []⟩]
        extraFiles := [("REPORT.md", "r")] }
    disk.RecordsFailures ∧ host.RecordsFailures ∧
      (∃ run' s' calls, publish disk.logged run (0, []) = (.ok run', (s', calls)) ∧
        Published run calls run') ∧
      (∃ run' s' calls, publish host.logged run ((), []) = (.ok run', (s', calls)) ∧
        Published run calls run' ∧
        ∀ run₁ written answer, SinkCall.finish run₁ written answer ∈ calls →
          run₁.patchedFiles = run'.patchedFiles ∧
          (written ≠ [] ↔ ∃ path text, SinkCall.write path text (.ok ()) ∈ calls) ∧
          ∃ s₂, (answer, s') = if written = [] then (.ok none, s₂) else
            hostCall id (fun _ h => h) (some <$> client.createPullRequest prTitle
              (Report.renderPullRequestBody run₁) "docs" "main" [] []) s₂) ∧
      writtenPaths (publish disk.logged run (0, [])).2.2 = ["a.ts", "REPORT.md"] ∧
      (publish disk.logged run (0, [])).1.toOption.map (·.files.map (·.outcome)) =
        some [.patched, .failed, .unchanged] := by
  intro disk client host run
  have hdisk : disk.RecordsFailures := by
    refine ⟨fun _ _ _ _ h => ?_, fun path _ _ _ _ h => ?_, fun _ _ _ _ _ h => ?_⟩
    · cases h
    · simp only [disk] at h
      split at h <;> cases h
    · cases h
  -- every call to the host fails at its first request, and the failure is recorded
  have hhost : host.RecordsFailures := by
    refine ⟨fun run s k m => ?_, fun path text s k m => ?_, fun run written s k m => ?_⟩
    · obtain ⟨e, he⟩ : ∃ e, (host.begin run s).1 = .error (.recorded e) := ⟨_, rfl⟩
      rw [he]
      exact fun h => by cases h
    · obtain ⟨e, he⟩ : ∃ e, (host.write path text s).1 = .error (.recorded e) := ⟨_, rfl⟩
      rw [he]
      exact fun h => by cases h
    · simp only [host, pullRequestSink]
      split
      · exact fun h => by cases h
      · obtain ⟨e, he⟩ : ∃ e, (hostCall id (fun _ h => h) (some <$> client.createPullRequest prTitle
            (Report.renderPullRequestBody run) "docs" "main" [] []) s).1 = .error (.recorded e) :=
          ⟨_, rfl⟩
        rw [he]
        exact fun h => by cases h
  have hwritten : writtenPaths (publish disk.logged run (0, [])).2.2 = ["a.ts", "REPORT.md"] := by
    decide +kernel
  have houtcomes : (publish disk.logged run (0, [])).1.toOption.map (·.files.map (·.outcome)) =
      some [.patched, .failed, .unchanged] := by
    decide +kernel
  exact ⟨hdisk, hhost, publish_follows_protocol.1 disk hdisk run 0,
    publish_follows_protocol.2 client id (fun _ h => h) "main" "docs" [] [] hhost run (), hwritten,
    houtcomes⟩

end DocWeaver
