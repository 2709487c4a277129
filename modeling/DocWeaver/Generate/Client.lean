import DocWeaver.Generate.Prompt
import DocWeaver.Model.Config

/-!
Generating documentation for many declarations: retries, bounded concurrency and a deadline.

One request makes at most two rounds. In a round the backend is called until it answers, up to
`maxAttempts` times when it fails in a way worth retrying; a failure not worth retrying ends the
request. An answer that cleans to no insertable text starts the second round; after two such
answers the request fails as invalid output.

Requests run as tasks that take turns: a task runs until it gets in line for a slot, makes a
backend call, backs off, or finishes, and any order of turns can happen. At most
`maxConcurrency` tasks hold a slot at once, and slots go to tasks in line first come, first
served. When the deadline falls, tasks that have not finished are cancelled.
-/

namespace DocWeaver

/-- What a backend call gives. -/
inductive Reply where
  | text (s : String)
  | transient (message : String)
  | rejected (message : String)
  | failed (message : String)
  | hang
  deriving Repr, DecidableEq, Inhabited

/-- Why a request gave up. -/
inductive GenerationErrorKind where
  | retriesExhausted
  | invalidOutput
  | backendError
  | cancelled
  deriving Repr, DecidableEq, Inhabited

def GenerationErrorKind.label : GenerationErrorKind → String
  | .retriesExhausted => "retries_exhausted"
  | .invalidOutput => "invalid_output"
  | .backendError => "backend_error"
  | .cancelled => "cancelled"

/-- How a request ended. -/
inductive GenerationResult where
  | success (declaration : Declaration) (text : String) (attempts : Nat)
  | failure (declaration : Declaration) (kind : GenerationErrorKind) (attempts : Nat) (message : String)
  deriving Repr, Inhabited

def GenerationResult.declaration : GenerationResult → Declaration
  | .success d _ _ | .failure d _ _ _ => d

def GenerationResult.ok : GenerationResult → Bool
  | .success _ _ _ => true
  | .failure _ _ _ _ => false

def GenerationResult.attempts : GenerationResult → Nat
  | .success _ _ n | .failure _ _ n _ => n

/-- A backend with state `σ`: the reply to a prompt, and the next state. -/
structure Backend (σ : Type) where
  call : σ → String → Reply × σ

def Backend.focus {σ ω : Type} (b : Backend σ) (get : ω → σ) (set : ω → σ → ω) : Backend ω :=
  ⟨fun w prompt => let (r, s) := b.call (get w) prompt; (r, set w s)⟩

/-- Where a task stands. -/
inductive Phase where
  | fresh
  | waiting
  | woken
  | calling (round tries attempts : Nat) (problem : String) (reply : Reply)
  | backoff (round tries attempts : Nat) (problem : String)
  | done (result : GenerationResult)
  deriving Inhabited

def Phase.isFresh : Phase → Bool
  | .fresh => true
  | _ => false

/-- The tasks of a run of requests: the backend's state, the tasks' phases, the tasks in line for
a slot, the free slots, and the progress reports, newest first. -/
structure Sched (σ : Type) where
  state : σ
  phases : List Phase
  waiters : List Nat
  free : Nat
  completed : Nat
  progress : List (Nat × Nat)

namespace Sched

variable {σ : Type}

def setPhase (s : Sched σ) (i : Nat) (p : Phase) : Sched σ := { s with phases := s.phases.set i p }

def release (s : Sched σ) : Sched σ :=
  match s.waiters with
  | j :: rest => { s with waiters := rest }.setPhase j .woken
  | [] => { s with free := s.free + 1 }

def finish (s : Sched σ) (total i : Nat) (r : GenerationResult) : Sched σ :=
  let s := (s.setPhase i (.done r)).release
  { s with completed := s.completed + 1, progress := (s.completed + 1, total) :: s.progress }

def call (b : Backend σ) (s : Sched σ) (prompt : String) (i round tries attempts : Nat)
    (problem : String) : Sched σ :=
  let (reply, st) := b.call s.state prompt
  { s with state := st }.setPhase i (.calling round tries attempts problem reply)

def afterReply (b : Backend σ) (s : Sched σ) (maxAttempts total : Nat) (d : Declaration)
    (prompt : String) (i round tries attempts : Nat) (problem : String) : Reply → Sched σ
  | .text raw =>
    match cleanGeneratedText raw with
    | .ok t => s.finish total i (.success d t attempts)
    | .error p =>
      if round = 0 then s.call b prompt i 1 1 (attempts + 1) p
      else s.finish total i (.failure d .invalidOutput attempts p)
  | .transient m =>
    if tries < maxAttempts then s.setPhase i (.backoff round tries attempts problem)
    else s.finish total i (.failure d .retriesExhausted attempts m)
  | .rejected m | .failed m => s.finish total i (.failure d .backendError attempts m)
  | .hang => s

def step (b : Backend σ) (maxAttempts : Nat) (reqs : List GenerationRequest) (s : Sched σ)
    (i : Nat) : Sched σ :=
  let req := reqs.getD i default
  let prompt := buildPrompt req
  match s.phases[i]? with
  | some .fresh =>
    if (s.phases.take i).any Phase.isFresh then s
    else if 0 < s.free ∧ s.waiters = [] then { s with free := s.free - 1 }.call b prompt i 0 1 1 ""
    else { s with waiters := s.waiters ++ [i] }.setPhase i .waiting
  | some .woken => s.call b prompt i 0 1 1 ""
  | some (.backoff round tries attempts problem) =>
    s.call b prompt i round (tries + 1) (attempts + 1) problem
  | some (.calling round tries attempts problem reply) =>
    s.afterReply b maxAttempts reqs.length req.declaration prompt i round tries attempts problem reply
  | _ => s

def run (b : Backend σ) (maxAttempts : Nat) (reqs : List GenerationRequest) (s : Sched σ)
    (picks : List Nat) : Sched σ :=
  picks.foldl (step b maxAttempts reqs) s

def start (init : σ) (n slots : Nat) : Sched σ :=
  ⟨init, List.replicate n .fresh, [], slots, 0, []⟩

end Sched

/-- The outcome of a run of requests: the results in request order, the backend's final state,
and the progress reports `(completed, total)` in order. -/
structure RunOutcome (σ : Type) where
  results : List GenerationResult
  state : σ
  progress : List (Nat × Nat)

def generateRun {σ : Type} (b : Backend σ) (g : GenerationConfig) (reqs : List GenerationRequest)
    (init : σ) (picks : List Nat) : Sched σ :=
  (Sched.start init reqs.length g.maxConcurrency.toNat).run b g.maxAttempts.toNat reqs picks

/-- Runs requests with at most `maxConcurrency` of them holding a slot at once. The tasks take
their steps in the order `picks` names them, and the deadline falls after the last: a request
whose task has not finished by then is cancelled. -/
def generateAll {σ : Type} (b : Backend σ) (g : GenerationConfig) (reqs : List GenerationRequest)
    (init : σ) (picks : List Nat) : RunOutcome σ :=
  let s := generateRun b g reqs init picks
  let results := reqs.zipIdx.map fun (r, i) =>
    match s.phases[i]? with
    | some (.done res) => res
    | _ => .failure r.declaration .cancelled 0 "run aborted before completion"
  ⟨results, s.state, s.progress.reverse⟩

def Sched.fifoPicks {σ : Type} (b : Backend σ) (maxAttempts : Nat) (reqs : List GenerationRequest) :
    Nat → List Nat → Sched σ → List Nat
  | 0, _, _ => []
  | _, [], _ => []
  | fuel + 1, i :: ready, s =>
    let s' := s.step b maxAttempts reqs i
    let woken := s.waiters.filter fun j => s'.phases[j]? matches some .woken
    let again := match s'.phases[i]? with
      | some (.calling _ _ _ _ .hang) => []
      | some (.calling ..) => [i]
      | _ => []
    let later := match s'.phases[i]? with
      | some (.backoff ..) => [i]
      | _ => []
    i :: Sched.fifoPicks b maxAttempts reqs fuel (again ++ ready ++ woken ++ later) s'

def fifoSchedule {σ : Type} (b : Backend σ) (g : GenerationConfig) (reqs : List GenerationRequest)
    (init : σ) : List Nat :=
  Sched.fifoPicks b g.maxAttempts.toNat reqs (reqs.length * (4 * g.maxAttempts.toNat + 6) + 1)
    (List.range reqs.length) (Sched.start init reqs.length g.maxConcurrency.toNat)

end DocWeaver
