import DocWeaver.Generate.Client
import Mathlib

/-!
What one step of a run of requests can do.

A step of task `i` leaves the tasks as they are or does one of five things (`Sched.Moves`): the
first task not started takes a free slot and calls the backend, or gets in line for one; a task
holding a slot calls the backend, backs off, or finishes with a result for its own request that
is not a cancellation (`Sched.moves_step`).
-/

namespace DocWeaver

namespace Phase

/-- The task holds a slot: it was given one and has not finished. -/
def holdsSlot : Phase → Bool
  | .woken | .calling .. | .backoff .. => true
  | _ => false

def isInside : Phase → Bool
  | .calling .. | .backoff .. => true
  | _ => false

def isDone : Phase → Bool
  | .done _ => true
  | _ => false

/-- The task is inside a call that never returns. -/
def isHung : Phase → Bool
  | .calling _ _ _ _ .hang => true
  | _ => false

/-- The task cannot move: it is in line, inside a call that never returns, or done. -/
def isSettled : Phase → Bool
  | .waiting | .done _ | .calling _ _ _ _ .hang => true
  | _ => false

theorem holdsSlot_of_isInside {p : Phase} (h : p.isInside) : p.holdsSlot := by
  cases p <;> simp_all [isInside, holdsSlot]

theorem holdsSlot_of_isHung {p : Phase} (h : p.isHung) : p.holdsSlot := by
  cases p <;> simp_all [isHung, holdsSlot]

end Phase

/-- The result is the failure of a request cancelled before it finished. -/
def GenerationResult.isCancelled : GenerationResult → Bool
  | .failure _ .cancelled _ _ => true
  | _ => false

namespace Sched

variable {σ : Type}

@[simp] theorem setPhase_phases (s : Sched σ) (i : Nat) (p : Phase) :
    (s.setPhase i p).phases = s.phases.set i p := rfl

@[simp] theorem setPhase_state (s : Sched σ) (i : Nat) (p : Phase) :
    (s.setPhase i p).state = s.state := rfl

@[simp] theorem setPhase_waiters (s : Sched σ) (i : Nat) (p : Phase) :
    (s.setPhase i p).waiters = s.waiters := rfl

@[simp] theorem setPhase_free (s : Sched σ) (i : Nat) (p : Phase) : (s.setPhase i p).free = s.free :=
  rfl

@[simp] theorem setPhase_completed (s : Sched σ) (i : Nat) (p : Phase) :
    (s.setPhase i p).completed = s.completed := rfl

@[simp] theorem setPhase_progress (s : Sched σ) (i : Nat) (p : Phase) :
    (s.setPhase i p).progress = s.progress := rfl

@[simp] theorem run_nil (b : Backend σ) (M : Nat) (reqs : List GenerationRequest) (s : Sched σ) :
    s.run b M reqs [] = s := rfl

@[simp] theorem run_cons (b : Backend σ) (M : Nat) (reqs : List GenerationRequest) (s : Sched σ)
    (i : Nat) (picks : List Nat) : s.run b M reqs (i :: picks) = (s.step b M reqs i).run b M reqs picks :=
  rfl

section StepEq

variable {b : Backend σ} {M : Nat} {reqs : List GenerationRequest} {s : Sched σ} {i : Nat}

theorem step_of_calling {round tries attempts : Nat} {problem : String} {reply : Reply}
    (h : s.phases[i]? = some (.calling round tries attempts problem reply)) :
    s.step b M reqs i = s.afterReply b M reqs.length (reqs.getD i default).declaration
      (buildPrompt (reqs.getD i default)) i round tries attempts problem reply := by
  simp only [step, h]

theorem step_of_backoff {round tries attempts : Nat} {problem : String}
    (h : s.phases[i]? = some (.backoff round tries attempts problem)) :
    s.step b M reqs i =
      s.call b (buildPrompt (reqs.getD i default)) i round (tries + 1) (attempts + 1) problem := by
  simp only [step, h]

theorem step_of_none (h : s.phases[i]? = none) : s.step b M reqs i = s := by
  simp only [step, h]

theorem step_of_done {r : GenerationResult} (h : s.phases[i]? = some (.done r)) :
    s.step b M reqs i = s := by
  simp only [step, h]

end StepEq

theorem call_eq (b : Backend σ) (s : Sched σ) (prompt : String) (i round tries attempts : Nat)
    (problem : String) :
    s.call b prompt i round tries attempts problem =
      ({ s with state := (b.call s.state prompt).2 } : Sched σ).setPhase i
        (.calling round tries attempts problem (b.call s.state prompt).1) := rfl

theorem finish_eq (s : Sched σ) (total i : Nat) (r : GenerationResult) :
    s.finish total i r = match s.waiters with
      | j :: rest =>
        { ((s.setPhase i (.done r)).setPhase j .woken) with
          waiters := rest, completed := s.completed + 1,
          progress := (s.completed + 1, total) :: s.progress }
      | [] =>
        { (s.setPhase i (.done r)) with
          free := s.free + 1, completed := s.completed + 1,
          progress := (s.completed + 1, total) :: s.progress } := by
  obtain ⟨st, phases, waiters, free, completed, progress⟩ := s
  cases waiters <;> rfl

theorem countP_set_add {l : List Phase} (f : Phase → Bool) {i : Nat} {q : Phase}
    (hq : l[i]? = some q) (p : Phase) :
    (l.set i p).countP f + (if f q then 1 else 0) = l.countP f + (if f p then 1 else 0) := by
  obtain ⟨hi, rfl⟩ := List.getElem?_eq_some_iff.mp hq
  have hle := List.boole_getElem_le_countP (p := f) hi
  rw [List.countP_set hi]
  omega

theorem countP_take_lt {l : List Phase} (f : Phase → Bool) {j : Nat} {p : Phase}
    (hp : l[j]? = some p) (hf : f p) : (l.take j).countP f < l.countP f := by
  obtain ⟨hj, rfl⟩ := List.getElem?_eq_some_iff.mp hp
  have hsplit : l = l.take j ++ l[j] :: l.drop (j + 1) := by simp
  have hcount := congrArg (List.countP f) hsplit
  rw [List.countP_append, List.countP_cons, if_pos hf] at hcount
  omega

end Sched

/-! ### What a step can do -/

section Moves

variable {σ : Type} (b : Backend σ) (reqs : List GenerationRequest) (i : Nat)

/-- The ways a step of task `i` can change the tasks. -/
inductive Sched.Moves : Sched σ → Sched σ → Prop
  | stay (s : Sched σ) : Sched.Moves s s
  | enter {s : Sched σ} : s.phases[i]? = some .fresh → (s.phases.take i).any Phase.isFresh = false →
      0 < s.free → s.waiters = [] →
      Sched.Moves s (({ s with free := s.free - 1 } : Sched σ).call b
        (buildPrompt (reqs.getD i default)) i 0 1 1 "")
  | queue {s : Sched σ} : s.phases[i]? = some .fresh → (s.phases.take i).any Phase.isFresh = false →
      ¬(0 < s.free ∧ s.waiters = []) →
      Sched.Moves s (({ s with waiters := s.waiters ++ [i] } : Sched σ).setPhase i .waiting)
  | call {s : Sched σ} {p : Phase} (round tries attempts : Nat) (problem : String) :
      s.phases[i]? = some p → p.holdsSlot →
      Sched.Moves s (s.call b (buildPrompt (reqs.getD i default)) i round tries attempts problem)
  | backoff {s : Sched σ} {p : Phase} (round tries attempts : Nat) (problem : String) :
      s.phases[i]? = some p → p.holdsSlot →
      Sched.Moves s (s.setPhase i (.backoff round tries attempts problem))
  | finish {s : Sched σ} {p : Phase} {r : GenerationResult} : s.phases[i]? = some p → p.holdsSlot →
      r.declaration = (reqs.getD i default).declaration → r.isCancelled = false →
      Sched.Moves s (s.finish reqs.length i r)

variable {b reqs i} {M : Nat}

theorem Sched.moves_afterReply {s : Sched σ} {round tries attempts : Nat} {problem : String}
    {reply : Reply} (hi : s.phases[i]? = some (.calling round tries attempts problem reply)) :
    Sched.Moves b reqs i s (s.afterReply b M reqs.length (reqs.getD i default).declaration
      (buildPrompt (reqs.getD i default)) i round tries attempts problem reply) := by
  have hheld : (Phase.calling round tries attempts problem reply).holdsSlot := rfl
  cases reply with
  | text raw =>
    dsimp only [Sched.afterReply]
    split
    · exact .finish hi hheld rfl rfl
    · split
      · exact .call _ _ _ _ hi hheld
      · exact .finish hi hheld rfl rfl
  | transient m =>
    dsimp only [Sched.afterReply]
    split
    · exact .backoff _ _ _ _ hi hheld
    · exact .finish hi hheld rfl rfl
  | rejected m | failed m => exact .finish hi hheld rfl rfl
  | hang => exact .stay s

theorem Sched.moves_step (s : Sched σ) : Sched.Moves b reqs i s (s.step b M reqs i) := by
  unfold Sched.step
  dsimp only
  split
  · rename_i hi
    split
    · exact .stay s
    · rename_i hfirst
      rw [Bool.not_eq_true] at hfirst
      split
      · rename_i hfree
        exact .enter hi hfirst hfree.1 hfree.2
      · rename_i hfree
        exact .queue hi hfirst hfree
  · exact .call _ _ _ _ ‹_› rfl
  · exact .call _ _ _ _ ‹_› rfl
  · exact Sched.moves_afterReply ‹_›
  · exact .stay s

end Moves

end DocWeaver
