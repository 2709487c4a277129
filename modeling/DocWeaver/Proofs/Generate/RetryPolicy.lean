import DocWeaver.Proofs.Generate.Steps
import DocWeaver.Proofs.Generate.CleanText

/-!
The retry policy of one request, and that a run of one request follows it call for call.

`retryPolicy` states the policy on its own, over the replies `a 0, a 1, …` of successive
backend calls. A request makes at most two rounds. In a round the backend is called until it
answers; a failure worth retrying is retried while the round has made fewer than `maxAttempts`
calls, and any other failure ends the request with its message. An answer that cleans to
insertable text ends the request with that text; one that does not starts the next round, and
the answer of the last round that does not fails the request as invalid output.

A run of one request against a backend that answers its `n`-th call with `a n`, in which the
request's task takes enough steps, gives the policy's result; the backend was called once per
attempt the result reports, always with the request's prompt, and one finished request is
reported (`generateAll_follows_retryPolicy`). The proof is a simulation: each step of the task
finishes it with the policy's result or leaves the policy's answer from the new point the same,
while the task's weight falls (`soloRunning_step`).
-/

namespace DocWeaver

/-- A backend that answers its `n`-th call with `a n` and keeps the prompts it was given. -/
def Backend.scripted (a : Nat → Reply) : Backend (List String) :=
  ⟨fun prompts prompt => (a prompts.length, prompts ++ [prompt])⟩

/-! ### The policy -/

/-- How a round of calls ends: with an answer, or with a failure, after `calls` calls made by
the request in all; or never. -/
inductive RoundEnd where
  | answered (raw : String) (calls : Nat)
  | failed (kind : GenerationErrorKind) (message : String) (calls : Nat)
  | hung

/-- The calls a round's end reports. -/
def RoundEnd.calls : RoundEnd → Nat
  | .answered _ n | .failed _ _ n => n
  | .hung => 0

def roundFrom (a : Nat → Reply) (n left : Nat) : RoundEnd :=
  match a n, left with
  | .text raw, _ => .answered raw (n + 1)
  | .transient m, 0 => .failed .retriesExhausted m (n + 1)
  | .transient _, left + 1 => roundFrom a (n + 1) left
  | .rejected m, _ => .failed .backendError m (n + 1)
  | .failed m, _ => .failed .backendError m (n + 1)
  | .hang, _ => .hung

def afterAnswer (d : Declaration) (next : Nat → String → Option GenerationResult) (n : Nat) :
    Except String String → Option GenerationResult
  | .ok t => some (.success d t n)
  | .error p => next n p

def afterRound (d : Declaration) (next : Nat → String → Option GenerationResult) :
    RoundEnd → Option GenerationResult
  | .answered raw n => afterAnswer d next n (cleanGeneratedText raw)
  | .failed kind m n => some (.failure d kind n m)
  | .hung => none

def attemptRounds (d : Declaration) (M : Nat) (a : Nat → Reply) :
    Nat → Nat → String → Option GenerationResult
  | 0, n, problem => some (.failure d .invalidOutput n problem)
  | rounds + 1, n, _ => afterRound d (attemptRounds d M a rounds) (roundFrom a n (M - 1))

/-- The retry policy of a request for `d`, with at most `M` calls a round, over the replies
`a 0, a 1, …`; `none` when a call never returns. -/
def retryPolicy (d : Declaration) (M : Nat) (a : Nat → Reply) : Option GenerationResult :=
  attemptRounds d M a 2 0 ""

theorem roundFrom_calls_le (a : Nat → Reply) :
    ∀ n left, (roundFrom a n left).calls ≤ n + left + 1 := by
  intro n left
  induction left generalizing n with
  | zero =>
    rw [roundFrom.eq_def]
    cases a n <;> simp [RoundEnd.calls]
  | succ left ih =>
    rw [roundFrom.eq_def]
    cases a n with
    | transient m =>
      have := ih (n + 1)
      dsimp only
      omega
    | _ => simp [RoundEnd.calls]

theorem attemptRounds_attempts_le {d : Declaration} {M : Nat} {a : Nat → Reply} (hM : 1 ≤ M) :
    ∀ rounds n problem r, attemptRounds d M a rounds n problem = some r →
      r.attempts ≤ n + rounds * M := by
  intro rounds
  induction rounds with
  | zero =>
    intro n problem r h
    simp only [attemptRounds, Option.some.injEq] at h
    subst h
    simp [GenerationResult.attempts]
  | succ rounds ih =>
    intro n problem r h
    have hcalls := roundFrom_calls_le a n (M - 1)
    rw [attemptRounds] at h
    generalize roundFrom a n (M - 1) = e at h hcalls
    rw [Nat.succ_mul]
    cases e with
    | answered raw k =>
      simp only [RoundEnd.calls] at hcalls
      simp only [afterRound] at h
      cases hclean : cleanGeneratedText raw with
      | ok t =>
        simp only [hclean, afterAnswer, Option.some.injEq] at h
        subst h
        simp only [GenerationResult.attempts]
        omega
      | error p =>
        simp only [hclean, afterAnswer] at h
        have := ih _ _ _ h
        omega
    | failed kind m k =>
      simp only [afterRound, Option.some.injEq] at h
      subst h
      simp only [RoundEnd.calls] at hcalls
      simp only [GenerationResult.attempts]
      omega
    | hung => simp [afterRound] at h

theorem retryPolicy_attempts_le {d : Declaration} {M : Nat} {a : Nat → Reply} (hM : 1 ≤ M)
    {r : GenerationResult} (h : retryPolicy d M a = some r) : r.attempts ≤ 2 * M := by
  have := attemptRounds_attempts_le hM 2 0 "" r h
  omega

/-! ### The policy from a point of a request -/

def policyFrom (d : Declaration) (M : Nat) (a : Nat → Reply) (round tries n : Nat) :
    Option GenerationResult :=
  afterRound d (attemptRounds d M a (1 - round)) (roundFrom a n (M - 1 - tries))

theorem retryPolicy_eq_policyFrom (d : Declaration) (M : Nat) (a : Nat → Reply) :
    retryPolicy d M a = policyFrom d M a 0 0 0 := rfl

section PolicySteps

variable {d : Declaration} {M : Nat} {a : Nat → Reply} {round tries n : Nat}

theorem policyFrom_of_text {raw : String} (h : a n = .text raw) :
    policyFrom d M a round tries n =
      afterAnswer d (attemptRounds d M a (1 - round)) (n + 1) (cleanGeneratedText raw) := by
  rw [policyFrom, roundFrom.eq_def, h]
  rfl

theorem policyFrom_of_retry {m : String} (h : a n = .transient m) (hretry : tries + 1 < M) :
    policyFrom d M a round tries n = policyFrom d M a round (tries + 1) (n + 1) := by
  have hleft : M - 1 - tries = (M - 1 - (tries + 1)) + 1 := by omega
  rw [policyFrom, hleft, roundFrom.eq_def, h]
  rfl

theorem policyFrom_of_exhausted {m : String} (h : a n = .transient m) (htries : tries < M)
    (hlast : ¬ tries + 1 < M) :
    policyFrom d M a round tries n = some (.failure d .retriesExhausted (n + 1) m) := by
  have hleft : M - 1 - tries = 0 := by omega
  rw [policyFrom, hleft, roundFrom.eq_def, h]
  rfl

theorem policyFrom_of_error {m : String} (h : a n = .rejected m ∨ a n = .failed m) :
    policyFrom d M a round tries n = some (.failure d .backendError (n + 1) m) := by
  rcases h with h | h <;>
  · rw [policyFrom, roundFrom.eq_def, h]
    rfl

end PolicySteps


/-! ### A run of one request -/

section Solo

variable (C : Nat) (prompt : String)

def soloRunning (n : Nat) (φ : Phase) : Sched (List String) :=
  ⟨List.replicate n prompt, [φ], [], C - 1, 0, []⟩

def soloDone (r : GenerationResult) : Sched (List String) :=
  ⟨List.replicate r.attempts prompt, [.done r], [], C, 1, [(1, 1)]⟩

end Solo

/-- Where the task of a run of one request stands after `n` calls of a backend that answers its
`k`-th call with `a k`: inside its latest call with that call's reply, or backing off before the
next, in one of two rounds and within a round's `M` calls. -/
inductive SoloAt (M : Nat) (a : Nat → Reply) : Nat → Phase → Prop
  | calling {round tries n : Nat} (problem : String) : round ≤ 1 → 1 ≤ tries → tries ≤ M →
      SoloAt M a (n + 1) (.calling round tries (n + 1) problem (a n))
  | backoff {round tries n : Nat} (problem : String) : round ≤ 1 → tries < M →
      SoloAt M a n (.backoff round tries n problem)

def soloPolicy (d : Declaration) (M : Nat) (a : Nat → Reply) : Phase → Option GenerationResult
  | .calling round tries attempts _ _ => policyFrom d M a round (tries - 1) (attempts - 1)
  | .backoff round tries attempts _ => policyFrom d M a round tries attempts
  | _ => none

def soloWeight (M : Nat) : Phase → Nat
  | .calling round tries _ _ _ => 2 * (M - tries) + 1 + (1 - round) * (2 * M + 1)
  | .backoff round tries _ _ => 2 * (M - tries) + (1 - round) * (2 * M + 1)
  | _ => 0

theorem SoloAt.weight_pos {M : Nat} {a : Nat → Reply} {n : Nat} {φ : Phase} (h : SoloAt M a n φ) :
    0 < soloWeight M φ := by
  cases h <;> simp only [soloWeight] <;> omega

theorem scripted_call (a : Nat → Reply) (n : Nat) (prompt : String) :
    (Backend.scripted a).call (List.replicate n prompt) prompt =
      (a n, List.replicate (n + 1) prompt) := by
  simp [Backend.scripted, List.replicate_succ']

section SoloSteps

variable {C M : Nat} {prompt : String} {a : Nat → Reply} {req : GenerationRequest}

theorem soloRunning_call (n : Nat) (φ : Phase) (round tries attempts : Nat) (problem : String) :
    (soloRunning C prompt n φ).call (Backend.scripted a) prompt 0 round tries attempts problem =
      soloRunning C prompt (n + 1) (.calling round tries attempts problem (a n)) := by
  simp [Sched.call_eq, scripted_call, soloRunning, Sched.setPhase]

theorem soloRunning_finish (hC : 1 ≤ C) {n : Nat} {φ : Phase} {r : GenerationResult}
    (hr : r.attempts = n) : (soloRunning C prompt n φ).finish 1 0 r = soloDone C prompt r := by
  simp only [Sched.finish_eq, soloRunning, soloDone, Sched.setPhase, hr]
  congr
  omega

/-- A step of the task of a run of one request does what the policy does: it finishes with the
result the policy gives from where it stood, or moves to a point of lower weight from which the
policy gives the same. -/
theorem soloRunning_step (hC : 1 ≤ C) (hhang : ∀ k, a k ≠ .hang) {n : Nat} {φ : Phase}
    (h : SoloAt M a n φ) :
    (∃ n' φ', SoloAt M a n' φ' ∧ soloWeight M φ' < soloWeight M φ ∧
      soloPolicy req.declaration M a φ' = soloPolicy req.declaration M a φ ∧
      (soloRunning C (buildPrompt req) n φ).step (Backend.scripted a) M [req] 0 =
        soloRunning C (buildPrompt req) n' φ') ∨
    (∃ r, soloPolicy req.declaration M a φ = some r ∧
      (soloRunning C (buildPrompt req) n φ).step (Backend.scripted a) M [req] 0 =
        soloDone C (buildPrompt req) r) := by
  cases h with
  | @backoff round tries n problem hround htries =>
    refine Or.inl ⟨_, _, .calling (n := n) problem hround (Nat.succ_pos tries) htries, ?_, ?_, ?_⟩
    · simp only [soloWeight]
      omega
    · simp [soloPolicy]
    · rw [Sched.step_of_backoff rfl]
      exact soloRunning_call _ _ _ _ _ _
  | @calling round tries n problem hround htries₁ htries =>
    rw [Sched.step_of_calling rfl]
    have hpolicy : ∀ reply, soloPolicy req.declaration M a (.calling round tries (n + 1) problem reply) =
        policyFrom req.declaration M a round (tries - 1) n := fun _ => by
      simp [soloPolicy]
    have hfinish : ∀ reply (r : GenerationResult), r.attempts = n + 1 →
        policyFrom req.declaration M a round (tries - 1) n = some r →
        (∃ r', soloPolicy req.declaration M a (.calling round tries (n + 1) problem reply) = some r' ∧
          (soloRunning C (buildPrompt req) (n + 1) (.calling round tries (n + 1) problem reply)).finish
            [req].length 0 r = soloDone C (buildPrompt req) r') := fun reply r hr hpol =>
      ⟨r, (hpolicy reply).trans hpol, soloRunning_finish hC hr⟩
    cases ha : a n with
    | hang => exact absurd ha (hhang n)
    | text raw =>
      have htext : policyFrom req.declaration M a round (tries - 1) n =
          afterAnswer req.declaration (attemptRounds req.declaration M a (1 - round)) (n + 1)
            (cleanGeneratedText raw) :=
        policyFrom_of_text ha
      dsimp only [Sched.afterReply]
      split
      · rename_i t hclean
        exact Or.inr (hfinish _ _ rfl (by rw [htext, hclean]; rfl))
      · rename_i p hclean
        split
        · -- the first round's answer has no insertable text: the second round's first call
          rename_i hr0
          subst hr0
          refine Or.inl ⟨_, _, .calling (n := n + 1) p le_rfl le_rfl (by omega), ?_, ?_, ?_⟩
          · simp only [soloWeight]
            omega
          · rw [hpolicy, htext, hclean]
            rfl
          · exact soloRunning_call _ _ _ _ _ _
        · rename_i hr0
          refine Or.inr (hfinish _ _ rfl ?_)
          rw [htext, hclean, show 1 - round = 0 by omega]
          rfl
    | transient m =>
      by_cases hretry : tries < M
      · dsimp only [Sched.afterReply]
        rw [if_pos hretry]
        refine Or.inl ⟨_, _, .backoff (n := n + 1) problem hround hretry, ?_, ?_, ?_⟩
        · simp only [soloWeight]
          omega
        · rw [hpolicy, policyFrom_of_retry ha (by omega), Nat.sub_add_cancel htries₁]
          rfl
        · rfl
      · dsimp only [Sched.afterReply]
        rw [if_neg hretry]
        exact Or.inr (hfinish _ _ rfl (policyFrom_of_exhausted ha (by omega) (by omega)))
    | rejected m =>
      exact Or.inr (hfinish _ _ rfl (policyFrom_of_error (Or.inl ha)))
    | failed m =>
      exact Or.inr (hfinish _ _ rfl (policyFrom_of_error (Or.inr ha)))

theorem soloDone_run (r : GenerationResult) (picks : List Nat) :
    (soloDone C prompt r).run (Backend.scripted a) M [req] picks = soloDone C prompt r := by
  induction picks with
  | nil => rfl
  | cons i picks ih =>
    rw [Sched.run_cons]
    cases i with
    | zero => rwa [Sched.step_of_done rfl]
    | succ i => rwa [Sched.step_of_none rfl]

theorem soloRunning_run (hC : 1 ≤ C) (hhang : ∀ k, a k ≠ .hang) :
    ∀ (picks : List Nat) {n : Nat} {φ : Phase}, SoloAt M a n φ → soloWeight M φ ≤ picks.count 0 →
      ∃ r, soloPolicy req.declaration M a φ = some r ∧
        (soloRunning C (buildPrompt req) n φ).run (Backend.scripted a) M [req] picks =
          soloDone C (buildPrompt req) r := by
  intro picks
  induction picks with
  | nil =>
    intro n φ h hw
    have := h.weight_pos
    simp only [List.count_nil] at hw
    omega
  | cons i picks ih =>
    intro n φ h hw
    rw [Sched.run_cons]
    cases i with
    | zero =>
      rw [List.count_cons_self] at hw
      rcases soloRunning_step hC hhang h with ⟨n', φ', h', hlt, hpol, hstep⟩ | ⟨r, hpol, hstep⟩
      · obtain ⟨r, hr, hrun⟩ := ih h' (by omega)
        exact ⟨r, hpol ▸ hr, by rw [hstep, hrun]⟩
      · exact ⟨r, hpol, by rw [hstep, soloDone_run]⟩
    | succ i =>
      rw [List.count_cons_of_ne (by simp)] at hw
      rw [Sched.step_of_none rfl]
      exact ih h hw

theorem start_run (hM : 1 ≤ M) (hC : 1 ≤ C) (hhang : ∀ k, a k ≠ .hang) :
    ∀ picks : List Nat, 4 * M + 1 ≤ picks.count 0 →
      ∃ r, retryPolicy req.declaration M a = some r ∧
        (Sched.start [] 1 C).run (Backend.scripted a) M [req] picks =
          soloDone C (buildPrompt req) r
  | [], hw => absurd hw (by simp)
  | 0 :: picks, hw => by
    have hfirst : (Sched.start [] 1 C).step (Backend.scripted a) M [req] 0 =
        soloRunning C (buildPrompt req) 1 (.calling 0 1 1 "" (a 0)) := by
      have hfree : 0 < C := hC
      simp [Sched.step, Sched.start, hfree]
      exact soloRunning_call (C := C) 0 .fresh 0 1 1 ""
    rw [List.count_cons_self] at hw
    obtain ⟨r, hr, hrun⟩ := soloRunning_run hC hhang picks
      (SoloAt.calling (n := 0) "" (Nat.zero_le 1) le_rfl hM) (by simp only [soloWeight]; omega)
    exact ⟨r, hr, by rw [Sched.run_cons, hfirst, hrun]⟩
  | (i + 1) :: picks, hw => by
    rw [List.count_cons_of_ne (by simp)] at hw
    rw [Sched.run_cons, Sched.step_of_none rfl]
    exact start_run hM hC hhang picks hw

end SoloSteps

theorem generateAll_one_request (g : GenerationConfig) (req : GenerationRequest) (a : Nat → Reply)
    (picks : List Nat) (hM : 1 ≤ g.maxAttempts) (hC : 1 ≤ g.maxConcurrency)
    (hhang : ∀ n, a n ≠ .hang) (hsteps : 4 * g.maxAttempts.toNat + 1 ≤ picks.count 0) :
    ∃ r, retryPolicy req.declaration g.maxAttempts.toNat a = some r ∧
      generateAll (Backend.scripted a) g [req] [] picks =
        ⟨[r], List.replicate r.attempts (buildPrompt req), [(1, 1)]⟩ := by
  obtain ⟨r, hpol, hrun⟩ : ∃ r, retryPolicy req.declaration g.maxAttempts.toNat a = some r ∧
      (Sched.start [] 1 g.maxConcurrency.toNat).run (Backend.scripted a) g.maxAttempts.toNat [req]
        picks = soloDone g.maxConcurrency.toNat (buildPrompt req) r :=
    start_run (by omega) (by omega) hhang picks hsteps
  refine ⟨r, hpol, ?_⟩
  simp only [generateAll, generateRun, List.length_singleton]
  rw [hrun]
  simp [soloDone]

/-- A run of one request against a backend that answers its `n`-th call with `a n`, none of
which hangs, with at least one call a round and one slot, in which the request's task takes at
least `4 * maxAttempts + 1` steps, whatever else the order of steps holds, ends with the retry
policy's result: the backend was called once per attempt the result reports, at most twice
`maxAttempts` times, each time with the request's prompt, and one finished request out of one is
reported. -/
theorem generateAll_follows_retryPolicy (g : GenerationConfig) (req : GenerationRequest)
    (a : Nat → Reply) (picks : List Nat) (hM : 1 ≤ g.maxAttempts) (hC : 1 ≤ g.maxConcurrency)
    (hhang : ∀ n, a n ≠ .hang) (hsteps : 4 * g.maxAttempts.toNat + 1 ≤ picks.count 0) :
    ∃ r, retryPolicy req.declaration g.maxAttempts.toNat a = some r ∧
      generateAll (Backend.scripted a) g [req] [] picks =
        ⟨[r], List.replicate r.attempts (buildPrompt req), [(1, 1)]⟩ ∧
      r.attempts ≤ 2 * g.maxAttempts.toNat := by
  obtain ⟨r, hpol, hrun⟩ := generateAll_one_request g req a picks hM hC hhang hsteps
  exact ⟨r, hpol, hrun, retryPolicy_attempts_le (by omega) hpol⟩

/-- A backend busy on the first call, answering with no text on the second and with
documentation on the third: with two calls a round, the request succeeds on its third call, and
the backend was given the request's prompt three times. -/
theorem busy_then_empty_then_documented :
    let a : Nat → Reply := fun n =>
      if n = 0 then .transient "overloaded" else if n = 1 then .text "" else .text "Adds."
    let g : GenerationConfig := { maxAttempts := 2, maxConcurrency := 1 }
    1 ≤ g.maxAttempts ∧ 1 ≤ g.maxConcurrency ∧ (∀ n, a n ≠ .hang) ∧
      4 * g.maxAttempts.toNat + 1 ≤ (List.replicate 9 0).count 0 ∧
      generateAll (Backend.scripted a) g [default] [] (List.replicate 9 0) =
        ⟨[.success (default : GenerationRequest).declaration "Adds." 3],
          List.replicate 3 (buildPrompt default), [(1, 1)]⟩ := by
  intro a g
  have hnohang : ∀ n, a n ≠ .hang := by
    intro n
    simp only [a]
    split_ifs <;> simp
  have hempty : cleanGeneratedText "" = .error "empty output" := by decide +kernel
  have hdoc : cleanGeneratedText "Adds." = .ok "Adds." := by
    have hkept : "Adds." = unwrapDocBlock (Text.strip ("\n".intercalate
        (stripFences (Text.splitLines (Text.strip "Adds."))))) := by
      decide +kernel
    rw [cleanGeneratedText, ← hkept, checkInsertable_eq_ok_iff]
    exact ⟨rfl, by decide, by decide +kernel, by decide +kernel⟩
  have hpolicy : retryPolicy (default : GenerationRequest).declaration g.maxAttempts.toNat a =
      some (.success (default : GenerationRequest).declaration "Adds." 3) := by
    simp [retryPolicy, attemptRounds, roundFrom, afterRound, afterAnswer, a, g, hempty, hdoc]
  have hsteps : 4 * g.maxAttempts.toNat + 1 ≤ (List.replicate 9 0).count 0 := by decide
  obtain ⟨r, hr, hrun, -⟩ :=
    generateAll_follows_retryPolicy g default a _ (by decide) (by decide) hnohang hsteps
  rw [hpolicy, Option.some.injEq] at hr
  subst hr
  exact ⟨by decide, by decide, hnohang, hsteps, hrun⟩

end DocWeaver
