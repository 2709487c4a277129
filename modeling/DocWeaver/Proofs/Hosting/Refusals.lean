import DocWeaver.Hosting.GitHub
import Mathlib

/-!
How the calls of the host's client fail.

To see the requests a call sends, `Transport.logged` wraps a transport so that its state also
holds every request made through it, each with the answer it got. An answer passes when the call
expects it: a status below 400, or one the call tolerates (`Exchange.passes`). A refused answer
stands for the error `Exchange.refusal`: it names the method and path, and, for an answer with a
status, that status and the `message` field of the body when the body is a JSON object with one,
the body itself otherwise.

`StopsAtRefusal` says that a call stops at the first refused answer: every request before the last
one got an answer that passes, and when the last one was refused the call fails with its refusal,
as long as its body is readable (not JSON, or a JSON object). The rules `StopsAtRefusal.pure`,
`.bind`, `.lift` and `.foldlM` carry it through a call's code, `request_stopsAtRefusal` gives it for
one request, and `calls_stop_at_refusal` for the four calls of the client.

A refused answer whose body is JSON of another kind, such as a list, fails the call with an
`AttributeError` in place of the host's error (`list_body_refusal_escapes`).
-/

namespace DocWeaver.Hosting

/-- A request sent, with the answer it got. -/
structure Exchange where
  request : HttpRequest
  answer : Except String HttpResponse

variable {σ α β : Type}

/-- The transport that answers as `t` does and logs every request with its answer, after those
logged before. -/
def Transport.logged (t : Transport σ) : Transport (σ × List Exchange) :=
  fun s req => ((t s.1 req).1, ((t s.1 req).2, s.2 ++ [⟨req, (t s.1 req).1⟩]))

/-- The client that sends what `c` sends, through its transport logged. -/
def GitHubClient.logged (c : GitHubClient σ) : GitHubClient (σ × List Exchange) :=
  ⟨c.repository, c.token, c.transport.logged⟩

def Exchange.passes (tolerated : String → List Nat) (e : Exchange) : Bool :=
  match e.answer with
  | .ok r => r.status < 400 || (tolerated e.request.method).contains r.status
  | .error _ => false

def readableBody (body : String) : Bool :=
  match JsonValue.parse body with
  | some (.obj _) | none => true
  | some _ => false

def refusalMessage (body : String) : String :=
  match JsonValue.parse body with
  | some (.obj fs) => match fs.lookup "message" with
    | some m => m.shown
    | none => body
  | _ => body

def Exchange.readable (e : Exchange) : Bool :=
  match e.answer with
  | .ok r => readableBody r.body
  | .error _ => true

def Exchange.refusal (e : Exchange) : HostingError :=
  match e.answer with
  | .error why => .api (e.request.method ++ " " ++ e.request.url ++ " failed: " ++ why) none
  | .ok r => .api (e.request.method ++ " " ++ e.request.url ++ s!" failed ({r.status}): " ++
      refusalMessage r.body) (some r.status)

theorem run_bind_run {σ' : Type} (p : Hosted σ' α) (f : α → Hosted σ' β) (st : σ') :
    (p >>= f).run.run st = match p.run.run st with
      | (.ok a, st') => (f a).run.run st'
      | (.error e, st') => (.error e, st') := by
  simp only [ExceptT.run_bind, StateT.run_bind]
  rcases p.run.run st with ⟨_ | _, _⟩ <;> rfl

def Silent {σ' : Type} (p : Hosted σ' α) : Prop := ∀ st, (p.run.run st).2 = st

namespace Silent

variable {σ' : Type}

theorem pure (a : α) : Silent (Pure.pure a : Hosted σ' α) := fun _ => rfl

theorem lift (x : Except HostingError α) : Silent (GitHubClient.lift x : Hosted σ' α) := fun _ => by
  cases x <;> rfl

theorem bind {p : Hosted σ' α} {f : α → Hosted σ' β} (hp : Silent p) (hf : ∀ a, Silent (f a)) :
    Silent (p >>= f) := by
  intro st
  have hst := hp st
  rw [run_bind_run]
  rcases hrun : p.run.run st with ⟨_ | a, st'⟩
  · rw [hrun] at hst
    exact hst
  · rw [hrun] at hst
    rw [← hst]
    exact hf a st'

theorem foldlM {f : β → α → Hosted σ' β} (hf : ∀ b a, Silent (f b a)) :
    ∀ (l : List α) (b : β), Silent (l.foldlM f b)
  | [], b => pure b
  | a :: l, b => by
    rw [List.foldlM_cons]
    exact bind (hf b a) fun b' => foldlM hf l b'

theorem returned_of_bind {p : Hosted σ' α} {f : α → Hosted σ' β} (hf : ∀ a, Silent (f a))
    {st st' : σ'} {b : β} (h : (p >>= f).run.run st = (.ok b, st')) :
    ∃ a, p.run.run st = (.ok a, st') := by
  rw [run_bind_run] at h
  rcases hrun : p.run.run st with ⟨_ | a, st₁⟩
  · rw [hrun] at h
    cases h
  · rw [hrun] at h
    dsimp only at h
    have hst := hf a st₁
    simp only [h] at hst
    exact ⟨a, by rw [hst]⟩

end Silent

/-- Every run of `p` over a logging transport sends requests and stops at the first refused
answer: every request but the last passed, all passed when the run returns, and a refused last
request with a readable answer is the run's error. -/
def StopsAtRefusal (tolerated : String → List Nat) (p : Hosted (σ × List Exchange) α) : Prop :=
  ∀ s log, ∃ sent, (p.run.run (s, log)).2.2 = log ++ sent ∧
    (∀ e ∈ sent.dropLast, e.passes tolerated) ∧
    ((p.run.run (s, log)).1.isOk → ∀ e ∈ sent, e.passes tolerated) ∧
    ∀ e ∈ sent.getLast?, e.passes tolerated = false → e.readable →
      (p.run.run (s, log)).1 = .error e.refusal


def StoppedAtRefusal (tolerated : String → List Nat) (log : List Exchange)
    (out : Except HostingError α × (σ × List Exchange)) : Prop :=
  ∃ sent, out.2.2 = log ++ sent ∧
    (∀ e ∈ sent.dropLast, e.passes tolerated) ∧
    (out.1.isOk → ∀ e ∈ sent, e.passes tolerated) ∧
    ∀ e ∈ sent.getLast?, e.passes tolerated = false → e.readable → out.1 = .error e.refusal

namespace StoppedAtRefusal

variable {tol : String → List Nat} {log : List Exchange}

theorem silent (x : Except HostingError α) (s : σ) : StoppedAtRefusal tol log (x, (s, log)) :=
  ⟨[], by simp, by simp, by simp, by simp⟩

theorem retype {x : Except HostingError α} {y : Except HostingError β} {st : σ × List Exchange}
    (h : StoppedAtRefusal tol log (x, st)) (hok : y.isOk → x.isOk)
    (herror : ∀ r, x = .error r → y = .error r) : StoppedAtRefusal tol log (y, st) := by
  obtain ⟨sent, hlog, hlast, hreturned, hrefused⟩ := h
  exact ⟨sent, hlog, hlast, fun h' => hreturned (hok h'),
    fun e he hp hr => herror _ (hrefused e he hp hr)⟩

theorem seq {a : α} {st : σ × List Exchange} {out : Except HostingError β × (σ × List Exchange)}
    (h₁ : StoppedAtRefusal tol log (.ok a, st)) (h₂ : StoppedAtRefusal tol st.2 out) :
    StoppedAtRefusal tol log out := by
  obtain ⟨sent, hlog, -, hok, -⟩ := h₁
  -- the first run returned, so every request it sent passed; those of the second follow them
  have hpassed : ∀ e ∈ sent, e.passes tol := hok rfl
  obtain ⟨sent', hlog', hlast', hok', hrefused'⟩ := h₂
  refine ⟨sent ++ sent', by rw [hlog', hlog, List.append_assoc], fun e he => ?_,
    fun h e he => ?_, fun e he hp hr => ?_⟩
  · rw [List.dropLast_append] at he
    split at he
    · exact hpassed e (List.dropLast_subset _ he)
    · rcases List.mem_append.1 he with he | he
      · exact hpassed e he
      · exact hlast' e he
  · rcases List.mem_append.1 he with he | he
    · exact hpassed e he
    · exact hok' h e he
  · rw [List.getLast?_append] at he
    cases hl : sent'.getLast? with
    | some x =>
      rw [hl] at he
      cases he
      exact hrefused' e hl hp hr
    | none =>
      rw [hl, Option.none_or] at he
      exact absurd (hpassed e (List.mem_of_getLast? he)) (by simp [hp])

end StoppedAtRefusal

namespace StopsAtRefusal

variable {tol : String → List Nat}

theorem of_silent {p : Hosted (σ × List Exchange) α} (h : Silent p) : StopsAtRefusal tol p := by
  intro s log
  have hst := h (s, log)
  revert hst
  rcases p.run.run (s, log) with ⟨x, st⟩
  rintro rfl
  exact StoppedAtRefusal.silent x s

theorem pure (a : α) : StopsAtRefusal tol (Pure.pure a : Hosted (σ × List Exchange) α) :=
  of_silent (.pure a)

theorem lift (x : Except HostingError α) :
    StopsAtRefusal tol (GitHubClient.lift x : Hosted (σ × List Exchange) α) :=
  of_silent (.lift x)

theorem bind {p : Hosted (σ × List Exchange) α} {f : α → Hosted (σ × List Exchange) β}
    (hp : StopsAtRefusal tol p) (hf : ∀ a, StopsAtRefusal tol (f a)) :
    StopsAtRefusal tol (p >>= f) := by
  intro s log
  have hfirst : StoppedAtRefusal tol log (p.run.run (s, log)) := hp s log
  rw [run_bind_run]
  rcases hrun : p.run.run (s, log) with ⟨_ | a, s', log'⟩
  · -- `p` failed: the run is `p`'s, and so are its requests
    rw [hrun] at hfirst
    exact hfirst.retype (by simp [Except.isOk, Except.toBool]) fun r h => by cases h; rfl
  · rw [hrun] at hfirst
    exact hfirst.seq (hf a s' log')

theorem foldlM {f : β → α → Hosted (σ × List Exchange) β} (hf : ∀ b a, StopsAtRefusal tol (f b a)) :
    ∀ (l : List α) (b : β), StopsAtRefusal tol (l.foldlM f b)
  | [], b => pure b
  | a :: l, b => by
    rw [List.foldlM_cons]
    exact bind (hf b a) fun b' => foldlM hf l b'

theorem loop [Nonempty σ] [Nonempty β] {f : α → Hosted (σ × List Exchange) (α ⊕ β)}
    (μ : σ → Nat) (hf : ∀ a, StopsAtRefusal tol (f a))
    (hμ : ∀ a st a' st', (f a).run.run st = (.ok (.inl a'), st') → μ st'.1 < μ st.1) (a : α) :
    StopsAtRefusal tol (repeatM f a) := by
  suffices h : ∀ n a s log, μ s = n → StoppedAtRefusal tol log ((repeatM f a).run.run (s, log))
    from fun s log => h _ a s log rfl
  intro n
  induction n using Nat.strongRecOn with
  | _ n ih =>
    intro a s log hn
    have hstep : StoppedAtRefusal tol log ((f a).run.run (s, log)) := hf a s log
    rw [repeatM_eq_of_monadTail]
    dsimp only [repeatM.body]
    rw [run_bind_run]
    rcases hrun : (f a).run.run (s, log) with ⟨_ | (a' | b), s', log'⟩ <;> rw [hrun] at hstep
    · exact hstep.retype (by simp [Except.isOk, Except.toBool]) fun r h => by cases h; rfl
    · -- the loop goes on from a state lower in `μ`
      exact hstep.seq (ih _ (hn ▸ hμ a _ a' _ hrun) a' s' log' rfl)
    · exact hstep.retype (fun _ => rfl) fun r h => by cases h

end StopsAtRefusal

theorem run_modifyGet {σ' γ : Type} (g : σ' → γ × σ') (st : σ') :
    (liftM (modifyGet g : StateM σ' γ) : Hosted σ' γ).run.run st = (.ok (g st).1, (g st).2) := rfl

theorem run_liftExcept {σ' γ : Type} (x : Except HostingError γ) (st : σ') :
    (GitHubClient.request.liftExcept x : Hosted σ' γ).run.run st = (x, st) := by
  cases x <;> rfl

theorem refusalText_of_readable {r : HttpResponse} (h : readableBody r.body) :
    refusalText r = .ok (refusalMessage r.body) := by
  unfold refusalText refusalMessage
  unfold readableBody at h
  split at h
  · rename_i fs hparse
    rw [hparse]
    dsimp only [fieldOpt]
    cases fs.lookup "message" <;> rfl
  · rename_i hparse
    rw [hparse]
  · cases h

theorem send_stopsAtRefusal {tol : String → List Nat} (t : Transport σ) (req : HttpRequest)
    (k : Except String HttpResponse → Hosted (σ × List Exchange) α)
    (hsilent : ∀ ans, Silent (k ans))
    (hpass : ∀ ans st, ((k ans).run.run st).1.isOk → Exchange.passes tol ⟨req, ans⟩)
    (hrefuse : ∀ ans st, Exchange.passes tol ⟨req, ans⟩ = false → Exchange.readable ⟨req, ans⟩ →
      ((k ans).run.run st).1 = .error (Exchange.refusal ⟨req, ans⟩)) :
    StopsAtRefusal tol ((liftM (modifyGet fun st => t.logged st req :
      StateM (σ × List Exchange) (Except String HttpResponse)) : Hosted _ _) >>= k) := by
  intro s log
  rw [run_bind_run, run_modifyGet]
  dsimp only
  refine ⟨[⟨req, (t s req).1⟩], by simp [Transport.logged, hsilent _ _], by simp, ?_, ?_⟩
  · intro h e he
    rw [List.mem_singleton] at he
    subst he
    exact hpass _ _ h
  · intro e he hp hr
    rw [List.getLast?_singleton, Option.mem_some_iff] at he
    subst he
    exact hrefuse _ _ hp hr

theorem request_stopsAtRefusal (c : GitHubClient σ) {tol : String → List Nat} (method url : String)
    (allowed : List Nat) (params : List (String × String)) (body : Option JsonValue)
    (hallowed : tol method = allowed) :
    StopsAtRefusal tol (c.logged.request method url allowed params body) := by
  unfold GitHubClient.request
  refine send_stopsAtRefusal c.transport _ _ ?_ ?_ ?_
  · intro ans st
    cases ans with
    | error e => rfl
    | ok r =>
      dsimp only
      split
      · rw [run_bind_run, run_liftExcept]
        cases refusalText r <;> rfl
      · rfl
  · intro ans st h
    cases ans with
    | error e => cases h
    | ok r =>
      dsimp only at h
      split at h
      · rw [run_bind_run, run_liftExcept] at h
        revert h
        cases refusalText r <;> simp [Except.isOk, Except.toBool]
      · rename_i hkept
        simp only [Exchange.passes, hallowed]
        simp only [ge_iff_le, Bool.and_eq_true, decide_eq_true_eq, Bool.not_eq_eq_eq_not,
          Bool.not_true, not_and, Bool.not_eq_false, List.contains_iff_mem] at hkept
        rcases Nat.lt_or_ge r.status 400 with h4 | h4
        · simp [h4]
        · simp [hkept h4]
  · intro ans st hp hr
    cases ans with
    | error e => rfl
    | ok r =>
      have hrefused : (decide (r.status ≥ 400) && !allowed.contains r.status) = true := by
        simpa [Exchange.passes, hallowed, Nat.not_lt] using hp
      dsimp only
      rw [if_pos hrefused, run_bind_run, run_liftExcept, refusalText_of_readable hr]
      rfl

theorem GitHubClient.request_answered (c : GitHubClient σ) {method url : String}
    {allowed : List Nat} {params : List (String × String)} {body : Option JsonValue} {st st' : σ}
    {r : HttpResponse} (h : (c.request method url allowed params body).run.run st = (.ok r, st')) :
    ∃ req, c.transport st req = (.ok r, st') := by
  unfold GitHubClient.request at h
  rw [run_bind_run, run_modifyGet] at h
  dsimp only at h
  split at h
  · cases h
  · rename_i r' hans
    split at h
    · rw [run_bind_run, run_liftExcept] at h
      rcases hr : refusalText r' with _ | t <;> simp only [hr] at h <;> cases h
    · cases h
      exact ⟨_, Prod.ext hans rfl⟩

/-! ### The calls -/

namespace GitHubClient

variable (c : GitHubClient σ)

theorem readPage_eq_request_bind (number : Int) (page : Nat) (cs : ChangeSet) :
    ∃ k : HttpResponse → Hosted σ (ChangeSet × Bool), (∀ r, Silent (k r)) ∧
      c.readPage number page cs = c.request "GET" (c.repoPath s!"/pulls/{number}/files") []
        [("page", toString page), ("per_page", toString pageSize)] none >>= k := by
  refine ⟨_, fun r => ?_, rfl⟩
  refine .bind (.lift _) fun body => .bind (.lift _) fun items => ?_
  refine .bind (.foldlM (fun cs item => ?_) items cs) fun cs => .pure _
  refine .bind (.lift _) fun change => ?_
  split <;> exact .pure _

theorem readPage_answered {number : Int} {page : Nat} {cs : ChangeSet} {st st' : σ}
    {x : ChangeSet × Bool} (h : (c.readPage number page cs).run.run st = (.ok x, st')) :
    ∃ req r, c.transport st req = (.ok r, st') := by
  obtain ⟨k, hk, heq⟩ := c.readPage_eq_request_bind number page cs
  rw [heq] at h
  obtain ⟨r, hr⟩ := Silent.returned_of_bind hk h
  obtain ⟨req, hreq⟩ := c.request_answered hr
  exact ⟨req, r, hreq⟩

theorem readPage_stopsAtRefusal (number : Int) (page : Nat) (cs : ChangeSet) :
    StopsAtRefusal (fun _ => []) (c.logged.readPage number page cs) := by
  obtain ⟨k, hk, heq⟩ := c.logged.readPage_eq_request_bind number page cs
  rw [heq]
  exact .bind (request_stopsAtRefusal _ _ _ _ _ _ rfl) fun r => .of_silent (hk r)

theorem pagesFrom_step_answered {number : Int} {page : Nat} {cs : ChangeSet} {st st' : σ}
    {next : Nat × ChangeSet}
    (h : ((do let (cs, full) ← c.readPage number page cs
              pure (if full then .inl (page + 1, cs) else .inr cs)) :
            Hosted σ ((Nat × ChangeSet) ⊕ ChangeSet)).run.run st = (.ok (.inl next), st')) :
    ∃ req r, c.transport st req = (.ok r, st') := by
  obtain ⟨x, hx⟩ := Silent.returned_of_bind (fun _ => .pure _) h
  exact c.readPage_answered hx

end GitHubClient

/-- A host that answers each request with the next answer of its script, whatever the request,
and fails to answer once the script is used up. -/
def Transport.scripted : Transport (List (Except String HttpResponse)) := fun s _ =>
  match s with
  | a :: rest => (a, rest)
  | [] => (.error "no reply", [])

theorem scripted_length_lt {script rest : List (Except String HttpResponse)} {req : HttpRequest}
    {r : HttpResponse} {log log' : List Exchange}
    (h : Transport.scripted.logged (script, log) req = (.ok r, (rest, log'))) :
    rest.length < script.length := by
  cases script with
  | nil => cases h
  | cons a tail =>
    simp only [Transport.logged, Transport.scripted, Prod.mk.injEq] at h
    rw [← h.2.1]
    simp

namespace GitHubClient

variable (c : GitHubClient σ)

theorem pullRequestChanges_stopsAtRefusal (repo : RepositoryConfig) (token : String)
    (number : Int) :
    StopsAtRefusal (fun _ => [])
      (GitHubClient.logged ⟨repo, token, Transport.scripted⟩ |>.pullRequestChanges number) := by
  unfold pullRequestChanges pagesFrom
  refine .loop List.length ?_ ?_ ((1, {}) : Nat × ChangeSet)
  · rintro ⟨page, cs⟩
    exact .bind (readPage_stopsAtRefusal _ number page cs) fun _ => .pure _
  · rintro ⟨page, cs⟩ ⟨script, log⟩ next ⟨rest, log'⟩ h
    obtain ⟨req, r, hr⟩ := pagesFrom_step_answered _ h
    exact scripted_length_lt hr

theorem createBranch_stopsAtRefusal (branch base : String) :
    StopsAtRefusal (fun m => if m = "POST" then [422] else []) (c.logged.createBranch branch base) := by
  unfold createBranch
  refine .bind (request_stopsAtRefusal _ _ _ _ _ _ (by decide)) fun r => ?_
  refine .bind (.lift _) fun sha => ?_
  exact .bind (request_stopsAtRefusal _ _ _ _ _ _ (by decide)) fun _ => .pure ()

theorem commitFile_stopsAtRefusal (branch path content message : String) :
    StopsAtRefusal (fun m => if m = "GET" then [404] else []) (c.logged.commitFile branch path content message) := by
  unfold commitFile
  refine .bind (request_stopsAtRefusal _ _ _ _ _ _ (by decide)) fun existing => ?_
  -- the code after the branch on the contents lookup is a join point: the `PUT` of the payload
  extract_lets payload put
  have hput : ∀ p, StopsAtRefusal (fun m => if m = "GET" then [404] else []) (put p) := fun p =>
    .bind (request_stopsAtRefusal _ _ _ _ _ _ (by decide)) fun _ => .pure ()
  split
  · exact .bind (.pure _) hput
  · exact .bind (.lift _) fun sha => .bind (.pure _) hput

theorem createPullRequest_stopsAtRefusal (title body head base : String) (labels reviewers : List String) :
    StopsAtRefusal (fun _ => []) (c.logged.createPullRequest title body head base labels reviewers) := by
  unfold createPullRequest
  refine .bind (request_stopsAtRefusal _ _ _ _ _ _ rfl) fun r => .bind (.lift _) fun existing => ?_
  split
  · exact .lift _
  refine .bind (request_stopsAtRefusal _ _ _ _ _ _ rfl) fun r => .bind (.lift _) fun number => ?_
  -- the review request after the labels, and the answer after it, are join points
  extract_lets finish afterLabels
  have hafter : ∀ u, StopsAtRefusal (fun _ => []) (afterLabels u) := by
    intro u
    simp -zeta only [afterLabels]
    split
    · refine .bind (request_stopsAtRefusal _ _ _ _ _ _ rfl) fun r => .bind (.lift _) fun author => ?_
      extract_lets isAuthor requested
      split
      · exact .bind (request_stopsAtRefusal _ _ _ _ _ _ rfl) fun _ => .pure number
      · exact .pure number
    · exact .pure number
  split
  · exact .bind (request_stopsAtRefusal _ _ _ _ _ _ rfl) fun _ => hafter ()
  · exact hafter ()

end GitHubClient

/-- Every call of the client stops at the first answer it does not expect: a status of 400 or more
that it does not tolerate (404 for the contents lookup of a commit, 422 for the ref creation of a
branch), or a failed connection. The file list of a pull request is read against a scripted host,
since a host that sends full pages forever keeps the loop going. -/
theorem calls_stop_at_refusal (c : GitHubClient σ) (number : Int)
    (branch base path content message title body head : String) (labels reviewers : List String) :
    StopsAtRefusal (fun _ => [])
        (GitHubClient.logged ⟨c.repository, c.token, Transport.scripted⟩ |>.pullRequestChanges number) ∧
      StopsAtRefusal (fun m => if m = "POST" then [422] else []) (c.logged.createBranch branch base) ∧
      StopsAtRefusal (fun m => if m = "GET" then [404] else [])
        (c.logged.commitFile branch path content message) ∧
      StopsAtRefusal (fun _ => []) (c.logged.createPullRequest title body head base labels reviewers) :=
  ⟨GitHubClient.pullRequestChanges_stopsAtRefusal c.repository c.token number,
    c.createBranch_stopsAtRefusal branch base, c.commitFile_stopsAtRefusal branch path content message,
    c.createPullRequest_stopsAtRefusal title body head base labels reviewers⟩

/-- A refused answer whose body is a JSON list: looking up the head of the base branch fails with
an `AttributeError`, where the host's error for the status 404 was due. -/
theorem list_body_refusal_escapes :
    let c : GitHubClient Unit := ⟨⟨"acme", "widgets", some "t0k", "https://api.github.com"⟩, "t0k",
      fun s _ => (.ok ⟨404, "[\"x\"]"⟩, s)⟩
    ((c.createBranch "b" "main").run.run ()).1 =
      .error (.value "AttributeError" "'list' object has no attribute 'get'") := by
  rfl

end DocWeaver.Hosting
