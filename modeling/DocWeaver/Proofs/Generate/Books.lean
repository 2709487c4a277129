import DocWeaver.Proofs.Generate.Steps

/-!
The books of a run of requests.

`Sched.Inv` collects what stays true of the tasks along every run: every slot is free or held;
the finished tasks are those reported, and the reports count up from one; the tasks in line are
the waiting ones, in request order, and no slot is free while one waits; tasks start in request
order; every task given a slot comes before every task in line; a task was given its slot while
fewer than all slots were held by tasks before it; a finished task holds a result for its own
request that is not a cancellation; and a call's reply is one the backend gives the task's prompt.
The books hold at the start, every move keeps them (`Sched.Inv.moves`), and so every run keeps
them (`Sched.Inv.run`).
-/

namespace DocWeaver

def Phase.admitted (p : Phase) : Bool := p.holdsSlot || p.isDone

namespace Sched

section Books

/-- The books of a run of `reqs` against `b` with `C` slots. -/
structure Inv {σ : Type} (b : Backend σ) (reqs : List GenerationRequest) (C : Nat) (s : Sched σ) :
    Prop where
  length : s.phases.length = reqs.length
  slots : s.free + s.phases.countP Phase.holdsSlot = C
  completed : s.completed = s.phases.countP Phase.isDone
  progress : s.progress = ((List.range s.completed).map fun k => (k + 1, reqs.length)).reverse
  waiting_iff : ∀ j, j ∈ s.waiters ↔ s.phases[j]? = some .waiting
  in_order : s.waiters.Pairwise (· < ·)
  free_empty : 0 < s.free → s.waiters = []
  fresh_after : ∀ (j k : Nat) (p q : Phase), j < k → s.phases[j]? = some p → p.isFresh →
    s.phases[k]? = some q →
    q.isFresh
  admitted_first : ∀ j ∈ s.waiters, ∀ k p, s.phases[k]? = some p → p.admitted → k < j
  room : ∀ j p, s.phases[j]? = some p → p.admitted → (s.phases.take j).countP Phase.holdsSlot < C
  finished : ∀ j r, s.phases[j]? = some (.done r) →
    r.declaration = (reqs.getD j default).declaration ∧ r.isCancelled = false
  replied : ∀ j round tries attempts problem reply,
    s.phases[j]? = some (.calling round tries attempts problem reply) →
    ∃ st, (b.call st (buildPrompt (reqs.getD j default))).1 = reply

variable {σ : Type} {b : Backend σ} {reqs : List GenerationRequest} {C : Nat}

/-! ### Counting over a changed phase -/

theorem countP_take_set_le {l : List Phase} (f : Phase → Bool) {i m : Nat} {q p : Phase}
    (hq : l[i]? = some q) (hle : f p → f q) :
    ((l.set i p).take m).countP f ≤ (l.take m).countP f := by
  rw [List.take_set]
  by_cases him : i < m
  · have hq' : (l.take m)[i]? = some q := by rw [List.getElem?_take, if_pos him, hq]
    have hcount := Sched.countP_set_add f hq' p
    by_cases hfp : f p
    · simp only [hfp, hle hfp, if_true] at hcount
      omega
    · simp only [hfp, Bool.false_eq_true, if_false, Nat.add_zero] at hcount
      split at hcount <;> omega
  · rw [List.set_eq_of_length_le (by simp; omega)]

theorem take_set_of_le {l : List Phase} {i m : Nat} (p : Phase) (h : m ≤ i) :
    (l.set i p).take m = l.take m := by
  rw [List.take_set, List.set_eq_of_length_le (by simp; omega)]

theorem getElem?_set_of_lt {l : List Phase} {i : Nat} (p : Phase) (hi : i < l.length) (j : Nat) :
    (l.set i p)[j]? = if i = j then some p else l[j]? := by
  rw [List.getElem?_set, if_pos hi]

theorem not_fresh_of_first {l : List Phase} {i j : Nat} {q : Phase}
    (h : (l.take i).any Phase.isFresh = false) (hj : j < i) (hq : l[j]? = some q) :
    q.isFresh = false := by
  have hmem : q ∈ l.take i := by
    apply List.mem_of_getElem?
    rw [List.getElem?_take, if_pos hj, hq]
  simpa using (List.any_eq_false.mp h) q hmem

theorem Phase.not_isFresh_of_admitted {p : Phase} (h : p.admitted) : p.isFresh = false := by
  cases p <;> simp_all [Phase.admitted, Phase.holdsSlot, Phase.isDone, Phase.isFresh]

theorem Phase.not_admitted_of_waiting : (Phase.waiting).admitted = false := rfl

/-! ### The start and the moves -/

theorem Inv.start (init : σ) : Inv b reqs C (Sched.start init reqs.length C) where
  length := List.length_replicate
  slots := by simp [Sched.start, List.countP_replicate, Phase.holdsSlot]
  completed := by simp [Sched.start, List.countP_replicate, Phase.isDone]
  progress := rfl
  waiting_iff j := by simp [Sched.start, List.getElem?_replicate]
  in_order := List.Pairwise.nil
  free_empty _ := rfl
  fresh_after j k p q _ _ _ hk := by
    simp only [Sched.start, List.getElem?_replicate] at hk
    split at hk
    · cases hk
      rfl
    · cases hk
  admitted_first j hj := by cases hj
  room j p hj hp := by
    simp only [Sched.start, List.getElem?_replicate] at hj
    split at hj
    · cases hj
      simp [Phase.admitted, Phase.holdsSlot, Phase.isDone] at hp
    · cases hj
  finished j r hj := by
    simp only [Sched.start, List.getElem?_replicate] at hj
    split at hj <;> simp at hj
  replied j round tries attempts problem reply hj := by
    simp only [Sched.start, List.getElem?_replicate] at hj
    split at hj <;> simp at hj

section Moves

variable {s : Sched σ} {i : Nat}

theorem Inv.lt_of_fresh (h : Inv b reqs C s) (hi : s.phases[i]? = some .fresh) {k : Nat} {q : Phase}
    (hk : s.phases[k]? = some q) (hq : q.isFresh = false) : k < i := by
  rcases Nat.lt_trichotomy k i with hlt | rfl | hgt
  · exact hlt
  · rw [hi] at hk
    cases hk
    cases hq
  · exact absurd (h.fresh_after i k _ q hgt hi rfl hk) (by simp [hq])

/-- A task holding a slot that moves to another phase holding one, with a reply the backend gives
its prompt if it calls: the books are kept. -/
theorem Inv.relabel (h : Inv b reqs C s) {p p' : Phase} (hi : s.phases[i]? = some p)
    (hp : p.holdsSlot) (hp' : p'.holdsSlot) (st : σ)
    (hreply : ∀ round tries attempts problem reply,
      p' = .calling round tries attempts problem reply →
      ∃ st, (b.call st (buildPrompt (reqs.getD i default))).1 = reply) :
    Inv b reqs C (({ s with state := st } : Sched σ).setPhase i p') := by
  have hlen : i < s.phases.length := (List.getElem?_eq_some_iff.mp hi).1
  have hnotDone : p.isDone = false := by cases p <;> simp_all [Phase.holdsSlot, Phase.isDone]
  have hnotDone' : p'.isDone = false := by cases p' <;> simp_all [Phase.holdsSlot, Phase.isDone]
  have hget := getElem?_set_of_lt p' hlen
  have hholds := countP_set_add Phase.holdsSlot hi p'
  have hdone := countP_set_add Phase.isDone hi p'
  rw [if_pos hp, if_pos hp'] at hholds
  rw [hnotDone, hnotDone'] at hdone
  simp only [Bool.false_eq_true, if_false, Nat.add_zero] at hdone
  refine ⟨by simp [h.length], ?_, ?_, h.progress, fun j => ?_, h.in_order, h.free_empty,
    fun j k q q' hjk hj hq hk => ?_, fun j hj k q hk hq => ?_, fun j q hj hq => ?_,
    fun j r hj => ?_, fun j round tries attempts problem reply hj => ?_⟩
  · have := h.slots
    simp only [setPhase_free, setPhase_phases]
    omega
  · simp only [setPhase_completed, setPhase_phases, hdone]
    exact h.completed
  · simp only [setPhase_waiters, setPhase_phases, hget, h.waiting_iff]
    split
    · subst j
      rw [hi]
      cases p <;> cases p' <;> simp_all [Phase.holdsSlot]
    · rfl
  · simp only [setPhase_phases, hget] at hj hk
    have hnotFresh : ∀ x : Phase, x.holdsSlot → x.isFresh = false := fun x hx => by
      cases x <;> simp_all [Phase.holdsSlot, Phase.isFresh]
    split at hj
    · cases hj
      exact absurd hq (by simp [hnotFresh _ hp'])
    split at hk
    · rename_i hik
      subst hik
      cases hk
      exact absurd (h.fresh_after j i q p hjk hj hq hi) (by simp [hnotFresh _ hp])
    · exact h.fresh_after j k q q' hjk hj hq hk
  · simp only [setPhase_waiters] at hj
    simp only [setPhase_phases, hget] at hk
    split at hk
    · rename_i hik
      subst hik
      exact h.admitted_first j hj i p hi (by simp [Phase.admitted, hp])
    · exact h.admitted_first j hj k q hk hq
  · simp only [setPhase_phases] at hj ⊢
    -- the holders among the first `j` are the same: task `i` holds a slot before and after
    have htake : ((s.phases.set i p').take j).countP Phase.holdsSlot =
        (s.phases.take j).countP Phase.holdsSlot := by
      refine le_antisymm (countP_take_set_le _ hi fun _ => hp) ?_
      have hi' : (s.phases.set i p')[i]? = some p' := List.getElem?_set_self hlen
      have hself : s.phases.set i p = s.phases := by
        obtain ⟨_, rfl⟩ := List.getElem?_eq_some_iff.mp hi
        exact List.set_getElem_self _
      have := countP_take_set_le (m := j) Phase.holdsSlot hi' (p := p) fun _ => hp'
      rwa [List.set_set, hself] at this
    rw [htake]
    rw [hget] at hj
    split at hj
    · rename_i hij
      subst hij
      exact h.room i p hi (by simp [Phase.admitted, hp])
    · exact h.room j q hj hq
  · simp only [setPhase_phases, hget] at hj
    split at hj
    · cases hj
      simp [Phase.isDone] at hnotDone'
    · exact h.finished j r hj
  · simp only [setPhase_phases, hget] at hj
    split at hj
    · subst j
      exact hreply round tries attempts problem reply (Option.some.inj hj)
    · exact h.replied j round tries attempts problem reply hj

/-- A task not started that takes a free slot and calls the backend keeps the books. -/
theorem Inv.enter (h : Inv b reqs C s) (hi : s.phases[i]? = some .fresh)
    (hfirst : (s.phases.take i).any Phase.isFresh = false) (hfree : 0 < s.free)
    (hw : s.waiters = []) :
    Inv b reqs C (({ s with free := s.free - 1 } : Sched σ).call b
      (buildPrompt (reqs.getD i default)) i 0 1 1 "") := by
  rw [call_eq]
  rcases hcall : b.call s.state (buildPrompt (reqs.getD i default)) with ⟨r, st⟩
  dsimp only
  have hlen : i < s.phases.length := (List.getElem?_eq_some_iff.mp hi).1
  have hget := getElem?_set_of_lt (.calling 0 1 1 "" r) hlen
  have hholds := countP_set_add Phase.holdsSlot hi (.calling 0 1 1 "" r)
  have hdone := countP_set_add Phase.isDone hi (.calling 0 1 1 "" r)
  simp only [Phase.holdsSlot, Phase.isDone, Bool.false_eq_true, if_false, if_true,
    Nat.add_zero] at hholds hdone
  have hbefore : ∀ k q, s.phases[k]? = some q → q.isFresh = false → k < i :=
    fun k q hk hq => h.lt_of_fresh hi hk hq
  refine ⟨by simp [h.length], ?_, ?_, h.progress, fun j => ?_, by simp [hw],
    fun _ => by simp [hw], fun j k q q' hjk hj hq hk => ?_, fun j hj => by simp [hw] at hj,
    fun j q hj hq => ?_, fun j r' hj => ?_, fun j round tries attempts problem reply hj => ?_⟩
  · have := h.slots
    simp only [setPhase_free, setPhase_phases]
    omega
  · simpa [hdone] using h.completed
  · simp only [setPhase_waiters, setPhase_phases, hget, hw, List.not_mem_nil, false_iff]
    split
    · simp
    · rw [← h.waiting_iff, hw]
      simp
  · simp only [setPhase_phases, hget] at hj hk
    split at hj
    · cases hj
      simp [Phase.isFresh] at hq
    split at hk
    · rename_i hik
      subst hik
      exact absurd hq (by simp [not_fresh_of_first hfirst hjk hj])
    · exact h.fresh_after j k q q' hjk hj hq hk
  · simp only [setPhase_phases] at hj ⊢
    rw [hget] at hj
    split at hj
    · rename_i hij
      subst hij
      -- a free slot was left, so fewer than all slots were held
      rw [take_set_of_le _ le_rfl]
      have hsub := (List.take_sublist i s.phases).countP_le (p := Phase.holdsSlot)
      have := h.slots
      omega
    · have hji : j < i := hbefore j q hj (Phase.not_isFresh_of_admitted hq)
      rw [take_set_of_le _ hji.le]
      exact h.room j q hj hq
  · simp only [setPhase_phases, hget] at hj
    split at hj
    · cases hj
    · exact h.finished j r' hj
  · simp only [setPhase_phases, hget] at hj
    split at hj
    · rename_i hij
      subst hij
      cases hj
      exact ⟨s.state, by rw [hcall]⟩
    · exact h.replied j round tries attempts problem reply hj

/-- A task not started that gets in line keeps the books. -/
theorem Inv.queue (h : Inv b reqs C s) (hi : s.phases[i]? = some .fresh)
    (hfirst : (s.phases.take i).any Phase.isFresh = false) (hfree : ¬(0 < s.free ∧ s.waiters = [])) :
    Inv b reqs C (({ s with waiters := s.waiters ++ [i] } : Sched σ).setPhase i .waiting) := by
  have hlen : i < s.phases.length := (List.getElem?_eq_some_iff.mp hi).1
  have hget := getElem?_set_of_lt Phase.waiting hlen
  have hholds := countP_set_add Phase.holdsSlot hi .waiting
  have hdone := countP_set_add Phase.isDone hi .waiting
  simp only [Phase.holdsSlot, Phase.isDone, Bool.false_eq_true, if_false, Nat.add_zero] at hholds hdone
  have hbefore : ∀ k q, s.phases[k]? = some q → q.isFresh = false → k < i :=
    fun k q hk hq => h.lt_of_fresh hi hk hq
  have hwaiter : ∀ w ∈ s.waiters, w < i := fun w hw =>
    hbefore w .waiting ((h.waiting_iff w).mp hw) rfl
  refine ⟨by simp [h.length], ?_, ?_, h.progress, fun j => ?_, ?_, fun hpos => ?_,
    fun j k q q' hjk hj hq hk => ?_, fun w hw k q hk hq => ?_, fun j q hj hq => ?_,
    fun j r hj => ?_, fun j round tries attempts problem reply hj => ?_⟩
  · simpa [hholds] using h.slots
  · simpa [hdone] using h.completed
  · simp only [setPhase_waiters, setPhase_phases, hget, List.mem_append, List.mem_singleton]
    split
    · rename_i hij
      subst hij
      simp
    · rw [h.waiting_iff]
      simp only [or_iff_left_iff_imp]
      intro hji
      exact absurd hji.symm ‹_›
  · simp only [setPhase_waiters]
    refine List.pairwise_append.mpr ⟨h.in_order, List.pairwise_singleton _ _, ?_⟩
    intro w hw x hx
    rw [List.mem_singleton] at hx
    subst hx
    exact hwaiter w hw
  · simp only [setPhase_free] at hpos
    exact absurd ⟨hpos, h.free_empty hpos⟩ hfree
  · simp only [setPhase_phases, hget] at hj hk
    split at hj
    · cases hj
      simp [Phase.isFresh] at hq
    split at hk
    · rename_i hik
      subst hik
      exact absurd hq (by simp [not_fresh_of_first hfirst hjk hj])
    · exact h.fresh_after j k q q' hjk hj hq hk
  · simp only [setPhase_waiters, List.mem_append, List.mem_singleton] at hw
    simp only [setPhase_phases, hget] at hk
    split at hk
    · cases hk
      simp [Phase.admitted, Phase.holdsSlot, Phase.isDone] at hq
    rcases hw with hw | rfl
    · exact h.admitted_first w hw k q hk hq
    · exact hbefore k q hk (Phase.not_isFresh_of_admitted hq)
  · simp only [setPhase_phases] at hj ⊢
    rw [hget] at hj
    split at hj
    · cases hj
      simp [Phase.admitted, Phase.holdsSlot, Phase.isDone] at hq
    · have hji : j < i := hbefore j q hj (Phase.not_isFresh_of_admitted hq)
      rw [take_set_of_le _ hji.le]
      exact h.room j q hj hq
  · simp only [setPhase_phases, hget] at hj
    split at hj
    · cases hj
    · exact h.finished j r hj
  · simp only [setPhase_phases, hget] at hj
    split at hj
    · cases hj
    · exact h.replied j round tries attempts problem reply hj

/-- A task holding a slot that finishes with a result for its own request, not a cancellation,
keeps the books: its slot goes to the first task in line, or is freed. -/
theorem Inv.finish (h : Inv b reqs C s) {p : Phase} (hi : s.phases[i]? = some p) (hp : p.holdsSlot)
    {r : GenerationResult} (hd : r.declaration = (reqs.getD i default).declaration)
    (hc : r.isCancelled = false) : Inv b reqs C (s.finish reqs.length i r) := by
  have hlen : i < s.phases.length := (List.getElem?_eq_some_iff.mp hi).1
  have hnotDone : p.isDone = false := by cases p <;> simp_all [Phase.holdsSlot, Phase.isDone]
  have hnotFresh : p.isFresh = false := by cases p <;> simp_all [Phase.holdsSlot, Phase.isFresh]
  have hnotWaiting : i ∉ s.waiters := fun hw => by
    rw [h.waiting_iff, hi] at hw
    cases hw
    simp [Phase.holdsSlot] at hp
  have hget := getElem?_set_of_lt (.done r) hlen
  have hholds := countP_set_add Phase.holdsSlot hi (.done r)
  have hdone := countP_set_add Phase.isDone hi (.done r)
  rw [if_pos hp] at hholds
  rw [hnotDone] at hdone
  simp only [Phase.holdsSlot, Phase.isDone, Bool.false_eq_true, ↓reduceIte, Nat.add_zero]
    at hholds hdone
  have hprogress : ((List.range (s.completed + 1)).map fun k => (k + 1, reqs.length)).reverse =
      (s.completed + 1, reqs.length) :: s.progress := by
    rw [h.progress, List.range_succ]
    simp
  -- the holders among the first `m` do not grow when task `i` is done
  have hroom : ∀ m, ((s.phases.set i (.done r)).take m).countP Phase.holdsSlot ≤
      (s.phases.take m).countP Phase.holdsSlot := fun m =>
    countP_take_set_le _ hi fun h' => by simp [Phase.holdsSlot] at h'
  rw [finish_eq]
  cases hw : s.waiters with
  | nil =>
    dsimp only
    refine ⟨by simp [h.length], ?_, ?_, hprogress.symm, fun j => ?_, hw ▸ List.Pairwise.nil,
      fun _ => hw, fun j k q q' hjk hj hq hk => ?_, fun j hj => absurd hj (by simp [hw]),
      fun j q hj hq => ?_, fun j r' hj => ?_, fun j round tries attempts problem reply hj => ?_⟩
    · have := h.slots
      simp only [setPhase_phases]
      omega
    · have := h.completed
      simp only [setPhase_phases]
      omega
    · simp only [setPhase_waiters, setPhase_phases, hget, hw, List.not_mem_nil, false_iff]
      split
      · simp
      · rw [← h.waiting_iff, hw]
        simp
    · simp only [setPhase_phases, hget] at hj hk
      split at hj
      · cases hj
        simp [Phase.isFresh] at hq
      split at hk
      · rename_i hik
        subst hik
        cases hk
        exact absurd (h.fresh_after j i q p hjk hj hq hi) (by simp [hnotFresh])
      · exact h.fresh_after j k q q' hjk hj hq hk
    · simp only [setPhase_phases] at hj ⊢
      refine lt_of_le_of_lt (hroom j) ?_
      rw [hget] at hj
      split at hj
      · rename_i hij
        subst hij
        exact h.room i p hi (by simp [Phase.admitted, hp])
      · exact h.room j q hj hq
    · simp only [setPhase_phases, hget] at hj
      split at hj
      · rename_i hij
        subst hij
        cases hj
        exact ⟨hd, hc⟩
      · exact h.finished j r' hj
    · simp only [setPhase_phases, hget] at hj
      split at hj
      · cases hj
      · exact h.replied j round tries attempts problem reply hj
  | cons j rest =>
    dsimp only
    -- the slot goes to `j`, the first task in line: it was waiting, and no slot was free
    have hj : s.phases[j]? = some .waiting := (h.waiting_iff j).mp (by simp [hw])
    have hji : i ≠ j := fun e => hnotWaiting (by simp [e, hw])
    have hfree : s.free = 0 := by
      by_contra hpos
      have := h.free_empty (Nat.pos_of_ne_zero hpos)
      rw [hw] at this
      cases this
    have hsorted : (j :: rest).Pairwise (· < ·) := hw ▸ h.in_order
    have hjlen : j < (s.phases.set i (.done r)).length := by
      simpa using (List.getElem?_eq_some_iff.mp hj).1
    have hj' : (s.phases.set i (.done r))[j]? = some .waiting := by rw [hget, if_neg hji, hj]
    have hget' := getElem?_set_of_lt .woken hjlen
    have hholds' := countP_set_add Phase.holdsSlot hj' .woken
    have hdone' := countP_set_add Phase.isDone hj' .woken
    simp only [Phase.holdsSlot, Phase.isDone, Bool.false_eq_true, ↓reduceIte, Nat.add_zero]
      at hholds' hdone'
    have hnotMem : j ∉ rest := fun hm => by
      have := List.rel_of_pairwise_cons hsorted hm
      omega
    refine ⟨by simp [h.length], ?_, ?_, hprogress.symm, fun k => ?_, hsorted.of_cons,
      fun hpos => absurd hpos (by simp [hfree]), fun k m q q' hkm hk hq hm => ?_,
      fun w hw' k q hk hq => ?_, fun m q hm hq => ?_, fun k r' hk => ?_,
      fun k round tries attempts problem reply hk => ?_⟩
    · have := h.slots
      simp only [setPhase_phases, setPhase_free]
      omega
    · have := h.completed
      simp only [setPhase_phases]
      omega
    · simp only [setPhase_phases, hget', hget]
      by_cases hjk : j = k
      · subst hjk
        simp [hnotMem]
      rw [if_neg hjk]
      by_cases hik : i = k
      · subst hik
        rw [if_pos rfl, iff_false_right (by simp)]
        exact fun hm => hnotWaiting (by simp [hw, hm])
      · rw [if_neg hik, ← h.waiting_iff, hw, List.mem_cons]
        simp [Ne.symm hjk]
    · simp only [setPhase_phases, hget', hget] at hk hm
      by_cases hjk : j = k
      · rw [if_pos hjk] at hk
        cases hk
        simp [Phase.isFresh] at hq
      rw [if_neg hjk] at hk
      by_cases hik : i = k
      · rw [if_pos hik] at hk
        cases hk
        simp [Phase.isFresh] at hq
      rw [if_neg hik] at hk
      by_cases hjm : j = m
      · subst hjm
        exact absurd (h.fresh_after k j q .waiting hkm hk hq hj) (by simp [Phase.isFresh])
      rw [if_neg hjm] at hm
      by_cases him : i = m
      · subst him
        exact absurd (h.fresh_after k i q p hkm hk hq hi) (by simp [hnotFresh])
      rw [if_neg him] at hm
      exact h.fresh_after k m q q' hkm hk hq hm
    · have hwait : w ∈ s.waiters := by simp [hw, hw']
      simp only [setPhase_phases, hget', hget] at hk
      by_cases hjk : j = k
      · subst hjk
        exact List.rel_of_pairwise_cons hsorted hw'
      rw [if_neg hjk] at hk
      by_cases hik : i = k
      · subst hik
        exact h.admitted_first w hwait i p hi (by simp [Phase.admitted, hp])
      rw [if_neg hik] at hk
      exact h.admitted_first w hwait k q hk hq
    · simp only [setPhase_phases] at hm ⊢
      by_cases hjm : j = m
      · subst hjm
        -- every slot is held, one of them by `j`, so fewer are held before it
        have hall : ((s.phases.set i (.done r)).set j .woken).countP Phase.holdsSlot = C := by
          have := h.slots
          omega
        rw [← hall]
        exact countP_take_lt _ (List.getElem?_set_self hjlen) rfl
      rw [hget', if_neg hjm] at hm
      -- an admitted task comes before `j`, which was in line
      have hadm : ∃ q₀, s.phases[m]? = some q₀ ∧ q₀.admitted := by
        rw [hget] at hm
        split at hm
        · rename_i him
          subst him
          exact ⟨p, hi, by simp [Phase.admitted, hp]⟩
        · exact ⟨q, hm, hq⟩
      obtain ⟨q₀, hm₀, hq₀⟩ := hadm
      have hmj : m < j := h.admitted_first j (by simp [hw]) m q₀ hm₀ hq₀
      rw [take_set_of_le _ hmj.le]
      exact lt_of_le_of_lt (hroom m) (h.room m q₀ hm₀ hq₀)
    · simp only [setPhase_phases, hget', hget] at hk
      by_cases hjk : j = k
      · rw [if_pos hjk] at hk
        cases hk
      rw [if_neg hjk] at hk
      split at hk
      · rename_i hik
        subst hik
        cases hk
        exact ⟨hd, hc⟩
      · exact h.finished k r' hk
    · simp only [setPhase_phases, hget', hget] at hk
      by_cases hjk : j = k
      · rw [if_pos hjk] at hk
        cases hk
      rw [if_neg hjk] at hk
      split at hk
      · cases hk
      · exact h.replied k round tries attempts problem reply hk

theorem Inv.moves (h : Inv b reqs C s) {s' : Sched σ} (hm : Sched.Moves b reqs i s s') :
    Inv b reqs C s' := by
  cases hm with
  | stay => exact h
  | enter hi hfirst hfree hw => exact h.enter hi hfirst hfree hw
  | queue hi hfirst hfree => exact h.queue hi hfirst hfree
  | call round tries attempts problem hi hp =>
    rw [call_eq]
    exact h.relabel hi hp rfl _ fun _ _ _ _ reply heq => by
      cases heq
      exact ⟨s.state, rfl⟩
  | backoff round tries attempts problem hi hp =>
    exact h.relabel hi hp rfl s.state fun _ _ _ _ _ heq => by cases heq
  | finish hi hp hd hc => exact h.finish hi hp hd hc

end Moves

variable {M : Nat}

theorem Inv.step {s : Sched σ} (h : Inv b reqs C s) (i : Nat) : Inv b reqs C (s.step b M reqs i) :=
  h.moves (moves_step s)

theorem Inv.run {s : Sched σ} (h : Inv b reqs C s) (picks : List Nat) :
    Inv b reqs C (s.run b M reqs picks) := by
  induction picks generalizing s with
  | nil => exact h
  | cons i picks ih => exact ih (h.step i)

end Books

end Sched

end DocWeaver
