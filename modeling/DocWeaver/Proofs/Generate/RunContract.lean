import DocWeaver.Proofs.Generate.Results

/-!
What a run of requests promises, whatever the backend does and however its tasks interleave.

For every order of steps and every deadline, `generateAll` gives one result per request, in
request order, each its task's own result or a cancellation; progress is reported once per
finished task; and at no moment do more tasks hold a slot than there are slots. When the deadline
falls after all the work that can be done (the run has settled: every task is done, in line, or
inside a call that never returns), a request is cancelled exactly when its own task hangs or at
least as many tasks before it hang as there are slots; so with a slot at all and no call that
hangs, nothing is cancelled (`generateAll_contract`).
-/

namespace DocWeaver

namespace Phase

theorem holdsSlot_eq_isHung {p : Phase} (h : p.isSettled) : p.holdsSlot = p.isHung := by
  rcases p with _ | _ | _ | ⟨_, _, _, _, _ | _ | _ | _ | _⟩ | _ | _ <;>
    simp_all [isSettled, holdsSlot, isHung]

theorem countP_holdsSlot_of_settled {l : List Phase} (h : ∀ p ∈ l, p.isSettled) :
    l.countP holdsSlot = l.countP isHung :=
  List.countP_congr fun p hp => by rw [holdsSlot_eq_isHung (h p hp)]

end Phase

namespace Sched

variable {σ : Type} {b : Backend σ} {reqs : List GenerationRequest} {C : Nat} {s : Sched σ}

theorem Inv.hung_before_waiting (h : Inv b reqs C s) (hset : ∀ p ∈ s.phases, p.isSettled) {i : Nat}
    (hi : s.phases[i]? = some .waiting) : C ≤ (s.phases.take i).countP Phase.isHung := by
  have hwait : i ∈ s.waiters := (h.waiting_iff i).mpr hi
  have hfree : s.free = 0 := by
    by_contra hpos
    rw [h.free_empty (Nat.pos_of_ne_zero hpos)] at hwait
    cases hwait
  have hafter : (s.phases.drop i).countP Phase.isHung = 0 := by
    rw [List.countP_eq_zero]
    intro p hp hhung
    obtain ⟨k, hk⟩ := List.mem_iff_getElem?.mp hp
    rw [List.getElem?_drop] at hk
    have := h.admitted_first i hwait (i + k) p hk
      (by simp [Phase.admitted, Phase.holdsSlot_of_isHung hhung])
    omega
  have hall := h.slots
  rw [Phase.countP_holdsSlot_of_settled hset, hfree, ← List.take_append_drop i s.phases,
    List.countP_append, hafter] at hall
  omega

theorem Inv.hung_before_done (h : Inv b reqs C s) (hset : ∀ p ∈ s.phases, p.isSettled) {i : Nat}
    {res : GenerationResult} (hi : s.phases[i]? = some (.done res)) :
    (s.phases.take i).countP Phase.isHung < C := by
  have := h.room i _ hi rfl
  rwa [Phase.countP_holdsSlot_of_settled fun p hp => hset p (List.mem_of_mem_take hp)] at this

end Sched

variable {σ : Type} (b : Backend σ) (g : GenerationConfig) (reqs : List GenerationRequest)
  (init : σ) (picks : List Nat)

theorem generateRun_holders_le :
    (generateRun b g reqs init picks).phases.countP Phase.holdsSlot ≤ g.maxConcurrency.toNat := by
  have := (generateRun_inv b g reqs init picks).slots
  omega

theorem generateAll_zip_results :
    ∀ x ∈ reqs.zip (generateAll b g reqs init picks).results,
      x.2 = .failure x.1.declaration .cancelled 0 "run aborted before completion" ∨
        x.2.declaration = x.1.declaration ∧ x.2.isCancelled = false := by
  intro x hx
  obtain ⟨i, hxi⟩ := List.mem_iff_getElem?.mp hx
  obtain ⟨hreq, hres⟩ := List.getElem?_zip_eq_some.mp hxi
  have hi : i < reqs.length := (List.getElem?_eq_some_iff.mp hreq).1
  have hx1 : x.1 = reqs[i] := (Option.some.inj ((List.getElem?_eq_getElem hi).symm.trans hreq)).symm
  rcases generateAll_result_cases b g reqs init picks hi with ⟨res, -, hr, hd, hc⟩ | ⟨-, hr⟩
  · have hx2 : x.2 = res := Option.some.inj (hres.symm.trans hr)
    rw [hx1, hx2]
    exact Or.inr ⟨hd, hc⟩
  · left
    rw [hx1]
    exact Option.some.inj (hres.symm.trans hr)

section Settled

variable (hset : ∀ p ∈ (generateRun b g reqs init picks).phases, p.isSettled)
include hset

theorem generateAll_cancelled_iff {i : Nat} {r : GenerationResult}
    (hr : (generateAll b g reqs init picks).results[i]? = some r) :
    r.isCancelled ↔ (generateRun b g reqs init picks).phases[i]?.any Phase.isHung ∨
      g.maxConcurrency.toNat ≤
        ((generateRun b g reqs init picks).phases.take i).countP Phase.isHung := by
  have hinv := generateRun_inv b g reqs init picks
  have hi : i < reqs.length := by simpa using (List.getElem?_eq_some_iff.mp hr).1
  rcases generateAll_result_cases b g reqs init picks hi with ⟨res, hp, hres, -, hc⟩ | ⟨hnot, hres⟩
  · -- a finished task: not cancelled, and fewer hanging tasks before it than slots
    cases hres.symm.trans hr
    have hlt := hinv.hung_before_done hset hp
    simp only [hc, hp, Option.any_some, Phase.isHung, Bool.false_eq_true, false_or, false_iff,
      not_le]
    exact hlt
  · cases hres.symm.trans hr
    obtain ⟨p, hp⟩ : ∃ p, (generateRun b g reqs init picks).phases[i]? = some p :=
      ⟨_, List.getElem?_eq_getElem (by rw [hinv.length]; exact hi)⟩
    have hsettled := hset p (List.mem_of_getElem? hp)
    simp only [GenerationResult.isCancelled, hp, Option.any_some, true_iff]
    rcases p with _ | _ | _ | ⟨_, _, _, _, _ | _ | _ | _ | _⟩ | _ | res <;>
      simp only [Phase.isSettled, Bool.false_eq_true] at hsettled
    · exact Or.inr (hinv.hung_before_waiting hset hp)
    · exact Or.inl rfl
    · exact absurd hp (hnot res)

theorem generateAll_not_cancelled (hC : 1 ≤ g.maxConcurrency)
    (hnohang : ∀ st prompt, (b.call st prompt).1 ≠ .hang) :
    ∀ r ∈ (generateAll b g reqs init picks).results, r.isCancelled = false := by
  intro r hr
  obtain ⟨i, hri⟩ := List.mem_iff_getElem?.mp hr
  have hinv := generateRun_inv b g reqs init picks
  -- no task hangs: every reply a task holds is one the backend gave
  have hnone : ∀ p ∈ (generateRun b g reqs init picks).phases, p.isHung = false := by
    intro p hp
    obtain ⟨j, hj⟩ := List.mem_iff_getElem?.mp hp
    rcases p with _ | _ | _ | ⟨round, tries, attempts, problem, reply⟩ | _ | _ <;> try rfl
    obtain ⟨st, hst⟩ := hinv.replied j round tries attempts problem reply hj
    cases reply <;> first | rfl | exact absurd hst (hnohang st _)
  have hcount : ((generateRun b g reqs init picks).phases.take i).countP Phase.isHung = 0 :=
    List.countP_eq_zero.mpr fun p hp => by simp [hnone p (List.mem_of_mem_take hp)]
  have hhung : (generateRun b g reqs init picks).phases[i]?.any Phase.isHung = false := by
    cases hpi : (generateRun b g reqs init picks).phases[i]? with
    | none => rfl
    | some p => simpa using hnone p (List.mem_of_getElem? hpi)
  have hiff := generateAll_cancelled_iff b g reqs init picks hset hri
  rw [hhung, hcount] at hiff
  cases hc : r.isCancelled with
  | false => rfl
  | true =>
    have := (hiff.mp hc).resolve_left Bool.false_ne_true
    omega

end Settled

/-- What `generateAll` promises for every list of requests, every configuration, every backend,
every order of steps and every deadline: one result per request, the result at each position for
that position's request, its task's own result (not a cancellation) or a cancellation; progress
reported once per result that is not a cancellation, counting up from one, out of the number of
requests; at every moment of the run, no more tasks holding a slot than there are slots. And
when the deadline falls after all the work that can be done: with a slot at all and no call that
hangs, no cancellation; and a request cancelled exactly when its own task hangs or at least as
many tasks before it hang as there are slots. -/
theorem generateAll_contract :
    (generateAll b g reqs init picks).results.length = reqs.length ∧
    (∀ x ∈ reqs.zip (generateAll b g reqs init picks).results,
      x.2 = .failure x.1.declaration .cancelled 0 "run aborted before completion" ∨
        x.2.declaration = x.1.declaration ∧ x.2.isCancelled = false) ∧
    (generateAll b g reqs init picks).progress =
      (List.range ((generateAll b g reqs init picks).results.countP fun r => !r.isCancelled)).map
        (fun k => (k + 1, reqs.length)) ∧
    (∀ k, (generateRun b g reqs init (picks.take k)).phases.countP Phase.holdsSlot ≤
      g.maxConcurrency.toNat) ∧
    ((∀ p ∈ (generateRun b g reqs init picks).phases, p.isSettled) →
      (1 ≤ g.maxConcurrency → (∀ st prompt, (b.call st prompt).1 ≠ .hang) →
        ∀ r ∈ (generateAll b g reqs init picks).results, r.isCancelled = false) ∧
      ∀ i r, (generateAll b g reqs init picks).results[i]? = some r →
        (r.isCancelled ↔ (generateRun b g reqs init picks).phases[i]?.any Phase.isHung ∨
          g.maxConcurrency.toNat ≤
            ((generateRun b g reqs init picks).phases.take i).countP Phase.isHung)) :=
  ⟨generateAll_results_length b g reqs init picks, generateAll_zip_results b g reqs init picks,
    generateAll_progress b g reqs init picks,
    fun k => generateRun_holders_le b g reqs init (picks.take k),
    fun hset => ⟨generateAll_not_cancelled b g reqs init picks hset,
      fun _ _ hr => generateAll_cancelled_iff b g reqs init picks hset hr⟩⟩

/-- With one slot: a backend that fails every call leaves nothing cancelled once the run has
settled; and when the first call hangs, the request behind it waits for the slot to the deadline
and is cancelled with it. -/
theorem one_slot_cancels_only_behind_a_hang :
    let down : Backend Nat := ⟨fun n _ => (.failed "down", n + 1)⟩
    let stuck : Backend Nat := ⟨fun n _ => (if n = 0 then .hang else .failed "down", n + 1)⟩
    let g : GenerationConfig := { maxConcurrency := 1 }
    ((∀ p ∈ (generateRun down g [default, default] 0 [0, 1, 0, 1, 1]).phases, p.isSettled) ∧
      1 ≤ g.maxConcurrency ∧ (∀ st prompt, (down.call st prompt).1 ≠ .hang) ∧
      ∀ r ∈ (generateAll down g [default, default] 0 [0, 1, 0, 1, 1]).results,
        r.isCancelled = false) ∧
    ((∀ p ∈ (generateRun stuck g [default, default] 0 [0, 1]).phases, p.isSettled) ∧
      ∀ r ∈ (generateAll stuck g [default, default] 0 [0, 1]).results, r.isCancelled = true) := by
  intro down stuck g
  have hdown : ∀ p ∈ (generateRun down g [default, default] 0 [0, 1, 0, 1, 1]).phases,
      p.isSettled := by decide
  have hstuck : ∀ p ∈ (generateRun stuck g [default, default] 0 [0, 1]).phases, p.isSettled := by
    decide
  have hnohang : ∀ st prompt, (down.call st prompt).1 ≠ .hang := fun _ _ => nofun
  refine ⟨⟨hdown, by decide, hnohang,
    ((generateAll_contract down g _ 0 _).2.2.2.2 hdown).1 (by decide) hnohang⟩, hstuck, ?_⟩
  intro r hr
  obtain ⟨i, hi⟩ := List.mem_iff_getElem?.mp hr
  have hlt : i < 2 := by simpa using (List.getElem?_eq_some_iff.mp hi).1
  rw [((generateAll_contract stuck g _ 0 _).2.2.2.2 hstuck).2 i r hi]
  interval_cases i <;> decide

end DocWeaver
