import DocWeaver.Proofs.Generate.Books

/-!
What `generateAll` gives back for each request.

The results are read off the tasks at the deadline, where the books (`Sched.Inv`) hold: the
result at a request's position is its task's own result, for the request's declaration and not a
cancellation, or a cancellation of the request when the task did not finish; and progress was
reported once per finished task.
-/

namespace DocWeaver

variable {σ : Type} (b : Backend σ) (g : GenerationConfig) (reqs : List GenerationRequest)
  (init : σ) (picks : List Nat)

theorem generateRun_inv :
    Sched.Inv b reqs g.maxConcurrency.toNat (generateRun b g reqs init picks) :=
  (Sched.Inv.start init).run picks

@[simp] theorem generateAll_results_length :
    (generateAll b g reqs init picks).results.length = reqs.length := by
  simp [generateAll]

theorem generateAll_result_cases {i : Nat} (hi : i < reqs.length) :
    (∃ res, (generateRun b g reqs init picks).phases[i]? = some (.done res) ∧
        (generateAll b g reqs init picks).results[i]? = some res ∧
        res.declaration = reqs[i].declaration ∧ res.isCancelled = false) ∨
      ((∀ res, (generateRun b g reqs init picks).phases[i]? ≠ some (.done res)) ∧
        (generateAll b g reqs init picks).results[i]? =
          some (.failure reqs[i].declaration .cancelled 0 "run aborted before completion")) := by
  by_cases hdone : ∃ res, (generateRun b g reqs init picks).phases[i]? = some (.done res)
  · obtain ⟨res, hp⟩ := hdone
    have hfin := (generateRun_inv b g reqs init picks).finished i res hp
    rw [List.getD_eq_getElem _ _ hi] at hfin
    refine Or.inl ⟨res, hp, ?_, hfin⟩
    simp [generateAll, hi, hp]
  · refine Or.inr ⟨fun res hp => hdone ⟨res, hp⟩, ?_⟩
    simp only [generateAll, List.getElem?_map, List.getElem?_zipIdx, List.getElem?_eq_getElem hi,
      Option.map_some, Nat.zero_add]
    split
    · rename_i res hp
      exact absurd ⟨res, hp⟩ hdone
    · rfl

theorem generateAll_results_declaration :
    (generateAll b g reqs init picks).results.map GenerationResult.declaration =
      reqs.map GenerationRequest.declaration := by
  apply List.ext_getElem?
  intro i
  by_cases hi : i < reqs.length
  · rcases generateAll_result_cases b g reqs init picks hi with ⟨res, -, hr, hd, -⟩ | ⟨-, hr⟩
    · rw [List.getElem?_map, List.getElem?_map, hr, List.getElem?_eq_getElem hi]
      simp [hd]
    · rw [List.getElem?_map, List.getElem?_map, hr, List.getElem?_eq_getElem hi]
      rfl
  · have hout : reqs.length ≤ i := by omega
    simp [hout]

theorem generateAll_results_finished :
    (generateAll b g reqs init picks).results.map (fun r => !r.isCancelled) =
      (generateRun b g reqs init picks).phases.map Phase.isDone := by
  have hlen := (generateRun_inv b g reqs init picks).length
  apply List.ext_getElem?
  intro i
  by_cases hi : i < reqs.length
  · rcases generateAll_result_cases b g reqs init picks hi with ⟨res, hp, hr, -, hc⟩ | ⟨hnot, hr⟩
    · simp [hr, hp, hc, Phase.isDone]
    · obtain ⟨p, hp⟩ : ∃ p, (generateRun b g reqs init picks).phases[i]? = some p :=
        ⟨_, List.getElem?_eq_getElem (by omega)⟩
      have hnotDone : p.isDone = false := by
        cases p <;> simp_all [Phase.isDone]
      simp [hr, hp, hnotDone, GenerationResult.isCancelled]
  · have hout : reqs.length ≤ i := by omega
    simp [hout, hlen]

theorem generateAll_progress :
    (generateAll b g reqs init picks).progress =
      (List.range ((generateAll b g reqs init picks).results.countP fun r => !r.isCancelled)).map
        (fun k => (k + 1, reqs.length)) := by
  have hinv := generateRun_inv b g reqs init picks
  have hcount : (generateAll b g reqs init picks).results.countP (fun r => !r.isCancelled) =
      (generateRun b g reqs init picks).phases.countP Phase.isDone := by
    have := congrArg (List.countP id) (generateAll_results_finished b g reqs init picks)
    simpa [List.countP_map] using this
  rw [hcount, ← hinv.completed]
  show (generateRun b g reqs init picks).progress.reverse = _
  rw [hinv.progress, List.reverse_reverse]

end DocWeaver
