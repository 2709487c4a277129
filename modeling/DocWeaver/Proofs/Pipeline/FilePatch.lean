import DocWeaver.Pipeline.Run
import DocWeaver.Proofs.Generate.Results

/-!
Each file is patched from the results of its own requests, as a whole or not at all.

The requests of all files go out as one batch, each tagged with the index of its file, and the
results come back one per request in request order (`generateAll_results_declaration`). Handing
the results back by the tags gives each file exactly its own requests, which are its verdicts
other than skip in declaration order, each with the result for its declaration; the other files'
results play no part (`attachResults_requestsOf`). A file with a cancelled request keeps its
text; any other file gets all its generated texts in one patch, and is patched, unchanged or
failed as that patch changes its text, leaves it, or conflicts (`patchFile_allOrNothing`).
-/

namespace DocWeaver

theorem filter_tag_flatMap_zipIdx {α β : Type} (f : α → List β) (l : List α) (n i : Nat)
    (h₁ : n ≤ i) (h₂ : i < n + l.length) :
    ((l.zipIdx n).flatMap (fun p => (f p.1).map fun b => (p.2, b))).filter (·.1 == i) =
      (f l[i - n]).map fun b => (i, b) := by
  induction l generalizing n with
  | nil =>
    simp at h₂
    omega
  | cons a l ih =>
    rw [List.zipIdx_cons, List.flatMap_cons, List.filter_append]
    by_cases hi : i = n
    · -- the items of the head are those tagged `i`; the rest carry larger tags
      subst hi
      have hrest : ((l.zipIdx (i + 1)).flatMap (fun p => (f p.1).map fun b => (p.2, b))).filter
          (·.1 == i) = [] := by
        rw [List.filter_eq_nil_iff]
        intro x hx
        obtain ⟨p, hp, hx⟩ := List.mem_flatMap.mp hx
        obtain ⟨b, -, rfl⟩ := List.mem_map.mp hx
        have := (List.mem_zipIdx hp).1
        simp only [beq_iff_eq]
        omega
      rw [hrest, List.append_nil, List.filter_eq_self.mpr (by simp)]
      simp
    · have hhead : ((f a).map fun b => (n, b)).filter (·.1 == i) = [] := by
        rw [List.filter_eq_nil_iff]
        intro x hx
        obtain ⟨b, -, rfl⟩ := List.mem_map.mp hx
        simp only [beq_iff_eq]
        omega
      have hlen : i < n + 1 + l.length := by simp at h₂; omega
      rw [hhead, List.nil_append, ih (n + 1) (by omega) hlen]
      congr 2
      have hne : i - n ≠ 0 := by omega
      simp only [List.getElem_cons, hne, dite_false, Nat.sub_sub]

theorem requestsOf_filter_tag (g : GenerationConfig) (work : List FileWork) (i : Nat)
    (hi : i < work.length) :
    ((requestsOf g work).filter (·.1 == i)).map (·.2.verdict) =
      work[i].verdicts.filter (·.verdict != .skip) := by
  let asked (item : FileWork) : List GenerationRequest :=
    (item.verdicts.filter (·.verdict != .skip)).map fun v =>
      ⟨v, Extract.contextInLines (Text.splitLines item.source.text) v.declaration g.contextLines
        g.contextChars⟩
  have hreq : requestsOf g work =
      (work.zipIdx 0).flatMap fun p => (asked p.1).map fun b => (p.2, b) := by
    simp only [requestsOf, asked, List.map_map]
    rfl
  rw [hreq, filter_tag_flatMap_zipIdx asked work 0 i (Nat.zero_le i) (by omega)]
  simp [asked, List.map_map, Function.comp_def]

@[simp] theorem attachResults_length (work : List FileWork) (owners : List Nat)
    (results : List GenerationResult) : (attachResults work owners results).length = work.length := by
  simp [attachResults]

theorem attachResults_getElem? (work : List FileWork) (owners : List Nat)
    (results : List GenerationResult) (i : Nat) (hi : i < work.length) :
    (attachResults work owners results)[i]? =
      some { work[i] with
        results := (work[i].verdicts.filter (·.verdict != .skip)).zip
          (((owners.zip results).filter (·.1 == i)).map (·.2)) } := by
  simp [attachResults, hi]

theorem filter_tag_zip_map_fst {β : Type} {reqs : List (Nat × GenerationRequest)} {rs : List β}
    (hrs : reqs.length = rs.length) (i : Nat) :
    ((reqs.zip rs).filter (·.1.1 == i)).map (·.1) = reqs.filter (·.1 == i) := by
  have hfst : ((reqs.zip rs).map Prod.fst).filter (·.1 == i) =
      ((reqs.zip rs).filter ((·.1 == i) ∘ Prod.fst)).map Prod.fst :=
    List.filter_map
  rw [List.map_fst_zip (Nat.le_of_eq hrs)] at hfst
  exact hfst.symm

theorem requestsOf_zip_filter_tag {β : Type} (g : GenerationConfig) (work : List FileWork)
    {rs : List β} (hrs : (requestsOf g work).length = rs.length) (i : Nat) (hi : i < work.length) :
    (((requestsOf g work).zip rs).filter (·.1.1 == i)).map (·.1.2.verdict) =
      work[i].verdicts.filter (·.verdict != .skip) := by
  rw [← requestsOf_filter_tag g work i hi, ← filter_tag_zip_map_fst hrs, List.map_map]
  rfl

theorem attachResults_requestsOf (g : GenerationConfig) (work : List FileWork)
    (rs : List GenerationResult) (hrs : rs.length = (requestsOf g work).length) (i : Nat)
    (hi : i < work.length) :
    (attachResults work ((requestsOf g work).map (·.1)) rs)[i]? =
      some { work[i] with
        results := (((requestsOf g work).zip rs).filter (·.1.1 == i)).map
          fun x => (x.1.2.verdict, x.2) } := by
  rw [attachResults_getElem? _ _ _ i hi]
  let mine := ((requestsOf g work).zip rs).filter (·.1.1 == i)
  have htags : (((requestsOf g work).map (·.1)).zip rs).filter (·.1 == i) =
      mine.map (Prod.map (·.1) id) := by
    rw [List.zip_map_left, List.filter_map]
    rfl
  have hasked : work[i].verdicts.filter (·.verdict != .skip) = mine.map (·.1.2.verdict) :=
    (requestsOf_zip_filter_tag g work hrs.symm i hi).symm
  rw [htags, hasked, List.map_map, List.zip_map']
  rfl

theorem generateAll_zip_declaration {ω : Type} (b : Backend ω) (g : GenerationConfig)
    (reqs : List (Nat × GenerationRequest)) (s : ω) (picks : List Nat) :
    ∀ x ∈ reqs.zip (generateAll b g (reqs.map (·.2)) s picks).results,
      x.2.declaration = x.1.2.declaration := by
  intro x hx
  obtain ⟨k, hk, rfl⟩ := List.getElem_of_mem hx
  have hdecl := congrArg (·[k]?) (generateAll_results_declaration b g (reqs.map (·.2)) s picks)
  simp only [List.length_zip] at hk
  simp only [List.getElem?_map, List.getElem_zip] at hdecl ⊢
  have hk₁ : k < reqs.length := by simp at hk; omega
  have hk₂ : k < (generateAll b g (reqs.map (·.2)) s picks).results.length := by simp; omega
  rw [List.getElem?_eq_getElem hk₂, List.getElem?_eq_getElem hk₁] at hdecl
  simpa using hdecl

theorem patchFile_of_cancelled {item : FileWork} (h : item.cancelled = true) :
    patchFile item =
      { relativePath := item.source.relativePath
        outcome := .unchanged
        reason := some "run aborted before generation finished" } := by
  simp [patchFile, h]

def FileWork.AllOrNothing (item : FileWork) (r : FileResult) : Prop :=
  r.relativePath = item.source.relativePath ∧
    (item.cancelled = true → r.outcome = .unchanged ∧ r.newText = none ∧ r.diff = none) ∧
    (item.cancelled = false →
      let applied := applyPatch item.source (buildPatch item.source item.successes)
      (r.outcome = .patched ∧ ∃ f, applied = .ok (.changed f) ∧ f.text ≠ item.source.text ∧
          r.newText = some f.text ∧ r.diff = some (diffFiles item.source f) ∧
          r.documented = item.successes.map (·.1.declaration.qualifiedName)) ∨
        (r.outcome = .unchanged ∧ r.newText = none ∧ r.diff = none ∧ (∃ a, applied = .ok a) ∧
          ∀ f, applied = .ok (.changed f) → f.text = item.source.text) ∨
        (r.outcome = .failed ∧ r.newText = none ∧ r.diff = none ∧
          ∃ e, applied = .error e ∧ r.reason = some ("patch conflict: " ++ e)))

theorem patchFile_relativePath (item : FileWork) :
    (patchFile item).relativePath = item.source.relativePath := by
  unfold patchFile
  split
  · rfl
  · dsimp only
    split
    · rfl
    · rfl
    · rfl
    · split <;> rfl

theorem patchFile_allOrNothing (item : FileWork) : item.AllOrNothing (patchFile item) := by
  refine ⟨patchFile_relativePath item, fun h => ?_, fun h => ?_⟩
  · rw [patchFile_of_cancelled h]
    exact ⟨rfl, rfl, rfl⟩
  · intro applied
    unfold patchFile
    simp only [h, Bool.false_eq_true, if_false]
    cases happ : applied with
    | error e =>
      simp only [applied] at happ
      simp [happ]
    | ok a =>
      simp only [applied] at happ
      cases a with
      | unchanged f => simp [happ]
      | undecodable e => simp [happ]
      | changed f =>
        by_cases heq : f.text = item.source.text
        · simp [happ, heq]
        · simp [happ, heq]

/-- Files are patched all or nothing, each from its own requests' results. In one generation
pass over the files worked on, whatever the order of the run's steps and its deadline, the
requests of file `i` are its verdicts other than skip, in declaration order, each answered for
its own declaration; the file's result is that of the file with just these results, so no other
file's results play a part; and it is patched all or nothing from them. -/
theorem generateFor_patches_each_file_alone {ω : Type} (backend : Backend ω)
    (g : GenerationConfig) (schedule : List GenerationRequest → ω → List Nat)
    (work : List FileWork) (s : ω) (i : Nat) (hi : i < work.length) :
    let reqs := requestsOf g work
    let mine := (reqs.zip (generateFor backend g schedule work s).2.results).filter (·.1.1 == i)
    let item : FileWork := { work[i] with results := mine.map fun x => (x.1.2.verdict, x.2) }
    mine.map (·.1.2.verdict) = work[i].verdicts.filter (·.verdict != .skip) ∧
      (∀ x ∈ mine, x.2.declaration = x.1.2.declaration) ∧
      ((generateFor backend g schedule work s).1.map patchFile)[i]? = some (patchFile item) ∧
      item.AllOrNothing (patchFile item) := by
  intro reqs mine item
  have hlen : reqs.length = (generateFor backend g schedule work s).2.results.length := by
    simp [reqs, generateFor]
  refine ⟨?_, ?_, ?_, patchFile_allOrNothing item⟩
  · -- the requests of file `i` are its verdicts other than skip
    exact requestsOf_zip_filter_tag g work hlen i hi
  · -- every answer is for its own request's declaration
    intro x hx
    exact generateAll_zip_declaration backend g reqs s _ x (List.mem_filter.mp hx).1
  · -- file `i` is handed exactly the results of its own requests
    simp only [generateFor, List.getElem?_map]
    rw [attachResults_requestsOf g work _ (by simp) i hi]
    rfl

/-- Two files worked on in one pass, each with a function to document, and a backend that
answers every call: the second file's result comes from its own request alone. -/
theorem generateFor_patches_second_file_alone :
    let backend : Backend Unit := ⟨fun _ _ => (.text "Doc.", ())⟩
    let file (path text : String) : FileWork :=
      { source := ⟨path, text⟩
        verdicts := (Extract.declarationsOf text.toUTF8 path
          [.decl (.function ⟨0, 15⟩ ⟨some ⟨9, 10⟩, some ⟨13, 15⟩, {}⟩)]).map
            fun d => ⟨d, .generate, "no documentation comment"⟩ }
    let work := [file "src/a.ts" "function f() \x7b\x7d\n", file "src/b.ts" "function g() \x7b\x7d\n"]
    let schedule := fifoSchedule backend {}
    ∃ h : 1 < work.length,
      let reqs := requestsOf {} work
      let mine := (reqs.zip (generateFor backend {} schedule work ()).2.results).filter (·.1.1 == 1)
      let item : FileWork := { work[1] with results := mine.map fun x => (x.1.2.verdict, x.2) }
      mine.map (·.1.2.verdict) = work[1].verdicts.filter (·.verdict != .skip) ∧
        (∀ x ∈ mine, x.2.declaration = x.1.2.declaration) ∧
        ((generateFor backend {} schedule work ()).1.map patchFile)[1]? = some (patchFile item) ∧
        item.AllOrNothing (patchFile item) := by
  intro backend file work schedule
  exact ⟨by decide, generateFor_patches_each_file_alone backend {} schedule work () 1 (by decide)⟩

end DocWeaver
