import DocWeaver.Proofs.Pipeline.FilePatch
import Mathlib

/-!
Every failed declaration of a file is reported once, under its label.

A file's report keys each failed request by a label: the declaration's qualified name, with the
line of its header when another declaration of the file has the same name (`reportLabel`). The
labels are looked up by the offset of the header, and each failure is set under its label, a
later failure replacing an earlier one with the same label. So when no two declarations of a file
share a header offset (those of a parsed file never do) nor a label, a file whose generation was
not cancelled reports one entry for each failed result, in order, under the label of its
declaration (`patchFile_failedDeclarations_eq`), and the run reports the failures of all such
files. Two accessors of one name whose headers share a line get one label, and one of their
failures hides the other (`same_line_accessors_share_a_report_entry`).
-/

namespace DocWeaver

open DocWeaver.Syntax DocWeaver.Extract

def reportLabel (ds : List Declaration) (d : Declaration) : String :=
  if ds.any (fun d' => d' != d && d'.qualifiedName == d.qualifiedName) then
    d.qualifiedName ++ "@" ++ toString d.header.startLine
  else d.qualifiedName

def failureEntries (item : FileWork) : List (String × String) :=
  item.results.filterMap fun (v, r) => match r with
    | .failure _ k _ m => some (reportLabel (item.verdicts.map (·.declaration)) v.declaration, failureReason k m)
    | .success .. => none

/-- No two declarations of a file's verdicts share the offset of their header, nor their report
label. -/
structure LabelsApart (vs : List CoverageVerdict) : Prop where
  offsets : (vs.map (·.declaration.header.startByte)).Nodup
  labels : (vs.map fun v => reportLabel (vs.map (·.declaration)) v.declaration).Nodup

/-! ### Setting entries one after another -/

theorem foldl_setEntry {α : Type} (f : α → Option (String × String))
    (g : List (String × String) → α → List (String × String)) :
    ∀ (l : List α), (∀ acc, ∀ a ∈ l, g acc a = (f a).elim acc fun e => setEntry acc e.1 e.2) →
      ∀ acc : List (String × String), ((acc ++ l.filterMap f).map Prod.fst).Nodup →
        l.foldl g acc = acc ++ l.filterMap f := by
  intro l
  induction l with
  | nil => intro _ acc _; simp
  | cons a l ih =>
    intro hg acc hnodup
    have hg' : ∀ acc, ∀ x ∈ l, g acc x = (f x).elim acc fun e => setEntry acc e.1 e.2 :=
      fun acc x hx => hg acc x (List.mem_cons_of_mem a hx)
    rw [List.foldl_cons, hg acc a List.mem_cons_self]
    cases hf : f a with
    | none =>
      rw [Option.elim_none, ih hg' acc (by simpa [List.filterMap_cons, hf] using hnodup)]
      simp [hf]
    | some e =>
      have hkeys : ((acc ++ e :: l.filterMap f).map Prod.fst).Nodup := by
        simpa [List.filterMap_cons, hf] using hnodup
      have hnew : (acc.any (·.1 == e.1)) = false := by
        rw [List.any_eq_false]
        intro x hx hxe
        have hx' : x.1 ∈ acc.map Prod.fst := List.mem_map_of_mem hx
        rw [List.map_append, List.map_cons] at hkeys
        exact (List.nodup_append.mp hkeys).2.2 x.1 hx' e.1 List.mem_cons_self (by simpa using hxe)
      rw [Option.elim_some, setEntry, hnew, if_neg Bool.false_ne_true,
        ih hg' (acc ++ [(e.1, e.2)]) (by simpa using hkeys)]
      simp [hf]

theorem filterMap_sublist_map {α β : Type} {g : α → Option β} {h : α → β}
    (hg : ∀ a, g a = none ∨ g a = some (h a)) : ∀ l : List α, (l.filterMap g).Sublist (l.map h) := by
  intro l
  induction l with
  | nil => exact List.Sublist.slnil
  | cons a l ih =>
    rw [List.filterMap_cons, List.map_cons]
    rcases hg a with ha | ha
    · rw [ha]
      exact ih.cons _
    · rw [ha]
      exact ih.cons_cons _

/-! ### Labels -/

theorem lookup_map_of_nodup {α : Type} (key : α → Nat) (val : α → String) :
    ∀ {l : List α} {a : α}, (l.map key).Nodup → a ∈ l →
      (l.map fun x => (key x, val x)).lookup (key a) = some (val a) := by
  intro l
  induction l with
  | nil => intro a _ ha; cases ha
  | cons x l ih =>
    intro a hnodup ha
    rw [List.map_cons, List.nodup_cons] at hnodup
    rw [List.map_cons, List.lookup_cons]
    rcases List.mem_cons.mp ha with rfl | ha
    · simp
    · -- `a` comes later, so its key is not that of `x`
      have hne : (key a == key x) = false :=
        beq_eq_false_iff_ne.mpr fun h => hnodup.1 (h ▸ List.mem_map_of_mem ha)
      rw [hne]
      exact ih hnodup.2 ha

theorem one_lt_count_iff {ds : List Declaration} {d : Declaration} (hnodup : ds.Nodup) (hd : d ∈ ds) :
    1 < (ds.map (·.qualifiedName)).count d.qualifiedName ↔
      ds.any (fun d' => d' != d && d'.qualifiedName == d.qualifiedName) = true := by
  obtain ⟨l₁, l₂, rfl⟩ := List.append_of_mem hd
  have hout : d ∉ l₁ ∧ d ∉ l₂ := by
    rw [List.nodup_append, List.nodup_cons] at hnodup
    exact ⟨fun h => hnodup.2.2 d h d List.mem_cons_self rfl, hnodup.2.1.1⟩
  simp only [List.map_append, List.map_cons, List.count_append, List.count_cons_self,
    List.any_append, List.any_cons, bne_self_eq_false, Bool.false_and, Bool.false_or,
    Bool.or_eq_true, List.any_eq_true, Bool.and_eq_true, bne_iff_ne, ne_eq, beq_iff_eq]
  -- every other declaration with the name is one of the others
  have hcount : ∀ l : List Declaration, d ∉ l →
      (0 < (l.map (·.qualifiedName)).count d.qualifiedName ↔
        ∃ x ∈ l, ¬x = d ∧ x.qualifiedName = d.qualifiedName) := by
    intro l hl
    rw [List.count_pos_iff, List.mem_map]
    exact ⟨fun ⟨x, hx, hn⟩ => ⟨x, hx, fun h => hl (h ▸ hx), hn⟩, fun ⟨x, hx, _, hn⟩ => ⟨x, hx, hn⟩⟩
  rw [← hcount l₁ hout.1, ← hcount l₂ hout.2]
  omega

theorem lookup_declarationLabels {vs : List CoverageVerdict} (hapart : LabelsApart vs)
    {v : CoverageVerdict} (hv : v ∈ vs) :
    (declarationLabels vs).lookup v.declaration.header.startByte =
      some (reportLabel (vs.map (·.declaration)) v.declaration) := by
  have hds : (vs.map (·.declaration)).Nodup :=
    List.Nodup.of_map (·.header.startByte) (by rw [List.map_map]; exact hapart.offsets)
  have hd : v.declaration ∈ vs.map (·.declaration) := List.mem_map_of_mem hv
  have hlabel : (if (vs.map (·.declaration.qualifiedName)).count v.declaration.qualifiedName > 1 then
        v.declaration.qualifiedName ++ s!"@{v.declaration.header.startLine}"
      else v.declaration.qualifiedName) = reportLabel (vs.map (·.declaration)) v.declaration := by
    have hcount := one_lt_count_iff hds hd
    rw [List.map_map] at hcount
    change 1 < (vs.map (·.declaration.qualifiedName)).count _ ↔ _ at hcount
    unfold reportLabel
    by_cases hmany : ((vs.map (·.declaration)).any fun d' =>
        d' != v.declaration && d'.qualifiedName == v.declaration.qualifiedName) = true
    · rw [if_pos (hcount.mpr hmany), if_pos hmany, String.append_assoc]
      rfl
    · rw [if_neg (fun h => hmany (hcount.mp h)), if_neg hmany]
  rw [declarationLabels, ← hlabel]
  exact lookup_map_of_nodup (·.declaration.header.startByte) _ hapart.offsets hv

/-! ### A file's report -/

theorem patchFile_failedDeclarations {item : FileWork} (h : item.cancelled = false) :
    (patchFile item).failedDeclarations =
      item.results.foldl (fun acc (_, r) => match r with
        | .failure d k _ m =>
          setEntry acc (((declarationLabels item.verdicts).lookup d.header.startByte).getD d.qualifiedName)
            (failureReason k m)
        | _ => acc) [] := by
  unfold patchFile
  rw [if_neg (by simp [h])]
  dsimp only
  split
  · rfl
  · rfl
  · rfl
  · split <;> rfl

theorem patchFile_failedDeclarations_eq {item : FileWork} (h : item.cancelled = false)
    (hapart : LabelsApart item.verdicts)
    (hown : ∀ x ∈ item.results, x.2.declaration = x.1.declaration)
    (hsub : (item.results.map (·.1)).Sublist item.verdicts) :
    (patchFile item).failedDeclarations = failureEntries item := by
  let label (v : CoverageVerdict) : String := reportLabel (item.verdicts.map (·.declaration)) v.declaration
  let f : CoverageVerdict × GenerationResult → Option (String × String) := fun x => match x.2 with
    | .failure _ k _ m => some (label x.1, failureReason k m)
    | .success .. => none
  -- the labels of the failed results are among the labels of the verdicts, which are distinct
  have hnodup : (([] ++ item.results.filterMap f).map Prod.fst).Nodup := by
    rw [List.nil_append, List.map_filterMap]
    refine List.Nodup.sublist ?_ hapart.labels
    refine (filterMap_sublist_map (h := fun x => label x.1) (fun x => ?_) _).trans ?_
    · obtain ⟨v, r⟩ := x
      cases r <;> simp [f]
    · simpa only [List.map_map, Function.comp_def] using hsub.map label
  rw [patchFile_failedDeclarations h, foldl_setEntry f _ item.results ?_ [] hnodup, List.nil_append]
  · rfl
  intro acc x hx
  have hdecl := hown x hx
  have hv : x.1 ∈ item.verdicts := hsub.subset (List.mem_map_of_mem hx)
  obtain ⟨v, r⟩ := x
  cases r with
  | success => rfl
  | failure d k n m =>
    simp only [GenerationResult.declaration] at hdecl
    simp only [f, label, Option.elim_some, hdecl, lookup_declarationLabels hapart hv, Option.getD_some]

theorem length_failureEntries (item : FileWork) :
    (failureEntries item).length = (item.results.filter fun x => !x.2.ok).length := by
  rw [failureEntries, List.length_filterMap_eq_countP, List.countP_eq_length_filter]
  congr 1
  apply List.filter_congr
  intro x _
  obtain ⟨v, r⟩ := x
  cases r <;> rfl

/-! ### The files of a generation pass -/

theorem mem_generateFor {ω : Type} {backend : Backend ω} {g : GenerationConfig}
    {schedule : List GenerationRequest → ω → List Nat} {work : List FileWork} {s : ω}
    {item : FileWork} (h : item ∈ (generateFor backend g schedule work s).1) :
    ∃ w ∈ work, item.source = w.source ∧ item.verdicts = w.verdicts ∧
      (item.results.map (·.1)).Sublist item.verdicts ∧
      ∀ x ∈ item.results, x.2.declaration = x.1.declaration := by
  let reqs := requestsOf g work
  obtain ⟨i, hi, rfl⟩ := List.getElem_of_mem h
  have hi' : i < work.length := by simpa [generateFor] using hi
  have hlen : reqs.length = (generateFor backend g schedule work s).2.results.length := by
    simp [reqs, generateFor]
  have hget : (generateFor backend g schedule work s).1[i] = { work[i] with
      results := ((reqs.zip (generateFor backend g schedule work s).2.results).filter
        (·.1.1 == i)).map fun x => (x.1.2.verdict, x.2) } := by
    have h' := attachResults_requestsOf g work _ hlen.symm i hi'
    rw [List.getElem?_eq_getElem (by simpa using hi')] at h'
    exact Option.some.inj h'
  refine ⟨work[i], List.getElem_mem hi', by rw [hget], by rw [hget], ?_, ?_⟩
  · rw [hget, List.map_map]
    exact (requestsOf_zip_filter_tag g work hlen i hi').symm ▸ List.filter_sublist
  · rw [hget]
    intro x hx
    obtain ⟨y, hy, rfl⟩ := List.mem_map.mp hx
    exact generateAll_zip_declaration backend g reqs s _ y (List.mem_filter.mp hy).1

/-- No failure of a generation pass is lost in its report, when no two declarations of a file
share a header offset or a label. Each file whose generation was not cancelled reports one entry
for each failed result, in request order, under the qualified name of its declaration, or the
name and the line of its header when another declaration of the file has the same name; so it
reports as many entries as results failed. The run's list of failed declarations is the entries
of these files, in order, each under the file's path. -/
theorem generateFor_reports_each_failure {ω : Type} (backend : Backend ω) (g : GenerationConfig)
    (schedule : List GenerationRequest → ω → List Nat) (work : List FileWork) (s : ω)
    (hwork : ∀ w ∈ work, LabelsApart w.verdicts) :
    let done := (generateFor backend g schedule work s).1
    (∀ item ∈ done, item.cancelled = false →
      (patchFile item).failedDeclarations = failureEntries item ∧
        (patchFile item).failedDeclarations.length = (item.results.filter fun x => !x.2.ok).length) ∧
      ∀ run : PipelineRun, run.files = done.map patchFile →
        run.failedDeclarations = done.flatMap fun item =>
          if item.cancelled then []
          else (failureEntries item).map fun e => (item.source.relativePath ++ ":" ++ e.1, e.2) := by
  intro done
  have hfile : ∀ item ∈ done, item.cancelled = false →
      (patchFile item).failedDeclarations = failureEntries item := by
    intro item hitem hcancel
    obtain ⟨w, hw, -, hverdicts, hsub, hown⟩ := mem_generateFor hitem
    exact patchFile_failedDeclarations_eq hcancel (hverdicts ▸ hwork w hw) hown hsub
  refine ⟨fun item hitem hcancel => ⟨hfile item hitem hcancel, ?_⟩, fun run hrun => ?_⟩
  · rw [hfile item hitem hcancel, length_failureEntries]
  · rw [PipelineRun.failedDeclarations, hrun, List.flatMap_map]
    apply List.flatMap_congr
    intro item hitem
    rw [patchFile_relativePath]
    cases hcancel : item.cancelled with
    | true => rw [patchFile_of_cancelled hcancel]; rfl
    | false => rw [hfile item hitem hcancel]; rfl

/-- A class whose accessors of one name stand on lines of their own, and a backend that fails
every request: no two declarations share a label, so every failure is reported. -/
theorem accessors_on_their_own_lines_report_each_failure :
    let text := "class A \x7b\n  get x() \x7b return 1; \x7d\n  set x(v) \x7b\x7d\n\x7d\n"
    let items : List Item := [.decl (.klass ⟨0, 49⟩ ⟨some ⟨6, 7⟩, ⟨8, 49⟩,
      [.method ⟨12, 33⟩ ⟨16, 17⟩ false (some ⟨20, 33⟩) {},
        .method ⟨36, 47⟩ ⟨40, 41⟩ false (some ⟨45, 47⟩) ⟨[⟨⟨42, 43⟩, none⟩], none⟩]⟩)]
    let backend : Backend Unit := ⟨fun _ _ => (.failed "no", ())⟩
    let work : List FileWork :=
      [{ source := ⟨"src/a.ts", text⟩
         verdicts := (declarationsOf text.toUTF8 "src/a.ts" items).map
           fun d => ⟨d, .generate, "no documentation comment"⟩ }]
    readOutline text.toUTF8 .typescript = .ok items ∧ (∀ w ∈ work, LabelsApart w.verdicts) ∧
      let done := (generateFor backend {} (fifoSchedule backend {}) work ()).1
      (∀ item ∈ done, item.cancelled = false →
        (patchFile item).failedDeclarations = failureEntries item ∧
          (patchFile item).failedDeclarations.length = (item.results.filter fun x => !x.2.ok).length) ∧
        ∀ run : PipelineRun, run.files = done.map patchFile →
          run.failedDeclarations = done.flatMap fun item =>
            if item.cancelled then []
            else (failureEntries item).map fun e => (item.source.relativePath ++ ":" ++ e.1, e.2) := by
  intro text items backend work
  have hapart : ∀ w ∈ work, LabelsApart w.verdicts := by
    intro w hw
    rw [List.mem_singleton] at hw
    subst hw
    exact ⟨by decide +kernel, by decide +kernel⟩
  exact ⟨by decide +kernel, hapart,
    generateFor_reports_each_failure backend {} (fifoSchedule backend {}) work () hapart⟩

/-- Two accessors of one name on one line get the same label. When the backend fails both and
documents the class, the file's report holds one entry for the two failures. -/
theorem same_line_accessors_share_a_report_entry :
    let text := "class A \x7b get x() \x7b return 1; \x7d set x(v) \x7b\x7d \x7d\n"
    let items : List Item := [.decl (.klass ⟨0, 45⟩ ⟨some ⟨6, 7⟩, ⟨8, 45⟩,
      [.method ⟨10, 31⟩ ⟨14, 15⟩ false (some ⟨18, 31⟩) {},
        .method ⟨32, 43⟩ ⟨36, 37⟩ false (some ⟨41, 43⟩) ⟨[⟨⟨38, 39⟩, none⟩], none⟩]⟩)]
    let vs := (declarationsOf text.toUTF8 "src/a.ts" items).map
      fun d => (⟨d, .generate, "no documentation comment"⟩ : CoverageVerdict)
    let item : FileWork :=
      { source := ⟨"src/a.ts", text⟩
        verdicts := vs
        results := vs.map fun v => (v, if v.declaration.qualifiedName = "A.x"
          then .failure v.declaration .backendError 1 "no" else .success v.declaration "Documented by stub." 1) }
    readOutline text.toUTF8 .typescript = .ok items ∧ item.cancelled = false ∧
      (item.results.filter fun x => !x.2.ok).length = 2 ∧
      (patchFile item).failedDeclarations = [("A.x@1", "backend_error: no")] := by
  intro text items vs item
  have hcancel : item.cancelled = false := by decide +kernel
  refine ⟨by decide +kernel, hcancel, by decide +kernel, ?_⟩
  rw [patchFile_failedDeclarations hcancel]
  decide +kernel

end DocWeaver
