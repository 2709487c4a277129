import DocWeaver.Proofs.Patch.Disjoint

/-!
What a second scan reads back from a documented file.

Documenting a file writes each new comment directly above its declaration's header: at the start
of the header's line when only blanks precede the header there, and else right at the header,
with a line break after the comment. Read back, a comment written after a closing brace on the
header's line is not the declaration's comment. The statement that the brace closes runs on to
the line break after the comment and takes the comment in, so the declaration after it is still
undocumented and a second scan asks for it again.
-/

namespace DocWeaver

open DocWeaver.Syntax DocWeaver.Extract

theorem applyEdits_of_sorted {original : ByteArray} {es : List TextEdit}
    (hsorted : es.Pairwise fun a b => a.keyLe b = true)
    (hnone : editConflict original.size none es = none) :
    applyEdits original es = .ok (spliceEdits original 0 es) := by
  have hsort : sortEdits es = es := List.mergeSort_of_pairwise hsorted
  simp only [applyEdits, hsort, hnone, assembleEdits_eq_spliceEdits]

theorem applyPatch_of_sorted {source : SourceFile} {p : Patch} {t : String}
    (hne : p.edits ≠ []) (hsorted : p.edits.Pairwise fun a b => a.keyLe b = true)
    (hnone : editConflict source.data.size none p.edits = none)
    (hdec : Text.Utf8.decode (spliceEdits source.data 0 p.edits) = .ok t) :
    applyPatch source p = .ok (.changed { source with text := t }) := by
  have hempty : p.edits.isEmpty = false := List.isEmpty_eq_false_iff.mpr hne
  simp only [applyPatch, hempty, applyEdits_of_sorted hsorted hnone, bind, Except.bind, hdec]
  rfl

/-- Documenting a file once does not settle it when a declaration follows a closing brace on
its line. Both functions of the file below are undocumented, and the comment for the second is
written after the first one's brace. Read back, the first function's statement runs on to the
end of that comment, so a second full scan still finds the second function undocumented. -/
theorem comment_after_closing_brace_is_swallowed :
    let src : SourceFile := ⟨"src/a.ts", "function g() \x7b\x7d function f() \x7b\x7d\n"⟩
    let out : SourceFile :=
      ⟨"src/a.ts", "/** One. */\nfunction g() \x7b\x7d /** One. */\nfunction f() \x7b\x7d\n"⟩
    let scan : CoverageAnalyzer := { excludedPatterns := [] }
    let items : List Item :=
      [.decl (.function ⟨0, 15⟩ ⟨some ⟨9, 10⟩, some ⟨13, 15⟩, {}⟩),
        .decl (.function ⟨16, 31⟩ ⟨some ⟨25, 26⟩, some ⟨29, 31⟩, {}⟩)]
    let items' : List Item :=
      [.comment ⟨0, 11⟩, .decl (.function ⟨12, 39⟩ ⟨some ⟨21, 22⟩, some ⟨25, 27⟩, {}⟩),
        .decl (.function ⟨40, 55⟩ ⟨some ⟨49, 50⟩, some ⟨53, 55⟩, {}⟩)]
    let vs := scan.analyze (declarationsOf src.data src.relativePath items)
    readOutline src.data .typescript = .ok items ∧
      vs.map (·.verdict) = [.generate, .generate] ∧
      applyPatch src (buildPatch src (vs.map fun v => (v, "One."))) = .ok (.changed out) ∧
      readOutline out.data .typescript = .ok items' ∧
      (scan.analyze (declarationsOf out.data out.relativePath items')).map
        (fun v => (v.declaration.name, v.verdict)) = [("g", .skip), ("f", .generate)] := by
  intro src out scan items items' vs
  have hedits : (buildPatch src (vs.map fun v => (v, "One."))).edits =
      [⟨0, 0, "/** One. */\n", "g"⟩, ⟨16, 16, "/** One. */\n", "f"⟩] := by
    decide +kernel
  refine ⟨by decide +kernel, by decide +kernel, ?_, by decide +kernel, by decide +kernel⟩
  -- the two insertions come in order and apart, so they apply without being sorted
  refine applyPatch_of_sorted (by simp [hedits]) ?_ ?_ ?_ <;> rw [hedits] <;> decide +kernel

end DocWeaver
