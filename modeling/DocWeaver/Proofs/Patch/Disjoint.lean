import DocWeaver.Proofs.Patch.Splice
import DocWeaver.Proofs.Extract.DocumentOrder
import DocWeaver.Patch.Writer

/-!
The edits of a patch never conflict.

A new comment goes in at a point: at the header, or at the start of its line when only blank
bytes stand between the two. A rewritten comment replaces the old comment's range. For
declarations in document order (`SitesWithin`), the point of a later declaration can fall inside
the comment of an earlier one only if the comment's closing slash stood between that point and
the later header, where every byte is blank. So the edits for distinct declarations, each
rewrite for a documented one, lie within the file and are pairwise apart, and applying the patch
succeeds.
-/

namespace DocWeaver

open DocWeaver.Syntax DocWeaver.Extract DocWeaver.Text

theorem lineStartOf_le (data : ByteArray) (i : Nat) : lineStartOf data i ≤ i := by
  unfold lineStartOf
  split <;> omega

theorem mem_extract_toList {data : ByteArray} {a b k : Nat} {x : UInt8} (ha : a ≤ k) (hb : k < b)
    (hx : data[k]? = some x) : x ∈ (data.extract a b).toList := by
  obtain ⟨j, rfl⟩ := Nat.exists_eq_add_of_le ha
  obtain ⟨hk, rfl⟩ := getElem?_eq_some_iff.mp hx
  have hsize : j < (data.extract a b).size := by
    rw [ByteArray.size_extract]
    omega
  rw [Utf8.toList_bytes, ← ByteArray.getElem_extract hsize, ByteArray.getElem_eq_getElem_data]
  exact Array.getElem_mem_toList _

def blankByte (b : UInt8) : Bool := b == 32 || (9 ≤ b && b ≤ 13)

theorem editFor_skip {data : ByteArray} {v : CoverageVerdict} {t : String} (hv : v.verdict = .skip) :
    editFor data v t = none := by
  simp [editFor, hv]

theorem editFor_generate {data : ByteArray} {v : CoverageVerdict} {t : String} {e : TextEdit}
    (hv : v.verdict = .generate) (h : editFor data v t = some e) :
    ∃ p : Nat, e.start = p ∧ e.stop = p ∧ p ≤ v.declaration.header.startByte ∧
      ∀ k x, p ≤ k → k < v.declaration.header.startByte → data[k]? = some x → blankByte x = true := by
  simp only [editFor, hv] at h
  split at h
  · -- at the header itself: nothing stands between
    cases h
    exact ⟨_, rfl, rfl, Nat.le_refl _, fun k x h₁ h₂ _ => absurd h₂ (by omega)⟩
  · -- at the start of the line, which holds only blank bytes before the header
    rename_i hblank
    cases h
    refine ⟨_, rfl, rfl, lineStartOf_le _ _, fun k x h₁ h₂ hx => ?_⟩
    have hmem := mem_extract_toList h₁ h₂ hx
    rw [Bool.not_eq_true, List.any_eq_false] at hblank
    have := hblank x hmem
    simp only [Bool.not_eq_true', Bool.not_eq_false] at this
    simpa [blankByte] using this

theorem editFor_regenerate {data : ByteArray} {v : CoverageVerdict} {t : String} {e : TextEdit}
    (hv : v.verdict = .regenerate) (hdoc : v.declaration.doc.isSome)
    (h : editFor data v t = some e) :
    ∃ c, v.declaration.doc = some c ∧ e.start = c.range.startByte ∧ e.stop = c.range.endByte := by
  obtain ⟨c, hc⟩ := Option.isSome_iff_exists.mp hdoc
  simp only [editFor, hv, hc, Option.some.injEq] at h
  cases h
  exact ⟨c, hc, rfl, rfl⟩

theorem TextEdit.apart_of_points {e e' : TextEdit} {p p' : Nat} (hs : e.start = p) (ht : e.stop = p)
    (hs' : e'.start = p') (ht' : e'.stop = p') : e.Apart e' := by
  rcases Nat.le_total p p' with hle | hle
  · exact TextEdit.apart_of_stop_le (by omega) (by omega)
  · exact (TextEdit.apart_of_stop_le (by omega) (by omega)).symm

section Precedes

variable {data : ByteArray} {v v' : CoverageVerdict} {t t' : String} {e e' : TextEdit} {b : Nat}

theorem editFor_ends_by_header (hd : v.declaration.SitsAfter data b)
    (hregen : v.verdict = .regenerate → v.declaration.doc.isSome) (he : editFor data v t = some e) :
    0 ≤ e.start ∧ e.start ≤ e.stop ∧ e.stop ≤ v.declaration.header.startByte := by
  cases hv : v.verdict with
  | skip => simp [editFor_skip hv] at he
  | generate =>
    obtain ⟨p, hs, ht, hp, -⟩ := editFor_generate hv he
    omega
  | regenerate =>
    obtain ⟨c, hc, hs, ht⟩ := editFor_regenerate hv (hregen hv) he
    obtain ⟨-, hlt, hend, -⟩ := hd.2 c hc
    omega

theorem apart_of_precedes (hpre : v.declaration.Precedes v'.declaration)
    (hd : v.declaration.SitsAfter data b)
    (hregen : v.verdict = .regenerate → v.declaration.doc.isSome)
    (hregen' : v'.verdict = .regenerate → v'.declaration.doc.isSome)
    (he : editFor data v t = some e) (he' : editFor data v' t' = some e') : e.Apart e' := by
  obtain ⟨-, hse, hstop⟩ := editFor_ends_by_header hd hregen he
  cases hv' : v'.verdict with
  | skip => simp [editFor_skip hv'] at he'
  | regenerate =>
    -- the second comment comes after the first header, by which the first edit ends
    obtain ⟨c', hc', hs', -⟩ := editFor_regenerate hv' (hregen' hv') he'
    have := hpre.2 c' hc'
    exact TextEdit.apart_of_stop_le hse (by omega)
  | generate =>
    obtain ⟨p', hs', ht', hp', hblank⟩ := editFor_generate hv' he'
    cases hv : v.verdict with
    | skip => simp [editFor_skip hv] at he
    | generate =>
      obtain ⟨p, hs, ht, -⟩ := editFor_generate hv he
      exact TextEdit.apart_of_points hs ht hs' ht'
    | regenerate =>
      obtain ⟨c, hc, hs, ht⟩ := editFor_regenerate hv (hregen hv) he
      obtain ⟨-, hlt, hend, hslash⟩ := hd.2 c hc
      have hanchor := hpre.1
      by_cases hafter : c.range.endByte ≤ p'
      · exact TextEdit.apart_of_stop_le (by omega) (by omega)
      by_cases hbefore : p' ≤ c.range.startByte
      · exact (TextEdit.apart_of_stop_le (by omega) (by omega)).symm
      -- a point inside the comment would have the comment's closing slash among the blank bytes
      -- before the second header
      exact absurd (hblank _ 47 (by omega) (by omega) hslash) (by decide)

theorem inBounds_of_sitsAfter (hd : v.declaration.SitsAfter data 0)
    (hle : v.declaration.header.startByte ≤ data.size)
    (hregen : v.verdict = .regenerate → v.declaration.doc.isSome) (he : editFor data v t = some e) :
    e.InBounds data.size := by
  obtain ⟨h₀, h₁, h₂⟩ := editFor_ends_by_header hd hregen he
  exact ⟨h₀, h₁, by omega⟩

end Precedes

theorem not_editsConflict_buildPatch {source : SourceFile} {ds : List Declaration}
    (hsites : SitesWithin source.data 0 source.data.size ds) {vs : List (CoverageVerdict × String)}
    (hmem : ∀ p ∈ vs, p.1.declaration ∈ ds) (hdistinct : (vs.map fun p => p.1.declaration).Nodup)
    (hregen : ∀ p ∈ vs, p.1.verdict = .regenerate → p.1.declaration.doc.isSome) :
    ¬EditsConflict source.data.size (buildPatch source vs).edits := by
  have hsits := hsites.sitsAfter_of_mem
  have hpre := hsites.pairwise_precedes
  rw [not_editsConflict_iff]
  constructor
  · intro e he
    simp only [buildPatch, List.mem_filterMap] at he
    obtain ⟨p, hp, he⟩ := he
    obtain ⟨hd, hle⟩ := hsits _ (hmem p hp)
    exact inBounds_of_sitsAfter hd hle (hregen p hp) he
  · simp only [buildPatch]
    rw [List.pairwise_filterMap]
    have hne : vs.Pairwise fun p q => p.1.declaration ≠ q.1.declaration := List.pairwise_map.mp hdistinct
    refine hne.imp_of_mem fun {p q} hp hq hpq e he e' he' => ?_
    have hor : ds.Pairwise fun d d' => d.Precedes d' ∨ d'.Precedes d := hpre.imp Or.inl
    have : Std.Symm fun d d' : Declaration => d.Precedes d' ∨ d'.Precedes d := ⟨fun _ _ => Or.symm⟩
    rcases hor.forall (hmem p hp) (hmem q hq) hpq with h | h
    · exact apart_of_precedes h (hsits _ (hmem p hp)).1 (hregen p hp) (hregen q hq) he he'
    · exact (apart_of_precedes h (hsits _ (hmem q hq)).1 (hregen q hq) (hregen p hp) he' he).symm

theorem applyPatch_eq_ok_of_not_conflict {source : SourceFile} {p : Patch}
    (h : ¬EditsConflict source.data.size p.edits) : ∃ r, applyPatch source p = .ok r := by
  unfold applyPatch
  split
  · exact ⟨_, rfl⟩
  · rw [applyEdits_of_not_conflict h]
    simp only [bind, Except.bind]
    cases Utf8.decode (spliceEdits source.data 0 (sortEdits p.edits)) with
    | ok t => exact ⟨_, rfl⟩
    | error err => exact ⟨_, rfl⟩

/-- Documenting a file never gives conflicting edits. For any outline of the file that the
parser places, and verdicts with texts for distinct declarations of it that ask a rewrite only of
documented ones, the patch's edits lie within the file and are pairwise apart, and the patch
applies. -/
theorem buildPatch_applies_without_conflict (text relPath : String) (items : List Item)
    (hplaced : Outline.Placed text.toUTF8 items) (vs : List (CoverageVerdict × String))
    (hmem : ∀ p ∈ vs, p.1.declaration ∈ declarationsOf text.toUTF8 relPath items)
    (hdistinct : (vs.map fun p => p.1.declaration).Nodup)
    (hregen : ∀ p ∈ vs, p.1.verdict = .regenerate → p.1.declaration.doc.isSome) :
    ¬EditsConflict text.toUTF8.size (buildPatch ⟨relPath, text⟩ vs).edits ∧
      ∃ r, applyPatch ⟨relPath, text⟩ (buildPatch ⟨relPath, text⟩ vs) = .ok r := by
  have hsites : SitesWithin (SourceFile.data ⟨relPath, text⟩) 0
      (SourceFile.data ⟨relPath, text⟩).size (declarationsOf text.toUTF8 relPath items) :=
    sitesWithin_declarationsOf hplaced
  have hconflict := not_editsConflict_buildPatch hsites hmem hdistinct hregen
  exact ⟨hconflict, applyPatch_eq_ok_of_not_conflict hconflict⟩

/-- A function after its doc comment shares its line with a class whose method follows a line
comment: the parser's outline is placed, and rewriting the function's comment while adding the
others applies. -/
theorem buildPatch_applies_on_shared_line :
    let text := "/** Doc. */\nfunction f() \x7b\x7d class C \x7b\n  // m\n  m() \x7b\x7d\n\x7d\n"
    let items : List Item :=
      [.comment ⟨0, 11⟩, .decl (.function ⟨12, 27⟩ ⟨some ⟨21, 22⟩, some ⟨25, 27⟩, {}⟩),
        .decl (.klass ⟨28, 55⟩ ⟨some ⟨34, 35⟩, ⟨36, 55⟩,
          [.comment ⟨40, 44⟩, .method ⟨47, 53⟩ ⟨47, 48⟩ false (some ⟨51, 53⟩) {}]⟩)]
    let vs := (declarationsOf text.toUTF8 "src/a.ts" items).map fun d =>
      ((⟨d, if d.isDocumented then .regenerate else .generate, ""⟩ : CoverageVerdict), "Doc.")
    readOutline text.toUTF8 .typescript = .ok items ∧ Outline.Placed text.toUTF8 items ∧
      (∀ p ∈ vs, p.1.declaration ∈ declarationsOf text.toUTF8 "src/a.ts" items) ∧
      (vs.map fun p => p.1.declaration).Nodup ∧
      (∀ p ∈ vs, p.1.verdict = .regenerate → p.1.declaration.doc.isSome) ∧
      ¬EditsConflict text.toUTF8.size (buildPatch ⟨"src/a.ts", text⟩ vs).edits ∧
      ∃ r, applyPatch ⟨"src/a.ts", text⟩ (buildPatch ⟨"src/a.ts", text⟩ vs) = .ok r := by
  intro text items vs
  have hread : readOutline text.toUTF8 .typescript = .ok items := by decide +kernel
  have hplaced : Outline.Placed text.toUTF8 items := by decide +kernel
  have hmem : ∀ p ∈ vs, p.1.declaration ∈ declarationsOf text.toUTF8 "src/a.ts" items := by
    intro p hp
    obtain ⟨d, hd, rfl⟩ := List.mem_map.mp hp
    exact hd
  have hdistinct : (vs.map fun p => p.1.declaration).Nodup := by decide +kernel
  have hregen : ∀ p ∈ vs, p.1.verdict = .regenerate → p.1.declaration.doc.isSome := by
    decide +kernel
  exact ⟨hread, hplaced, hmem, hdistinct, hregen,
    buildPatch_applies_without_conflict text "src/a.ts" items hplaced vs hmem hdistinct hregen⟩

end DocWeaver
