import DocWeaver.Proofs.Coverage.IncrementalScope
import Mathlib.Data.List.Chain

/-!
Merged line ranges are the canonical form of their lines.

Ranges are canonical when each runs forward and each ends more than one line before the next
one starts (`Canonical`): they come in order, and no two overlap or touch. Two canonical lists
that hold the same lines are the same list (`Canonical.eq_of_covers`): the first range of each
starts at the least line held and stops right before the first line above it that is not held.

Merging sorts the lines and drops repeats, so each line it meets lies above every range built
so far: it extends the last range when it comes right after it, and otherwise opens a range past
a gap. Hence the merged ranges are canonical (`canonical_mergeLines`), and with
`covers_mergeLines` they are the one canonical list that holds exactly the given lines, whatever
their order and however often each occurs (`mergeLines_is_canonical_decomposition`).
-/

namespace DocWeaver

/-- Ranges in canonical form: each runs forward, and each stops more than one line before the
next one starts. -/
def Canonical (rs : List LineRange) : Prop :=
  (∀ r ∈ rs, r.start ≤ r.stop) ∧ rs.IsChain fun r s => r.stop + 1 < s.start

theorem covers_cons_start {r : LineRange} (hr : r.start ≤ r.stop) (rs : List LineRange) :
    Covers (r :: rs) r.start :=
  (covers_cons r rs r.start).mpr (.inl ⟨Int.le_refl _, hr⟩)

namespace Canonical

theorem nil : Canonical [] := ⟨by simp, .nil⟩

theorem tail {r : LineRange} {rs : List LineRange} (h : Canonical (r :: rs)) : Canonical rs :=
  ⟨fun s hs => h.1 s (List.mem_cons_of_mem r hs), h.2.tail⟩

theorem head_below {r : LineRange} {rs : List LineRange} (h : Canonical (r :: rs)) :
    ∀ s ∈ rs, r.stop + 1 < s.start := by
  induction rs generalizing r with
  | nil => simp
  | cons s rs ih =>
    rw [Canonical, List.isChain_cons_cons] at h
    obtain ⟨hforward, hgap, hchain⟩ := h
    have hs : s.start ≤ s.stop := hforward s (by simp)
    intro t ht
    rcases List.mem_cons.mp ht with rfl | ht
    · exact hgap
    · have := ih ⟨fun q hq => hforward q (List.mem_cons_of_mem r hq), hchain⟩ t ht
      omega

theorem above_of_covers_tail {r : LineRange} {rs : List LineRange} (h : Canonical (r :: rs))
    {L : Int} (hL : Covers rs L) : r.stop + 1 < L := by
  obtain ⟨s, hs, hheld⟩ := hL
  have := h.head_below s hs
  have := hheld.1
  omega

theorem start_le_of_covers {r : LineRange} {rs : List LineRange} (h : Canonical (r :: rs))
    {L : Int} (hL : Covers (r :: rs) L) : r.start ≤ L := by
  rcases (DocWeaver.covers_cons r rs L).mp hL with hfirst | hlater
  · exact hfirst.1
  · have := h.above_of_covers_tail hlater
    have := h.1 r List.mem_cons_self
    omega

theorem not_covers_succ_stop {r : LineRange} {rs : List LineRange} (h : Canonical (r :: rs)) :
    ¬Covers (r :: rs) (r.stop + 1) := by
  intro hL
  rcases (DocWeaver.covers_cons r rs _).mp hL with hfirst | hlater
  · exact absurd hfirst.2 (by omega)
  · exact absurd (h.above_of_covers_tail hlater) (by omega)

theorem covers_tail_iff {r : LineRange} {rs : List LineRange} (h : Canonical (r :: rs)) (L : Int) :
    Covers rs L ↔ Covers (r :: rs) L ∧ r.stop < L := by
  rw [DocWeaver.covers_cons]
  constructor
  · intro hL
    exact ⟨.inr hL, by have := h.above_of_covers_tail hL; omega⟩
  · rintro ⟨hL | hL, hlt⟩
    · exact absurd hL.2 (by omega)
    · exact hL

theorem not_stop_lt {r s : LineRange} {rs ss : List LineRange} (hr : Canonical (r :: rs))
    (h : ∀ L, Covers (r :: rs) L ↔ Covers (s :: ss) L)
    (hstart : r.start = s.start) : ¬r.stop < s.stop := by
  intro hlt
  have hrf : r.start ≤ r.stop := hr.1 r List.mem_cons_self
  exact hr.not_covers_succ_stop ((h _).mpr ((DocWeaver.covers_cons s ss _).mpr
    (.inl ⟨by omega, by omega⟩)))

theorem eq_of_covers {rs ss : List LineRange} (hr : Canonical rs) (hs : Canonical ss)
    (h : ∀ L, Covers rs L ↔ Covers ss L) : rs = ss := by
  induction rs generalizing ss with
  | nil =>
    cases ss with
    | nil => rfl
    | cons s ss =>
      have := (h s.start).mpr (covers_cons_start (hs.1 s List.mem_cons_self) ss)
      simp at this
  | cons r rs ih =>
    cases ss with
    | nil =>
      have := (h r.start).mp (covers_cons_start (hr.1 r List.mem_cons_self) rs)
      simp at this
    | cons s ss =>
      have hstart : r.start = s.start := by
        have h₁ := hs.start_le_of_covers ((h r.start).mp
          (covers_cons_start (hr.1 r List.mem_cons_self) rs))
        have h₂ := hr.start_le_of_covers ((h s.start).mpr
          (covers_cons_start (hs.1 s List.mem_cons_self) ss))
        omega
      have hstop : r.stop = s.stop := by
        have h₁ := hr.not_stop_lt h hstart
        have h₂ := hs.not_stop_lt (fun L => (h L).symm) hstart.symm
        omega
      have hhead : r = s := by
        cases r
        cases s
        simp only at hstart hstop
        rw [hstart, hstop]
      subst hhead
      -- the later ranges hold the same lines: those above the common first range
      refine congrArg (r :: ·) (ih hr.tail hs.tail fun L => ?_)
      rw [hr.covers_tail_iff L, hs.covers_tail_iff L, h L]

theorem append_singleton {rs : List LineRange} {s : LineRange} (h : Canonical rs)
    (hs : s.start ≤ s.stop) (hgap : ∀ r ∈ rs.getLast?, r.stop + 1 < s.start) :
    Canonical (rs ++ [s]) := by
  refine ⟨fun r hr => ?_, List.isChain_append.mpr ⟨h.2, .singleton s, ?_⟩⟩
  · rcases List.mem_append.mp hr with hr | hr
    · exact h.1 r hr
    · rw [List.mem_singleton.mp hr]
      exact hs
  · intro r hr t ht
    rw [List.head?_singleton, Option.mem_some_iff] at ht
    subst ht
    exact hgap r hr

end Canonical

/-! ### Merging builds canonical ranges -/

theorem pairwise_lt_eraseDups {ls : List Int} (h : ls.Pairwise (· ≤ ·)) :
    ls.eraseDups.Pairwise (· < ·) :=
  match ls, h with
  | [], _ => by simp
  | a :: as, h => by
    rw [List.eraseDups_cons, List.pairwise_cons]
    rw [List.pairwise_cons] at h
    refine ⟨fun b hb => ?_, pairwise_lt_eraseDups (h.2.filter _)⟩
    -- a later line is at least `a`, and not `a` once its repeats are gone
    rw [List.mem_eraseDups, List.mem_filter] at hb
    have hne : b ≠ a := by simpa using hb.2
    have := h.1 b hb.1
    omega
termination_by ls.length
decreasing_by
  have := List.length_filter_le (fun b => !b == a) as
  simp only [List.length_cons]
  omega

/-- Merging lines that lie above every range built so far, the last range first, keeps the
ranges canonical in order. -/
theorem canonical_foldl_mergeStep :
    ∀ (xs : List Int) (acc : List LineRange), xs.Pairwise (· < ·) → Canonical acc.reverse →
      (∀ r ∈ acc.head?, ∀ x ∈ xs, r.stop < x) → Canonical (xs.foldl mergeStep acc).reverse
  | [], acc, _, hacc, _ => hacc
  | x :: xs, acc, hxs, hacc, habove => by
    rw [List.pairwise_cons] at hxs
    rw [List.foldl_cons]
    apply canonical_foldl_mergeStep xs _ hxs.2
    · -- one step: extend the last range, or open one past a gap
      cases acc with
      | nil => exact ⟨by simp [mergeStep], by simp [mergeStep]⟩
      | cons r rest =>
        have hx : r.stop < x := habove r rfl x List.mem_cons_self
        rw [List.reverse_cons] at hacc
        have hprev : Canonical rest.reverse ∧
            ∀ q ∈ rest.reverse.getLast?, q.stop + 1 < r.start := by
          refine ⟨⟨fun q hq => hacc.1 q (List.mem_append_left _ hq),
            (List.isChain_append.mp hacc.2).1⟩, fun q hq => ?_⟩
          exact (List.isChain_append.mp hacc.2).2.2 q hq r rfl
        have hr : r.start ≤ r.stop := hacc.1 r (by simp)
        by_cases hnext : x = r.stop + 1
        · simp only [mergeStep, hnext, beq_self_eq_true, if_true, List.reverse_cons]
          exact hprev.1.append_singleton (by simp only; omega) hprev.2
        · have hne : (x == r.stop + 1) = false := beq_eq_false_iff_ne.mpr hnext
          simp only [mergeStep, hne, Bool.false_eq_true, if_false, List.reverse_cons]
          rw [List.append_cons, List.append_nil]
          refine hacc.append_singleton (show (⟨x, x⟩ : LineRange).start ≤ x from Int.le_refl x)
            fun q hq => ?_
          rw [List.getLast?_append_of_ne_nil _ (List.cons_ne_nil r []), List.getLast?_singleton,
            Option.mem_some_iff] at hq
          subst hq
          show r.stop + 1 < x
          omega
    · -- the new last range stops at `x`, below every line still to come
      intro r hr y hy
      have hxy : x < y := hxs.1 y hy
      cases acc with
      | nil =>
        simp only [mergeStep, List.head?_cons, Option.mem_some_iff] at hr
        subst hr
        exact hxy
      | cons q rest =>
        simp only [mergeStep] at hr
        split at hr <;>
        · simp only [List.head?_cons, Option.mem_some_iff] at hr
          subst hr
          exact hxy

theorem canonical_mergeLines (ls : List Int) : Canonical (mergeLines ls) := by
  have hsorted : (ls.mergeSort (· ≤ ·)).Pairwise (· ≤ ·) := by
    have := List.pairwise_mergeSort
      (fun a b c (hab : decide (a ≤ b) = true) (hbc : decide (b ≤ c) = true) => by
        simp only [decide_eq_true_eq] at *; omega)
      (fun a b : Int => by simp only [Bool.or_eq_true, decide_eq_true_eq]; omega) ls
    simpa using this
  rw [mergeLines_eq_foldl]
  exact canonical_foldl_mergeStep _ [] (pairwise_lt_eraseDups hsorted) Canonical.nil (by simp)

theorem mergeLines_eq_of_mem_iff {xs ys : List Int} (h : ∀ L, L ∈ ys ↔ L ∈ xs) :
    mergeLines ys = mergeLines xs :=
  (canonical_mergeLines ys).eq_of_covers (canonical_mergeLines xs) fun L => by
    rw [covers_mergeLines, covers_mergeLines, h L]

/-- The merged ranges of a list of lines are the one canonical list of ranges that holds exactly
its lines; so they depend only on which lines occur, not on their order or repeats. -/
theorem mergeLines_is_canonical_decomposition (xs : List Int) :
    (∀ rs, mergeLines xs = rs ↔ Canonical rs ∧ ∀ L, Covers rs L ↔ L ∈ xs) ∧
      ∀ ys : List Int, (∀ L, L ∈ ys ↔ L ∈ xs) → mergeLines ys = mergeLines xs := by
  refine ⟨fun rs => ⟨?_, fun ⟨hcanon, hcovers⟩ => ?_⟩, fun ys h => mergeLines_eq_of_mem_iff h⟩
  · rintro rfl
    exact ⟨canonical_mergeLines xs, covers_mergeLines xs⟩
  · exact (canonical_mergeLines xs).eq_of_covers hcanon fun L => by
      rw [covers_mergeLines, hcovers L]

end DocWeaver
