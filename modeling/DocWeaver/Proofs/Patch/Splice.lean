import DocWeaver.Patch.Edit
import Mathlib.Data.List.Sort

namespace DocWeaver

/-! ### Keys and overlaps -/

namespace TextEdit

theorem keyLe_iff {a b : TextEdit} :
    a.keyLe b = true ↔ a.start < b.start ∨ a.start = b.start ∧ a.stop ≤ b.stop := by
  simp [keyLe]

theorem keyLe_trans (a b c : TextEdit) (hab : a.keyLe b = true) (hbc : b.keyLe c = true) :
    a.keyLe c = true := by
  rw [keyLe_iff] at *
  omega

theorem keyLe_total (a b : TextEdit) : (a.keyLe b || b.keyLe a) = true := by
  rw [Bool.or_eq_true, keyLe_iff, keyLe_iff]
  omega

def InBounds (size : Nat) (e : TextEdit) : Prop :=
  0 ≤ e.start ∧ e.start ≤ e.stop ∧ e.stop ≤ size

instance (size : Nat) (e : TextEdit) : Decidable (e.InBounds size) :=
  inferInstanceAs (Decidable (_ ∧ _))

def Overlaps (a b : TextEdit) : Prop := a.keyLe b = true ∧ b.start < a.stop

def Apart (a b : TextEdit) : Prop := ¬a.Overlaps b ∧ ¬b.Overlaps a

theorem Apart.symm {a b : TextEdit} (h : a.Apart b) : b.Apart a := ⟨h.2, h.1⟩

theorem apart_of_stop_le {a b : TextEdit} (ha : a.start ≤ a.stop) (h : a.stop ≤ b.start) :
    a.Apart b := by
  simp only [Apart, Overlaps, keyLe_iff]
  omega

theorem Apart.stop_le {a b : TextEdit} (h : a.Apart b) (hk : a.keyLe b = true) :
    a.stop ≤ b.start := by
  have h₁ := h.1
  simp only [Overlaps, not_and, not_lt] at h₁
  exact h₁ hk

end TextEdit

/-- Edits that `applyEdits` refuses: one lies outside the file, or of two edits at different
places in the list, one overlaps the other. -/
def EditsConflict (size : Nat) (es : List TextEdit) : Prop :=
  (∃ e ∈ es, ¬e.InBounds size) ∨
    ∃ (i j : Nat) (hi : i < es.length) (hj : j < es.length), i ≠ j ∧ es[i].Overlaps es[j]

theorem pairwise_apart_iff {es : List TextEdit} :
    es.Pairwise TextEdit.Apart ↔
      ¬∃ (i j : Nat) (hi : i < es.length) (hj : j < es.length), i ≠ j ∧ es[i].Overlaps es[j] := by
  rw [List.pairwise_iff_getElem]
  constructor
  · rintro h ⟨i, j, hi, hj, hne, hov⟩
    rcases Nat.lt_or_gt_of_ne hne with hlt | hgt
    · exact (h i j hi hj hlt).1 hov
    · exact (h j i hj hi hgt).2 hov
  · intro h i j hi hj hlt
    exact ⟨fun hov => h ⟨i, j, hi, hj, Nat.ne_of_lt hlt, hov⟩,
      fun hov => h ⟨j, i, hj, hi, Nat.ne_of_gt hlt, hov⟩⟩

theorem not_editsConflict_iff {size : Nat} {es : List TextEdit} :
    ¬EditsConflict size es ↔ (∀ e ∈ es, e.InBounds size) ∧ es.Pairwise TextEdit.Apart := by
  rw [pairwise_apart_iff, EditsConflict, not_or, not_exists]
  simp only [not_and, not_not]

/-! ### The check of sorted edits -/

theorem sortEdits_perm (es : List TextEdit) : (sortEdits es).Perm es :=
  List.mergeSort_perm es _

theorem sortEdits_sorted (es : List TextEdit) :
    (sortEdits es).Pairwise fun a b => a.keyLe b = true :=
  List.pairwise_mergeSort TextEdit.keyLe_trans TextEdit.keyLe_total es

/-- The check passes exactly when every edit lies in the file and each one ends before every
later one starts, the previous edit included. -/
theorem editConflict_eq_none_iff (size : Nat) (prev : Option TextEdit) (es : List TextEdit) :
    editConflict size prev es = none ↔
      (∀ e ∈ es, e.InBounds size) ∧ (prev.toList ++ es).Pairwise fun a b => a.stop ≤ b.start := by
  induction es generalizing prev with
  | nil => cases prev <;> simp [editConflict]
  | cons e es ih =>
    have hb : (decide (e.start < 0) || decide (e.stop < e.start) || decide (e.stop > size)) = false
        ↔ e.InBounds size := by
      simp only [TextEdit.InBounds, Bool.or_eq_false_iff, decide_eq_false_iff_not]
      omega
    by_cases hin : e.InBounds size
    case neg =>
      -- an edit outside the file fails the check, whatever came before it
      have hout :
          (decide (e.start < 0) || decide (e.stop < e.start) || decide (e.stop > size)) = true := by
        by_contra hne
        exact hin (hb.mp (Bool.of_not_eq_true hne))
      cases prev <;> simp [editConflict, hout, hin]
    case pos =>
      have hcond := hb.mpr hin
      cases prev with
      | none =>
        simp only [editConflict, hcond, Bool.false_eq_true, if_false, Option.toList_none,
          List.nil_append, List.forall_mem_cons]
        rw [ih, Option.toList_some, List.singleton_append]
        simp [hin]
      | some p =>
        simp only [editConflict, hcond, Bool.false_eq_true, if_false, Option.toList_some,
          List.singleton_append, List.forall_mem_cons]
        split
        · -- it starts before the previous edit ends
          rename_i hlt
          simp only [reduceCtorEq, false_iff, not_and]
          intro _ hpw
          have := List.rel_of_pairwise_cons hpw List.mem_cons_self
          omega
        · rename_i hlt
          have hcons : (p :: e :: es).Pairwise (fun a b => a.stop ≤ b.start) ↔
              (∀ x ∈ e :: es, p.stop ≤ x.start) ∧ (e :: es).Pairwise (fun a b => a.stop ≤ b.start) :=
            List.pairwise_cons
          rw [ih, Option.toList_some, List.singleton_append, hcons]
          constructor
          · rintro ⟨hes, hpw⟩
            refine ⟨⟨hin, hes⟩, fun x hx => ?_, hpw⟩
            rcases List.mem_cons.mp hx with rfl | hx
            · omega
            · have := List.rel_of_pairwise_cons hpw hx
              have := hin.2.1
              omega
          · rintro ⟨⟨_, hes⟩, _, hpw⟩
            exact ⟨hes, hpw⟩

theorem pairwise_stop_le_iff_apart {size : Nat} {es : List TextEdit}
    (hs : es.Pairwise fun a b => a.keyLe b = true) (hin : ∀ e ∈ es, e.InBounds size) :
    (es.Pairwise fun a b => a.stop ≤ b.start) ↔ es.Pairwise TextEdit.Apart := by
  constructor
  · intro h
    refine h.imp_of_mem fun {a b} ha _ hab => TextEdit.apart_of_stop_le ?_ hab
    exact (hin a ha).2.1
  · intro h
    exact (hs.and h).imp fun ⟨hk, hap⟩ => hap.stop_le hk

theorem editConflict_sortEdits_eq_none_iff (size : Nat) (es : List TextEdit) :
    editConflict size none (sortEdits es) = none ↔ ¬EditsConflict size es := by
  have hp := sortEdits_perm es
  rw [editConflict_eq_none_iff, Option.toList_none, List.nil_append, not_editsConflict_iff]
  have hmem : (∀ e ∈ sortEdits es, e.InBounds size) ↔ ∀ e ∈ es, e.InBounds size :=
    forall_congr' fun e => imp_congr_left hp.mem_iff
  constructor
  · rintro ⟨hin, hpw⟩
    have hap := (pairwise_stop_le_iff_apart (sortEdits_sorted es) hin).mp hpw
    exact ⟨hmem.mp hin, (hp.pairwise_iff fun h => h.symm).mp hap⟩
  · rintro ⟨hin, hap⟩
    have hin' := hmem.mpr hin
    refine ⟨hin', (pairwise_stop_le_iff_apart (sortEdits_sorted es) hin').mpr ?_⟩
    exact (hp.pairwise_iff fun h => h.symm).mpr hap

/-! ### Backward assembly -/

theorem foldl_append_bytes (acc : ByteArray) (ps : List ByteArray) :
    ps.foldl (· ++ ·) acc = acc ++ ps.foldl (· ++ ·) ByteArray.empty := by
  induction ps generalizing acc with
  | nil => simp
  | cons p ps ih =>
    rw [List.foldl_cons, List.foldl_cons, ih, ih (ByteArray.empty ++ p), ByteArray.empty_append,
      ByteArray.append_assoc]

theorem extract_append_assembled (original : ByteArray) (es : List TextEdit) (k : Nat) :
    original.extract k (es.reverse.foldl (assembleStep original) ([], original.size)).2 ++
        (es.reverse.foldl (assembleStep original) ([], original.size)).1.reverse.foldl (· ++ ·)
          ByteArray.empty =
      spliceEdits original k es := by
  induction es generalizing k with
  | nil => simp [spliceEdits]
  | cons e es ih =>
    rw [List.reverse_cons, List.foldl_append, List.foldl_cons, List.foldl_nil]
    simp only [assembleStep, List.reverse_append, List.reverse_cons, List.reverse_nil,
      List.nil_append, List.cons_append, List.foldl_cons]
    rw [foldl_append_bytes, spliceEdits, ← ih e.stop.toNat]
    simp only [ByteArray.empty_append, ByteArray.append_assoc]

theorem assembleEdits_eq_spliceEdits (original : ByteArray) (es : List TextEdit) :
    assembleEdits original es = spliceEdits original 0 es := by
  rw [assembleEdits, List.reverse_append, List.reverse_singleton, List.singleton_append,
    List.foldl_cons, foldl_append_bytes, ByteArray.empty_append]
  exact extract_append_assembled original es 0

/-! ### Applying edits -/

theorem applyEdits_eq_error_iff {original : ByteArray} {es : List TextEdit} {msg : String} :
    applyEdits original es = .error msg ↔ editConflict original.size none (sortEdits es) = some msg := by
  cases h : editConflict original.size none (sortEdits es) <;> simp [applyEdits, h]

theorem applyEdits_of_not_conflict {original : ByteArray} {es : List TextEdit}
    (h : ¬EditsConflict original.size es) :
    applyEdits original es = .ok (spliceEdits original 0 (sortEdits es)) := by
  have hnone := (editConflict_sortEdits_eq_none_iff original.size es).mpr h
  simp only [applyEdits, hnone, assembleEdits_eq_spliceEdits]

theorem applyEdits_isError_iff {original : ByteArray} {es : List TextEdit} :
    (∃ msg, applyEdits original es = .error msg) ↔ EditsConflict original.size es := by
  simp only [applyEdits_eq_error_iff]
  rw [← not_iff_not, not_exists, ← editConflict_sortEdits_eq_none_iff]
  cases editConflict original.size none (sortEdits es) <;> simp

/-! ### Equal keys keep their order -/

theorem sortEdits_filter_eq {p : TextEdit → Bool} (es : List TextEdit)
    (hp : ∀ a b, p a = true → p b = true → a.keyLe b = true) :
    (sortEdits es).filter p = es.filter p := by
  have hsorted : (es.filter p).Pairwise fun a b => a.keyLe b = true := by
    refine List.pairwise_of_forall_mem_list fun a ha b hb => ?_
    exact hp a b (List.mem_filter.mp ha).2 (List.mem_filter.mp hb).2
  have hsub : List.Sublist (es.filter p) (sortEdits es) :=
    List.sublist_mergeSort TextEdit.keyLe_trans TextEdit.keyLe_total hsorted List.filter_sublist
  have hsub' : List.Sublist (es.filter p) ((sortEdits es).filter p) := by
    simpa [List.filter_filter] using hsub.filter p
  exact (hsub'.eq_of_length ((sortEdits_perm es).filter p).length_eq.symm).symm

/-! ### What the edits keep -/

namespace TextEdit

def covers (e : TextEdit) (k : Nat) : Bool := decide (e.start ≤ k) && decide ((k : Int) < e.stop)

end TextEdit

/-- The original's bytes that no edit replaces, in order. -/
def keptBytes (original : ByteArray) (es : List TextEdit) : List UInt8 :=
  ((List.range original.size).filter fun k => es.all fun e => !e.covers k).map
    (original.data.toList.getD · 0)

/-- The original's bytes that sorted edits leave in place: before the first, between each and
the next, and after the last. -/
def spliceGaps (original : ByteArray) (cursor : Nat) : List TextEdit → List ByteArray
  | [] => [original.extract cursor original.size]
  | e :: es => original.extract cursor e.start.toNat :: spliceGaps original e.stop.toNat es

theorem range'_eq_append {a b c : Nat} (h₁ : a ≤ b) (h₂ : b ≤ c) :
    List.range' a (c - a) = List.range' a (b - a) ++ List.range' b (c - b) := by
  rw [show c - a = (b - a) + (c - b) by omega, ← List.range'_append_1,
    show a + (b - a) = b by omega]

theorem take_drop_eq_map_range' {l : List UInt8} {a n : Nat} (h : a + n ≤ l.length) :
    (l.drop a).take n = (List.range' a n).map (l.getD · 0) := by
  apply List.ext_getElem
  · simp only [List.length_take, List.length_drop, List.length_map, List.length_range']
    omega
  · intro i h₁ h₂
    simp only [List.length_map, List.length_range'] at h₂
    simp only [List.getElem_take, List.getElem_drop, List.getElem_map, List.getElem_range',
      Nat.one_mul]
    rw [List.getD_eq_getElem?_getD, List.getElem?_eq_getElem (by omega), Option.getD_some]

theorem extract_toList_eq_map_range' (original : ByteArray) {a b : Nat} (hab : a ≤ b)
    (hb : b ≤ original.size) :
    (original.extract a b).data.toList = (List.range' a (b - a)).map (original.data.toList.getD · 0) := by
  rw [ByteArray.data_extract, Array.toList_extract, List.extract_eq_take_drop]
  exact take_drop_eq_map_range' (by simp only [Array.length_toList, ByteArray.size_data]; omega)

/-- The gaps between sorted edits that lie in the file and do not overlap are the original's
bytes from the cursor on that no edit replaces. -/
theorem spliceGaps_flatMap {original : ByteArray} {es : List TextEdit}
    (hin : ∀ e ∈ es, e.InBounds original.size) (hpw : es.Pairwise fun a b => a.stop ≤ b.start) :
    ∀ c : Nat, c ≤ original.size → (∀ e ∈ es, (c : Int) ≤ e.start) →
      (spliceGaps original c es).flatMap (·.data.toList) =
        ((List.range' c (original.size - c)).filter fun k => es.all fun e => !e.covers k).map
          (original.data.toList.getD · 0) := by
  induction es with
  | nil =>
    intro c hc _
    simp only [spliceGaps, List.flatMap_cons, List.flatMap_nil, List.append_nil, List.all_nil,
      List.filter_true]
    exact extract_toList_eq_map_range' original hc (Nat.le_refl _)
  | cons e es ih =>
    intro c hc hce
    obtain ⟨h0, hse, hes⟩ := hin e List.mem_cons_self
    have hce' := hce e List.mem_cons_self
    have hlater : ∀ x ∈ es, e.stop ≤ x.start := fun x hx => List.rel_of_pairwise_cons hpw hx
    have hsplit : List.range' c (original.size - c) =
        List.range' c (e.start.toNat - c) ++ List.range' e.start.toNat (e.stop.toNat - e.start.toNat) ++
          List.range' e.stop.toNat (original.size - e.stop.toNat) := by
      rw [range'_eq_append (show c ≤ e.start.toNat by omega)
          (show e.start.toNat ≤ original.size by omega),
        range'_eq_append (show e.start.toNat ≤ e.stop.toNat by omega)
          (show e.stop.toNat ≤ original.size by omega),
        List.append_assoc]
    -- before the edit every offset is kept, inside it none, after it the rest decide
    have hbefore : (List.range' c (e.start.toNat - c)).filter (fun k => (e :: es).all fun x => !x.covers k) =
        List.range' c (e.start.toNat - c) := by
      refine List.filter_eq_self.mpr fun k hk => ?_
      rw [List.mem_range'_1] at hk
      simp only [List.all_cons, Bool.and_eq_true, List.all_eq_true, Bool.not_eq_true',
        TextEdit.covers, Bool.and_eq_false_iff, decide_eq_false_iff_not, not_le, not_lt]
      refine ⟨Or.inl (by omega), fun x hx => Or.inl ?_⟩
      have := hlater x hx
      omega
    have hinside : (List.range' e.start.toNat (e.stop.toNat - e.start.toNat)).filter
        (fun k => (e :: es).all fun x => !x.covers k) = [] := by
      refine List.filter_eq_nil_iff.mpr fun k hk => ?_
      rw [List.mem_range'_1] at hk
      have hk' : e.covers k = true := by
        simp only [TextEdit.covers, Bool.and_eq_true, decide_eq_true_eq]
        omega
      simp [List.all_cons, hk']
    have hafter : (List.range' e.stop.toNat (original.size - e.stop.toNat)).filter
        (fun k => (e :: es).all fun x => !x.covers k) =
        (List.range' e.stop.toNat (original.size - e.stop.toNat)).filter
          (fun k => es.all fun x => !x.covers k) := by
      refine List.filter_congr fun k hk => ?_
      rw [List.mem_range'_1] at hk
      have hk' : e.covers k = false := by
        simp only [TextEdit.covers, Bool.and_eq_false_iff, decide_eq_false_iff_not]
        omega
      simp [List.all_cons, hk']
    rw [spliceGaps, List.flatMap_cons, hsplit, List.filter_append, List.filter_append, hbefore,
      hinside, hafter, List.append_nil, List.map_append,
      extract_toList_eq_map_range' original (by omega) (by omega),
      ih (fun x hx => hin x (List.mem_cons_of_mem e hx)) hpw.of_cons e.stop.toNat (by omega)
        (fun x hx => by have := hlater x hx; omega)]

/-! ### The whole contract -/

/-- Applying edits is refused exactly when they conflict. Otherwise the output, built from the
end of the file back to its start, is the left-to-right splice of the edits stably sorted by
start and end; the stretches of the original around and between the edits are the original's
bytes that no edit replaces, each once and in order; and edits with equal keys, such as
insertions at one offset, keep their given order. -/
theorem applyEdits_error_iff_conflict_else_splice (original : ByteArray) (es : List TextEdit) :
    ((∃ msg, applyEdits original es = .error msg) ↔ EditsConflict original.size es) ∧
      (¬EditsConflict original.size es →
        applyEdits original es = .ok (spliceEdits original 0 (sortEdits es)) ∧
          (spliceGaps original 0 (sortEdits es)).flatMap (·.data.toList) = keptBytes original es) ∧
      ∀ s t : Int, (sortEdits es).filter (fun e => e.start == s && e.stop == t) =
        es.filter (fun e => e.start == s && e.stop == t) := by
  refine ⟨applyEdits_isError_iff, fun h => ⟨applyEdits_of_not_conflict h, ?_⟩, fun s t => ?_⟩
  · have hnone := (editConflict_sortEdits_eq_none_iff original.size es).mpr h
    obtain ⟨hin, hpw⟩ := (editConflict_eq_none_iff original.size none (sortEdits es)).mp hnone
    rw [Option.toList_none, List.nil_append] at hpw
    rw [spliceGaps_flatMap hin hpw 0 (Nat.zero_le _) (fun e he => (hin e he).1), keptBytes,
      List.range_eq_range', Nat.sub_zero]
    congr 2
    funext k
    exact (sortEdits_perm es).all_eq
  · apply sortEdits_filter_eq
    intro a b ha hb
    simp only [Bool.and_eq_true, beq_iff_eq] at ha hb
    rw [TextEdit.keyLe_iff]
    omega

end DocWeaver
