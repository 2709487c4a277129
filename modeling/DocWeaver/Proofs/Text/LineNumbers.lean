import DocWeaver.Text.LineTable
import Mathlib.Data.List.Count

/-!
Line numbers of byte offsets, as the line table finds them.

The table's starts are zero and one past each line feed, in increasing order, and its halving
search keeps the starts below the range at or before the offset and those above it after it.
So the line of an offset is one more than the number of line feeds before it
(`line_ofBytes`), and a later offset is never on an earlier line.
-/

namespace DocWeaver.Text

/-! ### The starts of the lines -/

theorem foldlM_loop_eq {β : Type} (f : β → UInt8 → β) (src : ByteArray) (stop : Nat)
    (hstop : stop ≤ src.size) :
    ∀ (i j : Nat) (b : β), j + i = stop →
      @ByteArray.foldlM.loop β Id _ (fun b x => pure (f b x)) src stop hstop i j b =
        ((src.data.toList.drop j).take i).foldl f b := by
  intro i
  induction i with
  | zero => intro j b _; rw [ByteArray.foldlM.loop]; split <;> rfl
  | succ i ih =>
    intro j b hji
    rw [ByteArray.foldlM.loop]
    have hj : j < src.data.toList.length := by simp; omega
    rw [dif_pos (by omega), List.drop_eq_getElem_cons hj]
    simp only [List.take_succ_cons, List.foldl_cons]
    rw [← ih (j + 1) _ (by omega)]
    rfl

theorem foldl_bytes {β : Type} (f : β → UInt8 → β) (init : β) (src : ByteArray) :
    src.foldl f init = src.data.toList.foldl f init := by
  simp only [ByteArray.foldl, ByteArray.foldlM, Id.run]
  rw [dif_pos (Nat.le_refl _)]
  rw [foldlM_loop_eq f src src.size (Nat.le_refl _) _ 0 init (by omega)]
  have hlen : src.data.toList.length ≤ src.size := by simp [ByteArray.size_data]
  rw [Nat.sub_zero, List.drop_zero, List.take_of_length_le hlen]

def feedEnds : List UInt8 → Nat → List Nat
  | [], _ => []
  | b :: bs, n => if b = 10 then (n + 1) :: feedEnds bs (n + 1) else feedEnds bs (n + 1)

theorem foldl_starts (bs : List UInt8) (acc : Array Nat) (n : Nat) :
    bs.foldl (fun (acc : Array Nat × Nat) (b : UInt8) =>
        (if b == 10 then acc.1.push (acc.2 + 1) else acc.1, acc.2 + 1)) (acc, n) =
      (acc ++ (feedEnds bs n).toArray, n + bs.length) := by
  induction bs generalizing acc n with
  | nil => simp [feedEnds]
  | cons b bs ih =>
    by_cases hb : b = 10
    · simp only [List.foldl_cons, hb, beq_self_eq_true, if_true]
      rw [ih]
      simp [feedEnds, Nat.add_assoc, Nat.add_comm 1]
    · have hb' : (b == 10) = false := by simpa using hb
      simp only [List.foldl_cons, hb', Bool.false_eq_true, if_false]
      rw [ih]
      simp [feedEnds, hb, Nat.add_assoc, Nat.add_comm 1]

theorem ofBytes_starts (src : ByteArray) :
    (LineTable.ofBytes src).starts.toList = 0 :: feedEnds src.data.toList 0 := by
  rw [LineTable.ofBytes, foldl_bytes, foldl_starts]
  simp

theorem lt_of_mem_feedEnds : ∀ {bs : List UInt8} {n k : Nat}, k ∈ feedEnds bs n → n < k
  | [], _, _, h => nomatch h
  | b :: bs, n, k, h => by
    unfold feedEnds at h
    split at h
    · rcases List.mem_cons.mp h with rfl | h
      · omega
      · have := lt_of_mem_feedEnds h; omega
    · have := lt_of_mem_feedEnds h; omega

theorem feedEnds_sorted : ∀ (bs : List UInt8) (n : Nat), (feedEnds bs n).Pairwise (· < ·)
  | [], _ => List.Pairwise.nil
  | b :: bs, n => by
    unfold feedEnds
    split
    · exact List.Pairwise.cons (fun k hk => lt_of_mem_feedEnds hk) (feedEnds_sorted bs (n + 1))
    · exact feedEnds_sorted bs (n + 1)

theorem length_filter_feedEnds : ∀ (bs : List UInt8) (n offset : Nat),
    ((feedEnds bs n).filter (· ≤ offset)).length = (bs.take (offset - n)).count 10
  | [], _, _ => by simp [feedEnds]
  | b :: bs, n, offset => by
    have ih := length_filter_feedEnds bs (n + 1) offset
    rcases Nat.lt_or_ge n offset with hlt | hge
    · -- the byte `b` at offset `n` is before `offset`
      rw [show offset - n = (offset - (n + 1)) + 1 by omega, List.take_succ_cons]
      by_cases hb : b = 10
      · simp [feedEnds, hb, show n + 1 ≤ offset by omega, ih]
      · simp [feedEnds, hb, ih]
    · -- nothing from `n` on is before `offset`
      rw [show offset - (n + 1) = 0 by omega] at ih
      rw [show offset - n = 0 by omega]
      by_cases hb : b = 10
      · simp [feedEnds, hb, show ¬n + 1 ≤ offset by omega, ih]
      · simp [feedEnds, hb, ih]

/-! ### The halving search -/

namespace LineTable

variable (t : LineTable) (offset : Nat)

def Splits (lo hi : Nat) : Prop :=
  lo ≤ hi ∧ hi ≤ t.starts.size ∧
    (∀ k (h : k < t.starts.size), k < lo → t.starts[k] ≤ offset) ∧
    ∀ k (h : k < t.starts.size), hi ≤ k → offset < t.starts[k]

variable {t offset}

theorem Splits.step (hsorted : t.starts.toList.Pairwise (· ≤ ·)) {lo hi : Nat}
    (h : t.Splits offset lo hi) (hlt : lo < hi) :
    if t.starts.getD (midpoint lo hi) 0 ≤ offset then t.Splits offset (midpoint lo hi + 1) hi
    else t.Splits offset lo (midpoint lo hi) := by
  obtain ⟨hle, hhi, hbelow, habove⟩ := h
  have hm : midpoint lo hi < t.starts.size := by unfold midpoint; omega
  have hget : t.starts.getD (midpoint lo hi) 0 = t.starts[midpoint lo hi] := by
    simp [Array.getD_eq_getD_getElem?, hm]
  have hmono : ∀ i j (hi : i < t.starts.size) (hj : j < t.starts.size), i ≤ j →
      t.starts[i] ≤ t.starts[j] := by
    intro i j hi hj hij
    rcases Nat.lt_or_eq_of_le hij with hij | rfl
    · have := List.pairwise_iff_getElem.mp hsorted i j (by simpa using hi) (by simpa using hj)
        hij
      simpa using this
    · exact Nat.le_refl _
  rw [hget]
  split
  · rename_i hmid
    refine ⟨by unfold midpoint; omega, hhi, fun k hk hkm => ?_, habove⟩
    exact Nat.le_trans (hmono k _ hk hm (by omega)) hmid
  · rename_i hmid
    refine ⟨by unfold midpoint; omega, by omega, hbelow, fun k hk hkm => ?_⟩
    exact Nat.lt_of_lt_of_le (by omega) (hmono _ k hm hk hkm)

theorem Splits.countUpTo (hsorted : t.starts.toList.Pairwise (· ≤ ·)) :
    ∀ {fuel lo hi : Nat}, t.Splits offset lo hi → hi - lo < fuel →
      t.Splits offset (t.countUpTo offset fuel lo hi) (t.countUpTo offset fuel lo hi) := by
  intro fuel lo hi h hfuel
  fun_induction t.countUpTo offset fuel lo hi with
  | case1 lo hi => omega
  | case2 fuel lo hi hlt mid hmid ih =>
    have := h.step hsorted hlt
    rw [if_pos hmid] at this
    exact ih this (by unfold mid midpoint at *; omega)
  | case3 fuel lo hi hlt mid hmid ih =>
    have := h.step hsorted hlt
    rw [if_neg hmid] at this
    exact ih this (by unfold mid midpoint at *; omega)
  | case4 fuel lo hi hge =>
    have heq : lo = hi := by have := h.1; omega
    subst heq
    exact h

theorem Splits.eq_length_filter {r : Nat} (h : t.Splits offset r r) :
    r = (t.starts.toList.filter (· ≤ offset)).length := by
  obtain ⟨-, hr, hbelow, habove⟩ := h
  have htake : (t.starts.toList.take r).filter (· ≤ offset) = t.starts.toList.take r := by
    refine List.filter_eq_self.mpr fun x hx => ?_
    obtain ⟨k, hk, rfl⟩ := List.getElem_of_mem hx
    simp only [List.getElem_take, Array.getElem_toList, decide_eq_true_eq]
    exact hbelow k (by simp at hk; omega) (by simp at hk; omega)
  have hdrop : (t.starts.toList.drop r).filter (· ≤ offset) = [] := by
    refine List.filter_eq_nil_iff.mpr fun x hx => ?_
    obtain ⟨k, hk, rfl⟩ := List.getElem_of_mem hx
    simp only [List.getElem_drop, Array.getElem_toList, decide_eq_true_eq, Nat.not_le]
    exact habove (r + k) (by simp at hk; omega) (by omega)
  rw [← List.take_append_drop r t.starts.toList, List.filter_append, htake, hdrop]
  simp [hr]

theorem line_eq_length_filter (hsorted : t.starts.toList.Pairwise (· ≤ ·)) :
    t.line offset = (t.starts.toList.filter (· ≤ offset)).length := by
  have h0 : t.Splits offset 0 t.starts.size :=
    ⟨Nat.zero_le _, Nat.le_refl _, fun _ _ hk => absurd hk (Nat.not_lt_zero _),
      fun _ hk hle => absurd hk (by omega)⟩
  exact (h0.countUpTo hsorted (by omega)).eq_length_filter

end LineTable

theorem line_ofBytes (src : ByteArray) (offset : Nat) :
    (LineTable.ofBytes src).line offset = 1 + (src.data.toList.take offset).count 10 := by
  have hsorted : (LineTable.ofBytes src).starts.toList.Pairwise (· ≤ ·) := by
    rw [ofBytes_starts]
    refine List.Pairwise.cons (fun k _ => Nat.zero_le k) ?_
    exact (feedEnds_sorted _ 0).imp Nat.le_of_lt
  rw [LineTable.line_eq_length_filter hsorted, ofBytes_starts, List.filter_cons_of_pos (by simp),
    List.length_cons, length_filter_feedEnds, Nat.sub_zero, Nat.add_comm]

theorem line_ofBytes_mono (src : ByteArray) {a b : Nat} (hab : a ≤ b) :
    (LineTable.ofBytes src).line a ≤ (LineTable.ofBytes src).line b := by
  rw [line_ofBytes, line_ofBytes]
  have hsub : (src.data.toList.take a).Sublist (src.data.toList.take b) :=
    (List.take_prefix_take_left hab).sublist
  have := hsub.count_le 10
  omega

end DocWeaver.Text
