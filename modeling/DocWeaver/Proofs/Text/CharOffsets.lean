import DocWeaver.Proofs.Text.Utf8RoundTrip
import Mathlib.Data.List.DropRight
import Mathlib.Data.String.Basic

/-!
Character offsets of a text, and the trimmed end of a stretch of it.

The `k`-th character of a text starts at the byte offset `charOffset text k` of its encoding, and
offsets grow with the characters. A stretch between two character offsets that starts with a
character that is not blank keeps at least that character when its blank end is trimmed, and the
trimmed stretch is again the stretch up to a character offset, no later than the first one's end
(`stripEnd_slice`).
-/

open String

namespace DocWeaver.Text

def charOffset (text : String) (k : Nat) : Nat := utf8Len (text.toList.take k)

theorem charOffset_eq_utf8ByteSize (text : String) (k : Nat) :
    charOffset text k = (String.ofList (text.toList.take k)).utf8ByteSize :=
  (utf8ByteSize_ofList _).symm

theorem charOffset_add (text : String) (i k : Nat) :
    charOffset text (i + k) = charOffset text i + utf8Len ((text.toList.drop i).take k) := by
  rw [charOffset, charOffset, List.take_add, utf8Len_append]

theorem charOffset_lt_charOffset {text : String} {i j : Nat} (hij : i < j) (hj : j ≤ text.length) :
    charOffset text i < charOffset text j := by
  obtain ⟨k, rfl⟩ := Nat.exists_eq_add_of_lt hij
  have hne : (text.toList.drop i).take (k + 1) ≠ [] := by
    simp only [ne_eq, List.take_eq_nil_iff, List.drop_eq_nil_iff, String.length_toList]
    omega
  have hpos := utf8Len_eq_zero.not.mpr hne
  rw [Nat.add_assoc, charOffset_add]
  omega

theorem charOffset_mono (text : String) {i j : Nat} (hij : i ≤ j) :
    charOffset text i ≤ charOffset text j := by
  obtain ⟨k, rfl⟩ := Nat.exists_eq_add_of_le hij
  rw [charOffset_add]
  omega

theorem trimEnd_eq_rdropWhile (l : List Char) : trimEnd l = l.rdropWhile isBlank := rfl

theorem isBlank_getLast_trimEnd (l : List Char) : ∀ c ∈ (trimEnd l).getLast?, isBlank c = false := by
  intro c hc
  have hne : trimEnd l ≠ [] := by rintro h; simp [h] at hc
  rw [List.getLast?_eq_some_getLast hne, Option.mem_some_iff] at hc
  subst hc
  exact Bool.eq_false_iff.mpr (List.rdropWhile_last_not isBlank l hne)

theorem trimEnd_cons_ne_nil {c : Char} (hc : isBlank c = false) (l : List Char) :
    trimEnd (c :: l) ≠ [] := by
  rw [trimEnd_eq_rdropWhile, ne_eq, List.rdropWhile_eq_nil_iff]
  intro h
  simp [h c List.mem_cons_self] at hc

theorem stripEnd_slice (text : String) {i j : Nat} (hij : i < j) (hj : j ≤ text.length)
    (hc : isBlank (text.toList.getD i ' ') = false) :
    ∃ k, 0 < k ∧ k ≤ j - i ∧
      charOffset text i + (stripEnd (Utf8.slice text.toUTF8 (charOffset text i)
          (charOffset text j))).utf8ByteSize = charOffset text (i + k) ∧
      Utf8.slice text.toUTF8 (charOffset text i) (charOffset text (i + k)) =
        stripEnd (Utf8.slice text.toUTF8 (charOffset text i) (charOffset text j)) := by
  have hslice : ∀ j', i ≤ j' → Utf8.slice text.toUTF8 (charOffset text i) (charOffset text j') =
      String.ofList ((text.toList.drop i).take (j' - i)) := fun j' hj' => by
    rw [charOffset_eq_utf8ByteSize, charOffset_eq_utf8ByteSize, Utf8.slice_toUTF8 text hj']
  obtain ⟨seg, hseg⟩ : ∃ seg, seg = (text.toList.drop i).take (j - i) := ⟨_, rfl⟩
  have hlen : seg.length = j - i := by
    rw [hseg, List.length_take, List.length_drop, String.length_toList]; omega
  have hne : trimEnd seg ≠ [] := by
    have hi : i < text.toList.length := by rw [String.length_toList]; omega
    rw [hseg, List.drop_eq_getElem_cons hi, show j - i = (j - i - 1) + 1 by omega,
      List.take_succ_cons]
    rw [List.getD_eq_getElem?_getD, List.getElem?_eq_getElem hi, Option.getD_some] at hc
    exact trimEnd_cons_ne_nil hc _
  -- trimming keeps a prefix of the stretch, which is the stretch to an earlier offset
  have hpre : trimEnd seg <+: seg := List.rdropWhile_prefix isBlank seg
  have hk : (trimEnd seg).length ≤ j - i := hlen ▸ hpre.length_le
  have htake : (text.toList.drop i).take (trimEnd seg).length = trimEnd seg := by
    have hshort : seg.take (trimEnd seg).length = (text.toList.drop i).take (trimEnd seg).length := by
      rw [hseg, List.take_take, Nat.min_eq_left (hseg ▸ hk)]
    rw [← hshort, ← List.prefix_iff_eq_take.mp hpre]
  have hstrip : stripEnd (String.ofList seg) = String.ofList (trimEnd seg) := by
    rw [stripEnd, String.toList_ofList]
  refine ⟨(trimEnd seg).length, List.length_pos_of_ne_nil hne, hk, ?_, ?_⟩
  · rw [hslice j hij.le, ← hseg, hstrip, utf8ByteSize_ofList, charOffset_add, htake]
  · rw [hslice j hij.le, hslice _ (Nat.le_add_right i _), Nat.add_sub_cancel_left, htake, ← hseg,
      hstrip]

end DocWeaver.Text
