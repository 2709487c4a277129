import DocWeaver.Proofs.Text.Utf8RoundTrip

/-!
ASCII bytes in UTF-8 text.

UTF-8 writes a character below 128 as that one byte and every other character as bytes from 128
up. So a byte below 128 among the bytes of a text is a whole character of it, and counting such a
byte in the bytes counts its character in the text (`count_flatMap_utf8EncodeChar`).
-/

namespace DocWeaver.Text.Utf8

theorem data_toList_toUTF8 (text : String) :
    text.toUTF8.data.toList = text.toList.flatMap String.utf8EncodeChar := by
  rw [toUTF8_eq_utf8Encode, ← toList_bytes, toList_utf8Encode]

theorem utf8EncodeChar_of_lt {c : Char} (h : c.toNat < 128) :
    String.utf8EncodeChar c = [c.toUInt8] := by
  have hsize : c.utf8Size = 1 := by
    rw [Char.utf8Size_eq_one_iff, UInt32.le_iff_toNat_le]
    change c.toNat ≤ 127
    omega
  rw [String.utf8EncodeChar_eq_singleton hsize, Char.toUInt8_val]

theorem lt_of_mem_utf8EncodeChar {c : Char} {b : UInt8} (hb : b ∈ String.utf8EncodeChar c)
    (hlt : b.toNat < 128) : c.toNat < 128 := by
  have hv : c.toNat = c.val.toNat := rfl
  unfold String.utf8EncodeChar at hb
  simp only at hb
  split_ifs at hb with h1 h2 h3
  · omega
  -- each byte of a longer encoding is a tagged value of at least 128
  all_goals
    simp only [List.mem_cons, List.not_mem_nil, or_false] at hb
    rcases hb with rfl | rfl | rfl | rfl
  all_goals simp [UInt8.toNat_ofNat] at hlt
  all_goals omega

theorem toNat_ofNat_of_lt {n : Nat} (h : n < 128) : (Char.ofNat n).toNat = n := by
  simp [Char.toNat_ofNat]
  omega

theorem toNat_toUInt8 {c : Char} (h : c.toNat < 128) : c.toUInt8.toNat = c.toNat := by
  rw [← Char.toUInt8_val, UInt32.toNat_toUInt8]
  change c.toNat % 256 = c.toNat
  omega

theorem toUInt8_ofNat {b : UInt8} (hlt : b.toNat < 128) : (Char.ofNat b.toNat).toUInt8 = b := by
  have hcode := toNat_ofNat_of_lt hlt
  apply UInt8.toNat_inj.mp
  rw [toNat_toUInt8 (by rw [hcode]; exact hlt), hcode]

theorem eq_ofNat_of_mem_utf8EncodeChar {c : Char} {b : UInt8}
    (hb : b ∈ String.utf8EncodeChar c) (hlt : b.toNat < 128) :
    String.utf8EncodeChar c = [b] ∧ c = Char.ofNat b.toNat := by
  have hc := lt_of_mem_utf8EncodeChar hb hlt
  rw [utf8EncodeChar_of_lt hc, List.mem_singleton] at hb
  subst hb
  rw [toNat_toUInt8 hc, Char.ofNat_toNat]
  exact ⟨utf8EncodeChar_of_lt hc, rfl⟩

theorem count_utf8EncodeChar (c : Char) {b : UInt8} (hlt : b.toNat < 128) :
    (String.utf8EncodeChar c).count b = if c = Char.ofNat b.toNat then 1 else 0 := by
  by_cases hmem : b ∈ String.utf8EncodeChar c
  · obtain ⟨henc, hc⟩ := eq_ofNat_of_mem_utf8EncodeChar hmem hlt
    rw [henc, List.count_singleton_self, if_pos hc]
  · have hne : c ≠ Char.ofNat b.toNat := by
      rintro rfl
      apply hmem
      rw [utf8EncodeChar_of_lt ((toNat_ofNat_of_lt hlt).symm ▸ hlt), toUInt8_ofNat hlt]
      exact List.mem_singleton_self b
    rw [List.count_eq_zero.mpr hmem, if_neg hne]

theorem count_flatMap_utf8EncodeChar (cs : List Char) {b : UInt8} (hlt : b.toNat < 128) :
    (cs.flatMap String.utf8EncodeChar).count b = cs.count (Char.ofNat b.toNat) := by
  induction cs with
  | nil => rfl
  | cons c cs ih =>
    rw [List.flatMap_cons, List.count_append, ih, count_utf8EncodeChar c hlt, List.count_cons]
    by_cases hc : c = Char.ofNat b.toNat <;> simp [hc]; omega

theorem count_dropLast_flatMap_utf8EncodeChar (cs : List Char) {b : UInt8} (hlt : b.toNat < 128) :
    (cs.flatMap String.utf8EncodeChar).dropLast.count b = cs.dropLast.count (Char.ofNat b.toNat) := by
  rcases List.eq_nil_or_concat cs with rfl | ⟨cs, x, rfl⟩
  · rfl
  rw [List.concat_eq_append]
  have hlast : ((String.utf8EncodeChar x).dropLast).count b = 0 := by
    apply List.count_eq_zero.mpr
    intro hmem
    obtain ⟨henc, -⟩ := eq_ofNat_of_mem_utf8EncodeChar (List.mem_of_mem_dropLast hmem) hlt
    rw [henc] at hmem
    simp at hmem
  rw [List.flatMap_append, List.flatMap_singleton,
    List.dropLast_append_of_ne_nil String.utf8EncodeChar_ne_nil,
    List.count_append, hlast, count_flatMap_utf8EncodeChar cs hlt, List.dropLast_concat]
  rfl

theorem flatMap_utf8EncodeChar_eq_append_cons {cs : List Char} {A B : List UInt8} {b : UInt8}
    (h : cs.flatMap String.utf8EncodeChar = A ++ b :: B) (hlt : b.toNat < 128) :
    ∃ a r, cs = a ++ Char.ofNat b.toNat :: r ∧ A = a.flatMap String.utf8EncodeChar ∧
      B = r.flatMap String.utf8EncodeChar := by
  induction cs generalizing A with
  | nil => simp at h
  | cons c cs ih =>
    rw [List.flatMap_cons, List.append_eq_append_iff] at h
    rcases h with ⟨A', rfl, hrest⟩ | ⟨C, henc, hB⟩
    · -- the byte lies past the first character
      obtain ⟨a, r, rfl, rfl, rfl⟩ := ih hrest
      exact ⟨c :: a, r, rfl, by rw [List.flatMap_cons], rfl⟩
    · cases C with
      | nil =>
        rw [List.nil_append] at hB
        obtain ⟨a, r, rfl, ha, rfl⟩ := ih (A := []) hB.symm
        rw [List.append_nil] at henc
        exact ⟨c :: a, r, rfl, by rw [List.flatMap_cons, ← ha, List.append_nil, henc], rfl⟩
      | cons b' C =>
        -- the byte lies in the first character's encoding, which is that byte alone
        obtain ⟨rfl, rfl⟩ := List.cons_eq_cons.mp hB
        have hmem : b ∈ String.utf8EncodeChar c := by rw [henc]; simp
        obtain ⟨hone, rfl⟩ := eq_ofNat_of_mem_utf8EncodeChar hmem hlt
        rw [hone] at henc
        obtain ⟨rfl, rfl⟩ : A = [] ∧ C = [] := by
          cases A with
          | nil => simpa using henc
          | cons x A => simp at henc
        exact ⟨[], cs, rfl, rfl, rfl⟩

end DocWeaver.Text.Utf8
