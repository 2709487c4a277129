import DocWeaver.Proofs.Extract.DocumentOrder
import Mathlib

/-!
Reading UTF-8 back: the decoder inverts the encoding of text.

One step of the decoder, at the first byte of a character's encoding, gives that character and
its width (`step_utf8EncodeChar`): the lead byte falls in the right range, the continuation bytes
carry the tag `10`, the forms are never overlong nor surrogates, and the payload bits reassemble
the code point. So a text's bytes decode to the text, and the bytes between two of its
characters decode to the characters between (`slice_toUTF8`).
-/

namespace DocWeaver.Text.Utf8

/-! ### Bytes of an encoding -/

theorem or_eq_add {x y k : Nat} (hx : x % 2 ^ k = 0) (hy : y < 2 ^ k) : x ||| y = x + y := by
  have hxk : x = (x / 2 ^ k) <<< k := by
    rw [Nat.shiftLeft_eq, Nat.div_mul_cancel (Nat.dvd_of_mod_eq_zero hx)]
  rw [hxk, ← Nat.shiftLeft_add_eq_or_of_lt hy]

theorem toNat_and_mask (b : UInt8) (k : Nat) (m : UInt8) (hm : m.toNat = 2 ^ k - 1) :
    (b &&& m).toNat = b.toNat % 2 ^ k := by
  rw [UInt8.toNat_and, hm, Nat.and_two_pow_sub_one_eq_mod]

theorem toNat_tagged (v : UInt32) (k : Nat) (m t : UInt8) (hk : k ≤ 8) (hm : m.toNat = 2 ^ k - 1)
    (ht : t.toNat % 2 ^ k = 0) : (v.toUInt8 &&& m ||| t).toNat = t.toNat + v.toNat % 2 ^ k := by
  have hk' : 2 ^ k ∣ 2 ^ 8 := Nat.pow_dvd_pow 2 hk
  rw [UInt8.toNat_or, toNat_and_mask _ k m hm, UInt32.toNat_toUInt8, Nat.mod_mod_of_dvd _ hk',
    Nat.or_comm, or_eq_add ht (Nat.mod_lt _ (Nat.two_pow_pos k))]

theorem toNat_shift (c : Char) (s : UInt32) (hs : s.toNat < 32) :
    (c.val >>> s).toNat = c.toNat / 2 ^ s.toNat := by
  rw [UInt32.toNat_shiftRight, Nat.mod_eq_of_lt hs, Nat.shiftRight_eq_div_pow]; rfl

theorem isCont_of_toNat {b : UInt8} {r : Nat} (h : b.toNat = 0x80 + r) (hr : r < 64) :
    isCont b = true := by
  simp only [isCont, UInt8.le_iff_toNat_le, UInt8.lt_iff_toNat_lt, h, UInt8.reduceToNat,
    Bool.and_eq_true, decide_eq_true_eq]
  omega

theorem toNat_valid (c : Char) : c.toNat < 0xd800 ∨ 0xdfff < c.toNat ∧ c.toNat < 0x110000 := by
  have := c.valid
  simp only [UInt32.isValidChar, Nat.isValidChar] at this
  exact this

/-! ### One step of reading reads one encoded character -/

theorem step_encode_one (c : Char) (h : c.utf8Size = 1) (rest : List UInt8) :
    step c.val.toUInt8 rest = .char c 1 := by
  have hv : c.toNat ≤ 127 := by
    have := Char.utf8Size_eq_one_iff.mp h
    simp only [UInt32.le_iff_toNat_le] at this
    exact this
  have hb : c.val.toUInt8.toNat = c.toNat := by
    rw [UInt32.toNat_toUInt8]; exact Nat.mod_eq_of_lt (by change c.toNat < 256; omega)
  have h1 : c.val.toUInt8 < 0x80 := by
    simp only [UInt8.lt_iff_toNat_lt, hb, UInt8.reduceToNat]; omega
  unfold step
  rw [if_pos h1, hb, Char.ofNat_toNat]

theorem step_encode_two (c : Char) (h : c.utf8Size = 2) (rest : List UInt8) :
    step ((c.val >>> 6).toUInt8 &&& 0x1f ||| 0xc0) ((c.val.toUInt8 &&& 0x3f ||| 0x80) :: rest) =
      .char c 2 := by
  have hv : 127 < c.toNat ∧ c.toNat ≤ 0x7ff := by
    have := Char.utf8Size_eq_two_iff.mp h
    simp only [UInt32.lt_iff_toNat_lt, UInt32.le_iff_toNat_le] at this
    exact this
  have hb0 : ((c.val >>> 6).toUInt8 &&& 0x1f ||| 0xc0).toNat = 0xc0 + c.toNat / 64 % 32 := by
    rw [toNat_tagged _ 5 _ _ (by decide) rfl rfl, toNat_shift c 6 (by decide)]; rfl
  have hb1 : (c.val.toUInt8 &&& 0x3f ||| 0x80).toNat = 0x80 + c.toNat % 64 :=
    toNat_tagged _ 6 _ _ (by decide) rfl rfl
  generalize (c.val >>> 6).toUInt8 &&& 0x1f ||| 0xc0 = b0 at hb0 ⊢
  generalize c.val.toUInt8 &&& 0x3f ||| 0x80 = b1 at hb1 ⊢
  have hlo : (b0 &&& 0x1F).toNat = c.toNat / 64 := by
    rw [toNat_and_mask _ 5 _ rfl, hb0]; omega
  have hhi : (b1 &&& 0x3F).toNat = c.toNat % 64 := by
    rw [toNat_and_mask _ 6 _ rfl, hb1]; omega
  have hval : (c.toNat / 64) <<< 6 ||| c.toNat % 64 = c.toNat := by
    rw [Nat.shiftLeft_eq, or_eq_add (show c.toNat / 64 * 2 ^ 6 % 2 ^ 6 = 0 by simp)
      (show c.toNat % 64 < 2 ^ 6 by omega)]
    omega
  have h1 : ¬b0 < 0x80 := by simp only [UInt8.lt_iff_toNat_lt, hb0, UInt8.reduceToNat]; omega
  have h2 : ¬b0 < 0xC2 := by simp only [UInt8.lt_iff_toNat_lt, hb0, UInt8.reduceToNat]; omega
  have h3 : b0 < 0xE0 := by simp only [UInt8.lt_iff_toNat_lt, hb0, UInt8.reduceToNat]; omega
  have h4 : isCont b1 = true := isCont_of_toNat hb1 (by omega)
  unfold step
  rw [if_neg h1, if_neg h2, if_pos h3]
  simp only [h4, if_true, hlo, hhi, hval, Char.ofNat_toNat]

theorem step_encode_three (c : Char) (h : c.utf8Size = 3) (rest : List UInt8) :
    step ((c.val >>> 12).toUInt8 &&& 0x0f ||| 0xe0)
      (((c.val >>> 6).toUInt8 &&& 0x3f ||| 0x80) :: (c.val.toUInt8 &&& 0x3f ||| 0x80) :: rest) =
      .char c 3 := by
  have hv : 0x7ff < c.toNat ∧ c.toNat ≤ 0xffff := by
    have := Char.utf8Size_eq_three_iff.mp h
    simp only [UInt32.lt_iff_toNat_lt, UInt32.le_iff_toNat_le] at this
    exact this
  have hvalid := toNat_valid c
  have hb0 : ((c.val >>> 12).toUInt8 &&& 0x0f ||| 0xe0).toNat = 0xe0 + c.toNat / 4096 % 16 := by
    rw [toNat_tagged _ 4 _ _ (by decide) rfl rfl, toNat_shift c 12 (by decide)]; rfl
  have hb1 : ((c.val >>> 6).toUInt8 &&& 0x3f ||| 0x80).toNat = 0x80 + c.toNat / 64 % 64 := by
    rw [toNat_tagged _ 6 _ _ (by decide) rfl rfl, toNat_shift c 6 (by decide)]; rfl
  have hb2 : (c.val.toUInt8 &&& 0x3f ||| 0x80).toNat = 0x80 + c.toNat % 64 :=
    toNat_tagged _ 6 _ _ (by decide) rfl rfl
  generalize (c.val >>> 12).toUInt8 &&& 0x0f ||| 0xe0 = b0 at hb0 ⊢
  generalize (c.val >>> 6).toUInt8 &&& 0x3f ||| 0x80 = b1 at hb1 ⊢
  generalize c.val.toUInt8 &&& 0x3f ||| 0x80 = b2 at hb2 ⊢
  have h1 : ¬b0 < 0x80 := by simp only [UInt8.lt_iff_toNat_lt, hb0, UInt8.reduceToNat]; omega
  have h2 : ¬b0 < 0xC2 := by simp only [UInt8.lt_iff_toNat_lt, hb0, UInt8.reduceToNat]; omega
  have h3 : ¬b0 < 0xE0 := by simp only [UInt8.lt_iff_toNat_lt, hb0, UInt8.reduceToNat]; omega
  have h4 : b0 < 0xF0 := by simp only [UInt8.lt_iff_toNat_lt, hb0, UInt8.reduceToNat]; omega
  have hsecond :
      (isCont b1 && !(b0 == 0xE0 && b1 < 0xA0) && !(b0 == 0xED && b1 ≥ 0xA0)) = true := by
    simp only [isCont, UInt8.le_iff_toNat_le, UInt8.lt_iff_toNat_lt, hb1, UInt8.reduceToNat,
      Bool.and_eq_true, Bool.not_eq_true', Bool.and_eq_false_iff, decide_eq_true_eq,
      decide_eq_false_iff_not, beq_eq_false_iff_ne, ne_eq, ← UInt8.toNat_inj, hb0]
    omega
  have hcont : isCont b2 = true := isCont_of_toNat hb2 (by omega)
  have hval : (b0 &&& 0x0F).toNat <<< 12 ||| (b1 &&& 0x3F).toNat <<< 6 ||| (b2 &&& 0x3F).toNat =
      c.toNat := by
    rw [toNat_and_mask _ 4 _ rfl, toNat_and_mask _ 6 _ rfl, toNat_and_mask _ 6 _ rfl, hb0, hb1, hb2,
      Nat.shiftLeft_eq, Nat.shiftLeft_eq,
      or_eq_add (show (0xe0 + c.toNat / 4096 % 16) % 2 ^ 4 * 2 ^ 12 % 2 ^ 12 = 0 by simp)
        (show (0x80 + c.toNat / 64 % 64) % 2 ^ 6 * 2 ^ 6 < 2 ^ 12 by omega),
      or_eq_add (show ((0xe0 + c.toNat / 4096 % 16) % 2 ^ 4 * 2 ^ 12 +
        (0x80 + c.toNat / 64 % 64) % 2 ^ 6 * 2 ^ 6) % 2 ^ 6 = 0 by omega)
        (show (0x80 + c.toNat % 64) % 2 ^ 6 < 2 ^ 6 by omega)]
    omega
  unfold step
  rw [if_neg h1, if_neg h2, if_neg h3, if_pos h4]
  simp only [hsecond, hcont, Bool.not_true, Bool.false_eq_true, if_false, hval, Char.ofNat_toNat]

theorem step_encode_four (c : Char) (h : c.utf8Size = 4) (rest : List UInt8) :
    step ((c.val >>> 18).toUInt8 &&& 0x07 ||| 0xf0)
      (((c.val >>> 12).toUInt8 &&& 0x3f ||| 0x80) :: ((c.val >>> 6).toUInt8 &&& 0x3f ||| 0x80) ::
        (c.val.toUInt8 &&& 0x3f ||| 0x80) :: rest) = .char c 4 := by
  have hv : 0xffff < c.toNat := by
    have := Char.utf8Size_eq_four_iff.mp h
    simp only [UInt32.lt_iff_toNat_lt] at this
    exact this
  have hvalid := toNat_valid c
  have hb0 : ((c.val >>> 18).toUInt8 &&& 0x07 ||| 0xf0).toNat = 0xf0 + c.toNat / 2 ^ 18 % 8 := by
    rw [toNat_tagged _ 3 _ _ (by decide) rfl rfl, toNat_shift c 18 (by decide)]; rfl
  have hb1 : ((c.val >>> 12).toUInt8 &&& 0x3f ||| 0x80).toNat = 0x80 + c.toNat / 4096 % 64 := by
    rw [toNat_tagged _ 6 _ _ (by decide) rfl rfl, toNat_shift c 12 (by decide)]; rfl
  have hb2 : ((c.val >>> 6).toUInt8 &&& 0x3f ||| 0x80).toNat = 0x80 + c.toNat / 64 % 64 := by
    rw [toNat_tagged _ 6 _ _ (by decide) rfl rfl, toNat_shift c 6 (by decide)]; rfl
  have hb3 : (c.val.toUInt8 &&& 0x3f ||| 0x80).toNat = 0x80 + c.toNat % 64 :=
    toNat_tagged _ 6 _ _ (by decide) rfl rfl
  generalize (c.val >>> 18).toUInt8 &&& 0x07 ||| 0xf0 = b0 at hb0 ⊢
  generalize (c.val >>> 12).toUInt8 &&& 0x3f ||| 0x80 = b1 at hb1 ⊢
  generalize (c.val >>> 6).toUInt8 &&& 0x3f ||| 0x80 = b2 at hb2 ⊢
  generalize c.val.toUInt8 &&& 0x3f ||| 0x80 = b3 at hb3 ⊢
  have h1 : ¬b0 < 0x80 := by simp only [UInt8.lt_iff_toNat_lt, hb0, UInt8.reduceToNat]; omega
  have h2 : ¬b0 < 0xC2 := by simp only [UInt8.lt_iff_toNat_lt, hb0, UInt8.reduceToNat]; omega
  have h3 : ¬b0 < 0xE0 := by simp only [UInt8.lt_iff_toNat_lt, hb0, UInt8.reduceToNat]; omega
  have h4 : ¬b0 < 0xF0 := by simp only [UInt8.lt_iff_toNat_lt, hb0, UInt8.reduceToNat]; omega
  have h5 : b0 < 0xF5 := by simp only [UInt8.lt_iff_toNat_lt, hb0, UInt8.reduceToNat]; omega
  have hsecond :
      (isCont b1 && !(b0 == 0xF0 && b1 < 0x90) && !(b0 == 0xF4 && b1 ≥ 0x90)) = true := by
    simp only [isCont, UInt8.le_iff_toNat_le, UInt8.lt_iff_toNat_lt, hb1, UInt8.reduceToNat,
      Bool.and_eq_true, Bool.not_eq_true', Bool.and_eq_false_iff, decide_eq_true_eq,
      decide_eq_false_iff_not, beq_eq_false_iff_ne, ne_eq, ← UInt8.toNat_inj, hb0]
    omega
  have hcont : isCont b2 = true ∧ isCont b3 = true :=
    ⟨isCont_of_toNat hb2 (by omega), isCont_of_toNat hb3 (by omega)⟩
  have hval : (b0 &&& 0x07).toNat <<< 18 ||| (b1 &&& 0x3F).toNat <<< 12 |||
      (b2 &&& 0x3F).toNat <<< 6 ||| (b3 &&& 0x3F).toNat = c.toNat := by
    rw [toNat_and_mask _ 3 _ rfl, toNat_and_mask _ 6 _ rfl, toNat_and_mask _ 6 _ rfl,
      toNat_and_mask _ 6 _ rfl, hb0, hb1, hb2, hb3, Nat.shiftLeft_eq, Nat.shiftLeft_eq,
      Nat.shiftLeft_eq]
    generalize hx : (0xf0 + c.toNat / 2 ^ 18 % 8) % 2 ^ 3 = x
    generalize hy : (0x80 + c.toNat / 4096 % 64) % 2 ^ 6 = y
    generalize hz : (0x80 + c.toNat / 64 % 64) % 2 ^ 6 = z
    generalize hw : (0x80 + c.toNat % 64) % 2 ^ 6 = w
    rw [or_eq_add (show x * 2 ^ 18 % 2 ^ 18 = 0 by omega) (show y * 2 ^ 12 < 2 ^ 18 by omega),
      or_eq_add (show (x * 2 ^ 18 + y * 2 ^ 12) % 2 ^ 12 = 0 by omega)
        (show z * 2 ^ 6 < 2 ^ 12 by omega),
      or_eq_add (show (x * 2 ^ 18 + y * 2 ^ 12 + z * 2 ^ 6) % 2 ^ 6 = 0 by omega)
        (show w < 2 ^ 6 by omega)]
    omega
  unfold step
  rw [if_neg h1, if_neg h2, if_neg h3, if_neg h4, if_pos h5]
  simp only [hsecond, hcont, Bool.not_true, Bool.false_eq_true, if_false, hval, Char.ofNat_toNat]

/-! ### Decoding encoded text -/

theorem step_utf8EncodeChar {c : Char} {b : UInt8} {bs : List UInt8}
    (h : String.utf8EncodeChar c = b :: bs) (rest : List UInt8) :
    step b (bs ++ rest) = .char c c.utf8Size := by
  rcases Char.utf8Size_eq c with h1 | h2 | h3 | h4
  · rw [String.utf8EncodeChar_eq_singleton h1] at h
    obtain ⟨rfl, rfl⟩ := List.cons_eq_cons.mp h
    rw [h1]; exact step_encode_one c h1 rest
  · rw [String.utf8EncodeChar_eq_cons_cons h2] at h
    obtain ⟨rfl, rfl⟩ := List.cons_eq_cons.mp h
    rw [h2]; exact step_encode_two c h2 rest
  · rw [String.utf8EncodeChar_eq_cons_cons_cons h3] at h
    obtain ⟨rfl, rfl⟩ := List.cons_eq_cons.mp h
    rw [h3]; exact step_encode_three c h3 rest
  · rw [String.utf8EncodeChar_eq_cons_cons_cons_cons h4] at h
    obtain ⟨rfl, rfl⟩ := List.cons_eq_cons.mp h
    rw [h4]; exact step_encode_four c h4 rest

theorem decodeAux_flatMap_utf8EncodeChar (cs : List Char) :
    ∀ (pos : Nat) (acc : List Char) (fuel : Nat), cs.length ≤ fuel →
      decodeAux pos acc fuel (cs.flatMap String.utf8EncodeChar) = .ok (acc.reverse ++ cs) := by
  induction cs with
  | nil => intro pos acc fuel _; cases fuel <;> simp [decodeAux]
  | cons c cs ih =>
    intro pos acc fuel hfuel
    obtain ⟨fuel, rfl⟩ : ∃ f, fuel = f + 1 := ⟨fuel - 1, by simp at hfuel; omega⟩
    obtain ⟨b, bs, hbs⟩ : ∃ b bs, String.utf8EncodeChar c = b :: bs := by
      cases h : String.utf8EncodeChar c with
      | nil =>
        have := String.length_utf8EncodeChar c
        rw [h] at this
        have := c.utf8Size_pos
        simp_all
      | cons b bs => exact ⟨b, bs, rfl⟩
    have hlen : bs.length = c.utf8Size - 1 := by
      have := String.length_utf8EncodeChar c; rw [hbs] at this; simp at this; omega
    rw [List.flatMap_cons, hbs, List.cons_append, decodeAux, step_utf8EncodeChar hbs]
    dsimp only
    rw [← hlen, List.drop_left, ih _ _ _ (by simp at hfuel; omega)]
    simp

@[simp] theorem toList_utf8Encode (cs : List Char) :
    cs.utf8Encode.toList = cs.flatMap String.utf8EncodeChar := by
  simp [List.utf8Encode]

theorem length_flatMap_utf8EncodeChar (cs : List Char) :
    (cs.flatMap String.utf8EncodeChar).length = (String.ofList cs).utf8ByteSize := by
  rw [← String.size_toByteArray, String.toByteArray_ofList, ← ByteArray.size_data,
    ← Array.length_toList, ← toList_bytes, toList_utf8Encode]

theorem length_le_utf8ByteSize (cs : List Char) :
    cs.length ≤ (String.ofList cs).utf8ByteSize := by
  rw [← length_flatMap_utf8EncodeChar, List.length_flatMap]
  induction cs with
  | nil => exact Nat.le_refl 0
  | cons c cs ih =>
    have := c.utf8Size_pos
    simp only [List.length_cons, List.map_cons, List.sum_cons, String.length_utf8EncodeChar]
      at ih ⊢
    omega

theorem decode_utf8Encode (cs : List Char) : decode cs.utf8Encode = .ok (String.ofList cs) := by
  have hsize : cs.length ≤ cs.utf8Encode.size := by
    rw [← String.toByteArray_ofList, String.size_toByteArray]
    exact length_le_utf8ByteSize cs
  rw [decode, toList_utf8Encode, decodeAux_flatMap_utf8EncodeChar cs 0 [] _ hsize]
  rfl

theorem extract_utf8Encode (cs : List Char) {i j : Nat} (hij : i ≤ j) :
    cs.utf8Encode.extract (String.ofList (cs.take i)).utf8ByteSize
        (String.ofList (cs.take j)).utf8ByteSize = ((cs.drop i).take (j - i)).utf8Encode := by
  have hsplit : cs.take j = cs.take i ++ (cs.drop i).take (j - i) := by
    rw [← List.take_add, Nat.add_sub_cancel' hij]
  apply ByteArray.ext
  apply Array.toList_inj.mp
  rw [ByteArray.data_extract, Array.toList_extract, ← toList_bytes, ← toList_bytes,
    toList_utf8Encode, toList_utf8Encode, hsplit, ← length_flatMap_utf8EncodeChar,
    ← length_flatMap_utf8EncodeChar, List.flatMap_append, List.length_append, List.extract,
    Nat.add_sub_cancel_left]
  have hcs : cs.flatMap String.utf8EncodeChar = (cs.take i).flatMap String.utf8EncodeChar ++
      (((cs.drop i).take (j - i)).flatMap String.utf8EncodeChar ++
        ((cs.drop i).drop (j - i)).flatMap String.utf8EncodeChar) := by
    rw [← List.flatMap_append, List.take_append_drop, ← List.flatMap_append,
      List.take_append_drop]
  rw [hcs, List.drop_left, List.take_left]

theorem toUTF8_eq_utf8Encode (text : String) : text.toUTF8 = text.toList.utf8Encode := by
  rw [← String.toByteArray_ofList, String.ofList_toList]; rfl

theorem slice_toUTF8 (text : String) {i j : Nat} (hij : i ≤ j) :
    slice text.toUTF8 (String.ofList (text.toList.take i)).utf8ByteSize
        (String.ofList (text.toList.take j)).utf8ByteSize =
      String.ofList ((text.toList.drop i).take (j - i)) := by
  rw [slice, toUTF8_eq_utf8Encode, extract_utf8Encode _ hij, decode_utf8Encode]

end DocWeaver.Text.Utf8
