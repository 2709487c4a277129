import DocWeaver.Proofs.Patch.Disjoint
import DocWeaver.Proofs.Text.AsciiBytes
import DocWeaver.Proofs.Text.CharOffsets

/-!
Splicing text at character boundaries.

An edit whose two ends fall where characters of a text start replaces whole characters. Edits of
that kind, apart from each other, splice the encoding of a text into the encoding of the
stretches of the text between them and their replacements, one after another, so the patch
decodes. Any property of character lists that holds of two lists joined when it holds of each,
and holds of every stretch of the text from an edit's end and of every replacement, holds of
the patched text (`applyPatch_changed_of_onChars`).
-/

namespace DocWeaver

open DocWeaver.Text

/-! ### Character offsets and bytes -/

theorem charOffset_eq_length_flatMap (text : String) (k : Nat) :
    charOffset text k = ((text.toList.take k).flatMap String.utf8EncodeChar).length := by
  rw [charOffset_eq_utf8ByteSize, Utf8.length_flatMap_utf8EncodeChar]

theorem charOffset_length (text : String) : charOffset text text.length = text.toUTF8.size := by
  rw [charOffset_eq_length_flatMap, ← String.length_toList, List.take_length,
    ← Utf8.data_toList_toUTF8, Array.length_toList, ByteArray.size_data]

theorem extract_charOffset (text : String) {i j : Nat} (hij : i ≤ j) :
    text.toUTF8.extract (charOffset text i) (charOffset text j) =
      ((text.toList.drop i).take (j - i)).utf8Encode := by
  rw [charOffset_eq_utf8ByteSize, charOffset_eq_utf8ByteSize, Utf8.toUTF8_eq_utf8Encode,
    Utf8.extract_utf8Encode _ hij]

theorem getElem?_eq_data_toList (bs : ByteArray) (p : Nat) : bs[p]? = bs.data.toList[p]? := by
  by_cases h : p < bs.size
  · simp [h, ByteArray.getElem_eq_getElem_data]
  · simp [h]

theorem exists_charOffset_of_ascii {text : String} {p : Nat} {b : UInt8}
    (h : text.toUTF8[p]? = some b) (hlt : b.toNat < 128) :
    ∃ k < text.length, charOffset text k = p ∧ charOffset text (k + 1) = p + 1 ∧
      text.toList.getD k ' ' = Char.ofNat b.toNat := by
  rw [getElem?_eq_data_toList] at h
  obtain ⟨hlen, hb⟩ := List.getElem?_eq_some_iff.mp h
  have hsplit : text.toList.flatMap String.utf8EncodeChar =
      text.toUTF8.data.toList.take p ++ b :: text.toUTF8.data.toList.drop (p + 1) := by
    rw [← Utf8.data_toList_toUTF8, ← hb, List.getElem_cons_drop, List.take_append_drop]
  obtain ⟨a, r, hcs, hA, -⟩ := Utf8.flatMap_utf8EncodeChar_eq_append_cons hsplit hlt
  have hA' : (a.flatMap String.utf8EncodeChar).length = p := by
    rw [← hA, List.length_take]
    omega
  have hone : String.utf8EncodeChar (Char.ofNat b.toNat) = [b] := by
    rw [Utf8.utf8EncodeChar_of_lt ((Utf8.toNat_ofNat_of_lt hlt).symm ▸ hlt), Utf8.toUInt8_ofNat hlt]
  refine ⟨a.length, ?_, ?_, ?_, ?_⟩
  · rw [← String.length_toList, hcs]
    simp
  · rw [charOffset_eq_length_flatMap, hcs, List.take_left, hA']
  · rw [charOffset_eq_length_flatMap, hcs, List.take_add_one, List.take_left]
    simp [List.flatMap_append, hA', hone]
  · rw [hcs]
    simp

/-! ### Edits that replace whole characters -/

/-- An edit of `text` that replaces whole characters: it starts where a character starts, and
stops where one starts from which every stretch of the text satisfies `G`; its replacement
satisfies `G` too. -/
structure TextEdit.OnChars (text : String) (G : List Char → Prop) (e : TextEdit) : Prop where
  start : ∃ k ≤ text.length, charOffset text k = e.start.toNat
  stop : ∃ k ≤ text.length, charOffset text k = e.stop.toNat ∧ ∀ j, G ((text.toList.drop k).take j)
  replacement : G e.replacement.toList

section Splice

variable {text : String} {G : List Char → Prop}

theorem spliceEdits_eq_utf8Encode (happend : ∀ a b, G a → G b → G (a ++ b)) :
    ∀ (es : List TextEdit) (k : Nat), k ≤ text.length → (∀ j, G ((text.toList.drop k).take j)) →
      (∀ e ∈ es, e.InBounds text.toUTF8.size ∧ e.OnChars text G) →
      es.Pairwise (fun a b => a.stop ≤ b.start) → (∀ e ∈ es, (charOffset text k : Int) ≤ e.start) →
      ∃ cs, spliceEdits text.toUTF8 (charOffset text k) es = cs.utf8Encode ∧ G cs := by
  intro es
  induction es with
  | nil =>
    intro k hk hgap _ _ _
    refine ⟨(text.toList.drop k).take (text.length - k), ?_, hgap _⟩
    rw [spliceEdits, ← charOffset_length, extract_charOffset text hk]
  | cons e es ih =>
    intro k hk hgap hedits hpw hafter
    obtain ⟨⟨h0, hse, hsize⟩, ⟨ks, hks, hstart⟩, ⟨kt, hkt, hstop, hgap'⟩, hrepl⟩ :=
      hedits e List.mem_cons_self
    have hle : k ≤ ks := by
      by_contra hlt
      have := charOffset_lt_charOffset (Nat.lt_of_not_le hlt) hk
      have := hafter e List.mem_cons_self
      omega
    have hlater : ∀ x ∈ es, e.stop ≤ x.start := fun x hx => List.rel_of_pairwise_cons hpw hx
    obtain ⟨cs, hcs, hG⟩ := ih kt hkt hgap' (fun x hx => hedits x (List.mem_cons_of_mem e hx))
      hpw.of_cons (fun x hx => by have := hlater x hx; omega)
    refine ⟨(text.toList.drop k).take (ks - k) ++ e.replacement.toList ++ cs, ?_,
      happend _ _ (happend _ _ (hgap _) hrepl) hG⟩
    rw [spliceEdits, ← hstart, ← hstop, hcs, extract_charOffset text hle, List.utf8Encode_append,
      List.utf8Encode_append, ← Utf8.toUTF8_eq_utf8Encode]

theorem applyPatch_changed_of_onChars (happend : ∀ a b, G a → G b → G (a ++ b))
    {source : SourceFile} {p : Patch} (hconflict : ¬EditsConflict source.data.size p.edits)
    (hne : p.edits ≠ []) (hstart : ∀ j, G (source.text.toList.take j))
    (hedits : ∀ e ∈ p.edits, e.OnChars source.text G) :
    ∃ cs, applyPatch source p = .ok (.changed { source with text := String.ofList cs }) ∧ G cs := by
  have hnone := (editConflict_sortEdits_eq_none_iff source.data.size p.edits).mpr hconflict
  obtain ⟨hin, hpw⟩ := (editConflict_eq_none_iff source.data.size none (sortEdits p.edits)).mp hnone
  rw [Option.toList_none, List.nil_append] at hpw
  have hperm := sortEdits_perm p.edits
  obtain ⟨cs, hcs, hG⟩ := spliceEdits_eq_utf8Encode happend (sortEdits p.edits) 0
    (Nat.zero_le _) (fun j => by rw [List.drop_zero]; exact hstart j)
    (fun e he => ⟨hin e he, hedits e (hperm.mem_iff.mp he)⟩) hpw
    (fun e he => by simpa [charOffset] using (hin e he).1)
  have hempty : p.edits.isEmpty = false := List.isEmpty_eq_false_iff.mpr hne
  refine ⟨cs, ?_, hG⟩
  have hzero : charOffset source.text 0 = 0 := by simp [charOffset]
  rw [hzero] at hcs
  simp only [applyPatch, hempty, applyEdits_of_not_conflict hconflict]
  simp only [SourceFile.data, hcs, Utf8.decode_utf8Encode, bind, Except.bind]
  rfl

end Splice

end DocWeaver
