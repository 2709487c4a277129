import DocWeaver.Proofs.Patch.TextSplice
import DocWeaver.Proofs.Patch.CommentRoundTrip
import DocWeaver.Proofs.Extract.Anchors

/-!
Patching keeps a file's line endings.

The patch writer takes each line break it writes from the file: the break that ends the line of
the edit point, or the file's own convention on its last line. In a file that breaks lines only
by CRLF pairs and holds one, every such break is a CRLF pair; in a file without carriage
returns, every one is a line feed. A doc comment is lines without breaks joined by that break,
and every edit stops where no CRLF pair is cut in two: at a header, at the start of a line, or
after the closing slash of a comment. So the patched text again breaks lines only by CRLF pairs,
or again holds no carriage return (`buildPatch_keeps_line_endings`).
-/

namespace DocWeaver.Text

/-! ### Every `y` right after an `x` -/

section Preceded

variable {α : Type} {x y : α}

/-- Every `y` of `l` comes right after an `x`. In particular `l` does not start with `y`. -/
def Preceded (x y : α) (l : List α) : Prop := ∀ a r, l = a ++ y :: r → a.getLast? = some x

theorem Preceded.getElem? {l : List α} (h : Preceded x y l) {k : Nat} (hk : l[k]? = some y) :
    0 < k ∧ l[k - 1]? = some x := by
  obtain ⟨hlt, hy⟩ := List.getElem?_eq_some_iff.mp hk
  have hlast := h (l.take k) (l.drop (k + 1)) (by rw [← hy, List.getElem_cons_drop, List.take_append_drop])
  rw [List.getLast?_take] at hlast
  split at hlast
  · cases hlast
  · rename_i hk0
    refine ⟨Nat.pos_of_ne_zero hk0, ?_⟩
    rw [List.getElem?_eq_getElem (by omega)] at hlast ⊢
    simpa using hlast

theorem preceded_iff_getElem? [DecidableEq α] {l : List α} :
    Preceded x y l ↔ ∀ k < l.length, l[k]? = some y → 0 < k ∧ l[k - 1]? = some x := by
  refine ⟨fun h k _ hk => h.getElem? hk, fun h a r hl => ?_⟩
  subst hl
  obtain ⟨hpos, hx⟩ := h a.length (by simp) (by simp)
  rw [List.getElem?_append_left (by omega)] at hx
  rw [List.getLast?_eq_getElem?]
  exact hx

instance [DecidableEq α] (x y : α) (l : List α) : Decidable (Preceded x y l) :=
  decidable_of_iff _ preceded_iff_getElem?.symm

theorem preceded_of_not_mem {l : List α} (h : y ∉ l) : Preceded x y l := by
  rintro a r rfl
  simp at h

theorem Preceded.head? {l : List α} (h : Preceded x y l) : l.head? ≠ some y := by
  intro hy
  obtain ⟨r, rfl⟩ : ∃ r, l = y :: r := by
    cases l with
    | nil => cases hy
    | cons z r => exact ⟨r, by simpa using hy⟩
  cases h [] r rfl

theorem Preceded.append {a b : List α} (ha : Preceded x y a) (hb : Preceded x y b) :
    Preceded x y (a ++ b) := by
  intro u r h
  rcases List.append_eq_append_iff.mp h with ⟨as, rfl, hbs⟩ | ⟨bs, rfl, hys⟩
  · cases as with
    | nil => exact absurd (by rw [hbs]; rfl) hb.head?
    | cons z as => rw [List.getLast?_append_of_ne_nil _ (List.cons_ne_nil z as)]; exact hb _ _ hbs
  · cases bs with
    | nil =>
      rw [List.nil_append] at hys
      exact absurd (by rw [← hys]; rfl) hb.head?
    | cons z bs =>
      obtain ⟨rfl, rfl⟩ := List.cons_eq_cons.mp hys
      exact ha u bs rfl

theorem Preceded.drop_take {l : List α} (h : Preceded x y l) {k : Nat} (hk : l[k]? ≠ some y)
    (j : Nat) : Preceded x y ((l.drop k).take j) := by
  intro a r hs
  have hl : l = (l.take k ++ a) ++ y :: (r ++ (l.drop k).drop j) := by
    rw [List.append_assoc, ← List.cons_append, ← List.append_assoc a, ← hs, List.take_append_drop,
      List.take_append_drop]
  have hlast := h _ _ hl
  cases a with
  | nil =>
    have hhead := congrArg List.head? hs
    rw [List.head?_take, List.head?_drop] at hhead
    split at hhead
    · cases hhead
    · exact absurd hhead hk
  | cons z a => rwa [List.getLast?_append_of_ne_nil _ (List.cons_ne_nil z a)] at hlast

theorem intercalate_of_closed {G : List α → Prop} (hnil : G [])
    (happend : ∀ a b, G a → G b → G (a ++ b)) {sep : List α} (hsep : G sep) :
    ∀ {ls : List (List α)}, (∀ l ∈ ls, G l) → G (sep.intercalate ls)
  | [], _ => hnil
  | [l], hls => by simpa using hls l List.mem_cons_self
  | l :: l' :: ls, hls => by
    rw [List.intercalate_cons_cons]
    exact happend _ _ (happend _ _ (hls l List.mem_cons_self) hsep)
      (intercalate_of_closed hnil happend hsep fun p hp => hls p (List.mem_cons_of_mem l hp))

theorem preceded_intercalate (hxy : x ≠ y) {ls : List (List α)} (hls : ∀ l ∈ ls, y ∉ l) :
    Preceded x y ([x, y].intercalate ls) := by
  have hsep : Preceded x y [x, y] := fun a r h => by
    rcases a with _ | ⟨a₀, _ | ⟨a₁, a⟩⟩ <;> simp_all
  exact intercalate_of_closed (preceded_of_not_mem List.not_mem_nil) (fun _ _ ha hb => ha.append hb)
    hsep fun l hl => preceded_of_not_mem (hls l hl)

end Preceded

/-! ### Lines joined by a break -/

def JoinedLines (nl cs : List Char) : Prop :=
  ∃ ls : List (List Char), ls ≠ [] ∧ (∀ l ∈ ls, Unbroken l) ∧ cs = nl.intercalate ls

namespace JoinedLines

variable {nl cs : List Char}

theorem append_line (h : JoinedLines nl cs) {l : List Char} (hl : Unbroken l) :
    JoinedLines nl (cs ++ nl ++ l) := by
  obtain ⟨ls, hne, hun, rfl⟩ := h
  refine ⟨ls ++ [l], by simp, fun p hp => ?_, (intercalate_append_singleton nl hne l).symm⟩
  rcases List.mem_append.mp hp with hp | hp
  · exact hun p hp
  · rw [List.mem_singleton.mp hp]; exact hl

theorem line_append (h : JoinedLines nl cs) {l : List Char} (hl : Unbroken l) :
    JoinedLines nl (l ++ cs) := by
  obtain ⟨ls, hne, hun, rfl⟩ := h
  obtain ⟨p, ps, rfl⟩ := List.exists_cons_of_ne_nil hne
  refine ⟨(l ++ p) :: ps, List.cons_ne_nil _ _, fun q hq => ?_, (intercalate_cons_append nl l p ps).symm⟩
  rcases List.mem_cons.mp hq with rfl | hq
  · exact hl.append (hun p List.mem_cons_self)
  · exact hun q (List.mem_cons_of_mem p hq)

theorem preceded (h : JoinedLines ['\r', '\n'] cs) : Preceded '\r' '\n' cs := by
  obtain ⟨ls, -, hun, rfl⟩ := h
  exact preceded_intercalate (by decide) fun l hl hmem => by simpa [isLineBoundary] using hun l hl '\n' hmem

theorem not_mem (h : JoinedLines ['\n'] cs) : '\r' ∉ cs := by
  obtain ⟨ls, -, hun, rfl⟩ := h
  refine @intercalate_of_closed Char (fun l => '\r' ∉ l) List.not_mem_nil
    (fun _ _ ha hb => by simp [ha, hb]) ['\n'] (by simp) ls fun l hl hmem => ?_
  simpa [isLineBoundary] using hun l hl '\r' hmem

end JoinedLines

theorem unbroken_of_mem_stripEnd_splitLines {s l : String} (hl : l ∈ (splitLines s).map stripEnd) :
    Unbroken l.toList := by
  simp only [splitLines, stripEnd, List.map_map, List.mem_map, Function.comp_def] at hl
  obtain ⟨p, hp, rfl⟩ := hl
  rw [String.toList_ofList, String.toList_ofList]
  exact fun c hc => unbroken_of_mem_lines hp c ((trimEnd_isPrefix p).subset hc)

end DocWeaver.Text

namespace DocWeaver

open DocWeaver.Text DocWeaver.Syntax DocWeaver.Extract

/-! ### The comment -/

theorem unbroken_leadingIndent (s : String) : Unbroken (leadingIndent s).toList := by
  intro c hc
  rw [leadingIndent, String.toList_ofList] at hc
  have hc' := List.mem_takeWhile_imp hc
  simp only [Bool.or_eq_true, beq_iff_eq] at hc'
  rcases hc' with rfl | rfl <;> rfl

theorem unbroken_marginLine {indent l : List Char} (hindent : Unbroken indent) (hl : Unbroken l) :
    Unbroken (marginLine indent l) := by
  unfold marginLine
  split
  · exact hindent.append (by simp [Unbroken, isLineBoundary])
  · exact (hindent.append (by simp [Unbroken, isLineBoundary])).append hl

theorem formatDocComment_joinedLines (t : String) {indent : String} (hindent : Unbroken indent.toList)
    (nl : String) : JoinedLines nl.toList (formatDocComment t indent nl).toList := by
  unfold formatDocComment
  dsimp only
  split
  · -- one line: `/** l */`
    rename_i l hl
    have hunbroken : Unbroken l.toList :=
      unbroken_of_mem_stripEnd_splitLines (by rw [hl]; exact List.mem_singleton_self l)
    refine ⟨[['/', '*', '*', ' '] ++ l.toList ++ [' ', '*', '/']], List.cons_ne_nil _ _, ?_,
      by simp [toString]⟩
    have hopen : Unbroken ['/', '*', '*', ' '] := by simp [Unbroken, isLineBoundary]
    have hclose : Unbroken [' ', '*', '/'] := by simp [Unbroken, isLineBoundary]
    simp only [List.mem_singleton, forall_eq]
    exact (hopen.append hunbroken).append hclose
  · -- several lines: `/**`, a continuation line for each line, and ` */`
    have hmargin : ∀ l : String,
        (if l = "" then indent ++ " *" else indent ++ " * " ++ l).toList =
          marginLine indent.toList l.toList := by
      intro l
      by_cases hl : l = ""
      · simp [hl, marginLine]
      · simp [hl, marginLine]
    refine ⟨['/', '*', '*'] :: ((splitLines (strip t)).map stripEnd).map
        (fun l => marginLine indent.toList l.toList) ++ [indent.toList ++ [' ', '*', '/']],
      List.cons_ne_nil _ _, ?_, ?_⟩
    · intro p hp
      simp only [List.cons_append, List.mem_cons, List.mem_append, List.mem_map,
        List.not_mem_nil, or_false] at hp
      rcases hp with rfl | ⟨l, hl, rfl⟩ | rfl
      · simp [Unbroken, isLineBoundary]
      · exact unbroken_marginLine hindent (unbroken_of_mem_stripEnd_splitLines (List.mem_map.mpr hl))
      · exact hindent.append (by simp [Unbroken, isLineBoundary])
    · simp [String.toList_intercalate, hmargin, Function.comp_def, toString]

/-! ### The line break at an offset -/

theorem getElem?_of_lineFeedFrom {data : ByteArray} {i e : Nat} (h : lineFeedFrom data i = some e) :
    data.data.toList[e]? = some 10 := by
  unfold lineFeedFrom at h
  obtain ⟨j, hj, rfl⟩ := Option.map_eq_some_iff.mp h
  obtain ⟨hlt, hp, -⟩ := List.findIdx?_eq_some_iff_getElem.mp hj
  have hj' : (data.extract i data.size).toList[j]? = some 10 := by
    rw [List.getElem?_eq_getElem hlt]
    simpa using hp
  rw [Utf8.toList_bytes, ByteArray.data_extract, Array.toList_extract, List.extract_eq_take_drop,
    List.getElem?_take, List.getElem?_drop] at hj'
  split at hj'
  · rwa [Nat.add_comm] at hj'
  · cases hj'

theorem hasCrlf_eq_true {data : ByteArray} (h : [(13 : UInt8), 10] <:+: data.data.toList) :
    hasCrlf data = true := by
  obtain ⟨s, t, hst⟩ := h
  unfold hasCrlf
  rw [Utf8.toList_bytes, ← hst, List.any_eq_true]
  refine ⟨(13, 10), List.mem_iff_getElem.mpr ⟨s.length, ?_, ?_⟩, rfl⟩
  · simp
  · simp [List.getElem_append_right]

theorem hasCrlf_eq_false {data : ByteArray} (h : (13 : UInt8) ∉ data.data.toList) : hasCrlf data = false := by
  unfold hasCrlf
  rw [List.any_eq_false]
  rintro ⟨a, b⟩ hab
  have ha := (List.of_mem_zip hab).1
  rw [Utf8.toList_bytes] at ha
  simp only [Bool.and_eq_true, beq_iff_eq, not_and]
  rintro rfl
  exact absurd ha h

theorem lineBreakAt_of_crlf {data : ByteArray} (hpre : Preceded (13 : UInt8) 10 data.data.toList)
    (hcrlf : [(13 : UInt8), 10] <:+: data.data.toList) (i : Nat) : lineBreakAt data i = "\r\n" := by
  unfold lineBreakAt
  split
  · rename_i e he
    obtain ⟨hpos, hcr⟩ := hpre.getElem? (getElem?_of_lineFeedFrom he)
    rw [getElem?_eq_data_toList, hcr]
    simp [hpos]
  · rw [hasCrlf_eq_true hcrlf]; rfl

theorem lineBreakAt_of_no_cr {data : ByteArray} (h : (13 : UInt8) ∉ data.data.toList) (i : Nat) :
    lineBreakAt data i = "\n" := by
  unfold lineBreakAt
  split
  · rename_i e he
    have hne : data[e - 1]? ≠ some 13 := fun h' =>
      h (List.mem_of_getElem? (by rwa [← getElem?_eq_data_toList]))
    simp [hne]
  · rw [hasCrlf_eq_false h]; rfl

/-! ### The bytes of the file's line endings -/

theorem preceded_toUTF8 {text : String} (h : Preceded '\r' '\n' text.toList) :
    Preceded (13 : UInt8) 10 text.toUTF8.data.toList := by
  intro A B hAB
  rw [Utf8.data_toList_toUTF8] at hAB
  obtain ⟨a, r, hcs, rfl, -⟩ := Utf8.flatMap_utf8EncodeChar_eq_append_cons hAB (by decide)
  obtain ⟨a', rfl⟩ := List.getLast?_eq_some_iff.mp (h a r hcs)
  rw [List.flatMap_append, List.flatMap_singleton,
    List.getLast?_append_of_ne_nil _ String.utf8EncodeChar_ne_nil]
  rfl

theorem crlf_infix_toUTF8 {text : String} (h : ['\r', '\n'] <:+: text.toList) :
    [(13 : UInt8), 10] <:+: text.toUTF8.data.toList := by
  obtain ⟨s, t, hst⟩ := h
  refine ⟨s.flatMap String.utf8EncodeChar, t.flatMap String.utf8EncodeChar, ?_⟩
  rw [Utf8.data_toList_toUTF8, ← hst, List.flatMap_append, List.flatMap_append]
  rfl

theorem not_mem_toUTF8 {text : String} (h : '\r' ∉ text.toList) :
    (13 : UInt8) ∉ text.toUTF8.data.toList := by
  rw [Utf8.data_toList_toUTF8, ← List.count_eq_zero, Utf8.count_flatMap_utf8EncodeChar _ (by decide)]
  exact List.count_eq_zero.mpr h

theorem lineStartOf_cases (data : ByteArray) {i : Nat} (hi : i ≤ data.size) :
    lineStartOf data i = 0 ∨
      0 < lineStartOf data i ∧ data.data.toList[lineStartOf data i - 1]? = some 10 := by
  unfold lineStartOf
  split
  · rename_i k hk
    obtain ⟨hlt, hp, -⟩ := List.findIdx?_eq_some_iff_getElem.mp hk
    have hlen : (data.extract 0 i).toList.length = i := by simp; omega
    rw [List.length_reverse] at hlt
    rw [List.getElem_reverse] at hp
    have hj : (data.extract 0 i).toList[(data.extract 0 i).toList.length - 1 - k]? = some 10 := by
      rw [List.getElem?_eq_getElem (by omega)]
      simpa using hp
    rw [hlen] at hj
    rw [Utf8.toList_bytes, ByteArray.data_extract, Array.toList_extract, List.extract_eq_take_drop,
      List.getElem?_take, List.drop_zero, if_pos (by omega)] at hj
    right
    refine ⟨by omega, ?_⟩
    rwa [show i - k - 1 = i - 1 - k by omega]
  · exact Or.inl rfl

/-! ### Edit points -/

def NotInCrlf (cs : List Char) (k : Nat) : Prop :=
  ¬(0 < k ∧ cs[k - 1]? = some '\r' ∧ cs[k]? = some '\n')

theorem notInCrlf_zero (cs : List Char) : NotInCrlf cs 0 := fun h => Nat.lt_irrefl 0 h.1

theorem notInCrlf_of_isTokenStart {text : String} {n : Nat} (h : IsTokenStart text n) :
    ∃ k ≤ text.length, charOffset text k = n ∧ NotInCrlf text.toList k := by
  obtain ⟨k, hk, hoff, hblank⟩ := h
  refine ⟨k, Nat.le_of_lt hk, hoff, fun hpair => ?_⟩
  rw [List.getD_eq_getElem?_getD, hpair.2.2, Option.getD_some] at hblank
  cases hblank

theorem notInCrlf_after_ascii {text : String} {p : Nat} {b : UInt8} (h : text.toUTF8[p]? = some b)
    (hlt : b.toNat < 128) (hcr : b ≠ 13) :
    ∃ k ≤ text.length, charOffset text k = p + 1 ∧ NotInCrlf text.toList k := by
  obtain ⟨k, hk, -, hoff, hchar⟩ := exists_charOffset_of_ascii h hlt
  refine ⟨k + 1, hk, hoff, fun hpair => hcr ?_⟩
  rw [Nat.add_sub_cancel] at hpair
  rw [List.getD_eq_getElem?_getD, hpair.2.1, Option.getD_some] at hchar
  apply UInt8.toNat_inj.mp
  rw [← Utf8.toNat_ofNat_of_lt hlt, ← hchar]
  rfl

theorem lineStartOf_notInCrlf (text : String) {i : Nat} (hi : i ≤ text.toUTF8.size) :
    ∃ k ≤ text.length, charOffset text k = lineStartOf text.toUTF8 i ∧
      NotInCrlf text.toList k := by
  rcases lineStartOf_cases text.toUTF8 hi with h | ⟨hpos, hlf⟩
  · exact ⟨0, Nat.zero_le _, by rw [h]; simp [charOffset], notInCrlf_zero _⟩
  · rw [← getElem?_eq_data_toList] at hlf
    obtain ⟨k, hk, hoff, hnot⟩ := notInCrlf_after_ascii hlf (by decide) (by decide)
    exact ⟨k, hk, by rw [hoff]; omega, hnot⟩

/-! ### The edits of the patch writer -/

/-- An edit as the patch writer makes it for a declaration of `text`: it starts where a
character starts, stops where one starts without cutting a CRLF pair in two, and writes lines
without breaks joined by the line break that the writer reads off the file at some offset. -/
structure TextEdit.Written (text : String) (e : TextEdit) : Prop where
  start : ∃ k ≤ text.length, charOffset text k = e.start.toNat
  stop : ∃ k ≤ text.length, charOffset text k = e.stop.toNat ∧ NotInCrlf text.toList k
  lines : ∃ i, JoinedLines (lineBreakAt text.toUTF8 i).toList e.replacement.toList

/-- The patch writer's edit for an anchored declaration that sits in the file, rewriting only a
documented one. A new comment goes in at the header, a token, or at the start of its line; a
rewritten one replaces the old comment, which starts with a slash and ends after one. -/
theorem written_of_editFor {text : String} {v : CoverageVerdict} {t : String} {e : TextEdit}
    (hanchored : v.declaration.Anchored text) (hsits : v.declaration.SitsAfter text.toUTF8 0)
    (hregen : v.verdict = .regenerate → v.declaration.doc.isSome)
    (he : editFor text.toUTF8 v t = some e) : e.Written text := by
  cases hv : v.verdict with
  | skip => simp [editFor_skip hv] at he
  | generate =>
    obtain ⟨k, hk, hoff, hnot⟩ := notInCrlf_of_isTokenStart hanchored.header_token
    simp only [editFor, hv] at he
    split at he
    · -- at the header: the comment, a break, and the header's indentation
      cases he
      refine ⟨⟨k, hk, by rw [Int.toNat_natCast, hoff]⟩, ⟨k, hk, by rw [Int.toNat_natCast, hoff], hnot⟩,
        ⟨v.declaration.header.startByte, ?_⟩⟩
      rw [String.toList_append, String.toList_append]
      exact (formatDocComment_joinedLines t (unbroken_leadingIndent _) _).append_line (unbroken_leadingIndent _)
    · -- at the start of the header's line: the indentation, the comment, and a break
      cases he
      have hsize : v.declaration.header.startByte ≤ text.toUTF8.size := by
        rw [← hoff, ← charOffset_length]
        exact charOffset_mono text hk
      obtain ⟨k', hk', hoff', hnot'⟩ := lineStartOf_notInCrlf text hsize
      refine ⟨⟨k', hk', by rw [Int.toNat_natCast, hoff']⟩,
        ⟨k', hk', by rw [Int.toNat_natCast, hoff'], hnot'⟩, ⟨v.declaration.header.startByte, ?_⟩⟩
      rw [String.toList_append, String.toList_append, ← List.append_nil (_ ++ _ ++ _)]
      exact ((formatDocComment_joinedLines t (unbroken_leadingIndent _) _).line_append (unbroken_leadingIndent _)).append_line
        (fun _ h => absurd h List.not_mem_nil)
  | regenerate =>
    obtain ⟨c, hc⟩ := Option.isSome_iff_exists.mp (hregen hv)
    obtain ⟨-, hlt, -, hslash⟩ := hsits.2 c hc
    obtain ⟨-, -, hopen, -⟩ := hanchored.doc_token c hc
    simp only [editFor, hv, hc, Option.some.injEq] at he
    cases he
    obtain ⟨k, hk, hoff, -⟩ := exists_charOffset_of_ascii hopen (by decide)
    obtain ⟨k', hk', hoff', hnot'⟩ := notInCrlf_after_ascii hslash (by decide) (by decide)
    refine ⟨⟨k, Nat.le_of_lt hk, by rw [Int.toNat_natCast, hoff]⟩,
      ⟨k', hk', by rw [Int.toNat_natCast, hoff']; omega, hnot'⟩,
      ⟨c.range.startByte, ?_⟩⟩
    dsimp only
    exact formatDocComment_joinedLines t (unbroken_leadingIndent _) _

/-! ### Line endings kept -/

def KeepsEndings (text : String) (cs : List Char) : Prop :=
  (['\r', '\n'] <:+: text.toList → Preceded '\r' '\n' text.toList → Preceded '\r' '\n' cs) ∧
    ('\r' ∉ text.toList → '\r' ∉ cs)

theorem keepsEndings_append {text : String} (a b : List Char) (ha : KeepsEndings text a)
    (hb : KeepsEndings text b) : KeepsEndings text (a ++ b) :=
  ⟨fun h₁ h₂ => (ha.1 h₁ h₂).append (hb.1 h₁ h₂), fun h => by simp [ha.2 h, hb.2 h]⟩

theorem keepsEndings_drop_take {text : String} {k : Nat} (hk : NotInCrlf text.toList k) (j : Nat) :
    KeepsEndings text ((text.toList.drop k).take j) := by
  refine ⟨fun _ hpre => hpre.drop_take (fun hlf => ?_) j, fun hno hmem => hno ?_⟩
  · -- a line feed there would follow a carriage return
    obtain ⟨hpos, hcr⟩ := hpre.getElem? hlf
    exact hk ⟨hpos, hcr, hlf⟩
  · exact List.mem_of_mem_drop (List.mem_of_mem_take hmem)

theorem TextEdit.Written.onChars {text : String} {e : TextEdit} (h : e.Written text) :
    e.OnChars text (KeepsEndings text) := by
  obtain ⟨k, hk, hoff, hnot⟩ := h.stop
  obtain ⟨i, hlines⟩ := h.lines
  refine ⟨h.start, ⟨k, hk, hoff, keepsEndings_drop_take hnot⟩, fun hcrlf hpre => ?_, fun hno => ?_⟩
  · rw [lineBreakAt_of_crlf (preceded_toUTF8 hpre) (crlf_infix_toUTF8 hcrlf)] at hlines
    exact hlines.preceded
  · rw [lineBreakAt_of_no_cr (not_mem_toUTF8 hno)] at hlines
    exact hlines.not_mem

/-- Patching keeps a file's line endings. For any outline of the file that the parser gives, and
verdicts with texts for distinct declarations of it that ask a rewrite only of documented ones,
the patch applies and gives a file; if the original holds a CRLF pair and has every line feed
right after a carriage return, so does the patched file, and if the original holds no carriage
return, neither does the patched file. -/
theorem buildPatch_keeps_line_endings (text relPath : String) (items : List Item)
    (hnested : Outline.Nested text items) (vs : List (CoverageVerdict × String))
    (hmem : ∀ p ∈ vs, p.1.declaration ∈ declarationsOf text.toUTF8 relPath items)
    (hdistinct : (vs.map fun p => p.1.declaration).Nodup)
    (hregen : ∀ p ∈ vs, p.1.verdict = .regenerate → p.1.declaration.doc.isSome) :
    ∃ f : SourceFile,
      (applyPatch ⟨relPath, text⟩ (buildPatch ⟨relPath, text⟩ vs) = .ok (.unchanged f) ∨
        applyPatch ⟨relPath, text⟩ (buildPatch ⟨relPath, text⟩ vs) = .ok (.changed f)) ∧
      (['\r', '\n'] <:+: text.toList → Preceded '\r' '\n' text.toList →
        Preceded '\r' '\n' f.text.toList) ∧
      ('\r' ∉ text.toList → '\r' ∉ f.text.toList) := by
  have hsites : SitesWithin (SourceFile.data ⟨relPath, text⟩) 0
      (SourceFile.data ⟨relPath, text⟩).size (declarationsOf text.toUTF8 relPath items) :=
    sitesWithin_declarationsOf hnested.placed
  have hconflict := not_editsConflict_buildPatch hsites hmem hdistinct hregen
  by_cases hne : (buildPatch ⟨relPath, text⟩ vs).edits = []
  · -- no edit: the file comes back as it was
    refine ⟨⟨relPath, text⟩, Or.inl ?_, fun _ h => h, id⟩
    simp [applyPatch, hne]
  · have hwritten : ∀ e ∈ (buildPatch ⟨relPath, text⟩ vs).edits, e.Written text := by
      intro e he
      simp only [buildPatch, List.mem_filterMap] at he
      obtain ⟨p, hp, he⟩ := he
      have hd := hmem p hp
      exact written_of_editFor (anchored_of_mem_declarationsOf hnested _ hd)
        (hsites.sitsAfter_of_mem _ hd).1 (hregen p hp) he
    obtain ⟨cs, happ, hkeeps⟩ := applyPatch_changed_of_onChars keepsEndings_append hconflict hne
      (fun j => by simpa using keepsEndings_drop_take (notInCrlf_zero text.toList) j)
      (fun e he => (hwritten e he).onChars)
    rw [← @String.toList_ofList cs] at hkeeps
    exact ⟨_, Or.inr happ, hkeeps⟩

/-- A CRLF file with no break after its last line: a documented function whose comment is
rewritten, and a class and its method that get new comments of two lines each. The parser's
outline is nested, the file holds a CRLF pair and has every line feed right after a carriage
return, and so does the patched file. -/
theorem crlf_patch_keeps_crlf_breaks :
    let text := "/** Old. */\r\nfunction f() \x7b\x7d\r\nclass C \x7b\r\n  m() \x7b\x7d\r\n\x7d"
    let items : List Item :=
      [.comment ⟨0, 11⟩, .decl (.function ⟨13, 28⟩ ⟨some ⟨22, 23⟩, some ⟨26, 28⟩, {}⟩),
        .decl (.klass ⟨30, 52⟩ ⟨some ⟨36, 37⟩, ⟨38, 52⟩,
          [.method ⟨43, 49⟩ ⟨43, 44⟩ false (some ⟨47, 49⟩) {}]⟩)]
    let vs := (declarationsOf text.toUTF8 "a.ts" items).map fun d =>
      ((⟨d, if d.isDocumented then .regenerate else .generate, ""⟩ : CoverageVerdict),
        "Doc.\nMore.")
    readOutline text.toUTF8 .typescript = .ok items ∧ Outline.Nested text items ∧
      (∀ p ∈ vs, p.1.declaration ∈ declarationsOf text.toUTF8 "a.ts" items) ∧
      (vs.map fun p => p.1.declaration).Nodup ∧
      (∀ p ∈ vs, p.1.verdict = .regenerate → p.1.declaration.doc.isSome) ∧
      ['\r', '\n'] <:+: text.toList ∧ Preceded '\r' '\n' text.toList ∧
      ∃ f : SourceFile,
        (applyPatch ⟨"a.ts", text⟩ (buildPatch ⟨"a.ts", text⟩ vs) = .ok (.unchanged f) ∨
          applyPatch ⟨"a.ts", text⟩ (buildPatch ⟨"a.ts", text⟩ vs) = .ok (.changed f)) ∧
        (['\r', '\n'] <:+: text.toList → Preceded '\r' '\n' text.toList →
          Preceded '\r' '\n' f.text.toList) ∧
        ('\r' ∉ text.toList → '\r' ∉ f.text.toList) := by
  intro text items vs
  have hread : readOutline text.toUTF8 .typescript = .ok items := by decide +kernel
  have hnested : Outline.Nested text items := by decide +kernel
  have hmem : ∀ p ∈ vs, p.1.declaration ∈ declarationsOf text.toUTF8 "a.ts" items := by
    intro p hp
    obtain ⟨d, hd, rfl⟩ := List.mem_map.mp hp
    exact hd
  have hdistinct : (vs.map fun p => p.1.declaration).Nodup := by decide +kernel
  have hregen : ∀ p ∈ vs, p.1.verdict = .regenerate → p.1.declaration.doc.isSome := by
    decide +kernel
  have hcrlf : ['\r', '\n'] <:+: text.toList := by decide +kernel
  have hpre : Preceded '\r' '\n' text.toList := by decide +kernel
  exact ⟨hread, hnested, hmem, hdistinct, hregen, hcrlf, hpre,
    buildPatch_keeps_line_endings text "a.ts" items hnested vs hmem hdistinct hregen⟩

end DocWeaver
