import DocWeaver.Proofs.Text.CharOffsets

/-!
Lines and trimming, as laws of the text functions.

Cutting text into lines keeps every character: the lines with their breaks, joined, are the text
again (`flatten_linesWithBreaks`). Every line is free of line boundaries, every break is made of
them, and a line that ends the text without a break is not empty (`LineWithBreak`). So the first
line starts, and the last line ends, with the text's own first and last characters when these end
no line. Pieces with no line boundary, joined by one kind of break, are cut back into the same
pieces (`lines_intercalate`); text whose only line boundaries are line feeds is its lines joined
by line feeds (`intercalate_lines_of_feeds`). Trimming leaves text as it is exactly when neither
end is blank (`trim_eq_self_iff`).
-/

namespace DocWeaver.Text

def Unbroken (cs : List Char) : Prop := ∀ c ∈ cs, isLineBoundary c = false

def IsBreak (nl : List Char) : Prop := nl = ['\n'] ∨ nl = ['\r', '\n']

def LineWithBreak (p : List Char × List Char) : Prop :=
  Unbroken p.1 ∧ (∀ b ∈ p.2, isLineBoundary b = true) ∧ (p.2 = [] → p.1 ≠ [])

theorem Unbroken.append {p q : List Char} (hp : Unbroken p) (hq : Unbroken q) : Unbroken (p ++ q) := by
  intro c hc
  rcases List.mem_append.mp hc with hc | hc
  · exact hp c hc
  · exact hq c hc

theorem Unbroken.reverse {p : List Char} (hp : Unbroken p) : Unbroken p.reverse :=
  fun c hc => hp c (List.mem_reverse.mp hc)

/-! ### One step of the cut -/

theorem splitBreaksAux_nil (acc : List Char) :
    splitBreaksAux acc [] = if acc.isEmpty then [] else [(acc.reverse, [])] := rfl

theorem splitBreaksAux_cons (acc : List Char) (c : Char) (rest : List Char) :
    (∃ rest', c = '\r' ∧ rest = '\n' :: rest' ∧
      splitBreaksAux acc (c :: rest) = (acc.reverse, ['\r', '\n']) :: splitBreaksAux [] rest') ∨
    (isLineBoundary c = true ∧
      splitBreaksAux acc (c :: rest) = (acc.reverse, [c]) :: splitBreaksAux [] rest) ∨
    (isLineBoundary c = false ∧ splitBreaksAux acc (c :: rest) = splitBreaksAux (c :: acc) rest) := by
  rw [splitBreaksAux.eq_def]
  split
  next heq => cases heq
  next rest' heq =>
    cases heq
    exact Or.inl ⟨rest', rfl, rfl, rfl⟩
  next x c' rest' hnot heq =>
    cases heq
    split
    next hb => exact Or.inr (Or.inl ⟨hb, rfl⟩)
    next hb => exact Or.inr (Or.inr ⟨by simpa using hb, rfl⟩)

theorem splitBreaksAux_cons_plain {c : Char} (hc : isLineBoundary c = false) (acc rest : List Char) :
    splitBreaksAux acc (c :: rest) = splitBreaksAux (c :: acc) rest := by
  rcases splitBreaksAux_cons acc c rest with ⟨rest', rfl, -, -⟩ | ⟨hb, -⟩ | ⟨-, h⟩
  · simp [isLineBoundary] at hc
  · simp [hb] at hc
  · exact h

theorem splitBreaksAux_break {nl : List Char} (hnl : IsBreak nl) (acc rest : List Char) :
    splitBreaksAux acc (nl ++ rest) = (acc.reverse, nl) :: splitBreaksAux [] rest := by
  rcases hnl with rfl | rfl
  · simp [splitBreaksAux, isLineBoundary]
  · simp [splitBreaksAux]

theorem splitBreaksAux_feed (acc rest : List Char) :
    splitBreaksAux acc ('\n' :: rest) = (acc.reverse, ['\n']) :: splitBreaksAux [] rest :=
  splitBreaksAux_break (Or.inl rfl) acc rest

theorem splitBreaksAux_append_unbroken {p : List Char} (hp : Unbroken p) (acc rest : List Char) :
    splitBreaksAux acc (p ++ rest) = splitBreaksAux (p.reverse ++ acc) rest := by
  induction p generalizing acc with
  | nil => rfl
  | cons c p ih =>
    rw [List.cons_append, splitBreaksAux_cons_plain (hp c List.mem_cons_self),
      ih (fun x hx => hp x (List.mem_cons_of_mem c hx))]
    simp

/-! ### What the cut keeps -/

theorem flatMap_splitBreaksAux (acc cs : List Char) :
    (splitBreaksAux acc cs).flatMap (fun p => p.1 ++ p.2) = acc.reverse ++ cs := by
  induction cs generalizing acc with
  | nil =>
    rw [splitBreaksAux_nil]
    cases acc <;> simp
  | cons c rest ih =>
    rcases splitBreaksAux_cons acc c rest with ⟨rest', rfl, rfl, h⟩ | ⟨-, h⟩ | ⟨-, h⟩
    · -- the line feed after the carriage return is read by the same step
      have hrest := ih []
      rw [splitBreaksAux_feed, List.flatMap_cons] at hrest
      simp only [List.reverse_nil, List.nil_append, List.singleton_append, List.cons.injEq,
        true_and] at hrest
      simp [h, hrest]
    · simp [h, ih []]
    · rw [h, ih]
      simp

theorem flatten_linesWithBreaks (cs : List Char) : (linesWithBreaks cs).flatten = cs := by
  simpa [linesWithBreaks, splitBreaks, ← List.flatMap_def] using flatMap_splitBreaksAux [] cs

theorem lineWithBreak_of_mem_splitBreaksAux (acc cs : List Char) (hacc : Unbroken acc) :
    ∀ p ∈ splitBreaksAux acc cs, LineWithBreak p := by
  induction cs generalizing acc with
  | nil =>
    intro p hp
    rw [splitBreaksAux_nil] at hp
    split at hp
    · cases hp
    · rename_i hne
      rw [List.mem_singleton] at hp
      subst hp
      exact ⟨hacc.reverse, by simp, fun _ => by simpa using hne⟩
  | cons c rest ih =>
    have hnil : Unbroken [] := by simp [Unbroken]
    intro p hp
    rcases splitBreaksAux_cons acc c rest with ⟨rest', rfl, rfl, h⟩ | ⟨hb, h⟩ | ⟨hb, h⟩
    · rw [h] at hp
      rcases List.mem_cons.mp hp with rfl | hp
      · exact ⟨hacc.reverse, by simp [isLineBoundary], by simp⟩
      · -- the pieces after the line feed are those the cut from the line feed gives
        exact ih [] hnil p (by
          rw [splitBreaksAux_feed]
          exact List.mem_cons_of_mem _ hp)
    · rw [h] at hp
      rcases List.mem_cons.mp hp with rfl | hp
      · exact ⟨hacc.reverse, by simpa using hb, by simp⟩
      · exact ih [] hnil p hp
    · rw [h] at hp
      refine ih (c :: acc) ?_ p hp
      intro x hx
      rcases List.mem_cons.mp hx with rfl | hx
      · exact hb
      · exact hacc x hx

theorem lineWithBreak_of_mem_splitBreaks {cs : List Char} {p : List Char × List Char}
    (hp : p ∈ splitBreaks cs) : LineWithBreak p :=
  lineWithBreak_of_mem_splitBreaksAux [] cs (by simp [Unbroken]) p hp

theorem unbroken_of_mem_lines {cs l : List Char} (hl : l ∈ lines cs) : Unbroken l := by
  obtain ⟨p, hp, rfl⟩ := List.mem_map.mp hl
  exact (lineWithBreak_of_mem_splitBreaks hp).1

theorem infix_of_mem_lines {cs l : List Char} (hl : l ∈ lines cs) : l <:+: cs := by
  obtain ⟨p, hp, rfl⟩ := List.mem_map.mp hl
  have hmem : p.1 ++ p.2 ∈ linesWithBreaks cs := List.mem_map.mpr ⟨p, hp, rfl⟩
  have hinfix := List.infix_of_mem_flatten hmem
  rw [flatten_linesWithBreaks] at hinfix
  exact (List.prefix_append p.1 p.2).isInfix.trans hinfix

theorem head_lines {cs : List Char} {c : Char} (hc : cs.head? = some c)
    (hb : isLineBoundary c = false) : ∃ l ∈ (lines cs).head?, l.head? = some c := by
  have hflat := flatten_linesWithBreaks cs
  cases hsplit : splitBreaks cs with
  | nil =>
    rw [linesWithBreaks, hsplit] at hflat
    simp [← hflat] at hc
  | cons p ps =>
    obtain ⟨-, hbreak, hline⟩ := lineWithBreak_of_mem_splitBreaks (hsplit ▸ List.mem_cons_self)
    refine ⟨p.1, by simp [lines, hsplit], ?_⟩
    rw [linesWithBreaks, hsplit, List.map_cons, List.flatten_cons] at hflat
    rw [← hflat, List.head?_append, List.head?_append] at hc
    -- an empty line would leave the text starting with its break, which ends a line
    cases hp1 : p.1 with
    | nil =>
      cases hp2 : p.2 with
      | nil => exact absurd hp1 (hline hp2)
      | cons b bs =>
        simp only [hp1, hp2, List.head?_nil, List.head?_cons, Option.none_or, Option.some_or,
          Option.some.injEq] at hc
        subst hc
        simp [hbreak b (by simp [hp2])] at hb
    | cons a as => simpa [hp1] using hc

theorem getLast_splitBreaks {cs : List Char} {c : Char} (hc : cs.getLast? = some c)
    (hb : isLineBoundary c = false) :
    ∃ p ∈ (splitBreaks cs).getLast?, p.2 = [] ∧ p.1.getLast? = some c := by
  have hflat := flatten_linesWithBreaks cs
  obtain ⟨ps, p, hsplit⟩ : ∃ ps p, splitBreaks cs = ps ++ [p] := by
    cases h : (splitBreaks cs).getLast? with
    | none =>
      rw [List.getLast?_eq_none_iff] at h
      rw [linesWithBreaks, h] at hflat
      simp [← hflat] at hc
    | some p => exact ⟨_, p, (List.dropLast_append_getLast? p h).symm⟩
  obtain ⟨-, hbreak, hline⟩ := lineWithBreak_of_mem_splitBreaks (hsplit ▸ List.mem_append_right ps (List.mem_singleton_self p))
  rw [linesWithBreaks, hsplit, List.map_append, List.flatten_append] at hflat
  rw [← hflat] at hc
  -- a break after the last line would leave the text ending with a line boundary
  have hp2 : p.2 = [] := by
    cases hp : p.2.getLast? with
    | none => exact List.getLast?_eq_none_iff.mp hp
    | some b =>
      simp [List.getLast?_append, hp] at hc
      subst hc
      simp [hbreak b (List.mem_of_getLast? hp)] at hb
  refine ⟨p, by simp [hsplit], hp2, ?_⟩
  cases hp1 : p.1.getLast? with
  | none => exact absurd (List.getLast?_eq_none_iff.mp hp1) (hline hp2)
  | some a => simp_all [List.getLast?_append]

theorem getLast_lines {cs : List Char} {c : Char} (hc : cs.getLast? = some c)
    (hb : isLineBoundary c = false) : ∃ l ∈ (lines cs).getLast?, l.getLast? = some c := by
  obtain ⟨p, hp, -, hlast⟩ := getLast_splitBreaks hc hb
  refine ⟨p.1, ?_, hlast⟩
  rw [lines, List.getLast?_map, Option.mem_def.mp hp]
  rfl

theorem eq_of_lines_eq_singleton {cs l : List Char} (h : lines cs = [l])
    (hlast : ∀ c ∈ cs.getLast?, isLineBoundary c = false) : cs = l := by
  obtain ⟨p, hp⟩ : ∃ p, splitBreaks cs = [p] := by
    simp only [lines, List.map_eq_singleton_iff] at h
    obtain ⟨p, hp, -⟩ := h
    exact ⟨p, hp⟩
  have hl : p.1 = l := by simpa [lines, hp] using h
  have hflat := flatten_linesWithBreaks cs
  rw [linesWithBreaks, hp] at hflat
  cases hc : cs.getLast? with
  | none =>
    rw [List.getLast?_eq_none_iff] at hc
    subst hc
    obtain ⟨-, -, hline⟩ := lineWithBreak_of_mem_splitBreaks (hp ▸ List.mem_singleton_self p)
    simp only [List.map_cons, List.map_nil, List.flatten_cons, List.flatten_nil, List.append_nil,
      List.append_eq_nil_iff] at hflat
    exact absurd hflat.1 (hline hflat.2)
  | some c =>
    obtain ⟨q, hq, hq2, -⟩ := getLast_splitBreaks hc (hlast c hc)
    simp only [hp, List.getLast?_singleton, Option.mem_def, Option.some.injEq] at hq
    subst hq
    simpa [hq2, hl] using hflat.symm

/-! ### Joining lines -/

theorem lines_intercalate {nl : List Char} (hnl : IsBreak nl) :
    ∀ {parts : List (List Char)}, (∀ p ∈ parts, Unbroken p) → (∀ p ∈ parts.getLast?, p ≠ []) →
      lines (nl.intercalate parts) = parts
  | [], _, _ => rfl
  | [p], hparts, hlast => by
    have hp := splitBreaksAux_append_unbroken (hparts p List.mem_cons_self) [] []
    have hne : p ≠ [] := hlast p rfl
    simp only [List.append_nil] at hp
    simp [lines, splitBreaks, hp, splitBreaksAux_nil, hne]
  | p :: q :: rest, hparts, hlast => by
    have hrest : lines (nl.intercalate (q :: rest)) = q :: rest := lines_intercalate hnl
      (fun x hx => hparts x (List.mem_cons_of_mem p hx)) (by simpa using hlast)
    rw [List.intercalate_cons_cons, List.append_assoc]
    simp only [lines, splitBreaks] at hrest ⊢
    rw [splitBreaksAux_append_unbroken (hparts p List.mem_cons_self), splitBreaksAux_break hnl,
      List.map_cons, hrest]
    simp

theorem lines_of_unbroken {p : List Char} (hp : Unbroken p) (hne : p ≠ []) : lines p = [p] := by
  have h : lines (['\n'].intercalate [p]) = [p] :=
    lines_intercalate (Or.inl rfl) (by simpa using hp) (by simpa using hne)
  rwa [List.intercalate_singleton] at h

theorem intercalate_splitBreaksAux_of_feeds :
    ∀ (cs acc : List Char), (∀ c ∈ cs, isLineBoundary c = true → c = '\n') →
      cs.getLast? ≠ some '\n' →
      ['\n'].intercalate ((splitBreaksAux acc cs).map Prod.fst) = acc.reverse ++ cs
  | [], acc, _, _ => by
    rw [splitBreaksAux_nil]
    cases acc <;> simp
  | c :: rest, acc, hfeeds, hlast => by
    have hrest : ∀ x ∈ rest, isLineBoundary x = true → x = '\n' :=
      fun x hx => hfeeds x (List.mem_cons_of_mem c hx)
    by_cases hc : c = '\n'
    · -- a line feed ends the line; the text goes on after it, since it does not end with it
      subst hc
      have hne : rest ≠ [] := by
        rintro rfl
        exact hlast rfl
      have hlast' : rest.getLast? ≠ some '\n' := by
        obtain ⟨r, rs, rfl⟩ := List.exists_cons_of_ne_nil hne
        simpa using hlast
      have ih := intercalate_splitBreaksAux_of_feeds rest [] hrest hlast'
      have hlines : (splitBreaksAux [] rest).map Prod.fst ≠ [] := by
        intro h
        rw [h] at ih
        exact hne (by simpa using ih.symm)
      rw [show '\n' :: rest = ['\n'] ++ rest from rfl, splitBreaksAux_break (Or.inl rfl),
        List.map_cons, List.intercalate_cons_of_ne_nil hlines, ih]
      simp
    · have hb : isLineBoundary c = false := by
        by_contra hb
        exact hc (hfeeds c List.mem_cons_self (by simpa using hb))
      have hlast' : rest.getLast? ≠ some '\n' := by
        cases rest with
        | nil => simp
        | cons r rs => simpa using hlast
      rw [splitBreaksAux_cons_plain hb, intercalate_splitBreaksAux_of_feeds rest (c :: acc) hrest hlast']
      simp

theorem intercalate_lines_of_feeds {cs : List Char} (hfeeds : ∀ c ∈ cs, isLineBoundary c = true → c = '\n')
    (hlast : cs.getLast? ≠ some '\n') : ['\n'].intercalate (lines cs) = cs := by
  simpa [lines, splitBreaks] using intercalate_splitBreaksAux_of_feeds cs [] hfeeds hlast

/-! ### Trimming -/

theorem trimStart_eq_self {cs : List Char} (h : ∀ c ∈ cs.head?, isBlank c = false) :
    trimStart cs = cs := by
  cases cs with
  | nil => rfl
  | cons c rest => exact List.dropWhile_cons_of_neg (by simpa using h c rfl)

theorem trimEnd_eq_self {cs : List Char} (h : ∀ c ∈ cs.getLast?, isBlank c = false) :
    trimEnd cs = cs := by
  rw [trimEnd_eq_rdropWhile, List.rdropWhile_eq_self_iff]
  intro hne
  simpa using h _ (List.getLast?_eq_some_getLast hne)

theorem trimEnd_trimEnd (cs : List Char) : trimEnd (trimEnd cs) = trimEnd cs := by
  simp only [trimEnd_eq_rdropWhile, List.rdropWhile_idempotent]

theorem head_trimEnd {cs : List Char} (h : ∀ c ∈ cs.head?, isBlank c = false) :
    (trimEnd cs).head? = cs.head? := by
  cases cs with
  | nil => rfl
  | cons c rest =>
    have hne := trimEnd_cons_ne_nil (h c rfl) rest
    have hpre : trimEnd (c :: rest) <+: c :: rest := List.rdropWhile_prefix isBlank (c :: rest)
    rw [List.head?_eq_some_head hne, hpre.head hne]
    rfl

theorem head_trim (cs : List Char) : ∀ c ∈ (trim cs).head?, isBlank c = false := by
  intro c hc
  have hstart : ∀ c ∈ (trimStart cs).head?, isBlank c = false := by
    intro c hc
    have hne : trimStart cs ≠ [] := by
      rintro h
      simp [h] at hc
    rw [List.head?_eq_some_head hne, Option.mem_some_iff] at hc
    subst hc
    exact List.head_dropWhile_not isBlank hne
  rw [trim, head_trimEnd hstart] at hc
  exact hstart c hc

theorem getLast_trim (cs : List Char) : ∀ c ∈ (trim cs).getLast?, isBlank c = false :=
  isBlank_getLast_trimEnd _

theorem trim_eq_self {cs : List Char} (hhead : ∀ c ∈ cs.head?, isBlank c = false)
    (hlast : ∀ c ∈ cs.getLast?, isBlank c = false) : trim cs = cs := by
  rw [trim, trimStart_eq_self hhead, trimEnd_eq_self hlast]

theorem trim_eq_self_iff (cs : List Char) :
    trim cs = cs ↔ (∀ c ∈ cs.head?, isBlank c = false) ∧ ∀ c ∈ cs.getLast?, isBlank c = false := by
  constructor
  · intro h
    rw [← h]
    exact ⟨head_trim cs, getLast_trim cs⟩
  · rintro ⟨hhead, hlast⟩
    exact trim_eq_self hhead hlast

theorem trim_trim (cs : List Char) : trim (trim cs) = trim cs :=
  trim_eq_self (head_trim cs) (getLast_trim cs)

theorem isLineBoundary_eq_false_of_isBlank {c : Char} (h : isBlank c = false) :
    isLineBoundary c = false := by
  cases hb : isLineBoundary c with
  | false => rfl
  | true => simp [isBlank_of_isLineBoundary hb] at h

theorem trimEnd_append_blank {cs : List Char} {b : Char} (hb : isBlank b = true) :
    trimEnd (cs ++ [b]) = trimEnd cs := by
  rw [trimEnd_eq_rdropWhile, trimEnd_eq_rdropWhile, List.rdropWhile_concat_pos isBlank cs b hb]

theorem trim_blank_cons_append_blank {cs : List Char} {a b : Char} (ha : isBlank a = true)
    (hb : isBlank b = true) (hhead : ∀ c ∈ cs.head?, isBlank c = false)
    (hlast : ∀ c ∈ cs.getLast?, isBlank c = false) : trim (a :: cs ++ [b]) = cs := by
  have hstart : trimStart (a :: cs ++ [b]) = trimStart (cs ++ [b]) := by
    simp [trimStart, ha]
  rw [trim, hstart]
  cases cs with
  | nil => simp [trimStart, trimEnd, hb]
  | cons c r =>
    rw [trimStart_eq_self (by simpa using hhead), trimEnd_append_blank hb, trimEnd_eq_self hlast]

end DocWeaver.Text
