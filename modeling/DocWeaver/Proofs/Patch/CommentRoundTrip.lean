import DocWeaver.Patch.Comment
import DocWeaver.Extract.Declarations
import DocWeaver.Proofs.Generate.CleanText

/-!
Writing documentation text as a doc comment and reading it back.

A comment written for text that cleaning returned is one doc comment: it opens with `/**` and its
first `*/` is its last two characters (`SingleDocComment`), because the text holds no `*/` and
every piece the writer adds around a line keeps a `*` away from a `/`.

Reading a written comment back takes off, from every line, the blanks, one `*` and one blank
before the text, and the blanks after it. For text of several lines the writer puts ` * ` in
front of each line, so reading gives the lines back, without their trailing blanks
(`cleanDocText_formatDocComment`). Text of one line is written as `/** text */` with no ` * ` in
front, so a `*` that starts it is taken for the margin and lost
(`leading_star_of_one_line_is_lost`).
-/

namespace DocWeaver

open Text

/-- A single doc comment: it opens with `/**` and its first `*/`, which ends it, is its last two
characters; so it is not the empty comment `/**/` either. -/
def SingleDocComment (c : String) : Prop :=
  ∃ body, c.toList = ['/', '*', '*'] ++ body ++ ['*', '/'] ∧ ¬ ['*', '/'] <:+: '*' :: body

def marginLine (indent l : List Char) : List Char :=
  if l = [] then indent ++ [' ', '*'] else indent ++ [' ', '*', ' '] ++ l

/-! ### Where a `*/` can stand -/

theorem pair_infix_append {α : Type} {a b : α} {xs ys : List α} :
    [a, b] <:+: xs ++ ys ↔
      [a, b] <:+: xs ∨ [a, b] <:+: ys ∨ (xs.getLast? = some a ∧ ys.head? = some b) := by
  rw [List.infix_append_iff_ne_nil]
  constructor
  · rintro (h | h | ⟨l₁, l₂, h₁, h₂, heq, hsuf, hpre⟩)
    · exact Or.inl h
    · exact Or.inr (Or.inl h)
    · -- both sides of the join are not empty, so each holds one of the two
      obtain ⟨rfl, rfl⟩ : l₁ = [a] ∧ l₂ = [b] := by
        rcases l₁ with _ | ⟨x, _ | ⟨y, r⟩⟩
        · exact absurd rfl h₁
        · simp only [List.singleton_append, List.cons.injEq] at heq
          exact ⟨by rw [heq.1], heq.2.symm⟩
        · simp only [List.cons_append, List.cons.injEq, List.nil_eq, List.append_eq_nil_iff] at heq
          exact absurd heq.2.2.2 h₂
      exact Or.inr (Or.inr ⟨List.singleton_suffix_iff_getLast?_eq_some.mp hsuf,
        List.singleton_prefix_iff_head?_eq_some.mp hpre⟩)
  · rintro (h | h | ⟨hl, hh⟩)
    · exact Or.inl h
    · exact Or.inr (Or.inl h)
    · exact Or.inr (Or.inr ⟨[a], [b], by simp, by simp, rfl,
        List.singleton_suffix_iff_getLast?_eq_some.mpr hl,
        List.singleton_prefix_iff_head?_eq_some.mpr hh⟩)

theorem not_pair_infix_of_not_mem {α : Type} {a b : α} {xs : List α} (h : a ∉ xs) :
    ¬ [a, b] <:+: xs :=
  fun hi => h (hi.subset (List.mem_cons_self))

theorem not_close_intercalate {nl : List Char} (hnl : IsBreak nl) :
    ∀ {parts : List (List Char)}, (∀ p ∈ parts, ¬ ['*', '/'] <:+: p) →
      ¬ ['*', '/'] <:+: nl.intercalate parts
  | [], _ => by simp
  | [p], h => by simpa using h p List.mem_cons_self
  | p :: q :: rest, h => by
    have hrest : ¬ ['*', '/'] <:+: nl.intercalate (q :: rest) :=
      not_close_intercalate hnl (fun x hx => h x (List.mem_cons_of_mem p hx))
    have hnl' : ¬ ['*', '/'] <:+: nl ∧ nl.head? ≠ some '/' ∧
        (p ++ nl).getLast? ≠ some '*' := by
      rcases hnl with rfl | rfl <;> simp [List.getLast?_append] <;> decide
    rw [List.intercalate_cons_cons, pair_infix_append, pair_infix_append]
    rintro ((h₁ | h₂ | ⟨-, h₃⟩) | h₄ | ⟨h₅, -⟩)
    · exact h p List.mem_cons_self h₁
    · exact hnl'.1 h₂
    · exact hnl'.2.1 h₃
    · exact hrest h₄
    · exact hnl'.2.2 h₅

theorem not_close_marginLine {indent l : List Char} (hindent : '*' ∉ indent)
    (hl : ¬ ['*', '/'] <:+: l) : ¬ ['*', '/'] <:+: marginLine indent l := by
  have hstar : ¬ ['*', '/'] <:+: indent ++ [' ', '*'] := by
    rw [pair_infix_append]
    rintro (h | h | ⟨h, -⟩)
    · exact not_pair_infix_of_not_mem hindent h
    · exact absurd h (by decide)
    · exact hindent (List.mem_of_getLast? h)
  unfold marginLine
  split
  · exact hstar
  · rw [show indent ++ [' ', '*', ' '] ++ l = (indent ++ [' ', '*']) ++ ([' '] ++ l) by simp,
      pair_infix_append]
    rintro (h | h | ⟨-, h⟩)
    · exact hstar h
    · -- after the margin's blank comes the text, which holds no `*/`
      rw [pair_infix_append] at h
      rcases h with h | h | ⟨h, -⟩
      · exact absurd h (by decide)
      · exact hl h
      · simp at h
    · simp at h

/-! ### The written comment -/

theorem isBreak_toList {nl : String} (hnl : nl = "\n" ∨ nl = "\r\n") : IsBreak nl.toList := by
  rcases hnl with rfl | rfl
  · exact Or.inl rfl
  · exact Or.inr rfl

theorem intercalate_cons_append {α : Type} (sep p q : List α) (rest : List (List α)) :
    sep.intercalate ((p ++ q) :: rest) = p ++ sep.intercalate (q :: rest) := by
  cases rest with
  | nil => simp
  | cons r rs => simp [List.intercalate_cons_cons]

theorem intercalate_append_singleton {α : Type} (sep : List α) {xs : List (List α)}
    (hxs : xs ≠ [])
    (q : List α) : sep.intercalate (xs ++ [q]) = sep.intercalate xs ++ sep ++ q := by
  induction xs with
  | nil => exact absurd rfl hxs
  | cons x xs ih =>
    cases xs with
    | nil => simp
    | cons y ys =>
      simp only [List.cons_append] at ih ⊢
      rw [List.intercalate_cons_cons, List.intercalate_cons_cons, ih (List.cons_ne_nil y ys)]
      simp

theorem formatDocComment_toList_of_single {t l : String} (indent nl : String)
    (hstrip : Text.strip t = t) (hl : (splitLines t).map stripEnd = [l]) :
    (formatDocComment t indent nl).toList =
      ['/', '*', '*'] ++ (' ' :: l.toList ++ [' ']) ++ ['*', '/'] := by
  simp [formatDocComment, hstrip, hl, toString]

theorem formatDocComment_toList_of_lines {t : String} (indent nl : String)
    (hstrip : Text.strip t = t) (hls : ∀ l, (splitLines t).map stripEnd ≠ [l]) :
    (formatDocComment t indent nl).toList = ['/', '*', '*'] ++
      nl.toList.intercalate ([] :: ((lines t.toList).map trimEnd).map (marginLine indent.toList) ++
        [indent.toList ++ [' ']]) ++ ['*', '/'] := by
  unfold formatDocComment
  rw [hstrip]
  dsimp only
  split
  · rename_i l hl
    exact absurd hl (hls l)
  · have hmargin : ∀ l : String,
        (if l.isEmpty = true then s!"{indent} *" else s!"{indent} * {l}").toList =
          marginLine indent.toList l.toList := by
      intro l
      by_cases hl : l = ""
      · simp [hl, marginLine, toString]
      · simp [hl, marginLine, toString]
    simp only [String.toList_intercalate, List.map_cons, List.map_append, List.map_map,
      Function.comp_def, hmargin, List.map_nil, splitLines, stripEnd, String.toList_ofList]
    rw [intercalate_append_singleton _ (List.cons_ne_nil _ _),
      intercalate_append_singleton _ (List.cons_ne_nil _ _),
      show ("/**" : String).toList = ['/', '*', '*'] ++ [] from rfl, intercalate_cons_append]
    simp [toString]

/-! ### Reading the comment back -/

theorem cleanDocText_of_toList {c : String} {inner : List Char}
    (hc : c.toList = ['/', '*', '*'] ++ inner ++ ['*', '/']) :
    Extract.cleanDocText c = unwrapComment inner := by
  have hend : c.endsWith "*/" = true := by
    simp only [← String.endsWith_toSlice, String.Slice.endsWith_string_iff, String.copy_toSlice,
      hc]
    exact List.suffix_append _ _
  simp only [Extract.cleanDocText, hend, if_true, hc]
  simp

theorem isBlank_of_indent {indent : List Char} (hindent : ∀ c ∈ indent, c = ' ' ∨ c = '\t') :
    ∀ c ∈ indent ++ [' '], isBlank c = true := by
  intro c hc
  rcases List.mem_append.mp hc with hc | hc
  · rcases hindent c hc with rfl | rfl <;> decide
  · rw [List.mem_singleton.mp hc]
    decide

theorem dropMargin_marginLine {indent : List Char}
    (hindent : ∀ c ∈ indent, c = ' ' ∨ c = '\t')
    (l : List Char) : dropMargin (marginLine indent l) = l := by
  have hskip : ∀ r, dropMargin ((indent ++ [' ']) ++ r) = dropMargin r := by
    intro r
    simp only [dropMargin, List.dropWhile_append_of_pos (isBlank_of_indent hindent)]
  unfold marginLine
  split
  · rename_i hl
    subst hl
    rw [show indent ++ [' ', '*'] = (indent ++ [' ']) ++ ['*'] by simp, hskip]
    decide
  · rw [show indent ++ [' ', '*', ' '] ++ l = (indent ++ [' ']) ++ ('*' :: ' ' :: l) by simp,
      hskip]
    simp [dropMargin, show isBlank '*' = false by decide, show isBlank ' ' = true by decide]

theorem dropMargin_indent {indent : List Char} (hindent : ∀ c ∈ indent, c = ' ' ∨ c = '\t') :
    dropMargin (indent ++ [' ']) = [] := by
  simp [dropMargin, List.dropWhile_eq_nil_iff.mpr (isBlank_of_indent hindent)]

theorem dropMargin_single {c : Char} (hc : isBlank c = false) (hstar : c ≠ '*') (r : List Char) :
    dropMargin (' ' :: c :: r ++ [' ']) = c :: r ++ [' '] := by
  have hdrop : (' ' :: c :: r ++ [' ']).dropWhile isBlank = c :: (r ++ [' ']) := by
    simp [hc, show isBlank ' ' = true by decide]
  simp only [dropMargin, hdrop]
  -- the optional `*` of the margin is not there, and `c` is no blank to drop after it
  split
  next c' r' heq =>
    split at heq
    next heq' => exact absurd (List.cons.inj heq').1 hstar
    next =>
      obtain ⟨rfl, rfl⟩ := List.cons.inj heq
      simp [hc]
  next heq =>
    split at heq
    next heq' => exact absurd (List.cons.inj heq').1 hstar
    next => cases heq

theorem unwrapComment_single {T : List Char} (hunbroken : Unbroken T)
    (hhead : ∀ c ∈ T.head?, isBlank c = false ∧ c ≠ '*')
    (hlast : ∀ c ∈ T.getLast?, isBlank c = false) (hne : T ≠ []) :
    unwrapComment (' ' :: T ++ [' ']) = String.ofList T := by
  obtain ⟨c, r, rfl⟩ := List.exists_cons_of_ne_nil hne
  obtain ⟨hc, hstar⟩ := hhead c rfl
  have hline : Unbroken (' ' :: c :: r ++ [' ']) :=
    (show Unbroken [' '] by simp [Unbroken, isLineBoundary]).append
      (hunbroken.append (by simp [Unbroken, isLineBoundary]))
  have htrim : trimEnd (c :: r ++ [' ']) = c :: r := by
    rw [trimEnd_append_blank (by decide), trimEnd_eq_self hlast]
  rw [unwrapComment, lines_of_unbroken hline (by simp), List.map_singleton,
    dropMargin_single hc hstar, htrim, List.intercalate_singleton,
    trim_eq_self (by simpa using hc) hlast]

/-- A comment of several lines reads back as its lines joined by line feeds, when the joined
lines neither start nor end with a blank. -/
theorem unwrapComment_lines {indent : List Char} (hindent : ∀ c ∈ indent, c = ' ' ∨ c = '\t')
    {nl : List Char} (hnl : IsBreak nl) {ls : List (List Char)} (hls : ls ≠ [])
    (hunbroken : ∀ l ∈ ls, Unbroken l) (htrimmed : ∀ l ∈ ls, trimEnd l = l)
    (hhead : ∀ c ∈ (['\n'].intercalate ls).head?, isBlank c = false)
    (hlast : ∀ c ∈ (['\n'].intercalate ls).getLast?, isBlank c = false) :
    unwrapComment (nl.intercalate ([] :: ls.map (marginLine indent) ++ [indent ++ [' ']])) =
      String.ofList (['\n'].intercalate ls) := by
  have hindent' : Unbroken indent := by
    intro c hc
    rcases hindent c hc with rfl | rfl <;> decide
  have hlines : lines (nl.intercalate ([] :: ls.map (marginLine indent) ++ [indent ++ [' ']])) =
      [] :: ls.map (marginLine indent) ++ [indent ++ [' ']] := by
    apply lines_intercalate hnl
    · intro p hp
      simp only [List.cons_append, List.mem_cons, List.mem_append, List.mem_map,
        List.not_mem_nil, or_false] at hp
      rcases hp with rfl | ⟨l, hl, rfl⟩ | rfl
      · intro c hc
        cases hc
      · unfold marginLine
        split
        · exact hindent'.append (by simp [Unbroken, isLineBoundary])
        · exact (hindent'.append (by simp [Unbroken, isLineBoundary])).append (hunbroken l hl)
      · exact hindent'.append (by simp [Unbroken, isLineBoundary])
    · intro p hp
      rw [List.getLast?_concat, Option.mem_some_iff] at hp
      subst hp
      simp
  have hread : (([] :: ls.map (marginLine indent) ++ [indent ++ [' ']]).map
      fun l => trimEnd (dropMargin l)) = [] :: ls ++ [[]] := by
    simp only [List.cons_append, List.map_cons, List.map_append, List.map_map, Function.comp_def,
      dropMargin_marginLine hindent, dropMargin_indent hindent]
    rw [List.map_congr_left htrimmed, List.map_id']
    rfl
  -- the lines read back stand between two line feeds, which trimming takes off
  have hjoin : ['\n'].intercalate ([] :: ls ++ [[]]) = '\n' :: ['\n'].intercalate ls ++ ['\n'] := by
    rw [intercalate_append_singleton _ (List.cons_ne_nil _ _),
      List.intercalate_cons_of_ne_nil hls]
    simp
  rw [unwrapComment, hlines, hread, hjoin, trim_blank_cons_append_blank (by decide) (by decide)
    hhead hlast]

/-! ### The round trip -/

theorem trimEnd_isPrefix (cs : List Char) : trimEnd cs <+: cs := List.rdropWhile_prefix isBlank cs

theorem head?_intercalate {α : Type} (sep x : List α) (xs : List (List α)) (hx : x ≠ []) :
    (sep.intercalate (x :: xs)).head? = x.head? := by
  obtain ⟨a, as, rfl⟩ := List.exists_cons_of_ne_nil hx
  simp

theorem getLast?_intercalate {α : Type} (sep y : List α) (xs : List (List α)) (hy : y ≠ []) :
    (sep.intercalate (xs ++ [y])).getLast? = y.getLast? := by
  cases xs with
  | nil => simp
  | cons x xs =>
    rw [intercalate_append_singleton _ (List.cons_ne_nil x xs), List.getLast?_append_of_ne_nil _ hy]

theorem head?_intercalate_trimEnd_lines {cs : List Char} {a : Char} (ha : cs.head? = some a)
    (hb : isBlank a = false) : (['\n'].intercalate ((lines cs).map trimEnd)).head? = some a := by
  obtain ⟨l, hl, hla⟩ := head_lines ha (isLineBoundary_eq_false_of_isBlank hb)
  obtain ⟨rest, hrest⟩ : ∃ rest, lines cs = l :: rest := by
    cases h : lines cs with
    | nil => simp [h] at hl
    | cons x xs =>
      rw [h, List.head?_cons, Option.mem_some_iff] at hl
      exact ⟨xs, by rw [hl]⟩
  have hhead : (trimEnd l).head? = some a := by
    rw [head_trimEnd (by simpa [hla] using hb), hla]
  rw [hrest, List.map_cons, head?_intercalate _ _ _ (by rintro h; simp [h] at hhead), hhead]

theorem getLast?_intercalate_trimEnd_lines {cs : List Char} {z : Char} (hz : cs.getLast? = some z)
    (hb : isBlank z = false) :
    (['\n'].intercalate ((lines cs).map trimEnd)).getLast? = some z := by
  obtain ⟨l, hl, hlz⟩ := getLast_lines hz (isLineBoundary_eq_false_of_isBlank hb)
  have hsplit : lines cs = (lines cs).dropLast ++ [l] := (List.dropLast_append_getLast? l hl).symm
  have htrim : trimEnd l = l := trimEnd_eq_self (by simpa [hlz] using hb)
  rw [hsplit, List.map_append, List.map_singleton, htrim,
    getLast?_intercalate _ _ _ (by rintro rfl; simp at hlz), hlz]

theorem not_close_single {T : List Char} (hT : ¬ ['*', '/'] <:+: T) :
    ¬ ['*', '/'] <:+: '*' :: (' ' :: T ++ [' ']) := by
  rw [show '*' :: (' ' :: T ++ [' ']) = (['*', ' '] ++ T) ++ [' '] by simp, pair_infix_append,
    pair_infix_append]
  rintro ((h | h | ⟨h, -⟩) | h | ⟨-, h⟩)
  · exact absurd h (by decide)
  · exact hT h
  · simp at h
  · exact absurd h (by decide)
  · simp at h

theorem roundTrip_single {t indent nl l : String} (hins : Insertable t)
    (htrim : trim t.toList = t.toList) (hl : (splitLines t).map stripEnd = [l])
    (hstar : t.toList.head? ≠ some '*') :
    SingleDocComment (formatDocComment t indent nl) ∧
      Extract.cleanDocText (formatDocComment t indent nl) =
        "\n".intercalate ((splitLines t).map stripEnd) := by
  have hstrip : Text.strip t = t := String.ext (by rw [Text.strip, String.toList_ofList, htrim])
  obtain ⟨hhead, hlast⟩ := (trim_eq_self_iff _).mp htrim
  -- the one line is the whole text, which has no blank at its end to lose
  obtain ⟨p, hp, hlp⟩ : ∃ p, lines t.toList = [p] ∧ l = String.ofList (trimEnd p) := by
    simp only [splitLines, List.map_map, List.map_eq_singleton_iff] at hl
    obtain ⟨p, hp, hpl⟩ := hl
    exact ⟨p, hp, by simp [← hpl, stripEnd]⟩
  have ht : t.toList = p :=
    eq_of_lines_eq_singleton hp (fun c hc => isLineBoundary_eq_false_of_isBlank (hlast c hc))
  have hlt : l.toList = t.toList := by
    rw [hlp, String.toList_ofList, ← ht, trimEnd_eq_self hlast]
  have hc := formatDocComment_toList_of_single indent nl hstrip hl
  rw [hlt] at hc
  refine ⟨⟨_, hc, not_close_single hins.no_close⟩, ?_⟩
  have hunbroken : Unbroken t.toList :=
    ht ▸ unbroken_of_mem_lines (hp ▸ List.mem_singleton_self p)
  have hne : t.toList ≠ [] := by simpa using hins.ne_empty
  rw [cleanDocText_of_toList hc, hl, String.intercalate_singleton,
    unwrapComment_single hunbroken (fun c hc => ⟨hhead c hc, fun h => hstar (h ▸ hc)⟩) hlast
      hne]
  exact String.ext (by rw [String.toList_ofList, hlt])

theorem trimEnd_lines_of_insertable {t : String} (hins : Insertable t) :
    ∀ l ∈ (lines t.toList).map trimEnd,
      Unbroken l ∧ trimEnd l = l ∧ ¬ ['*', '/'] <:+: l := by
  intro l hl
  obtain ⟨p, hp, rfl⟩ := List.mem_map.mp hl
  refine ⟨fun c hc => unbroken_of_mem_lines hp c ((trimEnd_isPrefix p).subset hc),
    trimEnd_trimEnd p, fun h => hins.no_close ?_⟩
  exact h.trans ((trimEnd_isPrefix p).isInfix.trans (infix_of_mem_lines hp))

theorem singleDocComment_lines {t indent nl : String} (hins : Insertable t)
    (hstrip : Text.strip t = t) (hindent : ∀ c ∈ indent.toList, c = ' ' ∨ c = '\t')
    (hnl : IsBreak nl.toList) (hls : ∀ l, (splitLines t).map stripEnd ≠ [l]) :
    SingleDocComment (formatDocComment t indent nl) := by
  have hnostar : '*' ∉ indent.toList := fun h => by
    rcases hindent '*' h with h | h <;> exact absurd h (by decide)
  have hparts : ∀ p ∈ [] :: ((lines t.toList).map trimEnd).map (marginLine indent.toList) ++
      [indent.toList ++ [' ']], ¬ ['*', '/'] <:+: p := by
    intro p hp
    simp only [List.cons_append, List.mem_cons, List.mem_append, List.mem_map,
      List.not_mem_nil, or_false] at hp
    rcases hp with rfl | ⟨l, hl, rfl⟩ | rfl
    · simp
    · exact not_close_marginLine hnostar (trimEnd_lines_of_insertable hins l
        (List.mem_map.mpr hl)).2.2
    · exact not_pair_infix_of_not_mem (by simpa using hnostar)
  refine ⟨_, formatDocComment_toList_of_lines indent nl hstrip hls, ?_⟩
  -- the body opens with the break, so the `*` of `/**` meets no `/`
  change ¬ ['*', '/'] <:+: ['*'] ++ nl.toList.intercalate _
  rw [pair_infix_append]
  rintro (h | h | ⟨-, h⟩)
  · exact absurd h (by decide)
  · exact not_close_intercalate hnl hparts h
  · rw [List.cons_append, List.intercalate_cons_of_ne_nil (by simp), List.nil_append,
      List.head?_append] at h
    rcases hnl with hnl | hnl <;> simp [hnl] at h

theorem roundTrip_lines {t indent nl : String} (hins : Insertable t)
    (htrim : trim t.toList = t.toList) (hindent : ∀ c ∈ indent.toList, c = ' ' ∨ c = '\t')
    (hnl : IsBreak nl.toList) (hls : ∀ l, (splitLines t).map stripEnd ≠ [l]) :
    SingleDocComment (formatDocComment t indent nl) ∧
      Extract.cleanDocText (formatDocComment t indent nl) =
        "\n".intercalate ((splitLines t).map stripEnd) := by
  have hstrip : Text.strip t = t := String.ext (by rw [Text.strip, String.toList_ofList, htrim])
  refine ⟨singleDocComment_lines hins hstrip hindent hnl hls, ?_⟩
  obtain ⟨hhead, hlast⟩ := (trim_eq_self_iff _).mp htrim
  set L := (lines t.toList).map trimEnd with hL
  have hpiece := trimEnd_lines_of_insertable hins
  -- the joined lines start and end as the text does, so none of their ends is blank
  have hne : t.toList ≠ [] := by simpa using hins.ne_empty
  have hLhead : (['\n'].intercalate L).head? = some (t.toList.head hne) :=
    head?_intercalate_trimEnd_lines (List.head?_eq_some_head hne)
      (hhead _ (List.head?_eq_some_head hne))
  have hLlast : (['\n'].intercalate L).getLast? = some (t.toList.getLast hne) :=
    getLast?_intercalate_trimEnd_lines (List.getLast?_eq_some_getLast hne)
      (hlast _ (List.getLast?_eq_some_getLast hne))
  have hLne : L ≠ [] := by
    rintro h
    rw [h] at hLhead
    simp at hLhead
  have hread := unwrapComment_lines hindent hnl hLne
    (fun l hl => (hpiece l hl).1) (fun l hl => (hpiece l hl).2.1)
    (by simpa [hLhead] using hhead _ (List.head?_eq_some_head hne))
    (by simpa [hLlast] using hlast _ (List.getLast?_eq_some_getLast hne))
  rw [cleanDocText_of_toList (formatDocComment_toList_of_lines indent nl hstrip hls), hread]
  apply String.ext
  simp [String.toList_intercalate, hL, splitLines, stripEnd, Function.comp_def]

/-- The text of a doc comment written for cleaned text reads back as that text's lines, trimmed
at their ends and joined by line feeds, and the comment is one block comment, for an indentation
of spaces and tabs and either break; unless the text is one line that starts with `*`. -/
theorem cleanDocText_formatDocComment {raw t indent nl : String}
    (hclean : cleanGeneratedText raw = .ok t)
    (hindent : ∀ c ∈ indent.toList, c = ' ' ∨ c = '\t')
    (hnl : nl = "\n" ∨ nl = "\r\n")
    (hstar : (splitLines t).length = 1 → t.toList.head? ≠ some '*') :
    SingleDocComment (formatDocComment t indent nl) ∧
      Extract.cleanDocText (formatDocComment t indent nl) =
        "\n".intercalate ((splitLines t).map stripEnd) := by
  obtain ⟨hins, htrim⟩ := cleanGeneratedText_cleaned hclean
  by_cases hone : ∃ l, (splitLines t).map stripEnd = [l]
  · obtain ⟨l, hl⟩ := hone
    have hlen : (splitLines t).length = 1 := by simpa using congrArg List.length hl
    exact roundTrip_single hins htrim hl (hstar hlen)
  · exact roundTrip_lines hins htrim hindent (isBreak_toList hnl) (fun l hl => hone ⟨l, hl⟩)

/-- Cleaned text of three lines, one of them empty and one indented, written with an indentation
of two spaces and carriage-return line feeds, reads back as it was cleaned. -/
theorem cleanDocText_formatDocComment_crlf_block :
    cleanGeneratedText "\x60\x60\x60\nAdds.\n\n  Returns a sum.\n\x60\x60\x60" =
        .ok "Adds.\n\n  Returns a sum." ∧
      SingleDocComment (formatDocComment "Adds.\n\n  Returns a sum." "  " "\r\n") ∧
      Extract.cleanDocText (formatDocComment "Adds.\n\n  Returns a sum." "  " "\r\n") =
        "Adds.\n\n  Returns a sum." := by
  have hclean : cleanGeneratedText "\x60\x60\x60\nAdds.\n\n  Returns a sum.\n\x60\x60\x60" =
      .ok "Adds.\n\n  Returns a sum." := by
    have hkept : "Adds.\n\n  Returns a sum." = unwrapDocBlock (Text.strip ("\n".intercalate
        (stripFences (splitLines (Text.strip "\x60\x60\x60\nAdds.\n\n  Returns a sum.\n\x60\x60\x60"))))) := by
      decide +kernel
    rw [cleanGeneratedText, ← hkept, checkInsertable_eq_ok_iff]
    exact ⟨rfl, by decide, by decide +kernel, by decide +kernel⟩
  have hlines : "\n".intercalate ((splitLines "Adds.\n\n  Returns a sum.").map stripEnd) =
      "Adds.\n\n  Returns a sum." := by
    decide +kernel
  obtain ⟨hsingle, hread⟩ :=
    cleanDocText_formatDocComment hclean
      (show ∀ c ∈ ("  " : String).toList, c = ' ' ∨ c = '\t' by simp) (Or.inr rfl)
      (by decide +kernel)
  exact ⟨hclean, hsingle, hread.trans hlines⟩

/-- Cleaned text of one line that starts with `*` loses that `*` when read back from its comment:
`/** *Note* adds. */` reads as `Note* adds.`. -/
theorem leading_star_of_one_line_is_lost :
    cleanGeneratedText "*Note* adds." = .ok "*Note* adds." ∧
      "\n".intercalate ((splitLines "*Note* adds.").map stripEnd) = "*Note* adds." ∧
      Extract.cleanDocText (formatDocComment "*Note* adds." "" "\n") = "Note* adds." := by
  have hkept : "*Note* adds." =
      unwrapDocBlock (Text.strip ("\n".intercalate (stripFences (splitLines (Text.strip "*Note* adds."))))) := by
    decide +kernel
  refine ⟨?_, by decide +kernel, by decide +kernel⟩
  rw [cleanGeneratedText, ← hkept, checkInsertable_eq_ok_iff]
  exact ⟨rfl, by decide, by decide +kernel, by decide +kernel⟩

end DocWeaver
