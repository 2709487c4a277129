import DocWeaver.Coverage.Verdict
import DocWeaver.Hosting.PatchRanges
import DocWeaver.Proofs.Extract.RangeLines

/-!
Which declarations an incremental run documents for a pull request's patch.

The changed lines of a unified diff are read off its lines hunk by hunk. From the new-side start
that a hunk header gives, an added line marks the counter and moves it on, a removed line marks
it (at least line 1) without moving it, a `\` line does nothing and any other line moves it on.
`ChangedLine` says this of a list of diff lines without the walk, and the walk finds exactly
those lines (`mem_changedLines_iff`). Merging them into ranges keeps exactly them
(`covers_mergeLines`), and the full range of a declaration meets a merged range exactly
when it holds one of them. So an incremental run documents a declaration of a file exactly when
one of the changed lines of the file's patch lies within it, and rewrites the comment exactly when
it has one (`incremental_verdict_iff_changed_line_of_lines`).

The lines of the patch are those that `Text.splitLines` cuts: a carriage return, a form feed and
the other line boundaries end a line too. For a patch whose only line boundaries are line feeds
they are the pieces between its line feeds (`changedLine_feedLines_iff`).
-/

namespace DocWeaver

open DocWeaver.Syntax DocWeaver.Extract

/-! ### Merging changed lines into ranges -/

def LineRange.Holds (r : LineRange) (L : Int) : Prop := r.start ≤ L ∧ L ≤ r.stop

/-- Some range of `rs` holds line `L`. -/
def Covers (rs : List LineRange) (L : Int) : Prop := ∃ r ∈ rs, r.Holds L

@[simp] theorem LineRange.holds_point (l L : Int) : (⟨l, l⟩ : LineRange).Holds L ↔ L = l := by
  simp only [LineRange.Holds]
  omega

@[simp] theorem covers_nil (L : Int) : ¬Covers [] L := by
  simp [Covers]

@[simp] theorem covers_cons (r : LineRange) (rs : List LineRange) (L : Int) :
    Covers (r :: rs) L ↔ r.Holds L ∨ Covers rs L := by
  simp [Covers]

def mergeStep (acc : List LineRange) (l : Int) : List LineRange :=
  match acc with
  | r :: rest => if l == r.stop + 1 then ⟨r.start, l⟩ :: rest else ⟨l, l⟩ :: r :: rest
  | [] => [⟨l, l⟩]

theorem mergeLines_eq_foldl (ls : List Int) :
    mergeLines ls = ((ls.mergeSort (· ≤ ·)).eraseDups.foldl mergeStep []).reverse := rfl

theorem mergeStep_covers {acc : List LineRange} (hacc : ∀ r ∈ acc, r.start ≤ r.stop) (l : Int) :
    (∀ L, Covers (mergeStep acc l) L ↔ Covers acc L ∨ L = l) ∧
      ∀ r ∈ mergeStep acc l, r.start ≤ r.stop := by
  cases acc with
  | nil => simp [mergeStep]
  | cons r rest =>
    have hr := hacc r List.mem_cons_self
    by_cases hnext : l = r.stop + 1
    · -- the last range grows by one line at its end
      have hgrow : ∀ L, (⟨r.start, l⟩ : LineRange).Holds L ↔ r.Holds L ∨ L = l := by
        intro L
        simp only [LineRange.Holds]
        omega
      simp only [mergeStep, hnext, beq_self_eq_true, if_true, List.forall_mem_cons] at hacc ⊢
      refine ⟨fun L => ?_, ⟨by omega, hacc.2⟩⟩
      rw [← hnext, covers_cons, covers_cons, hgrow L]
      tauto
    · have hne : (l == r.stop + 1) = false := beq_eq_false_iff_ne.mpr hnext
      simp only [mergeStep, hne, Bool.false_eq_true, if_false, List.forall_mem_cons] at hacc ⊢
      refine ⟨fun L => ?_, ⟨Int.le_refl l, hacc⟩⟩
      rw [covers_cons, LineRange.holds_point, or_comm]

theorem foldl_mergeStep_covers (xs : List Int) :
    ∀ acc : List LineRange, (∀ r ∈ acc, r.start ≤ r.stop) →
      (∀ L, Covers (xs.foldl mergeStep acc) L ↔ Covers acc L ∨ L ∈ xs) ∧
        ∀ r ∈ xs.foldl mergeStep acc, r.start ≤ r.stop := by
  induction xs with
  | nil => intro acc hacc; exact ⟨fun L => by simp, hacc⟩
  | cons x xs ih =>
    intro acc hacc
    obtain ⟨hstep, hforward⟩ := mergeStep_covers hacc x
    obtain ⟨hrun, hforward'⟩ := ih (mergeStep acc x) hforward
    refine ⟨fun L => ?_, hforward'⟩
    rw [List.foldl_cons, hrun L, hstep L, List.mem_cons, or_assoc]

theorem covers_mergeLines (ls : List Int) (L : Int) : Covers (mergeLines ls) L ↔ L ∈ ls := by
  obtain ⟨hrun, -⟩ := foldl_mergeStep_covers ((ls.mergeSort (· ≤ ·)).eraseDups) [] (by simp)
  have hrev : Covers (mergeLines ls) L ↔
      Covers ((ls.mergeSort (· ≤ ·)).eraseDups.foldl mergeStep []) L := by
    simp only [Covers, mergeLines_eq_foldl, List.mem_reverse]
  rw [hrev, hrun L]
  simp

theorem start_le_stop_of_mem_mergeLines {ls : List Int} {r : LineRange} (hr : r ∈ mergeLines ls) :
    r.start ≤ r.stop := by
  obtain ⟨-, hforward⟩ :=
    foldl_mergeStep_covers ((ls.mergeSort (· ≤ ·)).eraseDups) [] (by simp)
  rw [mergeLines_eq_foldl, List.mem_reverse] at hr
  exact hforward r hr

/-! ### Ranges that meet -/

theorem meetsLines_iff {s : SourceRange} (hs : s.startLine ≤ s.endLine) {r : LineRange}
    (hr : r.start ≤ r.stop) :
    s.meetsLines r.start r.stop = true ↔
      ∃ L, r.Holds L ∧ (s.startLine : Int) ≤ L ∧ L ≤ (s.endLine : Int) := by
  simp only [SourceRange.meetsLines, Bool.and_eq_true, decide_eq_true_eq, LineRange.Holds]
  constructor
  · rintro ⟨h₁, h₂⟩
    exact ⟨max r.start s.startLine, ⟨by omega, by omega⟩, by omega, by omega⟩
  · rintro ⟨L, ⟨h₁, h₂⟩, h₃, h₄⟩
    omega

theorem any_meetsLines_mergeLines {s : SourceRange} (hs : s.startLine ≤ s.endLine)
    (ls : List Int) :
    (mergeLines ls).any (fun r => s.meetsLines r.start r.stop) = true ↔
      ∃ L ∈ ls, (s.startLine : Int) ≤ L ∧ L ≤ (s.endLine : Int) := by
  rw [List.any_eq_true]
  constructor
  · rintro ⟨r, hr, hmeet⟩
    obtain ⟨L, hL, hlo, hhi⟩ := (meetsLines_iff hs (start_le_stop_of_mem_mergeLines hr)).mp hmeet
    exact ⟨L, (covers_mergeLines ls L).mp ⟨r, hr, hL⟩, hlo, hhi⟩
  · rintro ⟨L, hL, hlo, hhi⟩
    obtain ⟨r, hr, hholds⟩ := (covers_mergeLines ls L).mpr hL
    exact ⟨r, hr,
      (meetsLines_iff hs (start_le_stop_of_mem_mergeLines hr)).mpr ⟨L, hholds, hlo, hhi⟩⟩

/-! ### The changed lines of a diff -/

def advancesCounter (l : String) : Bool := !l.startsWith "\\" && !l.startsWith "-"

def MarkedFrom (c : Int) (ls : List String) (L : Int) : Prop :=
  ∃ mid l post, ls = mid ++ l :: post ∧ (∀ m ∈ mid, hunkStart m = none) ∧
    (l.startsWith "+" ∧ L = c + mid.countP advancesCounter ∨
      l.startsWith "-" ∧ L = max (c + mid.countP advancesCounter) 1)

def ChangedLine (ls : List String) (L : Int) : Prop :=
  ∃ pre hdr rest c, ls = pre ++ hdr :: rest ∧ hunkStart hdr = some c ∧ MarkedFrom c rest L

theorem startsWith_char_iff (l p : String) (ch : Char) (hp : p.toList = [ch]) :
    l.startsWith p = true ↔ l.toList.head? = some ch := by
  rw [String.startsWith_string_iff, hp]
  cases l.toList with
  | nil => simp
  | cons c cs => simp [List.cons_prefix_cons, eq_comm]

theorem startsWith_eq_false_of_startsWith {l p q : String} (h : l.startsWith p = true)
    (a b : Char) (hp : p.toList = [a]) (hq : q.toList = [b]) (hab : a ≠ b) :
    l.startsWith q = false := by
  rw [← Bool.not_eq_true, startsWith_char_iff l q b hq, (startsWith_char_iff l p a hp).mp h]
  simpa using hab

theorem hunkStart_of_startsWith {l p : String} (h : l.startsWith p = true) (ch : Char)
    (hp : p.toList = [ch]) (hch : ch ≠ '@') : hunkStart l = none := by
  have hhead := (startsWith_char_iff l p ch hp).mp h
  cases hl : l.toList with
  | nil => simp [hl] at hhead
  | cons c t =>
    rw [hl, List.head?_cons, Option.some.injEq] at hhead
    subst hhead
    simp [hunkStart, hl, hch]

theorem startsWith_eq_false_of_hunkStart {l : String} {s : Nat} (hs : hunkStart l = some s)
    (p : String) (ch : Char) (hp : p.toList = [ch]) (hch : ch ≠ '@') :
    l.startsWith p = false := by
  by_contra h
  rw [Bool.not_eq_false] at h
  rw [hunkStart_of_startsWith h ch hp hch] at hs
  exact nomatch hs

theorem counter_cons (c : Int) (l : String) (mid : List String) :
    c + ((l :: mid).countP advancesCounter : Int) =
      (c + if advancesCounter l then 1 else 0) + (mid.countP advancesCounter : Int) := by
  rw [List.countP_cons]
  split <;> push_cast <;> omega

theorem markedFrom_nil (c L : Int) : ¬MarkedFrom c [] L := by
  rintro ⟨mid, l, post, h, -⟩
  simp at h

theorem markedFrom_cons (c : Int) (l : String) (ls : List String) (L : Int) :
    MarkedFrom c (l :: ls) L ↔
      (l.startsWith "+" ∧ L = c ∨ l.startsWith "-" ∧ L = max c 1) ∨
        hunkStart l = none ∧ MarkedFrom (c + if advancesCounter l then 1 else 0) ls L := by
  constructor
  · rintro ⟨mid, x, post, heq, hmid, hx⟩
    cases mid with
    | nil =>
      obtain ⟨rfl, rfl⟩ := List.cons_eq_cons.mp heq
      simpa using Or.inl hx
    | cons m mid =>
      obtain ⟨rfl, rfl⟩ := List.cons_eq_cons.mp heq
      rw [counter_cons] at hx
      exact Or.inr ⟨hmid l List.mem_cons_self, mid, x, post, rfl,
        fun m' hm' => hmid m' (List.mem_cons_of_mem _ hm'), hx⟩
  · rintro (hx | ⟨hnone, mid, x, post, rfl, hmid, hx⟩)
    · exact ⟨[], l, ls, rfl, (fun _ h => nomatch h), by simpa using hx⟩
    · refine ⟨l :: mid, x, post, rfl, ?_, by rw [counter_cons]; exact hx⟩
      intro m hm
      rcases List.mem_cons.mp hm with rfl | hm
      · exact hnone
      · exact hmid m hm

theorem changedLine_nil (L : Int) : ¬ChangedLine [] L := by
  rintro ⟨pre, hdr, rest, c, h, -⟩
  simp at h

theorem changedLine_cons (l : String) (ls : List String) (L : Int) :
    ChangedLine (l :: ls) L ↔
      (∃ c, hunkStart l = some c ∧ MarkedFrom c ls L) ∨ ChangedLine ls L := by
  constructor
  · rintro ⟨pre, hdr, rest, c, heq, hc, hmark⟩
    cases pre with
    | nil =>
      obtain ⟨rfl, rfl⟩ := List.cons_eq_cons.mp heq
      exact Or.inl ⟨c, hc, hmark⟩
    | cons p pre =>
      obtain ⟨rfl, rfl⟩ := List.cons_eq_cons.mp heq
      exact Or.inr ⟨pre, hdr, rest, c, rfl, hc, hmark⟩
  · rintro (⟨c, hc, hmark⟩ | ⟨pre, hdr, rest, c, rfl, hc, hmark⟩)
    · exact ⟨[], l, ls, c, rfl, hc, hmark⟩
    · exact ⟨l :: pre, hdr, rest, c, rfl, hc, hmark⟩

/-- The walk over a diff's lines collects the lines it had collected, those that the hunk it is
in marks from its counter, and those that later hunks mark. -/
theorem mem_changedLines (ls : List String) (next : Int) (inHunk : Bool) (acc : List Int)
    (L : Int) :
    L ∈ changedLines ls next inHunk acc ↔
      L ∈ acc ∨ (inHunk = true ∧ MarkedFrom next ls L) ∨ ChangedLine ls L := by
  fun_induction changedLines ls next inHunk acc with
  | case1 next inHunk acc => simp [markedFrom_nil, changedLine_nil]
  | case2 l ls next inHunk acc s hs ih =>
    -- a header opens a hunk at its start line, and marks nothing in the hunk before it
    have hmark : ¬MarkedFrom next (l :: ls) L := by
      rw [markedFrom_cons, startsWith_eq_false_of_hunkStart hs "+" '+' rfl (by decide),
        startsWith_eq_false_of_hunkStart hs "-" '-' rfl (by decide), hs]
      simp
    rw [ih, changedLine_cons]
    simp [hs, hmark]
  | case3 l ls next inHunk acc hs hskip ih =>
    -- outside a hunk, and on a `\` line, nothing is marked and the counter stays
    have hmark : inHunk = true → (MarkedFrom next (l :: ls) L ↔ MarkedFrom next ls L) := by
      intro hin
      have hnote : l.startsWith "\\" = true := by simpa [hin] using hskip
      rw [markedFrom_cons,
        startsWith_eq_false_of_startsWith hnote '\\' '+' rfl rfl (by decide),
        startsWith_eq_false_of_startsWith hnote '\\' '-' rfl rfl (by decide)]
      simp [advancesCounter, hnote, hs]
    rw [ih, changedLine_cons]
    cases inHunk with
    | false => simp [hs]
    | true => simp [hs, hmark rfl]
  | case4 l ls next inHunk acc hs hskip hplus ih =>
    have hin : inHunk = true := by simp_all
    have hminus : l.startsWith "-" = false :=
      startsWith_eq_false_of_startsWith hplus '+' '-' rfl rfl (by decide)
    have hnote : l.startsWith "\\" = false :=
      startsWith_eq_false_of_startsWith hplus '+' '\\' rfl rfl (by decide)
    rw [ih, changedLine_cons, markedFrom_cons, hplus, hminus, hin]
    simp only [advancesCounter, hnote, hminus, hs, List.mem_cons]
    simp
    tauto
  | case5 l ls next inHunk acc hs hskip hplus hminus ih =>
    have hin : inHunk = true := by simp_all
    have hnote : l.startsWith "\\" = false :=
      startsWith_eq_false_of_startsWith hminus '-' '\\' rfl rfl (by decide)
    rw [ih, changedLine_cons, markedFrom_cons, Bool.eq_false_iff.mpr hplus, hminus, hin]
    simp only [advancesCounter, hnote, hminus, hs, List.mem_cons]
    simp
    tauto
  | case6 l ls next inHunk acc hs hskip hplus hminus ih =>
    have hin : inHunk = true := by simp_all
    have hnote : l.startsWith "\\" = false := by simp_all
    rw [ih, changedLine_cons, markedFrom_cons, Bool.eq_false_iff.mpr hplus,
      Bool.eq_false_iff.mpr hminus, hin]
    simp [advancesCounter, hnote, hminus, hs]

theorem mem_changedLines_iff (ls : List String) (L : Int) :
    L ∈ changedLines ls 0 false [] ↔ ChangedLine ls L := by
  simp [mem_changedLines]

theorem changedLines_append_empty (ls : List String) :
    ∀ (next : Int) (inHunk : Bool) (acc : List Int),
      changedLines (ls ++ [""]) next inHunk acc = changedLines ls next inHunk acc := by
  induction ls with
  | nil =>
    intro next inHunk acc
    have h0 : hunkStart "" = none := rfl
    cases inHunk <;> simp [changedLines, h0]
  | cons l ls ih =>
    intro next inHunk acc
    simp only [List.cons_append, changedLines, ih]

/-! ### The lines of a patch -/

/-- The pieces of a text between its line feeds. -/
def feedLines (s : String) : List String := (s.toList.splitOn '\n').map String.ofList

theorem splitBreaksAux_feed (acc cs : List Char) :
    Text.splitBreaksAux acc ('\n' :: cs) = (acc.reverse, ['\n']) :: Text.splitBreaksAux [] cs := by
  simp [Text.splitBreaksAux, Text.isLineBoundary]

theorem splitBreaksAux_of_not_boundary {c : Char} (hc : Text.isLineBoundary c = false)
    (acc cs : List Char) :
    Text.splitBreaksAux acc (c :: cs) = Text.splitBreaksAux (c :: acc) cs := by
  have hcr : c ≠ '\r' := by rintro rfl; simp [Text.isLineBoundary] at hc
  rw [Text.splitBreaksAux]
  · simp [hc]
  · intro rest h; exact absurd h hcr

theorem splitOnPPrepend_of_feeds (cs : List Char)
    (h : ∀ c ∈ cs, Text.isLineBoundary c = true → c = '\n') :
    ∀ acc : List Char, ∃ tail, cs.splitOnPPrepend (· == '\n') acc =
      (Text.splitBreaksAux acc cs).map Prod.fst ++ tail ∧ (tail = [] ∨ tail = [[]]) := by
  induction cs with
  | nil =>
    intro acc
    cases acc with
    | nil => exact ⟨[[]], by simp [Text.splitBreaksAux], Or.inr rfl⟩
    | cons a acc => exact ⟨[], by simp [Text.splitBreaksAux], Or.inl rfl⟩
  | cons c cs ih =>
    intro acc
    have h' : ∀ x ∈ cs, Text.isLineBoundary x = true → x = '\n' :=
      fun x hx => h x (List.mem_cons_of_mem _ hx)
    by_cases hc : c = '\n'
    · -- a line feed ends the piece
      subst hc
      obtain ⟨tail, heq, htail⟩ := ih h' []
      refine ⟨tail, ?_, htail⟩
      rw [List.splitOnPPrepend_nil_right] at heq
      rw [List.splitOnPPrepend_cons_pos (by simp), heq, splitBreaksAux_feed]
      simp
    · -- any other character is no line boundary, and joins the piece
      have hb : Text.isLineBoundary c = false := by
        by_contra hb
        exact hc (h c List.mem_cons_self (by simpa using hb))
      obtain ⟨tail, heq, htail⟩ := ih h' (c :: acc)
      refine ⟨tail, ?_, htail⟩
      rw [List.splitOnPPrepend_cons_neg (by simpa using hc), heq, splitBreaksAux_of_not_boundary hb]

theorem feedLines_of_feeds (s : String)
    (h : ∀ c ∈ s.toList, Text.isLineBoundary c = true → c = '\n') :
    feedLines s = Text.splitLines s ∨ feedLines s = Text.splitLines s ++ [""] := by
  obtain ⟨tail, heq, htail⟩ := splitOnPPrepend_of_feeds s.toList h []
  have hfeed : feedLines s = (Text.splitLines s ++ tail.map String.ofList) := by
    rw [feedLines, List.splitOn_eq_splitOnP, List.splitOnP_eq_splitOnPPrepend, heq, List.map_append]
    rfl
  rcases htail with rfl | rfl
  · exact Or.inl (by simpa using hfeed)
  · exact Or.inr (by simpa using hfeed)

theorem changedLine_feedLines_iff (patch : String)
    (h : ∀ c ∈ patch.toList, Text.isLineBoundary c = true → c = '\n') (L : Int) :
    ChangedLine (feedLines patch) L ↔ L ∈ changedLines (Text.splitLines patch) 0 false [] := by
  rw [← mem_changedLines_iff]
  rcases feedLines_of_feeds patch h with heq | heq
  · rw [heq]
  · rw [heq, changedLines_append_empty]

/-! ### Verdicts of an incremental run -/

theorem judge_verdict_of_listed {a : CoverageAnalyzer} {cs : ChangeSet} {d : Declaration}
    (hmode : a.mode = .incremental) (hcs : a.changeSet = some cs)
    (hlisted : cs.contains d.filePath = true) (hkept : a.isExcludedFile d.filePath = false) :
    (a.judge d).verdict =
      if a.isTouched d then (if d.isDocumented then .regenerate else .generate) else .skip := by
  simp only [CoverageAnalyzer.judge, hkept, hmode, hcs, hlisted]
  split_ifs <;> simp_all

theorem isTouched_of_patch {a : CoverageAnalyzer} {d : Declaration} {c : FileChange}
    {patch : String} (hcs : a.changeSet = some ⟨[(d.filePath, c)]⟩)
    (hranges : c.ranges = parsePatchRanges patch) (hlines : d.full.startLine ≤ d.full.endLine) :
    a.isTouched d = true ↔
      ∃ L, ChangedLine (Text.splitLines patch) L ∧ (d.full.startLine : Int) ≤ L ∧
        L ≤ (d.full.endLine : Int) := by
  simp only [CoverageAnalyzer.isTouched, hcs, ChangeSet.rangesFor, List.lookup_cons_self,
    hranges, parsePatchRanges]
  rw [any_meetsLines_mergeLines hlines]
  simp only [mem_changedLines_iff]

theorem incremental_verdict_iff_changed_line_of_lines (src : ByteArray) (path : String)
    (items : List Item) (d : Declaration) (hd : d ∈ declarationsOf src path items)
    (patterns : List String)
    (hkept : ∀ p ∈ patterns, Text.globMatches (Files.pathName path) p = false)
    (status : ChangeStatus) (previous : Option String) (patch : String) :
    let a : CoverageAnalyzer :=
      ⟨.incremental, some ⟨[(path, ⟨path, status, parsePatchRanges patch, previous⟩)]⟩, patterns⟩
    let touched := ∃ L, ChangedLine (Text.splitLines patch) L ∧ (d.full.startLine : Int) ≤ L ∧
      L ≤ (d.full.endLine : Int)
    ((a.analyze [d]).map (·.verdict) ∈ [[.generate], [.regenerate]] ↔ touched) ∧
      ((a.analyze [d]).map (·.verdict) = [.regenerate] ↔ touched ∧ d.isDocumented = true) := by
  intro a touched
  have hpath := filePath_of_mem_declarationsOf hd
  have hkept' : a.isExcludedFile d.filePath = false := by
    simp only [CoverageAnalyzer.isExcludedFile, hpath, List.any_eq_false]
    intro p hp
    simp [hkept p hp]
  have hverdict : (a.judge d).verdict =
      if a.isTouched d then (if d.isDocumented then .regenerate else .generate) else .skip :=
    judge_verdict_of_listed rfl rfl (by simp [ChangeSet.contains, hpath]) hkept'
  have htouched : a.isTouched d = true ↔ touched :=
    isTouched_of_patch (by rw [hpath]) rfl (full_startLine_le_endLine hd)
  simp only [CoverageAnalyzer.analyze, List.map_cons, List.map_nil]
  rw [hverdict]
  by_cases ht : touched
  · cases d.isDocumented <;> simp [htouched.mpr ht, ht]
  · have hnot : a.isTouched d = false := Bool.eq_false_iff.mpr (mt htouched.mp ht)
    simp [hnot, ht]

/-- An incremental run over one file's patch whose only line boundaries are line feeds documents
a declaration of that file exactly when a changed line of the patch, read from its pieces
between line feeds, lies within the declaration, and writes its comment again exactly when it
has one. -/
theorem incremental_verdict_iff_changed_line (src : ByteArray) (path : String)
    (items : List Item) (d : Declaration) (hd : d ∈ declarationsOf src path items)
    (patterns : List String)
    (hkept : ∀ p ∈ patterns, Text.globMatches (Files.pathName path) p = false)
    (status : ChangeStatus) (previous : Option String) (patch : String)
    (hfeeds : ∀ c ∈ patch.toList, Text.isLineBoundary c = true → c = '\n') :
    let a : CoverageAnalyzer :=
      ⟨.incremental, some ⟨[(path, ⟨path, status, parsePatchRanges patch, previous⟩)]⟩, patterns⟩
    let touched := ∃ L, ChangedLine (feedLines patch) L ∧ (d.full.startLine : Int) ≤ L ∧
      L ≤ (d.full.endLine : Int)
    ((a.analyze [d]).map (·.verdict) ∈ [[.generate], [.regenerate]] ↔ touched) ∧
      ((a.analyze [d]).map (·.verdict) = [.regenerate] ↔ touched ∧ d.isDocumented = true) := by
  intro a touched
  have hlines : touched ↔ ∃ L, ChangedLine (Text.splitLines patch) L ∧
      (d.full.startLine : Int) ≤ L ∧ L ≤ (d.full.endLine : Int) := by
    simp only [touched, changedLine_feedLines_iff patch hfeeds, mem_changedLines_iff]
  rw [hlines]
  exact incremental_verdict_iff_changed_line_of_lines src path items d hd patterns hkept status
    previous patch

/-- A function on line 2, and a hunk that replaces line 2: the function is documented anew. -/
theorem incremental_verdict_on_replaced_line :
    let src := "\nfunction f() \x7b\x7d\n".toUTF8
    let items : List Item := [.decl (.function ⟨1, 16⟩ ⟨some ⟨10, 11⟩, some ⟨14, 16⟩, {}⟩)]
    let d := (declarationsOf src "a.ts" items).headD default
    let patch := "@@ -1,2 +1,2 @@\n \n-function g() \x7b\x7d\n+function f() \x7b\x7d\n"
    let a : CoverageAnalyzer :=
      ⟨.incremental, some ⟨[("a.ts", ⟨"a.ts", .modified, parsePatchRanges patch, none⟩)]⟩, []⟩
    let touched := ∃ L, ChangedLine (feedLines patch) L ∧ (d.full.startLine : Int) ≤ L ∧
      L ≤ (d.full.endLine : Int)
    d ∈ declarationsOf src "a.ts" items ∧
      (∀ c ∈ patch.toList, Text.isLineBoundary c = true → c = '\n') ∧
      ((a.analyze [d]).map (·.verdict) ∈ [[.generate], [.regenerate]] ↔ touched) ∧
      ((a.analyze [d]).map (·.verdict) = [.regenerate] ↔ touched ∧ d.isDocumented = true) := by
  intro src items d patch a touched
  have hd : d ∈ declarationsOf src "a.ts" items := by decide +kernel
  have hfeeds : ∀ c ∈ patch.toList, Text.isLineBoundary c = true → c = '\n' := by
    have hall : (patch.toList.all fun c => !Text.isLineBoundary c || c == '\n') = true := by
      decide +kernel
    intro c hc hb
    simpa [hb] using List.all_eq_true.mp hall c hc
  exact ⟨hd, hfeeds, incremental_verdict_iff_changed_line src "a.ts" items d hd []
    (fun _ h => nomatch h) .modified none patch hfeeds⟩

/-- A carriage return inside a patch ends a line of it for the run. Between line feeds, the
hunk below has one line after its header, ` x\r+y`, a context line that marks nothing; the run
cuts it at the carriage return too, reads `+y` as an added line 2, and documents the function
there. -/
theorem carriage_return_splits_patch_line :
    let src := "\nfunction f() \x7b\x7d\n".toUTF8
    let items : List Item := [.decl (.function ⟨1, 16⟩ ⟨some ⟨10, 11⟩, some ⟨14, 16⟩, {}⟩)]
    let patch := "@@ -1 +1 @@\n x\r+y\n"
    let a : CoverageAnalyzer :=
      ⟨.incremental, some ⟨[("a.ts", ⟨"a.ts", .modified, parsePatchRanges patch, none⟩)]⟩, []⟩
    readOutline src .typescript = .ok items ∧
      (a.analyze (declarationsOf src "a.ts" items)).map (·.verdict) = [.generate] ∧
      ∀ L, ¬ChangedLine (feedLines patch) L := by
  intro src items patch a
  -- the run's lines are the header, ` x` and `+y`, so line 2 is its one changed line
  have hranges : parsePatchRanges patch = [⟨2, 2⟩] := by
    have hlines : changedLines (Text.splitLines patch) 0 false [] = [2] := by decide +kernel
    rw [parsePatchRanges, hlines]
    simp only [mergeLines, List.mergeSort_singleton]
    rfl
  have hfeed : changedLines (feedLines patch) 0 false [] = [] := by decide +kernel
  refine ⟨by decide +kernel, ?_, fun L => ?_⟩
  · simp only [a, hranges]
    decide +kernel
  · rw [← mem_changedLines_iff, hfeed]
    exact List.not_mem_nil

end DocWeaver
