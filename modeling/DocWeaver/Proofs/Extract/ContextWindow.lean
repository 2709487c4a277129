import DocWeaver.Proofs.Extract.WellFormed
import DocWeaver.Proofs.Text.LineBreaks
import DocWeaver.Proofs.Text.AsciiBytes
import DocWeaver.Extract.Context
import Mathlib

/-!
The context window of a declaration.

The prompt for a declaration shows its full lines and, before them, as many of the lines just
above as the character budget allows. The declaration's line numbers count line feeds, while the
window cuts the text at every line boundary. Where every line boundary is a line feed, or a
carriage return right before one (`CrlfBreaks`), the two agree: the window is the declaration's
lines, cut to the budget, or those lines after the nearest earlier lines that fit, each charged
one character for its break (`declarationContext_fits_nearest_lines`). A lone carriage return
breaks this: the window then stops short of the declaration
(`lone_carriage_return_cuts_context_short`).
-/

namespace DocWeaver.Extract

open DocWeaver.Text DocWeaver.Syntax

/-! ### Lines counted by line feeds -/

def dropCarriageReturn (l : List Char) : List Char :=
  if l.getLast? = some '\r' then l.dropLast else l

/-- The lines of a text as the line numbers of its ranges count them: cut at every line feed,
each without its line feed or the carriage return before it. A text that ends in a line feed
has an empty last line. -/
def feedLines (text : String) : List String :=
  (text.toList.splitOn '\n').map fun l => String.ofList (dropCarriageReturn l)

/-- Every line boundary of the text is a line feed, or a carriage return right before one. -/
def CrlfBreaks (cs : List Char) : Prop :=
  ∀ i < cs.length, isLineBoundary (cs.getD i ' ') = true →
    cs.getD i ' ' = '\n' ∨ (cs.getD i ' ' = '\r' ∧ cs.getD (i + 1) ' ' = '\n')

instance (cs : List Char) : Decidable (CrlfBreaks cs) :=
  inferInstanceAs (Decidable (∀ i < cs.length, isLineBoundary (cs.getD i ' ') = true →
    cs.getD i ' ' = '\n' ∨ (cs.getD i ' ' = '\r' ∧ cs.getD (i + 1) ' ' = '\n')))

theorem CrlfBreaks.tail {c : Char} {cs : List Char} (h : CrlfBreaks (c :: cs)) : CrlfBreaks cs := by
  intro i hi hb
  have hnext := h (i + 1) (by simp; omega) (by simpa using hb)
  simpa using hnext

theorem CrlfBreaks.head {c : Char} {cs : List Char} (h : CrlfBreaks (c :: cs))
    (hb : isLineBoundary c = true) : c = '\n' ∨ (c = '\r' ∧ cs.head? = some '\n') := by
  rcases h 0 (by simp) (by simpa using hb) with hfeed | ⟨hret, hnext⟩
  · exact Or.inl hfeed
  · cases cs with
    | nil => simp at hnext
    | cons x xs => exact Or.inr ⟨hret, by simpa using hnext⟩

theorem dropCarriageReturn_of_unbroken {l : List Char} (hl : Unbroken l) :
    dropCarriageReturn l.reverse = l.reverse := by
  cases l with
  | nil => rfl
  | cons x xs =>
    have hx : x ≠ '\r' := by
      intro hx
      have := hl x (by simp)
      simp [hx, isLineBoundary] at this
    simp [dropCarriageReturn, hx]

theorem dropCarriageReturn_append_return (l : List Char) :
    dropCarriageReturn (l ++ ['\r']) = l := by
  simp [dropCarriageReturn]

theorem getLast?_all_feed (pre rest : List Char) :
    (pre ++ '\n' :: rest).getLast?.all (· == '\n') = rest.getLast?.all (· == '\n') := by
  rcases List.eq_nil_or_concat rest with rfl | ⟨rest, x, rfl⟩
  · simp
  · rw [List.concat_eq_append, ← List.cons_append, ← List.append_assoc, List.getLast?_concat,
      List.getLast?_concat]

/-- Cutting at line feeds, and dropping a carriage return before each, gives the lines of the
text, and one more, empty line when the text ends in a line feed (or is empty): the same cut as
at every line boundary once every boundary is a line feed or a carriage return before one. -/
theorem splitOnPPrepend_feed {acc cs : List Char} (hacc : Unbroken acc) (hcs : CrlfBreaks cs) :
    (List.splitOnPPrepend (· == '\n') cs acc).map dropCarriageReturn =
      (splitBreaksAux acc cs).map Prod.fst ++
        if (acc.reverse ++ cs).getLast?.all (· == '\n') then [[]] else [] := by
  induction acc, cs using splitBreaksAux.induct with
  | case1 acc hempty =>
    rw [List.isEmpty_iff] at hempty
    subst hempty
    simp [splitBreaksAux_nil, dropCarriageReturn]
  | case2 acc hne =>
    obtain ⟨a, acc, rfl⟩ := List.exists_cons_of_ne_nil (by simpa [List.isEmpty_iff] using hne)
    have ha : a ≠ '\n' := fun h => by simpa [h, isLineBoundary] using hacc a (by simp)
    rw [List.splitOnPPrepend_nil, splitBreaksAux_nil, if_neg hne, List.map_singleton,
      dropCarriageReturn_of_unbroken hacc]
    simp [ha]
  | case3 acc rest ih =>
    -- the carriage return joins the piece and is dropped with its line feed
    have hrest := ih (fun _ h => by cases h) hcs.tail.tail
    have hcrlf : splitBreaksAux acc ('\r' :: '\n' :: rest) =
        (acc.reverse, ['\r', '\n']) :: splitBreaksAux [] rest :=
      splitBreaksAux_break (Or.inr rfl) acc rest
    have hlast := getLast?_all_feed (acc.reverse ++ ['\r']) rest
    rw [List.append_assoc, List.singleton_append] at hlast
    rw [List.reverse_nil, List.nil_append] at hrest
    rw [List.splitOnPPrepend_cons_eq_if, if_neg (by decide), List.splitOnPPrepend_cons_eq_if,
      if_pos (by decide), List.map_cons, List.reverse_cons, dropCarriageReturn_append_return,
      hcrlf, List.map_cons, hlast, List.splitOnP, hrest]
    rfl
  | case4 acc c rest hnot hb ih =>
    -- a line boundary here can only be a line feed
    have hfeed : c = '\n' := by
      rcases hcs.head hb with h | ⟨hret, hnext⟩
      · exact h
      · obtain ⟨r, rfl⟩ : ∃ r, rest = '\n' :: r := by
          cases rest with
          | nil => simp at hnext
          | cons x r => exact ⟨r, by simpa using hnext⟩
        exact (hnot r hret rfl).elim
    subst hfeed
    have hrest := ih (fun _ h => by cases h) hcs.tail
    rw [List.reverse_nil, List.nil_append] at hrest
    rw [List.splitOnPPrepend_cons_eq_if, if_pos (by decide), List.map_cons,
      dropCarriageReturn_of_unbroken hacc, splitBreaksAux_feed, List.map_cons, getLast?_all_feed,
      List.splitOnP, hrest]
    rfl
  | case5 acc c rest hnot hb ih =>
    have hne : (c == '\n') = false := by
      rw [beq_eq_false_iff_ne]
      rintro rfl
      exact hb rfl
    have hacc' : Unbroken (c :: acc) := by
      intro x hx
      rcases List.mem_cons.mp hx with rfl | hx
      · simpa using hb
      · exact hacc x hx
    rw [List.splitOnPPrepend_cons_eq_if, if_neg (by simp [hne]),
      splitBreaksAux_cons_plain (by simpa using hb), ih hacc' hcs.tail]
    simp

theorem length_splitOnPPrepend {α : Type} (p : α → Bool) (cs acc : List α) :
    (List.splitOnPPrepend p cs acc).length = cs.countP p + 1 := by
  induction cs generalizing acc with
  | nil => simp [List.splitOnPPrepend_nil]
  | cons c cs ih =>
    rw [List.splitOnPPrepend_cons_eq_if, List.countP_cons]
    by_cases hc : p c = true
    · rw [if_pos hc, if_pos hc, List.length_cons, List.splitOnP, ih]
    · rw [if_neg hc, if_neg hc, ih]

theorem length_feedLines (text : String) : (feedLines text).length = text.toList.count '\n' + 1 := by
  rw [feedLines, List.length_map, List.splitOn, List.splitOnP, length_splitOnPPrepend]
  rfl

theorem feedLines_eq {text : String} (h : CrlfBreaks text.toList) :
    feedLines text = splitLines text ++
      if text.toList.getLast?.all (· == '\n') then [""] else [] := by
  have hcut : (text.toList.splitOn '\n').map dropCarriageReturn =
      (splitBreaksAux [] text.toList).map Prod.fst ++
        if text.toList.getLast?.all (· == '\n') then [[]] else [] :=
    splitOnPPrepend_feed (fun _ h => by cases h) h
  have hmap : feedLines text =
      ((text.toList.splitOn '\n').map dropCarriageReturn).map String.ofList := by
    rw [feedLines, List.map_map]
    rfl
  rw [hmap, hcut, List.map_append]
  split <;> rfl

theorem length_splitLines {text : String} (h : CrlfBreaks text.toList) (hne : text.toList ≠ []) :
    (splitLines text).length = text.toList.dropLast.count '\n' + 1 := by
  have hlen := congrArg List.length (feedLines_eq h)
  rw [length_feedLines, List.length_append] at hlen
  obtain ⟨cs, x, hcs⟩ := (List.eq_nil_or_concat text.toList).resolve_left hne
  rw [List.concat_eq_append] at hcs
  rw [hcs, List.dropLast_concat]
  rw [hcs, List.count_append, List.count_singleton, List.getLast?_concat] at hlen
  by_cases hx : x = '\n'
  · subst hx
    simp at hlen
    omega
  · simp [hx] at hlen
    omega

theorem full_endLine_le_length {text relPath : String} {items : List Item}
    (hnested : Outline.Nested text items) (hbreaks : CrlfBreaks text.toList) {d : Declaration}
    (hd : d ∈ declarationsOf text.toUTF8 relPath items) :
    d.full.endLine ≤ (splitLines text).length := by
  obtain ⟨-, hwf⟩ := declarationsOf_wellFormed text relPath items hnested
  obtain ⟨hshaped, hsize, -, ⟨-, hend⟩, -⟩ := hwf d hd
  have hnonempty : d.full.startByte < d.full.endByte := by
    have := hshaped.header_nonempty
    have := hshaped.header_le_full
    rw [hshaped.full_start]
    omega
  have hbytes : text.toUTF8.data.toList.length = text.toUTF8.size := by simp
  have hcount : (text.toUTF8.data.toList.take (max d.full.startByte (d.full.endByte - 1))).count 10 ≤
      text.toUTF8.data.toList.dropLast.count 10 := by
    rw [List.dropLast_eq_take]
    exact (List.take_sublist_take_left (by omega)).count_le 10
  have hfeeds : text.toUTF8.data.toList.dropLast.count 10 = text.toList.dropLast.count '\n' := by
    rw [Utf8.data_toList_toUTF8]
    exact Utf8.count_dropLast_flatMap_utf8EncodeChar _ (by decide)
  have hne : text.toList ≠ [] := by
    intro hnil
    have hzero : text.toUTF8.size = 0 := by
      rw [← hbytes, Utf8.data_toList_toUTF8, hnil]
      rfl
    omega
  rw [length_splitLines hbreaks hne, hend]
  omega

/-! ### The window -/

def lineCharge (ls : List String) : Nat := (ls.map (·.length + 1)).sum

/-- The lines `s` to `e` of `ls`, counted from 1, joined by line feeds. -/
def joinedLines (ls : List String) (s e : Nat) : String :=
  "\n".intercalate ((ls.drop (s - 1)).take (e + 1 - s))

/-- Up to `n` of the lines of `ls` just before line `s`, nearest first. -/
def linesBefore (ls : List String) (s n : Nat) : List String :=
  ((ls.take (s - 1)).reverse).take n

/-- `w` is the window on the lines `body`, with the earlier lines `before` (nearest first), in a
budget of `c` characters: `body` cut to `c` characters when it has that many, and otherwise
`body` after as many of the nearest earlier lines as fit in what it leaves, stopping at the first
that does not. It never holds more than `c` characters. -/
structure NearestWindow (body : String) (before : List String) (c : Nat) (w : String) : Prop where
  length_le : w.length ≤ c
  cut : c ≤ body.length → w = String.ofList (body.toList.take c)
  fits : body.length < c → ∃ k ≤ before.length, lineCharge (before.take k) ≤ c - body.length ∧
    (k < before.length → c - body.length < lineCharge (before.take (k + 1))) ∧
    w = "\n".intercalate ((before.take k).reverse ++ [body])

@[simp] theorem lineCharge_nil : lineCharge [] = 0 := rfl

@[simp] theorem lineCharge_cons (l : String) (ls : List String) :
    lineCharge (l :: ls) = l.length + 1 + lineCharge ls := by
  simp [lineCharge]

theorem lineCharge_reverse (ls : List String) : lineCharge ls.reverse = lineCharge ls := by
  simp [lineCharge, List.sum_reverse]

theorem length_intercalate_append (xs : List String) (b : String) :
    ("\n".intercalate (xs ++ [b])).length = lineCharge xs + b.length := by
  induction xs with
  | nil => simp [String.intercalate_singleton]
  | cons x xs ih =>
    obtain ⟨y, ys, hys⟩ := List.exists_cons_of_ne_nil (List.append_ne_nil_of_right_ne_nil xs
      (List.cons_ne_nil b []))
    rw [List.cons_append, hys, String.intercalate_cons_cons, ← hys, String.length_append,
      String.length_append, ih, lineCharge_cons]
    have hnl : "\n".length = 1 := by decide
    omega

theorem fitLeading_eq (budget : Int) (hb : 0 ≤ budget) (acc ls : List String) :
    ∃ k ≤ ls.length, fitLeading budget acc ls = (ls.take k).reverse ++ acc ∧
      (lineCharge (ls.take k) : Int) ≤ budget ∧
      (k < ls.length → budget < lineCharge (ls.take (k + 1))) := by
  induction ls generalizing budget acc with
  | nil => exact ⟨0, le_refl _, rfl, by simpa using hb, fun h => absurd h (by simp)⟩
  | cons l ls ih =>
    by_cases hfit : (l.length : Int) + 1 > budget
    · -- the nearest line does not fit: nothing is gathered
      refine ⟨0, Nat.zero_le _, by simp [fitLeading, hfit], by simpa using hb, fun _ => ?_⟩
      simp
      omega
    · obtain ⟨k, hk, heq, hle, hmax⟩ := ih (budget - l.length - 1) (by omega) (l :: acc)
      refine ⟨k + 1, by simp [hk], ?_, ?_, fun hlt => ?_⟩
      · simp [fitLeading, hfit, heq]
      · rw [List.take_succ_cons, lineCharge_cons]
        push_cast
        omega
      · have hnext := hmax (by simp at hlt; omega)
        rw [List.take_succ_cons, lineCharge_cons]
        push_cast
        omega

theorem sliceBy_natCast {α : Type} (xs : List α) {a b : Nat} (hab : a ≤ b) (hb : b ≤ xs.length) :
    List.sliceBy xs a b = (xs.drop a).take (b - a) := by
  have ha : ¬((a : Int) < 0) := by omega
  have hb' : ¬((b : Int) < 0) := by omega
  simp [List.sliceBy, sliceIndex, ha, hb', Nat.min_eq_left (hab.trans hb), Nat.min_eq_left hb]

/-- Over lines `ls` that hold the declaration's lines, the context of the declaration is the
nearest window on its lines. -/
theorem contextInLines_window (ls : List String) (d : Declaration) {n c : Int} (hn : 0 ≤ n)
    (hc : 0 ≤ c) (hs : 1 ≤ d.full.startLine) (hse : d.full.startLine ≤ d.full.endLine)
    (he : d.full.endLine ≤ ls.length) :
    NearestWindow (joinedLines ls d.full.startLine d.full.endLine)
      (linesBefore ls d.full.startLine n.toNat) c.toNat (contextInLines ls d n c) := by
  obtain ⟨m, rfl⟩ : ∃ m : Nat, c = m := ⟨c.toNat, by omega⟩
  obtain ⟨j, rfl⟩ : ∃ j : Nat, n = j := ⟨n.toNat, by omega⟩
  rw [Int.toNat_natCast, Int.toNat_natCast]
  -- the two slices the code takes are the declaration's lines and the lines before them
  have hbody : "\n".intercalate (List.sliceBy ls ((d.full.startLine : Int) - 1)
      (min (ls.length : Int) d.full.endLine)) = joinedLines ls d.full.startLine d.full.endLine := by
    rw [show (d.full.startLine : Int) - 1 = ((d.full.startLine - 1 : Nat) : Int) by omega,
      show min (ls.length : Int) d.full.endLine = ((d.full.endLine : Nat) : Int) by omega,
      sliceBy_natCast ls (by omega) he, joinedLines,
      show d.full.endLine - (d.full.startLine - 1) = d.full.endLine + 1 - d.full.startLine by omega]
  have hbefore : (List.sliceBy ls (max 0 ((d.full.startLine : Int) - 1 - j))
      ((d.full.startLine : Int) - 1)).reverse = linesBefore ls d.full.startLine j := by
    rw [show max 0 ((d.full.startLine : Int) - 1 - j) = ((d.full.startLine - 1 - j : Nat) : Int)
        by omega,
      show (d.full.startLine : Int) - 1 = ((d.full.startLine - 1 : Nat) : Int) by omega,
      sliceBy_natCast ls (by omega) (by omega), linesBefore, List.take_reverse, List.length_take,
      Nat.min_eq_left (by omega), List.drop_take]
  set B := joinedLines ls d.full.startLine d.full.endLine
  have hctx : contextInLines ls d j m = if (m : Int) ≤ B.length then String.sliceBy B 0 m
      else "\n".intercalate (fitLeading (m - B.length) [] (linesBefore ls d.full.startLine j) ++ [B]) := by
    simp only [contextInLines, hbody, hbefore]
  rw [hctx]
  split_ifs with hcut
  · -- the declaration's lines alone fill the budget
    have hw : String.sliceBy B 0 m = String.ofList (B.toList.take m) := by
      rw [String.sliceBy, show (0 : Int) = ((0 : Nat) : Int) from rfl,
        sliceBy_natCast _ (Nat.zero_le m) (by rw [String.length_toList]; omega), List.drop_zero,
        Nat.sub_zero]
    refine ⟨?_, fun _ => hw, fun hlt => absurd hlt (by omega)⟩
    rw [hw, String.length_ofList, List.length_take]
    omega
  · -- the nearest earlier lines fill what the declaration's lines leave
    obtain ⟨k, hk, hfit, hle, hmax⟩ :=
      fitLeading_eq ((m : Int) - B.length) (by omega) [] (linesBefore ls d.full.startLine j)
    rw [hfit, List.append_nil]
    refine ⟨?_, fun h => absurd h (by omega), fun _ => ⟨k, hk, by omega, fun hlt => ?_, rfl⟩⟩
    · rw [length_intercalate_append, lineCharge_reverse]
      omega
    · have hover := hmax hlt
      omega

theorem joinedLines_append {ls : List String} (extra : List String) {s e : Nat} (hs : 1 ≤ s)
    (hse : s ≤ e) (he : e ≤ ls.length) : joinedLines (ls ++ extra) s e = joinedLines ls s e := by
  rw [joinedLines, joinedLines, List.drop_append_of_le_length (by omega),
    List.take_append_of_le_length (by simp; omega)]

theorem linesBefore_append {ls : List String} (extra : List String) {s n : Nat}
    (hs : s - 1 ≤ ls.length) : linesBefore (ls ++ extra) s n = linesBefore ls s n := by
  rw [linesBefore, linesBefore, List.take_append_of_le_length hs]

/-- The context of a declaration of a well-formed outline, in a text whose every line boundary
is a line feed or a carriage return before one, is the nearest window on its lines: for any
count of lines and any budget that are not negative, it is the declaration's lines (as the line
numbers of its full range count them) cut to the budget when they reach it, and otherwise those
lines after as many of the lines just before them as fit, stopping at the first that does not;
it never holds more characters than the budget. -/
theorem declarationContext_fits_nearest_lines (text relPath : String) (items : List Item)
    (hnested : Outline.Nested text items) (hbreaks : CrlfBreaks text.toList)
    {d : Declaration} (hd : d ∈ declarationsOf text.toUTF8 relPath items) {n c : Int}
    (hn : 0 ≤ n) (hc : 0 ≤ c) :
    NearestWindow (joinedLines (feedLines text) d.full.startLine d.full.endLine)
      (linesBefore (feedLines text) d.full.startLine n.toNat) c.toNat
      (declarationContext text d n c) := by
  obtain ⟨-, hwf⟩ := declarationsOf_wellFormed text relPath items hnested
  obtain ⟨-, -, -, ⟨hstart, -⟩, -⟩ := hwf d hd
  have hs : 1 ≤ d.full.startLine := by omega
  have hse := full_startLine_le_endLine hd
  have he := full_endLine_le_length hnested hbreaks hd
  rw [feedLines_eq hbreaks, joinedLines_append _ hs hse he, linesBefore_append _ (by omega)]
  exact contextInLines_window (splitLines text) d hn hc hs hse he

/-- In a file with CRLF line endings, the window of its function in a budget of 25 characters
holds the nearer comment line but not the one before it, which no longer fits. -/
theorem crlf_window_keeps_nearest_fitting_line :
    let text := "// one\r\n// two\r\nfunction f() \x7b\x7d\r\n"
    let items : List Item := [.comment ⟨0, 6⟩, .comment ⟨8, 14⟩,
      .decl (.function ⟨16, 31⟩ ⟨some ⟨25, 26⟩, some ⟨29, 31⟩, {}⟩)]
    let d : Declaration :=
      { kind := .function
        name := "f"
        qualifiedName := "f"
        filePath := "a.ts"
        signature := "function f()"
        header := ⟨16, 28, 3, 3⟩
        full := ⟨16, 31, 3, 3⟩ }
    readOutline text.toUTF8 .typescript = .ok items ∧ Outline.Nested text items ∧
      CrlfBreaks text.toList ∧ declarationsOf text.toUTF8 "a.ts" items = [d] ∧
      declarationContext text d 5 25 = "// two\nfunction f() \x7b\x7d" ∧
      NearestWindow (joinedLines (feedLines text) d.full.startLine d.full.endLine)
        (linesBefore (feedLines text) d.full.startLine (5 : Int).toNat) (25 : Int).toNat
        (declarationContext text d 5 25) := by
  intro text items d
  have hread : readOutline text.toUTF8 .typescript = .ok items := by decide +kernel
  have hnested : Outline.Nested text items := by decide +kernel
  have hbreaks : CrlfBreaks text.toList := by decide +kernel
  have hds : declarationsOf text.toUTF8 "a.ts" items = [d] := by decide +kernel
  have hctx : declarationContext text d 5 25 = "// two\nfunction f() \x7b\x7d" := by decide +kernel
  have hd : d ∈ declarationsOf text.toUTF8 "a.ts" items := by
    rw [hds]
    exact List.mem_singleton_self d
  exact ⟨hread, hnested, hbreaks, hds, hctx,
    declarationContext_fits_nearest_lines text "a.ts" items hnested hbreaks hd (by decide)
      (by decide)⟩

/-- A lone carriage return ends a line of the window but no line of the line numbers. The
function after it stands on line 1, whose text runs through the function, and nothing comes
before that line; yet the function's context is only the text before the carriage return, so it
is not the nearest window on the function's lines. -/
theorem lone_carriage_return_cuts_context_short :
    let text := "const a = 1;\rfunction f() \x7b\x7d\n"
    let items : List Item := [.decl (.variables ⟨0, 12⟩ true [⟨⟨6, 7⟩, some .other⟩]),
      .decl (.function ⟨13, 28⟩ ⟨some ⟨22, 23⟩, some ⟨26, 28⟩, {}⟩)]
    let d : Declaration :=
      { kind := .function
        name := "f"
        qualifiedName := "f"
        filePath := "a.ts"
        signature := "function f()"
        header := ⟨13, 25, 1, 1⟩
        full := ⟨13, 28, 1, 1⟩ }
    readOutline text.toUTF8 .typescript = .ok items ∧ Outline.Nested text items ∧
      ¬CrlfBreaks text.toList ∧ declarationsOf text.toUTF8 "a.ts" items = [d] ∧
      joinedLines (feedLines text) d.full.startLine d.full.endLine =
        "const a = 1;\rfunction f() \x7b\x7d" ∧
      linesBefore (feedLines text) d.full.startLine 20 = [] ∧
      declarationContext text d 20 4000 = "const a = 1;" ∧
      ¬NearestWindow (joinedLines (feedLines text) d.full.startLine d.full.endLine)
        (linesBefore (feedLines text) d.full.startLine 20) 4000 (declarationContext text d 20 4000) := by
  intro text items d
  have hread : readOutline text.toUTF8 .typescript = .ok items := by decide +kernel
  have hnested : Outline.Nested text items := by decide +kernel
  have hbreaks : ¬CrlfBreaks text.toList := by decide +kernel
  have hds : declarationsOf text.toUTF8 "a.ts" items = [d] := by decide +kernel
  have hbody : joinedLines (feedLines text) d.full.startLine d.full.endLine =
      "const a = 1;\rfunction f() \x7b\x7d" := by decide +kernel
  have hbefore : linesBefore (feedLines text) d.full.startLine 20 = [] := by decide +kernel
  have hctx : declarationContext text d 20 4000 = "const a = 1;" := by decide +kernel
  refine ⟨hread, hnested, hbreaks, hds, hbody, hbefore, hctx, fun hwin => ?_⟩
  -- with no line before, the nearest window is the function's line itself
  obtain ⟨k, hk, -, -, hw⟩ := hwin.fits (by rw [hbody]; decide)
  rw [hbefore, List.length_nil, Nat.le_zero] at hk
  subst hk
  rw [hctx, hbefore, hbody] at hw
  exact absurd hw (by decide)

end DocWeaver.Extract
