import DocWeaver.Generate.Prompt
import DocWeaver.Proofs.Text.LineBreaks

/-!
What cleaning generated text returns, and what it does to text that is already clean.

Cleaning cuts the text into lines, drops a code fence opening the first line and one closing the
last, joins and trims, unwraps a `/** … */` block, and refuses text that cannot go inside a doc
comment. What it returns is `Insertable` (not empty, no `*/`, opening no comment) and has no
blank character at either end (`cleanGeneratedText_cleaned`).

Trimmed text with no `*/`, opening no comment, whose only line breaks are line feeds and whose
first line opens no fence comes back unchanged when its last line closes no fence
(`cleanGeneratedText_eq_self`). The two fence tests read the first and the last line apart, so
documentation whose body ends with a fenced example loses the example's closing fence
(`closing_fence_of_example_is_dropped`).
-/

namespace DocWeaver

open Text

/-- Text that can go inside a doc comment: it is not empty, holds no `*/` and opens no
comment. -/
structure Insertable (t : String) : Prop where
  ne_empty : t ≠ ""
  no_close : ¬ ['*', '/'] <:+: t.toList
  no_open : ¬ ['/', '*'] <+: t.toList

theorem checkInsertable_eq_ok_iff (text t : String) :
    checkInsertable text = .ok t ↔ t = text ∧ Insertable text := by
  constructor
  · intro h
    unfold checkInsertable at h
    -- the three refusals give no text; what is left is the text itself
    split_ifs at h with hempty hclose hopen
    cases h
    refine ⟨rfl, by simpa using hempty, ?_, ?_⟩
    · simpa [String.contains_string_iff] using hclose
    · simpa [String.startsWith_string_iff] using hopen
  · rintro ⟨rfl, hins⟩
    have hempty : t.isEmpty = false := by simpa using hins.ne_empty
    have hclose : t.contains "*/" = false := String.contains_string_eq_false_iff.mpr hins.no_close
    have hopen : t.startsWith "/*" = false := String.startsWith_string_eq_false_iff.mpr hins.no_open
    simp [checkInsertable, hempty, hclose, hopen]

theorem stripFences_eq_self {ls : List String}
    (hfirst : ∀ l ∈ ls.head?, l.startsWith "\x60\x60\x60" = false)
    (hlast : ∀ l ∈ ls.getLast?, Text.strip l ≠ "\x60\x60\x60") : stripFences ls = ls := by
  cases ls with
  | nil => rfl
  | cons l rest =>
    have hl := List.getLast?_eq_some_getLast (List.cons_ne_nil l rest)
    have hopen : l.startsWith "\x60\x60\x60" = false := hfirst l rfl
    have hclose : (Text.strip ((l :: rest).getLast (List.cons_ne_nil l rest)) == "\x60\x60\x60") =
        false := by
      simpa using hlast _ hl
    simp only [stripFences, hopen, Bool.false_eq_true, if_false, hl, hclose]

theorem unwrapDocBlock_of_not_open {t : String} (hopen : ¬ ['/', '*'] <+: t.toList) :
    unwrapDocBlock t = t := by
  have hblock : t.startsWith "/**" = false := by
    rw [String.startsWith_string_eq_false_iff]
    intro h
    exact hopen ((List.prefix_append ['/', '*'] ['*']).trans h)
  simp [unwrapDocBlock, hblock]

theorem trim_unwrapDocBlock_strip (s : String) :
    trim (unwrapDocBlock (Text.strip s)).toList = (unwrapDocBlock (Text.strip s)).toList := by
  unfold unwrapDocBlock
  split
  · rw [unwrapComment, String.toList_ofList, trim_trim]
  · rw [Text.strip, String.toList_ofList, trim_trim]

theorem cleanGeneratedText_cleaned {raw t : String} (h : cleanGeneratedText raw = .ok t) :
    Insertable t ∧ trim t.toList = t.toList := by
  rw [cleanGeneratedText, checkInsertable_eq_ok_iff] at h
  obtain ⟨ht, hins⟩ := h
  rw [ht]
  exact ⟨hins, trim_unwrapDocBlock_strip _⟩

theorem strip_intercalate_splitLines {t : String} (htrim : Text.strip t = t)
    (hfeeds : ∀ c ∈ t.toList, isLineBoundary c = true → c = '\n') :
    Text.strip ("\n".intercalate (splitLines t)) = t := by
  have hchars : trim t.toList = t.toList := by
    have h := congrArg String.toList htrim
    rwa [Text.strip, String.toList_ofList] at h
  -- the last character is not blank, so it is no line feed
  have hends := ((trim_eq_self_iff t.toList).mp hchars).2
  have hlast : t.toList.getLast? ≠ some '\n' := fun h => by simpa [isBlank] using hends '\n' h
  have hjoin : "\n".intercalate (splitLines t) = t := by
    apply String.ext
    simp only [String.toList_intercalate, splitLines, List.map_map]
    simpa using intercalate_lines_of_feeds hfeeds hlast
  rw [hjoin, htrim]

/-- Trimmed text that is not empty, holds no `*/`, opens no comment, breaks lines only with
line feeds and whose first line opens no code fence, comes back from cleaning unchanged when its
last line closes no code fence. -/
theorem cleanGeneratedText_eq_self {t : String} (htrim : Text.strip t = t) (hne : t ≠ "")
    (hclose : t.contains "*/" = false) (hopen : t.startsWith "/*" = false)
    (hfeeds : ∀ c ∈ t.toList, isLineBoundary c = true → c = '\n')
    (hfirst : ∀ l ∈ (splitLines t).head?, l.startsWith "\x60\x60\x60" = false)
    (hlast : ∀ l ∈ (splitLines t).getLast?, Text.strip l ≠ "\x60\x60\x60") :
    cleanGeneratedText t = .ok t := by
  have hopen' : ¬ ['/', '*'] <+: t.toList := String.startsWith_string_eq_false_iff.mp hopen
  have hins : Insertable t :=
    ⟨hne, String.contains_string_eq_false_iff.mp hclose, hopen'⟩
  unfold cleanGeneratedText
  rw [htrim, stripFences_eq_self hfirst hlast, strip_intercalate_splitLines htrim hfeeds,
    unwrapDocBlock_of_not_open hopen', checkInsertable_eq_ok_iff]
  exact ⟨rfl, hins⟩

/-- Documentation with a fenced example followed by prose comes back from cleaning unchanged. -/
theorem cleanGeneratedText_keeps_example_before_prose :
    let t := "Adds.\n@example\n\x60\x60\x60ts\nadd(1, 2);\n\x60\x60\x60\nReturns the sum."
    ((∀ c ∈ t.toList, isLineBoundary c = true → c = '\n') ∧
      (∀ l ∈ (splitLines t).getLast?, Text.strip l ≠ "\x60\x60\x60")) ∧
      cleanGeneratedText t = .ok t := by
  intro t
  have hfeeds : ∀ c ∈ t.toList, isLineBoundary c = true → c = '\n' := by
    have hall : (t.toList.all fun c => !isLineBoundary c || c == '\n') = true := by decide +kernel
    intro c hc hb
    simpa [hb] using List.all_eq_true.mp hall c hc
  have hlast : ∀ l ∈ (splitLines t).getLast?, Text.strip l ≠ "\x60\x60\x60" := by
    have hl : (splitLines t).getLast? = some "Returns the sum." := by decide +kernel
    rw [hl]
    intro l hl'
    rw [← Option.mem_some_iff.mp hl']
    decide +kernel
  exact ⟨⟨hfeeds, hlast⟩, cleanGeneratedText_eq_self (by decide +kernel) (by decide)
    (String.contains_string_eq_false_iff.mpr (by decide +kernel)) (by decide +kernel) hfeeds
    (by decide +kernel) hlast⟩

/-- Documentation whose body ends with a fenced example, otherwise clean, loses the example's
closing fence: the last line is read as the closing fence of a fence around the whole text. -/
theorem closing_fence_of_example_is_dropped :
    let t := "Adds.\n@example\n\x60\x60\x60ts\nadd(1, 2);\n\x60\x60\x60"
    Text.strip t = t ∧ t ≠ "" ∧ t.contains "*/" = false ∧ t.startsWith "/*" = false ∧
      (∀ c ∈ t.toList, isLineBoundary c = true → c = '\n') ∧
      (∀ l ∈ (splitLines t).head?, l.startsWith "\x60\x60\x60" = false) ∧
      cleanGeneratedText t = .ok "Adds.\n@example\n\x60\x60\x60ts\nadd(1, 2);" := by
  intro t
  have hkept : "Adds.\n@example\n\x60\x60\x60ts\nadd(1, 2);" =
      unwrapDocBlock (Text.strip ("\n".intercalate (stripFences (splitLines (Text.strip t))))) := by
    decide +kernel
  refine ⟨by decide +kernel, by decide, String.contains_string_eq_false_iff.mpr (by decide +kernel),
    by decide +kernel, ?_, by decide +kernel, ?_⟩
  · have hall : (t.toList.all fun c => !isLineBoundary c || c == '\n') = true := by decide +kernel
    intro c hc hb
    simpa [hb] using List.all_eq_true.mp hall c hc
  · rw [cleanGeneratedText, ← hkept, checkInsertable_eq_ok_iff]
    exact ⟨rfl, by decide, by decide +kernel, by decide +kernel⟩

end DocWeaver
