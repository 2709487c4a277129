import DocWeaver.Proofs.Extract.RangeLines
import DocWeaver.Proofs.Text.CharOffsets

/-!
Well-formed declaration lists.

A parser that reads a file without error gives more than `Outline.Placed`: every node it names
starts at a token, whose first character is not blank, and ends at a later character boundary;
a statement lies within the `export` that holds it, a value within its statement, and a body
within its node, after the node's start. `Outline.Nested` states this. From it the declarations
of the file are well formed (`declarationsOf_wellFormed`): each header is a non-empty start of
the declaration's full range that does not end in a blank character, each header ends by the
start of every later one, and each doc comment is a block comment before its anchor, with only
ASCII blanks between, that shares no byte with any header or other doc comment.
-/

namespace DocWeaver.Syntax

open DocWeaver.Text

/-! ### What the parser guarantees of the nodes -/

def IsBoundary (text : String) (n : Nat) : Prop := ∃ k ≤ text.length, charOffset text k = n

instance (text : String) (n : Nat) : Decidable (IsBoundary text n) :=
  decidable_of_iff ((List.range (text.length + 1)).any (charOffset text · == n) = true) (by
    simp only [List.any_eq_true, List.mem_range, Nat.lt_succ_iff, beq_iff_eq, IsBoundary])

def IsTokenStart (text : String) (n : Nat) : Prop :=
  ∃ k < text.length, charOffset text k = n ∧ isBlank (text.toList.getD k ' ') = false

instance (text : String) (n : Nat) : Decidable (IsTokenStart text n) :=
  decidable_of_iff ((List.range text.length).any
      (fun k => charOffset text k == n && !isBlank (text.toList.getD k ' ')) = true)
    (by simp only [List.any_eq_true, List.mem_range, Bool.and_eq_true, beq_iff_eq,
      Bool.not_eq_true', IsTokenStart])

theorem IsTokenStart.isBoundary {text : String} {n : Nat} (h : IsTokenStart text n) :
    IsBoundary text n := by
  obtain ⟨k, hk, hn, -⟩ := h
  exact ⟨k, Nat.le_of_lt hk, hn⟩

def TokenSpan (text : String) (s : Span) : Prop :=
  s.start < s.stop ∧ IsTokenStart text s.start ∧ IsBoundary text s.stop

instance (text : String) (s : Span) : Decidable (TokenSpan text s) :=
  inferInstanceAs (Decidable (_ ∧ _ ∧ _))

def Span.Within (s outer : Span) : Prop := outer.start ≤ s.start ∧ s.stop ≤ outer.stop

instance (s outer : Span) : Decidable (s.Within outer) := inferInstanceAs (Decidable (_ ∧ _))

theorem Span.Within.trans {s s' s'' : Span} (h : s.Within s') (h' : s'.Within s'') : s.Within s'' :=
  ⟨Nat.le_trans h'.1 h.1, Nat.le_trans h.2 h'.2⟩

def BodyIn (text : String) (s : Span) : Option Span → Prop
  | some b => TokenSpan text b ∧ s.start < b.start ∧ b.stop ≤ s.stop
  | none => True

instance (text : String) (s : Span) : (body : Option Span) → Decidable (BodyIn text s body)
  | some b => inferInstanceAs (Decidable (TokenSpan text b ∧ s.start < b.start ∧ b.stop ≤ s.stop))
  | none => inferInstanceAs (Decidable True)

theorem bodyIn_none (text : String) (s : Span) : BodyIn text s none := trivial

/-- A decorator is a node, and a method a node with its body in it. -/
def Member.Nested (text : String) : Member → Prop
  | .decorator s => TokenSpan text s
  | .method s _ _ body _ => TokenSpan text s ∧ BodyIn text s body
  | .comment _ | .other _ => True

instance Member.decidableNested (text : String) : (m : Member) → Decidable (m.Nested text)
  | .decorator s => inferInstanceAs (Decidable (TokenSpan text s))
  | .method s _ _ body _ => inferInstanceAs (Decidable (TokenSpan text s ∧ BodyIn text s body))
  | .comment _ | .other _ => inferInstanceAs (Decidable True)

/-- A function value is a node within its statement `outer`, with its body in it. -/
def ExprShape.Nested (text : String) (outer : Span) : ExprShape → Prop
  | .function s f => s.Within outer ∧ TokenSpan text s ∧ BodyIn text s f.body
  | .klass _ _ | .other => True

instance ExprShape.decidableNested (text : String) (outer : Span) :
    (v : ExprShape) → Decidable (v.Nested text outer)
  | .function s f => inferInstanceAs (Decidable (s.Within outer ∧ TokenSpan text s ∧ BodyIn text s f.body))
  | .klass _ _ | .other => inferInstanceAs (Decidable True)

/-- A declaring node lies within the item `outer` that holds it, with its body after its start;
the members of a class body are nested, and so are the function values of variables. -/
def Decl.Nested (text : String) (outer : Span) : Decl → Prop
  | .function s f => s.Within outer ∧ TokenSpan text s ∧ BodyIn text s f.body
  | .klass s c => TokenSpan text s ∧ BodyIn text s (some c.body) ∧ ∀ m ∈ c.members, m.Nested text
  | .interface s _ body => s.Within outer ∧ TokenSpan text s ∧ BodyIn text s (some body)
  | .typeAlias s _ => s.Within outer ∧ TokenSpan text s
  | .variables s _ ds => s.Within outer ∧ TokenSpan text s ∧ ∀ d ∈ ds, ∀ v ∈ d.value, v.Nested text s
  | .other _ => True

instance Decl.decidableNested (text : String) (outer : Span) : (d : Decl) → Decidable (d.Nested text outer)
  | .function s f => inferInstanceAs (Decidable (s.Within outer ∧ TokenSpan text s ∧ BodyIn text s f.body))
  | .klass s c => inferInstanceAs
      (Decidable (TokenSpan text s ∧ BodyIn text s (some c.body) ∧ ∀ m ∈ c.members, m.Nested text))
  | .interface s _ body =>
    inferInstanceAs (Decidable (s.Within outer ∧ TokenSpan text s ∧ BodyIn text s (some body)))
  | .typeAlias s _ => inferInstanceAs (Decidable (s.Within outer ∧ TokenSpan text s))
  | .variables s _ ds => inferInstanceAs
      (Decidable (s.Within outer ∧ TokenSpan text s ∧ ∀ d ∈ ds, ∀ v ∈ d.value, v.Nested text s))
  | .other _ => inferInstanceAs (Decidable True)

/-- A declaring item is a node, and so is what an `export` holds. -/
def Item.Nested (text : String) : Item → Prop
  | .export s (some d) => TokenSpan text s ∧ d.Nested text s
  | .decl d => TokenSpan text d.span ∧ d.Nested text d.span
  | _ => True

instance Item.decidableNested (text : String) : (it : Item) → Decidable (it.Nested text)
  | .export s (some d) => inferInstanceAs (Decidable (TokenSpan text s ∧ d.Nested text s))
  | .decl d => inferInstanceAs (Decidable (TokenSpan text d.span ∧ d.Nested text d.span))
  | .export _ none | .comment _ | .other _ => inferInstanceAs (Decidable True)

/-- What the parser guarantees of the outline of `text` when it reads it without error: the
outline is placed in the encoding of the text, and its nodes are nested. -/
structure Outline.Nested (text : String) (items : List Item) : Prop where
  placed : Outline.Placed text.toUTF8 items
  nested : ∀ it ∈ items, it.Nested text

instance (text : String) (items : List Item) : Decidable (Outline.Nested text items) :=
  decidable_of_iff (Outline.Placed text.toUTF8 items ∧ ∀ it ∈ items, it.Nested text)
    ⟨fun h => ⟨h.1, h.2⟩, fun h => ⟨h.placed, h.nested⟩⟩

end DocWeaver.Syntax

/-! ### Well-formed declarations -/

namespace DocWeaver

open DocWeaver.Text

def SourceRange.IsDocBlock (src : ByteArray) (r : SourceRange) : Prop :=
  (Utf8.slice src r.startByte r.endByte).startsWith "/**" = true ∧
    Utf8.slice src r.startByte r.endByte ≠ "/**/" ∧ r.startByte + 4 ≤ r.endByte ∧
    src[r.endByte - 2]? = some 42 ∧ src[r.endByte - 1]? = some 47

def SourceRange.Apart (r r' : SourceRange) : Prop := r.endByte ≤ r'.startByte ∨ r'.endByte ≤ r.startByte

/-- What one declaration satisfies on its own: its header is a non-empty start of its full range
whose text does not end in a blank character, and its doc comment, if it has one, is a block
comment that ends by the header's start with only ASCII blanks between. -/
structure Declaration.Shaped (src : ByteArray) (d : Declaration) : Prop where
  full_start : d.full.startByte = d.header.startByte
  header_nonempty : d.header.startByte < d.header.endByte
  header_le_full : d.header.endByte ≤ d.full.endByte
  header_trimmed :
    ∀ c ∈ (Utf8.slice src d.header.startByte d.header.endByte).toList.getLast?, isBlank c = false
  doc_block : ∀ c ∈ d.doc, c.range.IsDocBlock src
  doc_before : ∀ c ∈ d.doc, c.range.endByte ≤ d.header.startByte
  doc_gap : ∀ c ∈ d.doc, ∀ x ∈ (src.extract c.range.endByte d.header.startByte).toList,
    isAsciiBlank (Char.ofNat x.toNat) = true

def Declaration.StartsAfter (b : Nat) (d : Declaration) : Prop :=
  b ≤ d.header.startByte ∧ ∀ c ∈ d.doc, b ≤ c.range.startByte

/-- Of two declarations, the first one's header ends by the start of the second one's, and each
one's doc comment shares no byte with the other's header nor with the other's doc comment,
which it differs from. -/
def Declaration.Before (d d' : Declaration) : Prop :=
  d.header.endByte ≤ d'.header.startByte ∧
    (∀ c ∈ d.doc, c.range.Apart d'.header ∧ ∀ c' ∈ d'.doc, c.range ≠ c'.range ∧ c.range.Apart c'.range) ∧
    ∀ c' ∈ d'.doc, c'.range.Apart d.header

def HeadersWithin (src : ByteArray) : Nat → Nat → List Declaration → Prop
  | b, hi, [] => b ≤ hi
  | b, hi, d :: ds =>
    d.Shaped src ∧ d.StartsAfter b ∧ d.full.endByte ≤ hi ∧ HeadersWithin src d.header.endByte hi ds

namespace HeadersWithin

variable {src : ByteArray}

theorem le : ∀ {b hi : Nat} {ds : List Declaration}, HeadersWithin src b hi ds → b ≤ hi
  | _, _, [], h => h
  | _, _, _ :: _, ⟨hd, hb, _, hrest⟩ => by
    have := hrest.le
    have := hd.header_nonempty
    have := hb.1
    omega

theorem of_le {b b' hi : Nat} {ds : List Declaration} (hle : b' ≤ b) (h : HeadersWithin src b hi ds) :
    HeadersWithin src b' hi ds := by
  cases ds with
  | nil => exact Nat.le_trans hle h
  | cons d ds =>
    obtain ⟨hd, ⟨hstart, hdoc⟩, hfull, hrest⟩ := h
    exact ⟨hd, ⟨Nat.le_trans hle hstart, fun c hc => Nat.le_trans hle (hdoc c hc)⟩, hfull, hrest⟩

theorem mono {b hi hi' : Nat} {ds : List Declaration} (hle : hi ≤ hi')
    (h : HeadersWithin src b hi ds) : HeadersWithin src b hi' ds := by
  induction ds generalizing b with
  | nil => exact Nat.le_trans h hle
  | cons d ds ih => exact ⟨h.1, h.2.1, Nat.le_trans h.2.2.1 hle, ih h.2.2.2⟩

theorem append {b mid hi : Nat} {xs ys : List Declaration} (hx : HeadersWithin src b mid xs)
    (hy : HeadersWithin src mid hi ys) : HeadersWithin src b hi (xs ++ ys) := by
  induction xs generalizing b with
  | nil => exact hy.of_le hx
  | cons d xs ih => exact ⟨hx.1, hx.2.1, Nat.le_trans hx.2.2.1 hy.le, ih hx.2.2.2⟩

theorem mem {b hi : Nat} {ds : List Declaration} (h : HeadersWithin src b hi ds) :
    ∀ d ∈ ds, d.Shaped src ∧ d.StartsAfter b ∧ d.full.endByte ≤ hi := by
  induction ds generalizing b with
  | nil => exact fun _ h => absurd h List.not_mem_nil
  | cons d ds ih =>
    intro x hx
    rcases List.mem_cons.mp hx with rfl | hx
    · exact ⟨h.1, h.2.1, h.2.2.1⟩
    · obtain ⟨hshaped, ⟨hstart, hdoc⟩, hfull⟩ := ih h.2.2.2 x hx
      have hb : b ≤ d.header.endByte := by have := h.2.1.1; have := h.1.header_nonempty; omega
      exact ⟨hshaped, ⟨Nat.le_trans hb hstart, fun c hc => Nat.le_trans hb (hdoc c hc)⟩, hfull⟩

end HeadersWithin

theorem Declaration.Shaped.before {src : ByteArray} {d d' : Declaration} (hd : d.Shaped src)
    (hd' : d'.StartsAfter d.header.endByte) : d.Before d' := by
  obtain ⟨hstart, hdoc'⟩ := hd'
  have hheader := hd.header_nonempty
  refine ⟨hstart, fun c hc => ⟨Or.inl ?_, fun c' hc' => ⟨?_, Or.inl ?_⟩⟩, fun c' hc' => Or.inr ?_⟩
  · exact Nat.le_trans (hd.doc_before c hc) (by omega)
  · -- the first doc comment is not empty and ends before the second one starts
    intro heq
    have hlen := (hd.doc_block c hc).2.2.1
    have hend := hd.doc_before c hc
    have hafter := hdoc' c' hc'
    rw [heq] at hlen hend
    omega
  · have := hd.doc_before c hc
    have := hdoc' c' hc'
    omega
  · exact hdoc' c' hc'

theorem HeadersWithin.pairwise_before {src : ByteArray} {b hi : Nat} {ds : List Declaration}
    (h : HeadersWithin src b hi ds) : ds.Pairwise Declaration.Before := by
  induction ds generalizing b with
  | nil => exact List.Pairwise.nil
  | cons d ds ih =>
    refine List.Pairwise.cons (fun d' hd' => ?_) (ih h.2.2.2)
    exact h.1.before (h.2.2.2.mem d' hd').2.1

end DocWeaver

/-! ### The walk reads well-formed declarations -/

namespace DocWeaver.Syntax

theorem CommentToken.docBlock {src : ByteArray} {c : Span} (hc : CommentToken src c)
    (h : (Text.Utf8.slice src c.start c.stop).startsWith "/**" = true) :
    c.start + 4 ≤ c.stop ∧ src[c.stop - 2]? = some 42 ∧ src[c.stop - 1]? = some 47 := by
  obtain ⟨h2, hsize, h0, hline | ⟨h4, -, hstar, hslash⟩⟩ := hc
  · rw [Text.Utf8.slice_startsWith_doc_eq_false h2 hsize h0 hline] at h
    exact absurd h Bool.false_ne_true
  · exact ⟨h4, hstar, hslash⟩

end DocWeaver.Syntax

namespace DocWeaver.Extract

open DocWeaver.Syntax DocWeaver.Text

def headerStop (anchor node : Span) : Option Span → Nat
  | some b => b.start
  | none => max anchor.stop node.stop

/-- The spans one declaration is read from, as a well-formed outline gives them: the anchor
starts at a token, and the header runs past the anchor's start to a character boundary within
the declaration. -/
structure DeclSpans (text : String) (anchor node : Span) (body : Option Span) : Prop where
  anchor_token : IsTokenStart text anchor.start
  start_lt : anchor.start < headerStop anchor node body
  stop_boundary : IsBoundary text (headerStop anchor node body)
  stop_le : headerStop anchor node body ≤ max anchor.stop node.stop

theorem DeclSpans.of_nodes {text : String} {anchor node : Span} {body : Option Span}
    (ha : TokenSpan text anchor) (hn : TokenSpan text node) (hle : anchor.start ≤ node.start)
    (hbody : BodyIn text node body) : DeclSpans text anchor node body := by
  obtain ⟨-, hatok, haend⟩ := ha
  obtain ⟨hnode, -, hnend⟩ := hn
  cases body with
  | some b =>
    obtain ⟨⟨hb, hbtok, -⟩, hstart, hstop⟩ := hbody
    exact ⟨hatok, by simp only [headerStop]; omega, hbtok.isBoundary, by simp only [headerStop]; omega⟩
  | none =>
    -- the header runs to the later of the two ends, a boundary either way
    refine ⟨hatok, by simp only [headerStop]; omega, ?_, Nat.le_refl _⟩
    simp only [headerStop]
    rcases Nat.le_total anchor.stop node.stop with h | h
    · rw [Nat.max_eq_right h]; exact hnend
    · rw [Nat.max_eq_left h]; exact haend

section Walk

variable (w : Walk)

theorem Walk.declaration_header {kind : DeclKind} {name qualified : String} {prev : Option Span}
    {anchor node : Span} {body : Option Span} {exported : Bool} {c : Callable} :
    (w.declaration kind name qualified prev anchor node body exported c).header =
      w.range anchor.start (anchor.start +
        (stripEnd (Utf8.slice w.src anchor.start (headerStop anchor node body))).utf8ByteSize) := by
  cases body <;> rfl

@[simp] theorem Walk.declaration_full_endByte {kind : DeclKind} {name qualified : String}
    {prev : Option Span} {anchor node : Span} {body : Option Span} {exported : Bool} {c : Callable} :
    (w.declaration kind name qualified prev anchor node body exported c).full.endByte =
      max anchor.stop node.stop := rfl

theorem Walk.docComment_eq_some_gap {prev : Option Span} {a : Nat} {dc : DocComment}
    (h : w.docComment prev a = some dc) :
    ∃ c, prev = some c ∧ dc.range = w.range c.start c.stop ∧
      (Utf8.slice w.src c.start c.stop).startsWith "/**" = true ∧
      Utf8.slice w.src c.start c.stop ≠ "/**/" ∧
      ∀ x ∈ (w.src.extract c.stop a).toList, isAsciiBlank (Char.ofNat x.toNat) = true := by
  cases prev with
  | none => simp [Walk.docComment] at h
  | some c =>
    simp only [Walk.docComment] at h
    split_ifs at h with hraw hgap
    cases h
    simp only [Walk.text, Bool.or_eq_true, Bool.not_eq_true', beq_iff_eq, not_or] at hraw
    simp only [List.any_eq_true, Bool.not_eq_true', not_exists, not_and, Bool.not_eq_false] at hgap
    exact ⟨c, rfl, rfl, Bool.of_not_eq_false hraw.1, hraw.2, hgap⟩

variable {w}
variable {kind : DeclKind} {name qualified : String} {prev : Option Span} {anchor node : Span}
  {body : Option Span} {exported : Bool} {c : Callable} {text : String}

theorem Walk.header_declaration (hsrc : w.src = text.toUTF8) (hs : DeclSpans text anchor node body) :
    anchor.start < (w.declaration kind name qualified prev anchor node body exported c).header.endByte ∧
      (w.declaration kind name qualified prev anchor node body exported c).header.endByte ≤
        headerStop anchor node body ∧
      ∀ ch ∈ (Utf8.slice w.src anchor.start
          (w.declaration kind name qualified prev anchor node body exported c).header.endByte).toList.getLast?,
        isBlank ch = false := by
  obtain ⟨i, hi, hoffi, hblank⟩ := hs.anchor_token
  obtain ⟨j, hj, hoffj⟩ := hs.stop_boundary
  have hij : i < j := by
    by_contra hji
    have := charOffset_mono text (Nat.le_of_not_lt hji)
    have := hs.start_lt
    omega
  obtain ⟨k, hk0, hk, hsize, hslice⟩ := stripEnd_slice text hij hj hblank
  rw [Walk.declaration_header, Walk.range_endByte, hsrc, ← hoffi, ← hoffj, hsize, hslice, stripEnd,
    String.toList_ofList]
  exact ⟨charOffset_lt_charOffset (by omega) (by omega), charOffset_mono text (by omega),
    isBlank_getLast_trimEnd _⟩

theorem Walk.doc_declaration {b : Nat} (hprev : PrevWithin w.src b anchor.start prev) :
    ∀ dc ∈ (w.declaration kind name qualified prev anchor node body exported c).doc,
      b ≤ dc.range.startByte ∧ dc.range.IsDocBlock w.src ∧ dc.range.endByte ≤ anchor.start ∧
      ∀ x ∈ (w.src.extract dc.range.endByte anchor.start).toList,
        isAsciiBlank (Char.ofNat x.toNat) = true := by
  intro dc hdc
  rw [Walk.declaration_doc, Option.mem_def] at hdc
  obtain ⟨s, rfl, hrange, hopen, hne, hgap⟩ := w.docComment_eq_some_gap hdc
  obtain ⟨hb, hstop, htok⟩ := hprev s rfl
  obtain ⟨h4, hstar, hslash⟩ := htok.docBlock hopen
  rw [hrange]
  exact ⟨hb, ⟨hopen, hne, h4, hstar, hslash⟩, hstop, hgap⟩

theorem Walk.shaped_declaration (hsrc : w.src = text.toUTF8) (hs : DeclSpans text anchor node body)
    {b : Nat} (hprev : PrevWithin w.src b anchor.start prev) :
    (w.declaration kind name qualified prev anchor node body exported c).Shaped w.src := by
  refine ⟨rfl, (Walk.header_declaration hsrc hs).1, ?_, (Walk.header_declaration hsrc hs).2.2,
    fun dc hdc => (Walk.doc_declaration hprev dc hdc).2.1,
    fun dc hdc => (Walk.doc_declaration hprev dc hdc).2.2.1,
    fun dc hdc => (Walk.doc_declaration hprev dc hdc).2.2.2⟩
  rw [Walk.declaration_full_endByte]
  exact Nat.le_trans (Walk.header_declaration hsrc hs).2.1 hs.stop_le

theorem Walk.headersWithin_declaration (hsrc : w.src = text.toUTF8)
    (hs : DeclSpans text anchor node body) {b hi : Nat} (hb : b ≤ anchor.start)
    (hprev : PrevWithin w.src b anchor.start prev) (hhi : max anchor.stop node.stop ≤ hi) :
    HeadersWithin w.src b hi [w.declaration kind name qualified prev anchor node body exported c] := by
  have hshaped : (w.declaration kind name qualified prev anchor node body exported c).Shaped w.src :=
    Walk.shaped_declaration hsrc hs hprev
  exact ⟨hshaped, ⟨hb, fun dc hdc => (Walk.doc_declaration hprev dc hdc).1⟩, hhi,
    Nat.le_trans hshaped.header_le_full hhi⟩

end Walk

theorem leadingDecorators_anchor_mem {b : Nat} :
    ∀ {before : List Member} {lo : Nat} {s : Span} {ds : List Span} {r : List Member},
      leadingDecorators before = (ds, r) →
      SpansWithin b lo ((sinceMethod before).reverse.map Member.span) →
      ds.getLast?.getD s = s ∨
        Member.decorator (ds.getLast?.getD s) ∈ before ∧ (ds.getLast?.getD s).stop ≤ lo
  | [], lo, s, ds, r, h, _ => by
    simp only [leadingDecorators, Prod.mk.injEq] at h
    obtain ⟨rfl, rfl⟩ := h
    exact Or.inl rfl
  | m :: before, lo, s, ds, r, h, hrun => by
    cases m with
    | decorator d =>
      -- the anchor for `d` is that of the run behind it, or `d` itself
      rcases hrest : leadingDecorators before with ⟨ds', r'⟩
      simp only [leadingDecorators, hrest, Prod.mk.injEq] at h
      obtain ⟨rfl, rfl⟩ := h
      obtain ⟨mid, hrun', hmid, hd, hlo⟩ := (spansWithin_sinceMethod_cons rfl).mp hrun
      simp only [Member.span] at hmid hd hlo
      simp only [List.getLast?_cons, Option.getD_some]
      have ih : ds'.getLast?.getD d = d ∨
          Member.decorator (ds'.getLast?.getD d) ∈ before ∧ (ds'.getLast?.getD d).stop ≤ mid :=
        leadingDecorators_anchor_mem hrest hrun'
      rcases ih with heq | ⟨hmem, hstop⟩
      · rw [heq]
        exact Or.inr ⟨List.mem_cons_self, hlo⟩
      · exact Or.inr ⟨List.mem_cons_of_mem _ hmem, by omega⟩
    | comment span | method span nameSpan isPrivate body callable | other span =>
      simp only [leadingDecorators, Prod.mk.injEq] at h
      obtain ⟨rfl, rfl⟩ := h
      exact Or.inl rfl

section Walk

variable (w : Walk) {text : String}

/-- The method declarations of a well-formed class body come in order within the body. The walk
carries the members passed since the last method, which lie after the bound `b`, the end of that
method's header. -/
theorem Walk.headersWithin_methods (hsrc : w.src = text.toUTF8) (owner : String) (exported : Bool)
    (hi : Nat) :
    ∀ (members before : List Member) (b lo : Nat),
      SpansWithin lo hi (members.map Member.span) →
      (∀ m ∈ members, m.Placed w.src ∧ m.Nested text) →
      (∀ m ∈ before, m.Placed w.src ∧ m.Nested text) →
      SpansWithin b lo ((sinceMethod before).reverse.map Member.span) →
      HeadersWithin w.src b hi (w.methods owner exported before members) := by
  intro members
  induction members with
  | nil =>
    intro before b lo hspan _ _ hrun
    exact Nat.le_trans hrun.le hspan
  | cons m rest ih =>
    intro before b lo hspan hsound hbefore hrun
    obtain ⟨hlo, hm, hrest⟩ := hspan
    have hsound' : ∀ x ∈ rest, x.Placed w.src ∧ x.Nested text :=
      fun x hx => hsound x (List.mem_cons_of_mem _ hx)
    have hbefore' : ∀ x ∈ m :: before, x.Placed w.src ∧ x.Nested text :=
      List.forall_mem_cons.mpr ⟨hsound m List.mem_cons_self, hbefore⟩
    cases m with
    | method span nameSpan isPrivate body callable =>
      simp only [Member.span] at hlo hm
      obtain ⟨hspan, hbody⟩ := (hsound _ List.mem_cons_self).2
      rcases hld : leadingDecorators before with ⟨ds, r⟩
      obtain ⟨hb, hA, hprev⟩ := leadingDecorators_anchor hld hlo hrun (fun x hx => (hbefore x hx).1)
      have hanchor : TokenSpan text (ds.getLast?.getD span) ∧ (ds.getLast?.getD span).stop ≤ span.stop := by
        rcases leadingDecorators_anchor_mem hld hrun with heq | ⟨hmem, hstop⟩
        · rw [heq]
          exact ⟨hspan, Nat.le_refl _⟩
        · exact ⟨(hbefore _ hmem).2, by omega⟩
      have hfull : max (ds.getLast?.getD span).stop span.stop = span.stop := Nat.max_eq_right hanchor.2
      have hs : DeclSpans text (ds.getLast?.getD span) span body := DeclSpans.of_nodes hanchor.1 hspan hA hbody
      simp only [Walk.methods, hld]
      -- past the method, the bound moves to its end, and no member has been passed since
      refine (w.headersWithin_declaration hsrc hs hb hprev (Nat.le_of_eq hfull)).append
        (ih _ _ span.stop hrest hsound' hbefore' ?_)
      simp only [sinceMethod, List.takeWhile_cons, Member.isMethod, Bool.not_true,
        Bool.false_eq_true, if_false, List.reverse_nil, List.map_nil, SpansWithin, Nat.le_refl]
    | comment s | decorator s | other s =>
      simp only [Walk.methods, List.nil_append]
      exact ih _ b s.stop hrest hsound' hbefore'
        ((spansWithin_sinceMethod_cons rfl).mpr ⟨lo, hrun, hlo, hm, Nat.le_refl _⟩)

/-- The declarations of one well-formed statement anchored at `anchor` come in order within the
anchor's span. -/
theorem Walk.headersWithin_node (hsrc : w.src = text.toUTF8) {prev : Option Span} {anchor : Span}
    {exported : Bool} {d : Decl} {b : Nat} (hb : b ≤ anchor.start) (hanchor : TokenSpan text anchor)
    (hplaced : d.Placed w.src anchor) (hnested : d.Nested text anchor)
    (hprev : PrevWithin w.src b anchor.start prev) :
    HeadersWithin w.src b anchor.stop (w.node prev anchor exported d) := by
  have hnone : HeadersWithin w.src b anchor.stop [] := by
    have := hanchor.1
    exact Nat.le_trans hb (Nat.le_of_lt this)
  cases d with
  | «variables» span isConst ds =>
    obtain ⟨hwithin, hspan, hvalues⟩ := hnested
    simp only [Walk.node]
    split
    · exact hnone
    · -- a single binding to a function: the function value is the node
      rename_i n vs f
      obtain ⟨hvs, hvspan, hvbody⟩ := hvalues _ List.mem_cons_self _ rfl
      have hvs' := hvs.trans hwithin
      exact w.headersWithin_declaration hsrc (DeclSpans.of_nodes hanchor hvspan hvs'.1 hvbody) hb hprev
        (Nat.max_le.mpr ⟨Nat.le_refl _, hvs'.2⟩)
    · split
      · exact w.headersWithin_declaration hsrc (DeclSpans.of_nodes hanchor hspan hwithin.1 (bodyIn_none text span)) hb
          hprev (Nat.max_le.mpr ⟨Nat.le_refl _, hwithin.2⟩)
      · exact hnone
  | klass span c =>
    obtain ⟨h₁, h₂, h₃, h₄, hmembers, hplacedm⟩ := hplaced
    obtain ⟨hspan, hbody, hnestedm⟩ := hnested
    have hs : DeclSpans text anchor span (some c.body) := DeclSpans.of_nodes hanchor hspan h₁ hbody
    simp only [Walk.node]
    obtain ⟨hshaped, hstarts, hfull, -⟩ :=
      w.headersWithin_declaration hsrc hs hb hprev (Nat.max_le.mpr ⟨Nat.le_refl anchor.stop, h₄⟩)
    refine ⟨hshaped, hstarts, hfull, ?_⟩
    refine (w.headersWithin_methods hsrc _ exported c.body.stop c.members [] _ c.body.start hmembers
      (fun m hm => ⟨hplacedm m hm, hnestedm m hm⟩) (fun _ h => by cases h) ?_).mono (by omega)
    simp only [sinceMethod, List.takeWhile_nil, List.reverse_nil, List.map_nil, SpansWithin]
    exact (Walk.header_declaration hsrc hs).2.1
  | function span f =>
    obtain ⟨hwithin, hspan, hbody⟩ := hnested
    exact w.headersWithin_declaration hsrc (DeclSpans.of_nodes hanchor hspan hwithin.1 hbody) hb hprev
      (Nat.max_le.mpr ⟨Nat.le_refl _, hwithin.2⟩)
  | interface span n body =>
    obtain ⟨hwithin, hspan, hbody⟩ := hnested
    exact w.headersWithin_declaration hsrc (DeclSpans.of_nodes hanchor hspan hwithin.1 hbody) hb hprev
      (Nat.max_le.mpr ⟨Nat.le_refl _, hwithin.2⟩)
  | typeAlias span n =>
    obtain ⟨hwithin, hspan⟩ := hnested
    exact w.headersWithin_declaration hsrc (DeclSpans.of_nodes hanchor hspan hwithin.1 (bodyIn_none text span)) hb
      hprev (Nat.max_le.mpr ⟨Nat.le_refl _, hwithin.2⟩)
  | other span => exact hnone

/-- The declarations of well-formed top-level items come in order within `[b, hi]`, when the
items lie in order from `lo` on and the comment before them, if any, lies within `[b, lo]`. -/
theorem Walk.headersWithin_items (hsrc : w.src = text.toUTF8) (hi : Nat) :
    ∀ (items before : List Item) (b lo : Nat),
      SpansWithin lo hi (items.map Item.span) → (∀ it ∈ items, it.Placed w.src ∧ it.Nested text) →
      b ≤ lo → PrevWithin w.src b lo (Item.comment? before) →
      HeadersWithin w.src b hi (w.items before items) := by
  intro items
  induction items with
  | nil =>
    intro before b lo hspan _ hb _
    exact Nat.le_trans hb hspan
  | cons it rest ih =>
    intro before b lo hspan hsound hb hprev
    obtain ⟨hlo, hit, hrest⟩ := hspan
    have hsound' : ∀ x ∈ rest, x.Placed w.src ∧ x.Nested text :=
      fun x hx => hsound x (List.mem_cons_of_mem _ hx)
    obtain ⟨hplaced, hnested⟩ := hsound it List.mem_cons_self
    have hnext : HeadersWithin w.src it.span.stop hi (w.items (it :: before) rest) →
        HeadersWithin w.src b hi (w.items (it :: before) rest) := fun h => h.of_le (by omega)
    cases it with
    | comment s =>
      simp only [Walk.items, List.nil_append]
      refine ih _ b s.stop hrest hsound' (by simp only [Item.span] at hlo hit; omega) ?_
      intro c hc
      cases hc
      simp only [Item.span] at hlo
      exact ⟨by omega, Nat.le_refl _, hplaced⟩
    | «export» s d =>
      cases d with
      | none =>
        simp only [Walk.items, List.nil_append]
        exact hnext (ih _ _ s.stop hrest hsound' (Nat.le_refl _) (fun _ h => by cases h))
      | some d =>
        simp only [Item.span] at hlo hit
        simp only [Walk.items]
        exact (w.headersWithin_node hsrc (by omega) hnested.1 hplaced hnested.2 (hprev.mono hlo)).append
          (ih _ _ s.stop hrest hsound' (Nat.le_refl _) (fun _ h => by cases h))
    | decl d =>
      simp only [Item.span] at hlo hit
      simp only [Walk.items]
      exact (w.headersWithin_node hsrc (by omega) hnested.1 hplaced hnested.2 (hprev.mono hlo)).append
        (ih _ _ d.span.stop hrest hsound' (Nat.le_refl _) (fun _ h => by cases h))
    | other s =>
      simp only [Walk.items, List.nil_append]
      exact hnext (ih _ _ s.stop hrest hsound' (Nat.le_refl _) (fun _ h => by cases h))

end Walk

theorem headersWithin_declarationsOf {text : String} (relPath : String) {items : List Item}
    (h : Outline.Nested text items) :
    HeadersWithin text.toUTF8 0 text.toUTF8.size (declarationsOf text.toUTF8 relPath items) :=
  Walk.headersWithin_items (fileWalk text.toUTF8 relPath) rfl text.toUTF8.size items [] 0 0
    h.placed.ordered (fun it hit => ⟨h.placed.placed it hit, h.nested it hit⟩) (Nat.le_refl 0)
    (fun _ h => by cases h)

/-- The declarations of a well-formed outline of a text are well formed. Each header is a
non-empty start of its declaration's full range, which ends within the text, and the header's
text does not end in a blank character; each doc comment is a block comment that ends by its
header's start with only ASCII blanks between; every range starts on the line one more than the
line feeds before it and ends on the line of its last byte; and of two declarations, the first
one's header ends by the second one's start, and neither one's doc comment shares a byte with
the other's header or doc comment. -/
theorem declarationsOf_wellFormed (text relPath : String) (items : List Item)
    (h : Outline.Nested text items) :
    (declarationsOf text.toUTF8 relPath items).Pairwise Declaration.Before ∧
      ∀ d ∈ declarationsOf text.toUTF8 relPath items,
        d.Shaped text.toUTF8 ∧ d.full.endByte ≤ text.toUTF8.size ∧
          d.header.LinesIn text.toUTF8 ∧ d.full.LinesIn text.toUTF8 ∧
          ∀ c ∈ d.doc, c.range.LinesIn text.toUTF8 := by
  have hheaders := headersWithin_declarationsOf relPath h
  refine ⟨hheaders.pairwise_before, fun d hd => ?_⟩
  obtain ⟨hshaped, -, hsize⟩ := hheaders.mem d hd
  obtain ⟨hheader, hfull, hdoc⟩ := linesIn_of_mem_declarationsOf hd
  exact ⟨hshaped, hsize, hheader, hfull, hdoc⟩

end DocWeaver.Extract

namespace DocWeaver.Extract

open DocWeaver.Syntax

/-- A documented class with a documented method behind a decorator: the outline read from the
text is nested, and its two declarations, both with doc comments, are well formed. -/
theorem decorated_method_declarations_wellFormed :
    let text := "/** A. */\nclass A \x7b\n  /** M. */\n  @d m() \x7b\x7d\n\x7d\n"
    let items : List Item := [.comment ⟨0, 9⟩, .decl (.klass ⟨10, 45⟩ ⟨some ⟨16, 17⟩, ⟨18, 45⟩,
      [.comment ⟨22, 31⟩, .decorator ⟨34, 36⟩, .method ⟨37, 43⟩ ⟨37, 38⟩ false (some ⟨41, 43⟩) {}]⟩)]
    readOutline text.toUTF8 .typescript = .ok items ∧ Outline.Nested text items ∧
      (declarationsOf text.toUTF8 "a.ts" items).map (·.doc.isSome) = [true, true] ∧
      (declarationsOf text.toUTF8 "a.ts" items).Pairwise Declaration.Before ∧
      ∀ d ∈ declarationsOf text.toUTF8 "a.ts" items,
        d.Shaped text.toUTF8 ∧ d.full.endByte ≤ text.toUTF8.size ∧
          d.header.LinesIn text.toUTF8 ∧ d.full.LinesIn text.toUTF8 ∧
          ∀ c ∈ d.doc, c.range.LinesIn text.toUTF8 := by
  intro text items
  have hread : readOutline text.toUTF8 .typescript = .ok items := by decide +kernel
  have hnested : Outline.Nested text items := by decide +kernel
  have hdocs : (declarationsOf text.toUTF8 "a.ts" items).map (·.doc.isSome) = [true, true] := by
    decide +kernel
  exact ⟨hread, hnested, hdocs, declarationsOf_wellFormed text "a.ts" items hnested⟩

end DocWeaver.Extract

namespace DocWeaver.Syntax

/-- A reader of outlines that nests every outline it reads from a text. -/
def OutlineReader.Nested (read : OutlineReader) : Prop :=
  ∀ (text : String) (dialect : Dialect) (items : List Item),
    read text.toUTF8 dialect = .ok items → Outline.Nested text items

end DocWeaver.Syntax

namespace DocWeaver.Extract

open DocWeaver.Syntax

theorem extractDeclarations_before {read : OutlineReader} (hread : read.Nested)
    {name relPath text : String} {ds : List Declaration}
    (h : extractDeclarations read name relPath text.toUTF8 = .ok ds) :
    ds.Pairwise Declaration.Before := by
  unfold extractDeclarations at h
  dsimp only at h
  split at h
  · cases h
  split at h
  · cases h
  rename_i items hitems
  cases h
  exact (headersWithin_declarationsOf relPath (hread text _ items hitems)).pairwise_before

end DocWeaver.Extract
