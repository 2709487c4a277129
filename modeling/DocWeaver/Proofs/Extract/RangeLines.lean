import DocWeaver.Proofs.Extract.DocumentOrder
import DocWeaver.Proofs.Text.LineNumbers

/-!
The lines of every range the walk records.

Every declaration of a file's outline is one that `Walk.declaration` builds, whatever the
outline: its header, its full range and its doc comment are ranges of the walk. The walk counts
the lines of a range by the line table of the file, so each range starts on the line one more
than the line feeds before its first byte and ends on the line of its last byte, and no range
ends on a line before the one it starts on.
-/

namespace DocWeaver.Extract

open DocWeaver.Syntax DocWeaver.Text

/-! ### Every declaration is built by `Walk.declaration` -/

section Walk

variable (w : Walk)

def Walk.Builds (d : Declaration) : Prop :=
  ∃ kind name qualified prev anchor node body exported c,
    d = w.declaration kind name qualified prev anchor node body exported c

theorem Walk.builds_declaration (kind : DeclKind) (name qualified : String) (prev : Option Span)
    (anchor node : Span) (body : Option Span) (exported : Bool) (c : Callable) :
    w.Builds (w.declaration kind name qualified prev anchor node body exported c) :=
  ⟨kind, name, qualified, prev, anchor, node, body, exported, c, rfl⟩

theorem Walk.builds_of_mem_methods (owner : String) (exported : Bool) :
    ∀ (members before : List Member) {d : Declaration},
      d ∈ w.methods owner exported before members → w.Builds d := by
  intro members
  induction members with
  | nil => intro _ _ h; cases h
  | cons m rest ih =>
    intro before d h
    simp only [Walk.methods, List.mem_append] at h
    rcases h with h | h
    · cases m with
      | method span nameSpan isPrivate body callable =>
        simp only [List.mem_singleton] at h
        rw [h]
        exact w.builds_declaration ..
      | comment _ | decorator _ | other _ => cases h
    · exact ih _ h

theorem Walk.builds_of_mem_node {prev : Option Span} {anchor : Span} {exported : Bool}
    {decl : Decl} {d : Declaration} (h : d ∈ w.node prev anchor exported decl) : w.Builds d := by
  cases decl with
  | «variables» span isConst ds =>
    simp only [Walk.node] at h
    split at h
    · cases h
    · rw [List.mem_singleton.mp h]; exact w.builds_declaration ..
    · split at h
      · rw [List.mem_singleton.mp h]; exact w.builds_declaration ..
      · cases h
  | klass span c =>
    simp only [Walk.node, List.mem_cons] at h
    rcases h with h | h
    · rw [h]; exact w.builds_declaration ..
    · exact w.builds_of_mem_methods _ exported c.members [] h
  | function span f | interface span n body | typeAlias span n =>
    simp only [Walk.node, List.mem_singleton] at h
    rw [h]
    exact w.builds_declaration ..
  | other span => cases h

theorem Walk.builds_of_mem_items :
    ∀ (items before : List Item) {d : Declaration}, d ∈ w.items before items → w.Builds d := by
  intro items
  induction items with
  | nil => intro _ _ h; cases h
  | cons it rest ih =>
    intro before d h
    simp only [Walk.items, List.mem_append] at h
    rcases h with h | h
    · cases it with
      | «export» s inner =>
        cases inner with
        | none => cases h
        | some decl => exact w.builds_of_mem_node h
      | decl decl => exact w.builds_of_mem_node h
      | comment _ | other _ => cases h
    · exact ih _ h

theorem Walk.docComment_range {prev : Option Span} {a : Nat} {dc : DocComment}
    (h : w.docComment prev a = some dc) : ∃ c : Span, dc.range = w.range c.start c.stop := by
  cases prev with
  | none => simp [Walk.docComment] at h
  | some c =>
    simp only [Walk.docComment] at h
    split_ifs at h
    cases h
    exact ⟨c, rfl⟩

end Walk

end DocWeaver.Extract

/-! ### Lines of ranges -/

namespace DocWeaver

/-- The lines of a range are those of its first and last byte in `src`, each one more than the
line feeds before that byte. -/
def SourceRange.LinesIn (src : ByteArray) (r : SourceRange) : Prop :=
  r.startLine = 1 + (src.data.toList.take r.startByte).count 10 ∧
    r.endLine = 1 + (src.data.toList.take (max r.startByte (r.endByte - 1))).count 10

end DocWeaver

namespace DocWeaver.Extract

open DocWeaver.Syntax DocWeaver.Text

theorem Walk.range_linesIn {w : Walk} (hw : w.lines = LineTable.ofBytes w.src) (a b : Nat) :
    (w.range a b).LinesIn w.src := by
  simp only [SourceRange.LinesIn, Walk.range, hw, line_ofBytes, and_self]

theorem Walk.range_startLine_le_endLine {w : Walk} (hw : w.lines = LineTable.ofBytes w.src)
    (a b : Nat) :
    (w.range a b).startLine ≤ (w.range a b).endLine := by
  simp only [Walk.range, hw]
  exact line_ofBytes_mono _ (Nat.le_max_left _ _)

theorem Walk.Builds.ranges {w : Walk} {d : Declaration} (h : w.Builds d) :
    (∃ a b, d.header = w.range a b) ∧ (∃ a b, d.full = w.range a b) ∧
      ∀ dc ∈ d.doc, ∃ a b, dc.range = w.range a b := by
  obtain ⟨kind, name, qualified, prev, anchor, node, body, exported, c, rfl⟩ := h
  refine ⟨⟨_, _, rfl⟩, ⟨_, _, rfl⟩, fun dc hdc => ?_⟩
  obtain ⟨s, hs⟩ := w.docComment_range hdc
  exact ⟨_, _, hs⟩

def fileWalk (src : ByteArray) (relPath : String) : Walk := ⟨src, relPath, LineTable.ofBytes src⟩

theorem fileWalk_lines (src : ByteArray) (relPath : String) :
    (fileWalk src relPath).lines = LineTable.ofBytes (fileWalk src relPath).src :=
  rfl

theorem builds_of_mem_declarationsOf {src : ByteArray} {relPath : String} {items : List Item}
    {d : Declaration} (hd : d ∈ declarationsOf src relPath items) :
    (fileWalk src relPath).Builds d :=
  Walk.builds_of_mem_items _ items [] hd

theorem linesIn_of_mem_declarationsOf {src : ByteArray} {relPath : String} {items : List Item}
    {d : Declaration} (hd : d ∈ declarationsOf src relPath items) :
    d.header.LinesIn src ∧ d.full.LinesIn src ∧ ∀ dc ∈ d.doc, dc.range.LinesIn src := by
  obtain ⟨⟨a, b, hh⟩, ⟨a', b', hf⟩, hdoc⟩ := (builds_of_mem_declarationsOf hd).ranges
  have hw := fileWalk_lines src relPath
  refine ⟨hh ▸ Walk.range_linesIn hw a b, hf ▸ Walk.range_linesIn hw a' b', fun dc hdc => ?_⟩
  obtain ⟨a'', b'', hr⟩ := hdoc dc hdc
  exact hr ▸ Walk.range_linesIn hw a'' b''

theorem full_startLine_le_endLine {src : ByteArray} {relPath : String} {items : List Item}
    {d : Declaration} (hd : d ∈ declarationsOf src relPath items) :
    d.full.startLine ≤ d.full.endLine := by
  obtain ⟨-, ⟨a, b, hf⟩, -⟩ := (builds_of_mem_declarationsOf hd).ranges
  rw [hf]
  exact Walk.range_startLine_le_endLine (fileWalk_lines src relPath) a b

theorem filePath_of_mem_declarationsOf {src : ByteArray} {relPath : String} {items : List Item}
    {d : Declaration} (hd : d ∈ declarationsOf src relPath items) : d.filePath = relPath := by
  obtain ⟨kind, name, qualified, prev, anchor, node, body, exported, c, rfl⟩ :=
    builds_of_mem_declarationsOf hd
  rfl

end DocWeaver.Extract
