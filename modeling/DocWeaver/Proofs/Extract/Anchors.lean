import DocWeaver.Proofs.Extract.WellFormed

/-!
Where the ranges of declarations start.

Every declaration that the walk reads from a nested outline has its header at a token of the
text, and its doc comment, if it has one, is a comment token of the text. So the patch writer's
edit points, which sit at headers, at line starts and at the two ends of doc comments, fall on
character boundaries, and the byte at a header is that of a character that is not blank.
-/

namespace DocWeaver

open DocWeaver.Syntax

/-- The header of a declaration starts at a token of `text`, and its doc comment, if it has
one, is a comment token of the text. -/
structure Declaration.Anchored (text : String) (d : Declaration) : Prop where
  header_token : IsTokenStart text d.header.startByte
  doc_token : ∀ c ∈ d.doc, CommentToken text.toUTF8 ⟨c.range.startByte, c.range.endByte⟩

end DocWeaver

namespace DocWeaver.Extract

open DocWeaver.Syntax DocWeaver.Text

theorem leadingDecorators_subset :
    ∀ {before : List Member} {ds : List Span} {r : List Member},
      leadingDecorators before = (ds, r) → (∀ s ∈ ds, Member.decorator s ∈ before) ∧ r ⊆ before
  | [], ds, r, h => by
    simp only [leadingDecorators, Prod.mk.injEq] at h
    obtain ⟨rfl, rfl⟩ := h
    exact ⟨(fun _ h => by cases h), List.Subset.refl _⟩
  | m :: before, ds, r, h => by
    cases m with
    | decorator d =>
      rcases hrest : leadingDecorators before with ⟨ds', r'⟩
      simp only [leadingDecorators, hrest, Prod.mk.injEq] at h
      obtain ⟨rfl, rfl⟩ := h
      obtain ⟨hds, hr⟩ := leadingDecorators_subset hrest
      refine ⟨fun s hs => ?_, List.subset_cons_of_subset _ hr⟩
      rcases List.mem_cons.mp hs with rfl | hs
      · exact List.mem_cons_self
      · exact List.mem_cons_of_mem _ (hds s hs)
    | comment span | method span nameSpan isPrivate body callable | other span =>
      simp only [leadingDecorators, Prod.mk.injEq] at h
      obtain ⟨rfl, rfl⟩ := h
      exact ⟨(fun _ h => by cases h), List.Subset.refl _⟩

theorem Member.comment?_mem {ms : List Member} {s : Span} (h : Member.comment? ms = some s) :
    Member.comment s ∈ ms := by
  match ms, h with
  | .comment _ :: _, rfl => exact List.mem_cons_self

theorem Item.comment?_mem {items : List Item} {s : Span} (h : Item.comment? items = some s) :
    Item.comment s ∈ items := by
  match items, h with
  | .comment _ :: _, rfl => exact List.mem_cons_self

section Walk

variable {w : Walk} {text : String}

theorem Walk.anchored_declaration (hsrc : w.src = text.toUTF8) {kind : DeclKind}
    {name qualified : String} {prev : Option Span} {anchor node : Span} {body : Option Span}
    {exported : Bool} {c : Callable} (htok : IsTokenStart text anchor.start)
    (hprev : ∀ s ∈ prev, CommentToken w.src s) :
    (w.declaration kind name qualified prev anchor node body exported c).Anchored text := by
  refine ⟨by rw [Walk.declaration_header_startByte]; exact htok, fun dc hdc => ?_⟩
  rw [Walk.declaration_doc, Option.mem_def] at hdc
  obtain ⟨s, rfl, hstart, hend, -⟩ := w.docComment_eq_some hdc
  rw [hstart, hend, ← hsrc]
  exact hprev s rfl

variable (w)

theorem Walk.anchored_of_mem_methods (hsrc : w.src = text.toUTF8) (owner : String) (exported : Bool) :
    ∀ (members before : List Member),
      (∀ m ∈ members, m.Placed w.src ∧ m.Nested text) →
      (∀ m ∈ before, m.Placed w.src ∧ m.Nested text) →
      ∀ d ∈ w.methods owner exported before members, d.Anchored text := by
  intro members
  induction members with
  | nil => intro _ _ _ d hd; cases hd
  | cons m rest ih =>
    intro before hsound hbefore d hd
    have hbefore' : ∀ x ∈ m :: before, x.Placed w.src ∧ x.Nested text :=
      List.forall_mem_cons.mpr ⟨hsound m List.mem_cons_self, hbefore⟩
    simp only [Walk.methods, List.mem_append] at hd
    rcases hd with hd | hd
    · cases m with
      | method span nameSpan isPrivate body callable =>
        rcases hld : leadingDecorators before with ⟨ds, r⟩
        simp only [hld, List.mem_singleton] at hd
        subst hd
        obtain ⟨hds, hr⟩ := leadingDecorators_subset hld
        have hspan : TokenSpan text span := (hsound _ List.mem_cons_self).2.1
        have hanchor : IsTokenStart text (ds.getLast?.getD span).start := by
          cases hlast : ds.getLast? with
          | none => exact hspan.2.1
          | some x => exact (hbefore _ (hds x (List.mem_of_getLast? hlast))).2.2.1
        refine w.anchored_declaration hsrc hanchor fun s hs => ?_
        exact (hbefore _ (hr (Member.comment?_mem hs))).1
      | comment _ | decorator _ | other _ => cases hd
    · exact ih _ (fun x hx => hsound x (List.mem_cons_of_mem _ hx)) hbefore' d hd

theorem Walk.anchored_of_mem_node (hsrc : w.src = text.toUTF8) {prev : Option Span}
    {anchor : Span} {exported : Bool} {decl : Decl} (hanchor : TokenSpan text anchor)
    (hplaced : decl.Placed w.src anchor) (hnested : decl.Nested text anchor)
    (hprev : ∀ s ∈ prev, CommentToken w.src s) :
    ∀ d ∈ w.node prev anchor exported decl, d.Anchored text := by
  intro d hd
  -- every declaration of the statement but the methods of a class is read at its anchor
  have hhere : ∀ {kind name qualified node body c},
      (w.declaration kind name qualified prev anchor node body exported c).Anchored text :=
    w.anchored_declaration hsrc hanchor.2.1 hprev
  cases decl with
  | «variables» span isConst ds =>
    simp only [Walk.node] at hd
    split at hd
    · cases hd
    · rw [List.mem_singleton.mp hd]; exact hhere
    · split at hd
      · rw [List.mem_singleton.mp hd]; exact hhere
      · cases hd
  | klass span c =>
    obtain ⟨-, -, -, -, -, hplacedm⟩ := hplaced
    obtain ⟨-, -, hnestedm⟩ := hnested
    simp only [Walk.node, List.mem_cons] at hd
    rcases hd with rfl | hd
    · exact hhere
    · exact w.anchored_of_mem_methods hsrc _ exported c.members []
        (fun m hm => ⟨hplacedm m hm, hnestedm m hm⟩) (fun _ h => by cases h) d hd
  | function span f | interface span n body | typeAlias span n =>
    simp only [Walk.node, List.mem_singleton] at hd
    rw [hd]
    exact hhere
  | other span => cases hd

theorem Walk.anchored_of_mem_items (hsrc : w.src = text.toUTF8) :
    ∀ (items before : List Item), (∀ it ∈ items, it.Placed w.src ∧ it.Nested text) →
      (∀ it ∈ before, it.Placed w.src) → ∀ d ∈ w.items before items, d.Anchored text := by
  intro items
  induction items with
  | nil => intro _ _ _ d hd; cases hd
  | cons it rest ih =>
    intro before hsound hbefore d hd
    obtain ⟨hplaced, hnested⟩ := hsound it List.mem_cons_self
    have hprev : ∀ s ∈ Item.comment? before, CommentToken w.src s :=
      fun s hs => hbefore _ (Item.comment?_mem hs)
    simp only [Walk.items, List.mem_append] at hd
    rcases hd with hd | hd
    · cases it with
      | «export» s inner =>
        cases inner with
        | none => cases hd
        | some decl => exact w.anchored_of_mem_node hsrc hnested.1 hplaced hnested.2 hprev d hd
      | decl decl => exact w.anchored_of_mem_node hsrc hnested.1 hplaced hnested.2 hprev d hd
      | comment _ | other _ => cases hd
    · exact ih _ (fun x hx => hsound x (List.mem_cons_of_mem _ hx))
        (List.forall_mem_cons.mpr ⟨hplaced, hbefore⟩) d hd

end Walk

theorem anchored_of_mem_declarationsOf {text relPath : String} {items : List Item}
    (h : Outline.Nested text items) :
    ∀ d ∈ declarationsOf text.toUTF8 relPath items, d.Anchored text :=
  Walk.anchored_of_mem_items (fileWalk text.toUTF8 relPath) rfl items []
    (fun it hit => ⟨h.placed.placed it hit, h.nested it hit⟩) (fun _ h => by cases h)

end DocWeaver.Extract
