import DocWeaver.Extract.Declarations
import Mathlib.Data.List.Pairwise
import Mathlib.Tactic.SplitIfs

/-!
Where the declarations of an outline and their doc comments sit.

The parser hands over an outline whose items come in order within the file, whose comments are
comment tokens, and whose class bodies lie inside their class with their members in order;
`Outline.Placed` states exactly this. From it alone, the declarations that the walk reads come
in document order: each anchor at or after the one before, and each doc comment a block comment
that lies after the previous anchor and ends before its own (`sitesWithin_declarationsOf`).
-/

/-! ### Bytes and their text -/

namespace DocWeaver.Text.Utf8

theorem toList_loop_eq (bs : ByteArray) (i : Nat) (r : List UInt8) :
    ByteArray.toList.loop bs i r = r.reverse ++ bs.data.toList.drop i := by
  fun_induction ByteArray.toList.loop bs i r with
  | case1 i r h ih =>
    have hi : i < bs.data.toList.length := by simpa using h
    rw [ih, List.reverse_cons, List.append_assoc, List.drop_eq_getElem_cons hi]
    simp [ByteArray.get!, h]
  | case2 i r h =>
    have hi : bs.data.toList.length ≤ i := by simp; omega
    simp [List.drop_eq_nil_of_le hi]

@[simp] theorem toList_bytes (bs : ByteArray) : bs.toList = bs.data.toList := by
  simp [ByteArray.toList, toList_loop_eq]

theorem decodeAux_eq_ok_prefix {pos : Nat} {acc r : List Char} {fuel : Nat} {l : List UInt8}
    (h : decodeAux pos acc fuel l = .ok r) : ∃ t, r = acc.reverse ++ t := by
  fun_induction decodeAux pos acc fuel l generalizing r with
  | case1 => simp_all
  | case2 => simp_all
  | case3 pos acc fuel b rest c w hs ih =>
    obtain ⟨t, rfl⟩ := ih h
    exact ⟨c :: t, by simp⟩
  | case4 => simp_all

theorem decodeAux_slashes {pos n : Nat} {rest : List UInt8} {r : List Char}
    (h : decodeAux pos [] (n + 2) (47 :: 47 :: rest) = .ok r) : ∃ t, r = '/' :: '/' :: t := by
  have hstep : ∀ l, step 47 l = .char '/' 1 := fun l => by simp [step]
  simp only [decodeAux, hstep, Nat.sub_self, List.drop_zero] at h
  obtain ⟨t, rfl⟩ := decodeAux_eq_ok_prefix h
  exact ⟨t, by simp⟩

theorem slice_startsWith_doc_eq_false {src : ByteArray} {i j : Nat} (hij : i + 2 ≤ j)
    (hj : j ≤ src.size) (h0 : src[i]? = some 47) (h1 : src[i + 1]? = some 47) :
    (slice src i j).startsWith "/**" = false := by
  have hsplit : src.extract i j = src.extract i (i + 2) ++ src.extract (i + 2) j :=
    ByteArray.extract_eq_extract_append_extract (i + 2) (by omega) hij
  have hbytes : (src.extract i j).toList = 47 :: 47 :: (src.extract (i + 2) j).data.toList := by
    obtain ⟨_, e0⟩ := getElem?_eq_some_iff.mp h0
    obtain ⟨_, e1⟩ := getElem?_eq_some_iff.mp h1
    rw [toList_bytes, hsplit, ByteArray.extract_add_two (by omega), ByteArray.toList_data_append]
    simp [e0, e1]
  have hsize : (src.extract i j).size = (j - i - 2) + 2 := by
    rw [ByteArray.size_extract]; omega
  unfold slice decode
  rw [hbytes, hsize]
  cases hd : decodeAux 0 [] (j - i - 2 + 2) (47 :: 47 :: (src.extract (i + 2) j).data.toList) with
  | error e => simp [Except.map]
  | ok r =>
    obtain ⟨t, rfl⟩ := decodeAux_slashes hd
    simp [Except.map, List.cons_prefix_cons]

end DocWeaver.Text.Utf8

/-! ### What the parser guarantees -/

namespace DocWeaver.Syntax

def SpansWithin : Nat → Nat → List Span → Prop
  | lo, hi, [] => lo ≤ hi
  | lo, hi, s :: ss => lo ≤ s.start ∧ s.start ≤ s.stop ∧ SpansWithin s.stop hi ss

instance decidableSpansWithin : (lo hi : Nat) → (ss : List Span) → Decidable (SpansWithin lo hi ss)
  | lo, hi, [] => inferInstanceAs (Decidable (lo ≤ hi))
  | lo, hi, s :: ss =>
    have := decidableSpansWithin s.stop hi ss
    inferInstanceAs (Decidable (lo ≤ s.start ∧ s.start ≤ s.stop ∧ SpansWithin s.stop hi ss))

def CommentToken (src : ByteArray) (s : Span) : Prop :=
  s.start + 2 ≤ s.stop ∧ s.stop ≤ src.size ∧ src[s.start]? = some 47 ∧
    (src[s.start + 1]? = some 47 ∨
      s.start + 4 ≤ s.stop ∧ src[s.start + 1]? = some 42 ∧ src[s.stop - 2]? = some 42 ∧
        src[s.stop - 1]? = some 47)

instance (src : ByteArray) (s : Span) : Decidable (CommentToken src s) :=
  inferInstanceAs (Decidable (_ ∧ _ ∧ _ ∧ _))

/-- A member comment is a comment token. -/
def Member.Placed (src : ByteArray) : Member → Prop
  | .comment s => CommentToken src s
  | _ => True

instance Member.decidablePlaced (src : ByteArray) : (m : Member) → Decidable (m.Placed src)
  | .comment s => inferInstanceAs (Decidable (CommentToken src s))
  | .decorator _ | .method .. | .other _ => inferInstanceAs (Decidable True)

/-- A class node lies within its statement `outer`, its body within the node, and the members
of its body in order within the body. -/
def Decl.Placed (src : ByteArray) (outer : Span) : Decl → Prop
  | .klass s c =>
    outer.start ≤ s.start ∧ s.start ≤ c.body.start ∧ c.body.stop ≤ s.stop ∧ s.stop ≤ outer.stop ∧
      SpansWithin c.body.start c.body.stop (c.members.map Member.span) ∧
      ∀ m ∈ c.members, m.Placed src
  | _ => True

instance Decl.decidablePlaced (src : ByteArray) (outer : Span) : (d : Decl) → Decidable (d.Placed src outer)
  | .klass _ c => inferInstanceAs (Decidable (_ ∧ _ ∧ _ ∧ _ ∧ _ ∧ ∀ m ∈ c.members, m.Placed src))
  | .function .. | .interface .. | .typeAlias .. | .variables .. | .other _ =>
    inferInstanceAs (Decidable True)

/-- A top-level comment is a comment token, and a class statement is placed within its span. -/
def Item.Placed (src : ByteArray) : Item → Prop
  | .comment s => CommentToken src s
  | .export s (some d) => d.Placed src s
  | .decl d => d.Placed src d.span
  | _ => True

instance Item.decidablePlaced (src : ByteArray) : (it : Item) → Decidable (it.Placed src)
  | .comment s => inferInstanceAs (Decidable (CommentToken src s))
  | .export s (some d) => inferInstanceAs (Decidable (d.Placed src s))
  | .decl d => inferInstanceAs (Decidable (d.Placed src d.span))
  | .export _ none | .other _ => inferInstanceAs (Decidable True)

/-- What the parser guarantees of the outline of `src`: its items in order within the file, and
each item placed. -/
structure Outline.Placed (src : ByteArray) (items : List Item) : Prop where
  ordered : SpansWithin 0 src.size (items.map Item.span)
  placed : ∀ it ∈ items, it.Placed src

instance (src : ByteArray) (items : List Item) : Decidable (Outline.Placed src items) :=
  decidable_of_iff (SpansWithin 0 src.size (items.map Item.span) ∧ ∀ it ∈ items, it.Placed src)
    ⟨fun ⟨h₁, h₂⟩ => ⟨h₁, h₂⟩, fun ⟨h₁, h₂⟩ => ⟨h₁, h₂⟩⟩

theorem SpansWithin.le : ∀ {lo hi : Nat} {ss : List Span}, SpansWithin lo hi ss → lo ≤ hi
  | _, _, [], h => h
  | _, _, _ :: _, ⟨h₁, h₂, h₃⟩ => by have := h₃.le; omega

theorem SpansWithin.of_le {lo lo' hi : Nat} {ss : List Span} (hle : lo' ≤ lo)
    (h : SpansWithin lo hi ss) : SpansWithin lo' hi ss := by
  cases ss with
  | nil => exact Nat.le_trans hle h
  | cons s ss => exact ⟨Nat.le_trans hle h.1, h.2⟩

theorem spansWithin_append {lo hi : Nat} {xs ys : List Span} :
    SpansWithin lo hi (xs ++ ys) ↔ ∃ mid, SpansWithin lo mid xs ∧ SpansWithin mid hi ys := by
  induction xs generalizing lo with
  | nil => exact ⟨fun h => ⟨lo, Nat.le_refl lo, h⟩, fun ⟨_, hle, h⟩ => h.of_le hle⟩
  | cons x xs ih =>
    simp only [List.cons_append, SpansWithin, ih]
    constructor
    · rintro ⟨h₁, h₂, mid, h₃, h₄⟩
      exact ⟨mid, ⟨h₁, h₂, h₃⟩, h₄⟩
    · rintro ⟨mid, ⟨h₁, h₂, h₃⟩, h₄⟩
      exact ⟨h₁, h₂, mid, h₃, h₄⟩

@[simp] theorem spansWithin_singleton {lo hi : Nat} {s : Span} :
    SpansWithin lo hi [s] ↔ lo ≤ s.start ∧ s.start ≤ s.stop ∧ s.stop ≤ hi := by
  simp [SpansWithin]

end DocWeaver.Syntax

/-! ### Where declarations sit -/

namespace DocWeaver

def Declaration.SitsAfter (src : ByteArray) (b : Nat) (d : Declaration) : Prop :=
  b ≤ d.header.startByte ∧
    ∀ c ∈ d.doc, b ≤ c.range.startByte ∧ c.range.startByte < c.range.endByte ∧
      c.range.endByte ≤ d.header.startByte ∧ src[c.range.endByte - 1]? = some 47

theorem Declaration.SitsAfter.of_le {src : ByteArray} {b b' : Nat} {d : Declaration} (hle : b' ≤ b)
    (h : d.SitsAfter src b) : d.SitsAfter src b' := by
  refine ⟨Nat.le_trans hle h.1, fun c hc => ?_⟩
  obtain ⟨h₁, h₂⟩ := h.2 c hc
  exact ⟨Nat.le_trans hle h₁, h₂⟩

def Declaration.Precedes (d d' : Declaration) : Prop :=
  d.header.startByte ≤ d'.header.startByte ∧ ∀ c ∈ d'.doc, d.header.startByte ≤ c.range.startByte

def SitesWithin (src : ByteArray) : Nat → Nat → List Declaration → Prop
  | b, hi, [] => b ≤ hi
  | b, hi, d :: ds => d.SitsAfter src b ∧ SitesWithin src d.header.startByte hi ds

namespace SitesWithin

variable {src : ByteArray}

theorem le : ∀ {b hi : Nat} {ds : List Declaration}, SitesWithin src b hi ds → b ≤ hi
  | _, _, [], h => h
  | _, _, _ :: _, ⟨h₁, h₂⟩ => by have := h₂.le; have := h₁.1; omega

theorem of_le {b b' hi : Nat} {ds : List Declaration} (hle : b' ≤ b) (h : SitesWithin src b hi ds) :
    SitesWithin src b' hi ds := by
  cases ds with
  | nil => exact Nat.le_trans hle h
  | cons d ds => exact ⟨h.1.of_le hle, h.2⟩

theorem mono {b hi hi' : Nat} {ds : List Declaration} (hle : hi ≤ hi') (h : SitesWithin src b hi ds) :
    SitesWithin src b hi' ds := by
  induction ds generalizing b with
  | nil => exact Nat.le_trans h hle
  | cons d ds ih => exact ⟨h.1, ih h.2⟩

theorem append {b mid hi : Nat} {xs ys : List Declaration} (hx : SitesWithin src b mid xs)
    (hy : SitesWithin src mid hi ys) : SitesWithin src b hi (xs ++ ys) := by
  induction xs generalizing b with
  | nil => exact hy.of_le hx
  | cons d xs ih => exact ⟨hx.1, ih hx.2⟩

theorem sitsAfter_of_mem {b hi : Nat} {ds : List Declaration} (h : SitesWithin src b hi ds) :
    ∀ d ∈ ds, d.SitsAfter src b ∧ d.header.startByte ≤ hi := by
  induction ds generalizing b with
  | nil => exact fun _ h => nomatch h
  | cons d ds ih =>
    intro x hx
    rcases List.mem_cons.mp hx with rfl | hx
    · exact ⟨h.1, h.2.le⟩
    · obtain ⟨hsits, hle⟩ := ih h.2 x hx
      exact ⟨hsits.of_le h.1.1, hle⟩

theorem pairwise_precedes {b hi : Nat} {ds : List Declaration} (h : SitesWithin src b hi ds) :
    ds.Pairwise Declaration.Precedes := by
  induction ds generalizing b with
  | nil => exact List.Pairwise.nil
  | cons d ds ih =>
    refine List.Pairwise.cons (fun d' hd' => ?_) (ih h.2)
    obtain ⟨⟨hanchor, hdoc⟩, -⟩ := h.2.sitsAfter_of_mem d' hd'
    exact ⟨hanchor, fun c hc => (hdoc c hc).1⟩

end SitesWithin

end DocWeaver

/-! ### The walk keeps document order -/

namespace DocWeaver.Syntax

def Member.isMethod : Member → Bool
  | .method .. => true
  | _ => false

def sinceMethod (before : List Member) : List Member := before.takeWhile fun m => !m.isMethod

theorem spansWithin_sinceMethod_cons {b hi : Nat} {m : Member} {before : List Member}
    (hm : m.isMethod = false) :
    SpansWithin b hi ((sinceMethod (m :: before)).reverse.map Member.span) ↔
      ∃ mid, SpansWithin b mid ((sinceMethod before).reverse.map Member.span) ∧
        mid ≤ m.span.start ∧ m.span.start ≤ m.span.stop ∧ m.span.stop ≤ hi := by
  simp only [sinceMethod, List.takeWhile_cons, hm, Bool.not_false, if_true, List.reverse_cons,
    List.map_append, List.map_cons, List.map_nil, spansWithin_append, spansWithin_singleton]

theorem CommentToken.end_slash {src : ByteArray} {c : Span} (hc : CommentToken src c)
    (h : (Text.Utf8.slice src c.start c.stop).startsWith "/**" = true) :
    c.start < c.stop ∧ src[c.stop - 1]? = some 47 := by
  obtain ⟨h2, hsize, h0, hline | ⟨h4, -, -, hlast⟩⟩ := hc
  · rw [Text.Utf8.slice_startsWith_doc_eq_false h2 hsize h0 hline] at h
    exact absurd h Bool.false_ne_true
  · exact ⟨by omega, hlast⟩

end DocWeaver.Syntax

namespace DocWeaver.Extract

open DocWeaver.Syntax DocWeaver.Text

def PrevWithin (src : ByteArray) (b a : Nat) (prev : Option Span) : Prop :=
  ∀ c ∈ prev, b ≤ c.start ∧ c.stop ≤ a ∧ CommentToken src c

theorem PrevWithin.mono {src : ByteArray} {b a a' : Nat} {prev : Option Span} (hle : a ≤ a')
    (h : PrevWithin src b a prev) : PrevWithin src b a' prev := by
  intro c hc
  obtain ⟨h₁, h₂, h₃⟩ := h c hc
  exact ⟨h₁, Nat.le_trans h₂ hle, h₃⟩

section Walk

variable (w : Walk)

@[simp] theorem Walk.range_startByte (a b : Nat) : (w.range a b).startByte = a := rfl

@[simp] theorem Walk.range_endByte (a b : Nat) : (w.range a b).endByte = b := rfl

@[simp] theorem Walk.declaration_header_startByte {kind : DeclKind} {name qualified : String}
    {prev : Option Span} {anchor node : Span} {body : Option Span} {exported : Bool} {c : Callable} :
    (w.declaration kind name qualified prev anchor node body exported c).header.startByte =
      anchor.start := rfl

@[simp] theorem Walk.declaration_doc {kind : DeclKind} {name qualified : String}
    {prev : Option Span} {anchor node : Span} {body : Option Span} {exported : Bool} {c : Callable} :
    (w.declaration kind name qualified prev anchor node body exported c).doc =
      w.docComment prev anchor.start := rfl

theorem Walk.docComment_eq_some {prev : Option Span} {a : Nat} {dc : DocComment}
    (h : w.docComment prev a = some dc) :
    ∃ c, prev = some c ∧ dc.range.startByte = c.start ∧ dc.range.endByte = c.stop ∧
      (Utf8.slice w.src c.start c.stop).startsWith "/**" = true := by
  cases prev with
  | none => simp [Walk.docComment] at h
  | some c =>
    simp only [Walk.docComment] at h
    split_ifs at h with hraw
    cases h
    refine ⟨c, rfl, rfl, rfl, ?_⟩
    simp only [Walk.text, Bool.or_eq_true, Bool.not_eq_true', not_or] at hraw
    exact Bool.of_not_eq_false hraw.1

theorem Walk.sitsAfter_declaration {kind : DeclKind} {name qualified : String}
    {prev : Option Span} {anchor node : Span} {body : Option Span} {exported : Bool} {c : Callable}
    {b : Nat} (hb : b ≤ anchor.start) (hprev : PrevWithin w.src b anchor.start prev) :
    (w.declaration kind name qualified prev anchor node body exported c).SitsAfter w.src b := by
  refine ⟨hb, fun dc hdc => ?_⟩
  rw [Walk.declaration_doc, Option.mem_def] at hdc
  obtain ⟨s, rfl, hs, he, hdoc⟩ := w.docComment_eq_some hdc
  obtain ⟨h₁, h₂, htok⟩ := hprev s rfl
  obtain ⟨hlt, hslash⟩ := CommentToken.end_slash htok hdoc
  rw [Walk.declaration_header_startByte, hs, he]
  exact ⟨h₁, hlt, h₂, hslash⟩

theorem anchor_of_undecorated {src : ByteArray} {b lo : Nat} {s : Span} (hb : b ≤ lo)
    (hlo : lo ≤ s.start) : b ≤ s.start ∧ s.start ≤ s.start ∧ PrevWithin src b s.start none :=
  ⟨by omega, Nat.le_refl _, fun _ h => nomatch h⟩

theorem leadingDecorators_anchor {src : ByteArray} {b : Nat} :
    ∀ {before : List Member} {lo : Nat} {s : Span} {ds : List Span} {r : List Member},
      leadingDecorators before = (ds, r) → lo ≤ s.start →
      SpansWithin b lo ((sinceMethod before).reverse.map Member.span) →
      (∀ m ∈ before, m.Placed src) →
      b ≤ (ds.getLast?.getD s).start ∧ (ds.getLast?.getD s).start ≤ s.start ∧
        PrevWithin src b (ds.getLast?.getD s).start (Member.comment? r)
  | [], lo, s, ds, r, h, hlo, hrun, _ => by
    simp only [leadingDecorators, Prod.mk.injEq] at h
    obtain ⟨rfl, rfl⟩ := h
    exact anchor_of_undecorated hrun.le hlo
  | m :: before, lo, s, ds, r, h, hlo, hrun, hplaced => by
    cases m with
    | decorator d =>
      -- the anchor of the run behind `d` is the anchor for `d` itself
      rcases hrest : leadingDecorators before with ⟨ds', r'⟩
      simp only [leadingDecorators, hrest, Prod.mk.injEq] at h
      obtain ⟨rfl, rfl⟩ := h
      obtain ⟨mid, hrun', hd, hd'⟩ := (spansWithin_sinceMethod_cons rfl).mp hrun
      simp only [Member.span] at hd hd'
      obtain ⟨h₁, h₂, h₃⟩ := leadingDecorators_anchor hrest hd hrun'
        (fun m hm => hplaced m (List.mem_cons_of_mem _ hm))
      simp only [List.getLast?_cons, Option.getD_some]
      exact ⟨h₁, by omega, h₃⟩
    | comment c =>
      simp only [leadingDecorators, Prod.mk.injEq] at h
      obtain ⟨rfl, rfl⟩ := h
      obtain ⟨mid, hrun', hc⟩ := (spansWithin_sinceMethod_cons rfl).mp hrun
      simp only [Member.span] at hc
      have := hrun'.le
      simp only [List.getLast?_nil, Option.getD_none, Member.comment?]
      refine ⟨by omega, Nat.le_refl _, fun c' hc' => ?_⟩
      cases hc'
      exact ⟨by omega, by omega, hplaced _ List.mem_cons_self⟩
    | method span nameSpan isPrivate body callable | other span =>
      simp only [leadingDecorators, Prod.mk.injEq] at h
      obtain ⟨rfl, rfl⟩ := h
      exact anchor_of_undecorated hrun.le hlo

theorem Walk.sitesWithin_declaration {kind : DeclKind} {name qualified : String}
    {prev : Option Span} {anchor node : Span} {body : Option Span} {exported : Bool} {c : Callable}
    {b : Nat} (hb : b ≤ anchor.start) (hanchor : anchor.start ≤ anchor.stop)
    (hprev : PrevWithin w.src b anchor.start prev) :
    SitesWithin w.src b anchor.stop [w.declaration kind name qualified prev anchor node body exported c] :=
  ⟨w.sitsAfter_declaration hb hprev, hanchor⟩

theorem Walk.sitesWithin_methods (owner : String) (exported : Bool) (hi : Nat) :
    ∀ (members before : List Member) (b lo : Nat),
      SpansWithin lo hi (members.map Member.span) → (∀ m ∈ members, m.Placed w.src) →
      (∀ m ∈ before, m.Placed w.src) →
      SpansWithin b lo ((sinceMethod before).reverse.map Member.span) →
      SitesWithin w.src b hi (w.methods owner exported before members) := by
  intro members
  induction members with
  | nil =>
    intro before b lo hspan _ _ hrun
    exact Nat.le_trans hrun.le hspan
  | cons m rest ih =>
    intro before b lo hspan hplaced hbefore hrun
    obtain ⟨hlo, hm, hrest⟩ := hspan
    have hplaced' : ∀ x ∈ rest, x.Placed w.src := fun x hx => hplaced x (List.mem_cons_of_mem _ hx)
    have hbefore' : ∀ x ∈ m :: before, x.Placed w.src := by
      intro x hx
      rcases List.mem_cons.mp hx with rfl | hx
      · exact hplaced x List.mem_cons_self
      · exact hbefore x hx
    cases m with
    | method span nameSpan isPrivate body callable =>
      simp only [Member.span] at hlo hm
      rcases hld : leadingDecorators before with ⟨ds, r⟩
      obtain ⟨hb, hA, hprev⟩ := leadingDecorators_anchor hld hlo hrun hbefore
      simp only [Walk.methods, hld, List.singleton_append]
      refine ⟨w.sitsAfter_declaration hb hprev, ih _ _ span.stop hrest hplaced' hbefore' ?_⟩
      simp only [sinceMethod, List.takeWhile_cons, Member.isMethod, Bool.not_true,
        Bool.false_eq_true, if_false, List.reverse_nil, List.map_nil, SpansWithin,
        Walk.declaration_header_startByte]
      omega
    | comment s | decorator s | other s =>
      simp only [Walk.methods, List.nil_append]
      exact ih _ b s.stop hrest hplaced' hbefore'
        ((spansWithin_sinceMethod_cons rfl).mpr ⟨lo, hrun, hlo, hm, Nat.le_refl _⟩)

theorem Walk.sitesWithin_node {prev : Option Span} {anchor : Span} {exported : Bool} {d : Decl}
    {b : Nat} (hb : b ≤ anchor.start) (hanchor : anchor.start ≤ anchor.stop)
    (hd : d.Placed w.src anchor) (hprev : PrevWithin w.src b anchor.start prev) :
    SitesWithin w.src b anchor.stop (w.node prev anchor exported d) := by
  have hnone : SitesWithin w.src b anchor.stop [] := Nat.le_trans hb hanchor
  cases d with
  | «variables» span isConst ds =>
    simp only [Walk.node]
    split
    · exact hnone
    · exact w.sitesWithin_declaration hb hanchor hprev
    · split
      · exact w.sitesWithin_declaration hb hanchor hprev
      · exact hnone
  | klass span c =>
    obtain ⟨h₁, h₂, h₃, h₄, hmembers, hplaced⟩ := hd
    simp only [Walk.node]
    refine ⟨w.sitsAfter_declaration hb hprev, ?_⟩
    rw [Walk.declaration_header_startByte]
    refine (w.sitesWithin_methods _ exported c.body.stop c.members [] anchor.start c.body.start
      hmembers hplaced (fun _ h => nomatch h) ?_).mono (by omega)
    simp only [sinceMethod, List.takeWhile_nil, List.reverse_nil, List.map_nil, SpansWithin]
    omega
  | function span f | interface span n body | typeAlias span n =>
    exact w.sitesWithin_declaration hb hanchor hprev
  | other span => exact hnone

/-- The declarations of top-level items sit in order within `[b, hi]`, when the items lie in
order from `lo` on and the comment before them, if any, lies within `[b, lo]`. -/
theorem Walk.sitesWithin_items (hi : Nat) :
    ∀ (items before : List Item) (b lo : Nat),
      SpansWithin lo hi (items.map Item.span) → (∀ it ∈ items, it.Placed w.src) → b ≤ lo →
      PrevWithin w.src b lo (Item.comment? before) →
      SitesWithin w.src b hi (w.items before items) := by
  intro items
  induction items with
  | nil =>
    intro before b lo hspan _ hb _
    exact Nat.le_trans hb hspan
  | cons it rest ih =>
    intro before b lo hspan hplaced hb hprev
    obtain ⟨hlo, hit, hrest⟩ := hspan
    have hplaced' : ∀ x ∈ rest, x.Placed w.src := fun x hx => hplaced x (List.mem_cons_of_mem _ hx)
    have hit' := hplaced it List.mem_cons_self
    have hnext : SitesWithin w.src it.span.stop hi (w.items (it :: before) rest) →
        SitesWithin w.src b hi (w.items (it :: before) rest) := fun h => h.of_le (by omega)
    cases it with
    | comment s =>
      simp only [Walk.items, List.nil_append]
      refine ih _ b s.stop hrest hplaced' (by simp only [Item.span] at hlo hit; omega) ?_
      intro c hc
      cases hc
      simp only [Item.span] at hlo
      exact ⟨by omega, Nat.le_refl _, hit'⟩
    | «export» s d =>
      cases d with
      | none =>
        simp only [Walk.items, List.nil_append]
        exact hnext (ih _ _ s.stop hrest hplaced' (Nat.le_refl _) (fun _ h => nomatch h))
      | some d =>
        simp only [Item.span] at hlo hit
        simp only [Walk.items]
        exact (w.sitesWithin_node (by omega) hit hit' (hprev.mono hlo)).append
          (ih _ _ s.stop hrest hplaced' (Nat.le_refl _) (fun _ h => nomatch h))
    | decl d =>
      simp only [Item.span] at hlo hit
      simp only [Walk.items]
      exact (w.sitesWithin_node (by omega) hit hit' (hprev.mono hlo)).append
        (ih _ _ d.span.stop hrest hplaced' (Nat.le_refl _) (fun _ h => nomatch h))
    | other s =>
      simp only [Walk.items, List.nil_append]
      exact hnext (ih _ _ s.stop hrest hplaced' (Nat.le_refl _) (fun _ h => nomatch h))

end Walk

theorem sitesWithin_declarationsOf {src : ByteArray} {relPath : String} {items : List Item}
    (h : Outline.Placed src items) : SitesWithin src 0 src.size (declarationsOf src relPath items) :=
  Walk.sitesWithin_items ⟨src, relPath, LineTable.ofBytes src⟩ src.size items [] 0 0 h.ordered
    h.placed (Nat.le_refl 0) (fun _ h => nomatch h)

end DocWeaver.Extract
