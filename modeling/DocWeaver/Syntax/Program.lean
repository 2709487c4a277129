import DocWeaver.Syntax.ErrorSite

/-!
Reading a whole file into its outline.

A file reads as its statements in order. When a statement does not fit the grammar, reading
stops, and the error is reported where recovery from it would begin (see
`DocWeaver.Syntax.ErrorSite`). Comments between statements, and between the members of a class
body, become items of their own; a comment within a statement's span stays inside the
statement.
-/

namespace DocWeaver.Syntax

def readStatement (sc : Scope) (pos start : Nat) : Except Nat (Item × Nat) :=
  match readRaw sc pos with
  | .ok (item, next) => .ok (item, next)
  | .error stop => .error (errorSite sc pos start stop)

def readItems (sc : Scope) : Nat → Nat → List Item → Except Nat (List Item)
  | 0, _, acc => .ok acc.reverse
  | fuel + 1, pos, acc =>
    match nextToken sc.src pos with
    | .error p => .error p
    | .ok t =>
      if t.isEof then .ok acc.reverse
      else
        match readStatement sc pos t.start with
        | .error p => .error p
        | .ok (item, next) =>
          if next ≤ pos then .error t.start
          else readItems sc fuel next (item :: acc)

def gapComments (src : ByteArray) (a b : Nat) : List Span :=
  (commentsIn src b (src.size + 1) a).map fun (i, j) => ⟨i, j⟩

def interleave {α : Type} (src : ByteArray) (spanOf : α → Span) (mk : Span → α) :
    Nat → List α → Nat → List α
  | lo, [], hi => (gapComments src lo hi).map mk
  | lo, x :: rest, hi =>
    (gapComments src lo (spanOf x).start).map mk ++ x :: interleave src spanOf mk (spanOf x).stop rest hi

def Member.span : Member → Span
  | .comment s | .decorator s | .method s _ _ _ _ | .other s => s

def ClassShape.withComments (src : ByteArray) (c : ClassShape) : ClassShape :=
  { c with members := interleave src Member.span Member.comment (c.body.start + 1) c.members (c.body.stop - 1) }

def Decl.withComments (src : ByteArray) : Decl → Decl
  | .klass s c => .klass s (c.withComments src)
  | d => d

def Item.withComments (src : ByteArray) : Item → Item
  | .export s (some d) => .export s (some (d.withComments src))
  | .decl d => .decl (d.withComments src)
  | i => i

/-- The outline of a source: its top-level items with the comments between them, or the byte
offset of its first syntax error. A leading `#!` line is an item of its own. -/
def readOutline (src : ByteArray) (dialect : Dialect) : Except Nat (List Item) := do
  let sc : Scope := { src, dialect }
  let (start, lead) :=
    if hasAt src 0 "#!" then
      let j := lineCommentEnd src src.size 2
      (j, [Item.other ⟨0, j⟩])
    else (0, [])
  let items ← readItems sc (src.size + 1) start []
  let items := items.map (Item.withComments src)
  pure (lead ++ interleave src Item.span Item.comment start items src.size)

abbrev OutlineReader := ByteArray → Dialect → Except Nat (List Item)

end DocWeaver.Syntax
