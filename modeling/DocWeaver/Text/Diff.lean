/-!
Line diffs in unified form.

The matching follows the longest-common-block method: take the longest block of equal lines
(the earliest in the old text, then in the new, among the longest), and match the parts before
and after it the same way. When the new text has at least 200 lines, a line that occurs there
more than once in every hundred lines (plus one) cannot start a block, though blocks may still
grow over it. The matched blocks give the operations `equal`, `replace`, `delete` and `insert`,
which are cut into hunks with three lines of context.
-/

namespace DocWeaver.Text

/-- A block of equal lines: `size` lines from `a` in the old text and from `b` in the new. -/
structure Block where
  a : Nat
  b : Nat
  size : Nat
  deriving Repr, DecidableEq, Inhabited

/-- What an operation does to the old lines `[i1, i2)` to give the new lines `[j1, j2)`. -/
inductive OpTag where
  | equal
  | replace
  | delete
  | insert
  deriving Repr, DecidableEq, Inhabited

/-- One operation of a diff. -/
structure Opcode where
  tag : OpTag
  i1 : Nat
  i2 : Nat
  j1 : Nat
  j2 : Nat
  deriving Repr, DecidableEq, Inhabited

/-- The two texts being compared, with, for each old line, the new lines that may start a block
with it, in order. -/
structure Matcher where
  a : Array String
  b : Array String
  starts : Array (List Nat)

def Matcher.create (a b : List String) : Matcher :=
  let bs := b.toArray
  let n := bs.size
  let idx (x : String) : List Nat := (List.range n).filter fun j => bs[j]! == x
  let popular (js : List Nat) : Bool := n ≥ 200 && js.length > n / 100 + 1
  let starts := a.toArray.map fun x => let js := idx x; if popular js then [] else js
  ⟨a.toArray, bs, starts⟩

namespace Matcher

def row (m : Matcher) (i blo bhi : Nat) (prev : List (Nat × Nat)) :
    List Nat → List (Nat × Nat) → Block → List (Nat × Nat) × Block
  | [], acc, best => (acc, best)
  | j :: js, acc, best =>
    if j < blo then m.row i blo bhi prev js acc best
    else if j ≥ bhi then (acc, best)
    else
      let k := (if j == 0 then 0 else (prev.lookup (j - 1)).getD 0) + 1
      let best := if k > best.size then ⟨i + 1 - k, j + 1 - k, k⟩ else best
      m.row i blo bhi prev js ((j, k) :: acc) best

def rows (m : Matcher) (blo bhi ahi : Nat) : Nat → Nat → List (Nat × Nat) → Block → Block
  | 0, _, _, best => best
  | fuel + 1, i, prev, best =>
    if i ≥ ahi then best
    else
      let (next, best) := m.row i blo bhi prev (m.starts[i]?.getD []) [] best
      m.rows blo bhi ahi fuel (i + 1) next best

def growBack (m : Matcher) (alo blo : Nat) : Nat → Block → Block
  | 0, x => x
  | fuel + 1, x =>
    if x.a > alo && x.b > blo && m.a[x.a - 1]? == m.b[x.b - 1]? then
      m.growBack alo blo fuel ⟨x.a - 1, x.b - 1, x.size + 1⟩
    else x

def growForward (m : Matcher) (ahi bhi : Nat) : Nat → Block → Block
  | 0, x => x
  | fuel + 1, x =>
    if x.a + x.size < ahi && x.b + x.size < bhi && m.a[x.a + x.size]? == m.b[x.b + x.size]? then
      m.growForward ahi bhi fuel ⟨x.a, x.b, x.size + 1⟩
    else x

def longest (m : Matcher) (alo ahi blo bhi : Nat) : Block :=
  let best := m.rows blo bhi ahi (ahi - alo) alo [] ⟨alo, blo, 0⟩
  let best := m.growBack alo blo (ahi - alo) best
  m.growForward ahi bhi (ahi - alo) best

def blocks (m : Matcher) : Nat → Nat → Nat → Nat → Nat → List Block
  | 0, _, _, _, _ => []
  | fuel + 1, alo, ahi, blo, bhi =>
    let x := m.longest alo ahi blo bhi
    if x.size == 0 then []
    else
      let left := if alo < x.a && blo < x.b then m.blocks fuel alo x.a blo x.b else []
      let right := if x.a + x.size < ahi && x.b + x.size < bhi then
          m.blocks fuel (x.a + x.size) ahi (x.b + x.size) bhi
        else []
      left ++ x :: right

end Matcher

def joinAdjacent : List Block → Block → List Block
  | [], cur => if cur.size > 0 then [cur] else []
  | x :: xs, cur =>
    if cur.a + cur.size == x.a && cur.b + cur.size == x.b then joinAdjacent xs ⟨cur.a, cur.b, cur.size + x.size⟩
    else (if cur.size > 0 then [cur] else []) ++ joinAdjacent xs x

def matchingBlocks (a b : List String) : List Block :=
  let m := Matcher.create a b
  let bs := m.blocks (a.length + b.length + 1) 0 a.length 0 b.length
  joinAdjacent bs ⟨0, 0, 0⟩ ++ [⟨a.length, b.length, 0⟩]

def opcodesOf : List Block → Nat → Nat → List Opcode
  | [], _, _ => []
  | x :: xs, i, j =>
    let change :=
      if i < x.a && j < x.b then [⟨.replace, i, x.a, j, x.b⟩]
      else if i < x.a then [⟨.delete, i, x.a, j, x.b⟩]
      else if j < x.b then [⟨.insert, i, x.a, j, x.b⟩]
      else []
    let same := if x.size > 0 then [⟨.equal, x.a, x.a + x.size, x.b, x.b + x.size⟩] else []
    change ++ same ++ opcodesOf xs (x.a + x.size) (x.b + x.size)

def opcodes (a b : List String) : List Opcode := opcodesOf (matchingBlocks a b) 0 0

def groupOps (n : Nat) : List Opcode → List Opcode → List (List Opcode)
  | [], group =>
    match group with
    | [] => []
    | [g] => if g.tag == .equal then [] else [[g]]
    | _ => [group.reverse]
  | c :: cs, group =>
    if c.tag == .equal && c.i2 - c.i1 > n + n then
      let closing : Opcode := ⟨.equal, c.i1, min c.i2 (c.i1 + n), c.j1, min c.j2 (c.j1 + n)⟩
      let opening : Opcode := ⟨.equal, max c.i1 (c.i2 - n), c.i2, max c.j1 (c.j2 - n), c.j2⟩
      (closing :: group).reverse :: groupOps n cs [opening]
    else groupOps n cs (c :: group)

def groupedOpcodes (a b : List String) (n : Nat) : List (List Opcode) :=
  let codes := opcodes a b
  let codes := if codes.isEmpty then [⟨.equal, 0, 1, 0, 1⟩] else codes
  let codes : List Opcode := match codes with
    | c :: rest => if c.tag == .equal then (⟨.equal, max c.i1 (c.i2 - n), c.i2, max c.j1 (c.j2 - n), c.j2⟩ : Opcode) :: rest
      else c :: rest
    | [] => []
  let codes : List Opcode := match codes.getLast? with
    | some c =>
      if c.tag == .equal then codes.dropLast ++ [(⟨.equal, c.i1, min c.i2 (c.i1 + n), c.j1, min c.j2 (c.j1 + n)⟩ : Opcode)]
      else codes
    | none => codes
  groupOps n codes []

def hunkRange (start stop : Nat) : String :=
  let len := stop - start
  if len == 1 then toString (start + 1)
  else if len == 0 then s!"{start},0"
  else s!"{start + 1},{len}"

def groupLines (a b : Array String) (g : List Opcode) : List String :=
  let sliceOf (xs : Array String) (i j : Nat) : List String := (xs.extract i j).toList
  let first := g.head?.getD default
  let last := g.getLast?.getD default
  let header := s!"@@ -{hunkRange first.i1 last.i2} +{hunkRange first.j1 last.j2} @@\n"
  header :: g.flatMap fun c =>
    match c.tag with
    | .equal => (sliceOf a c.i1 c.i2).map (" " ++ ·)
    | .delete => (sliceOf a c.i1 c.i2).map ("-" ++ ·)
    | .insert => (sliceOf b c.j1 c.j2).map ("+" ++ ·)
    | .replace => (sliceOf a c.i1 c.i2).map ("-" ++ ·) ++ (sliceOf b c.j1 c.j2).map ("+" ++ ·)

def unifiedDiff (a b : List String) (fromFile toFile : String) : String :=
  match groupedOpcodes a b 3 with
  | [] => ""
  | groups =>
    let aa := a.toArray
    let ba := b.toArray
    String.join (s!"--- {fromFile}\n" :: s!"+++ {toFile}\n" :: groups.flatMap (groupLines aa ba))

end DocWeaver.Text
