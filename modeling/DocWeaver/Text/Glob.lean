/-!
Shell-style patterns over names: `*` matches any run of characters, `?` any one character, and
`[…]` one character of a set, `[!…]` one character outside it. A pattern matches a name when it
matches all of it; the comparison is case-sensitive and `*` also matches `/`.

Inside brackets a `]` right after the opening (or after `!`) is an ordinary character, a `-`
between two characters makes a range, and a range whose ends are reversed is left out
together with its two ends. A `[` with no closing `]` is an ordinary character.
-/

namespace DocWeaver.Text

/-- A piece of a pattern. -/
inductive GlobToken where
  | star
  | any
  | literal (c : Char)
  | set (negated : Bool) (ranges : List (Char × Char))
  | none
  deriving Repr, DecidableEq, Inhabited

def closingAt (cs : List Char) (i : Nat) : Option Nat :=
  ((cs.drop i).findIdx? (· == ']')).map (· + i)

def rangeChunks (s : List Char) : Nat → Nat → List (List Char) → Nat → List (List Char)
  | 0, i, acc, _ => (acc ++ [s.drop i])
  | fuel + 1, i, acc, k =>
    match ((s.drop k).findIdx? (· == '-')).map (· + k) with
    | some h => rangeChunks s fuel (h + 1) (acc ++ [(s.drop i).take (h - i)]) (h + 3)
    | Option.none =>
      let last := s.drop i
      if last.isEmpty then
        match acc.reverse with
        | c :: rest => ((c ++ ['-']) :: rest).reverse
        | [] => [['-']]
      else acc ++ [last]

def mergeBack (cur : List Char) : List (List Char) → List (List Char)
  | [] => [cur]
  | prev :: lefts =>
    match prev.getLast?, cur.head? with
    | some x, some y =>
      if x > y then mergeBack (prev.dropLast ++ cur.drop 1) lefts
      else mergeBack prev lefts ++ [cur]
    | _, _ => mergeBack prev lefts ++ [cur]

def dropReversed (chunks : List (List Char)) : List (List Char) :=
  match chunks.reverse with
  | last :: lefts => mergeBack last lefts
  | [] => []

def chunkRanges : List (List Char) → List (Char × Char)
  | [] => []
  | [c] => c.map fun x => (x, x)
  | a :: b :: rest =>
    match a.getLast?, b.head? with
    | some x, some y =>
      (a.dropLast.map fun z => (z, z)) ++ [(x, y)] ++ chunkRanges (b.drop 1 :: rest)
    | _, _ => (a.map fun z => (z, z)) ++ chunkRanges (b :: rest)
termination_by l => l.length

def setToken (body : List Char) : GlobToken :=
  let chunks :=
    if body.contains '-' then
      dropReversed (rangeChunks body body.length 0 [] (if body.head? == some '!' then 2 else 1))
    else [body]
  let flat := List.flatten chunks
  if flat.isEmpty then .none
  else if flat == ['!'] then .any
  else
    match chunks with
    | ('!' :: first) :: rest => .set true (chunkRanges (first :: rest))
    | _ => .set false (chunkRanges chunks)

def globTokens : Nat → List Char → List GlobToken
  | 0, _ => []
  | _ + 1, [] => []
  | fuel + 1, c :: cs =>
    if c == '*' then .star :: globTokens fuel cs
    else if c == '?' then .any :: globTokens fuel cs
    else if c == '[' then
      let j0 := if cs.head? == some '!' then 1 else 0
      let j1 := if (cs.drop j0).head? == some ']' then j0 + 1 else j0
      match closingAt cs j1 with
      | some j => setToken (cs.take j) :: globTokens fuel (cs.drop (j + 1))
      | Option.none => .literal '[' :: globTokens fuel cs
    else .literal c :: globTokens fuel cs

def GlobToken.accepts (t : GlobToken) (c : Char) : Bool :=
  match t with
  | .any => true
  | .literal d => c == d
  | .set neg rs => neg != rs.any (fun (lo, hi) => lo ≤ c && c ≤ hi)
  | _ => false

def globMatch : List GlobToken → List Char → Bool
  | [], cs => cs.isEmpty
  | .star :: ps, cs => (List.range (cs.length + 1)).any fun k => globMatch ps (cs.drop k)
  | t :: ps, c :: cs => t.accepts c && globMatch ps cs
  | _ :: _, [] => false

def globMatches (name pattern : String) : Bool :=
  globMatch (globTokens (pattern.length + 1) pattern.toList) name.toList

end DocWeaver.Text
