/-!
Line numbers of byte offsets.

A line table holds the offsets at which the lines of a byte string start: zero, and one past
each line feed, in increasing order. The 1-based line of an offset is the number of line starts
at or before it, so a line feed belongs to the line it ends. The count is found by halving the
range of candidate positions, so looking up many offsets of one text costs a logarithm each
rather than a pass over the text.
-/

namespace DocWeaver.Text

/-- The offsets at which the lines of a byte string start, in increasing order. -/
structure LineTable where
  starts : Array Nat

def LineTable.ofBytes (src : ByteArray) : LineTable :=
  let step (acc : Array Nat × Nat) (b : UInt8) : Array Nat × Nat :=
    (if b == 10 then acc.1.push (acc.2 + 1) else acc.1, acc.2 + 1)
  ⟨(src.foldl step (#[0], 0)).1⟩

def midpoint (lo hi : Nat) : Nat := lo + (hi - lo) / 2

def LineTable.countUpTo (t : LineTable) (offset : Nat) : Nat → Nat → Nat → Nat
  | 0, lo, _ => lo
  | fuel + 1, lo, hi =>
    if lo < hi then
      let mid := midpoint lo hi
      if t.starts.getD mid 0 ≤ offset then t.countUpTo offset fuel (mid + 1) hi
      else t.countUpTo offset fuel lo mid
    else lo

def LineTable.line (t : LineTable) (offset : Nat) : Nat :=
  t.countUpTo offset (t.starts.size + 1) 0 t.starts.size

end DocWeaver.Text
