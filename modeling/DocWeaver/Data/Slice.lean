/-!
Slices of lists by integer bounds: a negative bound counts from the end, and bounds are clamped
to the list, so a slice is never out of range.
-/

namespace DocWeaver

def sliceIndex (n : Nat) (i : Int) : Nat :=
  if i < 0 then (n - i.natAbs : Nat) else min i.toNat n

def List.sliceBy {α : Type} (xs : List α) (a b : Int) : List α :=
  let n := xs.length
  let i := sliceIndex n a
  let j := sliceIndex n b
  (xs.drop i).take (j - i)

def String.sliceBy (s : String) (a b : Int) : String :=
  String.ofList (List.sliceBy s.toList a b)

end DocWeaver
