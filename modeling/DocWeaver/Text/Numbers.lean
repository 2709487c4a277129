import DocWeaver.Text.Digits
import DocWeaver.Text.Lines
import DocWeaver.Numeric.Binary64

/-!
Numbers written as text, read three ways.

The interpreter's way (`readInt?`, `readFloat?`): blanks around the number, decimal digits of any
script, and single underscores between digits are allowed; floats also take `inf`, `infinity`
and `nan` in any case. The validator's way (`laxInt?`, `laxFloat?`): blanks around the number
and ASCII digits only; an integer may end in a point followed by zeros.
-/

namespace DocWeaver.Text

open DocWeaver.Numeric

def digitRun (digit : Char → Option Nat) (underscores : Bool) : Nat → List Char → List Nat → Option (List Nat × List Char)
  | 0, cs, acc => if acc.isEmpty then none else some (acc.reverse, cs)
  | fuel + 1, cs, acc =>
    match cs with
    | c :: rest =>
      match digit c with
      | some d => digitRun digit underscores fuel rest (d :: acc)
      | none =>
        if underscores && c == '_' && !acc.isEmpty then
          match rest with
          | c' :: _ => if (digit c').isSome then digitRun digit underscores fuel rest acc
            else if acc.isEmpty then none else some (acc.reverse, cs)
          | [] => some (acc.reverse, cs)
        else if acc.isEmpty then none else some (acc.reverse, cs)
    | [] => if acc.isEmpty then none else some (acc.reverse, cs)

def digitValues (ds : List Nat) : Nat := ds.foldl (fun n d => n * 10 + d) 0

def asciiDigit (c : Char) : Option Nat :=
  if '0' ≤ c && c ≤ '9' then some (c.toNat - '0'.toNat) else none

def takeSign : List Char → Bool × List Char
  | '-' :: r => (true, r)
  | '+' :: r => (false, r)
  | r => (false, r)

def signedDigits? (digit : Char → Option Nat) (underscores : Bool) (cs : List Char) : Option Int := do
  let (neg, cs) := takeSign cs
  let (ds, rest) ← digitRun digit underscores (cs.length + 1) cs []
  if !rest.isEmpty then none
  let n := digitValues ds
  pure (if neg then -(n : Int) else n)

def readInt? (s : String) : Option Int :=
  signedDigits? digitValue? true (trim s.toList)

def asciiLower (cs : List Char) : List Char := cs.map Char.toLower

/-- A decimal fraction: digits with an optional point and exponent, as a sign and the exact
ratio `mantissa · 10^exponent`. -/
def decimalParts? (digit : Char → Option Nat) (underscores : Bool) (cs : List Char) :
    Option (Bool × Nat × Int) := do
  let (neg, cs) := takeSign cs
  let fuel := cs.length + 1
  let (whole, cs) := match digitRun digit underscores fuel cs [] with
    | some (ds, r) => (ds, r)
    | none => ([], cs)
  let (frac, cs) ← match cs with
    | '.' :: r =>
      match digitRun digit underscores fuel r [] with
      | some (ds, r') => some (ds, r')
      | none => some ([], r)
    | _ => some ([], cs)
  if whole.isEmpty && frac.isEmpty then none
  let (expo, cs) ← match cs with
    | e :: r =>
      if e == 'e' || e == 'E' then
        let (eneg, r) := takeSign r
        match digitRun digit underscores fuel r [] with
        | some (ds, r') => some ((if eneg then -(digitValues ds : Int) else digitValues ds), r')
        | none => none
      else some (0, cs)
    | [] => some (0, cs)
  if !cs.isEmpty then none
  pure (neg, digitValues (whole ++ frac), expo - frac.length)

def decimalValue (neg : Bool) (m : Nat) (e : Int) : Binary64 :=
  if e ≥ 0 then Binary64.ofRatio neg (m * Nat.pow 10 e.toNat) 1
  else Binary64.ofRatio neg m (Nat.pow 10 (-e).toNat)

def specialFloat? (cs : List Char) : Option Binary64 :=
  let (neg, cs) := takeSign cs
  let w := String.ofList (asciiLower cs)
  if w == "inf" || w == "infinity" then some (.infinite neg)
  else if w == "nan" then some .nan
  else none

def readFloat? (s : String) : Option Binary64 :=
  let cs := trim s.toList
  match specialFloat? cs with
  | some x => some x
  | none => (decimalParts? digitValue? true cs).map fun (neg, m, e) => decimalValue neg m e

def laxInt? (s : String) : Option Int :=
  let cs := trim s.toList
  match signedDigits? asciiDigit false cs with
  | some n => some n
  | none =>
    match cs.findIdx? (· == '.') with
    | some i =>
      if (cs.drop (i + 1)).all (· == '0') then signedDigits? asciiDigit false (cs.take i) else none
    | none => none

def laxFloat? (s : String) : Option Binary64 :=
  let cs := trim s.toList
  match specialFloat? cs with
  | some x => some x
  | none => (decimalParts? asciiDigit false cs).map fun (neg, m, e) => decimalValue neg m e

end DocWeaver.Text
