/-!
Binary64 numbers with exact arithmetic.

A finite binary64 value is `± m · 2^e` with a significand `m < 2^53` and `-1074 ≤ e ≤ 971`,
normal when `m ≥ 2^52`. Rounding a ratio of naturals to binary64 is round to nearest, ties
to even, computed with natural numbers only; so are the shortest decimal form of a value (the
shortest digits that round back to it, the nearest such when there are two) and fixed-point
forms.
-/

namespace DocWeaver.Numeric

def roundHalfEven (n d : Nat) : Nat :=
  let q := n / d
  let r := n % d
  if 2 * r > d || (2 * r == d && q % 2 == 1) then q + 1 else q

/-- A binary64 value. -/
inductive Binary64 where
  | finite (neg : Bool) (mant : Nat) (exp : Int)
  | infinite (neg : Bool)
  | nan
  deriving Repr, DecidableEq, Inhabited

namespace Binary64

def zero : Binary64 := .finite false 0 (-1074)

def pow2 (k : Int) : Nat × Nat :=
  if 0 ≤ k then (Nat.pow 2 k.toNat, 1) else (1, Nat.pow 2 (-k).toNat)

def log2Ratio (n d : Nat) : Int :=
  let k : Int := (n.log2 : Int) - (d.log2 : Int)
  let (a, b) := pow2 k
  if n * b < d * a then k - 1 else k

def ofRatio (neg : Bool) (n d : Nat) : Binary64 :=
  if n == 0 then .finite neg 0 (-1074)
  else
    let e := max (log2Ratio n d - 52) (-1074)
    let (a, b) := pow2 e
    let m := roundHalfEven (n * b) (d * a)
    let (m, e) := if m == Nat.pow 2 53 then (Nat.pow 2 52, e + 1) else (m, e)
    if e > 971 then .infinite neg else .finite neg m e

def ofInt (i : Int) : Binary64 := ofRatio (i < 0) i.natAbs 1

def ratio : Binary64 → Bool × Nat × Nat
  | .finite neg m e => let (a, b) := pow2 e; (neg, m * a, b)
  | _ => (false, 0, 1)

def mul : Binary64 → Binary64 → Binary64
  | .nan, _ | _, .nan => .nan
  | .infinite s, .infinite t => .infinite (s != t)
  | .infinite s, .finite t m _ | .finite t m _, .infinite s =>
    if m == 0 then .nan else .infinite (s != t)
  | x@(.finite s _ _), y@(.finite t _ _) =>
    let (_, n1, d1) := x.ratio
    let (_, n2, d2) := y.ratio
    ofRatio (s != t) (n1 * n2) (d1 * d2)

def digitCount (n : Nat) : Nat := (Nat.toDigits 10 n).length

def pow10 (k : Int) : Nat × Nat :=
  if 0 ≤ k then (Nat.pow 10 k.toNat, 1) else (1, Nat.pow 10 (-k).toNat)

def log10Ratio (n d : Nat) : Int :=
  let k : Int := (digitCount n : Int) - (digitCount d : Int)
  let (a, b) := pow10 k
  if n * b < d * a then k - 1 else k

/-- Decimal digits with the position of the decimal point: the value is `0.digits · 10^point`. -/
structure Decimal where
  digits : List Nat
  point : Int
  deriving Repr, DecidableEq, Inhabited

def trimmedDigits (c : Nat) : List Nat × Nat :=
  let ds := (Nat.toDigits 10 c).map fun ch => ch.toNat - '0'.toNat
  ((ds.reverse.dropWhile (· == 0)).reverse, ds.length)

/-- The shortest decimal that reads back as the positive finite value `m · 2^e`: for the
fewest digits with a candidate inside the rounding interval, the candidate nearest the value. -/
def shortest (m : Nat) (e : Int) : Decimal :=
  -- the value and the ends of its rounding interval, in units of 2^(e-2)
  let v := 4 * m
  let hi := 4 * m + 2
  let lo := if m == Nat.pow 2 52 && e > -1074 then 4 * m - 1 else 4 * m - 2
  let inclusive := m % 2 == 0
  let (ua, ub) := pow2 (e - 2)
  let big := log10Ratio (v * ua) ub
  let inside (c : Nat) (s : Int) : Bool :=
    let (pa, pb) := pow10 (-s)
    let lhs := c * pa * ub
    let lower := lo * ua * pb
    let upper := hi * ua * pb
    if inclusive then lower ≤ lhs && lhs ≤ upper else lower < lhs && lhs < upper
  let distance (c : Nat) (s : Int) : Nat × Nat :=
    let (pa, pb) := pow10 (-s)
    let x := c * pa * ub
    let y := v * ua * pb
    (if x ≥ y then x - y else y - x, pb * ub)
  let found := (List.range 17).findSome? fun (i : Nat) =>
    let n := i + 1
    let s : Int := Int.ofNat n - 1 - big
    let (pa, pb) := pow10 s
    let below := (v * ua * pa) / (ub * pb)
    let cands := [below, below + 1].filter fun c => inside c s
    match cands with
    | [] => none
    | [c] => some (c, s)
    | c :: d :: _ =>
      let (x, _) := distance c s
      let (y, _) := distance d s
      some (if y < x then d else c, s)
  match found with
  | some (c, s) =>
    let (ds, len) := trimmedDigits c
    ⟨ds, (len : Int) - s⟩
  | none =>
    let (ds, len) := trimmedDigits m
    ⟨ds, len⟩

def zeros (n : Nat) : String := String.ofList (List.replicate n '0')

def digitText (ds : List Nat) : String := String.ofList (ds.map fun d => Char.ofNat (d + 48))

def Decimal.render (x : Decimal) : String :=
  let n := x.digits.length
  if -4 < x.point && x.point ≤ 16 then
    if x.point ≤ 0 then "0." ++ zeros (-x.point).toNat ++ digitText x.digits
    else if x.point.toNat ≥ n then digitText x.digits ++ zeros (x.point.toNat - n) ++ ".0"
    else digitText (x.digits.take x.point.toNat) ++ "." ++ digitText (x.digits.drop x.point.toNat)
  else
    let exp := x.point - 1
    let mant := match x.digits with
      | d :: rest => digitText [d] ++ (if rest.isEmpty then "" else "." ++ digitText rest)
      | [] => "0"
    let e := toString exp.natAbs
    mant ++ "e" ++ (if exp < 0 then "-" else "+") ++ (if e.length < 2 then "0" ++ e else e)

def render : Binary64 → String
  | .nan => "nan"
  | .infinite neg => if neg then "-inf" else "inf"
  | .finite neg m e =>
    let sign := if neg then "-" else ""
    if m == 0 then sign ++ "0.0" else sign ++ (shortest m e).render

def roundToNat : Binary64 → Nat
  | .finite _ m e => let (a, b) := pow2 e; roundHalfEven (m * a) b
  | _ => 0

def percent (x : Binary64) : String :=
  match x.mul (ofInt 100) with
  | y@(.finite neg _ _) => (if neg then "-" else "") ++ toString y.roundToNat ++ "%"
  | .infinite neg => (if neg then "-" else "") ++ "inf%"
  | .nan => "nan%"

end Binary64

end DocWeaver.Numeric
