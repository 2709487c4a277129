import DocWeaver.Data.Json

/-!
The values settings are made of: what a YAML document loads to, and what explicit overrides are
given as.

Beside the kinds of JSON there are timestamps, which plain scalars such as `2024-01-31` or
`2024-01-31 10:00:00` load to, and the keys of a mapping are values too: a key written `1` or
`null` is a number or null, not a name. Keys compare as numbers compare, so `1`, `1.0` and
`true` are one key; a NaN equals no key.
-/

namespace DocWeaver.Config

open DocWeaver.Numeric

/-- A loaded value. A timestamp keeps its text and whether it has a time of day. -/
inductive Value where
  | null
  | bool (b : Bool)
  | int (n : Int)
  | float (x : Binary64)
  | str (s : String)
  | timestamp (text : String) (withTime : Bool)
  | seq (items : List Value)
  | map (entries : List (Value × Value))
  deriving Inhabited

namespace Value

mutual

def ofJson : JsonValue → Value
  | .null => .null
  | .bool b => .bool b
  | .int n => .int n
  | .num x => .float x
  | .str s => .str s
  | .arr xs => .seq (ofJsonItems xs)
  | .obj fs => .map (ofJsonFields fs)

def ofJsonItems : List JsonValue → List Value
  | [] => []
  | x :: xs => ofJson x :: ofJsonItems xs

def ofJsonFields : List (String × JsonValue) → List (Value × Value)
  | [] => []
  | (k, v) :: fs => (.str k, ofJson v) :: ofJsonFields fs

end

def ofFields (fs : List (String × JsonValue)) : List (String × Value) :=
  fs.map fun (k, v) => (k, ofJson v)

def typeName : Value → String
  | .null => "NoneType"
  | .bool _ => "bool"
  | .int _ => "int"
  | .float _ => "float"
  | .str _ => "str"
  | .timestamp _ withTime => if withTime then "datetime.datetime" else "datetime.date"
  | .seq _ => "list"
  | .map _ => "dict"

def truthy : Value → Bool
  | .null => false
  | .bool b => b
  | .int n => n != 0
  | .float x => match x with
    | .finite _ m _ => m != 0
    | _ => true
  | .str s => !s.isEmpty
  | .timestamp _ _ => true
  | .seq xs => !xs.isEmpty
  | .map es => !es.isEmpty

def str? : Value → Option String
  | .str s => some s
  | _ => none

def isNull : Value → Bool
  | .null => true
  | _ => false

def exactNumber? : Value → Option (Bool × Nat × Nat)
  | .bool b => some (false, if b then 1 else 0, 1)
  | .int n => some (n < 0, n.natAbs, 1)
  | .float x@(.finite _ _ _) => some x.ratio
  | _ => none

def sameNumber (a b : Bool × Nat × Nat) : Bool :=
  let (s, n, d) := a
  let (t, m, e) := b
  n * e == m * d && (n == 0 || s == t)

def sameKey : Value → Value → Bool
  | .str a, .str b => a == b
  | .null, .null => true
  | .timestamp a u, .timestamp b w => a == b && u == w
  | .float (.infinite s), .float (.infinite t) => s == t
  | a, b =>
    match a.exactNumber?, b.exactNumber? with
    | some x, some y => sameNumber x y
    | _, _ => false

def insert (es : List (Value × Value)) (k v : Value) : List (Value × Value) :=
  if es.any (sameKey ·.1 k) then es.map fun (k', v') => if sameKey k' k then (k', v) else (k', v')
  else es ++ [(k, v)]

def lookupName (es : List (Value × Value)) (name : String) : Option Value :=
  (es.find? fun (k, _) => k.str? == some name).map (·.2)

def named? (es : List (Value × Value)) : Option (List (String × Value)) :=
  es.mapM fun (k, v) => k.str?.map (·, v)

end Value

end DocWeaver.Config
