import DocWeaver.Numeric.Binary64
import DocWeaver.Text.Quote

/-!
JSON values: reading, writing, and the literal form of the same value as error messages show
it.

Objects keep their fields in order; setting a field that is already present replaces its value
in place. Numbers are integers when written without a fraction or an exponent and binary64
otherwise; `NaN`, `Infinity` and `-Infinity` are read as numbers too. Strings may not hold raw
control characters, and a lone surrogate escape reads as U+FFFD.
-/

namespace DocWeaver

open DocWeaver.Numeric

/-- A JSON value. -/
inductive JsonValue where
  | null
  | bool (b : Bool)
  | int (n : Int)
  | num (x : Binary64)
  | str (s : String)
  | arr (items : List JsonValue)
  | obj (fields : List (String × JsonValue))
  deriving Repr, Inhabited

namespace JsonValue

def setField (fs : List (String × JsonValue)) (k : String) (v : JsonValue) : List (String × JsonValue) :=
  if fs.any (·.1 == k) then fs.map fun (k', v') => if k' == k then (k', v) else (k', v')
  else fs ++ [(k, v)]

def field? (j : JsonValue) (k : String) : Option JsonValue :=
  match j with
  | .obj fs => fs.lookup k
  | _ => none

def str? : JsonValue → Option String
  | .str s => some s
  | _ => none

def int? : JsonValue → Option Int
  | .int n => some n
  | _ => none

def bool? : JsonValue → Option Bool
  | .bool b => some b
  | _ => none

def arr? : JsonValue → Option (List JsonValue)
  | .arr xs => some xs
  | _ => none

def obj? : JsonValue → Option (List (String × JsonValue))
  | .obj fs => some fs
  | _ => none

def isNull : JsonValue → Bool
  | .null => true
  | _ => false

/-! ### Writing -/

def escapeChar (c : Char) : String :=
  if c == '"' then "\\\""
  else if c == '\\' then "\\\\"
  else if c == '\n' then "\\n"
  else if c == '\r' then "\\r"
  else if c == '\t' then "\\t"
  else if c == '\x08' then "\\b"
  else if c == '\x0c' then "\\f"
  else if c.toNat < 0x20 then "\\u" ++ Text.hexDigits 4 c.toNat
  else c.toString

def quoteString (s : String) : String := "\"" ++ String.join (s.toList.map escapeChar) ++ "\""

def renderNumber : Binary64 → String
  | .nan => "NaN"
  | .infinite neg => if neg then "-Infinity" else "Infinity"
  | x => x.render

/-- How a value is written: the words for the constants, numbers and strings, and what stands
between items and after keys. -/
structure Style where
  null : String
  yes : String
  no : String
  number : Binary64 → String
  string : String → String
  itemSep : String
  keySep : String

mutual

def write (st : Style) : JsonValue → String
  | .null => st.null
  | .bool b => if b then st.yes else st.no
  | .int n => toString n
  | .num x => st.number x
  | .str s => st.string s
  | .arr xs => "[" ++ writeItems st xs ++ "]"
  | .obj fs => "\x7b" ++ writeFields st fs ++ "\x7d"

def writeItems (st : Style) : List JsonValue → String
  | [] => ""
  | [x] => write st x
  | x :: xs => write st x ++ st.itemSep ++ writeItems st xs

def writeFields (st : Style) : List (String × JsonValue) → String
  | [] => ""
  | [(k, v)] => st.string k ++ st.keySep ++ write st v
  | (k, v) :: fs => st.string k ++ st.keySep ++ write st v ++ st.itemSep ++ writeFields st fs

end

def compact : Style := ⟨"null", "true", "false", renderNumber, quoteString, ",", ":"⟩

def spaced : Style := ⟨"null", "true", "false", renderNumber, quoteString, ", ", ": "⟩

def literalStyle : Style := ⟨"None", "True", "False", Binary64.render, Text.quote, ", ", ": "⟩

def render (j : JsonValue) : String := write compact j

def renderSpaced (j : JsonValue) : String := write spaced j

def literal (j : JsonValue) : String := write literalStyle j

/-! ### Reading -/

def isJsonSpace (c : Char) : Bool := c == ' ' || c == '\t' || c == '\n' || c == '\r'

def hexValue (c : Char) : Option Nat :=
  if '0' ≤ c && c ≤ '9' then some (c.toNat - '0'.toNat)
  else if 'a' ≤ c && c ≤ 'f' then some (c.toNat - 'a'.toNat + 10)
  else if 'A' ≤ c && c ≤ 'F' then some (c.toNat - 'A'.toNat + 10)
  else none

def hex4 : List Char → Option (Nat × List Char)
  | a :: b :: c :: d :: rest => do
    let x ← hexValue a
    let y ← hexValue b
    let z ← hexValue c
    let w ← hexValue d
    pure (((x * 16 + y) * 16 + z) * 16 + w, rest)
  | _ => none

/-- The rest of a string literal after its opening quote: its text and the input after it. -/
def readString : Nat → List Char → List Char → Option (String × List Char)
  | 0, _, _ => none
  | _ + 1, _, [] => none
  | fuel + 1, acc, c :: rest =>
    if c == '"' then some (String.ofList acc.reverse, rest)
    else if c.toNat < 0x20 then none
    else if c == '\\' then
      match rest with
      | e :: rest =>
        let simple := [('"', '"'), ('\\', '\\'), ('/', '/'), ('b', '\x08'), ('f', '\x0c'),
          ('n', '\n'), ('r', '\r'), ('t', '\t')]
        match simple.lookup e with
        | some d => readString fuel (d :: acc) rest
        | none =>
          if e != 'u' then none
          else
            match hex4 rest with
            | none => none
            | some (u, rest) =>
              if 0xD800 ≤ u && u < 0xDC00 then
                match rest with
                | '\\' :: 'u' :: more =>
                  match hex4 more with
                  | some (w, more) =>
                    if 0xDC00 ≤ w && w < 0xE000 then
                      let cp := 0x10000 + (u - 0xD800) * 0x400 + (w - 0xDC00)
                      readString fuel (Char.ofNat cp :: acc) more
                    else readString fuel ('�' :: acc) rest
                  | none => readString fuel ('�' :: acc) rest
                | _ => readString fuel ('�' :: acc) rest
              else if 0xDC00 ≤ u && u < 0xE000 then readString fuel ('�' :: acc) rest
              else readString fuel (Char.ofNat u :: acc) rest
      | [] => none
    else readString fuel (c :: acc) rest

def spanDigits (cs : List Char) : List Char × List Char :=
  (cs.takeWhile Char.isDigit, cs.dropWhile Char.isDigit)

def digitsValue (ds : List Char) : Nat := ds.foldl (fun n c => n * 10 + (c.toNat - '0'.toNat)) 0

/-- A number at the head of the input. -/
def readNumber (cs : List Char) : Option (JsonValue × List Char) :=
  let (neg, cs) := match cs with
    | '-' :: r => (true, r)
    | r => (false, r)
  let (whole, cs) := spanDigits cs
  if whole.isEmpty || (whole.length > 1 && whole.head? == some '0') then
    -- a leading zero ends the integer part
    match whole with
    | '0' :: more => if more.isEmpty then none else some (.int 0, more ++ cs)
    | _ => none
  else
    let (frac, cs') := match cs with
      | '.' :: r =>
        let (f, r') := spanDigits r
        if f.isEmpty then ([], cs) else (f, r')
      | _ => ([], cs)
    let (expo, cs'') := match cs' with
      | e :: r =>
        if e == 'e' || e == 'E' then
          let (sgn, r) := match r with
            | '-' :: r => (true, r)
            | '+' :: r => (false, r)
            | r => (false, r)
          let (ds, r') := spanDigits r
          if ds.isEmpty then (none, cs') else (some (if sgn then -(digitsValue ds : Int) else digitsValue ds), r')
        else (none, cs')
      | [] => (none, cs')
    if frac.isEmpty && expo.isNone then
      let n := digitsValue whole
      some (.int (if neg then -(n : Int) else n), cs'')
    else
      let mant := digitsValue (whole ++ frac)
      let e : Int := expo.getD 0 - frac.length
      let x := if e ≥ 0 then Binary64.ofRatio neg (mant * Nat.pow 10 e.toNat) 1
        else Binary64.ofRatio neg mant (Nat.pow 10 (-e).toNat)
      some (.num x, cs'')

def skipSpace (cs : List Char) : List Char := cs.dropWhile isJsonSpace

mutual

def readValue : Nat → List Char → Option (JsonValue × List Char)
  | 0, _ => none
  | fuel + 1, cs =>
    match skipSpace cs with
    | '"' :: rest => (readString (rest.length + 1) [] rest).map fun (s, r) => (.str s, r)
    | '{' :: rest => readFields fuel [] true rest
    | '[' :: rest => readItems fuel [] true rest
    | 'n' :: 'u' :: 'l' :: 'l' :: rest => some (.null, rest)
    | 't' :: 'r' :: 'u' :: 'e' :: rest => some (.bool true, rest)
    | 'f' :: 'a' :: 'l' :: 's' :: 'e' :: rest => some (.bool false, rest)
    | 'N' :: 'a' :: 'N' :: rest => some (.num .nan, rest)
    | 'I' :: 'n' :: 'f' :: 'i' :: 'n' :: 'i' :: 't' :: 'y' :: rest => some (.num (.infinite false), rest)
    | '-' :: 'I' :: 'n' :: 'f' :: 'i' :: 'n' :: 'i' :: 't' :: 'y' :: rest => some (.num (.infinite true), rest)
    | cs => readNumber cs

def readItems : Nat → List JsonValue → Bool → List Char → Option (JsonValue × List Char)
  | 0, _, _, _ => none
  | fuel + 1, acc, first, cs =>
    match skipSpace cs with
    | ']' :: rest => if first then some (.arr [], rest) else none
    | cs =>
      match readValue fuel cs with
      | none => none
      | some (v, rest) =>
        match skipSpace rest with
        | ',' :: rest => readItems fuel (v :: acc) false rest
        | ']' :: rest => some (.arr (v :: acc).reverse, rest)
        | _ => none

/-- The rest of an object after `\x7b` or after a `,`; `first` when no field was read yet. -/
def readFields : Nat → List (String × JsonValue) → Bool → List Char → Option (JsonValue × List Char)
  | 0, _, _, _ => none
  | fuel + 1, acc, first, cs =>
    match skipSpace cs with
    | '}' :: rest => if first then some (.obj [], rest) else none
    | '"' :: rest =>
      match readString (rest.length + 1) [] rest with
      | none => none
      | some (k, rest) =>
        match skipSpace rest with
        | ':' :: rest =>
          match readValue fuel rest with
          | none => none
          | some (v, rest) =>
            let acc := setField acc k v
            match skipSpace rest with
            | ',' :: rest => readFields fuel acc false rest
            | '}' :: rest => some (.obj acc, rest)
            | _ => none
        | _ => none
    | _ => none

end

def parse (s : String) : Option JsonValue :=
  let cs := s.toList
  match readValue (cs.length + 1) cs with
  | some (v, rest) => if (skipSpace rest).isEmpty then some v else none
  | none => none

def shown : JsonValue → String
  | .str s => s
  | v => v.literal

def typeName : JsonValue → String
  | .null => "NoneType"
  | .bool _ => "bool"
  | .int _ => "int"
  | .num _ => "float"
  | .str _ => "str"
  | .arr _ => "list"
  | .obj _ => "dict"

def truthy : JsonValue → Bool
  | .null => false
  | .bool b => b
  | .int n => n != 0
  | .num x => match x with
    | .finite _ m _ => m != 0
    | _ => true
  | .str s => !s.isEmpty
  | .arr xs => !xs.isEmpty
  | .obj fs => !fs.isEmpty

end JsonValue

end DocWeaver
