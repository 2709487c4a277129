import DocWeaver.Text.Utf8

/-!
Tokens of TypeScript and JavaScript source, read from UTF-8 bytes.

The reader of `DocWeaver.Syntax` pulls tokens on demand from a byte offset, so the scanner never
has to guess what a `/`, a `}` or a `<` means: a regular expression, the rest of a template
literal and JSX text are scanned only when the grammar asks for them. A `>` is always a token
of its own; the grammar joins `>>`, `>>=` and the like where an operator is wanted, so that type
arguments can close with `>>`.

Blank space is what the grammars skip between tokens: Unicode white space, U+FEFF, U+2060 and
U+200B. Identifiers are runs of any characters other than blanks, ASCII controls and the ASCII
punctuation of the language, not starting with a digit.
-/

namespace DocWeaver.Syntax

open DocWeaver.Text

/-- The grammar a file is read with. -/
inductive Dialect where
  | typescript
  | tsx
  | javascript
  deriving DecidableEq, Repr, Inhabited

def Dialect.ofSuffix? : String → Option Dialect
  | ".ts" | ".mts" | ".cts" => some .typescript
  | ".tsx" => some .tsx
  | ".js" | ".jsx" | ".mjs" | ".cjs" => some .javascript
  | _ => none

def Dialect.suffixes : List String := [".cjs", ".cts", ".js", ".jsx", ".mjs", ".mts", ".ts", ".tsx"]

def Dialect.typed : Dialect → Bool
  | .javascript => false
  | _ => true

def Dialect.jsx : Dialect → Bool
  | .typescript => false
  | _ => true

def isSpace (c : Char) : Bool :=
  let n := c.toNat
  (0x09 ≤ n && n ≤ 0x0D) || n == 0x20 || n == 0xA0 || n == 0x1680 || (0x2000 ≤ n && n ≤ 0x200B) ||
    n == 0x2028 || n == 0x2029 || n == 0x202F || n == 0x205F || n == 0x3000 || n == 0xFEFF ||
    n == 0x2060

def isPunctChar (c : Char) : Bool :=
  ":;`\"'@#.,|^&<=>+-*/\\%?!~()[]\x7b\x7d".toList.contains c

def isIdentPart (c : Char) : Bool :=
  c.toNat ≥ 0x20 && !isSpace c && !isPunctChar c

def isIdentStart (c : Char) : Bool :=
  isIdentPart c && !c.isDigit

/-- What a token is. Words are identifiers and keywords alike; the grammar tells them apart. -/
inductive TokKind where
  | word (text : String)
  | privateName (text : String)
  | number
  | string
  | template (closed : Bool)
  | punct (text : String)
  | eof
  deriving Repr, DecidableEq, Inhabited

/-- A token with its byte span; `newline` says whether a line feed lies between it and the
token before. -/
structure Token where
  kind : TokKind
  start : Nat
  stop : Nat
  newline : Bool
  deriving Repr, Inhabited

def Token.isPunct (t : Token) (p : String) : Bool := t.kind == .punct p

def Token.isWord (t : Token) (w : String) : Bool := t.kind == .word w

def Token.isEof (t : Token) : Bool := t.kind == .eof

def Token.word? (t : Token) : Option String :=
  match t.kind with
  | .word w => some w
  | _ => none

def byteAt (src : ByteArray) (i : Nat) : UInt8 := src[i]?.getD 0

def charAt (src : ByteArray) (i : Nat) : Option (Char × Nat) := Utf8.charAt src i

def lineCommentEnd (src : ByteArray) : Nat → Nat → Nat
  | 0, i => i
  | fuel + 1, i =>
    match charAt src i with
    | none => i
    | some (c, w) =>
      if c == '\n' || c == '\r' || c == '\u2028' || c == '\u2029' then i
      else lineCommentEnd src fuel (i + w)

def blockCommentEnd (src : ByteArray) : Nat → Nat → Option Nat
  | 0, _ => none
  | fuel + 1, i =>
    if i ≥ src.size then none
    else if byteAt src i == 42 && byteAt src (i + 1) == 47 then some (i + 2)
    else blockCommentEnd src fuel (i + 1)

def skipTrivia (src : ByteArray) : Nat → Nat → Bool → Except Nat (Nat × Bool)
  | 0, i, nl => .ok (i, nl)
  | fuel + 1, i, nl =>
    match charAt src i with
    | none => .ok (i, nl)
    | some (c, w) =>
      if isSpace c then skipTrivia src fuel (i + w) (nl || c == '\n')
      else if c == '/' && byteAt src (i + 1) == 47 then
        skipTrivia src fuel (lineCommentEnd src src.size (i + 2)) nl
      else if c == '/' && byteAt src (i + 1) == 42 then
        match blockCommentEnd src src.size (i + 2) with
        | none => .error i
        | some j =>
          let crossed := (src.extract i j).toList.contains 10
          skipTrivia src fuel j (nl || crossed)
      else .ok (i, nl)

def wordEnd (src : ByteArray) : Nat → Nat → Nat
  | 0, i => i
  | fuel + 1, i =>
    match charAt src i with
    | none => i
    | some (c, w) =>
      if c == '\\' && byteAt src (i + 1) == 117 then wordEnd src fuel (i + 2)
      else if isIdentPart c then wordEnd src fuel (i + w)
      else i

def isDigitOf (base : Nat) (b : UInt8) : Bool :=
  b == 95 ||
  (if base == 16 then (48 ≤ b && b ≤ 57) || (97 ≤ b && b ≤ 102) || (65 ≤ b && b ≤ 70)
   else 48 ≤ b && b.toNat < 48 + base)

def digitsEnd (src : ByteArray) (base : Nat) : Nat → Nat → Nat
  | 0, i => i
  | fuel + 1, i => if isDigitOf base (byteAt src i) then digitsEnd src base fuel (i + 1) else i

/-- The end of a numeric literal that starts at `i` with a digit or a `.` before a digit. -/
def numberEnd (src : ByteArray) (i : Nat) : Nat :=
  let n := src.size
  let b0 := byteAt src i
  let b1 := byteAt src (i + 1)
  if b0 == 48 && (b1 == 120 || b1 == 88) then
    let j := digitsEnd src 16 n (i + 2)
    if byteAt src j == 110 then j + 1 else j
  else if b0 == 48 && (b1 == 111 || b1 == 79) then
    let j := digitsEnd src 8 n (i + 2)
    if byteAt src j == 110 then j + 1 else j
  else if b0 == 48 && (b1 == 98 || b1 == 66) then
    let j := digitsEnd src 2 n (i + 2)
    if byteAt src j == 110 then j + 1 else j
  else
    let j := digitsEnd src 10 n i
    if byteAt src j == 110 then j + 1
    else
      let j := if byteAt src j == 46 then digitsEnd src 10 n (j + 1) else j
      let e := byteAt src j
      if e == 101 || e == 69 then
        let k := if byteAt src (j + 1) == 43 || byteAt src (j + 1) == 45 then j + 2 else j + 1
        if isDigitOf 10 (byteAt src k) then digitsEnd src 10 n k else j
      else j

def stringEnd (src : ByteArray) (q : UInt8) : Nat → Nat → Option Nat
  | 0, _ => none
  | fuel + 1, i =>
    if i ≥ src.size then none
    else
      let b := byteAt src i
      if b == q then some (i + 1)
      else if b == 92 then
        if byteAt src (i + 1) == 13 && byteAt src (i + 2) == 10 then stringEnd src q fuel (i + 3)
        else if i + 1 ≥ src.size then none
        else stringEnd src q fuel (i + 2)
      else if b == 10 || b == 13 then none
      else stringEnd src q fuel (i + 1)

def templateEnd (src : ByteArray) : Nat → Nat → Option (Nat × Bool)
  | 0, _ => none
  | fuel + 1, i =>
    if i ≥ src.size then none
    else
      let b := byteAt src i
      if b == 96 then some (i + 1, true)
      else if b == 36 && byteAt src (i + 1) == 123 then some (i + 2, false)
      else if b == 92 then templateEnd src fuel (i + 2)
      else templateEnd src fuel (i + 1)

def regexEnd (src : ByteArray) : Nat → Nat → Bool → Option Nat
  | 0, _, _ => none
  | fuel + 1, i, inClass =>
    if i ≥ src.size then none
    else
      let b := byteAt src i
      if b == 10 || b == 13 then none
      else if b == 92 then
        if i + 1 ≥ src.size || byteAt src (i + 1) == 10 then none
        else regexEnd src fuel (i + 2) inClass
      else if b == 91 then regexEnd src fuel (i + 1) true
      else if b == 93 then regexEnd src fuel (i + 1) false
      else if b == 47 && !inClass then some (wordEnd src src.size (i + 1))
      else regexEnd src fuel (i + 1) inClass

def punctuators : List String :=
  ["===", "!==", "**=", "<<=", "&&=", "||=", "??=", "...",
   "=>", "==", "!=", "<=", "+=", "-=", "*=", "%=", "&=", "|=", "^=", "/=", "**", "++", "--",
   "<<", "&&", "||", "??", "?.",
   "\x7b", "\x7d", "(", ")", "[", "]", ";", ",", "<", ">", "+", "-", "*", "/", "%", "&", "|", "^",
   "!", "~", "?", ":", "=", ".", "@", "#"]

def hasAt (src : ByteArray) (i : Nat) (p : String) : Bool :=
  (p.toUTF8.toList.zipIdx).all fun (b, k) => byteAt src (i + k) == b

def punctAt (src : ByteArray) (i : Nat) : Option String :=
  match punctuators.find? (hasAt src i) with
  | some "?." =>
    let d := byteAt src (i + 2)
    if 48 ≤ d && d ≤ 57 then some "?" else some "?."
  | r => r

/-- The token at `i`, which is not blank space; an unclosed string, template or a character
that starts no token gives its offset as the error. -/
def tokenAt (src : ByteArray) (i : Nat) (nl : Bool) : Except Nat Token :=
  let n := src.size
  match charAt src i with
  | none => .ok ⟨.eof, i, i, nl⟩
  | some (c, w) =>
    let b1 := byteAt src (i + 1)
    if c.isDigit || (c == '.' && 48 ≤ b1 && b1 ≤ 57) then
      .ok ⟨.number, i, numberEnd src i, nl⟩
    else if c == '"' || c == '\'' then
      match stringEnd src (byteAt src i) n (i + 1) with
      | some j => .ok ⟨.string, i, j, nl⟩
      | none => .error i
    else if c == '`' then
      match templateEnd src n (i + 1) with
      | some (j, closed) => .ok ⟨.template closed, i, j, nl⟩
      | none => .error i
    else if c == '#' && (match charAt src (i + 1) with
        | some (d, _) => isIdentStart d || d == '\\'
        | none => false) then
      let j := wordEnd src n (i + 1)
      .ok ⟨.privateName (Utf8.slice src i j), i, j, nl⟩
    else if isIdentStart c || (c == '\\' && b1 == 117) then
      let j := wordEnd src n (i + w)
      .ok ⟨.word (Utf8.slice src i j), i, j, nl⟩
    else
      match punctAt src i with
      | some p => .ok ⟨.punct p, i, i + p.utf8ByteSize, nl⟩
      | none => .error i

def nextToken (src : ByteArray) (i : Nat) : Except Nat Token := do
  let (j, nl) ← skipTrivia src src.size i false
  tokenAt src j nl

def commentsIn (src : ByteArray) (stop : Nat) : Nat → Nat → List (Nat × Nat)
  | 0, _ => []
  | fuel + 1, i =>
    if i ≥ stop then []
    else
      match charAt src i with
      | none => []
      | some (c, w) =>
        if c == '/' && byteAt src (i + 1) == 47 then
          let j := lineCommentEnd src src.size (i + 2)
          (i, j) :: commentsIn src stop fuel j
        else if c == '/' && byteAt src (i + 1) == 42 then
          match blockCommentEnd src src.size (i + 2) with
          | some j => (i, j) :: commentsIn src stop fuel j
          | none => []
        else commentsIn src stop fuel (i + w)

end DocWeaver.Syntax
