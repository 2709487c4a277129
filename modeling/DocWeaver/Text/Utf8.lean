/-!
UTF-8 bytes.

`decode` reads a byte string as UTF-8 text and reports the first ill-formed piece; the piece is
the longest prefix at that offset that could still begin a character, so a stray byte is a piece
of one byte, and a sequence cut short by a bad continuation byte ends before that byte.
`decodeLossy` replaces every such piece by U+FFFD. `charAt` reads one character of well-formed
text at a byte offset.
-/

namespace DocWeaver.Text.Utf8

/-- Why a piece of a byte string is not UTF-8. -/
inductive Fault where
  | invalidStart
  | invalidContinuation
  | unexpectedEnd
  deriving Repr, DecidableEq

/-- The first ill-formed piece `[start, stop)` of a byte string, with the byte at `start`. -/
structure DecodeError where
  start : Nat
  stop : Nat
  byte : UInt8
  fault : Fault
  deriving Repr, DecidableEq

def isCont (b : UInt8) : Bool := 0x80 ≤ b && b < 0xC0

def hexByte (b : UInt8) : String :=
  let digit (n : Nat) : Char := if n < 10 then Char.ofNat (48 + n) else Char.ofNat (87 + n)
  String.ofList [digit (b.toNat / 16), digit (b.toNat % 16)]

def DecodeError.message (e : DecodeError) : String :=
  let why := match e.fault with
    | .invalidStart => "invalid start byte"
    | .invalidContinuation => "invalid continuation byte"
    | .unexpectedEnd => "unexpected end of data"
  if e.stop = e.start + 1 then
    s!"'utf-8' codec can't decode byte 0x{hexByte e.byte} in position {e.start}: {why}"
  else
    s!"'utf-8' codec can't decode bytes in position {e.start}-{e.stop - 1}: {why}"

/-- The outcome of reading one character from the front of a byte list: the character and the
number of bytes it took, or the length of the ill-formed piece and its fault. -/
inductive Step where
  | char (c : Char) (width : Nat)
  | bad (width : Nat) (fault : Fault)

/-- Reads one character from the front of a non-empty byte list. Overlong forms, surrogates and
values above U+10FFFF are ill-formed. -/
def step (b0 : UInt8) (rest : List UInt8) : Step :=
  let cont (b : UInt8) : Nat := (b &&& 0x3F).toNat
  if b0 < 0x80 then .char (Char.ofNat b0.toNat) 1
  else if b0 < 0xC2 then .bad 1 .invalidStart
  else if b0 < 0xE0 then
    match rest with
    | [] => .bad 1 .unexpectedEnd
    | b1 :: _ =>
      if isCont b1 then .char (Char.ofNat (((b0 &&& 0x1F).toNat <<< 6) ||| cont b1)) 2
      else .bad 1 .invalidContinuation
  else if b0 < 0xF0 then
    let second (b1 : UInt8) : Bool :=
      isCont b1 && !(b0 == 0xE0 && b1 < 0xA0) && !(b0 == 0xED && b1 ≥ 0xA0)
    match rest with
    | [] => .bad 1 .unexpectedEnd
    | [b1] => if second b1 then .bad 2 .unexpectedEnd else .bad 1 .invalidContinuation
    | b1 :: b2 :: _ =>
      if !second b1 then .bad 1 .invalidContinuation
      else if !isCont b2 then .bad 2 .invalidContinuation
      else .char (Char.ofNat (((b0 &&& 0x0F).toNat <<< 12) ||| (cont b1 <<< 6) ||| cont b2)) 3
  else if b0 < 0xF5 then
    let second (b1 : UInt8) : Bool :=
      isCont b1 && !(b0 == 0xF0 && b1 < 0x90) && !(b0 == 0xF4 && b1 ≥ 0x90)
    match rest with
    | [] => .bad 1 .unexpectedEnd
    | [b1] => if second b1 then .bad 2 .unexpectedEnd else .bad 1 .invalidContinuation
    | [b1, b2] =>
      if !second b1 then .bad 1 .invalidContinuation
      else if !isCont b2 then .bad 2 .invalidContinuation
      else .bad 3 .unexpectedEnd
    | b1 :: b2 :: b3 :: _ =>
      if !second b1 then .bad 1 .invalidContinuation
      else if !isCont b2 then .bad 2 .invalidContinuation
      else if !isCont b3 then .bad 3 .invalidContinuation
      else .char (Char.ofNat (((b0 &&& 0x07).toNat <<< 18) ||| (cont b1 <<< 12) |||
        (cont b2 <<< 6) ||| cont b3)) 4
  else .bad 1 .invalidStart

def decodeAux (pos : Nat) (acc : List Char) : Nat → List UInt8 → Except DecodeError (List Char)
  | _, [] => .ok acc.reverse
  | 0, b :: _ => .error ⟨pos, pos + 1, b, .unexpectedEnd⟩
  | fuel + 1, b :: rest =>
    match step b rest with
    | .char c w => decodeAux (pos + w) (c :: acc) fuel (rest.drop (w - 1))
    | .bad w f => .error ⟨pos, pos + w, b, f⟩

def decode (bs : ByteArray) : Except DecodeError String :=
  (decodeAux 0 [] bs.size bs.toList).map String.ofList

def decodeLossyAux (acc : List Char) : Nat → List UInt8 → List Char
  | _, [] => acc.reverse
  | 0, _ :: _ => ('�' :: acc).reverse
  | fuel + 1, b :: rest =>
    match step b rest with
    | .char c w => decodeLossyAux (c :: acc) fuel (rest.drop (w - 1))
    | .bad w _ => decodeLossyAux ('�' :: acc) fuel (rest.drop (w - 1))

def decodeLossy (bs : ByteArray) : String :=
  String.ofList (decodeLossyAux [] bs.size bs.toList)

def slice (bs : ByteArray) (start stop : Nat) : String :=
  match decode (bs.extract start stop) with
  | .ok s => s
  | .error _ => ""

def charAt (bs : ByteArray) (i : Nat) : Option (Char × Nat) :=
  match bs[i]? with
  | none => none
  | some b0 =>
    let rest := [bs[i + 1]?, bs[i + 2]?, bs[i + 3]?].filterMap id
    match step b0 rest with
    | .char c w => some (c, w)
    | .bad _ _ => some ('�', 1)

end DocWeaver.Text.Utf8
