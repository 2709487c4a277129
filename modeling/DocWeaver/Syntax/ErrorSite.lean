import DocWeaver.Syntax.Grammar

/-!
Where a syntax error is reported.

A parser that recovers from errors reports the first place its recovery touched, which need not
be the token that does not fit. Three recoveries compete when a token does not fit:

* a single missing token (a closing bracket, a semicolon or a name) stands right after the text
  before the token, when the input then reads on past it;
* the current element of the innermost open bracket (or the statement, outside brackets) is set
  aside from its start, when the token fits some enclosing context;
* the token itself is skipped, when it is a closing bracket that nothing open matches.

They differ from the token's own place only when a line break comes before the token, so only
then is the choice made. At the end of the input nothing can be skipped: one missing closing
token at the end of the text completes the statement, or else the statement is set aside whole.
-/

namespace DocWeaver.Syntax

def depthBound (size : Nat) : Nat := size * 8 + 256

def lineOf (src : ByteArray) (offset : Nat) : Nat :=
  1 + ((src.extract 0 offset).toList.filter (· == 10)).length

def contentEnd (src : ByteArray) (stop : Nat) : Nat → Nat → Nat → Nat
  | 0, _, last => last
  | fuel + 1, i, last =>
    if i ≥ stop then last
    else
      match charAt src i with
      | none => last
      | some (c, w) => contentEnd src stop fuel (i + w) (if isSpace c then last else i + w)

def readRaw (sc : Scope) (pos : Nat) : Except Stop (Item × Nat) :=
  ((statement (depthBound sc.src.size)).run sc).run pos

def firstStop (sc : Scope) : Nat → Nat → Option Nat
  | 0, _ => none
  | fuel + 1, pos =>
    match nextToken sc.src pos with
    | .error p => some p
    | .ok t =>
      if t.isEof then none
      else
        match readRaw sc pos with
        | .ok (_, next) => if next ≤ pos then some t.start else firstStop sc fuel next
        | .error (.at p) => some p
        | .error _ => some sc.src.size

def withTokenBetween (src : ByteArray) (e p : Nat) (c : String) : ByteArray × Nat :=
  let mid := (" " ++ c ++ " ").toUTF8
  (src.extract 0 e ++ mid ++ src.extract p src.size, e + mid.size)

def missingCandidates : List String := ["x", "\x7d", ")", "]", ";"]

def missingFits (sc : Scope) (pos e p : Nat) : Bool :=
  missingCandidates.any fun c =>
    let (src, p') := withTokenBetween sc.src e p c
    match firstStop { sc with src } (src.size + 1) pos with
    | none => true
    | some q => q > p'

def closesWith (sc : Scope) (pos : Nat) (closer : String) : Bool :=
  let src := sc.src ++ (closer ++ " x").toUTF8
  match readRaw { sc with src } pos with
  | .ok (_, next) => next == sc.src.size + closer.utf8ByteSize
  | .error _ => false

/-- An open bracket met while scanning a statement. -/
structure Frame where
  closer : Char
  statements : Bool
  element : Option Nat

def Token.endsOperand (t : Token) : Bool :=
  match t.kind with
  | .word _ | .privateName _ | .number | .string | .template true => true
  | .punct p => p == ")" || p == "]" || p == "\x7d" || p == "++" || p == "--"
  | _ => false

def operandWords : List String :=
  ["return", "yield", "await", "typeof", "case", "in", "of", "throw", "new", "void", "delete",
   "instanceof", "do", "else", "default"]

def regexMayFollow : Option Token → Bool
  | none => true
  | some t =>
    match t.kind with
    | .punct p => !(p == ")" || p == "]" || p == "\x7d")
    | .word w => operandWords.contains w
    | _ => false

def objectMayFollow : Option Token → Bool
  | none => false
  | some t =>
    match t.kind with
    | .punct p => !(p == ")" || p == "]" || p == "\x7d" || p == ";" || p == "=>" || p == ">")
    | .word w => operandWords.contains w && w != "do" && w != "else"
    | _ => false

/-- The frames open just before offset `p`, innermost first, with the last token before it;
scanning starts at `i` with the frames `fs` and the token `prev` before `i`. -/
def openFrames (src : ByteArray) (p : Nat) : Nat → Nat → Option Token → List Frame →
    List Frame × Option Token
  | 0, _, prev, fs => (fs, prev)
  | fuel + 1, i, prev, fs =>
    match nextToken src i with
    | .error _ => (fs, prev)
    | .ok t =>
      if t.isEof || t.start ≥ p then (fs, prev)
      else
        let lineEnds := t.newline && (prev.map Token.endsOperand).getD false &&
          (match prev with
            | some u => (autoSemicolon src u.stop).isSome
            | none => false)
        let fs := match fs with
          | f :: rest =>
            if f.element.isNone || (f.statements && lineEnds) then { f with element := some t.start } :: rest
            else f :: rest
          | [] => []
        let push (c : Char) (stmts : Bool) : List Frame := ⟨c, stmts, none⟩ :: fs
        let resetTop (fs : List Frame) : List Frame :=
          match fs with
          | f :: rest => { f with element := none } :: rest
          | [] => []
        match t.kind with
        | .punct "(" => openFrames src p fuel t.stop (some t) (push ')' false)
        | .punct "[" => openFrames src p fuel t.stop (some t) (push ']' false)
        | .punct "\x7b" => openFrames src p fuel t.stop (some t) (push '}' !(objectMayFollow prev))
        | .template false => openFrames src p fuel t.stop (some t) (push '$' false)
        | .punct "," | .punct ";" => openFrames src p fuel t.stop (some t) (resetTop fs)
        | .punct ")" | .punct "]" =>
          let c := if t.isPunct ")" then ')' else ']'
          match fs with
          | f :: rest => openFrames src p fuel t.stop (some t) (if f.closer == c then rest else fs)
          | [] => openFrames src p fuel t.stop (some t) fs
        | .punct "\x7d" =>
          match fs with
          | f :: rest =>
            if f.closer == '$' then
              match templateEnd src src.size t.stop with
              | some (j, closed) =>
                let piece : Token := ⟨.template closed, t.start, j, false⟩
                openFrames src p fuel j (some piece) (if closed then rest else { f with element := none } :: rest)
              | none => (fs, prev)
            else if f.closer == '}' then
              let rest := if f.statements then
                match rest with
                | g :: more => if g.statements then { g with element := none } :: more else g :: more
                | [] => []
                else rest
              openFrames src p fuel t.stop (some t) rest
            else openFrames src p fuel t.stop (some t) fs
          | [] => openFrames src p fuel t.stop (some t) fs
        | .punct "/" | .punct "/=" =>
          if regexMayFollow prev then
            match regexEnd src src.size (t.start + 1) false with
            | some j => openFrames src p fuel j (some ⟨.string, t.start, j, t.newline⟩) fs
            | none => (fs, prev)
          else openFrames src p fuel t.stop (some t) fs
        | _ => openFrames src p fuel t.stop (some t) fs

def closedFrame (src : ByteArray) (p : Nat) (fs : List Frame) : Option (Option Frame) :=
  match tokenAt src p false with
  | .ok t =>
    if t.isPunct ")" then some (fs.find? (·.closer == ')'))
    else if t.isPunct "]" then some (fs.find? (·.closer == ']'))
    else if t.isPunct "\x7d" then some (fs.find? fun f => f.closer == '}' || f.closer == '$')
    else none
  | .error _ => some none

/-- The offset reported when reading the statement whose first token is at `start` (read from
offset `pos`) stops with `stop`. -/
def errorSite (sc : Scope) (pos start : Nat) : Stop → Nat
  | .tooDeep => start
  | .atEnd =>
    if closesWith sc pos "\x7d" || closesWith sc pos ";" then
      contentEnd sc.src sc.src.size sc.src.size start start
    else start
  | .at p =>
    let src := sc.src
    let base : Frame := ⟨'.', true, some start⟩
    match openFrames src p (src.size + 1) start none [base] with
    | (_, none) => p
    | (fs, some prev) =>
      let last := contentEnd src p src.size prev.stop prev.stop
      if !((src.extract last p).toList.contains 10) then p
      else if missingFits sc pos prev.stop p then last
      else
        match closedFrame src p fs with
        | some none => p
        | some (some f) => f.element.getD p
        | none =>
          match fs with
          | f :: _ => f.element.getD p
          | [] => p

end DocWeaver.Syntax
