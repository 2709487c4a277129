import DocWeaver.Syntax.Scan
import DocWeaver.Syntax.Outline

/-!
The reading monad of the grammar: a byte offset into the source, the grammar's options, and
failure at the first token that does not fit.

Statements end with `;` or with an automatic semicolon. An automatic semicolon stands after the
last token (and after any comments on the same line) when the input ends there, when `}`
follows, or when a line feed follows and the next line does not start with a token that may
continue the statement: `,` `.` `:` `;` `*` `%` `>` `<` `=` `[` `(` `?` `^` `|` `&` `/`, a binary
`+` or `-`, `!=`, `in` or `instanceof`.
-/

namespace DocWeaver.Syntax

/-- Why reading stopped. -/
inductive Stop where
  | at (pos : Nat)
  | atEnd
  | tooDeep
  deriving Repr, Inhabited

/-- What the reader knows besides its position. -/
structure Scope where
  src : ByteArray
  dialect : Dialect
  asi : Bool := false
  noIn : Bool := false

abbrev Read := ReaderT Scope (StateT Nat (Except Stop))

/-- The line after a line feed at `i` lets a statement end before it. -/
def breakEnds (src : ByteArray) (i mark : Nat) : Option Nat :=
  match skipTrivia src src.size i false with
  | .error _ => some mark
  | .ok (j, _) =>
    if j ≥ src.size then some mark
    else
      let b := byteAt src j
      let next := byteAt src (j + 1)
      let letter (k : Nat) : Bool :=
        match charAt src k with
        | some (c, _) => c.isAlpha || c.toNat > 0x7F
        | none => false
      if ",.:;*%><=[(?^|&/".toUTF8.toList.contains b then none
      else if b == 43 then (if next == 43 then some mark else none)
      else if b == 45 then (if next == 45 then some mark else none)
      else if b == 33 then (if next == 61 then none else some mark)
      else if b == 105 then
        if next != 110 then some mark
        else if !letter (j + 2) then none
        else if hasAt src (j + 2) "stanceof" && !letter (j + 10) then none
        else some mark
      else some mark

def autoSemicolonFrom (src : ByteArray) : Nat → Nat → Nat → Option Nat
  | 0, _, _ => none
  | fuel + 1, i, mark =>
    match charAt src i with
    | none => some mark
    | some (c, w) =>
      if c == '}' then some mark
      else if c == '\n' then breakEnds src (i + 1) mark
      else if isSpace c then autoSemicolonFrom src fuel (i + w) mark
      else if c == '/' && byteAt src (i + 1) == 47 then
        let j := lineCommentEnd src src.size (i + 2)
        autoSemicolonFrom src fuel j j
      else if c == '/' && byteAt src (i + 1) == 42 then
        match blockCommentEnd src src.size (i + 2) with
        | some j => autoSemicolonFrom src fuel j j
        | none => none
      else none

def autoSemicolon (src : ByteArray) (last : Nat) : Option Nat :=
  autoSemicolonFrom src (src.size + 1) last last

def peek : Read Token := do
  match nextToken (← read).src (← get) with
  | .ok t => pure t
  | .error p => throw (.at p)

def peekAfter (t : Token) : Read Token := do
  let src := (← read).src
  let after :=
    if t.isPunct "/" || t.isPunct "/=" then regexEnd src src.size (t.start + 1) false
    else some t.stop
  match after with
  | none => pure ⟨.eof, t.stop, t.stop, false⟩
  | some i =>
    match nextToken src i with
    | .ok u => pure u
    | .error p => throw (.at p)

def advance (t : Token) : Read Unit := set t.stop

def take : Read Token := do
  let t ← peek
  advance t
  pure t

def reject (t : Token) : Read α :=
  throw (if t.isEof then .atEnd else .at t.start)

def expect (p : String) : Read Token := do
  let t ← peek
  if t.isPunct p then
    advance t
    pure t
  else reject t

def expectWord (w : String) : Read Token := do
  let t ← peek
  if t.isWord w then
    advance t
    pure t
  else reject t

def eat (p : String) : Read Bool := do
  let t ← peek
  if t.isPunct p then
    advance t
    pure true
  else pure false

def eatWord (w : String) : Read Bool := do
  let t ← peek
  if t.isWord w then
    advance t
    pure true
  else pure false

def spanFrom (start : Nat) : Read Span := do
  pure ⟨start, ← get⟩

def lookahead (p : Read α) : Read (Option α) := do
  let s ← get
  let r ← tryCatch (some <$> p) (fun _ => pure none)
  set s
  pure r

def attempt (p : Read α) : Read (Option α) :=
  tryCatch (some <$> p) (fun _ => pure none)

def withAsi (b : Bool) (p : Read α) : Read α :=
  withReader (fun sc => { sc with asi := b }) p

def nested (p : Read α) : Read α :=
  withReader (fun sc => { sc with asi := false, noIn := false }) p

def semicolon : Read Nat := do
  let t ← peek
  if t.isPunct ";" then
    advance t
    pure t.stop
  else
    match autoSemicolon (← read).src (← get) with
    | some m => pure m
    | none => reject t

def declarationEnd : Read Nat := do
  let here ← get
  pure ((autoSemicolon (← read).src here).getD here)

def endsHere : Read Bool := do
  let sc ← read
  if sc.asi then pure (autoSemicolon sc.src (← get)).isSome else pure false

def greaterOp (src : ByteArray) (t : Token) : String × Nat :=
  let i := t.stop
  if hasAt src i ">>=" then (">>>=", i + 3)
  else if hasAt src i ">>" then (">>>", i + 2)
  else if hasAt src i ">=" then (">>=", i + 2)
  else if hasAt src i ">" then (">>", i + 1)
  else if hasAt src i "=" then (">=", i + 1)
  else (">", i)

/-- Takes a bracketed group whose opener is the next token, up to its matching closer;
`stack` holds the closers still expected (`$` for a template substitution). -/
def skipGroupAux : Nat → List Char → Read Unit
  | 0, _ => throw .tooDeep
  | fuel + 1, stack => do
    let t ← take
    let src := (← read).src
    match t.kind with
    | .eof => reject t
    | .template false => skipGroupAux fuel ('$' :: stack)
    | .punct "(" => skipGroupAux fuel (')' :: stack)
    | .punct "[" => skipGroupAux fuel (']' :: stack)
    | .punct "\x7b" => skipGroupAux fuel ('}' :: stack)
    | .punct p =>
      if p == ")" || p == "]" || p == "\x7d" then
        match stack with
        | c :: rest =>
          if c == '$' && p == "\x7d" then
            match templateEnd src src.size t.stop with
            | some (j, closed) =>
              set j
              if closed then (if rest.isEmpty then pure () else skipGroupAux fuel rest)
              else skipGroupAux fuel ('$' :: rest)
            | none => throw (.at t.start)
          else if String.singleton c == p then
            if rest.isEmpty then pure () else skipGroupAux fuel rest
          else reject t
        | [] => reject t
      else skipGroupAux fuel stack
    | _ => skipGroupAux fuel stack

def skipGroup : Read Unit := do
  let t ← take
  let src := (← read).src
  let fuel := src.size + 1
  match t.kind with
  | .punct "(" => skipGroupAux fuel [')']
  | .punct "[" => skipGroupAux fuel [']']
  | .punct "\x7b" => skipGroupAux fuel ['}']
  | _ => reject t

def skipUntilSeparator : Nat → Read Unit
  | 0 => throw .tooDeep
  | fuel + 1 => do
    let t ← peek
    match t.kind with
    | .eof => reject t
    | .punct "," | .punct ")" | .punct "]" | .punct "\x7d" => pure ()
    | .punct "(" | .punct "[" | .punct "\x7b" => skipGroup; skipUntilSeparator fuel
    | .template false =>
      advance t
      skipGroupAux ((← read).src.size + 1) ['$']
      skipUntilSeparator fuel
    | _ => advance t; skipUntilSeparator fuel

end DocWeaver.Syntax
