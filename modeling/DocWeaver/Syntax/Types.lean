import DocWeaver.Syntax.Reader

/-!
The type grammar of TypeScript: function and constructor types, conditional types, unions and
intersections, type operators, indexed and array types, object, mapped and tuple types, literal
and template literal types, type references and queries, type parameters and arguments, and the
annotations of return types (type predicates and assertions).

Types are only checked and skipped; the callers keep the spans. A computed member name or a
default value inside a type is skipped as a balanced group of tokens.
-/

namespace DocWeaver.Syntax

def reservedWords : List String :=
  ["break", "case", "catch", "class", "const", "continue", "debugger", "default", "delete", "do",
   "else", "enum", "export", "extends", "false", "finally", "for", "function", "if", "import",
   "in", "instanceof", "new", "null", "return", "super", "switch", "this", "throw", "true", "try",
   "typeof", "var", "void", "while", "with"]

def isReserved (w : String) : Bool := reservedWords.contains w

def Token.isName (t : Token) : Bool :=
  match t.kind with
  | .word w => !isReserved w
  | _ => false

def Token.isPropertyKey (t : Token) : Bool :=
  match t.kind with
  | .word _ | .string | .number | .privateName _ => true
  | _ => false

mutual

/-- A type; `cond` allows a conditional type at its top. -/
def type : Nat → Bool → Read Unit
  | 0, _ => throw .tooDeep
  | n + 1, cond => do
    let t ← peek
    if t.isPunct "<" then
      typeParams n
      typeParamList n
      let _ ← expect "=>"
      returnType n
    else if t.isWord "new" || (t.isWord "abstract" && (← peekAfter t).isWord "new") then
      if t.isWord "abstract" then advance t
      let _ ← expectWord "new"
      if (← peek).isPunct "<" then typeParams n
      typeParamList n
      let _ ← expect "=>"
      type n true
    else if t.isPunct "(" && (← lookahead (do skipGroup; let u ← peek; pure (u.isPunct "=>"))) == some true then
      typeParamList n
      let _ ← expect "=>"
      returnType n
    else
      unionType n
      if cond then
        let u ← peek
        if u.isWord "extends" then
          advance u
          type n false
          let _ ← expect "?"
          type n true
          let _ ← expect ":"
          type n true

def returnType : Nat → Read Unit
  | 0 => throw .tooDeep
  | n + 1 => do
    let t ← peek
    let u ← peekAfter t
    if t.isWord "asserts" && !u.newline && (u.isName || u.isWord "this") then
      advance t
      advance u
      if (← peek).isWord "is" then
        let _ ← take
        type n true
    else if (t.isName || t.isWord "this") && u.isWord "is" && !u.newline then
      advance t
      advance u
      type n true
    else type n true

def unionType : Nat → Read Unit
  | 0 => throw .tooDeep
  | n + 1 => do
    let _ ← eat "|"
    intersectionType n
    unionRest n

def unionRest : Nat → Read Unit
  | 0 => throw .tooDeep
  | n + 1 => do
    if ← eat "|" then
      intersectionType n
      unionRest n

def intersectionType : Nat → Read Unit
  | 0 => throw .tooDeep
  | n + 1 => do
    let _ ← eat "&"
    operatorType n
    intersectionRest n

def intersectionRest : Nat → Read Unit
  | 0 => throw .tooDeep
  | n + 1 => do
    if ← eat "&" then
      operatorType n
      intersectionRest n

/-- A type under `keyof`, `unique`, `readonly` or `infer`, or a postfix type. -/
def operatorType : Nat → Read Unit
  | 0 => throw .tooDeep
  | n + 1 => do
    let t ← peek
    let u ← peekAfter t
    let operand := u.isName || u.isPunct "(" || u.isPunct "[" || u.isPunct "\x7b" ||
      u.isWord "typeof" || u.isWord "keyof" || u.isWord "this" || u.isWord "readonly" ||
      u.isWord "unique" || u.isWord "symbol" || u.isWord "import" || u.isWord "null" ||
      u.isWord "void" || u.isWord "infer"
    if (t.isWord "keyof" || t.isWord "unique" || t.isWord "readonly") && operand then
      advance t
      operatorType n
    else if t.isWord "infer" && u.isName then
      advance t
      advance u
      let v ← peek
      if v.isWord "extends" then
        let constrained ← attempt (do
          advance v
          type n false
          let w ← peek
          if w.isPunct "?" then reject w)
        if constrained.isNone then pure ()
    else
      primaryType n
      postfixTypes n

def postfixTypes : Nat → Read Unit
  | 0 => throw .tooDeep
  | n + 1 => do
    let t ← peek
    if t.isPunct "[" && !t.newline then
      advance t
      if !(← eat "]") then
        type n true
        let _ ← expect "]"
      postfixTypes n

/-- A type that is not built from others by an operator. -/
def primaryType : Nat → Read Unit
  | 0 => throw .tooDeep
  | n + 1 => do
    let t ← peek
    match t.kind with
    | .punct "(" =>
      advance t
      nested (type n true)
      let _ ← expect ")"
    | .punct "\x7b" => objectType n
    | .punct "[" => tupleType n
    | .punct "-" =>
      advance t
      let u ← take
      if u.kind != .number then reject u
    | .number | .string => advance t
    | .template closed =>
      advance t
      if !closed then templateType n
    | .word w =>
      if w == "typeof" then
        advance t
        let u ← peek
        if u.isWord "import" then importType n
        else
          let _ ← take
          entityRest n
          if (← peek).isPunct "<" then typeArgs n
      else if w == "import" then importType n
      else if w == "function" || w == "class" || w == "if" || w == "else" || w == "return" ||
          w == "var" || w == "let" || w == "const" || w == "for" || w == "while" || w == "do" ||
          w == "switch" || w == "case" || w == "break" || w == "continue" || w == "throw" ||
          w == "try" || w == "catch" || w == "finally" || w == "export" || w == "delete" ||
          w == "in" || w == "instanceof" || w == "extends" || w == "enum" || w == "debugger" ||
          w == "with" || w == "super" || w == "default" then
        reject t
      else
        advance t
        entityRest n
        let u ← peek
        if u.isPunct "<" && !u.newline then typeArgs n
    | _ => reject t

def entityRest : Nat → Read Unit
  | 0 => throw .tooDeep
  | n + 1 => do
    let t ← peek
    if t.isPunct "." then
      advance t
      let u ← take
      match u.kind with
      | .word _ | .privateName _ => entityRest n
      | _ => reject u

def importType : Nat → Read Unit
  | 0 => throw .tooDeep
  | n + 1 => do
    let _ ← expectWord "import"
    let _ ← expect "("
    let s ← take
    if s.kind != .string then reject s
    let _ ← expect ")"
    entityRest n
    if (← peek).isPunct "<" then typeArgs n

def templateType : Nat → Read Unit
  | 0 => throw .tooDeep
  | n + 1 => do
    nested (type n true)
    let close ← expect "\x7d"
    let src := (← read).src
    match templateEnd src src.size close.stop with
    | some (j, closed) =>
      set j
      if !closed then templateType n
    | none => throw (.at close.start)

def objectType : Nat → Read Unit
  | 0 => throw .tooDeep
  | n + 1 => do
    let openTok ← expect "\x7b"
    let t1 ← peek
    let t2 ← peekAfter t1
    let t3 ← peekAfter t2
    let t4 ← peekAfter t3
    let mapped :=
      t1.isPunct "+" || t1.isPunct "-" ||
      (t1.isWord "readonly" && (t2.isPunct "[" && t4.isWord "in")) ||
      (t1.isPunct "[" && (t2.kind matches .word _) && t3.isWord "in")
    let _ := openTok
    if mapped then
      nested (mappedBody n)
    else
      nested (typeMembers n)

/-- The inside of a mapped type, after `{`, through `}`. -/
def mappedBody : Nat → Read Unit
  | 0 => throw .tooDeep
  | n + 1 => do
    let t ← peek
    if t.isPunct "+" || t.isPunct "-" then advance t
    let _ ← eatWord "readonly"
    let _ ← expect "["
    let _ ← take
    let _ ← expectWord "in"
    type n true
    if ← eatWord "as" then type n true
    let _ ← expect "]"
    let u ← peek
    if u.isPunct "+" || u.isPunct "-" then
      advance u
      let _ ← expect "?"
    else
      let _ ← eat "?"
    if ← eat ":" then type n true
    let _ ← eat ";"
    let _ ← eat ","
    let _ ← expect "\x7d"

def typeMembers : Nat → Read Unit
  | 0 => throw .tooDeep
  | n + 1 => do
    let t ← peek
    if t.isPunct "\x7d" then advance t
    else
      typeMember n
      let u ← peek
      if u.isPunct "," || u.isPunct ";" then
        advance u
        typeMembers n
      else if u.isPunct "\x7d" || u.newline then typeMembers n
      else reject u

/-- One member of an object type: a property, method, call, construct or index signature, or
an accessor. -/
def typeMember : Nat → Read Unit
  | 0 => throw .tooDeep
  | n + 1 => do
    let t ← peek
    let u ← peekAfter t
    if t.isPunct "(" || t.isPunct "<" then
      signatureRest n
    else if t.isWord "new" && (u.isPunct "(" || u.isPunct "<") then
      advance t
      signatureRest n
    else if t.isPunct "[" && (u.kind matches .word _) && (← peekAfter u).isPunct ":" then
      indexSignature n
    else
      let modifier := (t.isWord "readonly" || t.isWord "get" || t.isWord "set") &&
        (u.isPropertyKey || u.isPunct "[") && !u.newline
      if modifier then advance t
      memberName n
      let _ ← eat "?"
      let v ← peek
      if v.isPunct "(" || v.isPunct "<" then signatureRest n
      else if ← eat ":" then type n true

def memberName : Nat → Read Unit
  | 0 => throw .tooDeep
  | _ + 1 => do
    let t ← peek
    if t.isPunct "[" then skipGroup
    else if t.isPropertyKey then advance t
    else reject t

def indexSignature : Nat → Read Unit
  | 0 => throw .tooDeep
  | n + 1 => do
    let _ ← expect "["
    let _ ← take
    let _ ← expect ":"
    type n true
    let _ ← expect "]"
    let _ ← eat "?"
    if ← eat ":" then type n true

def signatureRest : Nat → Read Unit
  | 0 => throw .tooDeep
  | n + 1 => do
    if (← peek).isPunct "<" then typeParams n
    typeParamList n
    if ← eat ":" then returnType n

def tupleType : Nat → Read Unit
  | 0 => throw .tooDeep
  | n + 1 => do
    let _ ← expect "["
    nested (tupleElements n)

def tupleElements : Nat → Read Unit
  | 0 => throw .tooDeep
  | n + 1 => do
    if ← eat "]" then pure ()
    else
      let _ ← eat "..."
      let t ← peek
      let u ← peekAfter t
      if (t.kind matches .word _) && (u.isPunct ":" || (u.isPunct "?" && (← peekAfter u).isPunct ":")) then
        advance t
        let _ ← eat "?"
        let _ ← expect ":"
      type n true
      let _ ← eat "?"
      if ← eat "," then tupleElements n
      else
        let _ ← expect "]"

def typeParams : Nat → Read Unit
  | 0 => throw .tooDeep
  | n + 1 => do
    let _ ← expect "<"
    nested (typeParamItems n)

/-- Type parameters through `>`. -/
def typeParamItems : Nat → Read Unit
  | 0 => throw .tooDeep
  | n + 1 => do
    if ← eat ">" then pure ()
    else
      let t ← peek
      let u ← peekAfter t
      if (t.isWord "const" || t.isWord "in" || t.isWord "out") && (u.kind matches .word _) then
        advance t
        let v ← peek
        let w ← peekAfter v
        if v.isWord "out" && (w.kind matches .word _) then advance v
      let name ← take
      if !(name.kind matches .word _) then reject name
      if ← eatWord "extends" then type n true
      if ← eat "=" then type n true
      if ← eat "," then typeParamItems n
      else
        let _ ← expect ">"

def typeArgs : Nat → Read Unit
  | 0 => throw .tooDeep
  | n + 1 => do
    let _ ← expect "<"
    nested (typeArgItems n)

def typeArgItems : Nat → Read Unit
  | 0 => throw .tooDeep
  | n + 1 => do
    if ← eat ">" then pure ()
    else
      type n true
      if ← eat "," then typeArgItems n
      else
        let _ ← expect ">"

def typeParamList : Nat → Read Unit
  | 0 => throw .tooDeep
  | n + 1 => do
    let _ ← expect "("
    nested (typeParamListItems n)

/-- Parameters of a function type through `)`. -/
def typeParamListItems : Nat → Read Unit
  | 0 => throw .tooDeep
  | n + 1 => do
    if ← eat ")" then pure ()
    else
      let _ ← eat "..."
      let t ← peek
      let u ← peekAfter t
      let isModifier := (t.isWord "public" || t.isWord "private" || t.isWord "protected" ||
        t.isWord "readonly" || t.isWord "override") && (u.kind matches .word _)
      if isModifier then advance t
      let p ← peek
      if p.isPunct "\x7b" || p.isPunct "[" then skipGroup
      else if p.kind matches .word _ then advance p
      else reject p
      let _ ← eat "?"
      if ← eat ":" then type n true
      if ← eat "=" then skipUntilSeparator ((← read).src.size + 1)
      if ← eat "," then typeParamListItems n
      else
        let _ ← expect ")"

end

def readType : Read Unit := do
  type ((← read).src.size * 4 + 64) true

def readReturnType : Read Unit := do
  returnType ((← read).src.size * 4 + 64)

def readTypeParams : Read Unit := do
  typeParams ((← read).src.size * 4 + 64)

def readTypeArgs : Read Unit := do
  typeArgs ((← read).src.size * 4 + 64)

def readObjectType : Read Unit := do
  objectType ((← read).src.size * 4 + 64)

end DocWeaver.Syntax
