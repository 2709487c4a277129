import DocWeaver.Syntax.Types

/-!
The grammar of statements and expressions of TypeScript, TSX and JavaScript.

Every reading function takes a depth bound first and fails with `Stop.tooDeep` when it runs
out. Statements give the outline `Item` they form; expressions give their outermost node as an
`ExprShape`, which is all that declarations need of them. Arrow functions are recognised by
looking past their parameter list for `=>`.
-/

namespace DocWeaver.Syntax

def assignOps : List String :=
  ["=", "+=", "-=", "*=", "/=", "%=", "**=", "<<=", "&=", "|=", "^=", "&&=", "||=", "??="]

/-- The binary operator at token `t`, with its precedence and its end: `??` binds weakest, then
`||`, `&&`, `|`, `^`, `&`, equality, relations (with `in`, `instanceof`, `as`, `satisfies`),
shifts, sums, products and `**`. -/
def binaryOp (sc : Scope) (t : Token) : Option (String × Nat × Nat) :=
  match t.kind with
  | .punct ">" =>
    let (op, stop) := greaterOp sc.src t
    if op == ">" || op == ">=" then some (op, 8, stop)
    else if op == ">>" || op == ">>>" then some (op, 9, stop)
    else none
  | .punct p =>
    let prec :=
      if p == "??" then 1 else if p == "||" then 2 else if p == "&&" then 3
      else if p == "|" then 4 else if p == "^" then 5 else if p == "&" then 6
      else if p == "==" || p == "!=" || p == "===" || p == "!==" then 7
      else if p == "<" || p == "<=" then 8
      else if p == "<<" then 9
      else if p == "+" || p == "-" then 10
      else if p == "*" || p == "/" || p == "%" then 11
      else if p == "**" then 12 else 0
    if prec == 0 then none else some (p, prec, t.stop)
  | .word w =>
    if w == "instanceof" || (w == "in" && !sc.noIn) then some (w, 8, t.stop)
    else if sc.dialect.typed && (w == "as" || w == "satisfies") && !t.newline then some (w, 8, t.stop)
    else none
  | _ => none

def assignOp (sc : Scope) (t : Token) : Option Nat :=
  match t.kind with
  | .punct ">" =>
    let (op, stop) := greaterOp sc.src t
    if op == ">>=" || op == ">>>=" then some stop else none
  | .punct p => if assignOps.contains p then some t.stop else none
  | _ => none

def jsxTextEnd (src : ByteArray) : Nat → Nat → Nat
  | 0, i => i
  | fuel + 1, i =>
    if i ≥ src.size then i
    else
      let b := byteAt src i
      if b == 60 || b == 123 || b == 62 || b == 125 || b == 38 then i
      else jsxTextEnd src fuel (i + 1)

def byteRunEnd (src : ByteArray) (p : UInt8 → Bool) : Nat → Nat → Nat
  | 0, i => i
  | n + 1, i => if i < src.size && p (byteAt src i) then byteRunEnd src p n (i + 1) else i

def charRefEnd (src : ByteArray) (i : Nat) : Option Nat :=
  let isDec (b : UInt8) : Bool := 48 ≤ b && b ≤ 57
  let isHex (b : UInt8) : Bool := isDec b || (97 ≤ b && b ≤ 102) || (65 ≤ b && b ≤ 70)
  let isLetter (b : UInt8) : Bool := (97 ≤ b && b ≤ 122) || (65 ≤ b && b ≤ 90)
  let from_ (k : Nat) (p : UInt8 → Bool) (n : Nat) : Option Nat :=
    let j := byteRunEnd src p n k
    if j > k && byteAt src j == 59 then some (j + 1) else none
  if byteAt src i != 38 then none
  else if byteAt src (i + 1) == 35 then
    let c := byteAt src (i + 2)
    if c == 120 || c == 88 then from_ (i + 3) isHex 6 else from_ (i + 2) isDec 5
  else from_ (i + 1) isLetter 30

def jsxIdentEnd (src : ByteArray) : Nat → Nat → Nat
  | 0, i => i
  | fuel + 1, i =>
    match charAt src i with
    | none => i
    | some (c, w) => if isIdentPart c || c == '-' then jsxIdentEnd src fuel (i + w) else i

def jsxStringEnd (src : ByteArray) (q : UInt8) : Nat → Nat → Option Nat
  | 0, _ => none
  | fuel + 1, i =>
    if i ≥ src.size then none
    else
      let b := byteAt src i
      if b == q then some (i + 1)
      else if b == 38 then
        let c := byteAt src (i + 1)
        if c == 35 || (97 ≤ c && c ≤ 122) || (65 ≤ c && c ≤ 90) then
          match charRefEnd src i with
          | some j => jsxStringEnd src q fuel j
          | none => none
        else if i + 1 ≥ src.size then none
        else jsxStringEnd src q fuel (i + 2)
      else jsxStringEnd src q fuel (i + 1)

def jsxIdent : Read Unit := do
  let t ← peek
  match charAt (← read).src t.start with
  | some (c, _) =>
    if isIdentStart c then set (jsxIdentEnd (← read).src ((← read).src.size + 1) t.start)
    else reject t
  | none => reject t

def jsxName : Nat → Read Unit
  | 0 => throw .tooDeep
  | n + 1 => do
    jsxIdent
    let t ← peek
    if (t.isPunct "." || t.isPunct ":") && t.start == (← get) then
      advance t
      jsxName n

def memberModifiers (typed : Bool) : List String :=
  if typed then
    ["public", "private", "protected", "static", "abstract", "override", "readonly", "declare",
     "async", "accessor", "get", "set"]
  else ["static", "async", "accessor", "get", "set"]

def Token.startsMemberName (u : Token) : Bool :=
  u.isPropertyKey || u.isPunct "[" || u.isPunct "*" || u.isPunct "\x7b"

def takeSpan : Read (Option Span) := do
  let t ← take
  pure (some ⟨t.start, t.stop⟩)

def takeEnd : Read Nat := do
  let t ← take
  pure t.stop

def typeListAux : Nat → Read Unit
  | 0 => throw .tooDeep
  | n + 1 => do
    readType
    if ← eat "," then typeListAux n

def typeList : Read Unit := do
  typeListAux ((← read).src.size + 1)

def memberEnd : Read Unit := do
  let sc ← read
  let t ← peek
  if t.isPunct ";" || (sc.dialect.typed && t.isPunct ",") then advance t
  else if t.isPunct "\x7d" then pure ()
  else if (autoSemicolon sc.src (← get)).isSome then pure ()
  else reject t

def importAttributes : Read Unit := do
  let t ← peek
  if (t.isWord "with" || t.isWord "assert") && !t.newline && (← peekAfter t).isPunct "\x7b" then
    advance t
    skipGroup

def namesClass (typed : Bool) (t : Token) : Bool :=
  t.isName && !(typed && t.isWord "implements")

def functionNamedAfter (t : Token) : Read Bool := do
  let u ← peekAfter t
  if u.isPunct "*" then pure (← peekAfter u).isName else pure u.isName

def tsDeclarationAhead (t u : Token) : Bool :=
  match t.word? with
  | some "interface" => (u.kind matches .word _)
  | some "type" => (u.kind matches .word _) && !u.newline
  | some "enum" => (u.kind matches .word _)
  | some "const" => u.isWord "enum"
  | some "namespace" => (u.kind matches .word _) && !u.newline
  | some "module" => ((u.kind matches .word _) || u.kind == .string) && !u.newline
  | some "declare" => (u.kind matches .word _) && !u.newline
  | some "global" => u.isPunct "\x7b"
  | _ => false

mutual

def expression : Nat → Read ExprShape
  | 0 => throw .tooDeep
  | n + 1 => do
    let s ← assignment n
    if ← endsHere then return s
    let t ← peek
    if t.isPunct "," then
      advance t
      let _ ← expression n
      pure .other
    else pure s
termination_by structural fuel => fuel

/-- An assignment expression: `yield`, an arrow function, or a conditional expression with an
optional assignment. -/
def assignment : Nat → Read ExprShape
  | 0 => throw .tooDeep
  | n + 1 => do
    let t ← peek
    if t.isWord "yield" then
      let u ← peekAfter t
      let bare := u.isPunct ")" || u.isPunct "]" || u.isPunct "\x7d" || u.isPunct "," ||
        u.isPunct ";" || u.isPunct ":" || u.isEof
      advance t
      if bare || (← endsHere) then return .other
      let _ ← eat "*"
      let _ ← assignment n
      return .other
    if ← arrowAhead n then
      return (← arrowFunction n)
    let left ← conditional n
    if ← endsHere then return left
    let u ← peek
    match assignOp (← read) u with
    | some stop =>
      set stop
      let _ ← assignment n
      pure .other
    | none => pure left
termination_by structural fuel => fuel

/-- An arrow function starts here. -/
def arrowAhead : Nat → Read Bool
  | 0 => throw .tooDeep
  | n + 1 => do
    let sc ← read
    let t ← peek
    let u ← peekAfter t
    if t.isName && u.isPunct "=>" then return true
    if t.isWord "async" && !u.newline && u.isName then
      return (← peekAfter u).isPunct "=>"
    let head : Read Bool := do
      if (← peek).isWord "async" then
        let _ ← take
      let v ← peek
      if v.isPunct "<" then
        if !sc.dialect.typed then return false
        readTypeParams
      let w ← peek
      if !w.isPunct "(" then return false
      skipGroup
      if sc.dialect.typed && (← eat ":") then readReturnType
      let w ← peek
      pure (w.isPunct "=>")
    if t.isPunct "(" || t.isPunct "<" || (t.isWord "async" && !u.newline && (u.isPunct "(" || u.isPunct "<")) then
      let r ← lookahead head
      let _ := n
      return r == some true
    return false

/-- An arrow function, from its start. -/
def arrowFunction : Nat → Read ExprShape
  | 0 => throw .tooDeep
  | n + 1 => do
    let sc ← read
    let t ← peek
    let start := t.start
    let u ← peekAfter t
    if t.isWord "async" && !u.isPunct "=>" then advance t
    let v ← peek
    let callable ← if v.isName then do
        advance v
        pure ({ params := [⟨⟨v.start, v.stop⟩, none⟩] } : Callable)
      else do
        if v.isPunct "<" then readTypeParams
        let params ← formalParams n
        let ret ← returnAnnotation n
        pure ({ params := params, returnType := ret } : Callable)
    let _ ← expect "=>"
    let b ← peek
    let bodySpan ← if b.isPunct "\x7b" then functionBody n else do
        let _ ← assignment n
        spanFrom b.start
    let span ← spanFrom start
    let _ := sc
    pure (.function span { name := none, body := some bodySpan, callable := callable })
termination_by structural fuel => fuel

def returnAnnotation : Nat → Read (Option Span)
  | 0 => throw .tooDeep
  | _ + 1 => do
    let sc ← read
    let t ← peek
    if sc.dialect.typed && t.isPunct ":" then
      advance t
      nested readReturnType
      return some (← spanFrom t.start)
    return none

def conditional : Nat → Read ExprShape
  | 0 => throw .tooDeep
  | n + 1 => do
    let left ← binary n 0
    if ← endsHere then return left
    let t ← peek
    if t.isPunct "?" then
      advance t
      let _ ← nested (assignment n)
      let _ ← expect ":"
      let _ ← assignment n
      pure .other
    else pure left
termination_by structural fuel => fuel

def binary : Nat → Nat → Read ExprShape
  | 0, _ => throw .tooDeep
  | n + 1, minPrec => do
    let left ← unary n
    binaryRest n minPrec left
termination_by structural fuel _ => fuel

def binaryRest : Nat → Nat → ExprShape → Read ExprShape
  | 0, _, _ => throw .tooDeep
  | n + 1, minPrec, left => do
    if ← endsHere then return left
    let t ← peek
    match binaryOp (← read) t with
    | some (op, prec, stop) =>
      if prec < minPrec then return left
      set stop
      if op == "as" || op == "satisfies" then
        let u ← peek
        if u.isWord "const" then advance u else readType
      else
        let _ ← binary n (if op == "**" then prec else prec + 1)
      binaryRest n minPrec .other
    | none => return left
termination_by structural fuel _ _ => fuel

/-- A unary expression: prefix operators, `await`, and type assertions `<T>x`. -/
def unary : Nat → Read ExprShape
  | 0 => throw .tooDeep
  | n + 1 => do
    let sc ← read
    let t ← peek
    match t.kind with
    | .punct p =>
      if p == "!" || p == "~" || p == "+" || p == "-" || p == "++" || p == "--" then
        advance t
        let _ ← unary n
        pure .other
      else if p == "<" && sc.dialect == .typescript then
        advance t
        nested readType
        let _ ← expect ">"
        let _ ← unary n
        pure .other
      else updateExpression n
    | .word w =>
      if w == "typeof" || w == "void" || w == "delete" then
        advance t
        let _ ← unary n
        pure .other
      else if w == "await" then
        let u ← peekAfter t
        let bare := u.isPunct ")" || u.isPunct "]" || u.isPunct "\x7d" || u.isPunct "," ||
          u.isPunct ";" || u.isPunct ":" || u.isPunct "=" || u.isPunct "." || u.isPunct "=>" ||
          u.isEof
        if bare then updateExpression n
        else
          advance t
          let _ ← unary n
          pure .other
      else updateExpression n
    | _ => updateExpression n
termination_by structural fuel => fuel

def updateExpression : Nat → Read ExprShape
  | 0 => throw .tooDeep
  | n + 1 => do
    let shape ← leftHand n
    if ← endsHere then return shape
    let t ← peek
    if (t.isPunct "++" || t.isPunct "--") && !t.newline then
      advance t
      pure .other
    else pure shape
termination_by structural fuel => fuel

def leftHand : Nat → Read ExprShape
  | 0 => throw .tooDeep
  | n + 1 => do
    let t ← peek
    let base ← if t.isWord "new" then newExpression n else primary n
    callTail n base
termination_by structural fuel => fuel

/-- Member accesses, calls, non-null assertions and tagged templates after an expression. -/
def callTail : Nat → ExprShape → Read ExprShape
  | 0, _ => throw .tooDeep
  | n + 1, shape => do
    if ← endsHere then return shape
    let sc ← read
    let t ← peek
    match t.kind with
    | .punct "." =>
      advance t
      let u ← take
      match u.kind with
      | .word _ | .privateName _ => callTail n .other
      | _ => reject u
    | .punct "?." =>
      advance t
      let u ← peek
      if u.isPunct "(" then arguments n
      else if u.isPunct "[" then
        advance u
        let _ ← nested (expression n)
        let _ ← expect "]"
      else if u.isPunct "<" && sc.dialect.typed then
        readTypeArgs
        arguments n
      else
        let _ ← take
        match u.kind with
        | .word _ | .privateName _ => pure ()
        | _ => reject u
      callTail n .other
    | .punct "[" =>
      advance t
      let _ ← nested (expression n)
      let _ ← expect "]"
      callTail n .other
    | .punct "(" =>
      arguments n
      callTail n .other
    | .template _ =>
      templateLiteral n
      callTail n .other
    | .punct "!" =>
      if sc.dialect.typed && !t.newline then
        advance t
        callTail n .other
      else return shape
    | .punct "<" =>
      if sc.dialect.typed then
        let ok ← attempt (do
          readTypeArgs
          let u ← peek
          if !(u.isPunct "(" || (u.kind matches .template _)) then reject u)
        if ok.isSome then callTail n .other else return shape
      else return shape
    | _ => return shape
termination_by structural fuel _ => fuel

/-- `new` with its callee and optional arguments, or `new.target`. -/
def newExpression : Nat → Read ExprShape
  | 0 => throw .tooDeep
  | n + 1 => do
    let sc ← read
    let _ ← expectWord "new"
    if ← eat "." then
      let _ ← take
      return .other
    let t ← peek
    if t.isWord "new" then
      let _ ← newExpression n
    else
      let _ ← primary n
      memberTail n
    if sc.dialect.typed && (← peek).isPunct "<" then
      let _ ← attempt readTypeArgs
    if (← peek).isPunct "(" then arguments n
    pure .other
termination_by structural fuel => fuel

/-- Member accesses without calls, as the callee of `new`. -/
def memberTail : Nat → Read Unit
  | 0 => throw .tooDeep
  | n + 1 => do
    let t ← peek
    match t.kind with
    | .punct "." =>
      advance t
      let _ ← take
      memberTail n
    | .punct "[" =>
      advance t
      let _ ← nested (expression n)
      let _ ← expect "]"
      memberTail n
    | .template _ =>
      templateLiteral n
      memberTail n
    | _ => pure ()
termination_by structural fuel => fuel

def arguments : Nat → Read Unit
  | 0 => throw .tooDeep
  | n + 1 => do
    let _ ← expect "("
    nested (argumentItems n)
termination_by structural fuel => fuel

def argumentItems : Nat → Read Unit
  | 0 => throw .tooDeep
  | n + 1 => do
    if ← eat ")" then return
    let _ ← eat "..."
    let _ ← assignment n
    if ← eat "," then argumentItems n
    else
      let _ ← expect ")"
termination_by structural fuel => fuel

def templateLiteral : Nat → Read Unit
  | 0 => throw .tooDeep
  | n + 1 => do
    let t ← take
    match t.kind with
    | .template true => pure ()
    | .template false => templateRest n
    | _ => reject t
termination_by structural fuel => fuel

def templateRest : Nat → Read Unit
  | 0 => throw .tooDeep
  | n + 1 => do
    let _ ← nested (expression n)
    let close ← expect "\x7d"
    let src := (← read).src
    match templateEnd src src.size close.stop with
    | some (j, closed) =>
      set j
      if !closed then templateRest n
    | none => throw (.at close.start)
termination_by structural fuel => fuel

/-- A primary expression. -/
def primary : Nat → Read ExprShape
  | 0 => throw .tooDeep
  | n + 1 => do
    let sc ← read
    let t ← peek
    match t.kind with
    | .number | .string | .privateName _ =>
      advance t
      pure .other
    | .template _ =>
      templateLiteral n
      pure .other
    | .punct "(" =>
      advance t
      let _ ← nested (expression n)
      let _ ← expect ")"
      pure .other
    | .punct "[" =>
      advance t
      nested (arrayItems n)
      pure .other
    | .punct "\x7b" =>
      advance t
      nested (objectMembers n)
      pure .other
    | .punct "/" | .punct "/=" =>
      match regexEnd sc.src sc.src.size (t.start + 1) false with
      | some j =>
        set j
        pure .other
      | none => throw (.at t.start)
    | .punct "<" =>
      if sc.dialect.jsx then
        nested (jsxElement n)
        pure .other
      else reject t
    | .punct "@" =>
      let _ ← decorators n
      classExpression n t.start
    | .word w =>
      if w == "function" then functionExpression n
      else if w == "async" && (← peekAfter t).isWord "function" && !(← peekAfter t).newline then
        functionExpression n
      else if w == "class" then classExpression n t.start
      else if w == "this" || w == "super" || w == "null" || w == "true" || w == "false" then
        advance t
        pure .other
      else if w == "import" then
        advance t
        let u ← peek
        if u.isPunct "(" then arguments n
        else if u.isPunct "." then
          advance u
          let _ ← take
        else reject u
        pure .other
      else if isReserved w then reject t
      else
        advance t
        pure .other
    | _ => reject t
termination_by structural fuel => fuel

def arrayItems : Nat → Read Unit
  | 0 => throw .tooDeep
  | n + 1 => do
    if ← eat "]" then return
    if ← eat "," then
      arrayItems n
    else
      let _ ← eat "..."
      let _ ← assignment n
      if ← eat "," then arrayItems n
      else
        let _ ← expect "]"
termination_by structural fuel => fuel

def objectMembers : Nat → Read Unit
  | 0 => throw .tooDeep
  | n + 1 => do
    if ← eat "\x7d" then return
    objectMember n
    if ← eat "," then objectMembers n
    else
      let _ ← expect "\x7d"
termination_by structural fuel => fuel

/-- One object literal member: spread, property, method, accessor or shorthand. -/
def objectMember : Nat → Read Unit
  | 0 => throw .tooDeep
  | n + 1 => do
    let t ← peek
    if t.isPunct "..." then
      advance t
      let _ ← assignment n
      return
    let u ← peekAfter t
    let modifier := (t.isWord "async" && !u.newline || t.isWord "get" || t.isWord "set") &&
      (u.isPropertyKey || u.isPunct "[" || u.isPunct "*")
    if modifier then advance t
    let _ ← eat "*"
    propertyKey n
    let v ← peek
    if v.isPunct "(" || v.isPunct "<" then
      let _ ← functionRest n none
    else if v.isPunct ":" || v.isPunct "=" then
      advance v
      let _ ← assignment n
    else pure ()
termination_by structural fuel => fuel

def propertyKey : Nat → Read Unit
  | 0 => throw .tooDeep
  | n + 1 => do
    let t ← peek
    if t.isPunct "[" then
      advance t
      let _ ← nested (assignment n)
      let _ ← expect "]"
    else if t.isPropertyKey then advance t
    else reject t
termination_by structural fuel => fuel

/-- Decorators `@x`, `@x.y(...)`, `@(expr)` before a class or member; their spans. -/
def decorators : Nat → Read (List Span)
  | 0 => throw .tooDeep
  | n + 1 => do
    let t ← peek
    if t.isPunct "@" then
      advance t
      let u ← peek
      if u.isPunct "(" then
        advance u
        let _ ← nested (expression n)
        let _ ← expect ")"
      else
        let _ ← take
        if !u.isName then reject u
        memberTail n
        if (← read).dialect.typed && (← peek).isPunct "<" then readTypeArgs
        if (← peek).isPunct "(" then arguments n
      let span ← spanFrom t.start
      let rest ← decorators n
      pure (span :: rest)
    else pure []
termination_by structural fuel => fuel

def functionExpression : Nat → Read ExprShape
  | 0 => throw .tooDeep
  | n + 1 => do
    let start := (← peek).start
    let _ ← eatWord "async"
    let _ ← expectWord "function"
    let _ ← eat "*"
    let t ← peek
    let name ← if t.isName then takeSpan else pure none
    let (shape, hasBody) ← functionRest n name
    if !hasBody then reject (← peek)
    pure (.function (← spanFrom start) shape)
termination_by structural fuel => fuel

def functionRest : Nat → Option Span → Read (FunctionShape × Bool)
  | 0, _ => throw .tooDeep
  | n + 1, name => do
    let sc ← read
    if sc.dialect.typed && (← peek).isPunct "<" then readTypeParams
    let params ← formalParams n
    let ret ← returnAnnotation n
    let t ← peek
    if t.isPunct "\x7b" then
      let body ← functionBody n
      pure ({ name, body := some body, callable := { params, returnType := ret } }, true)
    else
      pure ({ name, body := none, callable := { params, returnType := ret } }, false)
termination_by structural fuel _ => fuel

def functionBody : Nat → Read Span
  | 0 => throw .tooDeep
  | n + 1 => do
    let o ← expect "\x7b"
    nested (statementList n)
    let _ ← expect "\x7d"
    spanFrom o.start
termination_by structural fuel => fuel

def statementList : Nat → Read Unit
  | 0 => throw .tooDeep
  | n + 1 => do
    let t ← peek
    if t.isPunct "\x7d" then return
    if t.isEof then reject t
    let _ ← statement n
    statementList n
termination_by structural fuel => fuel

def formalParams : Nat → Read (List Param)
  | 0 => throw .tooDeep
  | n + 1 => do
    let _ ← expect "("
    nested (paramItems n)
termination_by structural fuel => fuel

def paramItems : Nat → Read (List Param)
  | 0 => throw .tooDeep
  | n + 1 => do
    if ← eat ")" then return []
    let p ← param n
    if ← eat "," then
      let rest ← paramItems n
      pure (p :: rest)
    else
      let _ ← expect ")"
      pure [p]
termination_by structural fuel => fuel

/-- One formal parameter: decorators and modifiers, binding, `?`, type annotation, default. -/
def param : Nat → Read Param
  | 0 => throw .tooDeep
  | n + 1 => do
    let sc ← read
    if sc.dialect.typed then
      let _ ← decorators n
      let t ← peek
      let u ← peekAfter t
      let mods := ["public", "private", "protected", "readonly", "override"]
      if (t.word?.map mods.contains).getD false && (u.isName || u.isPunct "\x7b" || u.isPunct "[" || u.isWord "readonly") then
        advance t
        let v ← peek
        let w ← peekAfter v
        if (v.isWord "readonly" || v.isWord "override") && (w.isName || w.isPunct "\x7b" || w.isPunct "[") then
          advance v
    let start := (← peek).start
    let _ ← eat "..."
    bindingTarget n
    let binding ← spanFrom start
    if sc.dialect.typed then
      let _ ← eat "?"
    let t ← peek
    let ann ← if sc.dialect.typed && t.isPunct ":" then do
        advance t
        readType
        pure (some (← spanFrom t.start))
      else pure none
    if ← eat "=" then
      let _ ← assignment n
    pure ⟨binding, ann⟩
termination_by structural fuel => fuel

def bindingTarget : Nat → Read Unit
  | 0 => throw .tooDeep
  | n + 1 => do
    let t ← peek
    if t.isPunct "\x7b" then
      advance t
      nested (objectPattern n)
    else if t.isPunct "[" then
      advance t
      nested (arrayPattern n)
    else if t.isName || ((← read).dialect.typed && t.isWord "this") then advance t
    else reject t
termination_by structural fuel => fuel

def objectPattern : Nat → Read Unit
  | 0 => throw .tooDeep
  | n + 1 => do
    if ← eat "\x7d" then return
    let t ← peek
    if t.isPunct "..." then
      advance t
      bindingTarget n
    else
      propertyKey n
      if ← eat ":" then bindingTarget n
      if ← eat "=" then
        let _ ← assignment n
    if ← eat "," then objectPattern n
    else
      let _ ← expect "\x7d"
termination_by structural fuel => fuel

def arrayPattern : Nat → Read Unit
  | 0 => throw .tooDeep
  | n + 1 => do
    if ← eat "]" then return
    if ← eat "," then
      arrayPattern n
    else
      let _ ← eat "..."
      bindingTarget n
      if ← eat "=" then
        let _ ← assignment n
      if ← eat "," then arrayPattern n
      else
        let _ ← expect "]"
termination_by structural fuel => fuel

def classExpression : Nat → Nat → Read ExprShape
  | 0, _ => throw .tooDeep
  | n + 1, start => do
    let _ ← expectWord "class"
    let shape ← classTail n
    pure (.klass (← spanFrom start) shape)
termination_by structural fuel _ => fuel

def classTail : Nat → Read ClassShape
  | 0 => throw .tooDeep
  | n + 1 => do
    let sc ← read
    let t ← peek
    let name ← if namesClass sc.dialect.typed t then do
        advance t
        pure (some (⟨t.start, t.stop⟩ : Span))
      else pure none
    if sc.dialect.typed && (← peek).isPunct "<" then readTypeParams
    if ← eatWord "extends" then
      let _ ← nested (leftHand n)
      if sc.dialect.typed && (← peek).isPunct "<" then readTypeArgs
    if sc.dialect.typed && (← eatWord "implements") then
      nested typeList
    let (body, members) ← classBody n
    pure { name, body, members }
termination_by structural fuel => fuel

def classBody : Nat → Read (Span × List Member)
  | 0 => throw .tooDeep
  | n + 1 => do
    let o ← expect "\x7b"
    let members ← nested (classMembers n)
    pure (← spanFrom o.start, members)
termination_by structural fuel => fuel

def classMembers : Nat → Read (List Member)
  | 0 => throw .tooDeep
  | n + 1 => do
    let t ← peek
    if t.isPunct "\x7d" then
      advance t
      return []
    if t.isPunct ";" then
      advance t
      return (← classMembers n)
    let ms ← classMember n
    let rest ← classMembers n
    pure (ms ++ rest)
termination_by structural fuel => fuel

/-- One class member with its decorators; in TypeScript a method's decorators are members of
their own before it. -/
def classMember : Nat → Read (List Member)
  | 0 => throw .tooDeep
  | n + 1 => do
    let sc ← read
    let typed := sc.dialect.typed
    let first := (← peek).start
    let decos ← decorators n
    let memberStart := (← peek).start
    let t ← peek
    let u ← peekAfter t
    if t.isWord "static" && u.isPunct "\x7b" then
      advance t
      let _ ← functionBody n
      return [.other (← spanFrom first)]
    let (isPrivate, isAbstract) ← memberModifierRun n false false
    let k ← peek
    let k2 ← peekAfter k
    if typed && k.isPunct "[" && (k2.kind matches .word _) && (← peekAfter k2).isPunct ":" then
      advance k
      let _ ← take
      let _ ← expect ":"
      nested readType
      let _ ← expect "]"
      if ← eat ":" then nested readType
      memberEnd
      return [.other (← spanFrom first)]
    let nameStart := (← peek).start
    propertyKey n
    let name ← spanFrom nameStart
    let nameText := (← read).src.extract name.start name.stop
    let privateName := nameText.size > 0 && byteAt nameText 0 == 35
    if typed then
      let q ← peek
      if q.isPunct "?" || q.isPunct "!" then advance q
    let v ← peek
    if v.isPunct "(" || v.isPunct "<" then
      let (shape, hasBody) ← functionRest n none
      if hasBody || (typed && isAbstract) then
        let span ← spanFrom (if typed then memberStart else first)
        let m := Member.method span name (isPrivate || privateName) shape.body shape.callable
        if typed then
          if !hasBody then memberEnd
          return (decos.map Member.decorator) ++ [m]
        else return [m]
      else if typed then
        let span ← spanFrom first
        memberEnd
        return [.other span]
      else reject (← peek)
    if typed && (← eat ":") then nested readType
    if ← eat "=" then
      let _ ← withAsi true (assignment n)
    let span ← spanFrom first
    memberEnd
    return [.other span]
termination_by structural fuel => fuel

/-- A run of member modifiers: whether `private` and whether `abstract` were among them. -/
def memberModifierRun : Nat → Bool → Bool → Read (Bool × Bool)
  | 0, _, _ => throw .tooDeep
  | n + 1, isPrivate, isAbstract => do
    let sc ← read
    let t ← peek
    let u ← peekAfter t
    match t.word? with
    | some w =>
      if (memberModifiers sc.dialect.typed).contains w && u.startsMemberName &&
          !(u.newline && (w == "async" || w == "get" || w == "set")) then
        advance t
        memberModifierRun n (isPrivate || w == "private") (isAbstract || w == "abstract")
      else pure (isPrivate, isAbstract)
    | none =>
      if t.isPunct "*" then
        advance t
        pure (isPrivate, isAbstract)
      else pure (isPrivate, isAbstract)
termination_by structural fuel _ _ => fuel

/-- A statement; its outline item. -/
def statement : Nat → Read Item
  | 0 => throw .tooDeep
  | n + 1 => withAsi true do
    let sc ← read
    let typed := sc.dialect.typed
    let t ← peek
    let u ← peekAfter t
    match t.kind with
    | .punct "\x7b" =>
      let _ ← functionBody n
      pure (.other (← spanFrom t.start))
    | .punct ";" =>
      advance t
      pure (.other ⟨t.start, t.stop⟩)
    | .punct "@" =>
      let _ ← decorators n
      let v ← peek
      if v.isWord "export" then exportStatement n t.start
      else if v.isWord "class" && !namesClass typed (← peekAfter v) then expressionStatement n
      else
        let d ← classDeclaration n t.start true
        pure (.decl d)
    | .word w =>
      if w == "var" || (w == "const" && !(typed && u.isWord "enum")) ||
          (w == "let" && (u.isName || u.isPunct "[" || u.isPunct "\x7b")) then
        pure (.decl (← variableDeclaration n))
      else if w == "function" || (w == "async" && u.isWord "function" && !u.newline) then
        if ← functionNamedAfter (if w == "function" then t else u) then
          pure (.decl (← functionDeclaration n t.start true))
        else expressionStatement n
      else if w == "class" && !namesClass typed u then expressionStatement n
      else if w == "class" || (typed && w == "abstract" && u.isWord "class" && !u.newline) then
        pure (.decl (← classDeclaration n t.start true))
      else if w == "if" then ifStatement n
      else if w == "for" then forStatement n
      else if w == "while" then
        advance t
        parenthesized n
        let body ← statement n
        pure (.other ⟨t.start, body.span.stop⟩)
      else if w == "do" then
        advance t
        let _ ← statement n
        let _ ← expectWord "while"
        parenthesized n
        let stop ← if (← peek).isPunct ";" then takeEnd else declarationEnd
        pure (.other ⟨t.start, stop⟩)
      else if w == "return" || w == "throw" then
        advance t
        let here ← get
        let stop ← if (← peek).isPunct ";" then takeEnd
          else match (if w == "return" then autoSemicolon sc.src here else none) with
            | some m => pure m
            | none => do
              let _ ← expression n
              semicolon
        pure (.other ⟨t.start, stop⟩)
      else if w == "break" || w == "continue" then
        advance t
        let v ← peek
        if v.isName && (autoSemicolon sc.src (← get)).isNone then advance v
        let stop ← semicolon
        pure (.other ⟨t.start, stop⟩)
      else if w == "try" then
        advance t
        let _ ← functionBody n
        let mut handled := false
        if ← eatWord "catch" then
          handled := true
          if ← eat "(" then
            nested (do
              bindingTarget n
              if typed && (← eat ":") then readType
              let _ ← expect ")")
          let _ ← functionBody n
        if ← eatWord "finally" then
          handled := true
          let _ ← functionBody n
        if !handled then reject (← peek)
        pure (.other (← spanFrom t.start))
      else if w == "switch" then
        advance t
        parenthesized n
        let _ ← expect "\x7b"
        nested (switchCases n)
        pure (.other (← spanFrom t.start))
      else if w == "with" then
        advance t
        parenthesized n
        let body ← statement n
        pure (.other ⟨t.start, body.span.stop⟩)
      else if w == "debugger" then
        advance t
        let stop ← semicolon
        pure (.other ⟨t.start, stop⟩)
      else if w == "import" && !(u.isPunct "(" || u.isPunct ".") then
        importDeclaration n
      else if w == "export" then exportStatement n t.start
      else if typed && tsDeclarationAhead t u then
        let d ← tsDeclaration n t.start
        pure (.decl d)
      else if t.isName && u.isPunct ":" then
        advance t
        advance u
        let body ← statement n
        pure (.other ⟨t.start, body.span.stop⟩)
      else expressionStatement n
    | _ => expressionStatement n
termination_by structural fuel => fuel

def expressionStatement : Nat → Read Item
  | 0 => throw .tooDeep
  | n + 1 => do
    let start := (← peek).start
    let _ ← expression n
    let stop ← semicolon
    pure (.other ⟨start, stop⟩)
termination_by structural fuel => fuel

def parenthesized : Nat → Read Unit
  | 0 => throw .tooDeep
  | n + 1 => do
    let _ ← expect "("
    let _ ← nested (expression n)
    let _ ← expect ")"
termination_by structural fuel => fuel

def ifStatement : Nat → Read Item
  | 0 => throw .tooDeep
  | n + 1 => do
    let t ← expectWord "if"
    parenthesized n
    let body ← statement n
    if (← peek).isWord "else" then
      let _ ← take
      let alt ← statement n
      pure (.other ⟨t.start, alt.span.stop⟩)
    else pure (.other ⟨t.start, body.span.stop⟩)
termination_by structural fuel => fuel

/-- A `for`, `for in` or `for of` statement. -/
def forStatement : Nat → Read Item
  | 0 => throw .tooDeep
  | n + 1 => do
    let t ← expectWord "for"
    let _ ← eatWord "await"
    let _ ← expect "("
    nested (do
      let v ← peek
      let w ← peekAfter v
      if v.isPunct ";" then
        advance v
        forClassicRest n
      else
        if v.isWord "var" || v.isWord "const" ||
            (v.isWord "let" && (w.isName || w.isPunct "[" || w.isPunct "\x7b")) then
          advance v
          let _ ← withReader (fun sc => { sc with noIn := true }) (declaratorList n)
        else
          let _ ← withReader (fun sc => { sc with noIn := true }) (expression n)
        let x ← peek
        if x.isWord "in" || x.isWord "of" then
          advance x
          let _ ← expression n
          let _ ← expect ")"
        else
          let _ ← expect ";"
          forClassicRest n)
    let body ← statement n
    pure (.other ⟨t.start, body.span.stop⟩)
termination_by structural fuel => fuel

def forClassicRest : Nat → Read Unit
  | 0 => throw .tooDeep
  | n + 1 => do
    if !(← eat ";") then
      let _ ← expression n
      let _ ← expect ";"
    if !(← eat ")") then
      let _ ← expression n
      let _ ← expect ")"
termination_by structural fuel => fuel

def switchCases : Nat → Read Unit
  | 0 => throw .tooDeep
  | n + 1 => do
    let t ← peek
    if t.isPunct "\x7d" then
      advance t
      return
    if t.isWord "case" then
      advance t
      let _ ← expression n
    else
      let _ ← expectWord "default"
    let _ ← expect ":"
    caseBody n
    switchCases n
termination_by structural fuel => fuel

def caseBody : Nat → Read Unit
  | 0 => throw .tooDeep
  | n + 1 => do
    let t ← peek
    if t.isPunct "\x7d" || t.isWord "case" || t.isWord "default" then return
    if t.isEof then reject t
    let _ ← statement n
    caseBody n
termination_by structural fuel => fuel

def variableDeclaration : Nat → Read Decl
  | 0 => throw .tooDeep
  | n + 1 => do
    let kw ← take
    let decls ← declaratorList n
    let stop ← semicolon
    pure (.variables ⟨kw.start, stop⟩ (kw.isWord "const") decls)
termination_by structural fuel => fuel

def declaratorList : Nat → Read (List Declarator)
  | 0 => throw .tooDeep
  | n + 1 => do
    let d ← declarator n
    if ← eat "," then
      let rest ← declaratorList n
      pure (d :: rest)
    else pure [d]
termination_by structural fuel => fuel

def declarator : Nat → Read Declarator
  | 0 => throw .tooDeep
  | n + 1 => do
    let sc ← read
    let start := (← peek).start
    bindingTarget n
    let name ← spanFrom start
    if sc.dialect.typed then
      let _ ← eat "!"
      if ← eat ":" then readType
    if ← eat "=" then
      let v ← assignment n
      pure ⟨name, some v⟩
    else pure ⟨name, none⟩
termination_by structural fuel => fuel

/-- A function declaration or, in TypeScript, a signature without a body; the name may be
missing only after `export default`. -/
def functionDeclaration : Nat → Nat → Bool → Read Decl
  | 0, _, _ => throw .tooDeep
  | n + 1, start, nameRequired => do
    let sc ← read
    let _ ← eatWord "async"
    let _ ← expectWord "function"
    let _ ← eat "*"
    let t ← peek
    let name ← if t.isName then takeSpan
      else if nameRequired then reject t else pure none
    let (shape, hasBody) ← functionRest n name
    if hasBody then
      let stop ← if name.isSome then declarationEnd else get
      pure (.function ⟨start, stop⟩ shape)
    else if sc.dialect.typed then
      let stop ← semicolon
      pure (.other ⟨start, stop⟩)
    else reject (← peek)
termination_by structural fuel _ _ => fuel

def classDeclaration : Nat → Nat → Bool → Read Decl
  | 0, _, _ => throw .tooDeep
  | n + 1, start, nameRequired => do
    let typed := (← read).dialect.typed
    let abstract ← eatWord "abstract"
    let _ ← expectWord "class"
    let t ← peek
    if (abstract || nameRequired) && !namesClass typed t then reject t
    let shape ← classTail n
    let stop ← if abstract || shape.name.isNone then get else declarationEnd
    pure (.klass ⟨start, stop⟩ shape)
termination_by structural fuel _ _ => fuel

/-- A TypeScript declaration: interface, type alias, enum, namespace or module, or an
ambient `declare` form. -/
def tsDeclaration : Nat → Nat → Read Decl
  | 0, _ => throw .tooDeep
  | n + 1, start => do
    let t ← take
    match t.word? with
    | some "interface" =>
      let name ← take
      if (← peek).isPunct "<" then readTypeParams
      if ← eatWord "extends" then nested typeList
      let b ← peek
      readObjectType
      pure (.interface (← spanFrom start) ⟨name.start, name.stop⟩ (← spanFrom b.start))
    | some "type" =>
      let name ← take
      if (← peek).isPunct "<" then readTypeParams
      let _ ← expect "="
      readType
      let stop ← semicolon
      pure (.typeAlias ⟨start, stop⟩ ⟨name.start, name.stop⟩)
    | some "const" =>
      let _ ← expectWord "enum"
      let _ ← take
      enumBody n
      pure (.other (← spanFrom start))
    | some "enum" =>
      let _ ← take
      enumBody n
      pure (.other (← spanFrom start))
    | some "namespace" | some "module" | some "global" =>
      if !t.isWord "global" then
        let _ ← take
        namespaceRest n
      if (← peek).isPunct "\x7b" then
        let _ ← functionBody n
        pure (.other (← spanFrom start))
      else
        let stop ← semicolon
        pure (.other ⟨start, stop⟩)
    | some "declare" =>
      let u ← peek
      let v ← peekAfter u
      if u.isWord "var" || u.isWord "let" || u.isWord "const" && !v.isWord "enum" then
        let _ ← variableDeclaration n
      else if u.isWord "function" || u.isWord "async" then
        let _ ← functionDeclaration n u.start true
      else if u.isWord "class" || u.isWord "abstract" then
        let _ ← classDeclaration n u.start true
      else if tsDeclarationAhead u v then
        let _ ← tsDeclaration n u.start
      else reject u
      pure (.other (← spanFrom start))
    | _ => reject t
termination_by structural fuel _ => fuel

def namespaceRest : Nat → Read Unit
  | 0 => throw .tooDeep
  | n + 1 => do
    if ← eat "." then
      let _ ← take
      namespaceRest n
termination_by structural fuel => fuel

def enumBody : Nat → Read Unit
  | 0 => throw .tooDeep
  | n + 1 => do
    let _ ← expect "\x7b"
    nested (enumMembers n)
termination_by structural fuel => fuel

def enumMembers : Nat → Read Unit
  | 0 => throw .tooDeep
  | n + 1 => do
    if ← eat "\x7d" then return
    propertyKey n
    if ← eat "=" then
      let _ ← assignment n
    if ← eat "," then enumMembers n
    else
      let _ ← expect "\x7d"
termination_by structural fuel => fuel

/-- An import declaration. -/
def importDeclaration : Nat → Read Item
  | 0 => throw .tooDeep
  | n + 1 => do
    let sc ← read
    let t ← expectWord "import"
    let u ← peek
    if u.kind == .string then
      advance u
      importAttributes
      let stop ← semicolon
      return .other ⟨t.start, stop⟩
    let v ← peekAfter u
    if sc.dialect.typed && u.isWord "type" && (v.isName || v.isPunct "\x7b" || v.isPunct "*") &&
        !v.isWord "from" then
      advance u
    let a ← peek
    let b ← peekAfter a
    if sc.dialect.typed && a.isName && b.isPunct "=" then
      advance a
      advance b
      let c ← peek
      if c.isWord "require" then
        advance c
        let _ ← expect "("
        let _ ← take
        let _ ← expect ")"
      else
        let _ ← take
        namespaceRest n
      let stop ← semicolon
      return .other ⟨t.start, stop⟩
    if a.isName then
      advance a
      if ← eat "," then importClause n
    else importClause n
    let _ ← expectWord "from"
    let s ← take
    if s.kind != .string then reject s
    importAttributes
    let stop ← semicolon
    pure (.other ⟨t.start, stop⟩)

def importClause : Nat → Read Unit
  | 0 => throw .tooDeep
  | n + 1 => do
    let t ← peek
    if t.isPunct "*" then
      advance t
      let _ ← expectWord "as"
      let _ ← take
    else if t.isPunct "\x7b" then
      advance t
      nested (specifiers n)
    else reject t

def specifiers : Nat → Read Unit
  | 0 => throw .tooDeep
  | n + 1 => do
    if ← eat "\x7d" then return
    let t ← peek
    let u ← peekAfter t
    if t.isWord "type" && (u.kind matches .word _ || u.kind == .string) && !u.isWord "as" then
      advance t
    let v ← take
    if !((v.kind matches .word _) || v.kind == .string) then reject v
    if ← eatWord "as" then
      let w ← take
      if !((w.kind matches .word _) || w.kind == .string) then reject w
    if ← eat "," then specifiers n
    else
      let _ ← expect "\x7d"
termination_by structural fuel => fuel

/-- An export statement from its start (decorators, if any, already taken). -/
def exportStatement : Nat → Nat → Read Item
  | 0, _ => throw .tooDeep
  | n + 1, start => do
    let sc ← read
    let typed := sc.dialect.typed
    let _ ← expectWord "export"
    let t ← peek
    let u ← peekAfter t
    match t.kind with
    | .word "default" =>
      advance t
      let v ← peek
      let w ← peekAfter v
      if v.isWord "function" || (v.isWord "async" && w.isWord "function" && !w.newline) then
        let d ← functionDeclaration n v.start false
        match d with
        | .function s f =>
          if f.name.isSome then return .export ⟨start, s.stop⟩ (some d)
          else
            let stop ← semicolon
            return .export ⟨start, stop⟩ (some d)
        | _ => return .export ⟨start, d.span.stop⟩ none
      else if v.isWord "class" || v.isPunct "@" || (typed && v.isWord "abstract" && w.isWord "class") then
        let _ ← decorators n
        let d ← classDeclaration n v.start false
        match d with
        | .klass s c =>
          if c.name.isSome then return .export ⟨start, s.stop⟩ (some d)
          else
            let stop ← semicolon
            return .export ⟨start, stop⟩ (some d)
        | _ => return .export ⟨start, d.span.stop⟩ none
      else if typed && v.isWord "interface" then
        let d ← tsDeclaration n v.start
        return .export ⟨start, d.span.stop⟩ (some d)
      else
        let shape ← expression n
        let valueSpan ← spanFrom v.start
        let stop ← semicolon
        return .export ⟨start, stop⟩ (some (shape.asDecl valueSpan))
    | .punct "*" =>
      advance t
      if ← eatWord "as" then
        let _ ← take
      let _ ← expectWord "from"
      let _ ← take
      importAttributes
      let stop ← semicolon
      return .export ⟨start, stop⟩ none
    | .punct "\x7b" =>
      advance t
      nested (specifiers n)
      if ← eatWord "from" then
        let _ ← take
        importAttributes
      let stop ← semicolon
      return .export ⟨start, stop⟩ none
    | .punct "=" =>
      if !typed then reject t
      advance t
      let _ ← expression n
      let stop ← semicolon
      return .export ⟨start, stop⟩ none
    | .punct "@" =>
      let _ ← decorators n
      let d ← classDeclaration n t.start true
      return .export ⟨start, d.span.stop⟩ (some d)
    | .word w =>
      if typed && w == "as" && u.isWord "namespace" then
        advance t
        advance u
        let _ ← take
        let stop ← semicolon
        return .export ⟨start, stop⟩ none
      if typed && w == "type" && (u.isPunct "\x7b" || u.isPunct "*") then
        advance t
        if ← eat "*" then
          if ← eatWord "as" then
            let _ ← take
          let _ ← expectWord "from"
          let _ ← take
        else
          let _ ← expect "\x7b"
          nested (specifiers n)
          if ← eatWord "from" then
            let _ ← take
        let stop ← semicolon
        return .export ⟨start, stop⟩ none
      if typed && w == "import" then
        advance t
        let _ ← take
        let _ ← expect "="
        let _ ← take
        namespaceRest n
        let stop ← semicolon
        return .export ⟨start, stop⟩ none
      let d ←
        if w == "var" || w == "let" || (w == "const" && !(typed && u.isWord "enum")) then
          variableDeclaration n
        else if w == "function" || (w == "async" && u.isWord "function" && !u.newline) then
          functionDeclaration n t.start true
        else if w == "class" || (typed && w == "abstract" && u.isWord "class") then
          classDeclaration n t.start true
        else if typed && tsDeclarationAhead t u then
          tsDeclaration n t.start
        else reject t
      return .export ⟨start, d.span.stop⟩ (some d)
    | _ => reject t
termination_by structural fuel _ => fuel

def jsxElement : Nat → Read Unit
  | 0 => throw .tooDeep
  | n + 1 => do
    let _ ← expect "<"
    if ← eat ">" then
      jsxChildren n
      let _ ← expect ">"
    else
      jsxName n
      let selfClosing ← jsxAttributes n
      if !selfClosing then
        jsxChildren n
        if !(← peek).isPunct ">" then jsxName n
        let _ ← expect ">"
termination_by structural fuel => fuel

/-- JSX attributes up to `/>` (true) or `>` (false), which are taken. -/
def jsxAttributes : Nat → Read Bool
  | 0 => throw .tooDeep
  | n + 1 => do
    let t ← peek
    if t.isPunct "/" then
      advance t
      let _ ← expect ">"
      return true
    if t.isPunct ">" then
      advance t
      return false
    if t.isPunct "\x7b" then
      advance t
      let _ ← expect "..."
      let _ ← assignment n
      let _ ← expect "\x7d"
      return (← jsxAttributes n)
    jsxName n
    if ← eat "=" then
      let src := (← read).src
      match skipTrivia src src.size (← get) false with
      | .error p => throw (.at p)
      | .ok (i, _) =>
        let q := byteAt src i
        if q == 34 || q == 39 then
          match jsxStringEnd src q src.size (i + 1) with
          | some j => set j
          | none => throw (.at i)
        else
          let v ← peek
          if v.isPunct "\x7b" then
            advance v
            let _ ← nested (assignment n)
            let _ ← expect "\x7d"
          else if v.isPunct "<" then jsxElement n
          else reject v
    jsxAttributes n
termination_by structural fuel => fuel

/-- JSX children up to and including the `</` of the closing tag. -/
def jsxChildren : Nat → Read Unit
  | 0 => throw .tooDeep
  | n + 1 => do
    let src := (← read).src
    let j := jsxTextEnd src (src.size + 1) (← get)
    set j
    if j ≥ src.size then throw .atEnd
    let b := byteAt src j
    if b == 62 || b == 125 then throw (.at j)
    if b == 38 then
      match charRefEnd src j with
      | some k =>
        set k
        jsxChildren n
      | none => throw (.at j)
    else if b == 123 then
      set (j + 1)
      if !(← eat "\x7d") then
        let _ ← eat "..."
        let _ ← expression n
        let _ ← expect "\x7d"
      jsxChildren n
    else
      let lt ← peek
      let after ← peekAfter lt
      if after.isPunct "/" then
        advance lt
        advance after
      else
        jsxElement n
        jsxChildren n
termination_by structural fuel => fuel

end

end DocWeaver.Syntax
