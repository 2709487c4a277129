/-!
The outline of a source file: the part of its syntax tree that declarations are read from.

A file is a list of top-level items in source order: statements and the comments between
them. A class body is likewise a list of members and the comments between them. Every node
carries the byte span `[start, stop)` of its tokens; a comment inside a node's span belongs to
that node and is not an item of the list around it.
-/

namespace DocWeaver.Syntax

/-- A stretch of source bytes `[start, stop)`. -/
structure Span where
  start : Nat
  stop : Nat
  deriving Repr, DecidableEq, Inhabited

/-- A formal parameter: the span of its binding (the bound name or pattern, with a leading
`...`) and of its type annotation, colon included, when it has one. -/
structure Param where
  binding : Span
  annotation : Option Span
  deriving Repr, DecidableEq, Inhabited

/-- What can be called: its parameters and the span of its return type annotation. -/
structure Callable where
  params : List Param := []
  returnType : Option Span := none
  deriving Repr, DecidableEq, Inhabited

/-- A member of a class body, in the order of the body. Only methods with a body and abstract
method signatures are `method`s; fields, index signatures, overload signatures and static
blocks are `other`. In TypeScript the decorators of a method stand before it as members of
their own. -/
inductive Member where
  | comment (span : Span)
  | decorator (span : Span)
  | method (span : Span) (name : Span) (isPrivate : Bool) (body : Option Span) (callable : Callable)
  | other (span : Span)
  deriving Repr, DecidableEq, Inhabited

/-- A function declaration, function expression, generator or arrow function: its name if it
has one, the span of its body (an arrow's expression body too) and what it takes. -/
structure FunctionShape where
  name : Option Span
  body : Option Span
  callable : Callable
  deriving Repr, DecidableEq, Inhabited

/-- A class declaration or expression: its name if it has one, the span of its body and the
members of the body. -/
structure ClassShape where
  name : Option Span
  body : Span
  members : List Member
  deriving Repr, DecidableEq, Inhabited

/-- The outermost node of an expression, as far as declarations care. -/
inductive ExprShape where
  | function (span : Span) (shape : FunctionShape)
  | klass (span : Span) (shape : ClassShape)
  | other
  deriving Repr, DecidableEq, Inhabited

/-- One binding of a variable declaration: the span of the bound name or pattern and the
outermost node of its initial value. -/
structure Declarator where
  name : Span
  value : Option ExprShape
  deriving Repr, DecidableEq, Inhabited

/-- A node that a declaration may be read from. -/
inductive Decl where
  | function (span : Span) (shape : FunctionShape)
  | klass (span : Span) (shape : ClassShape)
  | interface (span : Span) (name : Span) (body : Span)
  | typeAlias (span : Span) (name : Span)
  | variables (span : Span) (isConst : Bool) (declarators : List Declarator)
  | other (span : Span)
  deriving Repr, DecidableEq, Inhabited

def Decl.span : Decl → Span
  | .function s _ | .klass s _ | .interface s _ _ | .typeAlias s _ | .variables s _ _ | .other s => s

/-- A top-level item of a file. An `export` statement holds the declaration or value it
exports, if it exports one. -/
inductive Item where
  | comment (span : Span)
  | export (span : Span) (inner : Option Decl)
  | decl (d : Decl)
  | other (span : Span)
  deriving Repr, DecidableEq, Inhabited

def Item.span : Item → Span
  | .comment s | .export s _ | .other s => s
  | .decl d => d.span

def ExprShape.asDecl (span : Span) : ExprShape → Decl
  | .function s f => .function s f
  | .klass s c => .klass s c
  | .other => .other span

end DocWeaver.Syntax
