import ApiDocs.DocComment
import ApiDocs.Number.Binary64
import ApiDocs.Ty.Basic

set_option autoImplicit false

/-!
The syntax tree. It keeps what the documentation of a program depends on: declarations, types,
values and doc comments. Nodes hold no positions; where the documentation shows a piece of the
source, the node holds its text.
-/

namespace ApiDocs.Syntax

open Number

/-- A name with its qualifiers, such as `A.B.c`. -/
inductive Entity where
  | ident (name : String)
  | qualified (left : Entity) (right : String)
deriving Repr, DecidableEq

def Entity.text : Entity → String
  | .ident name => name
  | .qualified left right => left.text ++ "." ++ right

inductive UnaryOp where
  | minus | plus | tilde | not | typeOf | void | delete
deriving Repr, DecidableEq

/-- Binary operators by the type of their result: comparisons give a boolean, `arithmetic` ones a
number. -/
inductive BinaryOp where
  | compare | and | or | nullish | add | arithmetic
deriving Repr, DecidableEq

mutual

/-- A type as it is written. Parentheses, `readonly`, `unique` and the marks of optional and rest
items leave no trace. -/
inductive TypeExpr where
  | intrinsic (i : Intrinsic)
  | boolean
  | this
  | function (signature : SignatureExpr)
  | constructor (signature : SignatureExpr)
  | reference (name : Entity) (args : List TypeExpr)
  | query (name : Entity)
  | members (members : List TypeMember)
  | array (item : TypeExpr)
  | tuple (items : List TypeExpr)
  | union (members : List TypeExpr)
  | intersection (members : List TypeExpr)
  /-- A type that is known by its text only: conditional, inferred and imported types. -/
  | verbatim (text : String)
  | keyOf (of : TypeExpr)
  | indexed (object index : TypeExpr)
  | mapped (param : String) (constraint : TypeExpr) (template : Option TypeExpr)
      (optional readonly : Option Modifier)
  | booleanLiteral (value : Bool)
  | numberLiteral (value : Binary64)
  | stringLiteral (value : String)

structure TypeParam where
  name : String
  constraint : Option TypeExpr
  default : Option TypeExpr

structure SignatureExpr where
  typeParams : List TypeParam
  params : List Pattern
  result : Option TypeExpr

/-- The parameter and the type of an index signature. -/
structure IndexExpr where
  keyName : String
  keyType : Option TypeExpr
  type : Option TypeExpr

/-- A member of a type literal or an interface. Members without a plain name are left out; a getter
is a property. -/
inductive TypeMember where
  | property (name : String) (type : Option TypeExpr) (optional readonly : Bool) (doc : DocComment)
  | method (name : String) (signature : SignatureExpr) (optional : Bool) (doc : DocComment)
  | setter (name : String) (param : Pattern) (doc : DocComment)
  | call (signature : SignatureExpr) (doc : DocComment)
  | construct (signature : SignatureExpr) (doc : DocComment)
  | index (index : IndexExpr)

/-- What a declaration binds: a name, or the parts of an array or an object. -/
inductive Pattern where
  | ident (name : String) (optional : Bool) (type : Option TypeExpr)
  | array (items : List (Option Pattern)) (optional : Bool) (type : Option TypeExpr)
  | object (properties : List PatternProperty) (optional : Bool) (type : Option TypeExpr)
  /-- A pattern with a default value and the text of that value. -/
  | default (left : Pattern) (value : Expr) (text : String)
  | rest (of : Pattern) (type : Option TypeExpr)

inductive PatternProperty where
  /-- A computed key has no name. -/
  | keyed (name : Option String) (value : Pattern)
  | shorthand (name : String) (value : Option Expr)
  | rest (of : Pattern)

inductive Expr where
  | ident (name : String)
  | this
  | null
  | boolean (value : Bool)
  | number (value : Binary64)
  | bigint
  | string (value : String)
  | regex
  /-- A template without substitutions has its text as value. -/
  | template (text : Option String)
  /-- The items of an array, holes left out; `true` marks a spread. -/
  | array (items : List (Bool × Expr))
  | object (properties : List ObjectProperty)
  | function (function : FunctionExpr)
  /-- A JSX element or fragment. -/
  | element
  | paren (of : Expr)
  | cast (type : TypeExpr)
  /-- A form that has the type of its operand: non-null and constant assertions, `satisfies`, and
  optional chains. -/
  | wrapped (of : Expr)
  /-- An expression with type arguments; `text` is the expression alone. -/
  | instantiation (of : Expr) (text : String) (args : List TypeExpr)
  | await (of : Expr)
  | unary (op : UnaryOp) (of : Expr)
  | update
  | binary (op : BinaryOp) (left right : Expr)
  | conditional (whenTrue whenFalse : Expr)
  | assign (value : Expr)
  | sequence (last : Expr)
  | member (object : Expr) (name : String)
  | computed (object index : Expr)
  | privateMember (object : Expr)
  | call (callee : Expr) (typeArgs : Option (List TypeExpr)) (args : List Expr)
  | new (callee : Expr) (typeArgs : Option (List TypeExpr)) (args : List Expr)
  /-- An expression of no known type. -/
  | other

/-- A property of an object literal. Computed ones are left out. -/
inductive ObjectProperty where
  | spread (of : Expr)
  | shorthand (name : String) (doc : DocComment)
  | keyed (name : String) (value : Expr) (doc : DocComment)
  | assign (name : String) (value : Expr) (doc : DocComment)
  | getter (name : String) (type : Option TypeExpr) (body : Option (List Stmt)) (doc : DocComment)
  | setter (name : String) (doc : DocComment)
  | method (name : String) (function : FunctionExpr) (doc : DocComment)

inductive Body where
  | none
  | block (statements : List Stmt)
  | expr (value : Expr)

/-- A function, method or arrow function. -/
structure FunctionExpr where
  typeParams : List TypeParam
  params : List Pattern
  result : Option TypeExpr
  body : Body
  isAsync : Bool
  isGenerator : Bool

structure Declarator where
  name : Pattern
  init : Option Expr
  /-- The text of the initializer. -/
  initText : String

/-- A statement of a function body. -/
inductive Stmt where
  | return (value : Option Expr)
  /-- The statements inside a block, branch, loop, switch or try statement, in order. -/
  | block (statements : List Stmt)
  | variableList (isConst : Bool) (declarators : List Declarator)
  | function (name : String) (function : FunctionExpr)
  | other

end

deriving instance Inhabited for TypeExpr, Pattern, PatternProperty, Expr, Body, Stmt

def Body.isWritten : Body → Bool
  | .none => false
  | _ => true

/-- A base of an interface, and its text without type arguments. -/
structure Heritage where
  expr : Expr
  text : String
  args : List TypeExpr

structure InterfaceDecl where
  name : String
  typeParams : List TypeParam
  bases : List Heritage
  members : List TypeMember

structure AliasDecl where
  name : String
  typeParams : List TypeParam
  type : TypeExpr

inductive MethodKind where
  | method | getter | setter
deriving Repr, DecidableEq

/-- A parameter of a constructor; one with a modifier declares a property too. -/
structure ConstructorParam where
  pattern : Pattern
  isProperty : Bool
  readonly : Bool

/-- An instance member of a class. Members that are static, private by name or computed are left
out. -/
inductive ClassMember where
  | property (name : String) (type : Option TypeExpr) (value : Option Expr)
      (optional readonly : Bool) (doc : DocComment)
  | method (name : String) (function : FunctionExpr) (kind : MethodKind) (optional : Bool)
      (doc : DocComment)
  | constructor (params : List ConstructorParam) (hasBody : Bool) (doc : DocComment)
  | index (index : IndexExpr)

structure ClassExpr where
  typeParams : List TypeParam
  base : Option Expr
  baseArgs : List TypeExpr
  members : List ClassMember

mutual

/-- A declaration, at the top of a file or in a namespace. -/
inductive Decl where
  | classDecl (name : String) (class_ : ClassExpr)
  | function (name : String) (function : FunctionExpr)
  | variableList (isConst : Bool) (declarators : List Declarator)
  | interface (interface : InterfaceDecl)
  | typeAlias (decl : AliasDecl)
  | enum (name : String)
  | namespaceDecl (name : String) (body : NamespaceBody)
  | other

inductive NamespaceBody where
  /-- The declarations of a block, exported or not. -/
  | block (declarations : List (DocComment × Decl))
  /-- The rest of a dotted name. -/
  | nested (name : String) (doc : DocComment) (body : NamespaceBody)

end

inductive DefaultDecl where
  | classDecl (name : Option String) (class_ : ClassExpr)
  | function (name : Option String) (function : FunctionExpr)
  | interface (interface : InterfaceDecl)

inductive ExportSpecifier where
  | named (source : String) (exported : Option String)
  | default (name : String)
  | wholeModule (name : String)
deriving Repr, DecidableEq

/-- What an import takes from a module. -/
inductive ImportName where
  | named (name : String)
  | default
  | wholeModule
deriving Repr, DecidableEq

structure ImportSpecifier where
  localName : String
  name : ImportName
deriving Repr, DecidableEq

inductive ItemKind where
  /-- A statement that declares nothing. -/
  | statement
  | decl (decl : Decl)
  | exportDecl (decl : Decl)
  | exportDefault (decl : DefaultDecl)
  /-- A default export of a value, with its name if it is one. -/
  | exportValue (name : Option String)
  | exportNamed (specifiers : List ExportSpecifier) (source : Option String)
  | exportAll (source : String)
  | importFrom (specifiers : List ImportSpecifier) (source : String)
  /-- Any other import or export form. -/
  | otherModule

def ItemKind.isModule : ItemKind → Bool
  | .statement => false
  | .decl _ => false
  | _ => true

/-- A top-level item with the places where it starts and ends and the raw doc comment before it. -/
structure Item where
  start : Nat
  stop : Nat
  rawDoc : Option String
  doc : DocComment
  kind : ItemKind

/-- A parsed source file. -/
structure SourceText where
  path : String
  text : Array Char
  items : List Item

namespace SourceText

/-- A file with an import or export is a module; any other one declares globals. -/
def isModule (s : SourceText) : Bool := s.items.any (·.kind.isModule)

end SourceText

end ApiDocs.Syntax
