import ApiDocs.Ids

set_option autoImplicit false

/-!
Types of the checker: shapes, signatures and the data of a type.
-/

namespace ApiDocs

/-- The types with a keyword of their own. -/
inductive Intrinsic where
  | any | unknown | string | number | bigint | symbol | void | undefined | null | never | object
deriving DecidableEq, Hashable, Repr

namespace Intrinsic

/-- The keyword types in the order in which an arena starts with them. -/
def all : List Intrinsic :=
  [.any, .unknown, .string, .number, .bigint, .symbol, .void, .undefined, .null, .never, .object]

def name : Intrinsic → String
  | .any => "any"
  | .unknown => "unknown"
  | .string => "string"
  | .number => "number"
  | .bigint => "bigint"
  | .symbol => "symbol"
  | .void => "void"
  | .undefined => "undefined"
  | .null => "null"
  | .never => "never"
  | .object => "object"

def ofName? (text : String) : Option Intrinsic := all.find? (·.name = text)

def isNullable (i : Intrinsic) : Bool := i = .undefined || i = .null

end Intrinsic

/-- A named member of an object. -/
structure Member where
  name : String
  type : TypeId
  optional : Bool
  readonly : Bool
  documentation : String
deriving DecidableEq, Repr

/-- A parameter of a signature; `defaultValue` is the text of its initializer. -/
structure Parameter where
  name : String
  type : TypeId
  optional : Bool
  rest : Bool
  defaultValue : Option String
  documentation : String
deriving DecidableEq, Repr

/-- A call or construct signature. -/
structure Signature where
  typeParams : List TypeId
  params : List Parameter
  result : TypeId
  documentation : String
deriving DecidableEq, Repr

/-- An index signature with the declared name of its parameter. -/
structure IndexInfo where
  keyName : String
  type : TypeId
deriving DecidableEq, Repr

/-- The members of an object type. -/
structure Shape where
  members : List Member := []
  call : List Signature := []
  construct : List Signature := []
  stringIndex : Option IndexInfo := none
  numberIndex : Option IndexInfo := none
  /-- The class or function that declares the object. -/
  symbol : Option SymbolId := none
deriving DecidableEq, Repr, Inhabited

namespace Shape

def member? (s : Shape) (name : String) : Option Member := s.members.find? (·.name = name)

/-- Adds a member unless there is one of that name. -/
def addMember (s : Shape) (m : Member) : Shape :=
  if (s.member? m.name).isSome then s else { s with members := s.members ++ [m] }

/-- Takes from `base` all that the shape lacks. -/
def inherit (s base : Shape) : Shape :=
  let merged := base.members.foldl addMember s
  { merged with
    call := if s.call.isEmpty then base.call else s.call
    construct := if s.construct.isEmpty then base.construct else s.construct
    stringIndex := s.stringIndex <|> base.stringIndex
    numberIndex := s.numberIndex <|> base.numberIndex }

end Shape

structure TypeParameter where
  name : String
  constraint : Option TypeId := none
  default : Option TypeId := none
deriving DecidableEq, Repr

/-- A `+` or `-` before a modifier of a mapped type. -/
inductive Modifier where
  | add | remove
deriving DecidableEq, Repr

/-- A mapped type: for every key of `constraint`, bound to `param`, a member of type `template`. -/
structure MappedType where
  param : TypeId
  constraint : TypeId
  template : TypeId
  optional : Option Modifier
  readonly : Option Modifier
deriving DecidableEq, Repr

/-- What a type is made of. -/
inductive TypeData where
  | intrinsic (i : Intrinsic)
  | booleanLiteral (value : Bool)
  | numberLiteral (text : String)
  | stringLiteral (value : String)
  | union (members : List TypeId)
  | intersection (members : List TypeId)
  | tuple (items : List TypeId)
  | object (shape : Shape)
  /-- An instance of an interface or class. -/
  | reference (symbol : SymbolId) (args : List TypeId)
  | typeParameter (param : TypeParameter)
  | keyOf (of : TypeId)
  | indexedAccess (object index : TypeId)
  | mapped (mapped : MappedType)
  /-- A type of which only the symbol is known. -/
  | nominal (symbol : SymbolId) (args : List TypeId)
  /-- A type of which only the name is known. -/
  | unresolved (name : String) (args : List TypeId)
deriving DecidableEq, Repr

/-- Types that have to be worked out; all others stand for themselves. -/
def TypeData.isOperator : TypeData → Bool
  | .keyOf _ => true
  | .indexedAccess _ _ => true
  | .mapped _ => true
  | _ => false

/-- The alias that a type was written as. -/
structure AliasRef where
  symbol : SymbolId
  args : List TypeId
deriving DecidableEq, Repr

structure TypeInfo where
  data : TypeData
  writtenAs : Option AliasRef := none
deriving DecidableEq, Repr

/-- What an alias stands for while its body is being read. -/
def TypeInfo.placeholder (s : SymbolId) : TypeInfo := { data := .nominal s [] }

instance : Inhabited TypeInfo := ⟨⟨.intrinsic .any, none⟩⟩

end ApiDocs
