import ApiDocs.Program

set_option autoImplicit false

/-!
What the names of a program mean. A name has a meaning as a type and one as a value, in two spaces
that do not touch.
-/

namespace ApiDocs

open Syntax

inductive Space where
  | type
  | value
deriving Repr, DecidableEq

inductive SymbolKind where
  | typeAlias | interface | classDecl | function | variable | enum | namespaceDecl
  /-- An import or export specifier, followed on demand. -/
  | redirect
  /-- A name from a package without typings. -/
  | external
  /-- All exports of a file under one name. -/
  | moduleNamespace
deriving Repr, DecidableEq

/-- Kinds whose declarations under one name make one symbol. -/
def SymbolKind.merges : SymbolKind → Bool
  | .interface => true
  | .function => true
  | .namespaceDecl => true
  | _ => false

/-- What declares a symbol. -/
inductive DeclNode where
  | typeAlias (decl : AliasDecl)
  | interface (interface : InterfaceDecl)
  | classDecl (class_ : ClassExpr)
  | function (function : FunctionExpr)
  | variable (isConst : Bool) (declarator : Declarator)
  | enum
  | namespaceDecl
  | imported (specifier : String) (name : ImportName)
  /-- Another name of a local symbol. -/
  | localAlias (name : String)
  | external (module : String)
  | moduleNamespace (file : FileId)

structure SymbolDecl where
  file : FileId
  doc : DocComment
  node : DeclNode

/-- The names of one scope. -/
structure SymbolTable where
  types : OrdMap String SymbolId := .empty
  values : OrdMap String SymbolId := .empty
deriving Repr

namespace SymbolTable

def get? (t : SymbolTable) (space : Space) (name : String) : Option SymbolId :=
  match space with
  | .type => t.types.get? name
  | .value => t.values.get? name

/-- The first symbol under a name stays. -/
def insert (t : SymbolTable) (space : Space) (name : String) (id : SymbolId) : SymbolTable :=
  match space with
  | .type => { t with types := t.types.insertNew name id }
  | .value => { t with values := t.values.insertNew name id }

def insertAll (t : SymbolTable) (spaces : List Space) (name : String) (id : SymbolId) :
    SymbolTable :=
  spaces.foldl (fun t space => t.insert space name id) t

end SymbolTable

structure Symbol where
  name : String
  kind : SymbolKind
  /-- The enclosing namespace. -/
  parent : Option SymbolId
  /-- Whether the symbol is declared in the global scope. -/
  global : Bool
  decls : List SymbolDecl
  /-- The members of a namespace. -/
  members : SymbolTable := {}

/-- The scope of a file. -/
structure FileScope where
  isModule : Bool := false
  locals : SymbolTable := {}
  exports : SymbolTable := {}
  /-- The specifiers of the wildcard exports. -/
  stars : List String := []

/-- The symbols of a program. -/
structure Bindings where
  symbols : Array Symbol := #[]
  files : Array FileScope := #[]
  global : SymbolTable := {}
  externals : OrdMap (String × String) SymbolId := .empty
  moduleNamespaces : OrdMap FileId SymbolId := .empty

namespace Bindings

def symbol? (b : Bindings) (id : SymbolId) : Option Symbol := b.symbols[id.index]?

def scope (b : Bindings) (file : FileId) : FileScope := (b.files[file.index]?).getD {}

def kind? (b : Bindings) (id : SymbolId) : Option SymbolKind := (b.symbol? id).map (·.kind)

def decls (b : Bindings) (id : SymbolId) : List SymbolDecl :=
  ((b.symbol? id).map (·.decls)).getD []

def nameOf (b : Bindings) (id : SymbolId) : String := ((b.symbol? id).map (·.name)).getD ""

/-- The file of the first declaration. -/
def fileOf? (b : Bindings) (id : SymbolId) : Option FileId :=
  (b.decls id).head?.map (·.file)

def parent? (b : Bindings) (id : SymbolId) : Option SymbolId :=
  (b.symbol? id).bind (·.parent)

def addSymbol (b : Bindings) (s : Symbol) : SymbolId × Bindings :=
  (⟨b.symbols.size⟩, { b with symbols := b.symbols.push s })

def enclosingFrom (b : Bindings) : Nat → Option SymbolId → List SymbolId
  | n + 1, some id => id :: enclosingFrom b n (b.parent? id)
  | _, _ => []

/-- A symbol and the namespaces around it, the innermost first. Each is declared before what it
holds, so the place of the symbol bounds their number. -/
def enclosing (b : Bindings) (id : Option SymbolId) : List SymbolId :=
  b.enclosingFrom (b.symbols.size + 1) id

/-- The symbol that a name stands for in a file, inside a namespace if there is one: namespaces
from the inside out, then the file, then the global scope. -/
def lookup (b : Bindings) (file : FileId) (namespace_ : Option SymbolId) (space : Space)
    (name : String) : Option SymbolId :=
  let inNamespaces := (b.enclosing namespace_).findSome? fun id =>
    (b.symbol? id).bind fun s => s.members.get? space name
  let scope := b.scope file
  inNamespaces <|> (if scope.isModule then scope.locals.get? space name else none) <|>
    b.global.get? space name

end Bindings

end ApiDocs
