import ApiDocs.OrdMap
import ApiDocs.Document.Bound

set_option autoImplicit false

/-!
The document of a package: its modules, their declarations and the tables between them.
-/

namespace ApiDocs

/-- A named value with its type. -/
structure DocEntry where
  name : String
  documentation : String
  type : Bound
deriving Repr

/-- A named call signature. -/
structure FunctionEntry where
  name : String
  documentation : String
  signature : SignatureBound
deriving Repr

/-- A construct signature of a class. -/
structure ConstructorEntry where
  documentation : String
  parameters : List Property
deriving Repr

/-- A module that exports a declaration of another one, and the name it gives it. -/
structure ExportedIn where
  path : String
  name : String
deriving Repr, DecidableEq

/-- What a declaration holds, by its kind. -/
inductive DeclarationBody where
  | component (properties : List Property)
  | type (type : Bound) (parameters : Option (List Bound))
  | classDecl (properties : List DocEntry) (constructors : List ConstructorEntry)
      (methods : List FunctionEntry)
  | function (signature : SignatureBound)
  | variable (type : Bound) (value : String)
deriving Repr

/-- The kinds of declarations. -/
inductive DeclarationKind where
  | component | type | classDecl | function | variable
deriving Repr, DecidableEq

/-- One exported, documented unit. -/
structure Declaration where
  id : String
  name : String
  documentation : String
  exportedIn : List ExportedIn := []
  body : DeclarationBody
deriving Repr

def Declaration.kind (d : Declaration) : DeclarationKind :=
  match d.body with
  | .component .. => .component
  | .type .. => .type
  | .classDecl .. => .classDecl
  | .function .. => .function
  | .variable .. => .variable

def DeclarationKind.text : DeclarationKind → String
  | .component => "Component"
  | .type => "Type"
  | .classDecl => "Class"
  | .function => "Function"
  | .variable => "Variable"

/-- An edge from a module to the declaration of another one that it exports. The id is empty as long
as the declaration has not been found. -/
structure Reexport where
  name : String
  sourceName : String
  path : String
  id : String := ""
deriving Repr, DecidableEq

def Reexport.isResolved (edge : Reexport) : Bool := edge.id != ""

/-- What one source file exports: declarations by id, and edges. -/
structure Module where
  name : String
  sourcePath : String
  outPath : String
  declarations : OrdMap String Declaration := .empty
  reexports : List Reexport := []
deriving Repr

def Module.declarationNamed? (m : Module) (name : String) : Option Declaration :=
  m.declarations.values.find? (·.name = name)

/-- The documentation of a package. -/
structure Package where
  name : String
  outDir : String
  mainModule : Option String := none
  /-- The declaration of each type key. -/
  typeDeclaration : OrdMap String String := .empty
  /-- The module of each declaration. -/
  declarationModule : OrdMap String String := .empty
  modules : OrdMap String Module := .empty
  readmes : OrdMap String String := .empty
deriving Repr

namespace Package

def empty (name outDir : String) : Package := { name, outDir }

/-- The declaration with that id, in the module that the id is recorded for. -/
def declaration? (p : Package) (id : String) : Option Declaration := do
  let m ← p.modules.get? (← p.declarationModule.get? id)
  m.declarations.get? id

def declarationForType? (p : Package) (key : String) : Option Declaration :=
  (p.typeDeclaration.get? key).bind p.declaration?

def declarationCount (p : Package) : Nat := p.modules.total (·.declarations.size)

/-- The first declaration of that name in any module. -/
def find? (p : Package) (name : String) : Option Declaration :=
  p.modules.values.findSome? (·.declarationNamed? name)

/-- A table that refers to declarations by id. -/
inductive Place where
  | typeDeclaration | declarationModule | reexports
deriving Repr, DecidableEq

/-- Every id that the package refers to, with the table that does. -/
def referencedIds (p : Package) : List (Place × String) :=
  p.typeDeclaration.values.map (.typeDeclaration, ·) ++
    p.declarationModule.keys.map (.declarationModule, ·) ++
    p.modules.values.flatMap fun m =>
      (m.reexports.filter (·.isResolved)).map fun edge => (.reexports, edge.id)

end Package

end ApiDocs
