import ApiDocs.Document.Package

set_option autoImplicit false

/-!
The type keys of a whole package, in the order in which a reader meets them, and their renaming.
-/

namespace ApiDocs

open ApiDocs.Bound

def SignatureBound.keys (s : SignatureBound) : List String :=
  (s.typeParameters.map keysOfAll).getD [] ++ keysOfProperties s.parameters ++ s.result.keys

def SignatureBound.mapKeys (rename : String → String) (s : SignatureBound) : SignatureBound :=
  ⟨s.typeParameters.map (mapKeysOfAll rename), mapKeysOfProperties rename s.parameters,
    s.result.mapKeys rename⟩

def DeclarationBody.keys : DeclarationBody → List String
  | .component properties => keysOfProperties properties
  | .type bound parameters => bound.keys ++ (parameters.map keysOfAll).getD []
  | .classDecl properties constructors methods =>
      properties.flatMap (·.type.keys) ++ constructors.flatMap (keysOfProperties ·.parameters) ++
        methods.flatMap (·.signature.keys)
  | .function signature => signature.keys
  | .variable bound _ => bound.keys

def FunctionEntry.mapKeys (rename : String → String) (f : FunctionEntry) : FunctionEntry :=
  { f with signature := f.signature.mapKeys rename }

def DeclarationBody.mapKeys (rename : String → String) : DeclarationBody → DeclarationBody
  | .component properties => .component (mapKeysOfProperties rename properties)
  | .type bound parameters => .type (bound.mapKeys rename) (parameters.map (mapKeysOfAll rename))
  | .classDecl properties constructors methods =>
      .classDecl (properties.map fun e => { e with type := e.type.mapKeys rename })
        (constructors.map fun c => { c with parameters := mapKeysOfProperties rename c.parameters })
        (methods.map (·.mapKeys rename))
  | .function signature => .function (signature.mapKeys rename)
  | .variable bound value => .variable (bound.mapKeys rename) value

namespace Package

/-- All type keys of the package: those of its types as a reader meets them, then those of the table
of type declarations. -/
def typeKeys (p : Package) : List String :=
  (p.modules.values.flatMap fun m => m.declarations.values.flatMap (·.body.keys)) ++
    p.typeDeclaration.keys

def mapKeys (rename : String → String) (p : Package) : Package :=
  { p with
    modules := p.modules.map fun m =>
      { m with
        declarations := m.declarations.map fun d => { d with body := d.body.mapKeys rename } }
    typeDeclaration := .ofList (p.typeDeclaration.entries.map fun (key, id) => (rename key, id)) }

end Package

/-- The name of a key by its place among the distinct ones. -/
def numberedKey (distinct : List String) (key : String) : String :=
  match distinct.idxOf? key with
  | some n => "t" ++ toString n
  | none => key

/-- The package with its keys numbered as they appear. -/
def Package.withNumberedKeys (p : Package) : Package :=
  p.mapKeys (numberedKey p.typeKeys.eraseDups)

end ApiDocs
