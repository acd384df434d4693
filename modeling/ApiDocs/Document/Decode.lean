import ApiDocs.Json.Basic
import ApiDocs.Document.Package

set_option autoImplicit false

/-!
Reading documents from JSON. A record is an object or an array of its fields in order; what has
a kind is told apart by it.
-/

namespace ApiDocs

namespace Json

mutual

/-- How deep arrays and objects are nested. -/
def depth : Json → Nat
  | .array items => depthOfItems items + 1
  | .object fields => depthOfFields fields + 1
  | .null => 1
  | .bool _ => 1
  | .number _ => 1
  | .string _ => 1
  | .broken => 1

def depthOfItems : List Json → Nat
  | [] => 0
  | item :: rest => max (depth item) (depthOfItems rest)

def depthOfFields : List (String × Json) → Nat
  | [] => 0
  | (_, value) :: rest => max (depth value) (depthOfFields rest)

end

/-- The only value under a name: none is fine, two are not. -/
def single? (name : String) (fields : List (String × Json)) : Option (Option Json) :=
  match fields.filter (·.1 = name) with
  | [] => some none
  | [(_, value)] => some (some value)
  | _ => none

/-- The values of a record's fields. A record is an object, whose other fields do not matter, or an
array of the values in order, of which the last may be missing. -/
def record? (names : List String) : Json → Option (List (Option Json))
  | .array items =>
      if items.length ≤ names.length then some (names.zipIdx.map fun (_, i) => items[i]?) else none
  | .object fields => names.mapM (single? · fields)
  | _ => none

/-- The value of a field that must be there. -/
def required {α : Type} (read : Json → Option α) : Option Json → Option α
  | some value => read value
  | none => none

/-- The value of a field that may be absent or null. -/
def nullable {α : Type} (read : Json → Option α) : Option Json → Option (Option α)
  | none => some none
  | some .null => some none
  | some value => (read value).map some

end Json

open Json

/-- The kinds of type trees, in the order of their numbers. -/
def Bound.kindNames : List String :=
  ["Named", "Object", "Tuple", "Function", "Intersection", "Union", "BooleanLiteral",
    "NumberLiteral", "StringLiteral"]

namespace Bound

/-- The name of a kind. Inside another document a kind can also be given by its number. -/
def kind? (inner : Bool) : Json → Option String
  | .string name => if kindNames.contains name then some name else none
  | doc => if inner then doc.asNat?.bind (kindNames[·]?) else none

/-- Takes the kind out of a tagged record: it is a field of an object, or the first of an array. -/
def untag? (inner : Bool) : Json → Option (String × Json)
  | .array (tag :: items) => do return (← kind? inner tag, .array items)
  | .object fields => do
      let tag ← single? "kind" fields
      return (← kind? inner (← tag), .object (fields.filter (·.1 ≠ "kind")))
  | _ => none

def property? (read : Json → Option Bound) (doc : Json) : Option Property := do
  match ← record? ["name", "documentation", "type", "optional", "defaultValue"] doc with
  | [name, documentation, type, isOptional, defaultValue] =>
      return ⟨← required asText? name, ← required asText? documentation, ← required read type,
        ← required asBool? isOptional, ← nullable asText? defaultValue⟩
  | _ => none

def indexPart? (read : Json → Option Bound) (doc : Json) : Option IndexEntry := do
  match ← record? ["name", "type"] doc with
  | [name, type] => return ⟨← required asText? name, ← required read type⟩
  | _ => none

/-- Reads the fields of a tree of the given kind; `read` reads its parts. -/
def ofFields? (read : Json → Option Bound) (kind : String) (doc : Json) : Option Bound :=
  match kind with
  | "Named" => do
      match ← record? ["name", "parameters", "id", "importedFrom"] doc with
      | [name, parameters, key, origin] =>
          return .named (← required asText? name) (← nullable (asList? read) parameters)
            (← nullable asText? key) (← nullable asText? origin)
      | _ => none
  | "Object" => do
      match ← record? ["properties", "index"] doc with
      | [properties, index] =>
          return .object (← required (asList? (property? read)) properties)
            (← nullable (indexPart? read) index)
      | _ => none
  | "Tuple" => do
      match ← record? ["properties"] doc with
      | [items] => return .tuple (← required (asList? read) items)
      | _ => none
  | "Function" => do
      match ← record? ["typeParameters", "parameters", "returnType"] doc with
      | [typeParameters, parameters, result] =>
          return .function (← nullable (asList? read) typeParameters)
            (← required (asList? (property? read)) parameters) (← required read result)
      | _ => none
  | "Intersection" => do
      match ← record? ["types"] doc with
      | [members] => return .intersection (← required (asList? read) members)
      | _ => none
  | "Union" => do
      match ← record? ["types"] doc with
      | [members] => return .union (← required (asList? read) members)
      | _ => none
  | "BooleanLiteral" => do
      match ← record? ["value"] doc with
      | [value] => return .booleanLiteral (← required asText? value)
      | _ => none
  | "NumberLiteral" => do
      match ← record? ["value"] doc with
      | [value] => return .numberLiteral (← required asText? value)
      | _ => none
  | "StringLiteral" => do
      match ← record? ["value"] doc with
      | [value] => return .stringLiteral (← required asText? value)
      | _ => none
  | _ => none

/-- Reads a tree whose document is nested at most as deep as the number says. -/
def decodeAt : Nat → Bool → Json → Option Bound
  | 0, _, _ => none
  | n + 1, inner, doc => do
      let (kind, fields) ← untag? inner doc
      ofFields? (decodeAt n true) kind fields

def decode (doc : Json) : Option Bound := decodeAt doc.depth false doc

/-- Reads a tree inside a declaration. -/
def decodeInner (doc : Json) : Option Bound := decodeAt doc.depth true doc

end Bound

open ApiDocs.Bound

def properties? (doc : Json) : Option (List Property) := asList? (property? decodeInner) doc

def DocEntry.decode (doc : Json) : Option DocEntry := do
  match ← record? ["name", "documentation", "type"] doc with
  | [name, documentation, type] =>
      return ⟨← required asText? name, ← required asText? documentation,
        ← required decodeInner type⟩
  | _ => none

def ConstructorEntry.decode (doc : Json) : Option ConstructorEntry := do
  match ← record? ["documentation", "parameters"] doc with
  | [documentation, parameters] =>
      return ⟨← required asText? documentation, ← required properties? parameters⟩
  | _ => none

def FunctionEntry.decode (doc : Json) : Option FunctionEntry := do
  match ← record? ["name", "documentation", "typeParameters", "parameters", "returnType"] doc with
  | [name, documentation, typeParameters, parameters, result] =>
      return ⟨← required asText? name, ← required asText? documentation,
        ⟨← nullable (asList? decodeInner) typeParameters, ← required properties? parameters,
          ← required decodeInner result⟩⟩
  | _ => none

def ExportedIn.decode (doc : Json) : Option ExportedIn := do
  match ← record? ["path", "name"] doc with
  | [path, name] => return ⟨← required asText? path, ← required asText? name⟩
  | _ => none

/-- Reads the own fields of a declaration of the given kind. -/
def DeclarationBody.decode (kind : String) (doc : Json) : Option DeclarationBody :=
  match kind with
  | "Component" => do
      match ← record? ["properties"] doc with
      | [properties] => return .component (← required properties? properties)
      | _ => none
  | "Type" => do
      match ← record? ["type", "parameters"] doc with
      | [bound, parameters] =>
          return .type (← required decodeInner bound) (← nullable (asList? decodeInner) parameters)
      | _ => none
  | "Class" => do
      match ← record? ["properties", "constructors", "methods"] doc with
      | [properties, constructors, methods] =>
          return .classDecl (← required (asList? DocEntry.decode) properties)
            (← required (asList? ConstructorEntry.decode) constructors)
            (← required (asList? FunctionEntry.decode) methods)
      | _ => none
  | "Function" => do
      match ← record? ["typeParameters", "parameters", "returnType"] doc with
      | [typeParameters, parameters, result] =>
          return .function ⟨← nullable (asList? decodeInner) typeParameters,
            ← required properties? parameters, ← required decodeInner result⟩
      | _ => none
  | "Variable" => do
      match ← record? ["type", "value"] doc with
      | [bound, value] => return .variable (← required decodeInner bound) (← required asText? value)
      | _ => none
  | _ => none

/-- A declaration is an object that holds its kind, the common fields and its own ones. -/
def Declaration.decode (doc : Json) : Option Declaration := do
  match doc with
  | .object _ =>
      match ← record? ["kind", "id", "name", "documentation", "exportedIn"] doc with
      | [kind, id, name, documentation, exportedIn] =>
          let kind ← required asText? kind
          return ⟨← required asText? id, ← required asText? name, ← required asText? documentation,
            ← required (asList? ExportedIn.decode) exportedIn, ← DeclarationBody.decode kind doc⟩
      | _ => none
  | _ => none

def Reexport.decode (doc : Json) : Option Reexport := do
  match ← record? ["name", "srcName", "path", "id"] doc with
  | [name, sourceName, path, id] =>
      return ⟨← required asText? name, ← required asText? sourceName, ← required asText? path,
        ← required asText? id⟩
  | _ => none

/-- A table is an object; of a repeated key the last value counts. -/
def OrdMap.decode {α : Type} (read : Json → Option α) : Json → Option (OrdMap String α)
  | .object fields => do return OrdMap.ofList (← fields.mapM fun (key, value) =>
      (read value).map (key, ·))
  | _ => none

def Module.decode (doc : Json) : Option Module := do
  match ← record? ["name", "srcPath", "outPath", "declarations", "reexports"] doc with
  | [name, sourcePath, outPath, declarations, reexports] =>
      return ⟨← required asText? name, ← required asText? sourcePath, ← required asText? outPath,
        ← required (OrdMap.decode Declaration.decode) declarations,
        ← required (asList? Reexport.decode) reexports⟩
  | _ => none

def Package.decode (doc : Json) : Option Package := do
  match ← record? ["name", "outDir", "mainModule", "typeDeclaration", "declarationModule",
      "modules", "readmes"] doc with
  | [name, outDir, mainModule, typeDeclaration, declarationModule, modules, readmes] =>
      return ⟨← required asText? name, ← required asText? outDir, ← nullable asText? mainModule,
        ← required (OrdMap.decode asText?) typeDeclaration,
        ← required (OrdMap.decode asText?) declarationModule,
        ← required (OrdMap.decode Module.decode) modules,
        ← required (OrdMap.decode asText?) readmes⟩
  | _ => none

end ApiDocs
