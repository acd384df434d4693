import ApiDocs.Json.Basic
import ApiDocs.Document.Package

set_option autoImplicit false

/-!
Writing documents as JSON. Absent parts are left out, and the fields keep one order.
-/

namespace ApiDocs

open Json

namespace Bound

mutual

def encode : Bound → Json
  | .named name none key origin =>
      .object ([("kind", .string "Named"), ("name", .string name)] ++
        optionalField "id" .string key ++ optionalField "importedFrom" .string origin)
  | .named name (some parameters) key origin =>
      .object ([("kind", .string "Named"), ("name", .string name),
        ("parameters", .array (encodeAll parameters))] ++
        optionalField "id" .string key ++ optionalField "importedFrom" .string origin)
  | .object properties none =>
      .object [("kind", .string "Object"), ("properties", .array (encodeProperties properties))]
  | .object properties (some ⟨name, type⟩) =>
      .object [("kind", .string "Object"), ("properties", .array (encodeProperties properties)),
        ("index", .object [("name", .string name), ("type", encode type)])]
  | .tuple items =>
      .object [("kind", .string "Tuple"), ("properties", .array (encodeAll items))]
  | .function none parameters result =>
      .object [("kind", .string "Function"), ("parameters", .array (encodeProperties parameters)),
        ("returnType", encode result)]
  | .function (some typeParameters) parameters result =>
      .object [("kind", .string "Function"), ("typeParameters", .array (encodeAll typeParameters)),
        ("parameters", .array (encodeProperties parameters)), ("returnType", encode result)]
  | .intersection members =>
      .object [("kind", .string "Intersection"), ("types", .array (encodeAll members))]
  | .union members =>
      .object [("kind", .string "Union"), ("types", .array (encodeAll members))]
  | .booleanLiteral value => .object [("kind", .string "BooleanLiteral"), ("value", .string value)]
  | .numberLiteral value => .object [("kind", .string "NumberLiteral"), ("value", .string value)]
  | .stringLiteral value => .object [("kind", .string "StringLiteral"), ("value", .string value)]

def encodeAll : List Bound → List Json
  | [] => []
  | bound :: rest => encode bound :: encodeAll rest

def encodeProperties : List Property → List Json
  | [] => []
  | ⟨name, documentation, type, isOptional, defaultValue⟩ :: rest =>
      .object ([("name", .string name), ("documentation", .string documentation),
        ("type", encode type), ("optional", .bool isOptional)] ++
        optionalField "defaultValue" .string defaultValue) :: encodeProperties rest

end

end Bound

open ApiDocs.Bound

def SignatureBound.fields (s : SignatureBound) : List (String × Json) :=
  optionalField "typeParameters" (fun bounds => .array (encodeAll bounds)) s.typeParameters ++
    [("parameters", .array (encodeProperties s.parameters)), ("returnType", s.result.encode)]

def DocEntry.encode (e : DocEntry) : Json :=
  .object [("name", .string e.name), ("documentation", .string e.documentation),
    ("type", e.type.encode)]

def FunctionEntry.encode (f : FunctionEntry) : Json :=
  .object ([("name", .string f.name), ("documentation", .string f.documentation)] ++
    f.signature.fields)

def ConstructorEntry.encode (c : ConstructorEntry) : Json :=
  .object [("documentation", .string c.documentation),
    ("parameters", .array (encodeProperties c.parameters))]

def ExportedIn.encode (e : ExportedIn) : Json :=
  .object [("path", .string e.path), ("name", .string e.name)]

def DeclarationBody.fields : DeclarationBody → List (String × Json)
  | .component properties => [("properties", .array (encodeProperties properties))]
  | .type bound parameters =>
      ("type", bound.encode) ::
        optionalField "parameters" (fun bounds => .array (encodeAll bounds)) parameters
  | .classDecl properties constructors methods =>
      [("properties", ofList DocEntry.encode properties),
        ("constructors", ofList ConstructorEntry.encode constructors),
        ("methods", ofList FunctionEntry.encode methods)]
  | .function signature => signature.fields
  | .variable bound value => [("type", bound.encode), ("value", .string value)]

def Declaration.encode (d : Declaration) : Json :=
  .object ([("kind", .string d.kind.text), ("id", .string d.id), ("name", .string d.name),
    ("documentation", .string d.documentation),
    ("exportedIn", ofList ExportedIn.encode d.exportedIn)] ++ d.body.fields)

def Reexport.encode (edge : Reexport) : Json :=
  .object [("name", .string edge.name), ("srcName", .string edge.sourceName),
    ("path", .string edge.path), ("id", .string edge.id)]

def OrdMap.encode {α : Type} (f : α → Json) (m : OrdMap String α) : Json :=
  .object (m.entries.map fun e => (e.1, f e.2))

def Module.encode (m : Module) : Json :=
  .object [("name", .string m.name), ("srcPath", .string m.sourcePath),
    ("outPath", .string m.outPath), ("declarations", m.declarations.encode Declaration.encode),
    ("reexports", ofList Reexport.encode m.reexports)]

def Package.encode (p : Package) : Json :=
  .object ([("name", .string p.name), ("outDir", .string p.outDir)] ++
    optionalField "mainModule" .string p.mainModule ++
    [("typeDeclaration", p.typeDeclaration.encode .string),
      ("declarationModule", p.declarationModule.encode .string),
      ("modules", p.modules.encode Module.encode), ("readmes", p.readmes.encode .string)])

end ApiDocs
