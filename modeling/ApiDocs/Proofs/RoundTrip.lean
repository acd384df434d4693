import ApiDocs.Document.Encode
import ApiDocs.Document.Decode

set_option autoImplicit false

/-!
Documents that are written are read back as they were: type trees, however they are nested, and
packages with all their tables, whose entries keep their order.
-/

namespace ApiDocs

open Json

/-! ### Lists and tables -/

theorem mapM_map_eq_some {α β : Type} {read : β → Option α} {write : α → β} {list : List α}
    (each : ∀ x ∈ list, read (write x) = some x) : (list.map write).mapM read = some list := by
  induction list with
  | nil => rfl
  | cons x rest ih =>
      have later := ih fun y inside => each y (List.mem_cons_of_mem _ inside)
      rw [List.map_cons, List.mapM_cons, each x List.mem_cons_self, later]
      rfl

theorem asList?_ofList {α : Type} {read : Json → Option α} {write : α → Json} {items : List α}
    (each : ∀ x ∈ items, read (write x) = some x) : asList? read (ofList write items) = some items :=
  mapM_map_eq_some each

namespace OrdMap

variable {α : Type}

/-- Entries under new keys come after those that are there. -/
theorem entries_foldl_insert (list : List (String × α)) (m : OrdMap String α)
    (distinct : ((m.entries ++ list).map Prod.fst).Nodup) :
    (list.foldl (fun m e => m.insert e.1 e.2) m).entries = m.entries ++ list := by
  induction list generalizing m with
  | nil => exact (List.append_nil _).symm
  | cons entry rest ih =>
      have absent : entry.1 ∉ m.keys := by
        rw [List.map_append, List.map_cons, List.nodup_append] at distinct
        exact fun inside => distinct.2.2 entry.1 inside entry.1 List.mem_cons_self rfl
      have inserted := entries_insert_new m entry.1 entry.2 absent
      rw [List.foldl_cons, ih, inserted, List.append_assoc]
      · rfl
      · rw [inserted, List.append_assoc]
        exact distinct

theorem ofList_entries (m : OrdMap String α) : ofList m.entries = m :=
  OrdMap.ext (entries_foldl_insert m.entries empty m.distinct)

/-- Tables keep their entries in order. -/
theorem decode_encode {read : Json → Option α} {write : α → Json} (m : OrdMap String α)
    (each : ∀ value, read (write value) = some value) : decode read (m.encode write) = some m := by
  have entries : (m.entries.map fun e => (e.1, write e.2)).mapM
      (fun e => (read e.2).map (e.1, ·)) = some m.entries := by
    apply mapM_map_eq_some
    intro e _
    rw [each e.2, Option.map_some]
  calc decode read (m.encode write)
      = ((m.entries.map fun e => (e.1, write e.2)).mapM fun e =>
          (read e.2).map (e.1, ·)).bind (some ∘ ofList) := rfl
    _ = some m := by rw [entries, Option.bind_some, Function.comp_apply, ofList_entries]

end OrdMap

/-! ### Type trees -/

/-- How a property is written. -/
def Property.encode (p : Property) : Json :=
  .object ([("name", .string p.name), ("documentation", .string p.documentation),
    ("type", p.type.encode), ("optional", .bool p.optional)] ++
    optionalField "defaultValue" .string p.defaultValue)

namespace Bound

variable {read : Json → Option Bound}

theorem encodeAll_eq_map (bounds : List Bound) : encodeAll bounds = bounds.map encode := by
  induction bounds with
  | nil => rfl
  | cons bound rest ih => exact congrArg (bound.encode :: ·) ih

theorem encodeProperties_eq_map (properties : List Property) :
    encodeProperties properties = properties.map Property.encode := by
  induction properties with
  | nil => rfl
  | cons p rest ih =>
      cases p
      exact congrArg (_ :: ·) ih

/-- A reader that reads the trees of a list reads the list. -/
theorem asList?_encodeAll {bounds : List Bound} (each : ∀ b ∈ bounds, read b.encode = some b) :
    asList? read (.array (encodeAll bounds)) = some bounds := by
  rw [encodeAll_eq_map]
  exact asList?_ofList each

theorem property?_encode {p : Property} (type : read p.type.encode = some p.type) :
    property? read p.encode = some p := by
  obtain ⟨name, documentation, bound, isOptional, defaultValue⟩ := p
  calc property? read (Property.encode ⟨name, documentation, bound, isOptional, defaultValue⟩)
      = (read bound.encode).bind fun bound =>
          some ⟨name, documentation, bound, isOptional, defaultValue⟩ := by cases defaultValue <;> rfl
    _ = some ⟨name, documentation, bound, isOptional, defaultValue⟩ := by
        rw [type, Option.bind_some]

theorem asList?_encodeProperties {properties : List Property}
    (each : ∀ p ∈ properties, read p.type.encode = some p.type) :
    asList? (property? read) (.array (encodeProperties properties)) = some properties := by
  rw [encodeProperties_eq_map]
  exact asList?_ofList fun p inside => property?_encode (each p inside)

theorem depth_pos (doc : Json) : 0 < doc.depth := by cases doc <;> simp [depth]

mutual

/-- A tree is read back with any allowance that its document fits in. The induction is on the tree:
what it is made of is read with the allowance that is left. -/
theorem decodeAt_encode : ∀ (b : Bound) (n : Nat) (inner : Bool), b.encode.depth ≤ n →
    decodeAt n inner b.encode = some b
  | b, 0, _, deep => absurd (depth_pos b.encode) (Nat.not_lt.mpr deep)
  | .named name none key origin, n + 1, inner, deep => by cases key <;> cases origin <;> rfl
  | .named name (some parameters) key origin, n + 1, inner, deep => by
      have parts := asList?_encodeAll (decodeAt_encodeAll parameters n (by
        simp only [encode, depth, List.cons_append, depthOfFields] at deep
        omega))
      calc decodeAt (n + 1) inner (encode (.named name (some parameters) key origin))
          = ((asList? (decodeAt n true) (.array (encodeAll parameters))).map some).bind fun read =>
              some (.named name read key origin) := by cases key <;> cases origin <;> rfl
        _ = some (.named name (some parameters) key origin) := by rw [parts]; rfl
  | .object properties none, n + 1, inner, deep => by
      have parts := asList?_encodeProperties (decodeAt_encodeProperties properties n (by
        simp only [encode, depth, depthOfFields] at deep
        omega))
      calc decodeAt (n + 1) inner (encode (.object properties none))
          = (asList? (property? (decodeAt n true)) (.array (encodeProperties properties))).bind
              fun read => some (.object read none) := rfl
        _ = some (.object properties none) := by rw [parts]; rfl
  | .object properties (some ⟨name, type⟩), n + 1, inner, deep => by
      simp only [encode, depth, depthOfFields] at deep
      have parts := asList?_encodeProperties (decodeAt_encodeProperties properties n (by omega))
      have index := decodeAt_encode type n true (by omega)
      calc decodeAt (n + 1) inner (encode (.object properties (some ⟨name, type⟩)))
          = (asList? (property? (decodeAt n true)) (.array (encodeProperties properties))).bind
              fun read => (((decodeAt n true type.encode).bind fun type =>
                some (IndexEntry.mk name type)).map some).bind fun index =>
                  some (.object read index) := rfl
        _ = some (.object properties (some ⟨name, type⟩)) := by rw [parts, index]; rfl
  | .tuple items, n + 1, inner, deep => by
      have parts := asList?_encodeAll (decodeAt_encodeAll items n (by
        simp only [encode, depth, depthOfFields] at deep
        omega))
      calc decodeAt (n + 1) inner (encode (.tuple items))
          = (asList? (decodeAt n true) (.array (encodeAll items))).bind fun read =>
              some (.tuple read) := rfl
        _ = some (.tuple items) := by rw [parts]; rfl
  | .function none parameters result, n + 1, inner, deep => by
      simp only [encode, depth, depthOfFields] at deep
      have parts := asList?_encodeProperties (decodeAt_encodeProperties parameters n (by omega))
      have returned := decodeAt_encode result n true (by omega)
      calc decodeAt (n + 1) inner (encode (.function none parameters result))
          = (asList? (property? (decodeAt n true)) (.array (encodeProperties parameters))).bind
              fun read => (decodeAt n true result.encode).bind fun result =>
                some (.function none read result) := rfl
        _ = some (.function none parameters result) := by rw [parts, returned]; rfl
  | .function (some typeParameters) parameters result, n + 1, inner, deep => by
      simp only [encode, depth, depthOfFields] at deep
      have generics := asList?_encodeAll (decodeAt_encodeAll typeParameters n (by omega))
      have parts := asList?_encodeProperties (decodeAt_encodeProperties parameters n (by omega))
      have returned := decodeAt_encode result n true (by omega)
      calc decodeAt (n + 1) inner (encode (.function (some typeParameters) parameters result))
          = ((asList? (decodeAt n true) (.array (encodeAll typeParameters))).map some).bind
              fun generics => (asList? (property? (decodeAt n true))
                (.array (encodeProperties parameters))).bind
              fun read => (decodeAt n true result.encode).bind fun result =>
                some (.function generics read result) := rfl
        _ = some (.function (some typeParameters) parameters result) := by
            rw [generics, parts, returned]; rfl
  | .intersection members, n + 1, inner, deep => by
      have parts := asList?_encodeAll (decodeAt_encodeAll members n (by
        simp only [encode, depth, depthOfFields] at deep
        omega))
      calc decodeAt (n + 1) inner (encode (.intersection members))
          = (asList? (decodeAt n true) (.array (encodeAll members))).bind fun read =>
              some (.intersection read) := rfl
        _ = some (.intersection members) := by rw [parts]; rfl
  | .union members, n + 1, inner, deep => by
      have parts := asList?_encodeAll (decodeAt_encodeAll members n (by
        simp only [encode, depth, depthOfFields] at deep
        omega))
      calc decodeAt (n + 1) inner (encode (.union members))
          = (asList? (decodeAt n true) (.array (encodeAll members))).bind fun read =>
              some (.union read) := rfl
        _ = some (.union members) := by rw [parts]; rfl
  | .booleanLiteral _, n + 1, inner, _ => rfl
  | .numberLiteral _, n + 1, inner, _ => rfl
  | .stringLiteral _, n + 1, inner, _ => rfl

theorem decodeAt_encodeAll : ∀ (bounds : List Bound) (n : Nat), depthOfItems (encodeAll bounds) ≤ n →
    ∀ b ∈ bounds, decodeAt n true b.encode = some b
  | [], _, _ => nofun
  | bound :: rest, n, deep => by
      simp only [encodeAll, depthOfItems] at deep
      have first := decodeAt_encode bound n true (by omega)
      have later := decodeAt_encodeAll rest n (by omega)
      exact List.forall_mem_cons.mpr ⟨first, later⟩

theorem decodeAt_encodeProperties : ∀ (properties : List Property) (n : Nat),
    depthOfItems (encodeProperties properties) ≤ n →
    ∀ p ∈ properties, decodeAt n true p.type.encode = some p.type
  | [], _, _ => nofun
  | ⟨name, documentation, type, isOptional, defaultValue⟩ :: rest, n, deep => by
      simp only [encodeProperties, depthOfItems, depth, List.cons_append, depthOfFields] at deep
      have first := decodeAt_encode type n true (by omega)
      have later := decodeAt_encodeProperties rest n (by omega)
      exact List.forall_mem_cons.mpr ⟨first, later⟩

end

theorem decodeInner_encode (b : Bound) : decodeInner b.encode = some b :=
  decodeAt_encode b _ true (Nat.le_refl _)

theorem asList?_decodeInner (bounds : List Bound) :
    asList? decodeInner (.array (encodeAll bounds)) = some bounds :=
  asList?_encodeAll fun b _ => decodeInner_encode b

end Bound

open ApiDocs.Bound

/-! ### Declarations -/

theorem properties?_encode (properties : List Property) :
    properties? (.array (encodeProperties properties)) = some properties :=
  asList?_encodeProperties fun p _ => decodeInner_encode p.type

theorem DocEntry.decode_encode (e : DocEntry) : decode e.encode = some e := by
  calc decode e.encode
      = (decodeInner e.type.encode).bind fun type => some ⟨e.name, e.documentation, type⟩ := rfl
    _ = some e := by rw [decodeInner_encode]; rfl

theorem ConstructorEntry.decode_encode (c : ConstructorEntry) : decode c.encode = some c := by
  calc decode c.encode
      = (properties? (.array (encodeProperties c.parameters))).bind fun parameters =>
          some ⟨c.documentation, parameters⟩ := rfl
    _ = some c := by rw [properties?_encode]; rfl

theorem nullable_decodeInner (bounds : Option (List Bound)) :
    nullable (asList? decodeInner) (bounds.map fun list => .array (encodeAll list)) = some bounds := by
  cases bounds with
  | none => rfl
  | some list =>
      show (asList? decodeInner (.array (encodeAll list))).map some = some (some list)
      rw [asList?_decodeInner, Option.map_some]

theorem FunctionEntry.decode_encode (f : FunctionEntry) : decode f.encode = some f := by
  obtain ⟨name, documentation, typeParameters, parameters, result⟩ := f
  calc decode (FunctionEntry.encode ⟨name, documentation, typeParameters, parameters, result⟩)
      = (nullable (asList? decodeInner) (typeParameters.map fun list => .array (encodeAll list))).bind
          fun generics => (properties? (.array (encodeProperties parameters))).bind
          fun read => (decodeInner result.encode).bind
          fun result => some ⟨name, documentation, generics, read, result⟩ := by
        cases typeParameters <;> rfl
    _ = some ⟨name, documentation, typeParameters, parameters, result⟩ := by
        rw [nullable_decodeInner, properties?_encode, decodeInner_encode]
        rfl

theorem ExportedIn.decode_encode (e : ExportedIn) : decode e.encode = some e := rfl

theorem Reexport.decode_encode (edge : Reexport) : decode edge.encode = some edge := rfl

/-- The own fields of a declaration are read beside the common ones, whose names differ from
theirs. -/
theorem DeclarationBody.decode_encode (d : Declaration) :
    decode d.kind.text d.encode = some d.body := by
  obtain ⟨id, name, documentation, exportedIn, body⟩ := d
  match body with
  | .component properties =>
      show (properties? (.array (encodeProperties properties))).bind (some <| .component ·) =
        some (DeclarationBody.component properties)
      rw [properties?_encode]
      rfl
  | .type bound parameters =>
      have read : decode "Type"
          (Declaration.encode ⟨id, name, documentation, exportedIn, .type bound parameters⟩) =
            (decodeInner bound.encode).bind fun bound =>
              (nullable (asList? decodeInner)
                (parameters.map fun list => .array (encodeAll list))).bind
                  (some <| .type bound ·) := by cases parameters <;> rfl
      rw [decodeInner_encode, nullable_decodeInner] at read
      exact read
  | .classDecl properties constructors methods =>
      show ((asList? DocEntry.decode (ofList DocEntry.encode properties)).bind fun properties =>
        (asList? ConstructorEntry.decode (ofList ConstructorEntry.encode constructors)).bind
          fun constructors =>
            (asList? FunctionEntry.decode (ofList FunctionEntry.encode methods)).bind
              (some <| .classDecl properties constructors ·)) =
        some (DeclarationBody.classDecl properties constructors methods)
      rw [asList?_ofList fun e _ => DocEntry.decode_encode e,
        asList?_ofList fun c _ => ConstructorEntry.decode_encode c,
        asList?_ofList fun f _ => FunctionEntry.decode_encode f]
      rfl
  | .function ⟨typeParameters, parameters, result⟩ =>
      have read : decode "Function" (Declaration.encode
          ⟨id, name, documentation, exportedIn, .function ⟨typeParameters, parameters, result⟩⟩) =
            (nullable (asList? decodeInner)
              (typeParameters.map fun list => .array (encodeAll list))).bind fun generics =>
                (properties? (.array (encodeProperties parameters))).bind fun read =>
                  (decodeInner result.encode).bind (some <| .function ⟨generics, read, ·⟩) := by
        cases typeParameters <;> rfl
      rw [nullable_decodeInner, properties?_encode, decodeInner_encode] at read
      exact read
  | .variable bound value =>
      show (decodeInner bound.encode).bind (some <| .variable · value) =
        some (DeclarationBody.variable bound value)
      rw [decodeInner_encode]
      rfl

theorem Declaration.decode_encode (d : Declaration) : decode d.encode = some d := by
  have own := DeclarationBody.decode_encode d
  have exported := asList?_ofList fun (e : ExportedIn) (_ : e ∈ d.exportedIn) =>
    ExportedIn.decode_encode e
  have read : decode d.encode =
      (asList? ExportedIn.decode (ofList ExportedIn.encode d.exportedIn)).bind fun exportedIn =>
        (DeclarationBody.decode d.kind.text d.encode).bind fun body =>
          some ⟨d.id, d.name, d.documentation, exportedIn, body⟩ := by
    obtain ⟨id, name, documentation, exportedIn, body⟩ := d
    match body with
    | .component _ | .classDecl _ _ _ | .variable _ _ => rfl
    | .type bound none | .type bound (some _) => rfl
    | .function ⟨none, _, _⟩ | .function ⟨some _, _, _⟩ => rfl
  rw [read, exported, own]
  rfl

/-! ### Packages -/

theorem Module.decode_encode (m : Module) : decode m.encode = some m := by
  calc decode m.encode
      = (OrdMap.decode Declaration.decode (m.declarations.encode Declaration.encode)).bind
          fun declarations => (asList? Reexport.decode (ofList Reexport.encode m.reexports)).bind
          fun reexports => some ⟨m.name, m.sourcePath, m.outPath, declarations, reexports⟩ := rfl
    _ = some m := by
        rw [OrdMap.decode_encode _ Declaration.decode_encode,
          asList?_ofList fun edge _ => Reexport.decode_encode edge]
        rfl

/-- Every type tree and every package is read back from the document it is written as. -/
theorem documents_round_trip :
    (∀ p : Package, Package.decode p.encode = some p) ∧
      ∀ b : Bound, Bound.decode b.encode = some b := by
  refine ⟨fun p => ?_, fun b => decodeAt_encode b _ false (Nat.le_refl _)⟩
  have texts : ∀ m : OrdMap String String, OrdMap.decode asText? (m.encode .string) = some m :=
    fun m => m.decode_encode fun _ => rfl
  obtain ⟨name, outDir, mainModule, typeDeclaration, declarationModule, modules, readmes⟩ := p
  calc Package.decode (Package.encode ⟨name, outDir, mainModule, typeDeclaration, declarationModule,
          modules, readmes⟩)
      = (OrdMap.decode asText? (typeDeclaration.encode .string)).bind fun typeDeclaration =>
          (OrdMap.decode asText? (declarationModule.encode .string)).bind fun declarationModule =>
            (OrdMap.decode Module.decode (modules.encode Module.encode)).bind fun modules =>
              (OrdMap.decode asText? (readmes.encode .string)).bind fun readmes =>
                some ⟨name, outDir, mainModule, typeDeclaration, declarationModule, modules,
                  readmes⟩ := by cases mainModule <;> rfl
    _ = some ⟨name, outDir, mainModule, typeDeclaration, declarationModule, modules, readmes⟩ := by
        rw [texts, texts, modules.decode_encode Module.decode_encode, texts]
        rfl

end ApiDocs
