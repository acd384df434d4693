import ApiDocs.Proofs.Exports

set_option autoImplicit false

/-!
What a checker can refer to. A value mentions types and symbols; it is known to a checker that has
all of them. What is known stays known, so that the facts below, which are found by instance
search, carry over from each state of a run to the next.
-/

namespace ApiDocs

open Syntax

/-- The types and symbols that a value mentions. -/
class Mentions (α : Type) where
  types : α → List TypeId
  symbols : α → List SymbolId

/-- Types that have nothing to do with types and symbols, among them all of the syntax. -/
class Plain (α : Type) : Prop

/-- Types whose values mention nothing. -/
class Silent (α : Type) [Mentions α] : Prop where
  types : ∀ x : α, Mentions.types x = []
  symbols : ∀ x : α, Mentions.symbols x = []

/-- What one state has is there in the other as well. -/
class Checker.Before (c : outParam Checker) (c' : Checker) : Prop where
  size : c.arena.size ≤ c'.arena.size
  symbol : ∀ s x, c.bindings.symbol? s = some x → c'.bindings.symbol? s = some x

/-- A checker has the types that all of them start with. -/
class Checker.Started (c : Checker) : Prop where
  base : 14 ≤ c.arena.size

/-- A checker has all that a value mentions. -/
class Known {α : Type} [Mentions α] (c : Checker) (x : α) : Prop where
  types : ∀ t ∈ Mentions.types x, t.index < c.arena.size
  symbols : ∀ s ∈ Mentions.symbols x, (c.bindings.symbol? s).isSome

theorem Checker.Before.refl (c : Checker) : c.Before c := ⟨Nat.le_refl _, fun _ _ h => h⟩

theorem Checker.Before.trans {a b c : Checker} (first : a.Before b) (second : b.Before c) :
    a.Before c :=
  ⟨Nat.le_trans first.size second.size,
    fun s x known => second.symbol s x (first.symbol s x known)⟩

theorem Checker.Extends.before {n : Nat} {c c' : Checker} (kept : Checker.Extends n c c') :
    c.Before c' := ⟨kept.size, kept.bindings.symbol⟩

section

variable {α β : Type} [Mentions α] [Mentions β] {c c' : Checker}

theorem Known.later {x : α} (known : Known c x) (before : c.Before c') : Known c' x where
  types t inside := Nat.lt_of_lt_of_le (known.types t inside) before.size
  symbols s inside := by
    obtain ⟨y, found⟩ := Option.isSome_iff_exists.mp (known.symbols s inside)
    exact Option.isSome_iff_exists.mpr ⟨y, before.symbol s y found⟩

instance (priority := low) known_later {x : α} [before : c.Before c'] [known : Known c x] :
    Known c' x := known.later before

instance (priority := low) started_later [before : c.Before c'] [started : c.Started] : c'.Started :=
  ⟨Nat.le_trans started.base before.size⟩

/-- What mentions less is known as well. -/
theorem Known.part {x : α} {y : β} (known : Known c x)
    (types : ∀ t ∈ Mentions.types y, t ∈ Mentions.types x)
    (symbols : ∀ s ∈ Mentions.symbols y, s ∈ Mentions.symbols x) : Known c y where
  types t inside := known.types t (types t inside)
  symbols s inside := known.symbols s (symbols s inside)

end

/-! ### Plain values -/

instance {α : Type} [Plain α] : Mentions α := ⟨fun _ => [], fun _ => []⟩

instance {α : Type} [Plain α] : Silent α := ⟨fun _ => rfl, fun _ => rfl⟩

instance known_silent {α : Type} [Mentions α] [silent : Silent α] {c : Checker} {x : α} :
    Known c x where
  types := by simp [silent.types]
  symbols := by simp [silent.symbols]

instance : Plain Unit where
instance : Plain Bool where
instance : Plain Nat where
instance : Plain String where
instance : Plain FileId where
instance : Plain DocComment where
instance : Plain Program where
instance : Plain SymbolKind where
instance : Plain SymbolDecl where
instance : Plain TypeExpr where
instance : Plain TypeMember where
instance : Plain Pattern where
instance : Plain PatternProperty where
instance : Plain Expr where
instance : Plain ObjectProperty where
instance : Plain Stmt where
instance : Plain Declarator where
instance : Plain FunctionExpr where
instance : Plain Heritage where
instance : Plain InterfaceDecl where
instance : Plain ClassExpr where
instance : Plain ClassMember where
instance : Plain ConstructorParam where

/-! ### Ids and containers -/

instance : Mentions TypeId := ⟨fun t => [t], fun _ => []⟩

instance : Mentions SymbolId := ⟨fun _ => [], fun s => [s]⟩

section

variable {α β : Type} [Mentions α] [Mentions β] {c : Checker}

instance : Mentions (List α) :=
  ⟨fun list => list.flatMap Mentions.types, fun list => list.flatMap Mentions.symbols⟩

instance : Mentions (Option α) :=
  ⟨fun o => o.toList.flatMap Mentions.types, fun o => o.toList.flatMap Mentions.symbols⟩

instance : Mentions (α × β) :=
  ⟨fun x => Mentions.types x.1 ++ Mentions.types x.2,
    fun x => Mentions.symbols x.1 ++ Mentions.symbols x.2⟩

instance [silent : Silent α] : Silent (List α) where
  types list := by simp [Mentions.types, silent.types]
  symbols list := by simp [Mentions.symbols, silent.symbols]

instance [silent : Silent α] : Silent (Option α) where
  types o := by simp [Mentions.types, silent.types]
  symbols o := by simp [Mentions.symbols, silent.symbols]

instance [first : Silent α] [second : Silent β] : Silent (α × β) where
  types x := by simp [Mentions.types, first.types, second.types]
  symbols x := by simp [Mentions.symbols, first.symbols, second.symbols]

theorem known_type_iff {t : TypeId} : Known c t ↔ t.index < c.arena.size := by
  refine ⟨fun known => known.types t List.mem_cons_self, fun inside => ⟨fun other listed => ?_, nofun⟩⟩
  rwa [List.mem_singleton.mp listed]

theorem known_symbol_iff {s : SymbolId} : Known c s ↔ (c.bindings.symbol? s).isSome := by
  refine ⟨fun known => known.symbols s List.mem_cons_self, fun found => ⟨nofun, fun other listed => ?_⟩⟩
  rwa [List.mem_singleton.mp listed]

theorem known_list_iff {list : List α} : Known c list ↔ ∀ x ∈ list, Known c x := by
  constructor
  · intro known x inside
    exact known.part (fun t mentioned => List.mem_flatMap.mpr ⟨x, inside, mentioned⟩)
      fun s mentioned => List.mem_flatMap.mpr ⟨x, inside, mentioned⟩
  · intro all
    refine ⟨fun t mentioned => ?_, fun s mentioned => ?_⟩
    · obtain ⟨x, inside, here⟩ := List.mem_flatMap.mp mentioned
      exact (all x inside).types t here
    · obtain ⟨x, inside, here⟩ := List.mem_flatMap.mp mentioned
      exact (all x inside).symbols s here

theorem Known.mem {list : List α} (known : Known c list) {x : α} (inside : x ∈ list) : Known c x :=
  known_list_iff.mp known x inside

/-- A list of known things is known. -/
theorem Known.sublist {list all : List α} (known : Known c all) (subset : ∀ x ∈ list, x ∈ all) :
    Known c list := known_list_iff.mpr fun x inside => known.mem (subset x inside)

theorem known_option_iff {o : Option α} : Known c o ↔ ∀ x ∈ o, Known c x := by
  cases o with
  | none => exact ⟨fun _ _ inside => (by cases inside), fun _ => ⟨nofun, nofun⟩⟩
  | some y =>
      constructor
      · intro known x inside
        cases inside
        exact known.part (fun t mentioned => by simpa [Mentions.types] using mentioned)
          fun s mentioned => by simpa [Mentions.symbols] using mentioned
      · intro all
        exact (all y rfl).part (fun t mentioned => by simpa [Mentions.types] using mentioned)
          fun s mentioned => by simpa [Mentions.symbols] using mentioned

theorem Known.of_some {x : α} (known : Known c (some x)) : Known c x :=
  known_option_iff.mp known x rfl

theorem known_prod_iff {x : α × β} : Known c x ↔ Known c x.1 ∧ Known c x.2 := by
  constructor
  · intro known
    exact ⟨known.part (fun t mentioned => List.mem_append_left _ mentioned)
      fun s mentioned => List.mem_append_left _ mentioned,
      known.part (fun t mentioned => List.mem_append_right _ mentioned)
      fun s mentioned => List.mem_append_right _ mentioned⟩
  · rintro ⟨first, second⟩
    refine ⟨fun t mentioned => ?_, fun s mentioned => ?_⟩
    · rcases List.mem_append.mp mentioned with left | right
      · exact first.types t left
      · exact second.types t right
    · rcases List.mem_append.mp mentioned with left | right
      · exact first.symbols s left
      · exact second.symbols s right

instance known_ite {condition : Prop} [Decidable condition] {x y : α} [yes : Known c x]
    [no : Known c y] : Known c (if condition then x else y) := by
  split
  · exact yes
  · exact no

instance known_nil : Known c ([] : List α) := ⟨nofun, nofun⟩

instance known_cons {x : α} {list : List α} [first : Known c x] [rest : Known c list] :
    Known c (x :: list) := by
  refine known_list_iff.mpr fun y inside => ?_
  rcases List.mem_cons.mp inside with same | later
  · exact same ▸ first
  · exact rest.mem later

instance known_append {first second : List α} [left : Known c first] [right : Known c second] :
    Known c (first ++ second) := by
  refine known_list_iff.mpr fun y inside => ?_
  rcases List.mem_append.mp inside with here | there
  · exact left.mem here
  · exact right.mem there

instance known_take {list : List α} {n : Nat} [known : Known c list] : Known c (list.take n) :=
  known.sublist fun _ => List.mem_of_mem_take

instance known_drop {list : List α} {n : Nat} [known : Known c list] : Known c (list.drop n) :=
  known.sublist fun _ => List.mem_of_mem_drop

instance known_filter {list : List α} {keep : α → Bool} [known : Known c list] :
    Known c (list.filter keep) := known.sublist fun _ inside => (List.mem_filter.mp inside).1

instance known_reverse {list : List α} [known : Known c list] : Known c list.reverse :=
  known.sublist fun _ => List.mem_reverse.mp

instance known_modify {list : List α} {i : Nat} {f : α → α} [known : Known c list]
    [changed : ∀ x : α, [Known c x] → Known c (f x)] : Known c (list.modify i f) := by
  refine known_list_iff.mpr fun y inside => ?_
  obtain ⟨j, there⟩ := List.mem_iff_getElem?.mp inside
  rw [List.getElem?_modify] at there
  obtain ⟨x, found, rfl⟩ := Option.map_eq_some_iff.mp there
  have here := known.mem (List.mem_of_getElem? found)
  split
  · exact changed x
  · exact here

instance known_none : Known c (none : Option α) := ⟨nofun, nofun⟩

instance known_some {x : α} [known : Known c x] : Known c (some x) := by
  refine known_option_iff.mpr fun y inside => ?_
  cases inside
  exact known

instance known_getD {o : Option α} {x : α} [there : Known c o] [missing : Known c x] :
    Known c (o.getD x) := by
  cases o with
  | none => exact missing
  | some y => exact there.of_some

instance known_orElse {first second : Option α} [left : Known c first] [right : Known c second] :
    Known c (first <|> second) := by
  cases first with
  | none => exact right
  | some y => exact left

instance known_head? {list : List α} [known : Known c list] : Known c list.head? :=
  known_option_iff.mpr fun _ inside => known.mem (List.mem_of_head? inside)

instance known_getElem? {list : List α} {i : Nat} [known : Known c list] : Known c (list[i]?) :=
  known_option_iff.mpr fun _ inside => known.mem (List.mem_of_getElem? inside)

instance known_place {list : List α} {place : Option Nat} [Known c list] :
    Known c (place.bind (list[·]?)) := by
  cases place with
  | none => exact known_none
  | some i => exact known_getElem?

instance known_lookup [BEq β] [LawfulBEq β] {list : List (β × α)} {key : β}
    [known : Known c list] : Known c (list.lookup key) := by
  refine known_option_iff.mpr fun x inside => ?_
  obtain ⟨before, after, same, _⟩ := List.lookup_eq_some_iff.mp inside
  have listed : (key, x) ∈ list := by
    rw [same]
    exact List.mem_append_right _ List.mem_cons_self
  exact (known_prod_iff.mp (known.mem listed)).2

instance known_pair {x : α} {y : β} [first : Known c x] [second : Known c y] : Known c (x, y) :=
  known_prod_iff.mpr ⟨first, second⟩

instance known_fst {x : α × β} [known : Known c x] : Known c x.1 := (known_prod_iff.mp known).1

instance known_snd {x : α × β} [known : Known c x] : Known c x.2 := (known_prod_iff.mp known).2

instance known_zip {first : List α} {second : List β} [left : Known c first]
    [right : Known c second] : Known c (first.zip second) := by
  refine known_list_iff.mpr fun x inside => ?_
  obtain ⟨a, b⟩ := x
  obtain ⟨here, there⟩ := List.of_mem_zip inside
  exact known_prod_iff.mpr ⟨left.mem here, right.mem there⟩

/-- The places of a list are no matter. -/
instance known_zipIdx {list : List α} {n : Nat} [known : Known c list] :
    Known c (list.zipIdx n) := by
  refine known_list_iff.mpr fun x inside => ?_
  obtain ⟨a, i⟩ := x
  have here := known.mem (List.fst_mem_of_mem_zipIdx inside)
  exact known_prod_iff.mpr ⟨here, inferInstance⟩

theorem known_map {list : List α} {f : α → β} (known : Known c list)
    (each : ∀ x : α, Known c x → Known c (f x)) : Known c (list.map f) := by
  refine known_list_iff.mpr fun y inside => ?_
  obtain ⟨x, listed, rfl⟩ := List.mem_map.mp inside
  exact each x (known.mem listed)

theorem known_option_map {o : Option α} {f : α → β} (known : Known c o)
    (each : ∀ x : α, Known c x → Known c (f x)) : Known c (o.map f) := by
  cases o with
  | none => exact known_none
  | some x =>
      have here := each x known.of_some
      exact known_some

/-- Values that mention what a part of them mentions. -/
abbrev Mentions.via {γ : Type} (part : γ → α) : Mentions γ :=
  ⟨fun x => Mentions.types (part x), fun x => Mentions.symbols (part x)⟩

theorem known_congr {x : α} {y : β} (types : Mentions.types x = Mentions.types y)
    (symbols : Mentions.symbols x = Mentions.symbols y) : Known c x ↔ Known c y :=
  ⟨fun known => ⟨types ▸ known.types, symbols ▸ known.symbols⟩,
    fun known => ⟨types ▸ known.types, symbols ▸ known.symbols⟩⟩

end

/-! ### Types -/

section

variable {c : Checker}

section

variable [started : c.Started]

theorem known_base {t : TypeId} (base : t.index < 14) : Known c t :=
  known_type_iff.mpr (Nat.lt_of_lt_of_le base started.base)

instance known_intrinsic {i : Intrinsic} : Known c (Arena.intrinsicId i) :=
  known_base (by cases i <;> decide)

instance known_any : Known c Arena.anyId := known_intrinsic

instance known_boolean : Known c Arena.booleanId := known_base (by decide)

end

instance : Mentions Member := .via (·.type)

instance : Mentions Parameter := .via (·.type)

instance : Mentions Signature := .via fun s => (s.typeParams, s.params, s.result)

instance : Mentions IndexInfo := .via (·.type)

instance : Mentions Shape := .via fun s =>
  (s.members, s.call, s.construct, s.stringIndex, s.numberIndex, s.symbol)

instance : Mentions TypeParameter := .via fun p => (p.constraint, p.default)

instance : Mentions MappedType := .via fun m => (m.param, m.constraint, m.template)

instance : Mentions AliasRef := .via fun a => (a.symbol, a.args)

theorem known_member_iff {m : Member} : Known c m ↔ Known c m.type := known_congr rfl rfl

theorem known_parameter_iff {p : Parameter} : Known c p ↔ Known c p.type := known_congr rfl rfl

theorem known_index_iff {i : IndexInfo} : Known c i ↔ Known c i.type := known_congr rfl rfl

theorem known_signature_iff {s : Signature} :
    Known c s ↔ Known c s.typeParams ∧ Known c s.params ∧ Known c s.result := by
  rw [known_congr (x := s) (y := (s.typeParams, s.params, s.result)) rfl rfl]
  simp only [known_prod_iff]

theorem known_shape_iff {s : Shape} :
    Known c s ↔ Known c s.members ∧ Known c s.call ∧ Known c s.construct ∧
      Known c s.stringIndex ∧ Known c s.numberIndex ∧ Known c s.symbol := by
  rw [known_congr (x := s)
    (y := (s.members, s.call, s.construct, s.stringIndex, s.numberIndex, s.symbol)) rfl rfl]
  simp only [known_prod_iff]

theorem known_typeParameter_iff {p : TypeParameter} :
    Known c p ↔ Known c p.constraint ∧ Known c p.default := by
  rw [known_congr (x := p) (y := (p.constraint, p.default)) rfl rfl]
  simp only [known_prod_iff]

theorem known_mappedType_iff {m : MappedType} :
    Known c m ↔ Known c m.param ∧ Known c m.constraint ∧ Known c m.template := by
  rw [known_congr (x := m) (y := (m.param, m.constraint, m.template)) rfl rfl]
  simp only [known_prod_iff]

theorem known_aliasRef_iff {a : AliasRef} : Known c a ↔ Known c a.symbol ∧ Known c a.args := by
  rw [known_congr (x := a) (y := (a.symbol, a.args)) rfl rfl]
  simp only [known_prod_iff]

instance {m : Member} [known : Known c m] : Known c m.type := known_member_iff.mp known

instance {p : Parameter} [known : Known c p] : Known c p.type := known_parameter_iff.mp known

instance {i : IndexInfo} [known : Known c i] : Known c i.type := known_index_iff.mp known

section

variable {s : Signature} [known : Known c s]

instance : Known c s.typeParams := (known_signature_iff.mp known).1

instance : Known c s.params := (known_signature_iff.mp known).2.1

instance : Known c s.result := (known_signature_iff.mp known).2.2

end

section

variable {s : Shape} [known : Known c s]

instance : Known c s.members := (known_shape_iff.mp known).1

instance : Known c s.call := (known_shape_iff.mp known).2.1

instance : Known c s.construct := (known_shape_iff.mp known).2.2.1

instance : Known c s.stringIndex := (known_shape_iff.mp known).2.2.2.1

instance : Known c s.numberIndex := (known_shape_iff.mp known).2.2.2.2.1

instance : Known c s.symbol := (known_shape_iff.mp known).2.2.2.2.2

end

section

variable {m : MappedType} [known : Known c m]

instance : Known c m.param := (known_mappedType_iff.mp known).1

instance : Known c m.constraint := (known_mappedType_iff.mp known).2.1

instance : Known c m.template := (known_mappedType_iff.mp known).2.2

end

instance {p : TypeParameter} [known : Known c p] : Known c p.constraint :=
  (known_typeParameter_iff.mp known).1

instance {p : TypeParameter} [known : Known c p] : Known c p.default :=
  (known_typeParameter_iff.mp known).2

instance {a : AliasRef} [known : Known c a] : Known c a.symbol := (known_aliasRef_iff.mp known).1

instance {a : AliasRef} [known : Known c a] : Known c a.args := (known_aliasRef_iff.mp known).2

section

variable {t : TypeId} [known : Known c t]

instance {name : String} {optional readonly : Bool} {documentation : String} :
    Known c (Member.mk name t optional readonly documentation) := known_member_iff.mpr known

instance {name : String} {optional rest : Bool} {value : Option String} {documentation : String} :
    Known c (Parameter.mk name t optional rest value documentation) :=
  known_parameter_iff.mpr known

instance {keyName : String} : Known c (IndexInfo.mk keyName t) := known_index_iff.mpr known

end

instance {typeParams : List TypeId} {params : List Parameter} {result : TypeId}
    {documentation : String} [first : Known c typeParams] [second : Known c params]
    [third : Known c result] : Known c (Signature.mk typeParams params result documentation) :=
  known_signature_iff.mpr ⟨first, second, third⟩

instance {members : List Member} {call construct : List Signature}
    {stringIndex numberIndex : Option IndexInfo} {symbol : Option SymbolId}
    [first : Known c members] [second : Known c call] [third : Known c construct]
    [fourth : Known c stringIndex] [fifth : Known c numberIndex] [sixth : Known c symbol] :
    Known c (Shape.mk members call construct stringIndex numberIndex symbol) :=
  known_shape_iff.mpr ⟨first, second, third, fourth, fifth, sixth⟩

instance {name : String} {constraint default : Option TypeId} [first : Known c constraint]
    [second : Known c default] : Known c (TypeParameter.mk name constraint default) :=
  known_typeParameter_iff.mpr ⟨first, second⟩

instance {param constraint template : TypeId} {optional readonly : Option Modifier}
    [first : Known c param] [second : Known c constraint] [third : Known c template] :
    Known c (MappedType.mk param constraint template optional readonly) :=
  known_mappedType_iff.mpr ⟨first, second, third⟩

instance {symbol : SymbolId} {args : List TypeId} [first : Known c symbol]
    [second : Known c args] : Known c (AliasRef.mk symbol args) :=
  known_aliasRef_iff.mpr ⟨first, second⟩

end

instance known_indexType {index : Option IndexInfo} {c : Checker} [known : Known c index] :
    Known c (index.map (·.type)) := known_option_map known fun _ _ => inferInstance

instance known_parameterType {param : Option Parameter} {c : Checker} [known : Known c param] :
    Known c (param.map (·.type)) := known_option_map known fun _ _ => inferInstance

/-- A parameter with a default value has the type that it has without. -/
instance known_withDefault {param : Option Parameter} {text : String} {c : Checker}
    [known : Known c param] :
    Known c (param.map fun p => { p with optional := true, defaultValue := some text }) :=
  known_option_map known fun _ _ => inferInstance

/-! ### Data of types -/

instance : Mentions TypeData where
  types
    | .union members => Mentions.types members
    | .intersection members => Mentions.types members
    | .tuple items => Mentions.types items
    | .object shape => Mentions.types shape
    | .reference symbol args => Mentions.types (symbol, args)
    | .typeParameter param => Mentions.types param
    | .keyOf of => Mentions.types of
    | .indexedAccess object index => Mentions.types (object, index)
    | .mapped m => Mentions.types m
    | .nominal symbol args => Mentions.types (symbol, args)
    | .unresolved _ args => Mentions.types args
    | .intrinsic _ | .booleanLiteral _ | .numberLiteral _ | .stringLiteral _ => []
  symbols
    | .union members => Mentions.symbols members
    | .intersection members => Mentions.symbols members
    | .tuple items => Mentions.symbols items
    | .object shape => Mentions.symbols shape
    | .reference symbol args => Mentions.symbols (symbol, args)
    | .typeParameter param => Mentions.symbols param
    | .keyOf of => Mentions.symbols of
    | .indexedAccess object index => Mentions.symbols (object, index)
    | .mapped m => Mentions.symbols m
    | .nominal symbol args => Mentions.symbols (symbol, args)
    | .unresolved _ args => Mentions.symbols args
    | .intrinsic _ | .booleanLiteral _ | .numberLiteral _ | .stringLiteral _ => []

section

variable {c : Checker} {types : List TypeId} {s : SymbolId} {t index : TypeId}

theorem known_union_iff : Known c (TypeData.union types) ↔ Known c types := known_congr rfl rfl

theorem known_intersection_iff : Known c (TypeData.intersection types) ↔ Known c types :=
  known_congr rfl rfl

theorem known_tuple_iff : Known c (TypeData.tuple types) ↔ Known c types := known_congr rfl rfl

theorem known_object_iff {shape : Shape} : Known c (TypeData.object shape) ↔ Known c shape :=
  known_congr rfl rfl

theorem known_reference_iff :
    Known c (TypeData.reference s types) ↔ Known c s ∧ Known c types :=
  (known_congr (x := TypeData.reference s types) (y := (s, types)) rfl rfl).trans known_prod_iff

theorem known_parameterData_iff {param : TypeParameter} :
    Known c (TypeData.typeParameter param) ↔ Known c param := known_congr rfl rfl

theorem known_keyOf_iff : Known c (TypeData.keyOf t) ↔ Known c t := known_congr rfl rfl

theorem known_indexedAccess_iff :
    Known c (TypeData.indexedAccess t index) ↔ Known c t ∧ Known c index :=
  (known_congr (x := TypeData.indexedAccess t index) (y := (t, index)) rfl rfl).trans known_prod_iff

theorem known_mapped_iff {m : MappedType} : Known c (TypeData.mapped m) ↔ Known c m :=
  known_congr rfl rfl

theorem known_nominal_iff : Known c (TypeData.nominal s types) ↔ Known c s ∧ Known c types :=
  (known_congr (x := TypeData.nominal s types) (y := (s, types)) rfl rfl).trans known_prod_iff

theorem known_unresolved_iff {name : String} :
    Known c (TypeData.unresolved name types) ↔ Known c types := known_congr rfl rfl

instance {value : Bool} : Known c (TypeData.booleanLiteral value) := ⟨nofun, nofun⟩

instance {text : String} : Known c (TypeData.numberLiteral text) := ⟨nofun, nofun⟩

instance {value : String} : Known c (TypeData.stringLiteral value) := ⟨nofun, nofun⟩

section

variable [known : Known c types]

instance : Known c (TypeData.union types) := known_union_iff.mpr known

instance : Known c (TypeData.intersection types) := known_intersection_iff.mpr known

instance : Known c (TypeData.tuple types) := known_tuple_iff.mpr known

instance {name : String} : Known c (TypeData.unresolved name types) :=
  known_unresolved_iff.mpr known

instance [first : Known c s] : Known c (TypeData.reference s types) :=
  known_reference_iff.mpr ⟨first, known⟩

instance [first : Known c s] : Known c (TypeData.nominal s types) :=
  known_nominal_iff.mpr ⟨first, known⟩

end

instance {shape : Shape} [known : Known c shape] : Known c (TypeData.object shape) :=
  known_object_iff.mpr known

instance {param : TypeParameter} [known : Known c param] :
    Known c (TypeData.typeParameter param) := known_parameterData_iff.mpr known

instance [known : Known c t] : Known c (TypeData.keyOf t) := known_keyOf_iff.mpr known

instance [first : Known c t] [second : Known c index] :
    Known c (TypeData.indexedAccess t index) := known_indexedAccess_iff.mpr ⟨first, second⟩

instance {m : MappedType} [known : Known c m] : Known c (TypeData.mapped m) :=
  known_mapped_iff.mpr known

end

instance : Mentions TypeInfo := .via fun info => (info.data, info.writtenAs)

instance : Mentions TypeScope := .via fun scope => (scope.inside, scope.params, scope.this)

instance : Mentions ValueScope := .via fun scope => (scope.types, scope.locals)

instance : Mentions Returns := .via fun r => (r.scope, r.types)

instance : Mentions Checker.ParamsRead := .via fun r => (r.scope, r.params)

instance : Mentions Symbol := .via fun x => (x.parent, x.members.types.values, x.members.values.values)

section

variable {c : Checker}

theorem known_info_iff {info : TypeInfo} :
    Known c info ↔ Known c info.data ∧ Known c info.writtenAs :=
  (known_congr (x := info) (y := (info.data, info.writtenAs)) rfl rfl).trans known_prod_iff

theorem known_typeScope_iff {scope : TypeScope} :
    Known c scope ↔ Known c scope.inside ∧ Known c scope.params ∧ Known c scope.this := by
  rw [known_congr (x := scope) (y := (scope.inside, scope.params, scope.this)) rfl rfl]
  simp only [known_prod_iff]

theorem known_valueScope_iff {scope : ValueScope} :
    Known c scope ↔ Known c scope.types ∧ Known c scope.locals :=
  (known_congr (x := scope) (y := (scope.types, scope.locals)) rfl rfl).trans known_prod_iff

theorem known_returns_iff {r : Returns} : Known c r ↔ Known c r.scope ∧ Known c r.types :=
  (known_congr (x := r) (y := (r.scope, r.types)) rfl rfl).trans known_prod_iff

theorem known_paramsRead_iff {r : Checker.ParamsRead} :
    Known c r ↔ Known c r.scope ∧ Known c r.params :=
  (known_congr (x := r) (y := (r.scope, r.params)) rfl rfl).trans known_prod_iff

theorem known_entry_iff {x : Symbol} :
    Known c x ↔
      Known c x.parent ∧ Known c x.members.types.values ∧ Known c x.members.values.values := by
  rw [known_congr (x := x) (y := (x.parent, x.members.types.values, x.members.values.values)) rfl rfl]
  simp only [known_prod_iff]

instance {info : TypeInfo} [known : Known c info] : Known c info.data :=
  (known_info_iff.mp known).1

instance {info : TypeInfo} [known : Known c info] : Known c info.writtenAs :=
  (known_info_iff.mp known).2

instance {data : TypeData} {writtenAs : Option AliasRef} [first : Known c data]
    [second : Known c writtenAs] : Known c (TypeInfo.mk data writtenAs) :=
  known_info_iff.mpr ⟨first, second⟩

section

variable {scope : TypeScope} [known : Known c scope]

instance : Known c scope.inside := (known_typeScope_iff.mp known).1

instance : Known c scope.params := (known_typeScope_iff.mp known).2.1

instance : Known c scope.this := (known_typeScope_iff.mp known).2.2

end

instance {file : FileId} {inside : Option SymbolId} {params : List (String × TypeId)}
    {this : Option TypeId} [first : Known c inside] [second : Known c params]
    [third : Known c this] : Known c (TypeScope.mk file inside params this) :=
  known_typeScope_iff.mpr ⟨first, second, third⟩

instance {scope : ValueScope} [known : Known c scope] : Known c scope.types :=
  (known_valueScope_iff.mp known).1

instance {scope : ValueScope} [known : Known c scope] : Known c scope.locals :=
  (known_valueScope_iff.mp known).2

instance {types : TypeScope} {locals : List (String × TypeId)} [first : Known c types]
    [second : Known c locals] : Known c (ValueScope.mk types locals) :=
  known_valueScope_iff.mpr ⟨first, second⟩

instance {r : Returns} [known : Known c r] : Known c r.scope := (known_returns_iff.mp known).1

instance {r : Returns} [known : Known c r] : Known c r.types := (known_returns_iff.mp known).2

instance {scope : ValueScope} {types : List TypeId} [first : Known c scope]
    [second : Known c types] : Known c (Returns.mk scope types) :=
  known_returns_iff.mpr ⟨first, second⟩

instance {r : Checker.ParamsRead} [known : Known c r] : Known c r.scope :=
  (known_paramsRead_iff.mp known).1

instance {r : Checker.ParamsRead} [known : Known c r] : Known c r.params :=
  (known_paramsRead_iff.mp known).2

instance {scope : ValueScope} {params : List Parameter} [first : Known c scope]
    [second : Known c params] : Known c (Checker.ParamsRead.mk scope params) :=
  known_paramsRead_iff.mpr ⟨first, second⟩

/-! ### Names in reach -/

instance {scope : TypeScope} {names : List String} {ids : List TypeId} [Known c scope]
    [Known c ids] : Known c (scope.withParams names ids) := by
  unfold TypeScope.withParams
  infer_instance

instance {scope : TypeScope} {name : String} [Known c scope] : Known c (scope.param? name) := by
  unfold TypeScope.param?
  infer_instance

instance {scope : ValueScope} {name : String} {t : TypeId} [Known c scope] [Known c t] :
    Known c (scope.bind name t) := by
  unfold ValueScope.bind
  infer_instance

instance {scope : ValueScope} {name : String} [Known c scope] : Known c (scope.local? name) := by
  unfold ValueScope.local?
  infer_instance

/-! ### Members -/

variable {shape : Shape} [known : Known c shape]

instance {name : String} : Known c (shape.member? name) :=
  known_option_iff.mpr fun _ inside =>
    (known_shape_iff.mp known).1.mem (List.mem_of_find?_eq_some inside)

instance known_addMember {m : Member} [Known c m] : Known c (shape.addMember m) := by
  unfold Shape.addMember
  split <;> infer_instance

/-- What each round of a loop over known things keeps known, the loop keeps known. -/
theorem known_foldl {α β : Type} [Mentions α] [Mentions β] {f : β → α → β} {list : List α} {b : β}
    (all : Known c list) (start : Known c b)
    (step : ∀ b x, Known c b → Known c x → Known c (f b x)) : Known c (list.foldl f b) := by
  induction list generalizing b with
  | nil => exact start
  | cons x rest ih =>
      have first : Known c x := all.mem List.mem_cons_self
      exact ih (all.sublist fun _ => List.mem_cons_of_mem _) (step b x start first)

instance known_addMembers {members : List Member} [more : Known c members] :
    Known c (members.foldl Shape.addMember shape) :=
  known_foldl more known fun _ _ _ _ => known_addMember

instance known_inherit {base : Shape} [Known c base] : Known c (shape.inherit base) := by
  have merged : Known c (base.members.foldl Shape.addMember shape) := known_addMembers
  unfold Shape.inherit
  infer_instance

end

end ApiDocs
