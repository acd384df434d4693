import ApiDocs.Proofs.Members.Reading
import ApiDocs.Proofs.TypeLinks

set_option autoImplicit false

/-!
What the documentation shows of members: the properties of every object in a type tree have names of
their own, and so have the properties and methods of a class together.
-/

namespace ApiDocs

/-! ### Objects in a tree -/

namespace Bound

mutual

/-- All that a tree is made of, from the top down. -/
def nodes : Bound → List Bound
  | .named name none key origin => [.named name none key origin]
  | .named name (some parameters) key origin =>
      .named name (some parameters) key origin :: nodesOfAll parameters
  | .object properties none => .object properties none :: nodesOfProperties properties
  | .object properties (some ⟨name, type⟩) =>
      .object properties (some ⟨name, type⟩) :: (nodesOfProperties properties ++ nodes type)
  | .tuple items => .tuple items :: nodesOfAll items
  | .function none parameters result =>
      .function none parameters result :: (nodesOfProperties parameters ++ nodes result)
  | .function (some typeParameters) parameters result =>
      .function (some typeParameters) parameters result ::
        (nodesOfAll typeParameters ++ nodesOfProperties parameters ++ nodes result)
  | .intersection members => .intersection members :: nodesOfAll members
  | .union members => .union members :: nodesOfAll members
  | .booleanLiteral value => [.booleanLiteral value]
  | .numberLiteral value => [.numberLiteral value]
  | .stringLiteral value => [.stringLiteral value]

def nodesOfAll : List Bound → List Bound
  | [] => []
  | bound :: rest => nodes bound ++ nodesOfAll rest

def nodesOfProperties : List Property → List Bound
  | [] => []
  | ⟨_, _, type, _, _⟩ :: rest => nodes type ++ nodesOfProperties rest

end

end Bound

open ApiDocs.Bound

def SignatureBound.nodes (s : SignatureBound) : List Bound :=
  (s.typeParameters.map nodesOfAll).getD [] ++ nodesOfProperties s.parameters ++ s.result.nodes

/-- All types that a declaration shows, with all that they are made of. -/
def DeclarationBody.nodes : DeclarationBody → List Bound
  | .component properties => nodesOfProperties properties
  | .type bound parameters => bound.nodes ++ (parameters.map nodesOfAll).getD []
  | .classDecl properties constructors methods =>
      properties.flatMap (·.type.nodes) ++ constructors.flatMap (nodesOfProperties ·.parameters) ++
        methods.flatMap (·.signature.nodes)
  | .function signature => signature.nodes
  | .variable bound _ => bound.nodes

/-- The properties of each object have names of their own. -/
def NamesDistinct (nodes : List Bound) : Prop :=
  ∀ properties index, Bound.object properties index ∈ nodes → (properties.map (·.name)).Nodup

section

variable {first second : List Bound} {b : Bound}

theorem namesDistinct_nil : NamesDistinct [] := nofun

@[simp] theorem namesDistinct_append :
    NamesDistinct (first ++ second) ↔ NamesDistinct first ∧ NamesDistinct second := by
  constructor
  · intro all
    exact ⟨fun properties index inside => all properties index (List.mem_append_left _ inside),
      fun properties index inside => all properties index (List.mem_append_right _ inside)⟩
  · intro both properties index inside
    rcases List.mem_append.mp inside with left | right
    · exact both.1 properties index left
    · exact both.2 properties index right

/-- A node that is no object has no names. -/
theorem namesDistinct_cons (other : ∀ properties index, b ≠ .object properties index) :
    NamesDistinct (b :: second) ↔ NamesDistinct second := by
  constructor
  · exact fun all properties index inside => all properties index (List.mem_cons_of_mem _ inside)
  · intro rest properties index inside
    rcases List.mem_cons.mp inside with same | later
    · exact absurd same.symm (other properties index)
    · exact rest properties index later

theorem namesDistinct_cons_object {properties : List Property} {index : Option IndexEntry} :
    NamesDistinct (.object properties index :: second) ↔
      (properties.map (·.name)).Nodup ∧ NamesDistinct second := by
  constructor
  · exact fun all => ⟨all properties index List.mem_cons_self,
      fun others i inside => all others i (List.mem_cons_of_mem _ inside)⟩
  · intro both others i inside
    rcases List.mem_cons.mp inside with same | later
    · cases same
      exact both.1
    · exact both.2 others i later

@[simp] theorem namesDistinct_nodesOfAll {bounds : List Bound} :
    NamesDistinct (nodesOfAll bounds) ↔ ∀ b ∈ bounds, NamesDistinct b.nodes := by
  induction bounds with
  | nil => exact iff_of_true namesDistinct_nil nofun
  | cons b rest ih =>
      rw [List.forall_mem_cons, ← ih]
      exact namesDistinct_append

@[simp] theorem namesDistinct_nodesOfProperties {properties : List Property} :
    NamesDistinct (nodesOfProperties properties) ↔ ∀ m ∈ properties, NamesDistinct m.type.nodes := by
  induction properties with
  | nil => exact iff_of_true namesDistinct_nil nofun
  | cons m rest ih =>
      obtain ⟨_, _, type, _, _⟩ := m
      rw [List.forall_mem_cons, ← ih]
      exact namesDistinct_append

theorem namesDistinct_flatMap {α : Type} {list : List α} {nodes : α → List Bound} :
    NamesDistinct (list.flatMap nodes) ↔ ∀ x ∈ list, NamesDistinct (nodes x) := by
  induction list with
  | nil => simp [namesDistinct_nil]
  | cons x rest ih => simp [ih]

/-- The names in a list of trees that may be missing. -/
def NamesDistinctAll (bounds : Option (List Bound)) : Prop :=
  NamesDistinct ((bounds.map nodesOfAll).getD [])

theorem namesDistinct_named {name : String} {parameters : Option (List Bound)}
    {key origin : Option String} : NamesDistinct (Bound.named name parameters key origin).nodes ↔
      NamesDistinctAll parameters := by
  cases parameters with
  | none => exact namesDistinct_cons nofun
  | some parameters => exact namesDistinct_cons nofun

theorem namesDistinct_function {typeParameters : Option (List Bound)} {parameters : List Property}
    {result : Bound} : NamesDistinct (Bound.function typeParameters parameters result).nodes ↔
      NamesDistinct (SignatureBound.nodes ⟨typeParameters, parameters, result⟩) := by
  cases typeParameters with
  | none => exact namesDistinct_cons nofun
  | some typeParameters => exact namesDistinct_cons nofun

theorem namesDistinct_object {properties : List Property} {index : Option IndexEntry} :
    NamesDistinct (Bound.object properties index).nodes ↔ (properties.map (·.name)).Nodup ∧
      (∀ m ∈ properties, NamesDistinct m.type.nodes) ∧ ∀ i ∈ index, NamesDistinct i.type.nodes := by
  cases index with
  | none =>
      refine namesDistinct_cons_object.trans (and_congr_right' ?_)
      rw [namesDistinct_nodesOfProperties]
      simp
  | some i =>
      obtain ⟨_, type⟩ := i
      refine namesDistinct_cons_object.trans (and_congr_right' ?_)
      rw [namesDistinct_append, namesDistinct_nodesOfProperties]
      simp

end

/-! ### Types -/

namespace Check

instance neat_declaredType {s : SymbolId} : Neat (Check.declaredType s) := Checker.neat_ask

instance neat_typeParams {s : SymbolId} : Neat (Check.typeParams s) := Checker.neat_ask

instance neat_valueType {s : SymbolId} : Neat (Check.valueType s) := Checker.neat_ask

instance neat_evaluate {t : TypeId} : Neat (Check.evaluate t) := Checker.neat_ask

theorem ensures_shape (t : TypeId) : Ensures (Check.shape t) Shape.Distinct := Checker.ensures_shape t

theorem ensures_members (t : TypeId) :
    Ensures (Check.members t) fun members => (members.map (·.name)).Nodup :=
  (ensures_shape t).bind fun _ distinct => .pure distinct

instance neat_shape {t : TypeId} : Neat (Check.shape t) := (ensures_shape t).neat

instance neat_members {t : TypeId} : Neat (Check.members t) := neat_bind

instance neat_member? {t : TypeId} {name : String} : Neat (Check.member? t name) := neat_bind

instance neat_callSignatures {t : TypeId} : Neat (Check.callSignatures t) := neat_bind

instance neat_constructSignatures {t : TypeId} : Neat (Check.constructSignatures t) := neat_bind

instance neat_stringIndex? {t : TypeId} : Neat (Check.stringIndex? t) := neat_bind

end Check

namespace Render

open Check

/-- A type is shown with names that are distinct in each object. -/
abbrev Shows (m : Check Bound) : Prop := Ensures m fun b => NamesDistinct b.nodes

instance neat_linkKey {s : SymbolId} {t : TypeId} : Neat (linkKey s t) := by
  refine .bind fun kind => ?_
  split <;> infer_instance

instance neat_namedParts {t : TypeId} : Neat (namedParts t) := by
  refine .bind fun written => ?_
  split <;> infer_instance

section

variable {child : TypeId → Check Bound} (shows_ : ∀ t, Shows (child t))
include shows_

theorem shows_typeList (types : List TypeId) : Ensures (typeList child types) NamesDistinctAll := by
  unfold typeList
  split
  · exact .pure namesDistinct_nil
  · exact (Ensures.mapM shows_).map fun bounds all => namesDistinct_nodesOfAll.mpr all

theorem shows_named (t : TypeId) : Shows (named child t) := by
  refine .skip fun before => .skip fun parts => ?_
  refine (shows_typeList shows_ parts.args).bind fun parameters all => ?_
  exact .skip fun state => .skip fun program => .pure (namesDistinct_named.mpr all)

theorem shows_property (m : Member) :
    Ensures (property child m) fun q => NamesDistinct q.type.nodes :=
  (shows_ m.type).bind fun _ here => .pure here

theorem shows_parameter (x : Parameter) :
    Ensures (parameter child x) fun q => NamesDistinct q.type.nodes :=
  (shows_ x.type).bind fun _ here => .pure here

theorem shows_signature (s : Signature) :
    Ensures (signature child s) fun shown => NamesDistinct shown.nodes := by
  refine (shows_typeList shows_ s.typeParams).bind fun typeParameters first => ?_
  refine (Ensures.mapM (shows_parameter shows_)).bind fun parameters second => ?_
  refine (shows_ s.result).bind fun result third => .pure ?_
  simp only [SignatureBound.nodes, namesDistinct_append, namesDistinct_nodesOfProperties]
  exact ⟨⟨first, second⟩, third⟩

/-- The properties of an object have the names of its members. -/
theorem shows_objectBound (t : TypeId) : Shows (objectBound child t) := by
  refine .skip fun signatures => ?_
  split
  · exact (shows_signature shows_ _).bind fun shown here => .pure (namesDistinct_function.mpr here)
  · refine (ensures_members t).bind fun members distinct => ?_
    have names : Ensures (members.mapM (property child))
        fun properties => properties.map (·.name) = members.map (·.name) :=
      .mapM_map fun m => (shows_ m.type).bind fun _ _ => .pure rfl
    refine (names.and (Ensures.mapM (shows_property shows_))).bind fun properties shown => ?_
    have entry : ∀ i : IndexInfo, Ensures (do return (⟨i.keyName, ← child i.type⟩ : IndexEntry))
        fun shown => NamesDistinct shown.type.nodes :=
      fun i => (shows_ i.type).bind fun _ here => .pure here
    refine .skip fun index => (Ensures.mapM_option entry).bind fun index given => .pure ?_
    rw [namesDistinct_object, shown.1]
    exact ⟨distinct, shown.2, given⟩

theorem shows_unionMembers (members : List TypeId) :
    Ensures (unionMembers child members) fun bounds => ∀ b ∈ bounds, NamesDistinct b.nodes := by
  refine .foldlM (fun sofar t before => .skip fun data => ?_) nofun
  split
  · refine .pure fun b inside => ?_
    rcases List.mem_append.mp inside with kept | new
    · exact before b (List.dropLast_subset _ kept)
    · rw [List.mem_singleton.mp new]
      exact namesDistinct_named.mpr namesDistinct_nil
  · refine (shows_ t).bind fun shown here => .pure fun b inside => ?_
    rcases List.mem_append.mp inside with kept | new
    · exact before b kept
    · exact List.mem_singleton.mp new ▸ here

end

theorem shows_boundAt (n : Nat) (preferNamed : Bool) (t : TypeId) :
    Shows (boundAt n preferNamed t) := by
  induction n generalizing preferNamed t with
  | zero => exact .skip fun c => .pure (namesDistinct_named.mpr namesDistinct_nil)
  | succ n ih =>
      have child := ih true
      have byName := shows_named child
      have all : ∀ types : List TypeId, Ensures (types.mapM (boundAt n true)) fun bounds =>
          NamesDistinct (nodesOfAll bounds) := fun types =>
        (Ensures.mapM child).mono fun bounds given => namesDistinct_nodesOfAll.mpr given
      have worked : Shows (do
          let value ← Check.evaluate t
          if value = t then named (boundAt n true) t else boundAt n preferNamed value) := by
        refine .skip fun value => ?_
        split
        · exact byName t
        · exact ih preferNamed value
      have listed : ∀ {make : List Bound → Bound} (types : List TypeId),
          (∀ bounds, (make bounds).nodes = make bounds :: nodesOfAll bounds) →
          (∀ bounds properties index, make bounds ≠ .object properties index) →
          Shows (do return make (← types.mapM (boundAt n true))) := by
        intro make types spelled other
        refine (all types).bind fun bounds here => .pure ?_
        rw [spelled, namesDistinct_cons (other bounds)]
        exact here
      unfold boundAt
      refine .skip fun written => ?_
      split
      · exact byName t
      · refine .skip fun data => ?_
        cases data with
        | object shape =>
            dsimp only
            split
            · exact byName t
            · exact shows_objectBound child t
        | keyOf => exact worked
        | indexedAccess => exact worked
        | mapped => exact worked
        | intersection members => exact listed members (fun _ => rfl) nofun
        | tuple items => exact listed items (fun _ => rfl) nofun
        | union members =>
            refine .skip fun isBoolean => ?_
            split
            · exact byName t
            · refine (shows_unionMembers child members).bind fun bounds here => .pure ?_
              refine (namesDistinct_cons ?_).mpr (namesDistinct_nodesOfAll.mpr here)
              exact nofun
        | booleanLiteral | numberLiteral | stringLiteral =>
            refine .pure ((namesDistinct_cons ?_).mpr namesDistinct_nil)
            exact nofun
        | _ => exact byName t

theorem shows_bound (t : TypeId) : Shows (bound t) := shows_boundAt maxDepth true t

theorem shows_declaredBound (t : TypeId) : Shows (declaredBound t) := by
  have shown : ∀ kind : Option SymbolKind,
      Shows (if kind = some .interface then objectBound bound t else boundAt maxDepth false t) := by
    intro kind
    split
    · exact shows_objectBound shows_bound t
    · exact shows_boundAt maxDepth false t
  refine .skip fun data => ?_
  cases data with
  | reference symbol args => exact .skip fun kind => shown kind
  | _ => exact shown none

theorem shows_function? (t : TypeId) :
    Ensures (function? t) fun shown => ∀ s ∈ shown, NamesDistinct s.nodes :=
  .skip fun _ => .mapM_option (shows_signature shows_bound)

theorem shows_typeParameters (s : SymbolId) : Ensures (typeParameters s) NamesDistinctAll :=
  .skip fun ids => shows_typeList shows_bound ids

/-! ### Components and classes -/

instance neat_readonlyOf? {t : TypeId} : Neat (readonlyOf? t) := by
  refine .bind fun written => ?_
  split
  · exact neat_pure
  · refine .bind fun name => ?_
    split
    · refine @neat_mapM_option _ _ _ _ fun wrapped => .bind fun inner => ?_
      split <;> infer_instance
    · exact neat_pure

/-- Properties that are shown, if any are. -/
abbrev ShowsProps (m : Check (Option (List Property))) : Prop :=
  Ensures m fun shown => ∀ properties ∈ shown, NamesDistinct (nodesOfProperties properties)

theorem shows_propsAt (n : Nat) (t : TypeId) :
    Ensures (propsAt n t) fun properties => NamesDistinct (nodesOfProperties properties) := by
  induction n generalizing t with
  | zero => exact .pure namesDistinct_nil
  | succ n ih =>
      refine .skip fun isBoolean => .skip fun data => ?_
      split
      · refine (Ensures.mapM ih).bind fun lists all => .pure ?_
        rw [namesDistinct_nodesOfProperties]
        intro m inside
        obtain ⟨list, listed, member⟩ := List.mem_flatten.mp inside
        exact namesDistinct_nodesOfProperties.mp (all list listed) m member
      · refine .skip fun wrapped => ?_
        split
        · exact ih _
        · refine .skip fun members => (Ensures.mapM (shows_property (shows_boundAt n true))).mono ?_
          exact fun properties given => namesDistinct_nodesOfProperties.mpr given

theorem shows_props (t : TypeId) : ShowsProps (some <$> props t) :=
  (shows_propsAt maxDepth t).map fun _ given _ same => Option.some.inj same ▸ given

theorem shows_none : ShowsProps (pure none) := .pure nofun

theorem shows_classProps? (t : TypeId) : ShowsProps (classProps? t) := by
  refine .skip fun signatures => ?_
  split
  · exact shows_none
  · refine .skip fun found => ?_
    split
    · exact shows_none
    · refine .skip fun render => ?_
      split
      · exact shows_none
      · refine .skip fun calls => ?_
        split
        · exact shows_none
        · refine .skip fun state => ?_
          split
          · exact shows_props _
          · exact shows_none

theorem shows_functionProps? (t : TypeId) : ShowsProps (functionProps? t) := by
  refine .skip fun signatures => ?_
  split
  · exact shows_none
  · refine .skip fun state => ?_
    split
    · split
      · exact shows_props _
      · exact .pure fun properties same => Option.some.inj same ▸ namesDistinct_nil
    · exact shows_none

theorem shows_componentProps? (t : TypeId) : ShowsProps (componentProps? t) := by
  refine (shows_classProps? t).bind fun found here => ?_
  split
  · exact .pure here
  · exact shows_functionProps? t

/-- The names of the members of a class. -/
def ClassMembers.names (members : ClassMembers) : List String :=
  members.properties.map (·.1.name) ++ members.methods.map (·.1.name)

/-- The types of the members of a class are shown with names that are distinct in each object. -/
structure ClassMembers.Shown (members : ClassMembers) : Prop where
  properties : ∀ m ∈ members.properties, NamesDistinct m.2.nodes
  methods : ∀ m ∈ members.methods, NamesDistinct m.2.nodes
  constructors : ∀ m ∈ members.constructors, NamesDistinct (nodesOfProperties m.parameters)

/-- A member becomes a property or a method. -/
theorem shows_addMember {sofar : ClassMembers} (shown : sofar.Shown) (m : Member) :
    Ensures (addMember sofar m) fun members =>
      members.Shown ∧ members.names.Perm (sofar.names ++ [m.name]) := by
  refine (shows_function? m.type).bind fun found given => ?_
  split
  · rename_i s
    refine .pure ⟨{ shown with methods := fun entry inside => ?_ }, ?_⟩
    · rcases List.mem_append.mp inside with old | new
      · exact shown.methods entry old
      · exact List.mem_singleton.mp new ▸ given s rfl
    · simp [ClassMembers.names]
  · refine (shows_bound m.type).bind fun type here =>
      .pure ⟨{ shown with properties := fun entry inside => ?_ }, ?_⟩
    · rcases List.mem_append.mp inside with old | new
      · exact shown.properties entry old
      · exact List.mem_singleton.mp new ▸ here
    · simp only [ClassMembers.names, List.map_append, List.map_singleton, List.append_assoc]
      exact List.perm_append_comm.append_left _

theorem shows_addMembers {sofar : ClassMembers} (shown : sofar.Shown) (list : List Member) :
    Ensures (list.foldlM addMember sofar) fun members =>
      members.Shown ∧ members.names.Perm (sofar.names ++ list.map (·.name)) := by
  induction list generalizing sofar with
  | nil => exact .pure ⟨shown, by simp⟩
  | cons m rest ih =>
      rw [List.foldlM_cons]
      refine (shows_addMember shown m).bind fun next first => (ih first.1).mono fun last second => ?_
      refine ⟨second.1, second.2.trans ?_⟩
      rw [List.map_cons, ← List.singleton_append, ← List.append_assoc]
      exact first.2.append_right _

/-- All members of a class have names of their own, be they properties or methods. -/
theorem shows_classMembers? (t : TypeId) :
    Ensures (classMembers? t) fun shown =>
      ∀ members ∈ shown, members.Shown ∧ members.names.Nodup := by
  refine .skip fun signatures => ?_
  split
  · exact .pure nofun
  · refine (ensures_members _).bind fun members distinct => ?_
    have start : ClassMembers.Shown {} := ⟨nofun, nofun, nofun⟩
    refine (shows_addMembers start members).bind fun found both => ?_
    have constructor : ∀ s : Signature, Ensures
        (do return (⟨s.documentation, ← s.params.mapM (parameter bound)⟩ : ConstructorEntry))
        fun entry => NamesDistinct (nodesOfProperties entry.parameters) := fun s =>
      (Ensures.mapM (shows_parameter shows_bound)).bind fun parameters given =>
        .pure (namesDistinct_nodesOfProperties.mpr given)
    refine (Ensures.mapM constructor).bind fun constructors all => .pure fun members same => ?_
    cases same
    exact ⟨{ both.1 with constructors := all }, both.2.nodup_iff.mpr distinct⟩

end Render

end ApiDocs
