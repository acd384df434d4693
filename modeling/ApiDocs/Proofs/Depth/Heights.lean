import ApiDocs.Proofs.Members.Packages

set_option autoImplicit false

/-!
Heights of the trees that types are shown as. A type that is shown down to a depth is at most one
higher, whatever the tables of the checker hold, so that no type is shown without end and no tree in
a package is higher than the depth allows.
-/

namespace ApiDocs

open Checker (Always always_pure)
open Syntax

/-! ### Trees -/

namespace Bound

mutual

/-- The number of nodes on the longest way down a tree. -/
def height : Bound → Nat
  | .named _ none _ _ => 1
  | .named _ (some parameters) _ _ => heightOfAll parameters + 1
  | .object properties none => heightOfProperties properties + 1
  | .object properties (some ⟨_, type⟩) => max (heightOfProperties properties) (height type) + 1
  | .tuple items => heightOfAll items + 1
  | .function none parameters result => max (heightOfProperties parameters) (height result) + 1
  | .function (some typeParameters) parameters result =>
      max (heightOfAll typeParameters) (max (heightOfProperties parameters) (height result)) + 1
  | .intersection members => heightOfAll members + 1
  | .union members => heightOfAll members + 1
  | .booleanLiteral _ => 1
  | .numberLiteral _ => 1
  | .stringLiteral _ => 1

def heightOfAll : List Bound → Nat
  | [] => 0
  | bound :: rest => max (height bound) (heightOfAll rest)

def heightOfProperties : List Property → Nat
  | [] => 0
  | ⟨_, _, type, _, _⟩ :: rest => max (height type) (heightOfProperties rest)

end

section

variable {n : Nat}

@[simp] theorem heightOfAll_le {bounds : List Bound} :
    heightOfAll bounds ≤ n ↔ ∀ b ∈ bounds, b.height ≤ n := by
  induction bounds with
  | nil => simp [heightOfAll]
  | cons b rest ih => simp [heightOfAll, ih]

@[simp] theorem heightOfProperties_le {properties : List Property} :
    heightOfProperties properties ≤ n ↔ ∀ q ∈ properties, q.type.height ≤ n := by
  induction properties with
  | nil => simp [heightOfProperties]
  | cons q rest ih =>
      obtain ⟨_, _, type, _, _⟩ := q
      simp [heightOfProperties, ih]

theorem height_named {name : String} {parameters : Option (List Bound)} {key origin : Option String} :
    (Bound.named name parameters key origin).height ≤ n + 1 ↔
      ∀ list ∈ parameters, ∀ b ∈ list, b.height ≤ n := by
  cases parameters <;> simp [height]

theorem height_object {properties : List Property} {index : Option IndexEntry} :
    (Bound.object properties index).height ≤ n + 1 ↔
      (∀ q ∈ properties, q.type.height ≤ n) ∧ ∀ i ∈ index, i.type.height ≤ n := by
  cases index with
  | none => simp [height]
  | some i =>
      obtain ⟨_, type⟩ := i
      simp [height]

theorem height_function {typeParameters : Option (List Bound)} {parameters : List Property}
    {result : Bound} : (Bound.function typeParameters parameters result).height ≤ n + 1 ↔
      (∀ list ∈ typeParameters, ∀ b ∈ list, b.height ≤ n) ∧ (∀ q ∈ parameters, q.type.height ≤ n) ∧
        result.height ≤ n := by
  cases typeParameters <;> simp [height]

end

mutual

/-- The parts of a tree are not higher than the tree. -/
theorem height_nodes_le : (b : Bound) → ∀ part ∈ b.nodes, part.height ≤ b.height
  | .named _ none _ _ => by simp_all [nodes]
  | .named _ (some parameters) _ _ => by
      have below := height_nodesOfAll_le parameters
      grind [nodes, height]
  | .object properties none => by
      have below := height_nodesOfProperties_le properties
      grind [nodes, height]
  | .object properties (some ⟨_, type⟩) => by
      have below := height_nodesOfProperties_le properties
      have index := height_nodes_le type
      grind [nodes, height]
  | .tuple items => by
      have below := height_nodesOfAll_le items
      grind [nodes, height]
  | .function none parameters result => by
      have below := height_nodesOfProperties_le parameters
      have last := height_nodes_le result
      grind [nodes, height]
  | .function (some typeParameters) parameters result => by
      have first := height_nodesOfAll_le typeParameters
      have below := height_nodesOfProperties_le parameters
      have last := height_nodes_le result
      grind [nodes, height]
  | .intersection members => by
      have below := height_nodesOfAll_le members
      grind [nodes, height]
  | .union members => by
      have below := height_nodesOfAll_le members
      grind [nodes, height]
  | .booleanLiteral _ => by simp_all [nodes]
  | .numberLiteral _ => by simp_all [nodes]
  | .stringLiteral _ => by simp_all [nodes]

theorem height_nodesOfAll_le : (bounds : List Bound) →
    ∀ part ∈ nodesOfAll bounds, part.height ≤ heightOfAll bounds
  | [] => nofun
  | b :: rest => by
      have first := height_nodes_le b
      have later := height_nodesOfAll_le rest
      grind [nodesOfAll, heightOfAll]

theorem height_nodesOfProperties_le : (properties : List Property) →
    ∀ part ∈ nodesOfProperties properties, part.height ≤ heightOfProperties properties
  | [] => nofun
  | ⟨_, _, type, _, _⟩ :: rest => by
      have first := height_nodes_le type
      have later := height_nodesOfProperties_le rest
      grind [nodesOfProperties, heightOfProperties]

end

theorem mem_nodes_self (b : Bound) : b ∈ b.nodes := by
  unfold nodes
  split <;> exact List.mem_cons_self

end Bound

open ApiDocs.Bound

/-- None of the trees is higher than `n`. -/
def Low (n : Nat) (nodes : List Bound) : Prop := ∀ b ∈ nodes, b.height ≤ n

section

variable {n : Nat}

theorem low_nil : Low n [] := List.forall_mem_nil _

@[simp] theorem low_append {first second : List Bound} :
    Low n (first ++ second) ↔ Low n first ∧ Low n second := List.forall_mem_append

@[simp] theorem low_nodes {b : Bound} : Low n b.nodes ↔ b.height ≤ n := by
  constructor
  · exact fun low => low b (mem_nodes_self b)
  · intro low part inside
    exact Nat.le_trans (height_nodes_le b part inside) low

@[simp] theorem low_nodesOfAll {bounds : List Bound} :
    Low n (nodesOfAll bounds) ↔ ∀ b ∈ bounds, b.height ≤ n := by
  induction bounds with
  | nil => simp [nodesOfAll, low_nil]
  | cons b rest ih => simp [nodesOfAll, ih]

@[simp] theorem low_nodesOfProperties {properties : List Property} :
    Low n (nodesOfProperties properties) ↔ ∀ q ∈ properties, q.type.height ≤ n := by
  induction properties with
  | nil => simp [nodesOfProperties, low_nil]
  | cons q rest ih =>
      obtain ⟨_, _, type, _, _⟩ := q
      simp [nodesOfProperties, ih]

theorem low_optional {bounds : Option (List Bound)} :
    Low n ((bounds.map nodesOfAll).getD []) ↔ ∀ list ∈ bounds, ∀ b ∈ list, b.height ≤ n := by
  cases bounds <;> simp [low_nil]

theorem low_flatMap {α : Type} {list : List α} {nodes : α → List Bound} :
    Low n (list.flatMap nodes) ↔ ∀ x ∈ list, Low n (nodes x) := by
  induction list with
  | nil => simp [low_nil]
  | cons x rest ih => simp [ih]

theorem low_signature {s : SignatureBound} :
    Low n s.nodes ↔ (∀ list ∈ s.typeParameters, ∀ b ∈ list, b.height ≤ n) ∧
      (∀ q ∈ s.parameters, q.type.height ≤ n) ∧ s.result.height ≤ n := by
  rw [SignatureBound.nodes, low_append, low_append, low_optional, low_nodesOfProperties, low_nodes, and_assoc]

theorem Low.mono {m : Nat} {nodes : List Bound} (low : Low n nodes) (le : n ≤ m) : Low m nodes :=
  fun b inside => Nat.le_trans (low b inside) le

end

/-! ### Types -/

namespace Checker

variable {α β : Type}

theorem Always.mono {m : Check α} {holds weaker : α → Prop} (always : Always m holds)
    (weakens : ∀ a, holds a → weaker a) : Always m weaker := fun p c => weakens _ (always p c)

theorem Always.map {m : Check α} {f : α → β} {holds : α → Prop} {then_ : β → Prop}
    (always : Always m holds) (next : ∀ a, holds a → then_ (f a)) : Always (f <$> m) then_ :=
  fun p c => next _ (always p c)

theorem Always.mapM {f : α → Check β} {holds : β → Prop} (each : ∀ x, Always (f x) holds)
    (list : List α) : Always (list.mapM f) fun answers => ∀ b ∈ answers, holds b := by
  induction list with
  | nil => exact always_pure nofun
  | cons x rest ih =>
      rw [List.mapM_cons]
      exact (each x).bind fun b first => ih.bind fun bs later =>
        always_pure (List.forall_mem_cons.mpr ⟨first, later⟩)

theorem Always.mapM_option {f : α → Check β} {holds : β → Prop} (each : ∀ x, Always (f x) holds)
    (o : Option α) : Always (o.mapM f) fun answer => ∀ b ∈ answer, holds b := by
  cases o with
  | none => exact always_pure nofun
  | some x => exact (each x).map fun b here b' same => Option.some.inj same ▸ here

theorem Always.foldlM {f : β → α → Check β} {holds : β → Prop}
    (each : ∀ b x, holds b → Always (f b x) holds) (list : List α) {b : β} (start : holds b) :
    Always (list.foldlM f b) holds := by
  induction list generalizing b with
  | nil => exact always_pure start
  | cons x rest ih =>
      rw [List.foldlM_cons]
      exact (each b x start).bind fun _ next => ih next

end Checker

namespace Render

section

variable {n : Nat} {child : TypeId → Check Bound} (low : ∀ t, Always (child t) (·.height ≤ n))
include low

theorem low_typeList (types : List TypeId) :
    Always (typeList child types) fun shown => ∀ list ∈ shown, ∀ b ∈ list, b.height ≤ n := by
  unfold typeList
  split
  · exact always_pure nofun
  · exact (Always.mapM low types).map fun bounds all list same => Option.some.inj same ▸ all

theorem low_named (t : TypeId) : Always (named child t) (·.height ≤ n + 1) := by
  refine .skip fun before => .skip fun parts => ?_
  refine (low_typeList low parts.args).bind fun parameters all => ?_
  exact .skip fun state => .skip fun program => always_pure (height_named.mpr all)

theorem low_property (m : Member) : Always (property child m) (·.type.height ≤ n) :=
  (low m.type).bind fun _ here => always_pure here

theorem low_parameter (x : Parameter) : Always (parameter child x) (·.type.height ≤ n) :=
  (low x.type).bind fun _ here => always_pure here

theorem low_shownSignature (s : Signature) :
    Always (signature child s) fun shown => Low n shown.nodes := by
  refine (low_typeList low s.typeParams).bind fun typeParameters first => ?_
  refine (Always.mapM (low_parameter low) s.params).bind fun parameters second => ?_
  exact (low s.result).bind fun result third => always_pure (low_signature.mpr ⟨first, second, third⟩)

theorem low_objectBound (t : TypeId) : Always (objectBound child t) (·.height ≤ n + 1) := by
  refine .skip fun signatures => ?_
  split
  · exact (low_shownSignature low _).bind fun shown here =>
      always_pure (height_function.mpr (low_signature.mp here))
  · refine .skip fun members => (Always.mapM (low_property low) members).bind fun properties all => ?_
    have entry : ∀ i : IndexInfo, Always (do return (⟨i.keyName, ← child i.type⟩ : IndexEntry))
        (·.type.height ≤ n) := fun i => (low i.type).bind fun _ here => always_pure here
    refine .skip fun index => (Always.mapM_option entry index).bind fun index given => ?_
    exact always_pure (height_object.mpr ⟨all, given⟩)

theorem low_unionMembers (some : 1 ≤ n) (members : List TypeId) :
    Always (unionMembers child members) fun bounds => ∀ b ∈ bounds, b.height ≤ n := by
  refine Always.foldlM (fun sofar t before => .skip fun data => ?_) members (List.forall_mem_nil _)
  split
  · refine always_pure fun b inside => ?_
    rcases List.mem_append.mp inside with kept | new
    · exact before b (List.dropLast_subset _ kept)
    · rw [List.mem_singleton.mp new]
      exact some
  · refine (low t).bind fun shown here => always_pure fun b inside => ?_
    rcases List.mem_append.mp inside with kept | new
    · exact before b kept
    · exact List.mem_singleton.mp new ▸ here

end

/-- A type that is shown down to a depth is at most one higher. -/
theorem low_boundAt (n : Nat) (preferNamed : Bool) (t : TypeId) :
    Always (boundAt n preferNamed t) (·.height ≤ n + 1) := by
  induction n generalizing preferNamed t with
  | zero => exact .skip fun c => always_pure (Nat.le_refl 1)
  | succ n ih =>
      have child := ih true
      have byName := low_named child
      have all : ∀ types : List TypeId, Always (types.mapM (boundAt n true)) fun bounds =>
          heightOfAll bounds ≤ n + 1 := fun types =>
        (Always.mapM child types).mono fun _ given => heightOfAll_le.mpr given
      have worked : Always (do
          let value ← Check.evaluate t
          if value = t then named (boundAt n true) t else boundAt n preferNamed value)
          (·.height ≤ n + 1 + 1) := by
        refine .skip fun value => ?_
        split
        · exact byName t
        · exact (ih preferNamed value).mono fun b here => Nat.le_succ_of_le here
      unfold boundAt
      refine .skip fun written => ?_
      split
      · exact byName t
      · refine .skip fun data => ?_
        cases data with
        | object shape =>
            dsimp only
            split
            · exact byName t
            · exact low_objectBound child t
        | keyOf => exact worked
        | indexedAccess => exact worked
        | mapped => exact worked
        | intersection members =>
            exact (all members).bind fun bounds here => always_pure (Nat.succ_le_succ here)
        | tuple items =>
            exact (all items).bind fun bounds here => always_pure (Nat.succ_le_succ here)
        | union members =>
            refine .skip fun isBoolean => ?_
            split
            · exact byName t
            · refine (low_unionMembers child (Nat.le_add_left 1 n) members).bind fun bounds here => ?_
              exact always_pure (Nat.succ_le_succ (heightOfAll_le.mpr here))
        | booleanLiteral | numberLiteral | stringLiteral => exact always_pure (Nat.le_add_left 1 _)
        | _ => exact byName t

theorem low_bound (t : TypeId) : Always (bound t) (·.height ≤ 34) := low_boundAt maxDepth true t

theorem low_declaredBound (t : TypeId) : Always (declaredBound t) (·.height ≤ 35) := by
  have shown : ∀ kind : Option SymbolKind, Always
      (if kind = some .interface then objectBound bound t else boundAt maxDepth false t)
      (·.height ≤ 35) := by
    intro kind
    split
    · exact low_objectBound low_bound t
    · exact (low_boundAt maxDepth false t).mono fun b here => Nat.le_succ_of_le here
  refine .skip fun data => ?_
  cases data with
  | reference symbol args => exact .skip fun kind => shown kind
  | _ => exact shown none

theorem low_function? (t : TypeId) :
    Always (function? t) fun shown => ∀ s ∈ shown, Low 34 s.nodes :=
  .skip fun _ => Always.mapM_option (low_shownSignature low_bound) _

/-! ### Components and classes -/

/-- The properties of a component start at least one level down. -/
theorem low_propsAt (n : Nat) (t : TypeId) :
    Always (propsAt n t) fun properties => ∀ q ∈ properties, q.type.height ≤ n := by
  induction n generalizing t with
  | zero => exact always_pure (List.forall_mem_nil _)
  | succ n ih =>
      have higher : ∀ u, Always (propsAt n u) fun properties => ∀ q ∈ properties, q.type.height ≤ n + 1 :=
        fun u => (ih u).mono fun properties all q inside => Nat.le_succ_of_le (all q inside)
      refine .skip fun isBoolean => .skip fun data => ?_
      split
      · refine (Always.mapM higher _).bind fun lists all => always_pure fun q inside => ?_
        obtain ⟨list, listed, member⟩ := List.mem_flatten.mp inside
        exact all list listed q member
      · refine .skip fun wrapped => ?_
        split
        · exact higher _
        · exact .skip fun members => Always.mapM (low_property (low_boundAt n true)) members

/-- Properties that are shown, if any are. -/
abbrev LowProps (m : Check (Option (List Property))) : Prop :=
  Always m fun shown => ∀ properties ∈ shown, ∀ q ∈ properties, q.type.height ≤ 34

theorem lowProps_props (t : TypeId) : LowProps (some <$> props t) :=
  (low_propsAt maxDepth t).map fun _ all _ same q inside =>
    Nat.le_succ_of_le (all q (Option.some.inj same ▸ inside))

theorem lowProps_none : LowProps (pure none) := always_pure nofun

theorem lowProps_classProps? (t : TypeId) : LowProps (classProps? t) := by
  refine .skip fun signatures => ?_
  split
  · exact lowProps_none
  · refine .skip fun found => ?_
    split
    · exact lowProps_none
    · refine .skip fun render => ?_
      split
      · exact lowProps_none
      · refine .skip fun calls => ?_
        split
        · exact lowProps_none
        · refine .skip fun state => ?_
          split
          · exact lowProps_props _
          · exact lowProps_none

theorem lowProps_functionProps? (t : TypeId) : LowProps (functionProps? t) := by
  refine .skip fun signatures => ?_
  split
  · exact lowProps_none
  · refine .skip fun state => ?_
    split
    · split
      · exact lowProps_props _
      · refine always_pure fun properties same => ?_
        cases same
        exact List.forall_mem_nil _
    · exact lowProps_none

theorem lowProps_componentProps? (t : TypeId) : LowProps (componentProps? t) := by
  refine (lowProps_classProps? t).bind fun found here => ?_
  split
  · exact always_pure here
  · exact lowProps_functionProps? t

/-- The types of the members of a class are low. -/
structure ClassMembers.Low (members : ClassMembers) : Prop where
  properties : ∀ m ∈ members.properties, m.2.height ≤ 34
  methods : ∀ m ∈ members.methods, ApiDocs.Low 34 m.2.nodes
  constructors : ∀ m ∈ members.constructors, ∀ q ∈ m.parameters, q.type.height ≤ 34

theorem low_addMember (sofar : ClassMembers) (m : Member) (low : sofar.Low) :
    Always (addMember sofar m) ClassMembers.Low := by
  refine (low_function? m.type).bind fun found given => ?_
  split
  · rename_i s
    refine always_pure { low with methods := fun entry inside => ?_ }
    rcases List.mem_append.mp inside with old | new
    · exact low.methods entry old
    · exact List.mem_singleton.mp new ▸ given s rfl
  · refine (low_bound m.type).bind fun type here =>
      always_pure { low with properties := fun entry inside => ?_ }
    rcases List.mem_append.mp inside with old | new
    · exact low.properties entry old
    · exact List.mem_singleton.mp new ▸ here

theorem low_classMembers? (t : TypeId) :
    Always (classMembers? t) fun shown => ∀ members ∈ shown, members.Low := by
  refine .skip fun signatures => ?_
  split
  · exact always_pure nofun
  · refine .skip fun members => ?_
    have start : ClassMembers.Low {} := ⟨nofun, nofun, nofun⟩
    refine (Always.foldlM low_addMember members start).bind fun found low => ?_
    have constructor : ∀ s : Signature, Always
        (do return (⟨s.documentation, ← s.params.mapM (parameter bound)⟩ : ConstructorEntry))
        fun entry => ∀ q ∈ entry.parameters, q.type.height ≤ 34 := fun s =>
      (Always.mapM (low_parameter low_bound) s.params).bind fun parameters all => always_pure all
    refine (Always.mapM constructor _).bind fun constructors all => always_pure fun members same => ?_
    cases same
    exact { low with constructors := all }

end Render

/-! ### Packages -/

namespace Content

/-- What is shown, if anything is, is low. -/
abbrev Lowers (m : Check (Option Content)) : Prop :=
  Always m fun shown => ∀ content ∈ shown, Low 35 content.body.nodes

theorem lowers_ofType (s : SymbolId) : Lowers (ofType s) := by
  refine .skip fun t => (Render.low_declaredBound t).bind fun shown first => ?_
  have parameters : Always (Render.typeParameters s) fun shown => ∀ list ∈ shown, ∀ b ∈ list, b.height ≤ 34 :=
    .skip fun ids => Render.low_typeList Render.low_bound ids
  refine parameters.bind fun parameters second => always_pure fun content same => ?_
  cases same
  exact low_append.mpr ⟨low_nodes.mpr first, (low_optional.mpr second).mono (by decide)⟩

theorem low_component {properties : List Property} (low : ∀ q ∈ properties, q.type.height ≤ 34) :
    Low 35 (DeclarationBody.component properties).nodes :=
  (low_nodesOfProperties.mpr low).mono (by decide)

theorem low_classBody {members : Render.ClassMembers} (low : members.Low) :
    Low 35 (classBody members).nodes := by
  have all : Low 34 (classBody members).nodes := by
    simp only [classBody, DeclarationBody.nodes, low_append, low_flatMap, List.forall_mem_map, low_nodes,
      low_nodesOfProperties]
    exact ⟨⟨low.properties, low.constructors⟩, low.methods⟩
  exact all.mono (by decide)

theorem lowers_ofClass (s : SymbolId) : Lowers (ofClass s) := by
  refine .skip fun value => .skip fun t => ?_
  refine (Render.lowProps_componentProps? value).bind fun component given => ?_
  split
  · refine always_pure fun content same => ?_
    cases same
    exact low_component (given _ rfl)
  · refine (Render.low_classMembers? value).bind fun members found => always_pure fun content same => ?_
    obtain ⟨class_, there, rfl⟩ := Option.map_eq_some_iff.mp same
    exact low_classBody (found class_ there)

theorem lowers_ofCallable (t : TypeId) : Lowers (ofCallable t) := by
  refine (Render.lowProps_componentProps? t).bind fun component given => ?_
  split
  · refine always_pure fun content same => ?_
    cases same
    exact low_component (given _ rfl)
  · refine (Render.low_function? t).bind fun signature found => always_pure fun content same => ?_
    obtain ⟨s, there, rfl⟩ := Option.map_eq_some_iff.mp same
    exact (found s there).mono (by decide)

theorem lowers_ofVariable (d : Declarator) (s : SymbolId) : Lowers (ofVariable d s) := by
  refine .skip fun t => (lowers_ofCallable t).bind fun callable given => ?_
  split
  · exact always_pure given
  · split
    · refine (Render.low_bound t).bind fun shown here => always_pure fun content same => ?_
      cases same
      exact (low_nodes.mpr here).mono (by decide)
    · exact always_pure nofun

end Content

theorem Extraction.Describes.lowers {space : Space} {describe : SymbolId → Check (Option Content)}
    (describes : Extraction.Describes space describe) (s : SymbolId) : Content.Lowers (describe s) := by
  cases describes with
  | type => exact Content.lowers_ofType s
  | classDecl => exact Content.lowers_ofClass s
  | function => exact .skip fun t => Content.lowers_ofCallable t
  | variableDecl d => exact Content.lowers_ofVariable d s

/-- No tree in the documentation of a program is higher than 35. -/
theorem Package.low_addProgram (program : Program) (name outDir packagePath : String) :
    ((Package.empty name outDir).addProgram packagePath program).Shows fun body => Low 35 body.nodes := by
  have described : ∀ space describe, Extraction.Describes space describe → ∀ s c, True →
      True ∧ ∀ content ∈ ((describe s).outcome program c).1, Low 35 content.body.nodes :=
    fun _ _ kind s c _ => ⟨trivial, kind.lowers s program c⟩
  exact @shows_addProgram _ (fun _ => True) program trivial described name outDir packagePath

end ApiDocs
