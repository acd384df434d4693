import ApiDocs.Extract
import ApiDocs.Proofs.Names

set_option autoImplicit false

/-!
Every named type that is shown was rendered for a symbol: the alias that a type is written as, or else
the symbol that declares it. Its key is that of the type which the symbol declares.
-/

namespace ApiDocs

/-! ### Named types in a tree -/

/-- The name of a type that is shown, and the key by which it refers to a declaration. -/
structure TypeLink where
  name : String
  key : String
deriving Repr, DecidableEq

namespace Bound

def ownLinks (name : String) (key : Option String) : List TypeLink := key.toList.map (⟨name, ·⟩)

mutual

/-- The named types of the tree that have a key: a node itself, then those of its parts in order. -/
def links : Bound → List TypeLink
  | .named name none key _ => ownLinks name key
  | .named name (some parameters) key _ => ownLinks name key ++ linksOfAll parameters
  | .object properties none => linksOfProperties properties
  | .object properties (some ⟨_, type⟩) => linksOfProperties properties ++ links type
  | .tuple items => linksOfAll items
  | .function none parameters result => linksOfProperties parameters ++ links result
  | .function (some typeParameters) parameters result =>
      linksOfAll typeParameters ++ linksOfProperties parameters ++ links result
  | .intersection members => linksOfAll members
  | .union members => linksOfAll members
  | .booleanLiteral _ => []
  | .numberLiteral _ => []
  | .stringLiteral _ => []

def linksOfAll : List Bound → List TypeLink
  | [] => []
  | bound :: rest => links bound ++ linksOfAll rest

def linksOfProperties : List Property → List TypeLink
  | [] => []
  | ⟨_, _, type, _, _⟩ :: rest => links type ++ linksOfProperties rest

end

end Bound

open ApiDocs.Bound

def SignatureBound.links (s : SignatureBound) : List TypeLink :=
  (s.typeParameters.map linksOfAll).getD [] ++ linksOfProperties s.parameters ++ s.result.links

/-- The named types that a declaration shows. -/
def DeclarationBody.links : DeclarationBody → List TypeLink
  | .component properties => linksOfProperties properties
  | .type bound parameters => bound.links ++ (parameters.map linksOfAll).getD []
  | .classDecl properties constructors methods =>
      properties.flatMap (·.type.links) ++ constructors.flatMap (linksOfProperties ·.parameters) ++
        methods.flatMap (·.signature.links)
  | .function signature => signature.links
  | .variable bound _ => bound.links

/-! ### Later states -/

namespace Checker

/-- A state that work may lead to. -/
def Later (c c' : Checker) : Prop := Checker.Extends c.arena.size c c'

theorem Later.refl (c : Checker) : c.Later c := Extends.refl _ c

theorem Later.trans {a b c : Checker} (first : a.Later b) (second : b.Later c) : a.Later c :=
  Extends.trans first (second.mono first.size)

/-- A state that work for a program may lead to. -/
def Reached (p : Program) (c : Checker) : Prop := (ofProgram p).Later c

theorem Reached.named {p : Program} {c : Checker} (reached : Reached p c) : c.bindings.Named :=
  (Bindings.named_ofProgram p).extends reached.bindings

theorem Reached.after {α : Type} {p : Program} {c : Checker} (reached : Reached p c)
    (m : Check α) : Reached p (m.outcome p c).2 := Later.trans reached (m.kept p c)

/-- Whether a symbol of that kind declares a type of its own. -/
def declaresType : Option SymbolKind → Bool
  | some .interface => true
  | some .classDecl => true
  | some .typeAlias => true
  | _ => false

/-- Symbols that come later declare no types of their own. -/
theorem declaresType_extends {b b' : Bindings} (grown : b.Extends b') {s : SymbolId}
    (none : declaresType (b.kind? s) = false) : declaresType (b'.kind? s) = false := by
  cases found : b'.symbol? s with
  | none => simp [Bindings.kind?, found, declaresType]
  | some x =>
      rcases grown.fresh s x found with old | external | whole
      · simpa [Bindings.kind?, found, old] using none
      · simp [Bindings.kind?, found, external, declaresType]
      · simp [Bindings.kind?, found, whole, declaresType]

/-- The symbol that a type is shown by: the alias that it is written as, or else the symbol that
declares it. -/
def shownSymbol? (c : Checker) (t : TypeId) : Option SymbolId :=
  match c.arena.alias? t with
  | some ref => some ref.symbol
  | none => c.typeSymbol? t

/-- A named type was rendered for a symbol: it has the name that a type had in a state before this one,
where the symbol showed it, and the key of the type that the symbol declares. If the symbol declares
none, it has the key of the type itself. -/
structure RenderedAt (p : Program) (c : Checker) (link : TypeLink) (s : SymbolId) (before : Checker)
    (t : TypeId) : Prop where
  reached : Reached p before
  later : before.Later c
  shown : before.shownSymbol? t = some s
  name : link.name = before.typeName t
  key : (∃ u, c.declared[s]? = some u ∧ link.key = u.key) ∨
    (declaresType (before.bindings.kind? s) = false ∧ link.key = t.key)

def RenderedFor (p : Program) (c : Checker) (link : TypeLink) (s : SymbolId) : Prop :=
  ∃ before t, RenderedAt p c link s before t

theorem RenderedFor.later {p : Program} {c c' : Checker} {link : TypeLink} {s : SymbolId}
    (made : RenderedFor p c link s) (later : c.Later c') : RenderedFor p c' link s := by
  obtain ⟨before, t, made⟩ := made
  exact ⟨before, t, { made with
    later := made.later.trans later
    key := made.key.imp_left fun ⟨u, known, same⟩ => ⟨u, later.declared s u known, same⟩ }⟩

section

variable (p : Program)

/-- All of the named types were rendered for symbols. -/
def Traces (c : Checker) (links : List TypeLink) : Prop := ∀ link ∈ links, ∃ s, RenderedFor p c link s

@[simp] theorem traces_nil (c : Checker) : Traces p c [] := by
  intro link inside
  cases inside

@[simp] theorem traces_append (c : Checker) (first second : List TypeLink) :
    Traces p c (first ++ second) ↔ Traces p c first ∧ Traces p c second := List.forall_mem_append

@[simp] theorem traces_linksOfAll (c : Checker) (bounds : List Bound) :
    Traces p c (linksOfAll bounds) ↔ ∀ b ∈ bounds, Traces p c b.links := by
  induction bounds with
  | nil => simp [linksOfAll]
  | cons b rest ih => simp [linksOfAll, ih]

@[simp] theorem traces_linksOfProperties (c : Checker) (properties : List Property) :
    Traces p c (linksOfProperties properties) ↔ ∀ m ∈ properties, Traces p c m.type.links := by
  induction properties with
  | nil => simp [linksOfProperties]
  | cons m rest ih =>
      obtain ⟨_, _, type, _, _⟩ := m
      simp [linksOfProperties, ih]

theorem traces_flatMap {α : Type} (c : Checker) (list : List α) (links : α → List TypeLink) :
    Traces p c (list.flatMap links) ↔ ∀ x ∈ list, Traces p c (links x) := List.forall_mem_flatMap

/-- The named types of a list that may be missing. -/
def TracesAll (c : Checker) (bounds : Option (List Bound)) : Prop :=
  Traces p c ((bounds.map linksOfAll).getD [])

@[simp] theorem traces_named (c : Checker) (name : String) (parameters : Option (List Bound))
    (key origin : Option String) :
    Traces p c (Bound.named name parameters key origin).links ↔
      Traces p c (ownLinks name key) ∧ TracesAll p c parameters := by
  cases parameters <;> simp [links, TracesAll]

@[simp] theorem traces_function (c : Checker) (typeParameters : Option (List Bound))
    (parameters : List Property) (result : Bound) :
    Traces p c (Bound.function typeParameters parameters result).links ↔
      Traces p c (SignatureBound.links ⟨typeParameters, parameters, result⟩) := by
  cases typeParameters <;> simp [links, SignatureBound.links]

@[simp] theorem traces_object (c : Checker) (properties : List Property)
    (index : Option IndexEntry) :
    Traces p c (Bound.object properties index).links ↔
      (∀ m ∈ properties, Traces p c m.type.links) ∧ ∀ i ∈ index, Traces p c i.type.links := by
  cases index with
  | none => simp [links]
  | some i =>
      obtain ⟨_, type⟩ := i
      simp [links]

end

end Checker

/-! ### What work gives -/

namespace Check

/-- Wherever work starts, its answer has a property in all states that come after. -/
def Gives {α : Type} (p : Program) (m : Check α) (holds : Checker → α → Prop) : Prop :=
  ∀ c, Checker.Reached p c → ∀ c', (m.outcome p c).2.Later c' → holds c' (m.outcome p c).1

namespace Gives

variable {α β : Type} {p : Program}

theorem pure {a : α} {holds : Checker → α → Prop} (always : ∀ c, holds c a) :
    Gives p (Pure.pure a) holds := fun _ _ c' _ => always c'

theorem mono {m : Check α} {first second : Checker → α → Prop} (gives : Gives p m first)
    (weaker : ∀ c a, first c a → second c a) : Gives p m second :=
  fun c reached c' later => weaker c' _ (gives c reached c' later)

/-- What follows may rely on what was given: it still holds when all is done. -/
theorem bind {m : Check α} {f : α → Check β} {first : Checker → α → Prop}
    {second : Checker → β → Prop} (gives : Gives p m first)
    (next : ∀ a, Gives p (f a) fun c b => first c a → second c b) : Gives p (m >>= f) second := by
  intro c reached c' later
  rw [outcome_bind] at later ⊢
  have rest : (m.outcome p c).2.Later c' :=
    Checker.Later.trans ((f (m.outcome p c).1).kept p (m.outcome p c).2) later
  exact next _ _ (reached.after m) c' later (gives c reached c' rest)

/-- Nothing is relied on. -/
theorem skip {m : Check α} {f : α → Check β} {holds : Checker → β → Prop}
    (next : ∀ a, Gives p (f a) holds) : Gives p (m >>= f) holds := by
  have anything : Gives p m fun _ _ => True := fun _ _ _ _ => trivial
  exact anything.bind fun a => (next a).mono fun _ _ given _ => given

theorem map {m : Check α} {f : α → β} {first : Checker → α → Prop} {second : Checker → β → Prop}
    (gives : Gives p m first) (next : ∀ c a, first c a → second c (f a)) :
    Gives p (f <$> m) second := fun c reached c' later => next c' _ (gives c reached c' later)

theorem mapM {f : α → Check β} {holds : Checker → β → Prop} (each : ∀ x, Gives p (f x) holds)
    (list : List α) : Gives p (list.mapM f) fun c answers => ∀ b ∈ answers, holds c b := by
  induction list with
  | nil =>
      rw [List.mapM_nil]
      exact pure fun _ _ inside => by cases inside
  | cons x rest ih =>
      rw [List.mapM_cons]
      refine (each x).bind fun b => ih.bind fun bs => pure fun c all here y inside => ?_
      rcases List.mem_cons.mp inside with first | later
      · exact first ▸ here
      · exact all y later

theorem mapM_option {f : α → Check β} {holds : Checker → β → Prop}
    (each : ∀ x, Gives p (f x) holds) (o : Option α) :
    Gives p (o.mapM f) fun c answer => ∀ b ∈ answer, holds c b := by
  cases o with
  | none => exact pure fun _ _ inside => by cases inside
  | some x => exact (each x).map fun _ b given y inside => Option.some.inj inside ▸ given

theorem foldlM {f : β → α → Check β} {holds : Checker → β → Prop}
    (each : ∀ b x, Gives p (f b x) fun c b' => holds c b → holds c b') (list : List α) {b : β}
    (start : ∀ c, holds c b) : Gives p (list.foldlM f b) holds := by
  suffices h : ∀ b, Gives p (list.foldlM f b) fun c b' => holds c b → holds c b' from
    (h b).mono fun c _ given => given (start c)
  induction list with
  | nil => exact fun b => pure fun _ given => given
  | cons x rest ih =>
      intro b
      rw [List.foldlM_cons]
      exact (each b x).bind fun next => (ih next).mono fun _ _ given step start => given (step start)

end Gives

end Check

/-! ### Declared types -/

/-- The type that a symbol declares is noted when it is first asked for. -/
theorem Checker.declaredType_known (calls : Calls) (s : SymbolId) (p : Program) (c : Checker)
    (named : c.bindings.Named) :
    let r := (declaredType calls s).outcome p c
    r.2.declared[s]? = some r.1 := by
  unfold declaredType
  simp only [Check.outcome_bind, Check.outcome_kind?]
  split
  · rename_i kind
    obtain ⟨x, found, isAlias⟩ := Option.map_eq_some_iff.mp kind
    obtain ⟨written, known⟩ := Option.isSome_iff_exists.mp (named.aliases s x found isAlias)
    have decls : c.bindings.decls s = x.decls := by
      simp only [Bindings.decls, found, Option.map_some, Option.getD_some]
    simp only [declaredAlias, Check.outcome_bind, Check.outcome_decls, decls, known,
      Check.declareAlias]
    split
    · assumption
    · exact Std.HashMap.getElem?_insert_self
  · simp only [Check.declareAs]
    split
    · assumption
    · exact Std.HashMap.getElem?_insert_self

theorem Check.gives_declaredType (p : Program) (s : SymbolId) :
    Gives p (Check.declaredType s) fun c t => c.declared[s]? = some t := by
  intro c reached c' later
  obtain ⟨n, deep⟩ := Checker.calls_deep
  unfold Check.declaredType at later ⊢
  rw [deep, Checker.ask_callsTo] at later ⊢
  exact later.declared s _ (Checker.declaredType_known _ s p c reached.named)

/-! ### Types -/

namespace Render

open Check Checker

variable {p : Program}

theorem key_linkKey (s : SymbolId) (t : TypeId) (c : Checker) (reached : Reached p c)
    (c' : Checker) (later : ((linkKey s t).outcome p c).2.Later c') :
    (∃ u, c'.declared[s]? = some u ∧ ((linkKey s t).outcome p c).1 = u.key) ∨
      (declaresType (c.bindings.kind? s) = false ∧ ((linkKey s t).outcome p c).1 = t.key) := by
  have declared : Gives p (do return (← Check.declaredType s).key) fun c key =>
      ∃ u, c.declared[s]? = some u ∧ key = u.key :=
    (gives_declaredType p s).bind fun t => .pure fun _ known => ⟨t, known, rfl⟩
  unfold linkKey at later ⊢
  simp only [outcome_bind (Check.kind? s), outcome_kind?] at later ⊢
  split
  · rename_i kind
    simp only [kind] at later
    exact Or.inl (declared c reached c' later)
  · rename_i kind
    simp only [kind] at later
    exact Or.inl (declared c reached c' later)
  · rename_i kind
    simp only [kind] at later
    exact Or.inl (declared c reached c' later)
  · rename_i noInterface noClass noAlias
    refine Or.inr ⟨?_, rfl⟩
    unfold declaresType
    split
    · contradiction
    · contradiction
    · contradiction
    · rfl

/-- The key of a type by name leads to what its symbol declares. -/
theorem renderedFor_namedParts (t : TypeId) (c : Checker) (reached : Reached p c) (c' : Checker)
    (later : ((namedParts t).outcome p c).2.Later c') :
    ∀ key ∈ ((namedParts t).outcome p c).1.key, ∃ s, RenderedFor p c' ⟨c.typeName t, key⟩ s := by
  intro key given
  have before : c.Later c' := Later.trans ((namedParts t).kept p c) later
  unfold namedParts at later given
  simp only [outcome_bind (Check.alias? t), outcome_alias?] at later given
  cases written : c.arena.alias? t with
  | some ref =>
      simp only [written, outcome_bind, outcome_pure, Option.mem_some_iff] at later given
      have declared := gives_declaredType p ref.symbol c reached c' later
      refine ⟨ref.symbol, c, t, reached, before, ?_, rfl, Or.inl ⟨_, declared, given.symm⟩⟩
      simp only [shownSymbol?, written]
  | none =>
      simp only [written, outcome_bind, outcome_state, outcome_data, outcome_pure] at later given
      cases symbol : c.typeSymbol? t with
      | none =>
          rw [symbol] at given
          cases given
      | some s =>
          rw [symbol] at later given
          have own : ((linkKey s t).outcome p c).1 = key := Option.some.inj given
          have leads := key_linkKey s t c reached c' later
          rw [own] at leads
          exact ⟨s, c, t, reached, before, by simp only [shownSymbol?, written, symbol], rfl, leads⟩

section

variable {child : TypeId → Check Bound}
  (traced : ∀ t, Gives p (child t) fun c b => Traces p c b.links)
include traced

theorem traces_typeList (types : List TypeId) :
    Gives p (typeList child types) fun c bounds => TracesAll p c bounds := by
  unfold typeList
  split
  · exact .pure fun c => traces_nil p c
  · exact (Gives.mapM traced types).map fun c bounds all => (traces_linksOfAll p c bounds).mpr all

theorem traces_named (t : TypeId) :
    Gives p (named child t) fun c b => Traces p c b.links := by
  intro c reached c' later
  have parameters := traces_typeList traced
    ((namedParts t).outcome p c).1.args ((namedParts t).outcome p c).2
    (reached.after (namedParts t)) c' later
  have own := renderedFor_namedParts t c reached c'
    (Later.trans ((typeList child ((namedParts t).outcome p c).1.args).kept p _) later)
  refine (Checker.traces_named ..).mpr ⟨fun link inside => ?_, parameters⟩
  obtain ⟨key, given, rfl⟩ := List.mem_map.mp inside
  exact own key (Option.mem_toList.mp given)

theorem traces_property (m : Member) :
    Gives p (property child m) fun c shown => Traces p c shown.type.links :=
  (traced m.type).bind fun _ => .pure fun _ given => given

theorem traces_parameter (m : Parameter) :
    Gives p (parameter child m) fun c shown => Traces p c shown.type.links :=
  (traced m.type).bind fun _ => .pure fun _ given => given

theorem traces_signature (s : Signature) :
    Gives p (signature child s) fun c shown => Traces p c shown.links := by
  refine (traces_typeList traced s.typeParams).bind fun typeParameters => ?_
  refine (Gives.mapM (traces_parameter traced) s.params).bind fun parameters => ?_
  refine (traced s.result).bind fun result => .pure fun c third second first => ?_
  simp only [SignatureBound.links, traces_append, traces_linksOfProperties]
  exact ⟨⟨first, second⟩, third⟩

theorem traces_objectBound (t : TypeId) :
    Gives p (objectBound child t) fun c b => Traces p c b.links := by
  refine .skip fun signatures => ?_
  split
  · refine (traces_signature traced _).bind fun shown => .pure fun c given => ?_
    exact (traces_function p c ..).mpr given
  · refine .skip fun members => (Gives.mapM (traces_property traced) members).bind fun properties => ?_
    refine .skip fun index => ?_
    have entry : ∀ i : IndexInfo, Gives p (do return (⟨i.keyName, ← child i.type⟩ : IndexEntry))
        fun c shown => Traces p c shown.type.links :=
      fun i => (traced i.type).bind fun _ => .pure fun _ given => given
    refine (Gives.mapM_option entry index).bind fun index => .pure fun c second first => ?_
    exact (traces_object p c ..).mpr ⟨first, second⟩

theorem traces_unionMembers (members : List TypeId) :
    Gives p (unionMembers child members) fun c bounds => ∀ b ∈ bounds, Traces p c b.links := by
  refine .foldlM (fun sofar t => .skip fun data => ?_) members fun c b inside => by cases inside
  split
  · refine .pure fun c all b inside => ?_
    rcases List.mem_append.mp inside with kept | new
    · exact all b (List.dropLast_subset _ kept)
    · rw [List.mem_singleton.mp new]
      exact traces_nil p c
  · refine (traced t).bind fun shown => .pure fun c given all b inside => ?_
    rcases List.mem_append.mp inside with kept | new
    · exact all b kept
    · exact List.mem_singleton.mp new ▸ given

end

/-- However deep a type is shown, the named types in it were rendered for symbols. -/
theorem traces_boundAt (n : Nat) (preferNamed : Bool) (t : TypeId) :
    Gives p (boundAt n preferNamed t) fun c b => Traces p c b.links := by
  induction n generalizing preferNamed t with
  | zero => exact .skip fun c => .pure fun c => traces_nil p c
  | succ n ih =>
      have child := ih true
      have byName := traces_named child
      have all : ∀ types : List TypeId, Gives p (types.mapM (boundAt n true)) fun c bounds =>
          Traces p c (linksOfAll bounds) := fun types =>
        (Gives.mapM child types).mono fun c bounds given => (traces_linksOfAll p c bounds).mpr given
      have worked : Gives p (do
          let value ← Check.evaluate t
          if value = t then named (boundAt n true) t else boundAt n preferNamed value)
          fun c b => Traces p c b.links := by
        refine .skip fun value => ?_
        split
        · exact byName t
        · exact ih preferNamed value
      unfold boundAt
      refine .skip fun written => ?_
      split
      · exact byName t
      · refine .skip fun data => ?_
        cases data with
        | object shape =>
            dsimp only
            split
            · exact byName t
            · exact traces_objectBound child t
        | keyOf => exact worked
        | indexedAccess => exact worked
        | mapped => exact worked
        | intersection members => exact (all members).bind fun _ => .pure fun _ given => given
        | tuple items => exact (all items).bind fun _ => .pure fun _ given => given
        | union members =>
            refine .skip fun isBoolean => ?_
            split
            · exact byName t
            · refine (traces_unionMembers child members).bind fun bounds => .pure fun c given => ?_
              exact (traces_linksOfAll p c bounds).mpr given
        | booleanLiteral | numberLiteral | stringLiteral => exact .pure fun c => traces_nil p c
        | _ => exact byName t

theorem traces_bound (t : TypeId) : Gives p (bound t) fun c b => Traces p c b.links :=
  traces_boundAt maxDepth true t

theorem traces_declaredBound (t : TypeId) :
    Gives p (declaredBound t) fun c b => Traces p c b.links := by
  have shown : ∀ kind : Option SymbolKind, Gives p
      (if kind = some .interface then objectBound bound t else boundAt maxDepth false t)
      fun c b => Traces p c b.links := by
    intro kind
    split
    · exact traces_objectBound traces_bound t
    · exact traces_boundAt maxDepth false t
  refine .skip fun data => ?_
  cases data with
  | reference symbol args => exact .skip fun kind => shown kind
  | _ => exact shown none

theorem traces_function? (t : TypeId) :
    Gives p (function? t) fun c shown => ∀ s ∈ shown, Traces p c s.links :=
  .skip fun signatures => .mapM_option (traces_signature traces_bound) signatures.head?

theorem traces_typeParameters (s : SymbolId) :
    Gives p (typeParameters s) fun c bounds => TracesAll p c bounds :=
  .skip fun ids => traces_typeList traces_bound ids

/-! ### Components and classes -/

/-- The named types of the properties that are shown, if any are. -/
def TracesProps (p : Program) (c : Checker) (shown : Option (List Property)) : Prop :=
  ∀ properties ∈ shown, Traces p c (linksOfProperties properties)

theorem traces_propsAt (n : Nat) (t : TypeId) :
    Gives p (propsAt n t) fun c properties => Traces p c (linksOfProperties properties) := by
  induction n generalizing t with
  | zero => exact .pure fun c => traces_nil p c
  | succ n ih =>
      refine .skip fun isBoolean => .skip fun data => ?_
      split
      · rename_i members _
        refine (Gives.mapM ih members).bind fun lists => .pure fun c all => ?_
        rw [traces_linksOfProperties]
        intro m inside
        obtain ⟨list, listed, member⟩ := List.mem_flatten.mp inside
        exact (traces_linksOfProperties p c list).mp (all list listed) m member
      · refine .skip fun wrapped => ?_
        split
        · exact ih _
        · refine .skip fun members => ?_
          refine (Gives.mapM (traces_property (traces_boundAt n true)) members).mono ?_
          exact fun c properties given => (traces_linksOfProperties p c properties).mpr given

theorem traces_props (t : TypeId) : Gives p (some <$> props t) (TracesProps p) :=
  (traces_propsAt maxDepth t).map fun _ _ given _ same => Option.some.inj same ▸ given

theorem traces_none : Gives p (pure none) (TracesProps p) := .pure fun _ _ absent => by cases absent

theorem traces_classProps? (t : TypeId) : Gives p (classProps? t) (TracesProps p) := by
  refine .skip fun signatures => ?_
  split
  · exact traces_none
  · refine .skip fun found => ?_
    split
    · exact traces_none
    · refine .skip fun render => ?_
      split
      · exact traces_none
      · refine .skip fun calls => ?_
        split
        · exact traces_none
        · refine .skip fun state => ?_
          split
          · exact traces_props _
          · exact traces_none

theorem traces_functionProps? (t : TypeId) : Gives p (functionProps? t) (TracesProps p) := by
  refine .skip fun signatures => ?_
  split
  · exact traces_none
  · refine .skip fun state => ?_
    split
    · split
      · exact traces_props _
      · exact .pure fun c properties same => Option.some.inj same ▸ traces_nil p c
    · exact traces_none

theorem traces_componentProps? (t : TypeId) : Gives p (componentProps? t) (TracesProps p) := by
  refine (traces_classProps? t).bind fun found => ?_
  split
  · exact .pure fun _ given => given
  · exact (traces_functionProps? t).mono fun _ _ given _ => given

/-- The named types of all members of a class. -/
structure TracesClass (p : Program) (c : Checker) (members : ClassMembers) : Prop where
  properties : ∀ m ∈ members.properties, Traces p c m.2.links
  methods : ∀ m ∈ members.methods, Traces p c m.2.links
  constructors : ∀ m ∈ members.constructors, Traces p c (linksOfProperties m.parameters)

theorem traces_addMember (sofar : ClassMembers) (m : Member) :
    Gives p (addMember sofar m) fun c members => TracesClass p c sofar → TracesClass p c members := by
  refine (traces_function? m.type).bind fun shown => ?_
  split
  · rename_i s
    refine .pure fun c given before => { before with methods := fun entry inside => ?_ }
    rcases List.mem_append.mp inside with old | new
    · exact before.methods entry old
    · exact List.mem_singleton.mp new ▸ given s rfl
  · refine (traces_bound m.type).bind fun shown => .pure fun c given _ before =>
      { before with properties := fun entry inside => ?_ }
    rcases List.mem_append.mp inside with old | new
    · exact before.properties entry old
    · exact List.mem_singleton.mp new ▸ given

theorem traces_classMembers? (t : TypeId) :
    Gives p (classMembers? t) fun c shown => ∀ members ∈ shown, TracesClass p c members := by
  refine .skip fun signatures => ?_
  split
  · exact .pure fun _ _ absent => by cases absent
  · rename_i s rest
    refine .skip fun members => ?_
    have start : ∀ c, TracesClass p c {} := fun c => ⟨nofun, nofun, nofun⟩
    refine (Gives.foldlM traces_addMember members start).bind fun found => ?_
    have constructor : ∀ s : Signature, Gives p
        (do return (⟨s.documentation, ← s.params.mapM (parameter bound)⟩ : ConstructorEntry))
        fun c entry => Traces p c (linksOfProperties entry.parameters) := fun s =>
      (Gives.mapM (traces_parameter traces_bound) s.params).bind fun parameters =>
        .pure fun c given => (traces_linksOfProperties p c parameters).mpr given
    refine (Gives.mapM constructor (s :: rest)).bind fun constructors => ?_
    refine .pure fun c all before members same => ?_
    cases same
    exact { before with constructors := all }

end Render

end ApiDocs
