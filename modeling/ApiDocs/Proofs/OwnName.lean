import ApiDocs.Proofs.Reexports

set_option autoImplicit false

/-!
When the declaration of an alias or interface shows its own name. It is meant to show what the type is
made of. It does not where there is nothing to show but a name that leads back to the declaration,
and the main statement says exactly for which types that is so.
-/

namespace ApiDocs

open Syntax

/-! ### What there is to show -/

/-- Whether there is nothing to show of a type but a name. Objects, intersections, unions and tuples have
parts to show and literals have their values, but what can only be constructed is shown by name, and
so is `boolean`. -/
def TypeData.hasNameOnly (isBoolean : Bool) : TypeData → Bool
  | .object shape => shape.call.isEmpty && !shape.construct.isEmpty
  | .union _ => isBoolean
  | .intersection _ => false
  | .tuple _ => false
  | .booleanLiteral _ => false
  | .numberLiteral _ => false
  | .stringLiteral _ => false
  | _ => true

namespace Checker

def hasNameOnly (c : Checker) (t : TypeId) : Bool :=
  (c.arena.data t).hasNameOnly (c.arena.isBoolean t)

/-- What is left of a type once it is worked out, in fewer than `n` steps. One that waits for a type
parameter is left as it is. -/
def workedOut? (c : Checker) : Nat → TypeId → Option TypeId
  | 0, _ => none
  | n + 1, t =>
      if (c.arena.data t).isOperator then
        match c.evaluated.find? t with
        | some value => if value = t then some t else c.workedOut? n value
        | none => none
      else some t

/-- The type that the name of a type leads to: the one that its alias declares, or else its symbol. It
leads to the type itself where the symbol declares none. -/
def namedType? (c : Checker) (t : TypeId) : Option TypeId :=
  match c.arena.alias? t with
  | some ref => c.declared[ref.symbol]?
  | none => (c.typeSymbol? t).bind fun s =>
      if declaresType (c.bindings.kind? s) then c.declared[s]? else some t

def isInterface (c : Checker) (t : TypeId) : Bool :=
  match c.arena.data t with
  | .reference s _ => c.bindings.kind? s = some .interface
  | _ => false

/-- A type that is no interface, of which a name is left that leads to the type itself. -/
def ComesToItself (c : Checker) (t : TypeId) : Prop :=
  c.isInterface t = false ∧
    ∃ u, c.workedOut? maxDepth t = some u ∧ c.hasNameOnly u ∧ c.namedType? u = some t

variable {p : Program} {c c' : Checker} {t : TypeId}

theorem kind?_later {s : SymbolId} (known : Known c s) (later : c.Later c') :
    c'.bindings.kind? s = c.bindings.kind? s := by
  simp only [Bindings.kind?, Check.symbol_stays (.refl c) known later]

/-- Whether a type is an interface stays as it is. -/
theorem isInterface_later (sound : c.Sound p) (known : Known c t) (later : c.Later c') :
    c'.isInterface t = c.isInterface t := by
  have inside := known_type_iff.mp known
  have data : c'.arena.data t = c.arena.data t := congrArg TypeInfo.data (later.info t inside)
  have parts : Known c (c.arena.data t) := (known_info_iff.mp (sound.infos t inside)).1
  unfold isInterface
  rw [data]
  cases same : c.arena.data t with
  | reference s args =>
      rw [same] at parts
      have kind := kind?_later (known_reference_iff.mp parts).1 later
      dsimp only
      rw [kind]
  | _ => rfl

end Checker

/-! ### Keys of what is shown -/

namespace Render

open Check Checker

variable {p : Program} {c c' : Checker} {t : TypeId}

/-- The key depends on whether the symbol declares a type. -/
theorem linkKey_eq (s : SymbolId) (t : TypeId) :
    linkKey s t = do
      if declaresType (← Check.kind? s) then return (← Check.declaredType s).key
      else return t.key := by
  unfold linkKey
  refine congrArg (Check.kind? s >>= ·) (funext fun kind => ?_)
  cases kind with
  | none => rfl
  | some kind => cases kind <;> rfl

/-- A type refers to the type that its symbol declares, or to itself. -/
theorem key_linkKey_eq {s : SymbolId} (reached : Reached p c) (known : Known c s)
    (later : ((linkKey s t).outcome p c).2.Later c') :
    some ((linkKey s t).outcome p c).1 =
      (if declaresType (c'.bindings.kind? s) then c'.declared[s]? else some t).map TypeId.key := by
  have before : c.Later c' := Later.trans ((linkKey s t).kept p c) later
  rw [linkKey_eq] at later ⊢
  simp only [outcome_bind (Check.kind? s), outcome_kind?] at later ⊢
  rw [kind?_later known before]
  by_cases declares : declaresType (c.bindings.kind? s)
  · simp only [declares, ↓reduceIte, outcome_bind, outcome_pure] at later ⊢
    rw [gives_declaredType p s c reached c' later, Option.map_some]
  · simp only [declares, Bool.false_eq_true, ↓reduceIte, outcome_pure, Option.map_some]

/-- The key that a type has by its name is that of the type which the name leads to. -/
theorem key_namedParts (sound : c.Sound p) (reached : Reached p c) (known : Known c t)
    (later : ((namedParts t).outcome p c).2.Later c') :
    ((namedParts t).outcome p c).1.key = (c'.namedType? t).map TypeId.key := by
  have before : c.Later c' := Later.trans ((namedParts t).kept p c) later
  have written : c'.arena.alias? t = c.arena.alias? t :=
    congrArg TypeInfo.writtenAs (before.info t (known_type_iff.mp known))
  unfold namedParts at later ⊢
  unfold namedType?
  simp only [outcome_bind (Check.alias? t), outcome_alias?] at later ⊢
  rw [written, typeSymbol?_later before known]
  cases found : c.arena.alias? t with
  | some ref =>
      simp only [found, outcome_bind, outcome_pure] at later ⊢
      rw [gives_declaredType p ref.symbol c reached c' later, Option.map_some]
  | none =>
      simp only [found, outcome_bind, outcome_state, outcome_data, outcome_pure] at later ⊢
      have symbol := known_typeSymbol? sound known
      cases declaring : c.typeSymbol? t with
      | none => rfl
      | some s =>
          rw [declaring] at later symbol
          exact key_linkKey_eq reached symbol.of_some later

/-- What shows the parts of an object has no key. -/
theorem key?_objectBound (child : TypeId → Check Bound) (t : TypeId) (c : Checker) :
    ((objectBound child t).outcome p c).1.key? = none := by
  unfold objectBound
  rw [outcome_bind]
  split <;> rfl

/-- What a type is worked out to is noted. -/
theorem evaluated_evaluate (reached : Reached p c) (t : TypeId) :
    ((Check.evaluate t).outcome p c).2.evaluated.find? t =
      some ((Check.evaluate t).outcome p c).1 := by
  have noted : ∀ m plain, ((evaluateOnce t m plain).outcome p c).2.evaluated.find? t =
      some ((evaluateOnce t m plain).outcome p c).1 := fun m plain =>
    once_known (·.evaluated) (fun _ _ => rfl) reached.evaluated.running
  obtain ⟨n, asked⟩ := ask_calls (.evaluate t)
  unfold Check.evaluate
  rw [asked]
  exact noted (evaluateData (callsTo n) t) (evaluateData_plain (callsTo n) t)

/-- A type that is shown by name has the key of the type which the name leads to. -/
theorem key?_named {child : TypeId → Check Bound} (sound : c.Sound p) (reached : Reached p c)
    (known : Known c t) (later : ((named child t).outcome p c).2.Later c') :
    ((named child t).outcome p c).1.key? = (c'.namedType? t).map TypeId.key := by
  have parts : ((namedParts t).outcome p c).2.Later c' :=
    Later.trans ((typeList child ((namedParts t).outcome p c).1.args).kept p _) later
  exact key_namedParts sound reached known parts

/-- The key of a type where only a name is left to show. -/
def ownKey? (c : Checker) (t : TypeId) : Option String :=
  if c.hasNameOnly t then (c.namedType? t).map TypeId.key else none

theorem ownKey?_eq_some_iff {u : TypeId} :
    ownKey? c u = some t.key ↔ c.hasNameOnly u ∧ c.namedType? u = some t := by
  unfold ownKey?
  split
  · rename_i only
    simp only [only, true_and, Option.map_eq_some_iff]
    constructor
    · rintro ⟨v, found, same⟩
      rw [found, TypeId.key_injective same]
    · intro found
      exact ⟨t, found, rfl⟩
  · rename_i parts
    simp [parts]

/-- What a type is worked out to has a key as it is shown, or the type keeps its own name. -/
theorem key?_worked {n : Nat} {child : TypeId → Check Bound} (sound : c.Sound p)
    (reached : Reached p c) (known : Known c t)
    (operator : (c'.arena.data t).isOperator) (only : c'.hasNameOnly t)
    (deeper : ∀ {c : Checker} {u : TypeId}, c.Sound p → Reached p c → Known c u →
      ((boundAt n false u).outcome p c).2.Later c' →
      ((boundAt n false u).outcome p c).1.key? = (c'.workedOut? n u).bind (ownKey? c')) :
    let m : Check Bound := do
      let value ← Check.evaluate t
      if value = t then named child t else boundAt n false value
    (m.outcome p c).2.Later c' →
      (m.outcome p c).1.key? = (c'.workedOut? (n + 1) t).bind (ownKey? c') := by
  intro m later
  have := sound.started
  obtain ⟨after, there⟩ := (steady_evaluate (p := p) (t := t)).outcome c (.refl c) sound
  have still := reached.after (Check.evaluate t)
  have same : Known ((Check.evaluate t).outcome p c).2 t := known.later ((Check.evaluate t).before p c)
  have evaluated := evaluated_evaluate reached t
  simp only [m, outcome_bind] at later ⊢
  generalize (Check.evaluate t).outcome p c = r at *
  have told : r.2.Later c' := Later.trans (Check.kept _ p r.2) later
  have noted : c'.evaluated.find? t = some r.1 := told.evaluated.known t r.1 evaluated
  simp only [workedOut?, operator, ↓reduceIte, noted]
  by_cases waits : r.1 = t
  · simp only [waits, ↓reduceIte, Option.bind_some] at later ⊢
    rw [ownKey?, if_pos only]
    exact key?_named after still same later
  · simp only [waits, ↓reduceIte] at later ⊢
    exact deeper after still there later

/-- A type that is shown without its alias has the key of what it is worked out to. -/
theorem key?_boundAt {n : Nat} (sound : c.Sound p) (reached : Reached p c) (known : Known c t)
    (later : ((boundAt n false t).outcome p c).2.Later c') :
    ((boundAt n false t).outcome p c).1.key? = (c'.workedOut? n t).bind (ownKey? c') := by
  -- The state grows while types are worked out; the one that is looked at, `c'`, comes after all.
  induction n generalizing c t with
  | zero => rfl
  | succ n ih =>
      have before : c.Later c' := Later.trans ((boundAt (n + 1) false t).kept p c) later
      have data : c'.arena.data t = c.arena.data t :=
        congrArg TypeInfo.data (before.info t (known_type_iff.mp known))
      have only : c'.hasNameOnly t = (c.arena.data t).hasNameOnly (c.arena.isBoolean t) := by
        simp only [hasNameOnly, Arena.isBoolean, data]
      have plain : (c.arena.data t).isOperator = false →
          (c'.workedOut? (n + 1) t).bind (ownKey? c') = ownKey? c' t := by
        intro plain
        simp only [workedOut?, data, plain, Bool.false_eq_true, ↓reduceIte, Option.bind_some]
      have byName : c'.hasNameOnly t → ((named (boundAt n true) t).outcome p c).2.Later c' →
          ((named (boundAt n true) t).outcome p c).1.key? = ownKey? c' t := by
        intro only later
        rw [ownKey?, if_pos only]
        exact key?_named sound reached known later
      unfold boundAt at later ⊢
      simp only [outcome_bind (Check.alias? t), outcome_alias?, Bool.false_and, Bool.false_eq_true,
        ↓reduceIte, outcome_bind (Check.data t), outcome_data] at later ⊢
      cases same : c.arena.data t with
      | object shape =>
          rw [same] at plain only
          simp only [same] at later ⊢
          rw [plain rfl]
          by_cases constructed : shape.call.isEmpty && !shape.construct.isEmpty
          · rw [if_pos constructed] at later ⊢
            exact byName (only.trans constructed) later
          · rw [if_neg constructed, key?_objectBound, ownKey?, only, TypeData.hasNameOnly,
              if_neg constructed]
      | keyOf | indexedAccess | mapped =>
          rw [same] at data only
          simp only [same] at later ⊢
          exact key?_worked sound reached known (by rw [data]; rfl) only ih later
      | union members =>
          rw [same] at plain only
          simp only [same, outcome_bind (Check.isBoolean t), outcome_isBoolean] at later ⊢
          rw [plain rfl]
          by_cases isBoolean : c.arena.isBoolean t
          · simp only [isBoolean, ↓reduceIte] at later ⊢
            exact byName (only.trans isBoolean) later
          · simp only [isBoolean, Bool.false_eq_true, ↓reduceIte, ownKey?, only, TypeData.hasNameOnly]
            rfl
      | intersection | tuple | booleanLiteral | numberLiteral | stringLiteral =>
          rw [same] at plain only
          rw [plain rfl, ownKey?, only]
          rfl
      | _ =>
          rw [same] at plain only
          simp only [same] at later ⊢
          rw [plain rfl]
          exact byName only later

/-- An interface is shown by its members, any other type without its alias. -/
theorem outcome_declaredBound (t : TypeId) (p : Program) (c : Checker) :
    (declaredBound t).outcome p c =
      (if c.isInterface t then objectBound bound t else boundAt maxDepth false t).outcome p c := by
  unfold declaredBound isInterface
  rw [outcome_bind (Check.data t), outcome_data]
  cases c.arena.data t with
  | reference s args =>
      by_cases kind : c.bindings.kind? s = some .interface <;> simp [kind]
  | _ => rfl

/-- What an alias or interface declares is shown with the key of the type itself exactly if the type
comes to itself. -/
theorem key?_declaredBound_iff (sound : c.Sound p) (reached : Reached p c) (known : Known c t)
    (later : ((declaredBound t).outcome p c).2.Later c') :
    ((declaredBound t).outcome p c).1.key? = some t.key ↔ c'.ComesToItself t := by
  have before : c.Later c' := Later.trans ((declaredBound t).kept p c) later
  rw [outcome_declaredBound] at later ⊢
  unfold ComesToItself
  rw [isInterface_later sound known before]
  by_cases interface : c.isInterface t
  · simp only [interface, ↓reduceIte, key?_objectBound]
    simp
  · rw [if_neg interface] at later ⊢
    rw [key?_boundAt sound reached known later]
    simp only [interface, true_and, Option.bind_eq_some_iff, ownKey?_eq_some_iff]
    rfl

end Render

/-! ### Declarations -/

open Check Checker

/-- An alias or interface is found by its type, and shows the key of the type exactly if the type comes
to itself. -/
theorem Content.ofType_shows {p : Program} {c : Checker} (sound : c.Sound p) (reached : Reached p c)
    {s : SymbolId} (known : Known c s) :
    ∃ t shown parameters, ((ofType s).outcome p c).1 = some ⟨.type shown parameters, some t⟩ ∧
      ∀ c', ((ofType s).outcome p c).2.Later c' →
        c'.declared[s]? = some t ∧ (shown.key? = some t.key ↔ c'.ComesToItself t) := by
  have := sound.started
  obtain ⟨after, there⟩ := (steady_declaredType (p := p) (s := s)).outcome c (.refl c) sound
  unfold ofType
  simp only [outcome_bind, outcome_pure]
  refine ⟨_, _, _, rfl, fun c' later => ?_⟩
  have second := Later.trans ((Render.typeParameters s).kept p _) later
  have first := Later.trans ((Render.declaredBound _).kept p _) second
  refine ⟨gives_declaredType p s c reached c' first, ?_⟩
  exact Render.key?_declaredBound_iff after (reached.after _) there second

/-- Only the items of aliases and interfaces give declarations of types. -/
theorem Role.eq_type {p : Program} {c : Checker} {role : Role} {s : SymbolId} {content : Content}
    (given : ((role.describe s).outcome p c).1 = some content) {shown : Bound}
    {parameters : Option (List Bound)} (body : content.body = .type shown parameters) :
    role = .type := by
  have kind := kind_mem given { id := "", name := "", documentation := "", body := content.body } rfl
  simp only [Declaration.kind, body] at kind
  cases role with
  | type => rfl
  | classDecl | function | variableDecl => simp [kinds] at kind

/-- What the turn of an alias or interface shows, in the states after it. -/
theorem Turn.Settled.shows {p : Program} {c : Checker} {turn : Turn} (settled : turn.Settled p c)
    (type : turn.item.role = .type) :
    ∃ t shown parameters, c.answer p turn.describe = some ⟨.type shown parameters, some t⟩ ∧
      c.declared[turn.symbol]? = some t ∧ (shown.key? = some t.key ↔ c.ComesToItself t) := by
  obtain ⟨before, sound, known, reached, later, told⟩ := settled.had
  have describe : turn.describe = Content.ofType turn.symbol := by rw [Turn.describe, type]; rfl
  rw [describe] at later told ⊢
  obtain ⟨t, shown, parameters, given, always⟩ := Content.ofType_shows sound reached known
  exact ⟨t, shown, parameters, told.symm.trans given, always c later⟩

namespace Package

/-- The declaration of an alias or interface shows the key of its own type exactly if the type comes to
itself, in the state that the program leaves behind. The type is that of the symbol which its name
stands for in the file of its module, and the declaration is found by its key. -/
theorem shows_own_key_iff (name outDir packagePath : String) (program : Program)
    {path id : String} {m : Module} {d : Declaration} {shown : Bound}
    {parameters : Option (List Bound)}
    (there : ((Package.empty name outDir).addProgram packagePath program).modules.get? path = some m)
    (listed : m.declarations.get? id = some d) (body : d.body = .type shown parameters) :
    let c := (collected name outDir packagePath program).2
    ∃ file source s t,
      program.rootFiles.find? (fun f => Path.outputPath packagePath outDir f.2.path = path) =
        some (file, source) ∧
      (Bindings.ofProgram program).lookup file none .type d.name = some s ∧
      c.answer program (Content.ofType s) = some ⟨.type shown parameters, some t⟩ ∧
      c.declared[s]? = some t ∧ (shown.key? = some t.key ↔ c.ComesToItself t) := by
  intro c
  have read := readAll_collected name outDir packagePath program
  rw [addProgram_eq_linked read.valid, get?_modules_linked] at there
  obtain ⟨old, before, rfl⟩ := Option.map_eq_some_iff.mp there
  rw [get?_linkedModule] at listed
  obtain ⟨d, known, rfl⟩ := Option.map_eq_some_iff.mp listed
  obtain ⟨file, source, first, content⟩ := read.first before
  have inside : d ∈ old.declarations.values :=
    (OrdMap.mem_values_iff _ _).mpr ⟨id, (OrdMap.get?_eq_some_iff _ _ _).mp known⟩
  have pair : (d.name, d.body) ∈ (turns program file source.source.exported).filterMap
      (·.shown? program c) := content.declarations ▸ List.mem_map_of_mem inside
  obtain ⟨turn, had, gives⟩ := List.mem_filterMap.mp pair
  obtain ⟨given, answer, same⟩ := Option.map_eq_some_iff.mp gives
  obtain ⟨sameName, sameBody⟩ := Prod.mk.inj same
  have made : given.body = .type shown parameters := sameBody.trans body
  have type := Role.eq_type answer made
  obtain ⟨t, _, _, told, declared, own⟩ := (content.settled turn had).shows type
  obtain rfl := Option.some.inj (answer.symm.trans told)
  cases made
  have named := (mem_turns had).2
  rw [Exported.symbol?, type, sameName] at named
  rw [Turn.describe, type] at told
  exact ⟨file, source, turn.symbol, t, first, named, told, declared, own⟩

/-- A class `C` and aliases: `A` of `typeof C`, `K` of `keyof T`, `B` of a conditional type, which is
known by its text, and `O` of an object. All are exported. -/
def nameOnly : Program :=
  let item (decl : Decl) : Item := ⟨0, 0, none, {}, .exportDecl decl⟩
  let param : TypeParam := ⟨"T", none, none⟩
  { files := #[⟨⟨"/a.ts", #[], [
      item (.classDecl "C" ⟨[], none, [], []⟩),
      item (.typeAlias ⟨"A", [], .query (.ident "C")⟩),
      item (.typeAlias ⟨"K", [param], .keyOf (.reference (.ident "T") [])⟩),
      item (.typeAlias ⟨"B", [param], .verbatim "T extends string ? 1 : 2"⟩),
      item (.typeAlias ⟨"O", [], .members []⟩)]⟩, "/a.ts", true⟩] }

/-- The name of the declaration of a type, and the key of what it shows. -/
def shownKey? (d : Declaration) : Option (String × Option String) :=
  match d.body with
  | .type shown _ => some (d.name, shown.key?)
  | _ => none

theorem shownKey?_eq_some {d : Declaration} {name : String} {key : Option String}
    (found : shownKey? d = some (name, key)) :
    d.name = name ∧ ∃ shown parameters, d.body = .type shown parameters ∧ shown.key? = key := by
  unfold shownKey? at found
  split at found
  · rename_i shown parameters body
    cases found
    exact ⟨rfl, shown, parameters, body, rfl⟩
  · cases found

set_option maxRecDepth 20000 in
/-- The type of `A` comes to itself, for its declaration shows the key of the type. -/
theorem nameOnly_shows_own_key :
    let c := (collected "p" "lib" "/" nameOnly).2
    c.declared[(⟨1⟩ : SymbolId)]? = some ⟨16⟩ ∧ c.ComesToItself ⟨16⟩ := by
  have evaluated :
      ((((Package.empty "p" "lib").addProgram "/" nameOnly).modules.get? "lib/a.js").bind
        (·.declarations.get? "1")).bind shownKey? = some ("A", some "16") ∧
      (collected "p" "lib" "/" nameOnly).2.declared[(⟨1⟩ : SymbolId)]? = some ⟨16⟩ ∧
      (Bindings.ofProgram nameOnly).lookup ⟨0⟩ none .type "A" = some ⟨1⟩ := by cbv
  obtain ⟨shown, type, symbol⟩ := evaluated
  have files : nameOnly.rootFiles.map Prod.fst = [⟨0⟩] := rfl
  obtain ⟨d, present, key⟩ := Option.bind_eq_some_iff.mp shown
  obtain ⟨m, there, listed⟩ := Option.bind_eq_some_iff.mp present
  obtain ⟨name, shown, parameters, body, key⟩ := shownKey?_eq_some key
  obtain ⟨file, source, s, t, root, named, -, declared, own⟩ :=
    shows_own_key_iff "p" "lib" "/" nameOnly there listed body
  have first : file ∈ nameOnly.rootFiles.map Prod.fst :=
    List.mem_map_of_mem (List.mem_of_find?_eq_some root)
  rw [files, List.mem_singleton] at first
  rw [first, name, symbol] at named
  cases named
  rw [type] at declared
  cases declared
  exact ⟨type, own.mp key⟩

/-- Whether the declaration of a type shows a name that leads to the declaration itself. -/
def showsItself (p : Package) (id : String) : Bool :=
  (((p.declaration? id).bind shownKey?).bind (·.2)).bind p.typeDeclaration.get? = some id

set_option maxRecDepth 20000 in
/-- The declarations of `A`, `K` and `B` show themselves. That of `O` does not. -/
theorem nameOnly_show_themselves :
    ["1", "2", "3", "4"].map (showsItself ((Package.empty "p" "lib").addProgram "/" nameOnly)) =
      [true, true, true, false] := by
  cbv

end Package

end ApiDocs
