import ApiDocs.Proofs.Loading.Files
import ApiDocs.Proofs.Members.Rules
import ApiDocs.Checker

set_option autoImplicit false

/-!
Inheriting members. A shape that inherits keeps what it has and takes what it lacks, so that it does
not matter how inheriting is grouped, and inheriting once more changes nothing. The members of an
interface are the first of each name among those of its declarations and then those of its bases;
those of a class are the first of each name in its body and then in the instance of its base.
-/

namespace ApiDocs

open Syntax

/-! ### The first member of each name -/

namespace Member

def sameName (m other : Member) : Bool := other.name == m.name

/-- Adds a member unless there is one of that name. -/
def addNew (members : List Member) (m : Member) : List Member :=
  if members.any m.sameName then members else members ++ [m]

/-- The first member of each name, in order. -/
def firstOfEach (members : List Member) : List Member := members.eraseDupsBy sameName

theorem any_sameName (members : List Member) (m : Member) :
    members.any m.sameName = true ↔ m.name ∈ members.map (·.name) := by
  simp only [sameName, List.any_eq_true, beq_iff_eq, List.mem_map]

theorem names_addNew (members : List Member) (m : Member) (name : String) :
    name ∈ (addNew members m).map (·.name) ↔ name ∈ members.map (·.name) ∨ name = m.name := by
  unfold addNew
  split
  · rename_i taken
    rw [any_sameName] at taken
    exact ⟨Or.inl, fun listed => listed.elim id fun same => same ▸ taken⟩
  · rw [List.map_append, List.mem_append, List.map_singleton, List.mem_singleton]

theorem names_foldl_addNew (members more : List Member) (name : String) :
    name ∈ (more.foldl addNew members).map (·.name) ↔
      name ∈ members.map (·.name) ∨ name ∈ more.map (·.name) := by
  induction more generalizing members with
  | nil => simp
  | cons m rest ih => rw [List.foldl_cons, ih, names_addNew, List.map_cons, List.mem_cons, or_assoc]

/-- Adding what was made by adding one more member is adding that member last. -/
theorem foldl_addNew_addNew (members more : List Member) (m : Member) :
    (addNew more m).foldl addNew members = addNew (more.foldl addNew members) m := by
  by_cases taken : m.name ∈ more.map (·.name)
  · have there := (names_foldl_addNew members more m.name).mpr (Or.inr taken)
    rw [← any_sameName] at taken there
    rw [addNew, if_pos taken, addNew, if_pos there]
  · rw [← any_sameName] at taken
    rw [addNew, if_neg taken, List.foldl_append, List.foldl_cons, List.foldl_nil]

/-- It does not matter how adding is grouped. -/
theorem foldl_addNew_foldl (members more last : List Member) :
    (last.foldl addNew more).foldl addNew members = last.foldl addNew (more.foldl addNew members) := by
  induction last generalizing more with
  | nil => rfl
  | cons m rest ih => rw [List.foldl_cons, ih, foldl_addNew_addNew, List.foldl_cons]

theorem firstOfEach_eq (members : List Member) : firstOfEach members = members.foldl addNew [] := by
  induction members using List.reverseRecOn with
  | nil => rfl
  | append_singleton rest m ih =>
      unfold firstOfEach at ih ⊢
      rw [Program.eraseDupsBy_concat, ih, List.foldl_append, List.foldl_cons, List.foldl_nil, addNew]
      split <;> simp

/-- Members that are all there already are not added. -/
theorem foldl_addNew_of_taken {members more : List Member}
    (taken : ∀ m ∈ more, m.name ∈ members.map (·.name)) : more.foldl addNew members = members := by
  induction more with
  | nil => rfl
  | cons m rest ih =>
      have here := (any_sameName members m).mpr (taken m List.mem_cons_self)
      rw [List.foldl_cons, addNew, if_pos here]
      exact ih fun other listed => taken other (List.mem_cons_of_mem m listed)

theorem find?_addNew (members : List Member) (m : Member) (name : String) :
    (addNew members m).find? (·.name = name) = (members ++ [m]).find? (·.name = name) := by
  unfold addNew
  split
  · rename_i taken
    rw [any_sameName, List.mem_map] at taken
    obtain ⟨other, listed, same⟩ := taken
    rw [List.find?_append]
    cases found : members.find? (·.name = name) with
    | some => rfl
    | none =>
        have differs : m.name ≠ name := by
          have := List.find?_eq_none.mp found other listed
          simpa [same] using this
        simp [differs]
  · rfl

/-- Under each name the first member of all is found. -/
theorem find?_firstOfEach (members : List Member) (name : String) :
    (firstOfEach members).find? (·.name = name) = members.find? (·.name = name) := by
  rw [firstOfEach_eq]
  induction members using List.reverseRecOn with
  | nil => rfl
  | append_singleton rest m ih =>
      rw [List.foldl_append, List.foldl_cons, List.foldl_nil, find?_addNew, List.find?_append, ih,
        List.find?_append]

end Member

/-! ### Inheriting -/

namespace Shape

open Member

theorem addMember_eq (s : Shape) (m : Member) :
    s.addMember m = { s with members := addNew s.members m } := by
  have taken : (s.member? m.name).isSome = true ↔ s.members.any m.sameName = true := by
    rw [member?_isSome_iff, any_sameName]
  unfold addMember addNew
  simp only [taken]
  split <;> rfl

theorem foldl_addMember (s : Shape) (members : List Member) :
    members.foldl addMember s = { s with members := members.foldl addNew s.members } := by
  induction members generalizing s with
  | nil => rfl
  | cons m rest ih => rw [List.foldl_cons, addMember_eq, ih, List.foldl_cons]

theorem inherit_eq (s base : Shape) : s.inherit base =
    { members := base.members.foldl addNew s.members
      call := if s.call.isEmpty then base.call else s.call
      construct := if s.construct.isEmpty then base.construct else s.construct
      stringIndex := s.stringIndex <|> base.stringIndex
      numberIndex := s.numberIndex <|> base.numberIndex
      symbol := s.symbol } := by
  unfold inherit
  rw [foldl_addMember]

/-- It does not matter how inheriting is grouped. -/
theorem inherit_inherit (a b c : Shape) : (a.inherit b).inherit c = a.inherit (b.inherit c) := by
  have first {α : Type} (l m n : List α) :
      (if (if l.isEmpty then m else l).isEmpty then n else if l.isEmpty then m else l) =
        if l.isEmpty then (if m.isEmpty then n else m) else l := by
    cases l <;> simp
  have choice {α : Type} (x y z : Option α) : ((x <|> y) <|> z) = (x <|> (y <|> z)) := by
    cases x <;> rfl
  simp only [inherit_eq, foldl_addNew_foldl, first, choice]

theorem inherit_self (s : Shape) : s.inherit s = s := by
  have members : s.members.foldl addNew s.members = s.members :=
    foldl_addNew_of_taken fun m listed => List.mem_map_of_mem listed
  have choice {α : Type} (x : Option α) : (x <|> x) = x := by cases x <;> rfl
  simp only [inherit_eq, members, choice, ite_self]

/-- Inheriting once more changes nothing. -/
theorem inherit_again (a b : Shape) : (a.inherit b).inherit b = a.inherit b := by
  rw [inherit_inherit, inherit_self]

/-- Ways to put shapes together that add the members that are new. -/
def Adds (merge : Shape → Shape → Shape) : Prop :=
  ∀ s part, (merge s part).members = part.members.foldl addNew s.members

theorem adds_inherit : Adds inherit := fun s part => by rw [inherit_eq]

theorem Adds.members_foldl {merge : Shape → Shape → Shape} (adds : Adds merge)
    (parts : List Shape) (s : Shape) :
    (parts.foldl merge s).members = (parts.flatMap (·.members)).foldl addNew s.members := by
  induction parts generalizing s with
  | nil => rfl
  | cons part rest ih => rw [List.foldl_cons, ih, adds, List.flatMap_cons, List.foldl_append]

end Shape

/-! ### Rounds of work -/

namespace Check

section

variable {α β γ : Type}

/-- Members that are neither known nor being worked out are worked out and noted. -/
theorem outcome_structureOnce {s : SymbolId} (m : Check Shape) (p : Program) {c : Checker}
    (unknown : c.structures.find? s = none) (free : s ∉ c.structures.running) :
    let r := m.outcome p { c with structures := c.structures.enter s }
    (structureOnce s m).outcome p c =
      (r.1, { r.2 with structures := r.2.structures.leave s r.1 }) := by
  have idle : c.structures.isRunning s = false := by simpa [Memo.isRunning] using free
  simp only [structureOnce, once, unknown, idle, Bool.false_eq_true, if_false]

/-- Results that are put together one by one may be put together when all of them are there. -/
theorem foldlM_merge (f : α → Check β) (merge : γ → β → γ) (list : List α) (start : γ) :
    list.foldlM (fun acc x => do return merge acc (← f x)) start =
      (fun found => found.foldl merge start) <$> list.mapM f := by
  induction list generalizing start with
  | nil => simp only [List.foldlM_nil, List.mapM_nil, map_pure, List.foldl_nil]
  | cons x rest ih =>
      rw [List.foldlM_cons, List.mapM_cons]
      simp only [bind_assoc, pure_bind, ih, map_eq_pure_bind, List.foldl_cons]

/-- A loop in a loop is one loop over the pairs. -/
theorem foldlM_foldlM (inner : α → List β) (f : α → γ → β → Check γ) (list : List α) (start : γ) :
    list.foldlM (fun acc x => (inner x).foldlM (f x) acc) start =
      (list.flatMap fun x => (inner x).map (x, ·)).foldlM (fun acc pair => f pair.1 acc pair.2)
        start := by
  induction list generalizing start with
  | nil => rfl
  | cons x rest ih =>
      rw [List.foldlM_cons, List.flatMap_cons, List.foldlM_append, List.foldlM_map]
      simp only [ih]

end

end Check

/-! ### What members are put together from -/

/-- The shapes that the members of an interface or class come from, in order. -/
structure Parts where
  /-- Those of the declarations of an interface, or of the members of the body of a class. -/
  own : List Shape := []
  bases : List Shape := []

namespace Parts

open Member

/-- The members that parts make: the first of each name, those of bases last. -/
def members (parts : Parts) : List Member :=
  firstOfEach ((parts.own ++ parts.bases).flatMap (·.members))

theorem members_foldl {join inherit : Shape → Shape → Shape} (own : Shape.Adds join)
    (bases : Shape.Adds inherit) (parts : Parts) :
    (parts.bases.foldl inherit (parts.own.foldl join {})).members = parts.members := by
  rw [bases.members_foldl, own.members_foldl, members, firstOfEach_eq, List.flatMap_append,
    List.foldl_append]

theorem find?_members (parts : Parts) (name : String) :
    parts.members.find? (·.name = name) = (parts.own ++ parts.bases).findSome? (·.member? name) := by
  rw [members, find?_firstOfEach, List.find?_flatMap]
  rfl

end Parts

namespace Checker

open Syntax Member

variable (calls : Calls)

/-- The declarations of an interface with the scopes of their bodies. -/
def interfaceSites (s : SymbolId) : Check (List (InterfaceDecl × TypeScope)) := do
  let params ← calls.ask (.typeParams s)
  let this ← calls.ask (.declaredType s)
  ((← Check.decls s).filterMap interfaceDecl?).mapM fun (file, interface) => do
    let scope := (← Check.scopeIn file s).withParams (interface.typeParams.map (·.name)) params
    return (interface, { scope with this := some this })

/-- The shapes of the declarations of an interface, then those of its bases. -/
def interfaceParts (s : SymbolId) : Check Parts := do
  let sites ← interfaceSites calls s
  let own ← sites.mapM fun site => lowerMembers calls site.2 site.1.members
  let bases ← (sites.flatMap fun site => site.1.bases.map (site, ·)).mapM fun (site, h) => do
    let base ← lowerHeritage calls site.2 h
    calls.ask (.shape base)
  return ⟨own, bases⟩

theorem interfaceShape_eq (s : SymbolId) : interfaceShape calls s =
    (fun parts => parts.bases.foldl Shape.inherit (parts.own.foldl mergeDeclaration {})) <$>
      interfaceParts calls s := by
  have declarations (sites : List (InterfaceDecl × TypeScope)) :=
    Check.foldlM_merge (fun site => lowerMembers calls site.2 site.1.members) mergeDeclaration sites
      {}
  have bases (sites : List (InterfaceDecl × TypeScope)) (own : Shape) :=
    (Check.foldlM_foldlM (fun site => site.1.bases)
      (fun site (shape : Shape) h => do
        let base ← lowerHeritage calls site.2 h
        return shape.inherit (← calls.ask (.shape base))) sites own).trans
    (by simpa only [bind_assoc] using Check.foldlM_merge (fun (pair : (InterfaceDecl × TypeScope) × Heritage) => do
        let base ← lowerHeritage calls pair.1.2 pair.2
        calls.ask (.shape base)) Shape.inherit (sites.flatMap fun site => site.1.bases.map (site, ·)) own)
  unfold interfaceShape interfaceParts interfaceSites
  simp only [declarations, bases, map_eq_pure_bind, bind_assoc, pure_bind]

/-! ### The body of a class -/

/-- The shape of a member of a class that stands alone. A method is not read where its name is
taken. -/
def classPart (scope : ValueScope) (earlier : List Member) (m : ClassMember) : Check Shape :=
  match m with
  | .method name _ _ _ _ =>
      if name ∈ earlier.map (·.name) then return {} else addClassMember calls scope {} m
  | _ => addClassMember calls scope {} m

/-- The shapes of the members of a class, each with the members before it. -/
def bodyParts (scope : ValueScope) (earlier : List Member) : List ClassMember → Check (List Shape)
  | [] => return []
  | m :: rest => do
      let part ← classPart calls scope earlier m
      return part :: (← bodyParts scope (earlier ++ part.members) rest)

/-- The shapes of the members of a class, then the one of the instance of its base. -/
def classParts (s : SymbolId) : Check Parts := do
  match ← classOf? s with
  | none => return {}
  | some (file, c) =>
      let scope ← classScope calls s file c
      let own ← bodyParts calls { types := scope } [] c.members
      match ← baseInstance? calls scope c with
      | none => return ⟨own, []⟩
      | some base => return ⟨own, [← calls.ask (.shape base)]⟩

/-- A class body with the shape of one more member: a later index signature counts. -/
def extendBody (shape part : Shape) : Shape :=
  { part.members.foldl Shape.addMember shape with
    stringIndex := part.stringIndex <|> shape.stringIndex
    numberIndex := part.numberIndex <|> shape.numberIndex }

def inheritInstance (own base : Shape) : Shape :=
  { base.members.foldl Shape.addMember own with
    stringIndex := own.stringIndex <|> base.stringIndex }

theorem adds_extendBody : Shape.Adds extendBody := fun s part => by
  rw [extendBody, Shape.foldl_addMember]

theorem adds_inheritInstance : Shape.Adds inheritInstance := fun s part => by
  rw [inheritInstance, Shape.foldl_addMember]

theorem addMember_extendBody (shape other : Shape) (m : Member) :
    (extendBody shape other).addMember m = extendBody shape (other.addMember m) := by
  simp only [extendBody, Shape.addMember_eq, Shape.foldl_addMember, foldl_addNew_addNew]

/-- A member alone is a part that adds it. -/
theorem extendBody_addMember (shape : Shape) (m : Member) :
    extendBody shape (Shape.addMember {} m) = shape.addMember m := by
  rw [← addMember_extendBody]
  rfl

theorem addParamMembers_onto (scope : ValueScope) (doc : DocComment) (shape other : Shape)
    (params : List ConstructorParam) :
    addParamMembers calls scope doc (extendBody shape other) params =
      extendBody shape <$> addParamMembers calls scope doc other params := by
  unfold addParamMembers
  induction params generalizing other with
  | nil => rfl
  | cons param rest ih =>
      rw [List.foldlM_cons, List.foldlM_cons, map_bind]
      split
      · rw [bind_assoc, bind_assoc]
        refine bind_congr fun found => ?_
        cases found with
        | none => exact ih other
        | some found =>
            rw [pure_bind, pure_bind, addMember_extendBody]
            exact ih _
      · exact ih other

theorem addIndex_onto (scope : TypeScope) (shape : Shape) (index : IndexExpr) :
    addIndex calls scope shape index = extendBody shape <$> addIndex calls scope {} index := by
  have added (isNumber : Bool) (info : IndexInfo) :
      (if isNumber then { shape with numberIndex := some info }
        else { shape with stringIndex := some info }) =
      extendBody shape (if isNumber then { numberIndex := some info }
        else { stringIndex := some info }) := by
    cases isNumber <;> rfl
  unfold addIndex
  cases index.keyType <;> simp only [map_bind, map_pure, added]

theorem addClassMember_eq (scope : ValueScope) {shape : Shape} {earlier : List Member}
    (same : ∀ name, name ∈ shape.members.map (·.name) ↔ name ∈ earlier.map (·.name))
    (m : ClassMember) :
    addClassMember calls scope shape m = extendBody shape <$> classPart calls scope earlier m := by
  cases m with
  | property name type value optional readonly doc =>
      simp only [addClassMember, classPart]
      cases type <;> cases value <;> simp only [map_bind, map_pure, extendBody_addMember]
  | method name function kind optional doc =>
      have taken : (shape.member? name).isSome ↔ name ∈ earlier.map (·.name) :=
        (Shape.member?_isSome_iff shape name).trans (same name)
      by_cases there : name ∈ earlier.map (·.name)
      · simp only [addClassMember, classPart, if_pos there, if_pos (taken.mpr there), map_pure]
        rfl
      · have absent : ¬ (Shape.member? {} name).isSome := Bool.false_ne_true
        simp only [addClassMember, classPart, if_neg there, if_neg (mt taken.mp there), if_neg absent,
          map_bind, map_pure, extendBody_addMember]
  | constructor params hasBody doc => exact addParamMembers_onto calls scope doc shape {} params
  | index index => exact addIndex_onto calls scope.types shape index

theorem foldlM_addClassMember (scope : ValueScope) {shape : Shape} {earlier : List Member}
    (same : ∀ name, name ∈ shape.members.map (·.name) ↔ name ∈ earlier.map (·.name))
    (body : List ClassMember) :
    body.foldlM (addClassMember calls scope) shape =
      (fun parts => parts.foldl extendBody shape) <$> bodyParts calls scope earlier body := by
  induction body generalizing shape earlier with
  | nil => rfl
  | cons m rest ih =>
      rw [List.foldlM_cons, bodyParts, addClassMember_eq calls scope same]
      simp only [map_eq_pure_bind, bind_assoc, pure_bind, List.foldl_cons]
      refine bind_congr fun part => ?_
      have grown (name : String) :
          name ∈ (extendBody shape part).members.map (·.name) ↔
            name ∈ (earlier ++ part.members).map (·.name) := by
        rw [adds_extendBody, names_foldl_addNew, same, List.map_append, List.mem_append]
      rw [ih grown, map_eq_pure_bind]

theorem classShape_eq (s : SymbolId) : classShape calls s =
    (fun parts => parts.bases.foldl inheritInstance (parts.own.foldl extendBody {})) <$>
      classParts calls s := by
  unfold classShape classParts
  rw [map_bind]
  refine bind_congr fun class_ => ?_
  cases class_ with
  | none => rfl
  | some class_ =>
      rw [map_bind]
      refine bind_congr fun scope => ?_
      have fresh (name : String) :
          name ∈ ({} : Shape).members.map (·.name) ↔ name ∈ ([] : List Member).map (·.name) := .rfl
      rw [foldlM_addClassMember calls _ fresh, map_bind, bind_map_left]
      refine bind_congr fun own => ?_
      rw [map_bind]
      refine bind_congr fun base => ?_
      cases base with
      | none => rfl
      | some base => rw [map_bind]; rfl

/-! ### Structures -/

theorem adds_mergeDeclaration : Shape.Adds mergeDeclaration := fun s part => by
  rw [← Shape.adds_inherit s part]
  unfold mergeDeclaration
  split <;> rfl

theorem members_interfaceShape (s : SymbolId) :
    (·.members) <$> interfaceShape calls s = Parts.members <$> interfaceParts calls s := by
  rw [interfaceShape_eq, Functor.map_map]
  exact congrArg (· <$> _) (funext (Parts.members_foldl adds_mergeDeclaration Shape.adds_inherit))

theorem members_classShape (s : SymbolId) :
    (·.members) <$> classShape calls s = Parts.members <$> classParts calls s := by
  rw [classShape_eq, Functor.map_map]
  exact congrArg (· <$> _) (funext (Parts.members_foldl adds_extendBody adds_inheritInstance))

/-- The parts of an interface or class. -/
def structureParts (s : SymbolId) : Check Parts := do
  match ← Check.kind? s with
  | some .interface => interfaceParts calls s
  | some .classDecl => classParts calls s
  | _ => return {}

/-- Members that are worked out from parts are noted with what the parts make. -/
theorem outcome_structureOnce_parts {m : Check Shape} {parts : Check Parts}
    (made : (·.members) <$> m = Parts.members <$> parts) (p : Program) {c : Checker} {s : SymbolId}
    (unknown : c.structures.find? s = none) (free : s ∉ c.structures.running) :
    let from_ := parts.outcome p { c with structures := c.structures.enter s }
    let found := (Check.structureOnce s m).outcome p c
    found.1.members = from_.1.members ∧
      found.2 = { from_.2 with structures := from_.2.structures.leave s found.1 } := by
  have same := congrArg (fun m : Check (List Member) =>
    m.outcome p { c with structures := c.structures.enter s }) made
  simp only [Check.outcome_map, Prod.mk.injEq] at same
  rw [Check.outcome_structureOnce m p unknown free]
  dsimp only
  rw [← same.2]
  exact ⟨same.1, rfl⟩

theorem members_structureBody (s : SymbolId) :
    (·.members) <$> (do
      match ← Check.kind? s with
      | some .interface => interfaceShape calls s
      | some .classDecl => classShape calls s
      | _ => return {} : Check Shape) = Parts.members <$> structureParts calls s := by
  unfold structureParts
  rw [map_bind, map_bind]
  refine bind_congr fun kind => ?_
  split
  · exact members_interfaceShape calls s
  · exact members_classShape calls s
  · rfl

/-- Inheriting may be grouped in any way, and inheriting the same again changes nothing. When the
structure of an interface or class is worked out, its members are the first of each name in its
declarations or its body and then in its bases, and under each name the first member of all is found.
-/
theorem structure_inherits :
    (∀ a b c : Shape, (a.inherit b).inherit c = a.inherit (b.inherit c)) ∧
    (∀ a b : Shape, (a.inherit b).inherit b = a.inherit b) ∧
    ∀ (n : Nat) (p : Program) (c : Checker) (s : SymbolId),
      c.structures.find? s = none → s ∉ c.structures.running →
      let parts := (structureParts (callsTo n) s).outcome p
        { c with structures := c.structures.enter s }
      let found := ((callsTo (n + 1)).ask (.structure_ s)).outcome p c
      found.1.members = firstOfEach ((parts.1.own ++ parts.1.bases).flatMap (·.members)) ∧
        (∀ name, found.1.member? name =
          (parts.1.own ++ parts.1.bases).findSome? (·.member? name)) ∧
        found.2 = { parts.2 with structures := parts.2.structures.leave s found.1 } := by
  refine ⟨Shape.inherit_inherit, Shape.inherit_again, fun n p c s unknown free => ?_⟩
  obtain ⟨members, left⟩ :=
    outcome_structureOnce_parts (members_structureBody (callsTo n) s) p unknown free
  exact ⟨members, fun name => (congrArg (List.find? _) members).trans (Parts.find?_members _ name),
    left⟩

/-- An interface `Item` that is declared twice, and its base, which has a `name` of its own. -/
def extended : Program :=
  let number : TypeExpr := .intrinsic .number
  let string : TypeExpr := .intrinsic .string
  let base : Decl := .interface ⟨"Base", [], [],
    [.property "id" (some number) false false {}, .property "name" (some number) false false {}]⟩
  let item : Decl := .interface ⟨"Item", [], [⟨.ident "Base", "Base", []⟩],
    [.property "name" (some string) false false {}]⟩
  let more : Decl := .interface ⟨"Item", [], [],
    [.property "tags" (some string) true false {}]⟩
  let exported (decl : Decl) : Item := ⟨0, 0, none, {}, .exportDecl decl⟩
  { files := #[⟨⟨"/a.ts", #[], [exported base, exported item, exported more]⟩, "/a.ts", true⟩] }

set_option maxRecDepth 20000 in
/-- The declarations come first, and the `name` of `Item` stays. -/
theorem extended_structure :
    let c := ofProgram extended
    let parts := (structureParts (callsTo 9) ⟨1⟩).outcome extended
      { c with structures := c.structures.enter ⟨1⟩ }
    let found := ((callsTo 10).ask (.structure_ ⟨1⟩)).outcome extended c
    found.1.members = firstOfEach ((parts.1.own ++ parts.1.bases).flatMap (·.members)) ∧
      found.1.members.map (fun m => (m.name, m.type)) = [("name", Arena.intrinsicId .string),
        ("tags", Arena.intrinsicId .string), ("id", Arena.intrinsicId .number)] := by
  have unknown : (ofProgram extended).structures.find? ⟨1⟩ = none := Std.HashMap.getElem?_empty
  have idle : (⟨1⟩ : SymbolId) ∉ (ofProgram extended).structures.running := List.not_mem_nil
  have inherits := structure_inherits.2.2 9 extended (ofProgram extended) ⟨1⟩ unknown idle
  exact ⟨inherits.1, by cbv⟩

end Checker

end ApiDocs
