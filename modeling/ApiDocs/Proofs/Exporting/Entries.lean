import ApiDocs.Proofs.Namespaces.Declared
import ApiDocs.Proofs.Exported

set_option autoImplicit false

/-!
What the items of a file enter under a name: in the scope of the file, where the first symbol under a
name stays, and in its exports, where the first export of a name stays. An exported declaration gives
both the same symbol, unless either of them had another one before.
-/

namespace ApiDocs

open Syntax Bindings

/-! ### What items declare and export -/

/-- A name that is declared, with the spaces that it is declared in and the kind of symbol that is made
for it. -/
structure Declared where
  spaces : List Space
  name : String
  kind : SymbolKind

namespace Declared

/-- It is declared in that space under that name. -/
def At (d : Declared) (space : Space) (name : String) : Prop := space ∈ d.spaces ∧ d.name = name

/-- It makes a symbol of that kind. Where the kind merges, that space is its only one. -/
def Fits (d : Declared) (space : Space) (kind : SymbolKind) : Prop :=
  d.kind = kind ∧ (kind.merges → d.spaces = [space])

end Declared

namespace Syntax

def Declarator.declared? (d : Declarator) : Option Declared :=
  match d.name with
  | .ident name _ _ => some ⟨[.value], name, .variable⟩
  | _ => none

/-- The names that a declaration declares around it. -/
def Decl.declared : Decl → List Declared
  | .classDecl name _ => [⟨both, name, .classDecl⟩]
  | .function name _ => [⟨[.value], name, .function⟩]
  | .variableList _ declarators => declarators.filterMap (·.declared?)
  | .interface i => [⟨[.type], i.name, .interface⟩]
  | .typeAlias a => [⟨[.type], a.name, .typeAlias⟩]
  | .enum name => [⟨both, name, .enum⟩]
  | .namespaceDecl name _ => if name = "global" then [] else [⟨both, name, .namespaceDecl⟩]
  | .other => []

def DefaultDecl.declared : DefaultDecl → Declared
  | .classDecl name _ => ⟨both, name.getD defaultName, .classDecl⟩
  | .function name _ => ⟨[.value], name.getD defaultName, .function⟩
  | .interface i => ⟨[.type], i.name, .interface⟩

namespace ItemKind

/-- The names that an item declares in the scope of its file. -/
def declared : ItemKind → List Declared
  | .decl d => d.declared
  | .exportDecl d => d.declared
  | .exportDefault d => [d.declared]
  | .exportValue (some _) => [⟨both, defaultName, .redirect⟩]
  | .importFrom specifiers _ => specifiers.map fun s => ⟨both, s.localName, .redirect⟩
  | _ => []

/-- The item exports the name for something that need not be declared under it. -/
def Renames (kind : ItemKind) (space : Space) (name : String) : Prop :=
  match kind with
  | .exportDefault d => space ∈ d.declared.spaces ∧ name = defaultName
  | .exportValue value => value.isSome ∧ name = defaultName
  | .exportNamed specifiers source =>
      ∃ s ∈ specifiers, ∃ node, exportNode? source s = some (name, node)
  | _ => False

/-- The item exports the name. -/
def Exports (kind : ItemKind) (space : Space) (name : String) : Prop :=
  kind.Renames space name ∨ ∃ decl, kind = .exportDecl decl ∧ ∃ d ∈ decl.declared, d.At space name

end ItemKind

theorem Declarator.eq_of_mem_declared {declarators : List Declarator} {d : Declared}
    (listed : d ∈ declarators.filterMap (·.declared?)) : ∃ name, d = ⟨[.value], name, .variable⟩ := by
  obtain ⟨declarator, _, gives⟩ := List.mem_filterMap.mp listed
  unfold Declarator.declared? at gives
  split at gives <;> cases gives
  exact ⟨_, rfl⟩

/-- The names of a declaration make symbols of one kind, which are no other names of something. -/
theorem Decl.kind_declared {decl : Decl} {d e : Declared} (first : d ∈ decl.declared)
    (second : e ∈ decl.declared) : e.kind = d.kind ∧ d.kind ≠ .redirect := by
  cases decl with
  | variableList isConst declarators =>
      obtain ⟨_, rfl⟩ := Declarator.eq_of_mem_declared first
      obtain ⟨_, rfl⟩ := Declarator.eq_of_mem_declared second
      exact ⟨rfl, nofun⟩
  | namespaceDecl name body =>
      cases List.mem_singleton.mp (List.mem_ite_nil_left.mp first).2
      cases List.mem_singleton.mp (List.mem_ite_nil_left.mp second).2
      exact ⟨rfl, nofun⟩
  | other => cases first
  | _ =>
      cases List.mem_singleton.mp first
      cases List.mem_singleton.mp second
      exact ⟨rfl, nofun⟩

/-- Declarations that merge are declared in one space, unless they are namespaces. -/
theorem Decl.spaces_declared {decl : Decl} {d : Declared} {space : Space} (listed : d ∈ decl.declared)
    (apart : d.kind ≠ .namespaceDecl) (inside : space ∈ d.spaces) (merges : d.kind.merges) :
    d.spaces = [space] := by
  cases decl with
  | interface | function =>
      cases List.mem_singleton.mp listed
      rw [List.mem_singleton.mp inside]
  | variableList isConst declarators =>
      obtain ⟨_, rfl⟩ := Declarator.eq_of_mem_declared listed
      cases merges
  | namespaceDecl name body =>
      cases List.mem_singleton.mp (List.mem_ite_nil_left.mp listed).2
      exact absurd rfl apart
  | other => cases listed
  | _ =>
      cases List.mem_singleton.mp listed
      cases merges

end Syntax

/-! ### Entries of tables -/

namespace SymbolTable

/-- A name that is taken keeps its symbol. -/
theorem get?_insert (t : SymbolTable) (space other : Space) (name asked : String) (s : SymbolId) :
    (t.insert space name s).get? other asked =
      (t.get? other asked).or (if space = other ∧ name = asked then some s else none) := by
  have table (m : OrdMap String SymbolId) : (m.insertNew name s).get? asked =
      (m.get? asked).or (if name = asked then some s else none) := by
    unfold OrdMap.insertNew
    by_cases same : name = asked
    · subst same
      rw [if_pos rfl]
      cases there : m.get? name with
      | none => simp [OrdMap.contains, there]
      | some found => simp [OrdMap.contains, there]
    · rw [if_neg same, Option.or_none]
      split
      · rfl
      · exact OrdMap.get?_insert_other _ _ _ _ (Ne.symm same)
  cases space <;> cases other <;> simp [insert, get?, table]

theorem get?_insertAll (t : SymbolTable) (spaces : List Space) (other : Space) (name asked : String)
    (s : SymbolId) : (t.insertAll spaces name s).get? other asked =
      (t.get? other asked).or (if other ∈ spaces ∧ name = asked then some s else none) := by
  induction spaces generalizing t with
  | nil => simp [insertAll]
  | cons space rest ih =>
      change ((t.insert space name s).insertAll rest name s).get? other asked = _
      rw [ih, get?_insert, Option.or_assoc]
      congr 1
      by_cases same : name = asked <;> by_cases here : space = other <;> simp [same, here, Ne.symm]

end SymbolTable

namespace Bindings

/-- The first symbol that a name was bound to. -/
def Bound.first? (bound : Bound) (space : Space) (name : String) : Option SymbolId :=
  bound.findSome? fun (bindsIn, bindsName, s) =>
    if bindsIn = space ∧ bindsName = name then some s else none

theorem first?_cons (bindsIn space : Space) (bindsName name : String) (s : SymbolId) (rest : Bound) :
    Bound.first? ((bindsIn, bindsName, s) :: rest) space name =
      (if bindsIn = space ∧ bindsName = name then some s else none).or (rest.first? space name) := by
  simp only [Bound.first?, List.findSome?_cons]
  by_cases here : bindsIn = space ∧ bindsName = name
  · rw [if_pos here, Option.some_or]
  · rw [if_neg here, Option.none_or]

theorem first?_append (bound more : Bound) (space : Space) (name : String) :
    (bound ++ more).first? space name = (bound.first? space name).or (more.first? space name) :=
  List.findSome?_append

theorem first?_spaces (spaces : List Space) (bound name : String) (s : SymbolId) (space : Space) :
    Bound.first? (spaces.map fun space => (space, bound, s)) space name =
      if space ∈ spaces ∧ bound = name then some s else none := by
  induction spaces with
  | nil => simp [Bound.first?]
  | cons first rest ih =>
      rw [List.map_cons, first?_cons, ih]
      by_cases same : bound = name <;> by_cases here : first = space <;> simp [same, here, Ne.symm]

theorem get?_foldl_insert (bound : Bound) (t : SymbolTable) (space : Space) (name : String) :
    (bound.foldl (fun t (space, name, id) => t.insert space name id) t).get? space name =
      (t.get? space name).or (bound.first? space name) := by
  induction bound generalizing t with
  | nil => exact (Option.or_none ..).symm
  | cons entry rest ih =>
      obtain ⟨bindsIn, bindsName, s⟩ := entry
      rw [List.foldl_cons, ih, SymbolTable.get?_insert, Option.or_assoc, first?_cons]

theorem get?_exportAll {b : Bindings} {file : FileId} (inside : file.index < b.files.size)
    (bound : Bound) (space : Space) (name : String) :
    ((b.exportAll file bound).scope file).exports.get? space name =
      ((b.scope file).exports.get? space name).or (bound.first? space name) := by
  unfold exportAll
  rw [scope_modify_self b inside]
  exact get?_foldl_insert bound _ space name

theorem locals_exportAll (b : Bindings) (changed : FileId) (bound : Bound) (file : FileId) :
    ((b.exportAll changed bound).scope file).locals = (b.scope file).locals :=
  table_modifyFile b changed
    (fun s =>
      { s with exports := bound.foldl (fun t (space, name, id) => t.insert space name id) s.exports })
    (fun _ => rfl) (.file file)

/-! ### Declarations -/

section

variable {b b' : Bindings} {site : Site} {file : FileId} {space : Space} {name : String}

/-- Every symbol that a name has in a file is of that kind, which merges. -/
def Merging (b : Bindings) (file : FileId) (space : Space) (name : String) (kind : SymbolKind) :
    Prop :=
  ∀ s, (b.scope file).locals.get? space name = some s → b.kind? s = some kind ∧ kind.merges

/-- Names were declared in the scope of a file, and bound to symbols. What a name was first bound to is
what it stands for, if only symbols of that kind had it before and later declarations merge with it. -/
structure Declares (file : FileId) (space : Space) (name : String) (declared : List Declared)
    (b : Bindings) (r : Bound × Bindings) : Prop where
  grown : b.Grows r.2
  exports : (r.2.scope file).exports = (b.scope file).exports
  origin : ∀ s, (r.2.scope file).locals.get? space name = some s →
    (b.scope file).locals.get? space name = some s ∨
      ∃ d ∈ declared, d.At space name ∧ r.2.kind? s = some d.kind
  agrees : ∀ kind, b.Merging file space name kind →
    (∀ d ∈ declared, d.At space name → d.Fits space kind) →
    ∀ s, r.1.first? space name = some s → (r.2.scope file).locals.get? space name = some s
  named : (r.1.first? space name).isSome ↔ ∃ d ∈ declared, d.At space name

namespace Declares

variable {declared more : List Declared} {r : Bound × Bindings}

theorem nothing (b : Bindings) : Declares file space name [] b ([], b) :=
  ⟨.refl b, rfl, fun _ known => Or.inl known, nofun, by simp [Bound.first?]⟩

/-- What is done elsewhere changes nothing. -/
theorem later (declares : Declares file space name declared b r) (grown : r.2.Grows b')
    (same : b'.scope file = r.2.scope file) : Declares file space name declared b (r.1, b') where
  grown := declares.grown.trans grown
  exports := (congrArg FileScope.exports same).trans declares.exports
  origin s known := by
    rw [same] at known
    rcases declares.origin s known with before | ⟨d, listed, here, kind⟩
    · exact Or.inl before
    · exact Or.inr ⟨d, listed, here, grown.kinds s _ kind⟩
  agrees kind merging fits s first := same ▸ declares.agrees kind merging fits s first
  named := declares.named

/-- What a name stands for after a declaration is of the kind that all of them have. -/
theorem merging (declares : Declares file space name declared b r) {kind : SymbolKind}
    (before : b.Merging file space name kind)
    (fits : ∀ d ∈ declared, d.At space name → d.kind = kind ∧ kind.merges) :
    r.2.Merging file space name kind := by
  intro s known
  rcases declares.origin s known with old | ⟨d, listed, here, own⟩
  · exact ⟨declares.grown.kinds s kind (before s old).1, (before s old).2⟩
  · obtain ⟨same, merges⟩ := fits d listed here
    exact ⟨same ▸ own, merges⟩

/-- One declaration after others. -/
theorem append (first : Declares file space name declared b r) {r' : Bound × Bindings}
    (second : Declares file space name more r.2 r') :
    Declares file space name (declared ++ more) b (r.1 ++ r'.1, r'.2) where
  grown := first.grown.trans second.grown
  exports := second.exports.trans first.exports
  origin s known := by
    rcases second.origin s known with middle | ⟨d, listed, here, kind⟩
    · rcases first.origin s middle with before | ⟨d, listed, here, kind⟩
      · exact Or.inl before
      · exact Or.inr ⟨d, List.mem_append_left _ listed, here, second.grown.kinds s _ kind⟩
    · exact Or.inr ⟨d, List.mem_append_right _ listed, here, kind⟩
  agrees kind merging fits s bound := by
    rw [first?_append] at bound
    cases old : r.1.first? space name with
    | some s' =>
        rw [old] at bound
        cases bound
        exact second.grown.names (.file file) space name s
          (first.agrees kind merging (fun d listed => fits d (List.mem_append_left _ listed)) s old)
    | none =>
        rw [old] at bound
        have unnamed : ∀ d ∈ declared, ¬ d.At space name := by
          intro d listed here
          have taken := first.named.mpr ⟨d, listed, here⟩
          rw [old] at taken
          cases taken
        exact second.agrees kind (first.merging merging fun d listed here =>
          absurd here (unnamed d listed))
          (fun d listed => fits d (List.mem_append_right _ listed)) s bound
  named := by
    rw [first?_append, Option.isSome_or, Bool.or_eq_true, first.named, second.named]
    simp only [List.mem_append, or_and_right, exists_or]

end Declares

/-- A new symbol is entered in the scope of the file. -/
theorem scope_declare_new (here : b.InModule site file) {spaces : List Space} {bound : String}
    {kind : SymbolKind} (absent : b.merging? site spaces bound kind = none) (doc : DocComment)
    (node : DeclNode) :
    let r := b.declare site spaces bound kind doc node
    (r.2.scope file).locals = (b.scope file).locals.insertAll spaces bound r.1 ∧
      (r.2.scope file).exports = (b.scope file).exports := by
  simp only [declare, absent, here.table, modifyTable]
  rw [scope_modify_self (b.addSymbol _).2 here.inside]
  exact ⟨rfl, rfl⟩

theorem first?_bindName (b : Bindings) (site : Site) (spaces : List Space) (bound : String)
    (kind : SymbolKind) (doc : DocComment) (node : DeclNode) :
    (b.bindName site spaces bound kind doc node).1.first? space name =
      if space ∈ spaces ∧ bound = name then some (b.declare site spaces bound kind doc node).1
      else none :=
  first?_spaces spaces bound name _ space

/-- A declaration of one name. -/
theorem declares_bindName (here : b.InModule site file) (spaces : List Space) (bound : String)
    (kind : SymbolKind) (doc : DocComment) (node : DeclNode) :
    Declares file space name [⟨spaces, bound, kind⟩] b
      (b.bindName site spaces bound kind doc node) := by
  let r := b.declare site spaces bound kind doc node
  have own : r.2.kind? r.1 = some kind := kind?_declare b site spaces bound kind doc node
  have effect : (r.2.scope file).exports = (b.scope file).exports ∧
      (∀ s, (r.2.scope file).locals.get? space name = some s →
        (b.scope file).locals.get? space name = some s ∨ (space ∈ spaces ∧ bound = name) ∧ s = r.1) ∧
      ∀ kind', b.Merging file space name kind' → (⟨spaces, bound, kind⟩ : Declared).Fits space kind' →
        space ∈ spaces ∧ bound = name → (r.2.scope file).locals.get? space name = some r.1 := by
    cases merging : b.merging? site spaces bound kind with
    | some found =>
        have made : r = _ := declare_merging merging doc node
        obtain ⟨⟨other, listed, known⟩, merges, _⟩ := merging?_eq_some merging
        rw [made]
        refine ⟨rfl, fun _ known => Or.inl known, fun kind' _ fits inside => ?_⟩
        obtain ⟨rfl, single⟩ := fits
        have only : spaces = [space] := single merges
        rw [only, List.mem_singleton] at listed
        rw [here.table, inside.2, listed] at known
        exact known
    | none =>
        obtain ⟨locals, exports⟩ := scope_declare_new here merging doc node
        have entry := SymbolTable.get?_insertAll (b.scope file).locals spaces space bound name r.1
        rw [← locals] at entry
        refine ⟨exports, fun s known => ?_, fun kind' before fits inside => ?_⟩
        · rw [entry, Option.or_eq_some_iff] at known
          rcases known with old | ⟨_, new⟩
          · exact Or.inl old
          · rw [Option.ite_none_right_eq_some] at new
            exact Or.inr ⟨new.1, (Option.some.inj new.2).symm⟩
        · rw [entry, if_pos inside]
          cases known : (b.scope file).locals.get? space name with
          | none => rfl
          | some s =>
              obtain ⟨rfl, single⟩ := fits
              obtain ⟨same, merges⟩ := before s known
              have only : spaces = [space] := single merges
              have named : (b.table site.table).get? space bound = some s := by
                rw [here.table, inside.2]
                exact known
              simp [merging?, only, named, merges, same] at merging
  obtain ⟨exports, origin, agrees⟩ := effect
  constructor
  case grown => exact grows_declare b site spaces bound kind doc node
  case exports => exact exports
  case origin =>
    intro s known
    rcases origin s known with before | ⟨inside, rfl⟩
    · exact Or.inl before
    · exact Or.inr ⟨_, List.mem_singleton_self _, inside, own⟩
  case agrees =>
    intro kind' before fits s bindsTo
    rw [first?_bindName, Option.ite_none_right_eq_some] at bindsTo
    obtain ⟨inside, same⟩ := bindsTo
    rw [← same]
    exact agrees kind' before (fits _ (List.mem_singleton_self _) inside) inside
  case named =>
    rw [first?_bindName]
    simp [Declared.At]

theorem declares_foldVariables (here : b.InModule site file) (doc : DocComment) (isConst : Bool)
    (declarators : List Declarator) {declared : List Declared} {sofar : Bound × Bindings}
    (before : Declares file space name declared b sofar) :
    Declares file space name (declared ++ declarators.filterMap (·.declared?)) b
      (declarators.foldl (bindVariable site doc isConst) sofar) := by
  induction declarators generalizing declared sofar with
  | nil =>
      rw [List.filterMap_nil, List.append_nil]
      exact before
  | cons d rest ih =>
      rw [List.foldl_cons]
      unfold bindVariable
      cases named : d.name with
      | ident bound =>
          have binding : Declares file space name [⟨[.value], bound, .variable⟩] sofar.2
              (sofar.2.bindName site [.value] bound .variable doc (.variable isConst d)) :=
            declares_bindName (here.grows before.grown) [.value] bound .variable doc
            (.variable isConst d)
          have step := before.append binding
          have declares : d.declared? = some ⟨[.value], bound, .variable⟩ := by
            unfold Declarator.declared?
            rw [named]
          rw [List.filterMap_cons_some declares, ← List.singleton_append, ← List.append_assoc]
          exact ih step
      | _ =>
          have nothing : d.declared? = none := by
            unfold Declarator.declared?
            rw [named]
          rw [List.filterMap_cons_none nothing]
          exact ih before

/-- What is declared outside of the scopes of files leaves these alone. -/
theorem files_declare {site : Site} (outside : ∀ file, site.table ≠ .file file) (spaces : List Space)
    (name : String) (kind : SymbolKind) (doc : DocComment) (node : DeclNode) :
    (b.declare site spaces name kind doc node).2.files = b.files := by
  unfold declare
  dsimp only
  split
  · rfl
  · cases table : site.table with
    | file file => exact absurd table (outside file)
    | global | members => rfl

theorem files_foldVariables {site : Site} (outside : ∀ file, site.table ≠ .file file)
    (doc : DocComment) (isConst : Bool) (declarators : List Declarator) (sofar : Bound × Bindings) :
    (declarators.foldl (bindVariable site doc isConst) sofar).2.files = sofar.2.files := by
  induction declarators generalizing sofar with
  | nil => rfl
  | cons d rest ih =>
      rw [List.foldl_cons, ih]
      unfold bindVariable
      split
      · exact files_declare outside _ _ _ _ _
      · rfl

mutual

theorem files_bindDecl {b : Bindings} {site : Site} (outside : ∀ file, site.table ≠ .file file)
    (doc : DocComment) : (decl : Decl) → (b.bindDecl site doc decl).2.files = b.files
  | .classDecl name class_ => files_declare outside both name .classDecl doc (.classDecl class_)
  | .function name function => files_declare outside [.value] name .function doc (.function function)
  | .variableList isConst declarators => files_foldVariables outside doc isConst declarators ([], b)
  | .interface i => files_declare outside [.type] i.name .interface doc (.interface i)
  | .typeAlias a => files_declare outside [.type] a.name .typeAlias doc (.typeAlias a)
  | .enum name => files_declare outside both name .enum doc .enum
  | .namespaceDecl name body => by
      unfold bindDecl
      split
      · exact files_bindBody (fun _ => Table.noConfusion) body
      · exact (files_bindBody (fun _ => Table.noConfusion) body).trans
          (files_declare outside both name .namespaceDecl doc .namespaceDecl)
  | .other => rfl

theorem files_bindBody {b : Bindings} {site : Site} (outside : ∀ file, site.table ≠ .file file) :
    (body : NamespaceBody) → (b.bindBody site body).files = b.files
  | .block declarations => files_bindDecls outside declarations
  | .nested name doc body =>
      (files_bindBody (fun _ => Table.noConfusion) body).trans
        (files_declare outside both name .namespaceDecl doc .namespaceDecl)

theorem files_bindDecls {b : Bindings} {site : Site} (outside : ∀ file, site.table ≠ .file file) :
    (declarations : List (DocComment × Decl)) → (b.bindDecls site declarations).files = b.files
  | [] => rfl
  | item :: rest => (files_bindDecls outside rest).trans (files_bindDocDecl outside item)

theorem files_bindDocDecl {b : Bindings} {site : Site} (outside : ∀ file, site.table ≠ .file file) :
    (item : DocComment × Decl) → (b.bindDocDecl site item).files = b.files
  | (doc, decl) => files_bindDecl outside doc decl

end

/-- A declaration enters its names in the scope of the file. -/
theorem declares_bindDecl (here : b.InModule site file) (doc : DocComment) (decl : Decl) :
    Declares file space name decl.declared b (b.bindDecl site doc decl) := by
  cases decl with
  | classDecl => exact declares_bindName here _ _ _ _ _
  | function => exact declares_bindName here _ _ _ _ _
  | variableList isConst declarators =>
      exact declares_foldVariables here doc isConst declarators (.nothing b)
  | interface => exact declares_bindName here _ _ _ _ _
  | typeAlias => exact declares_bindName here _ _ _ _ _
  | enum => exact declares_bindName here _ _ _ _ _
  | namespaceDecl bound body =>
      by_cases named : bound = "global"
      · have outside : Site.Valid ⟨site.file, .global, none, true⟩ b := ⟨rfl, rfl⟩
        have same : (b.bindBody ⟨site.file, .global, none, true⟩ body).files = b.files :=
          files_bindBody (fun _ => Table.noConfusion) body
        simp only [bindDecl, Decl.declared, if_pos named]
        refine (Declares.nothing b).later (binds_bindBody outside body).grows ?_
        unfold scope
        rw [same]
      · have inner := binds_bindBody (valid_members b site bound doc site.global) body
        simp only [bindDecl, Decl.declared, if_neg named]
        refine (declares_bindName here both bound .namespaceDecl doc .namespaceDecl).later
          inner.grows ?_
        unfold scope
        rw [files_bindBody (fun _ => Table.noConfusion) body]
        rfl
  | other => exact .nothing b

/-! ### Items -/

/-- What an item does to the entries of a name in its file. A name that it is the first to export is
exported for what it stands for, if the item merges with what declared it before and does not export it
as a name for something else. -/
structure Enters (file : FileId) (space : Space) (name : String) (item : ItemKind) (b b' : Bindings) :
    Prop where
  grown : b.Grows b'
  origin : ∀ s, (b'.scope file).locals.get? space name = some s →
    (b.scope file).locals.get? space name = some s ∨
      ∃ d ∈ item.declared, d.At space name ∧ b'.kind? s = some d.kind
  exported : ∀ s, (b'.scope file).exports.get? space name = some s →
    (b.scope file).exports.get? space name = some s ∨ item.Exports space name
  agrees : ∀ kind, b.Merging file space name kind →
    (∀ d ∈ item.declared, d.At space name → d.Fits space kind) → ¬ item.Renames space name →
    (b.scope file).exports.get? space name = none →
    ∀ s, (b'.scope file).exports.get? space name = some s →
      (b'.scope file).locals.get? space name = some s

/-- Items that are no exports. -/
theorem Enters.of_exports {item : ItemKind} (grown : b.Grows b')
    (origin : ∀ s, (b'.scope file).locals.get? space name = some s →
      (b.scope file).locals.get? space name = some s ∨
        ∃ d ∈ item.declared, d.At space name ∧ b'.kind? s = some d.kind)
    (same : (b'.scope file).exports = (b.scope file).exports) : Enters file space name item b b' where
  grown := grown
  origin := origin
  exported s known := Or.inl (same ▸ known)
  agrees _ _ _ _ absent s known := by
    rw [same, absent] at known
    cases known

theorem Declares.enters {item : ItemKind} {declared : List Declared} {r : Bound × Bindings}
    (declares : Declares file space name declared b r) (own : item.declared = declared) :
    Enters file space name item b r.2 :=
  .of_exports declares.grown (own ▸ declares.origin) declares.exports

/-- What was declared is exported: under its name, or the name is exported for it. -/
theorem Declares.enters_exportAll {item : ItemKind} {declared : List Declared} {r : Bound × Bindings}
    (declares : Declares file space name declared b r) (own : item.declared = declared)
    (inside : file.index < b.files.size)
    {bound : Bound} (exports : ∀ s, bound.first? space name = some s → item.Exports space name)
    (agrees : ∀ s, bound.first? space name = some s → item.Renames space name ∨
      r.1.first? space name = some s) : Enters file space name item b (r.2.exportAll file bound) := by
  subst own
  have entry := get?_exportAll (Nat.lt_of_lt_of_le inside declares.grown.files) bound space name
  rw [declares.exports] at entry
  have locals := locals_exportAll r.2 file bound file
  constructor
  case grown => exact declares.grown.trans (grows_exportAll _ _ _)
  case origin =>
    intro s known
    rw [locals] at known
    exact declares.origin s known
  case exported =>
    intro s known
    rw [entry, Option.or_eq_some_iff] at known
    exact known.imp_right fun new => exports s new.2
  case agrees =>
    intro kind merging fits named absent s known
    rw [entry, absent, Option.none_or] at known
    rw [locals]
    exact declares.agrees kind merging fits s ((agrees s known).resolve_left named)

theorem declares_foldImports (here : b.InModule site file) (doc : DocComment) (source : String)
    (specifiers : List ImportSpecifier) : ∃ bound, Declares file space name
      (specifiers.map fun s => ⟨both, s.localName, .redirect⟩) b
      (bound, specifiers.foldl (fun b s => b.bindImport site doc source s) b) := by
  induction specifiers generalizing b with
  | nil => exact ⟨[], .nothing b⟩
  | cons s rest ih =>
      have first : Declares file space name [⟨both, s.localName, .redirect⟩] b _ :=
        declares_bindName here both s.localName .redirect doc (.imported source s.name)
      obtain ⟨bound, later⟩ := ih (here.grows first.grown)
      exact ⟨_, first.append later⟩

/-- A specifier exports its name, unless it is exported already, and declares nothing. -/
theorem scope_bindExport (inside : site.file.index < b.files.size) (doc : DocComment)
    {source : Option String} {s : ExportSpecifier} {exported : String} {node : DeclNode}
    (gives : exportNode? source s = some (exported, node)) (space : Space) (name : String) :
    let b' := b.bindExport site doc source s
    (b'.scope site.file).locals = (b.scope site.file).locals ∧
      (b'.scope site.file).exports.get? space name =
        ((b.scope site.file).exports.get? space name).or
          (if exported = name then some ⟨b.symbols.size⟩ else none) := by
  let added := (b.addSymbol (redirectSymbol site exported doc node)).2
  have bound : b.bindExport site doc source s =
      added.exportBoth site.file exported ⟨b.symbols.size⟩ := by
    simp only [bindExport, gives]
    rfl
  have there : site.file.index < added.files.size := inside
  rw [bound]
  refine ⟨locals_exportAll added site.file _ site.file, (get?_exportAll there _ space name).trans ?_⟩
  simp only [first?_spaces, mem_both, true_and]
  rfl

theorem scope_foldExports (inside : site.file.index < b.files.size) (valid : site.Valid b)
    (doc : DocComment)
    (source : Option String) (specifiers : List ExportSpecifier) (space : Space) (name : String) :
    let b' := specifiers.foldl (fun b s => b.bindExport site doc source s) b
    (b'.scope site.file).locals = (b.scope site.file).locals ∧
      ∀ s, (b'.scope site.file).exports.get? space name = some s →
        (b.scope site.file).exports.get? space name = some s ∨
          ∃ x ∈ specifiers, ∃ node, exportNode? source x = some (name, node) := by
  induction specifiers generalizing b with
  | nil => exact ⟨rfl, fun _ known => Or.inl known⟩
  | cons x rest ih =>
      have grown := (binds_bindExport valid doc source x).grows
      obtain ⟨locals, exports⟩ := ih (Nat.lt_of_lt_of_le inside grown.files) (valid.grows grown)
      cases gives : exportNode? source x with
      | none =>
          have same : b.bindExport site doc source x = b := by
            simp only [bindExport, gives]
          rw [same] at locals exports
          rw [List.foldl_cons, same]
          exact ⟨locals, fun s known => (exports s known).imp_right fun ⟨y, listed, named⟩ =>
            ⟨y, List.mem_cons_of_mem x listed, named⟩⟩
      | some r =>
          obtain ⟨exported, node⟩ := r
          obtain ⟨before, entry⟩ := scope_bindExport inside doc gives space name
          refine ⟨locals.trans before, fun s known => ?_⟩
          rcases exports s known with old | ⟨y, listed, named⟩
          · rw [entry, Option.or_eq_some_iff, Option.ite_none_right_eq_some] at old
            rcases old with older | ⟨_, rfl, _⟩
            · exact Or.inl older
            · exact Or.inr ⟨x, List.mem_cons_self, node, gives⟩
          · exact Or.inr ⟨y, List.mem_cons_of_mem x listed, named⟩

theorem enters_bindDefault (here : b.InModule site site.file) (doc : DocComment)
    (decl : DefaultDecl) :
    Enters site.file space name (.exportDefault decl) b (b.bindDefault site doc decl) := by
  have renamed {spaces : List Space} {bound : String} {kind : SymbolKind} (node : DeclNode)
      (same : decl.declared = ⟨spaces, bound, kind⟩) :
      let r := b.bindName site spaces bound kind doc node
      Enters site.file space name (.exportDefault decl) b
        (r.2.exportAll site.file (r.1.map fun (space, _, id) => (space, defaultName, id))) := by
    have declares : Declares site.file space name [⟨spaces, bound, kind⟩] b _ :=
      declares_bindName here spaces bound kind doc node
    have renames : ∀ s, Bound.first? ((b.bindName site spaces bound kind doc node).1.map
        fun (space, _, id) => (space, defaultName, id)) space name = some s →
        (ItemKind.exportDefault decl).Renames space name := by
      intro s first
      simp only [bindName, List.map_map, Function.comp_def] at first
      rw [first?_spaces, Option.ite_none_right_eq_some] at first
      obtain ⟨⟨inside, rfl⟩, _⟩ := first
      exact ⟨same ▸ inside, rfl⟩
    have own : (ItemKind.exportDefault decl).declared = [⟨spaces, bound, kind⟩] :=
      congrArg (fun d => [d]) same
    exact declares.enters_exportAll own here.inside (fun s first => Or.inl (renames s first))
      fun s first => Or.inl (renames s first)
  cases decl with
  | classDecl name class_ => exact renamed (.classDecl class_) rfl
  | function name function => exact renamed (.function function) rfl
  | interface i => exact renamed (.interface i) rfl

theorem enters_bindItem (here : b.InModule site site.file) (valid : site.Valid b) (item : Item) :
    Enters site.file space name item.kind b (bindItem site b item) := by
  have grown := (binds_bindItem valid item).grows
  obtain ⟨_, _, _, doc, kind⟩ := item
  cases kind with
  | statement | otherModule => exact (Declares.nothing b).enters rfl
  | decl decl => exact (declares_bindDecl here doc decl).enters rfl
  | exportDecl decl =>
      have declares : Declares site.file space name decl.declared b (b.bindDecl site doc decl) :=
        declares_bindDecl here doc decl
      refine declares.enters_exportAll rfl here.inside (fun s first => ?_) fun _ first => Or.inr first
      exact Or.inr ⟨decl, rfl, declares.named.mp (first ▸ rfl)⟩
  | exportDefault decl => exact enters_bindDefault here doc decl
  | exportValue value =>
      cases value with
      | none => exact (Declares.nothing b).enters rfl
      | some value =>
          have declares : Declares site.file space name [⟨both, defaultName, .redirect⟩] b _ :=
            declares_bindName here both defaultName .redirect doc (.localAlias value)
          have renames : ∀ s,
              (b.bindName site both defaultName .redirect doc (.localAlias value)).1.first?
              space name = some s → (ItemKind.exportValue (some value)).Renames space name := by
            intro s first
            rw [first?_bindName, Option.ite_none_right_eq_some] at first
            exact ⟨rfl, first.1.2.symm⟩
          exact declares.enters_exportAll rfl here.inside (fun s first => Or.inl (renames s first))
            fun s first => Or.inl (renames s first)
  | exportNamed specifiers source =>
      obtain ⟨locals, exports⟩ := scope_foldExports here.inside valid doc source specifiers space name
      change Enters site.file space name (.exportNamed specifiers source) b
        (specifiers.foldl (fun b s => b.bindExport site doc source s) b)
      refine ⟨grown, fun s known => Or.inl (locals ▸ known), fun s known =>
        (exports s known).imp_right Or.inl, fun _ _ _ named absent s known => ?_⟩
      rcases exports s known with old | new
      · cases absent.symm.trans old
      · exact absurd new named
  | exportAll source =>
      have same : ((b.addStar site.file source).scope site.file).locals = (b.scope site.file).locals ∧
          ((b.addStar site.file source).scope site.file).exports = (b.scope site.file).exports := by
        unfold addStar
        rw [scope_modify_self b here.inside]
        exact ⟨rfl, rfl⟩
      exact .of_exports grown (fun s known => Or.inl (same.1 ▸ known)) same.2
  | importFrom specifiers source =>
      obtain ⟨bound, declares⟩ := declares_foldImports here doc source specifiers
      exact declares.enters rfl

end

end Bindings

end ApiDocs
