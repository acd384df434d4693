import ApiDocs.Proofs.Namespaces.Declared

set_option autoImplicit false

/-!
The namespace blocks of a program, each in the state of the walk in which it is bound. What a block
declares is put into the table of the symbol that the block got. Whether its name stands for that
symbol as a value is settled by what the name stood for before.
-/

namespace ApiDocs

namespace Syntax

open Bindings (both)

/-- Variables are bound by plain names only. -/
def Declarator.declares? (d : Declarator) : Option (Space × String) :=
  match d.name with
  | .ident name _ _ => some (.value, name)
  | _ => none

/-- The names that a declaration makes where it stands. -/
def Decl.declares : Decl → List (Space × String)
  | .classDecl name _ => both.map (·, name)
  | .function name _ => [(.value, name)]
  | .variableList _ declarators => declarators.filterMap (·.declares?)
  | .interface i => [(.type, i.name)]
  | .typeAlias a => [(.type, a.name)]
  | .enum name => both.map (·, name)
  | .namespaceDecl name _ => if name = "global" then [] else both.map (·, name)
  | .other => []

/-- The members of a namespace that a block of it declares. -/
def NamespaceBody.declares : NamespaceBody → List (Space × String)
  | .block declarations => declarations.flatMap (·.2.declares)
  | .nested name _ _ => both.map (·, name)

/-- The declaration of an item, exported or not. -/
def Item.decl? (item : Item) : Option Decl :=
  match item.kind with
  | .decl decl => some decl
  | .exportDecl decl => some decl
  | _ => none

end Syntax

open Syntax

namespace Bindings

/-! ### Namespace blocks of a program -/

/-- What is bound at a site: a declaration, or what stands behind the name of a namespace. -/
inductive Part where
  | decl (doc : DocComment) (decl : Decl)
  | body (body : NamespaceBody)

def bindPart (b : Bindings) (site : Site) : Part → Bindings
  | .decl doc decl => (b.bindDecl site doc decl).2
  | .body body => b.bindBody site body

/-- A namespace with what it declares in one place. -/
structure Block where
  name : String
  doc : DocComment
  body : NamespaceBody

/-- Augmentations of the global scope are no namespaces. The rest of a dotted name is one. -/
def Part.block? : Part → Option Block
  | .decl doc (.namespaceDecl name inner) =>
      if name = "global" then none else some ⟨name, doc, inner⟩
  | .body (.nested name doc inner) => some ⟨name, doc, inner⟩
  | _ => none

namespace Block

/-- The symbol of a block. -/
def symbol (k : Block) (b : Bindings) (site : Site) : SymbolId :=
  (b.declare site both k.name .namespaceDecl k.doc .namespaceDecl).1

/-- The state after the name of a block was declared. -/
def opened (k : Block) (b : Bindings) (site : Site) : Bindings :=
  (b.declare site both k.name .namespaceDecl k.doc .namespaceDecl).2

/-- Where the declarations of a block stand. -/
def inside (k : Block) (b : Bindings) (site : Site) : Site :=
  ⟨site.file, .members (k.symbol b site), some (k.symbol b site), site.global⟩

end Block

/-- What is bound at which site, and in which state, while a program is bound. -/
inductive Occurs (p : Program) : Bindings → Site → Part → Prop where
  | item {file : FileId} {f : SourceFile} {before after : List Item} {item : Item} {decl : Decl}
      (found : p.file? file = some f) (items : f.source.items = before ++ item :: after)
      (declares : item.decl? = some decl) :
      Occurs p (before.foldl (bindItem (topSite file f.source))
        { boundBefore p file with
          files := (boundBefore p file).files.push { isModule := f.source.isModule } })
        (topSite file f.source) (.decl item.doc decl)
  | global {b : Bindings} {site : Site} {doc : DocComment} {body : NamespaceBody}
      (outer : Occurs p b site (.decl doc (.namespaceDecl "global" body))) :
      Occurs p b ⟨site.file, .global, none, true⟩ (.body body)
  | inside {b : Bindings} {site : Site} {part : Part} {k : Block} (outer : Occurs p b site part)
      (block : part.block? = some k) : Occurs p (k.opened b site) (k.inside b site) (.body k.body)
  | member {b : Bindings} {site : Site} {before after : List (DocComment × Decl)}
      {doc : DocComment} {decl : Decl}
      (outer : Occurs p b site (.body (.block (before ++ (doc, decl) :: after)))) :
      Occurs p (b.bindDecls site before) site (.decl doc decl)

/-! ### States of the walk -/

/-- Whether names can be declared in a table: a file was opened and is a module, a namespace was
declared. -/
def Table.Open (b : Bindings) : Table → Prop
  | .file id => id.index < b.files.size ∧ (b.scope id).isModule = true
  | .global => True
  | .members holder => (b.kind? holder).isSome

theorem Table.Open.grows {b b' : Bindings} {t : Table} (isOpen : t.Open b) (grown : b.Grows b') :
    t.Open b' := by
  cases t with
  | file file =>
      exact ⟨Nat.lt_of_lt_of_le isOpen.1 grown.files,
        (grown.modules file isOpen.1).trans isOpen.2⟩
  | global => trivial
  | members holder =>
      obtain ⟨kind, known⟩ := Option.isSome_iff_exists.mp isOpen
      exact Option.isSome_iff_exists.mpr ⟨kind, grown.kinds holder kind known⟩

/-- A state in which something is bound at a site, and what is bound there. The walk goes on from
it. -/
structure BoundAt (p : Program) (b : Bindings) (site : Site) (part : Part) : Prop where
  wellScoped : b.WellScoped
  valid : site.Valid b
  isOpen : site.table.Open b
  later : ∃ n, Binds n (b.bindPart site part) (ofProgram p)

theorem bindDecls_append (b : Bindings) (site : Site) (first rest : List (DocComment × Decl)) :
    b.bindDecls site (first ++ rest) = (b.bindDecls site first).bindDecls site rest := by
  induction first generalizing b with
  | nil => rfl
  | cons item first ih => exact ih (b.bindDocDecl site item)

theorem bindPart_block {part : Part} {k : Block} (block : part.block? = some k) (b : Bindings)
    (site : Site) :
    b.bindPart site part = (k.opened b site).bindBody (k.inside b site) k.body := by
  cases part with
  | decl doc decl =>
      cases decl with
      | namespaceDecl name body =>
          simp only [Part.block?] at block
          split at block
          · cases block
          · rename_i named
            cases block
            simp only [bindPart, bindDecl, if_neg named]
            rfl
      | _ => cases block
  | body body =>
      cases body with
      | block => cases block
      | nested name doc body =>
          cases block
          rfl

/-- The walk goes on behind a block where it went on behind its name. -/
theorem BoundAt.inside {p : Program} {b : Bindings} {site : Site} {part : Part} {k : Block}
    (boundAt : BoundAt p b site part) (block : part.block? = some k) :
    BoundAt p (k.opened b site) (k.inside b site) (.body k.body) where
  wellScoped :=
    wellScoped_declare boundAt.wellScoped boundAt.valid both k.name k.doc .namespaceDecl rfl
  valid := valid_members b site k.name k.doc site.global
  isOpen := Option.isSome_iff_exists.mpr
    ⟨_, kind?_declare b site both k.name .namespaceDecl k.doc .namespaceDecl⟩
  later := by
    obtain ⟨n, later⟩ := boundAt.later
    rw [bindPart_block block] at later
    exact ⟨n, later⟩

theorem BoundAt.member {p : Program} {b : Bindings} {site : Site}
    {before after : List (DocComment × Decl)} {doc : DocComment} {decl : Decl}
    (boundAt : BoundAt p b site (.body (.block (before ++ (doc, decl) :: after)))) :
    BoundAt p (b.bindDecls site before) site (.decl doc decl) := by
  obtain ⟨wellScoped, valid, isOpen, n, later⟩ := boundAt
  have first := binds_bindDecls valid before
  have here := valid.grows first.grows
  have now := (binds_bindDecl here doc decl).binds
  refine ⟨wellScoped_bindDecls wellScoped valid before, here, isOpen.grows first.grows,
    0 + n, .trans ?_ later⟩
  have rest := binds_bindDecls (here.grows now.grows) after
  have whole : b.bindPart site (.body (.block (before ++ (doc, decl) :: after))) =
      ((b.bindDecls site before).bindDecl site doc decl).2.bindDecls site after :=
    bindDecls_append b site before _
  rwa [whole]

theorem binds_exported {b : Bindings} {site : Site} (valid : site.Valid b) {item : Item}
    {decl : Decl} (declares : item.decl? = some decl) :
    Binds 0 (b.bindDecl site item.doc decl).2 (bindItem site b item) := by
  obtain ⟨_, _, _, doc, kind⟩ := item
  cases kind with
  | decl =>
      cases declares
      exact .refl _
  | exportDecl =>
      cases declares
      exact .exports (binds_bindDecl valid doc decl).known site.file
  | _ => cases declares

/-- Every part of a program is bound in a state of the walk that binds the program. -/
theorem Occurs.boundAt {p : Program} {b : Bindings} {site : Site} {part : Part}
    (occurs : Occurs p b site part) : BoundAt p b site part := by
  induction occurs with
  | @item file f before after item decl found items declares =>
      let opened : Bindings := { boundBefore p file with
        files := (boundBefore p file).files.push { isModule := f.source.isModule } }
      have start : opened.WellScoped :=
        wellScoped_openFile (wellScoped_files p _ wellScoped_empty) f.source.isModule
      have fold : ∀ (items : List Item) (b : Bindings),
          Binds 0 b (items.foldl (bindItem (topSite file f.source)) b) := fun items b =>
        binds_foldl items (fun _ item valid => binds_bindItem valid item)
          (valid_topSite file f.source b)
      have first : opened.Grows (before.foldl (bindItem (topSite file f.source)) opened) :=
        (fold before opened).grows
      have top : (topSite file f.source).table.Open opened := by
        unfold topSite
        cases isModule : f.source.isModule with
        | false => trivial
        | true =>
            have size : (boundBefore p file).files.size = file.index := size_boundBefore found
            refine ⟨?_, ?_⟩
            · rw [Array.size_push, size]
              exact Nat.lt_succ_self _
            · simp only [opened, scope, ← size, Array.getElem?_push_size, Option.getD_some,
                isModule]
      obtain ⟨n, later⟩ := binds_after found
      have whole : (boundBefore p file).bindFile file f.source =
          f.source.items.foldl (bindItem (topSite file f.source)) opened := rfl
      rw [whole, items, List.foldl_append, List.foldl_cons] at later
      exact ⟨wellScoped_foldItems start file f.source before, valid_topSite file f.source _,
        top.grows first, _, ((binds_exported (valid_topSite file f.source _) declares).trans
          (fold after _)).trans later⟩
  | @global b site doc body _ outer =>
      refine ⟨outer.wellScoped, ⟨rfl, rfl⟩, trivial, ?_⟩
      obtain ⟨n, later⟩ := outer.later
      rw [bindPart, bindDecl, if_pos rfl] at later
      exact ⟨n, later⟩
  | inside _ block outer => exact outer.inside block
  | member _ outer => exact outer.member

/-! ### Names that are declared -/

theorem table_modifyTable_self {b : Bindings} {t : Table} (isOpen : t.Open b)
    (f : SymbolTable → SymbolTable) : (b.modifyTable t f).table t = f (b.table t) := by
  cases t with
  | file file => exact congrArg FileScope.locals (scope_modify_self b isOpen.1 _)
  | global => rfl
  | members holder =>
      obtain ⟨kind, known⟩ := Option.isSome_iff_exists.mp isOpen
      obtain ⟨x, found, _⟩ := Option.map_eq_some_iff.mp known
      simp only [table, modifyTable, symbol?_modify, ↓reduceIte, found, Option.map_some,
        Option.getD_some]

/-- A name that is declared is taken in all of its spaces. A declaration that adds to a symbol finds
them taken already. -/
theorem has_declare {b : Bindings} (wellScoped : b.WellScoped) {site : Site}
    (isOpen : site.table.Open b) {spaces : List Space} {space : Space} (listed : space ∈ spaces)
    (name : String) (doc : DocComment) (node : DeclNode) (fits : node.Fits spaces) :
    (b.declare site spaces name node.kind doc node).2.Has site.table space name := by
  cases merging : b.merging? site spaces name node.kind with
  | some s =>
      refine Has.grows ?_ (grows_declare b site spaces name node.kind doc node)
      obtain ⟨⟨first, among, known⟩, merges, kind⟩ := merging?_eq_some merging
      have single : ∀ only : Space, spaces = [only] → space = first := by
        rintro only rfl
        exact (List.mem_singleton.mp listed).trans (List.mem_singleton.mp among).symm
      cases node with
      | interface => exact Option.isSome_iff_exists.mpr ⟨s, single _ fits ▸ known⟩
      | function => exact Option.isSome_iff_exists.mpr ⟨s, single _ fits ▸ known⟩
      | namespaceDecl => exact wellScoped.paired site.table first space name s known kind
      | _ => cases merges
  | none =>
      rw [declare_new doc node merging, Has, table_modifyTable_self]
      · exact SymbolTable.get?_insertAll_isSome _ listed _ _
      · exact isOpen.grows (grows_addSymbol b _)

theorem has_bindVariables {b : Bindings} (wellScoped : b.WellScoped) {site : Site}
    (valid : site.Valid b) (isOpen : site.table.Open b) (doc : DocComment) (isConst : Bool)
    {declarators : List Declarator} {space : Space} {name : String}
    (listed : (space, name) ∈ declarators.filterMap (·.declares?)) :
    (b.bindVariables site doc isConst declarators).2.Has site.table space name := by
  obtain ⟨d, inside, declares⟩ := List.mem_filterMap.mp listed
  obtain ⟨first, rest, rfl⟩ := List.append_of_mem inside
  have start : BindsScoped site ([], b) := ⟨wellScoped, List.forall_mem_nil _, List.forall_mem_nil _⟩
  have before := binds_foldVariables doc isConst first ([], b) valid (List.forall_mem_nil _)
  have sofarScoped := bindsScoped_foldVariables doc isConst first ([], b) valid start
  rw [bindVariables_eq, List.foldl_append, List.foldl_cons]
  generalize first.foldl (bindVariable site doc isConst) ([], b) = sofar at before sofarScoped ⊢
  have valid := valid.grows before.binds.grows
  have isOpen := isOpen.grows before.binds.grows
  have step := binds_foldVariables doc isConst [d] sofar valid before.known
  have after := binds_foldVariables doc isConst rest (bindVariable site doc isConst sofar d)
    (valid.grows step.binds.grows) step.known
  refine Has.grows ?_ after.binds.grows
  unfold Declarator.declares? at declares
  split at declares
  · rename_i _ _ _ named
    cases declares
    have bound : (bindVariable site doc isConst sofar d).2 =
        (sofar.2.declare site [.value] name .variable doc (.variable isConst d)).2 := by
      simp only [bindVariable, named]
      rfl
    rw [bound]
    exact has_declare sofarScoped.toWellScoped isOpen (List.mem_singleton_self _) name doc
      (.variable isConst d) trivial
  · cases declares

theorem has_bindDecl {b : Bindings} (wellScoped : b.WellScoped) {site : Site}
    (valid : site.Valid b) (isOpen : site.table.Open b) (doc : DocComment) {decl : Decl}
    {space : Space} {name : String} (listed : (space, name) ∈ decl.declares) :
    (b.bindDecl site doc decl).2.Has site.table space name := by
  have inBoth : ∀ {own : String}, (space, name) ∈ both.map (·, own) →
      space ∈ both ∧ name = own := by
    intro own listed
    obtain ⟨other, among, same⟩ := List.mem_map.mp listed
    cases same
    exact ⟨among, rfl⟩
  cases decl with
  | classDecl own class_ =>
      obtain ⟨among, rfl⟩ := inBoth listed
      exact has_declare wellScoped isOpen among name doc (.classDecl class_) trivial
  | function own function =>
      cases List.mem_singleton.mp listed
      exact has_declare wellScoped isOpen (List.mem_singleton_self _)
        name doc (.function function) rfl
  | variableList isConst declarators =>
      exact has_bindVariables wellScoped valid isOpen doc isConst listed
  | interface i =>
      cases List.mem_singleton.mp listed
      exact has_declare wellScoped isOpen (List.mem_singleton_self _)
        i.name doc (.interface i) rfl
  | typeAlias a =>
      cases List.mem_singleton.mp listed
      exact has_declare wellScoped isOpen (List.mem_singleton_self _)
        a.name doc (.typeAlias a) trivial
  | enum own =>
      obtain ⟨among, rfl⟩ := inBoth listed
      exact has_declare wellScoped isOpen among name doc .enum trivial
  | namespaceDecl own body =>
      simp only [Decl.declares] at listed
      split at listed
      · cases listed
      · rename_i named
        obtain ⟨among, rfl⟩ := inBoth listed
        rw [bindDecl, if_neg named]
        exact (has_declare wellScoped isOpen among name doc .namespaceDecl rfl).grows
          (binds_bindBody (valid_members b site name doc site.global) body).grows
  | other => cases listed

theorem has_bindDecls {b : Bindings} (wellScoped : b.WellScoped) {site : Site}
    (valid : site.Valid b) (isOpen : site.table.Open b) {declarations : List (DocComment × Decl)}
    {space : Space} {name : String} (listed : (space, name) ∈ declarations.flatMap (·.2.declares)) :
    (b.bindDecls site declarations).Has site.table space name := by
  obtain ⟨⟨doc, decl⟩, inside, declares⟩ := List.mem_flatMap.mp listed
  obtain ⟨first, rest, rfl⟩ := List.append_of_mem inside
  have before := binds_bindDecls valid first
  have here := valid.grows before.grows
  have now := binds_bindDecl here doc decl
  rw [bindDecls_append]
  exact (has_bindDecl (wellScoped_bindDecls wellScoped valid first) here
    (isOpen.grows before.grows) doc declares).grows
      (binds_bindDecls (here.grows now.binds.grows) rest).grows

/-- What a block declares is in the table of the site where the block is bound. -/
theorem has_bindBody {b : Bindings} (wellScoped : b.WellScoped) {site : Site}
    (valid : site.Valid b) (isOpen : site.table.Open b) {body : NamespaceBody} {space : Space}
    {name : String} (listed : (space, name) ∈ body.declares) :
    (b.bindBody site body).Has site.table space name := by
  cases body with
  | block declarations => exact has_bindDecls wellScoped valid isOpen listed
  | nested own doc body =>
      obtain ⟨other, among, same⟩ := List.mem_map.mp listed
      cases same
      exact (has_declare wellScoped isOpen among name doc .namespaceDecl rfl).grows
        (binds_bindBody (valid_members b site name doc site.global) body).grows

section

variable {p : Program} {b : Bindings} {site : Site} {part : Part} {k : Block}

theorem BoundAt.opens (boundAt : BoundAt p b site part) (block : part.block? = some k) :
    ∃ n, Binds n (k.opened b site) (ofProgram p) := by
  have inner := boundAt.inside block
  obtain ⟨n, later⟩ := inner.later
  exact ⟨_, (binds_bindBody inner.valid k.body).trans later⟩

/-- What a block declares is among the members of the symbol of the block. -/
theorem BoundAt.has_member (boundAt : BoundAt p b site part) (block : part.block? = some k)
    {space : Space} {name : String} (listed : (space, name) ∈ k.body.declares) :
    (ofProgram p).Has (.members (k.symbol b site)) space name := by
  have inner := boundAt.inside block
  obtain ⟨n, later⟩ := inner.later
  exact (has_bindBody inner.wellScoped inner.valid inner.isOpen listed).grows later.grows

/-- The name of a block stands for something as a value. -/
theorem BoundAt.has_name (boundAt : BoundAt p b site part) (block : part.block? = some k) :
    (ofProgram p).Has site.table .value k.name := by
  obtain ⟨n, later⟩ := boundAt.opens block
  have declared := has_declare boundAt.wellScoped boundAt.isOpen (mem_both .value) k.name k.doc
    .namespaceDecl rfl
  exact declared.grows later.grows

theorem BoundAt.kind?_symbol (boundAt : BoundAt p b site part) (block : part.block? = some k) :
    (ofProgram p).kind? (k.symbol b site) = some .namespaceDecl := by
  obtain ⟨n, later⟩ := boundAt.opens block
  exact later.grows.kinds _ _
    (kind?_declare b site both k.name .namespaceDecl k.doc .namespaceDecl)

/-- As a value the name of a block stands for the symbol of the block exactly if it stood for
nothing else when the block was declared. -/
theorem BoundAt.holder_iff (boundAt : BoundAt p b site part) (block : part.block? = some k)
    {holder : SymbolId}
    (known : ((ofProgram p).table site.table).get? .value k.name = some holder) :
    holder = k.symbol b site ↔
      ∀ other, (b.table site.table).get? .value k.name = some other → other = k.symbol b site := by
  obtain ⟨n, later⟩ := boundAt.opens block
  have grown : b.Grows (k.opened b site) := grows_declare b site both k.name .namespaceDecl k.doc _
  constructor
  · intro same other before
    have after := (grown.trans later.grows).names _ _ _ _ before
    exact (Option.some.inj (after.symm.trans known)).trans same
  · intro own
    cases before : (b.table site.table).get? .value k.name with
    | some other =>
        have after := (grown.trans later.grows).names _ _ _ _ before
        exact (Option.some.inj (known.symm.trans after)).trans (own other before)
    | none =>
        -- No namespace has the name, for it would have it as a value, too.
        have new : b.merging? site both k.name .namespaceDecl = none := by
          refine Option.eq_none_iff_forall_ne_some.mpr fun s found => ?_
          obtain ⟨⟨space, _, named⟩, _, kind⟩ := merging?_eq_some found
          have taken := boundAt.wellScoped.paired site.table space .value k.name s named kind
          rw [Has, before] at taken
          cases taken
        obtain ⟨first, there⟩ := Option.isSome_iff_exists.mp (has_declare boundAt.wellScoped
          boundAt.isOpen (mem_both .value) k.name k.doc .namespaceDecl rfl)
        have after := later.grows.names site.table .value k.name first there
        obtain rfl : holder = first := Option.some.inj (known.symm.trans after)
        have declared := declare_new k.doc .namespaceDecl new
        rw [declared] at there
        rcases table_insertAll_cases there with old | ⟨_, same⟩
        · rw [table_addSymbol b _ rfl, before] at old
          cases old
        · rw [same, Block.symbol]
          exact (congrArg Prod.fst declared).symm

end

end Bindings

end ApiDocs
