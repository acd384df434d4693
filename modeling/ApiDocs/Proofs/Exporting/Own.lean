import ApiDocs.Proofs.Exports
import ApiDocs.Proofs.Exporting.Entries

set_option autoImplicit false

/-!
What a file exports of its own. The first item that exports a name decides what the name is exported
for. If this is a declaration, or a specifier for a declaration of the file, the name is exported for
what it stands for in the file, unless the file gave the name to something else before.
-/

namespace ApiDocs

open Syntax Bindings

/-- A file exports a name for what it stands for in it. Either a declaration of it is exported, no item
before exports it for something else, and what declares it before is of the same kind and merges. Or a
specifier exports it as it is, nothing before exports it, and it is not imported. -/
inductive Syntax.SourceText.ExportsOwn (source : SourceText) (space : Space) (name : String) :
    Prop where
  | declaration {before after : List Item} {item : Item} {decl : Decl} {d : Declared}
      (items : source.items = before ++ item :: after) (kind : item.kind = .exportDecl decl)
      (listed : d ∈ decl.declared) (here : d.At space name) (apart : d.kind ≠ .namespaceDecl)
      (unnamed : ∀ i ∈ before, ¬ i.kind.Renames space name)
      (merged : ∀ i ∈ before, ∀ e ∈ i.kind.declared, e.At space name →
        e.kind = d.kind ∧ d.kind.merges ∧ e.spaces = [space]) : ExportsOwn source space name
  | specifier {before after : List Item} {item : Item} {earlier later : List ExportSpecifier}
      {exported : Option String} (items : source.items = before ++ item :: after)
      (kind : item.kind = .exportNamed (earlier ++ .named name exported :: later) none)
      (same : exported.getD name = name)
      (unexported : ∀ i ∈ before, ¬ i.kind.Exports space name)
      (first : ∀ s ∈ earlier, ∀ node, exportNode? none s ≠ some (name, node))
      (declared : ∀ i ∈ source.items, ∀ e ∈ i.kind.declared, e.At space name → e.kind ≠ .redirect) :
      ExportsOwn source space name

/-! ### What stays -/

/-- What a file offers to others is still offered. -/
structure FileScope.Offers (s s' : FileScope) : Prop where
  exports : ∀ space name id, s.exports.get? space name = some id →
    s'.exports.get? space name = some id
  stars : ∀ specifier ∈ s.stars, specifier ∈ s'.stars

namespace FileScope.Offers

theorem refl (s : FileScope) : s.Offers s := ⟨fun _ _ _ known => known, fun _ inside => inside⟩

theorem trans {s s' s'' : FileScope} (first : s.Offers s') (second : s'.Offers s'') :
    s.Offers s'' where
  exports space name id known := second.exports space name id (first.exports space name id known)
  stars specifier inside := second.stars specifier (first.stars specifier inside)

end FileScope.Offers

namespace Bindings

theorem offers_modifyFile (b : Bindings) (changed : FileId) (f : FileScope → FileScope)
    (keeps : ∀ scope : FileScope, scope.Offers (f scope)) (file : FileId) :
    (b.scope file).Offers (scope { b with files := b.files.modify changed.index f } file) := by
  rw [scope_modify]
  split
  · unfold scope
    cases b.files[file.index]? with
    | none => exact .refl _
    | some scope => exact keeps scope
  · exact .refl _

theorem offers_declare (b : Bindings) (site : Site) (spaces : List Space) (name : String)
    (kind : SymbolKind) (doc : DocComment) (node : DeclNode) (file : FileId) :
    (b.scope file).Offers ((b.declare site spaces name kind doc node).2.scope file) := by
  unfold declare
  dsimp only
  split
  · exact .refl _
  · cases site.table with
    | file changed =>
        refine offers_modifyFile (b.addSymbol _).2 changed _ (fun _ => ?_) file
        exact ⟨fun _ _ _ known => known, fun _ inside => inside⟩
    | global | members => exact .refl _

theorem Binds.offers {n : Nat} {b b' : Bindings} (binds : Binds n b b') (file : FileId) :
    (b.scope file).Offers (b'.scope file) := by
  induction binds with
  | refl => exact .refl _
  | trans _ _ first second => exact first.trans second
  | declare _ spaces name doc node => exact offers_declare _ _ spaces name _ doc node file
  | redirect => exact .refl _
  | exports _ changed =>
      refine offers_modifyFile _ changed _ (fun _ => ?_) file
      refine ⟨fun space name s known => ?_, fun _ inside => inside⟩
      exact (get?_foldl_insert _ _ space name).trans (known ▸ Option.some_or)
  | star b changed source =>
      refine offers_modifyFile b changed _ (fun _ => ?_) file
      exact ⟨fun _ _ _ known => known, fun _ inside => List.mem_append_left _ inside⟩
  | openFile b isModule =>
      simp only [scope, Array.getElem?_push]
      split
      · rename_i last
        rw [last, Array.getElem?_eq_none (Nat.le_refl _)]
        refine ⟨fun space _ _ known => ?_, fun _ inside => ?_⟩
        · cases space <;> cases known
        · cases inside
      · exact .refl _

/-- No declaration adds to a symbol that is another name of something. -/
theorem Binds.symbol?_redirect {n : Nat} {b b' : Bindings} (binds : Binds n b b') {s : SymbolId}
    {x : Symbol}
    (found : b.symbol? s = some x) (redirect : x.kind = .redirect) : b'.symbol? s = some x := by
  induction binds with
  | refl | exports | star | openFile => exact found
  | trans _ _ first second => exact second (first found)
  | redirect => exact symbol?_addSymbol_old _ found
  | @declare b site valid spaces name doc node =>
      have apart {other : SymbolId} {kind : SymbolKind} (isKind : b.kind? other = some kind)
          (differs : kind ≠ .redirect) : other.index ≠ s.index := by
        intro same
        obtain rfl : other = s := congrArg SymbolId.mk same
        rw [kind?_of_symbol? found] at isKind
        exact differs ((Option.some.inj isKind).symm.trans redirect)
      cases merging : b.merging? site spaces name node.kind with
      | some other =>
          obtain ⟨_, merges, isKind⟩ := merging?_eq_some merging
          have differs : node.kind ≠ .redirect := by
            intro same
            rw [same] at merges
            cases merges
          rw [declare_merging merging, symbol?_modify, if_neg (apart isKind differs)]
          exact found
      | none =>
          rw [declare_new doc node merging]
          have added := symbol?_addSymbol_old (declaredSymbol site name doc node) found
          cases table : site.table with
          | file | global => exact added
          | members holder =>
              unfold Site.Valid at valid
              rw [table] at valid
              exact (symbol?_modify _ holder _ s).trans
                ((if_neg (apart valid.2 nofun)).trans added)

/-! ### Files -/

section

variable {b b' : Bindings} {site : Site} {space : Space} {name : String}

/-- What every item of a list keeps, binding all of them keeps. -/
theorem holds_foldItems (space : Space) (name : String) (holds : Bindings → Prop) {items : List Item}
    (step : ∀ item ∈ items, ∀ b b', Enters site.file space name item.kind b b' → Binds 0 b b' →
      holds b → holds b') (here : b.InModule site site.file) (valid : site.Valid b)
      (start : holds b) :
    holds (items.foldl (bindItem site) b) := by
  induction items generalizing b with
  | nil => exact start
  | cons item rest ih =>
      have binds := binds_bindItem valid item
      refine ih (fun i listed => step i (List.mem_cons_of_mem item listed)) (here.grows binds.grows)
        (valid.grows binds.grows) ?_
      exact step item List.mem_cons_self b _ (enters_bindItem here valid item) binds start

/-- A name that is exported by no item is not exported. -/
theorem unexported_foldItems {items : List Item}
    (unexported : ∀ i ∈ items, ¬ i.kind.Exports space name)
    (here : b.InModule site site.file) (valid : site.Valid b)
    (absent : (b.scope site.file).exports.get? space name = none) :
    ((items.foldl (bindItem site) b).scope site.file).exports.get? space name = none := by
  refine holds_foldItems space name (fun b => (b.scope site.file).exports.get? space name = none)
    (fun item listed b b' enters _ absent => ?_) here valid absent
  refine Option.eq_none_iff_forall_ne_some.mpr fun s known => ?_
  rcases enters.exported s known with before | exports
  · cases absent.symm.trans before
  · exact unexported item listed exports

/-- The name stands for nothing, or for a symbol that is no other name of something. -/
def Plain (b : Bindings) (file : FileId) (space : Space) (name : String) : Prop :=
  ∀ s, (b.scope file).locals.get? space name = some s →
    ∃ kind, b.kind? s = some kind ∧ kind ≠ .redirect

/-- A name that is not imported stands for a declaration. -/
theorem plain_foldItems {items : List Item}
    (declared : ∀ i ∈ items, ∀ d ∈ i.kind.declared, d.At space name → d.kind ≠ .redirect)
    (here : b.InModule site site.file) (valid : site.Valid b) (start : b.Plain site.file space name) :
    (items.foldl (bindItem site) b).Plain site.file space name := by
  refine holds_foldItems space name (·.Plain site.file space name)
    (fun item listed b b' enters _ plain s known => ?_) here valid start
  rcases enters.origin s known with before | ⟨d, inside, at_, own⟩
  · obtain ⟨kind, isKind, differs⟩ := plain s before
    exact ⟨kind, enters.grown.kinds s kind isKind, differs⟩
  · exact ⟨d.kind, own, declared item listed d inside at_⟩

/-- The name has symbols of that kind only, and is exported for what it stands for, if it is exported. -/
structure Agreeing (b : Bindings) (file : FileId) (space : Space) (name : String)
    (kind : SymbolKind) :
    Prop where
  merging : b.Merging file space name kind
  exports : ∀ s, (b.scope file).exports.get? space name = some s →
    (b.scope file).locals.get? space name = some s

theorem Agreeing.enters {file : FileId} {kind : SymbolKind} {item : ItemKind}
    (agreeing : b.Agreeing file space name kind) (enters : Enters file space name item b b')
    (binds : Binds 0 b b') (fits : ∀ d ∈ item.declared, d.At space name → d.Fits space kind)
    (named : ¬ item.Renames space name) :
    ∀ s, (b'.scope file).exports.get? space name = some s →
      (b'.scope file).locals.get? space name = some s := by
  intro s known
  cases old : (b.scope file).exports.get? space name with
  | none => exact enters.agrees kind agreeing.merging fits named old s known
  | some t =>
      obtain rfl : t = s :=
        Option.some.inj (((binds.offers file).exports space name t old).symm.trans known)
      exact enters.grown.names (.file file) space name t (agreeing.exports t old)

theorem agreeing_foldItems {kind : SymbolKind} {items : List Item}
    (unnamed : ∀ i ∈ items, ¬ i.kind.Renames space name)
    (merged : ∀ i ∈ items, ∀ d ∈ i.kind.declared, d.At space name →
      d.kind = kind ∧ kind.merges ∧ d.spaces = [space])
    (here : b.InModule site site.file) (valid : site.Valid b)
    (start : b.Agreeing site.file space name kind) :
    (items.foldl (bindItem site) b).Agreeing site.file space name kind := by
  refine holds_foldItems space name (·.Agreeing site.file space name kind)
    (fun item listed b b' enters binds agreeing => ?_) here valid start
  refine ⟨fun s known => ?_, agreeing.enters enters binds (fun d inside at_ => ?_)
    (unnamed item listed)⟩
  · rcases enters.origin s known with before | ⟨d, inside, at_, own⟩
    · obtain ⟨same, merges⟩ := agreeing.merging s before
      exact ⟨enters.grown.kinds s kind same, merges⟩
    · obtain ⟨rfl, merges, _⟩ := merged item listed d inside at_
      exact ⟨own, merges⟩
  · obtain ⟨same, _, single⟩ := merged item listed d inside at_
    exact ⟨same, fun _ => single⟩

end

/-! ### Programs -/

section

variable {p : Program} {file : FileId} {f : SourceFile} {space : Space} {name : String}

theorem inModule_boundUpTo (found : p.file? file = some f) (isModule : f.source.isModule = true)
    (before : List Item) : (boundUpTo p file f before).InModule (topSite file f.source) file :=
  ⟨by simp [topSite, isModule], size_boundUpTo found before⟩

/-- A file that was just opened has no names. -/
theorem scope_boundUpTo_nil (found : p.file? file = some f) :
    (boundUpTo p file f []).scope file = { isModule := f.source.isModule } := by
  have size := size_boundBefore found
  simp only [boundUpTo, List.foldl_nil, scope, ← size, Array.getElem?_push_size, Option.getD_some]

theorem get?_scope_boundUpTo_nil (found : p.file? file = some f) (space : Space) (name : String) :
    ((boundUpTo p file f []).scope file).locals.get? space name = none ∧
      ((boundUpTo p file f []).scope file).exports.get? space name = none := by
  rw [scope_boundUpTo_nil found]
  cases space <;> exact ⟨rfl, rfl⟩

theorem unexported_boundUpTo (found : p.file? file = some f) (isModule : f.source.isModule = true)
    {before : List Item} (unexported : ∀ i ∈ before, ¬ i.kind.Exports space name) :
    ((boundUpTo p file f before).scope file).exports.get? space name = none := by
  let site := topSite file f.source
  have here : (boundUpTo p file f []).InModule site site.file := inModule_boundUpTo found isModule []
  exact unexported_foldItems unexported here (valid_topSite file f.source _)
    (get?_scope_boundUpTo_nil found space name).2

/-- The first specifier that exports a name decides what it is exported for. -/
theorem exported_specifier (found : p.file? file = some f) {before after : List Item} {item : Item}
    {earlier later : List ExportSpecifier} {s : ExportSpecifier} {source : Option String}
    {node : DeclNode} (items : f.source.items = before ++ item :: after)
    (kind : item.kind = .exportNamed (earlier ++ s :: later) source)
    (gives : exportNode? source s = some (name, node))
    (unexported : ∀ i ∈ before, ¬ i.kind.Exports space name)
    (first : ∀ x ∈ earlier, ∀ node, exportNode? source x ≠ some (name, node)) :
    ∃ r, ((ofProgram p).scope file).exports.get? space name = some r ∧
      (ofProgram p).Alias r file node := by
  have isModule : f.source.isModule = true :=
    List.any_eq_true.mpr ⟨item, items ▸ List.mem_append_right _ List.mem_cons_self, by rw [kind]; rfl⟩
  let site := topSite file f.source
  have here := inModule_boundUpTo found isModule before
  have absent := unexported_boundUpTo found isModule unexported
  obtain ⟨n, binds⟩ := binds_boundUpTo found items
  simp only [bindItem, kind, List.foldl_append, List.foldl_cons] at binds
  generalize boundUpTo p file f before = b at here absent binds
  have valid : site.Valid b := valid_topSite file f.source b
  have passed := binds_foldl earlier (fun _ x valid => binds_bindExport valid item.doc source x) valid
  obtain ⟨_, exports⟩ := scope_foldExports here.inside valid item.doc source earlier space name
  generalize earlier.foldl (fun b x => b.bindExport site item.doc source x) b = b₁
    at passed exports binds
  have absent₁ : (b₁.scope file).exports.get? space name = none := by
    refine Option.eq_none_iff_forall_ne_some.mpr fun r known => ?_
    rcases exports r known with old | ⟨x, listed, node, named⟩
    · cases absent.symm.trans old
    · exact first x listed node named
  have inside : site.file.index < b₁.files.size := Nat.lt_of_lt_of_le here.inside passed.grows.files
  obtain ⟨_, entry⟩ := scope_bindExport inside item.doc gives space name
  rw [show (b₁.scope site.file).exports.get? space name = none from absent₁, Option.none_or,
    if_pos rfl] at entry
  have symbol : (b₁.bindExport site item.doc source s).symbol? ⟨b₁.symbols.size⟩ =
      some (redirectSymbol site name item.doc node) := by
    simp only [bindExport, gives]
    exact (symbol?_addSymbol b₁ _ _).trans (if_pos rfl)
  have rest := (binds_foldl later (fun _ x valid => binds_bindExport valid item.doc source x)
    (valid_topSite file f.source (b₁.bindExport site item.doc source s))).trans binds
  exact ⟨_, (rest.offers file).exports space name _ entry, _, _, [],
    rest.symbol?_redirect symbol rfl, rfl, rfl, rfl, rfl⟩

theorem exports_bindItem {b : Bindings} {site : Site} (here : b.InModule site site.file) {item : Item}
    {decl : Decl} {d : Declared} (kind : item.kind = .exportDecl decl) (listed : d ∈ decl.declared)
    (at_ : d.At space name) :
    ∃ s, ((bindItem site b item).scope site.file).exports.get? space name = some s := by
  have declares : Declares site.file space name decl.declared b (b.bindDecl site item.doc decl) :=
    declares_bindDecl here item.doc decl
  have entry := get?_exportAll (Nat.lt_of_lt_of_le here.inside declares.grown.files)
    (b.bindDecl site item.doc decl).1 space name
  have bound : bindItem site b item =
      (b.bindDecl site item.doc decl).2.exportAll site.file (b.bindDecl site item.doc decl).1 := by
    simp only [bindItem, kind]
  refine Option.isSome_iff_exists.mp ?_
  rw [bound, entry, Option.isSome_or, declares.named.mpr ⟨d, listed, at_⟩, Bool.or_true]

/-- An exported declaration is exported as what it stands for, if nothing else took its name before. -/
theorem exports_declaration (found : p.file? file = some f) {before after : List Item} {item : Item}
    {decl : Decl} {d : Declared} (items : f.source.items = before ++ item :: after)
    (kind : item.kind = .exportDecl decl) (listed : d ∈ decl.declared) (at_ : d.At space name)
    (apart : d.kind ≠ .namespaceDecl) (unnamed : ∀ i ∈ before, ¬ i.kind.Renames space name)
    (merged : ∀ i ∈ before, ∀ e ∈ i.kind.declared, e.At space name →
      e.kind = d.kind ∧ d.kind.merges ∧ e.spaces = [space]) :
    ∃ s, ((ofProgram p).scope file).exports.get? space name = some s ∧
      ((ofProgram p).scope file).locals.get? space name = some s ∧
      (ofProgram p).kind? s = some d.kind := by
  have isModule : f.source.isModule = true :=
    List.any_eq_true.mpr ⟨item, items ▸ List.mem_append_right _ List.mem_cons_self, by rw [kind]; rfl⟩
  let site := topSite file f.source
  have here : (boundUpTo p file f before).InModule site site.file :=
    inModule_boundUpTo found isModule before
  have start : (boundUpTo p file f []).InModule site site.file := inModule_boundUpTo found isModule []
  have agreeing : (boundUpTo p file f before).Agreeing file space name d.kind := by
    have empty := get?_scope_boundUpTo_nil found space name
    refine agreeing_foldItems unnamed merged start (valid_topSite file f.source _)
      ⟨fun s known => ?_, fun s known => ?_⟩
    · cases empty.1.symm.trans known
    · cases empty.2.symm.trans known
  obtain ⟨n, binds⟩ := binds_boundUpTo found items
  generalize boundUpTo p file f before = b at here agreeing binds
  have valid := valid_topSite file f.source b
  have enters : Enters file space name item.kind b _ := enters_bindItem here valid item
  have fits : ∀ e ∈ item.kind.declared, e.At space name → e.Fits space d.kind := by
    intro e inside named
    rw [kind] at inside
    have same := (Decl.kind_declared listed inside).1
    exact ⟨same, fun merges => Decl.spaces_declared inside (same ▸ apart) named.1 (same ▸ merges)⟩
  have exported := agreeing.enters enters (binds_bindItem valid item) fits (by rw [kind]; exact id)
  obtain ⟨s, entry⟩ := exports_bindItem here kind listed at_
  have own := exported s entry
  refine ⟨s, (binds.offers file).exports space name s entry,
    binds.grows.names (.file file) space name s own,
    binds.grows.kinds s _ ?_⟩
  rcases enters.origin s own with old | ⟨e, inside, named, isKind⟩
  · exact enters.grown.kinds s _ (agreeing.merging s old).1
  · exact (fits e inside named).1 ▸ isKind

/-- An exported item stands for a declaration if its name is not imported. -/
theorem plain_exported (found : p.file? file = some f) {x : Exported} (listed : x ∈ f.source.exported)
    (declared : ∀ i ∈ f.source.items, ∀ d ∈ i.kind.declared, d.At x.role.space x.name →
      d.kind ≠ .redirect)
    {s : SymbolId} (entry : ((ofProgram p).scope file).locals.get? x.role.space x.name = some s) :
    ∃ kind, (ofProgram p).kind? s = some kind ∧ kind ≠ .redirect := by
  have isModule := f.source.isModule_of_mem_exported listed
  let site := topSite file f.source
  have start : (boundUpTo p file f []).InModule site site.file := inModule_boundUpTo found isModule []
  obtain ⟨item, inside, exported⟩ := List.mem_flatMap.mp listed
  obtain ⟨before, after, items⟩ := List.append_of_mem inside
  obtain ⟨n, binds⟩ := binds_boundUpTo found items
  have taken := taken_bindItem (inModule_boundUpTo found isModule before)
    (valid_topSite file f.source _) exported
  obtain ⟨t, named⟩ := Option.isSome_iff_exists.mp taken
  have plain : (boundUpTo p file f (before ++ [item])).Plain file x.role.space x.name := by
    have empty := get?_scope_boundUpTo_nil found x.role.space x.name
    refine plain_foldItems (fun i among => declared i ?_) start (valid_topSite file f.source _)
      fun s known => ?_
    · rw [items, List.append_cons]
      exact List.mem_append_left after among
    · cases empty.1.symm.trans known
  have last : boundUpTo p file f (before ++ [item]) =
      bindItem (topSite file f.source) (boundUpTo p file f before) item := List.foldl_append
  rw [last] at plain
  obtain ⟨kind, isKind, differs⟩ := plain t named
  cases (binds.grows.names (.file file) _ _ t named).symm.trans entry
  exact ⟨kind, binds.grows.kinds _ kind isKind, differs⟩

/-- What a file exports of its own is found at once: it is what the exported item of that name stands
for. -/
theorem followExport_own (found : p.file? file = some f) {x : Exported}
    (listed : x ∈ f.source.exported) (own : f.source.ExportsOwn x.role.space x.name) {s : SymbolId}
    (symbol : x.symbol? p file = some s) (n : Nat) :
    (ofProgram p).followExport p (n + 3) x.role.space file x.name = some (.symbol s) := by
  obtain ⟨t, entry, same⟩ := exported_local? found listed
  obtain rfl : t = s := Option.some.inj (same.symm.trans symbol)
  have plain {kind : SymbolKind} (isKind : (ofProgram p).kind? t = some kind)
    (differs : kind ≠ .redirect)
      (n : Nat) : (ofProgram p).followSymbol p (n + 1) x.role.space t = some (.symbol t) := by
    obtain ⟨y, there, rfl⟩ := Option.map_eq_some_iff.mp isKind
    exact followSymbol_plain there differs n
  cases own with
  | declaration items kind inside at_ apart unnamed merged =>
      obtain ⟨s, exported, local_, isKind⟩ :=
        exports_declaration found items kind inside at_ apart unnamed merged
      obtain rfl : s = t := Option.some.inj (local_.symm.trans entry)
      unfold followExport
      simp only [exported]
      exact plain isKind (Decl.kind_declared inside inside).2 (n + 1)
  | @specifier before after item earlier later name items kind renamed unexported first declared =>
      have gives : exportNode? none (.named x.name name) = some (x.name, .localAlias x.name) :=
        congrArg (fun name => some (name, DeclNode.localAlias x.name)) renamed
      obtain ⟨r, exported, isAlias⟩ := exported_specifier found items kind gives unexported first
      obtain ⟨kind, isKind, differs⟩ := plain_exported found listed declared entry
      have followed : (ofProgram p).followSymbol p (n + 2) x.role.space r =
          (ofProgram p).followAlias p (n + 1) x.role.space file (.localAlias x.name) :=
        followSymbol_alias isAlias rfl (n + 1)
      simp only [followAlias, entry, Option.bind_some] at followed
      unfold followExport
      simp only [exported]
      exact followed.trans (plain isKind differs n)

end

end Bindings

end ApiDocs
