import ApiDocs.Proofs.Tables

set_option autoImplicit false

/-!
What imports and exports stand for, said without following them: one step leads from an alias to
the name or the export that it is another name of, and from an export to the entry of the file or
through its first wildcard export that has one. Following finds exactly what a bounded number of
steps leads to, finds it again whenever it is asked again, and changes nothing that is there.
-/

namespace ApiDocs

open Syntax

/-- What lies behind symbols and behind the exports of files. -/
structure Reach where
  symbol : SymbolId → Referent → Prop
  exported : FileId → String → Referent → Prop

namespace Bindings

section

variable (b : Bindings) (p : Program) (space : Space)

/-- A symbol that stands for something else, with the file and the node that say for what. -/
def Alias (s : SymbolId) (file : FileId) (node : DeclNode) : Prop :=
  ∃ x decl rest, b.symbol? s = some x ∧ x.kind = .redirect ∧ x.decls = decl :: rest ∧
    decl.file = file ∧ decl.node = node

/-- The export that an import takes from a file; a whole module is none. -/
def exportName? : ImportName → Option String
  | .named name => some name
  | .default => some defaultName
  | .wholeModule => none

/-- One step from a symbol. -/
inductive FromSymbol (further : Reach) (s : SymbolId) : Referent → Prop where
  | itself {x : Symbol} (found : b.symbol? s = some x) (plain : x.kind ≠ .redirect) :
      FromSymbol further s (.symbol s)
  | localAlias {file : FileId} {name : String} {target : SymbolId} {r : Referent}
      (isAlias : b.Alias s file (.localAlias name))
      (entry : (b.scope file).locals.get? space name = some target)
      (next : further.symbol target r) : FromSymbol further s r
  | imported {file target : FileId} {specifier exported : String} {name : ImportName} {r : Referent}
      (isAlias : b.Alias s file (.imported specifier name))
      (leads : p.resolveModule? file specifier = some (.file target))
      (taken : exportName? name = some exported)
      (next : further.exported target exported r) : FromSymbol further s r
  | wholeModule {file target : FileId} {specifier : String}
      (isAlias : b.Alias s file (.imported specifier .wholeModule))
      (leads : p.resolveModule? file specifier = some (.file target)) :
      FromSymbol further s (.exportsOf target)
  | external {file : FileId} {specifier : String} {name : ImportName}
      (isAlias : b.Alias s file (.imported specifier name))
      (leads : p.resolveModule? file specifier = some .external) :
      FromSymbol further s (.external specifier (externalName name))

/-- One step from an export of a file. An entry of the file hides wildcard exports, also when it
leads nowhere. -/
inductive FromExport (further : Reach) (file : FileId) (name : String) : Referent → Prop where
  | own {s : SymbolId} {r : Referent} (entry : (b.scope file).exports.get? space name = some s)
      (next : further.symbol s r) : FromExport further file name r
  | star {before after : List String} {specifier : String} {target : FileId} {r : Referent}
      (absent : (b.scope file).exports.get? space name = none) (named : name ≠ defaultName)
      (stars : (b.scope file).stars = before ++ specifier :: after)
      (leads : p.resolveModule? file specifier = some (.file target))
      (next : further.exported target name r)
      (first : ∀ earlier ∈ before, ∀ other,
        p.resolveModule? file earlier = some (.file other) → ∀ r, ¬ further.exported other name r) :
      FromExport further file name r

/-- What lies at most so many steps behind symbols and exports. -/
def reach : Nat → Reach
  | 0 => ⟨fun _ _ => False, fun _ _ _ => False⟩
  | n + 1 => ⟨FromSymbol b p space (reach n), FromExport b p space (reach n)⟩

end

/-! ### Following is reaching -/

section

variable {b : Bindings} {p : Program} {space : Space}

/-- What follows a symbol that is an alias. -/
def followAlias (b : Bindings) (p : Program) (n : Nat) (space : Space) (file : FileId) :
    DeclNode → Option Referent
  | .localAlias name => ((b.scope file).locals.get? space name).bind (b.followSymbol p n space)
  | .imported specifier name =>
      match p.resolveModule? file specifier with
      | none => none
      | some (.file target) =>
          match exportName? name with
          | some exported => b.followExport p n space target exported
          | none => some (.exportsOf target)
      | some .external => some (.external specifier (externalName name))
  | _ => none

theorem followSymbol_alias {s : SymbolId} {file : FileId} {node : DeclNode}
    (isAlias : b.Alias s file node) (kind : node.kind = .redirect) (n : Nat) :
    b.followSymbol p (n + 1) space s = b.followAlias p n space file node := by
  obtain ⟨x, decl, rest, found, redirect, decls, rfl, rfl⟩ := isAlias
  unfold followSymbol followAlias
  simp only [found, redirect, decls, List.head?_cons, if_true]
  cases node : decl.node with
  | localAlias name =>
      dsimp only
      cases (b.scope decl.file).locals.get? space name <;> rfl
  | imported specifier name =>
      dsimp only
      cases p.resolveModule? decl.file specifier with
      | none => rfl
      | some target => cases target <;> cases name <;> rfl
  | _ =>
      rw [node] at kind
      cases kind

theorem followSymbol_plain {s : SymbolId} {x : Symbol} (found : b.symbol? s = some x)
    (plain : x.kind ≠ .redirect) (n : Nat) :
    b.followSymbol p (n + 1) space s = some (.symbol s) := by
  unfold followSymbol
  simp only [found, if_neg plain]

/-- A symbol is missing, stands for itself, or is an alias. -/
theorem Placed.symbol_cases (placed : b.Placed) (s : SymbolId) :
    b.symbol? s = none ∨ (∃ x, b.symbol? s = some x ∧ x.kind ≠ .redirect) ∨
      ∃ file node, b.Alias s file node ∧ node.kind = .redirect := by
  cases found : b.symbol? s with
  | none => exact Or.inl rfl
  | some x =>
      right
      by_cases redirect : x.kind = .redirect
      · right
        obtain ⟨written, kinds⟩ := placed.declared s x found
        obtain ⟨decl, rest, decls⟩ := List.exists_cons_of_ne_nil written
        refine ⟨decl.file, decl.node, ⟨x, decl, rest, found, redirect, decls, rfl, rfl⟩, ?_⟩
        rw [kinds decl (decls ▸ List.mem_cons_self), redirect]
      · exact Or.inl ⟨x, rfl, redirect⟩

theorem Alias.unique {s : SymbolId} {file file' : FileId} {node node' : DeclNode}
    (isAlias : b.Alias s file node) (isAlias' : b.Alias s file' node') : file' = file ∧ node' = node := by
  obtain ⟨x, decl, rest, found, _, decls, rfl, rfl⟩ := isAlias
  obtain ⟨x', decl', rest', found', _, decls', rfl, rfl⟩ := isAlias'
  cases found.symm.trans found'
  cases decls.symm.trans decls'
  exact ⟨rfl, rfl⟩

/-- Following an alias finds what one step and those behind it lead to. -/
theorem followAlias_eq_some_iff {n : Nat} {s : SymbolId} {file : FileId} {node : DeclNode}
    (isAlias : b.Alias s file node)
    (symbols : ∀ s r, b.followSymbol p n space s = some r ↔ (b.reach p space n).symbol s r)
    (exported : ∀ file name r,
      b.followExport p n space file name = some r ↔ (b.reach p space n).exported file name r)
    (r : Referent) :
    b.followAlias p n space file node = some r ↔ FromSymbol b p space (b.reach p space n) s r := by
  constructor
  · intro found
    unfold followAlias at found
    split at found
    · obtain ⟨target, entry, next⟩ := Option.bind_eq_some_iff.mp found
      exact .localAlias isAlias entry ((symbols target r).mp next)
    · rename_i specifier name
      split at found
      · cases found
      · rename_i target leads
        split at found
        · rename_i exported' taken
          exact .imported isAlias leads taken ((exported target exported' r).mp found)
        · rename_i whole
          cases found
          cases name with
          | wholeModule => exact .wholeModule isAlias leads
          | named | default => cases whole
      · rename_i leads
        cases found
        exact .external isAlias leads
    · cases found
  · intro step
    cases step with
    | itself found plain =>
        obtain ⟨x, _, _, found', redirect, _⟩ := isAlias
        cases found.symm.trans found'
        exact absurd redirect plain
    | localAlias isAlias' entry next =>
        obtain ⟨rfl, rfl⟩ := isAlias.unique isAlias'
        simp only [followAlias, entry, Option.bind_some]
        exact (symbols _ r).mpr next
    | imported isAlias' leads taken next =>
        obtain ⟨rfl, rfl⟩ := isAlias.unique isAlias'
        simp only [followAlias, leads, taken]
        exact (exported _ _ r).mpr next
    | wholeModule isAlias' leads =>
        obtain ⟨rfl, rfl⟩ := isAlias.unique isAlias'
        simp only [followAlias, leads, exportName?]
    | external isAlias' leads =>
        obtain ⟨rfl, rfl⟩ := isAlias.unique isAlias'
        simp only [followAlias, leads]

/-- A star export gives nothing where its specifier leads to no file that exports the name. -/
theorem followStar_eq_none_iff {n : Nat} {file : FileId} {name : String}
    (exported : ∀ file name r,
      b.followExport p n space file name = some r ↔ (b.reach p space n).exported file name r)
    (specifier : String) :
    (match p.resolveModule? file specifier with
      | some (.file target) => b.followExport p n space target name
      | _ => none) = none ↔
      ∀ other, p.resolveModule? file specifier = some (.file other) →
        ∀ r, ¬ (b.reach p space n).exported other name r := by
  constructor
  · intro missing other leads r reached
    rw [leads] at missing
    cases missing.symm.trans ((exported other name r).mpr reached)
  · intro nowhere
    split
    · rename_i other leads
      cases found : b.followExport p n space other name with
      | none => rfl
      | some r => exact absurd ((exported other name r).mp found) (nowhere other leads r)
    · rfl

theorem followExport_succ_eq_some_iff {n : Nat}
    (symbols : ∀ s r, b.followSymbol p n space s = some r ↔ (b.reach p space n).symbol s r)
    (exported : ∀ file name r,
      b.followExport p n space file name = some r ↔ (b.reach p space n).exported file name r)
    (file : FileId) (name : String) (r : Referent) :
    b.followExport p (n + 1) space file name = some r ↔
      FromExport b p space (b.reach p space n) file name r := by
  unfold followExport
  constructor
  · intro found
    split at found
    · rename_i s entry
      exact .own entry ((symbols s r).mp found)
    · rename_i absent
      split at found
      · cases found
      · rename_i named
        obtain ⟨before, specifier, after, stars, here, first⟩ :=
          List.findSome?_eq_some_iff.mp found
        split at here
        · rename_i target leads
          exact .star absent named stars leads ((exported target name r).mp here)
            fun earlier inside => (followStar_eq_none_iff exported earlier).mp (first earlier inside)
        · cases here
  · intro step
    cases step with
    | own entry next =>
        simp only [entry]
        exact (symbols _ r).mpr next
    | @star before after specifier target _ absent named stars leads next first =>
        simp only [absent, if_neg named]
        refine List.findSome?_eq_some_iff.mpr ⟨before, specifier, after, stars, ?_, ?_⟩
        · rw [leads]
          exact (exported target name r).mpr next
        · exact fun earlier inside => (followStar_eq_none_iff exported earlier).mpr (first earlier inside)

/-- Following finds what the same number of steps leads to. -/
theorem Placed.follow_eq_some_iff (placed : b.Placed) (n : Nat) :
    (∀ s r, b.followSymbol p n space s = some r ↔ (b.reach p space n).symbol s r) ∧
      ∀ file name r,
        b.followExport p n space file name = some r ↔ (b.reach p space n).exported file name r := by
  induction n with
  | zero =>
      refine ⟨fun s r => ⟨fun found => ?_, False.elim⟩, fun file name r => ⟨fun found => ?_, False.elim⟩⟩
      · unfold followSymbol at found
        cases found
      · unfold followExport at found
        cases found
  | succ n ih =>
      obtain ⟨symbols, exported⟩ := ih
      refine ⟨fun s r => ?_, followExport_succ_eq_some_iff symbols exported⟩
      rcases placed.symbol_cases s with missing | ⟨x, found, plain⟩ | ⟨file, node, isAlias, kind⟩
      · have nowhere : b.followSymbol p (n + 1) space s = none := by
          unfold followSymbol
          rw [missing]
        rw [nowhere]
        refine ⟨nofun, fun step => ?_⟩
        cases step with
        | itself found => cases missing.symm.trans found
        | localAlias isAlias | imported isAlias | wholeModule isAlias | external isAlias =>
            obtain ⟨x, _, _, found, _⟩ := isAlias
            cases missing.symm.trans found
      · rw [followSymbol_plain found plain]
        constructor
        · intro same
          cases same
          exact .itself found plain
        · intro step
          cases step with
          | itself => rfl
          | localAlias isAlias | imported isAlias | wholeModule isAlias | external isAlias =>
              obtain ⟨y, _, _, found', redirect, _⟩ := isAlias
              cases found.symm.trans found'
              exact absurd redirect plain
      · rw [followSymbol_alias isAlias kind]
        exact followAlias_eq_some_iff isAlias symbols exported r

/-- A chain does not end at an alias. -/
theorem reach_plain (n : Nat) :
    (∀ s t, (b.reach p space n).symbol s (.symbol t) →
      ∃ x, b.symbol? t = some x ∧ x.kind ≠ .redirect) ∧
    ∀ file name t, (b.reach p space n).exported file name (.symbol t) →
      ∃ x, b.symbol? t = some x ∧ x.kind ≠ .redirect := by
  induction n with
  | zero => exact ⟨fun _ _ => False.elim, fun _ _ _ => False.elim⟩
  | succ n ih =>
      obtain ⟨symbols, exported⟩ := ih
      refine ⟨fun s t step => ?_, fun file name t step => ?_⟩
      · cases step with
        | itself found plain => exact ⟨_, found, plain⟩
        | localAlias _ _ next => exact symbols _ t next
        | imported _ _ _ next => exact exported _ _ t next
      · cases step with
        | own _ next => exact symbols _ t next
        | star _ _ _ _ next => exact exported _ _ t next

/-! ### The same answer later -/

/-- Symbols that are there stay as they are, and so do files and global names. What is new may be
anything. -/
structure KeptIn (b b' : Bindings) : Prop where
  symbol : ∀ s x, b.symbol? s = some x → b'.symbol? s = some x
  files : b'.files = b.files
  global : b'.global = b.global

theorem KeptIn.refl (b : Bindings) : b.KeptIn b := ⟨fun _ _ found => found, rfl, rfl⟩

theorem Extends.keptIn {b b' : Bindings} (grown : b.Extends b') : b.KeptIn b' :=
  ⟨grown.symbol, grown.files, grown.global⟩

/-- Symbols that are added later are in nobody's way. -/
theorem Placed.follow_keptIn {b' : Bindings} (placed : b.Placed) (kept : b.KeptIn b')
    (n : Nat) :
    (∀ s, (b.symbol? s).isSome → b'.followSymbol p n space s = b.followSymbol p n space s) ∧
      ∀ file name, b'.followExport p n space file name = b.followExport p n space file name := by
  have scopes : ∀ file, b'.scope file = b.scope file := by
    intro file
    unfold scope
    rw [kept.files]
  induction n with
  | zero =>
      refine ⟨fun s _ => ?_, fun file name => ?_⟩
      · unfold followSymbol
        rfl
      · unfold followExport
        rfl
  | succ n ih =>
      obtain ⟨symbols, exported⟩ := ih
      refine ⟨fun s there => ?_, fun file name => ?_⟩
      · rcases placed.symbol_cases s with missing | ⟨x, found, plain⟩ | ⟨file, node, isAlias, kind⟩
        · rw [missing] at there
          cases there
        · rw [followSymbol_plain found plain, followSymbol_plain (kept.symbol s x found) plain]
        · have isAlias' : b'.Alias s file node := by
            obtain ⟨x, decl, rest, found, rest⟩ := isAlias
            exact ⟨x, decl, _, kept.symbol s x found, rest⟩
          rw [followSymbol_alias isAlias kind, followSymbol_alias isAlias' kind]
          cases node with
          | localAlias name =>
              simp only [followAlias, scopes]
              cases entry : (b.scope file).locals.get? space name with
              | none => rfl
              | some target =>
                  obtain ⟨x, found, _⟩ := placed.tables (.file file) space name target entry
                  exact symbols target (Option.isSome_iff_exists.mpr ⟨x, found⟩)
          | imported specifier name => simp only [followAlias, exported]
          | _ => cases kind
      · unfold followExport
        simp only [scopes, exported]
        cases entry : (b.scope file).exports.get? space name with
        | none => rfl
        | some s => exact symbols s (placed.exports file space name s entry)

end

/-! ### Answers -/

/-- A question about imports and exports. -/
inductive Lookup where
  /-- What a symbol stands for. -/
  | aliased (s : SymbolId) (space : Space)
  /-- What a file exports under a name. -/
  | exported (file : FileId) (space : Space) (name : String)

namespace Lookup

def answer (p : Program) (b : Bindings) : Lookup → Option SymbolId × Bindings
  | .aliased s space => b.resolveAlias p s space
  | .exported file space name => b.exportOf p file space name

/-- What so many steps lead to. -/
def Reaches (p : Program) (b : Bindings) (n : Nat) : Lookup → Referent → Prop
  | .aliased s space => (b.reach p space n).symbol s
  | .exported file space name => (b.reach p space n).exported file name

/-- Whether the question is about something that is there. -/
def Known (b : Bindings) : Lookup → Prop
  | .aliased s _ => (b.symbol? s).isSome
  | .exported _ _ _ => True

/-- What the question is answered from. -/
def referent? (p : Program) (b : Bindings) : Lookup → Option Referent
  | .aliased s space => b.followSymbol p maxSteps space s
  | .exported file space name => b.followExport p maxSteps space file name

theorem answer_eq (p : Program) (b : Bindings) (l : Lookup) :
    l.answer p b = b.symbolFor? p (l.referent? p b) := by
  cases l <;> rfl

theorem referent?_eq_some_iff {p : Program} {b : Bindings} (placed : b.Placed) (l : Lookup)
    (r : Referent) : l.referent? p b = some r ↔ l.Reaches p b maxSteps r := by
  cases l with
  | aliased s space => exact (placed.follow_eq_some_iff maxSteps).1 s r
  | exported file space name => exact (placed.follow_eq_some_iff maxSteps).2 file name r

theorem referent?_later {p : Program} {b b' : Bindings} (placed : b.Placed) (grown : b.Extends b')
    {l : Lookup} (known : l.Known b) : l.referent? p b' = l.referent? p b := by
  cases l with
  | aliased s space => exact (placed.follow_keptIn grown.keptIn maxSteps).1 s known
  | exported file space name => exact (placed.follow_keptIn grown.keptIn maxSteps).2 file name

/-- A symbol that is not there stands for nothing. -/
theorem answer_of_unknown {p : Program} {b : Bindings} {l : Lookup} (unknown : ¬ l.Known b) :
    l.answer p b = (none, b) := by
  cases l with
  | aliased s space =>
      have missing : b.symbol? s = none := by simpa [Known] using unknown
      simp only [answer, resolveAlias, maxSteps, followSymbol, missing, symbolFor?]
  | exported => exact absurd trivial unknown

end Lookup

end Bindings

namespace Referent

variable {p : Program} {b : Bindings} {r : Referent}

/-- Whether a symbol is the one that stands for what a chain ends at. -/
def IsSymbol (p : Program) (b : Bindings) (t : SymbolId) : Referent → Prop
  | .symbol s => t = s
  | .exportsOf file =>
      b.moduleNamespaces.get? file = some t ∧ b.symbol? t = some (Bindings.moduleSymbol p file)
  | .external module name =>
      b.externals.get? (module, name) = some t ∧
        b.symbol? t = some (Bindings.externalSymbol module name)

theorem isSymbol_symbolFor (proper : b.Proper p) (r : Referent) :
    r.IsSymbol p (b.symbolFor p r).2 (b.symbolFor p r).1 := by
  have after := (Bindings.follows_symbolFor? b p (some r)).proper proper
  cases r with
  | symbol s => rfl
  | exportsOf file =>
      have known : (b.moduleNamespace p file).2.moduleNamespaces.get? file =
          some (b.moduleNamespace p file).1 := by
        unfold Bindings.moduleNamespace
        split
        · assumption
        · exact OrdMap.get?_insert_self _ _ _
      exact ⟨known, after.modules file _ known⟩
  | external module name =>
      have known : (b.external module name).2.externals.get? (module, name) =
          some (b.external module name).1 := by
        unfold Bindings.external
        split
        · assumption
        · exact OrdMap.get?_insert_self _ _ _
      exact ⟨known, after.externals module name _ known⟩

theorem IsSymbol.unique {s t : SymbolId} (first : r.IsSymbol p b s) (second : r.IsSymbol p b t) :
    s = t := by
  cases r with
  | symbol => exact first.trans second.symm
  | exportsOf | external => exact Option.some.inj (first.1.symm.trans second.1)

theorem IsSymbol.later {b' : Bindings} {t : SymbolId} (here : r.IsSymbol p b t)
    (follows : Bindings.Follows p b b') : r.IsSymbol p b' t := by
  cases r with
  | symbol => exact here
  | exportsOf file => exact ⟨follows.modules file t here.1, follows.symbol t _ here.2⟩
  | external module name => exact ⟨follows.externals _ t here.1, follows.symbol t _ here.2⟩

/-- A referent that has its symbol keeps it. -/
theorem IsSymbol.symbolFor_eq {t : SymbolId} (here : r.IsSymbol p b t) :
    b.symbolFor p r = (t, b) := by
  cases r with
  | symbol s =>
      cases here
      rfl
  | exportsOf file =>
      simp only [Bindings.symbolFor, Bindings.moduleNamespace, here.1]
  | external module name =>
      simp only [Bindings.symbolFor, Bindings.external, here.1]

end Referent

namespace Bindings

/-- A call that follows imports and exports. -/
inductive Call where
  | lookup (l : Lookup)
  | member (container : SymbolId) (space : Space) (name : String)

def Call.run (p : Program) (b : Bindings) : Call → Bindings
  | .lookup l => (l.answer p b).2
  | .member container space name => (b.member p container space name).2

/-- The symbols after a number of calls. -/
def afterCalls (p : Program) (b : Bindings) (calls : List Call) : Bindings :=
  calls.foldl (Call.run p) b

theorem follows_answer (p : Program) (b : Bindings) (l : Lookup) :
    Follows p b (l.answer p b).2 := by
  cases l with
  | aliased s space => exact follows_resolveAlias b p s space
  | exported file space name => exact follows_exportOf b p file space name

theorem follows_afterCalls (p : Program) (b : Bindings) (calls : List Call) :
    Follows p b (b.afterCalls p calls) := by
  induction calls generalizing b with
  | nil => exact .refl b
  | cons call rest ih =>
      have step : Follows p b (call.run p b) := by
        cases call with
        | lookup l => exact follows_answer p b l
        | member container space name => exact follows_member b p container space name
      exact step.trans (ih (call.run p b))

theorem Proper.answer_eq_some_iff {b : Bindings} {p : Program} (proper : b.Proper p) (l : Lookup)
    (t : SymbolId) :
    (l.answer p b).1 = some t ↔
      ∃ r, l.Reaches p b maxSteps r ∧ r.IsSymbol p (l.answer p b).2 t := by
  rw [l.answer_eq]
  cases found : l.referent? p b with
  | none =>
      refine ⟨nofun, ?_⟩
      rintro ⟨r, reached, _⟩
      cases found.symm.trans ((l.referent?_eq_some_iff proper.toPlaced r).mpr reached)
  | some r =>
      have own := Referent.isSymbol_symbolFor proper r
      constructor
      · intro answered
        cases answered
        exact ⟨r, (l.referent?_eq_some_iff proper.toPlaced r).mp found, own⟩
      · rintro ⟨other, reached, stands⟩
        cases found.symm.trans ((l.referent?_eq_some_iff proper.toPlaced other).mpr reached)
        exact congrArg some (own.unique stands)

theorem Proper.answer_plain {b : Bindings} {p : Program} (proper : b.Proper p) {l : Lookup}
    {t : SymbolId} (answered : (l.answer p b).1 = some t) :
    ∃ x, (l.answer p b).2.symbol? t = some x ∧ x.kind ≠ .redirect := by
  obtain ⟨r, reached, stands⟩ := (proper.answer_eq_some_iff l t).mp answered
  cases r with
  | symbol s =>
      cases stands
      have plain : ∃ x, b.symbol? t = some x ∧ x.kind ≠ .redirect := by
        cases l with
        | aliased s space => exact (reach_plain maxSteps).1 s t reached
        | exported file space name => exact (reach_plain maxSteps).2 file name t reached
      obtain ⟨x, found, kind⟩ := plain
      exact ⟨x, (follows_answer p b l).symbol t x found, kind⟩
  | exportsOf | external => exact ⟨_, stands.2, nofun⟩

/-- An answer stays the same, and giving it again changes nothing. -/
theorem Proper.answer_later {b b' : Bindings} {p : Program} (proper : b.Proper p) {l : Lookup}
    (known : l.Known b) (follows : Follows p (l.answer p b).2 b') :
    l.answer p b' = ((l.answer p b).1, b') := by
  have grown := (follows_answer p b l).toExtends.trans follows.toExtends
  rw [l.answer_eq, l.referent?_later proper.toPlaced grown known]
  rw [l.answer_eq] at follows ⊢
  cases found : l.referent? p b with
  | none => rfl
  | some r =>
      rw [found] at follows
      have own := (Referent.isSymbol_symbolFor proper r).later follows
      simp only [symbolFor?, own.symbolFor_eq]

theorem proper_afterCalls (p : Program) (calls : List Call) :
    ((ofProgram p).afterCalls p calls).Proper p :=
  (follows_afterCalls p (ofProgram p) calls).proper (proper_ofProgram p)

/-- Imports and exports are followed to exactly what the relation reaches in 33 steps. The answer
is no alias, what is there stays as it is, and the same question gets the same answer ever
after. -/
theorem answer_iff_reaches (p : Program) (calls : List Call) (l : Lookup) :
    let b := (ofProgram p).afterCalls p calls
    let r := l.answer p b
    (∀ t, r.1 = some t ↔ ∃ e, l.Reaches p b 33 e ∧ e.IsSymbol p r.2 t) ∧
      (∀ t, r.1 = some t → ∃ x, r.2.symbol? t = some x ∧ x.kind ≠ .redirect) ∧
      Follows p b r.2 ∧
      l.answer p r.2 = r ∧
      (l.Known b → ∀ more, l.answer p (r.2.afterCalls p more) = (r.1, r.2.afterCalls p more)) := by
  intro b r
  have proper : b.Proper p := proper_afterCalls p calls
  refine ⟨proper.answer_eq_some_iff l, fun t => proper.answer_plain, follows_answer p b l, ?_, ?_⟩
  · by_cases known : l.Known b
    · exact proper.answer_later known (.refl r.2)
    · have nothing : r = (none, b) := Lookup.answer_of_unknown known
      rw [nothing]
      exact Lookup.answer_of_unknown known
  · intro known more
    exact proper.answer_later known (follows_afterCalls p r.2 more)

/-- A file that exports a constant of another one under its name. -/
def forwarded : Program :=
  let constant : Declarator := ⟨.ident "k" false none, none, ""⟩
  { files := #[
      ⟨⟨"/a.ts", #[], [⟨0, 0, none, {}, .exportNamed [.named "k" none] (some "./b")⟩]⟩, "/a.ts", true⟩,
      ⟨⟨"/b.ts", #[], [⟨0, 0, none, {}, .exportDecl (.variableList true [constant])⟩]⟩, "/b.ts", true⟩]
    targets := OrdMap.empty.insert (⟨0⟩, "./b") (.file ⟨1⟩) }

/-- The constant is found behind the export, is reached there, and is found again after other
questions. -/
theorem forwarded_reached :
    let b := ofProgram forwarded
    let l := Lookup.exported ⟨0⟩ .value "k"
    let r := l.answer forwarded b
    r.1 = some ⟨1⟩ ∧ (∃ e, l.Reaches forwarded b 33 e ∧ e.IsSymbol forwarded r.2 ⟨1⟩) ∧
      (∃ x, r.2.symbol? ⟨1⟩ = some x ∧ x.kind ≠ .redirect) ∧
      ∀ more, (l.answer forwarded (r.2.afterCalls forwarded more)).1 = some ⟨1⟩ := by
  intro b l r
  obtain ⟨reached, plain, -, -, later⟩ := answer_iff_reaches forwarded [] l
  have found : r.1 = some ⟨1⟩ := rfl
  refine ⟨found, (reached ⟨1⟩).mp found, plain ⟨1⟩ found, fun more => ?_⟩
  exact (congrArg Prod.fst (later trivial more)).trans found

end Bindings

end ApiDocs
