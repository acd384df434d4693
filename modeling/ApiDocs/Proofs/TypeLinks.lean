import Mathlib
import ApiDocs.Proofs.Integrity
import ApiDocs.Proofs.Rendering

set_option autoImplicit false

/-!
Where the key of a named type leads: to the declaration of a symbol that declares the same type as
the symbol which the named type was made for.
-/

namespace ApiDocs

open Checker Check ApiDocs.Bound

/-! ### What is found for a symbol -/

/-- The named types of what is shown for a symbol were made for symbols, and the type that it is to
be found by is the one that the symbol declares. -/
structure Content.Shows (p : Program) (c : Checker) (s : SymbolId) (content : Content) : Prop where
  traced : Traces p c content.body.links
  declares : ∀ t ∈ content.declares, c.declared[s]? = some t

namespace Content

variable {p : Program}

theorem traces_classBody {c : Checker} {members : Render.ClassMembers}
    (traced : Render.TracesClass p c members) : Traces p c (classBody members).links := by
  simp only [classBody, DeclarationBody.links, traces_append, traces_flatMap, List.forall_mem_map]
  exact ⟨⟨traced.properties, traced.constructors⟩, traced.methods⟩

theorem gives_ofType (s : SymbolId) :
    Gives p (ofType s) fun c shown => ∀ content ∈ shown, content.Shows p c s := by
  refine (gives_declaredType p s).bind fun t => ?_
  refine (Render.traces_declaredBound t).bind fun shown => ?_
  refine (Render.traces_typeParameters s).bind fun parameters => .pure fun c third second first => ?_
  intro content same
  cases same
  exact ⟨(traces_append p c _ _).mpr ⟨second, third⟩, fun _ same => Option.some.inj same ▸ first⟩

theorem gives_ofClass (s : SymbolId) :
    Gives p (ofClass s) fun c shown => ∀ content ∈ shown, content.Shows p c s := by
  refine .skip fun value => (gives_declaredType p s).bind fun t => ?_
  refine (Render.traces_componentProps? value).bind fun component => ?_
  split
  · rename_i properties
    refine .pure fun c second first content same => ?_
    cases same
    exact ⟨second properties rfl, fun _ same => Option.some.inj same ▸ first⟩
  · refine (Render.traces_classMembers? value).bind fun members => ?_
    refine .pure fun c third _ first content same => ?_
    obtain ⟨found, there, rfl⟩ := Option.map_eq_some_iff.mp same
    exact ⟨traces_classBody (third found there), fun _ same => Option.some.inj same ▸ first⟩

theorem gives_ofCallable (s : SymbolId) (t : TypeId) :
    Gives p (ofCallable t) fun c shown => ∀ content ∈ shown, content.Shows p c s := by
  refine (Render.traces_componentProps? t).bind fun component => ?_
  split
  · rename_i properties
    refine .pure fun c first content same => ?_
    cases same
    exact ⟨first properties rfl, nofun⟩
  · refine (Render.traces_function? t).bind fun signature => .pure fun c second _ content same => ?_
    obtain ⟨found, there, rfl⟩ := Option.map_eq_some_iff.mp same
    exact ⟨second found there, nofun⟩

theorem gives_ofVariable (d : Syntax.Declarator) (s : SymbolId) :
    Gives p (ofVariable d s) fun c shown => ∀ content ∈ shown, content.Shows p c s := by
  refine .skip fun t => (gives_ofCallable s t).bind fun callable => ?_
  split
  · exact .pure fun _ first => first
  · split
    · refine (Render.traces_bound t).bind fun shown => .pure fun c second _ content same => ?_
      cases same
      exact ⟨second, nofun⟩
    · exact .pure fun c _ content absent => by cases absent

end Content

namespace Extraction

theorem Describes.gives {p : Program} {space : Space} {describe : SymbolId → Check (Option Content)}
    (kind : Describes space describe) (s : SymbolId) :
    Gives p (describe s) fun c shown => ∀ content ∈ shown, content.Shows p c s := by
  cases kind with
  | type => exact Content.gives_ofType s
  | classDecl => exact Content.gives_ofClass s
  | function => exact .skip fun t => Content.gives_ofCallable s t
  | variableDecl d => exact Content.gives_ofVariable d s

/-! ### Declarations and their symbols -/

/-- A declaration of the module at `path` was extracted from a symbol: its name stands for the symbol
in the file of the module, and it shows what the symbol was described by. It is to be found by the type
that this declares, if it declares one. -/
inductive ExtractedFrom (p : Program) (output : String → String) (c : Checker) (path : String)
    (d : Declaration) (s : SymbolId) (declares : Option TypeId) : Prop where
  | intro {file : FileId} {source : SourceFile} {space : Space}
      {describe : SymbolId → Check (Option Content)} {before : Checker} {content : Content}
      (root : (file, source) ∈ p.rootFiles) (home : path = output source.path)
      (named : (Bindings.ofProgram p).lookup file none space d.name = some s)
      (kind : Describes space describe) (reached : Reached p before)
      (shown : ((describe s).outcome p before).1 = some content)
      (later : ((describe s).outcome p before).2.Later c) (body : d.body = content.body)
      (type : declares = content.declares)

theorem ExtractedFrom.later {p : Program} {output : String → String} {c c' : Checker} {path : String}
    {d : Declaration} {s : SymbolId} {declares : Option TypeId}
    (made : ExtractedFrom p output c path d s declares) (more : c.Later c') :
    ExtractedFrom p output c' path d s declares := by
  obtain ⟨root, home, named, kind, reached, shown, later, body, type⟩ := made
  exact ⟨root, home, named, kind, reached, shown, later.trans more, body, type⟩

theorem ExtractedFrom.of_same {p : Program} {output : String → String} {c : Checker} {path : String}
    {d other : Declaration} {s : SymbolId} {declares : Option TypeId}
    (made : ExtractedFrom p output c path d s declares) (name : other.name = d.name)
    (body : other.body = d.body) : ExtractedFrom p output c path other s declares := by
  obtain ⟨root, home, named, kind, reached, shown, later, same, type⟩ := made
  exact ⟨root, home, name ▸ named, kind, reached, shown, later, body.trans same, type⟩

/-- Where a declaration comes from: a symbol, and the type of the symbol that it declares. -/
structure Owner where
  symbol : SymbolId
  declares : Option TypeId

/-- The last owner in a list that declares a type with that key. -/
structure IsLast (owners : List Owner) (key : String) (n : Nat) : Prop where
  declares : ∃ s t, owners[n]? = some ⟨s, some t⟩ ∧ t.key = key
  last : ∀ (m : Nat) (s : SymbolId) (t : TypeId), owners[m]? = some ⟨s, some t⟩ → t.key = key → m ≤ n

theorem IsLast.unique {owners : List Owner} {key : String} {n m : Nat} (first : IsLast owners key n)
    (second : IsLast owners key m) : n = m := by
  obtain ⟨⟨s, t, here, same⟩, last⟩ := first
  obtain ⟨⟨s', t', there, same'⟩, last'⟩ := second
  exact Nat.le_antisymm (last' n s t here same) (last m s' t' there same')

/-- An owner that declares a type with the key is the last one when it comes. -/
theorem isLast_concat_of_key {owners : List Owner} {key : String} {s : SymbolId} {t : TypeId}
    {n : Nat}
    (same : t.key = key) : IsLast (owners ++ [⟨s, some t⟩]) key n ↔ n = owners.length := by
  have own : IsLast (owners ++ [⟨s, some t⟩]) key owners.length := by
    refine ⟨⟨s, t, by simp, same⟩, fun m s' t' there _ => ?_⟩
    have inside := (List.getElem?_eq_some_iff.mp there).1
    simpa [Nat.lt_succ_iff] using inside
  exact ⟨fun last => last.unique own, fun last => last ▸ own⟩

/-- Any other owner changes nothing. -/
theorem isLast_concat_of_other {owners : List Owner} {key : String} {o : Owner} {n : Nat}
    (other : ∀ t, o.declares = some t → t.key ≠ key) :
    IsLast (owners ++ [o]) key n ↔ IsLast owners key n := by
  have old (m : Nat) (s : SymbolId) (t : TypeId) (same : t.key = key) :
      (owners ++ [o])[m]? = some ⟨s, some t⟩ ↔ owners[m]? = some ⟨s, some t⟩ := by
    rw [List.getElem?_append]
    split
    · rfl
    · rename_i outside
      rw [List.getElem?_eq_none (Nat.le_of_not_lt outside)]
      refine ⟨fun there => ?_, nofun⟩
      obtain rfl := List.mem_singleton.mp (List.mem_of_getElem? there)
      exact absurd same (other t rfl)
  constructor
  · rintro ⟨⟨s, t, here, same⟩, last⟩
    exact ⟨⟨s, t, (old n s t same).mp here, same⟩, fun m s t there same =>
      last m s t ((old m s t same).mpr there) same⟩
  · rintro ⟨⟨s, t, here, same⟩, last⟩
    exact ⟨⟨s, t, (old n s t same).mpr here, same⟩, fun m s t there same =>
      last m s t ((old m s t same).mp there) same⟩

/-- The owners of the declarations of a package, in the order of their ids. Each symbol owns one
declaration at most, and the key of a type leads to what the last one that declares it owns. -/
structure Owned (p : Program) (output : String → String) (c : Checker) (package : Package)
    (owners : List Owner) : Prop where
  ids : package.declarationModule.keys = (List.range owners.length).map toString
  made : ∀ (n : Nat) (o : Owner), owners[n]? = some o →
    ∃ path d, package.declarationModule.get? (toString n) = some path ∧
      package.declaration? (toString n) = some d ∧ ExtractedFrom p output c path d o.symbol o.declares
  distinct : (owners.map (·.symbol)).Nodup
  declared : ∀ s t, ⟨s, some t⟩ ∈ owners → c.declared[s]? = some t
  types : ∀ key id, package.typeDeclaration.get? key = some id ↔
    ∃ n, IsLast owners key n ∧ id = toString n

namespace Owned

variable {p : Program} {output : String → String} {c c' : Checker} {package : Package}
  {owners : List Owner}

theorem later (owned : Owned p output c package owners) (later : c.Later c') :
    Owned p output c' package owners :=
  { owned with
    made := fun n o there => by
      obtain ⟨path, d, recorded, found, made⟩ := owned.made n o there
      exact ⟨path, d, recorded, found, made.later later⟩
    declared := fun s t inside => later.declared s t (owned.declared s t inside) }

/-- The declarations stay what they were in a package that has the same ids and type keys. -/
theorem of_same (owned : Owned p output c package owners) {other : Package}
    (types : other.typeDeclaration = package.typeDeclaration)
    (recorded : other.declarationModule = package.declarationModule)
    (kept : ∀ id d, package.declaration? id = some d →
      ∃ new, other.declaration? id = some new ∧ new.name = d.name ∧ new.body = d.body) :
    Owned p output c other owners where
  ids := recorded ▸ owned.ids
  made n o there := by
    obtain ⟨path, d, known, found, made⟩ := owned.made n o there
    obtain ⟨new, after, name, body⟩ := kept _ d found
    exact ⟨path, new, recorded ▸ known, after, made.of_same name body⟩
  distinct := owned.distinct
  declared := owned.declared
  types := types ▸ owned.types

end Owned

/-- What holds of the named types and the type keys of a package while its declarations are
collected. -/
structure Linked (p : Program) (output : String → String) (e : Extraction) (c : Checker) :
    Prop where
  valid : e.Valid
  reached : Reached p c
  place : e.outputPath = output
  traced : ∀ path m id d, e.package.modules.get? path = some m → m.declarations.get? id = some d →
    Traces p c d.body.links
  owned : ∃ owners, Owned p output c e.package owners ∧ ∀ o ∈ owners, o.symbol ∈ e.extracted

theorem linked_empty (p : Program) (name outDir packagePath : String) :
    Linked p (Path.outputPath packagePath outDir)
      { package := Package.empty name outDir, packagePath }
      (ofProgram p) where
  valid := valid_empty name outDir packagePath
  reached := Later.refl _
  place := rfl
  traced _ _ _ _ there := by cases there
  owned := by
    refine ⟨[], ⟨rfl, nofun, List.nodup_nil, nofun, fun key id => ⟨nofun, ?_⟩⟩, nofun⟩
    rintro ⟨n, ⟨⟨s, t, absent, -⟩, -⟩, -⟩
    cases absent

theorem Linked.claimed {p : Program} {output : String → String} {e : Extraction} {c c' : Checker}
    (linked : Linked p output e c) (later : c.Later c') (s : SymbolId) :
    Linked p output (e.claimed s) c' where
  valid := valid_claimed linked.valid s
  reached := linked.reached.trans later
  place := linked.place
  traced path m id d there listed link inside := by
    obtain ⟨s, made⟩ := linked.traced path m id d there listed link inside
    exact ⟨s, made.later later⟩
  owned := by
    obtain ⟨owners, owned, had⟩ := linked.owned
    exact ⟨owners, owned.later later, fun o inside => List.mem_cons_of_mem s (had o inside)⟩

/-- A declaration that is stored has an owner more. -/
theorem Owned.store {p : Program} {output : String → String} {e : Extraction} {c : Checker}
    {owners : List Owner} (owned : Owned p output c e.package owners) (valid : e.Valid)
    {site : ModuleSite} {name documentation : String} {content : Content}
    (opened : site.outPath ∈ e.package.modules.keys) {s : SymbolId}
    (new : s ∉ owners.map (·.symbol)) (shows : content.Shows p c s)
    (made : ExtractedFrom p output c site.outPath (e.next name documentation content) s
      content.declares) :
    Owned p output c (e.store site name documentation content).package
      (owners ++ [⟨s, content.declares⟩]) := by
  have count : owners.length = e.nextId := by
    simpa using congrArg List.length (owned.ids.symm.trans valid.ids)
  constructor
  case ids =>
    change (e.package.declarationModule.insert (toString e.nextId) _).keys = _
    rw [OrdMap.keys_insert, if_neg valid.fresh, valid.ids, List.length_append, List.length_singleton,
      count, List.range_succ, List.map_append]
    rfl
  case made =>
    intro n o there
    rw [List.getElem?_append] at there
    split at there
    · obtain ⟨path, d, recorded, found, made⟩ := owned.made n o there
      refine ⟨path, d, ?_, declaration?_store valid site name documentation content found, made⟩
      rw [get?_declarationModule_store, if_neg (valid.ne_of_recorded recorded)]
      exact recorded
    · rename_i outside
      have last := (List.getElem?_eq_some_iff.mp there).1
      have same : n = e.nextId := by
        rw [List.length_singleton] at last
        omega
      obtain rfl := List.mem_singleton.mp (List.mem_of_getElem? there)
      subst same
      exact ⟨_, _, (get?_declarationModule_store ..).trans (if_pos rfl),
        declaration?_store_next e site name documentation content opened, made⟩
  case distinct =>
    rw [List.map_append, List.nodup_append]
    refine ⟨owned.distinct, List.nodup_singleton _, fun a inside b last => ?_⟩
    obtain rfl := List.mem_singleton.mp last
    exact fun same => new (same ▸ inside)
  case declared =>
    intro s' t inside
    rcases List.mem_append.mp inside with before | last
    · exact owned.declared s' t before
    · obtain ⟨rfl, declares⟩ := Owner.mk.inj (List.mem_singleton.mp last)
      exact shows.declares t declares.symm
  case types =>
    intro key id
    cases declares : content.declares with
    | none =>
        have same : (e.store site name documentation content).package.typeDeclaration =
            e.package.typeDeclaration := by
          simp only [Extraction.store, declares]
        rw [same, owned.types]
        exact exists_congr fun n => and_congr_left fun _ =>
          (isLast_concat_of_other fun _ absent => by cases absent).symm
    | some t =>
        have same : (e.store site name documentation content).package.typeDeclaration =
            e.package.typeDeclaration.insert t.key (toString e.nextId) := by
          simp only [Extraction.store, declares]
          rfl
        rw [same, OrdMap.get?_insert]
        split
        · rename_i last
          refine ⟨fun leads => ⟨_, (isLast_concat_of_key last.symm).mpr rfl, ?_⟩, ?_⟩
          · rw [count]
            exact (Option.some.inj leads).symm
          · rintro ⟨n, here, rfl⟩
            rw [(isLast_concat_of_key last.symm).mp here, count]
        · rename_i differs
          rw [owned.types]
          refine exists_congr fun n => and_congr_left fun _ => (isLast_concat_of_other ?_).symm
          rintro _ ⟨⟩
          exact Ne.symm differs

/-- A symbol has its turn, and its declaration is stored. -/
theorem Linked.store {p : Program} {output : String → String} {e : Extraction} {c c' : Checker}
    (linked : Linked p output e c) (later : c.Later c') {s : SymbolId} (fresh : s ∉ e.extracted)
    (site : ModuleSite) (name documentation : String) (content : Content) (opened : Opened p e site)
    (kind : content.declares.isSome → (e.next name documentation content).kind.isType)
    (shows : content.Shows p c' s)
    (made : ExtractedFrom p output c' site.outPath (e.next name documentation content) s
      content.declares) :
    Linked p output ((e.claimed s).store site name documentation content) c' where
  valid := valid_store (valid_claimed linked.valid s) site name documentation content
    opened.module kind
  reached := linked.reached.trans later
  place := linked.place
  traced path m id d there listed := by
    rcases get?_store_cases there listed with ⟨_, _, rfl⟩ | ⟨old, before, known⟩
    · exact shows.traced
    · exact (linked.claimed later s).traced path old id d before known
  owned := by
    obtain ⟨owners, owned, had⟩ := linked.owned
    have new : s ∉ owners.map (·.symbol) := by
      intro inside
      obtain ⟨o, listed, rfl⟩ := List.mem_map.mp inside
      exact fresh (had o listed)
    refine ⟨_, Owned.store (e := e.claimed s) (owned.later later) (valid_claimed linked.valid s)
      opened.module
      new shows made, fun o inside => ?_⟩
    rcases List.mem_append.mp inside with before | last
    · exact List.mem_cons_of_mem s (had o before)
    · rw [List.mem_singleton.mp last]
      exact List.mem_cons_self

/-- A step that leaves the declarations, their ids and the type keys alone. -/
theorem Linked.step {p : Program} {output : String → String} {e e' : Extraction} {c : Checker}
    (linked : Linked p output e c) (valid : e'.Valid) (place : e'.outputPath = e.outputPath)
    (extracted : e'.extracted = e.extracted)
    (types : e'.package.typeDeclaration = e.package.typeDeclaration)
    (recorded : e'.package.declarationModule = e.package.declarationModule)
    (old : ∀ path m id d, e'.package.modules.get? path = some m → m.declarations.get? id = some d →
      ∃ before, e.package.modules.get? path = some before ∧ before.declarations.get? id = some d)
    (kept : ∀ id d, e.package.declaration? id = some d → e'.package.declaration? id = some d) :
    Linked p output e' c where
  valid := valid
  reached := linked.reached
  place := place.trans linked.place
  traced path m id d there listed := by
    obtain ⟨before, known, same⟩ := old path m id d there listed
    exact linked.traced path before id d known same
  owned := by
    obtain ⟨owners, owned, had⟩ := linked.owned
    exact ⟨owners, owned.of_same types recorded fun id d found => ⟨d, kept id d found, rfl, rfl⟩,
      fun o inside => extracted ▸ had o inside⟩

theorem keeps_linked (p : Program) (output : String → String) : Keeps p (Linked p output) where
  visit e c site space name describe kind opened linked := by
    rcases visit_cases e site space name describe p c with
      same | ⟨s, found, fresh, described, c', work, result⟩
    · rw [same]
      exact linked
    · rw [result]
      have outcome : ((describe s).outcome p c).2 = c' := congrArg Prod.snd work
      have later : c.Later c' := outcome ▸ (describe s).kept p c
      cases described with
      | none => exact linked.claimed later s
      | some content =>
          have shown : ((describe s).outcome p c).1 = some content := congrArg Prod.fst work
          have shows := kind.gives s c linked.reached c' (outcome ▸ Later.refl _) content shown
          obtain ⟨source, root, home⟩ := opened.file
          refine linked.store later fresh site name _ content opened ?_ shows ?_
          · exact fun declares => kind.isType shown declares _ rfl
          · refine ⟨root, home.trans (congrFun linked.place _), ?_, kind, linked.reached, shown,
              outcome ▸ Later.refl _, rfl, rfl⟩
            exact (linked.reached.bindings.lookup site.file space name).symm.trans found
  edges e c site edges unlinked linked := by
    refine linked.step (valid_addEdges linked.valid site edges unlinked) rfl rfl rfl rfl ?_
      fun id d found => declaration?_addEdges site edges found
    intro path m id d there listed
    obtain ⟨old, known, _, same, _⟩ := get?_addEdges_cases there
    exact ⟨old, known, same ▸ listed⟩
  star e c site target linked :=
    linked.step (valid_addStar linked.valid site target) rfl rfl rfl rfl
      (fun _ m _ _ there listed => ⟨m, there, listed⟩) fun _ _ found => found
  module e c source absent linked := by
    refine linked.step (valid_openModule linked.valid source absent) rfl rfl rfl rfl ?_
      fun id d found => declaration?_openModule absent found
    intro path m id d there listed
    rcases get?_openModule_cases there with ⟨_, none, _⟩ | known
    · rw [none] at listed
      cases listed
    · exact ⟨m, known, listed⟩

end Extraction

/-! ### Names -/

/-- Types are told apart by their keys. -/
theorem TypeId.key_injective {t u : TypeId} (same : t.key = u.key) : t = u :=
  congrArg TypeId.mk (Nat.repr_injective same)

namespace Checker

/-- A type stands for the value of the symbol that it is shown by: it is an object, and no alias is
written for it. Instances of classes and interfaces are references. -/
def standsForValue (c : Checker) (t : TypeId) : Bool :=
  match c.arena.alias? t, c.arena.data t with
  | none, .object _ => true
  | _, _ => false

/-- How a type is called by the name of the symbol that it is shown by. -/
def calledBy (c : Checker) (t : TypeId) (name : String) : String :=
  if c.standsForValue t then "typeof " ++ name else name

/-- A type that is shown by a symbol outside of all namespaces is called by its plain name. -/
theorem typeName_of_topLevel {c : Checker} {t : TypeId} {s : SymbolId} {name : String}
    (shown : c.shownSymbol? t = some s) (top : c.bindings.TopLevel s name) :
    c.typeName t = withoutArgs (c.calledBy t name) := by
  unfold typeName maxDepth textAt calledBy standsForValue
  unfold shownSymbol? typeSymbol? at shown
  cases written : c.arena.alias? t with
  | some ref =>
      rw [written] at shown
      cases shown
      exact congrArg withoutArgs top.displayName
  | none =>
      rw [written] at shown
      dsimp only at shown ⊢
      cases data : c.arena.data t with
      | reference symbol args =>
          rw [data] at shown
          cases shown
          exact congrArg withoutArgs top.displayName
      | nominal symbol args =>
          rw [data] at shown
          cases shown
          exact congrArg withoutArgs top.nominalName
      | object shape =>
          rw [data] at shown
          dsimp only at shown ⊢
          rw [shown]
          dsimp only
          rw [top.displayName]
          rfl
      | _ =>
          rw [data] at shown
          cases shown

end Checker

namespace Package

/-- The declarations of a program as they are collected, and the state that they leave behind. -/
def collected (name outDir packagePath : String) (program : Program) : Extraction × Checker :=
  (Extraction.visitAll { package := Package.empty name outDir, packagePath }).outcome program
    (Checker.ofProgram program)

/-- The declarations of a package have owners, each another symbol, and the key of a type leads to the
declaration of the last owner that declares the type. Every named type was rendered for a symbol, whose
declared type has the key of the named type. If the key leads to a declaration, it is that of the symbol
exactly if no symbol that declares the same type has its turn later. The named type is then called by the
name of the declaration, with `typeof` before it where it stands for the value of the symbol. -/
theorem typeDeclaration_sound (name outDir packagePath : String) (program : Program) :
    let package := (Package.empty name outDir).addProgram packagePath program
    let c := (collected name outDir packagePath program).2
    ∃ owners, Extraction.Owned program (Path.outputPath packagePath outDir) c package owners ∧
      ∀ (path id : String) (m : Module) (d : Declaration) (link : TypeLink),
        package.modules.get? path = some m → m.declarations.get? id = some d → link ∈ d.body.links →
        (∃ s, RenderedFor program c link s) ∧
        ∀ target, package.typeDeclaration.get? link.key = some target →
          ∃ (n : Nat) (owner : SymbolId) (t : TypeId) (found : Declaration),
            target = toString n ∧ owners[n]? = some ⟨owner, some t⟩ ∧
            t.key = link.key ∧ package.declaration? target = some found ∧
            ∀ s before u, RenderedAt program c link s before u →
              (declaresType (c.bindings.kind? s) → c.declared[s]? = some t) ∧
              (owner = s ↔ ∃ m : Nat, owners[m]? = some ⟨s, some t⟩ ∧
                Extraction.IsLast owners link.key m) ∧
              (owner = s → link.name = withoutArgs (before.calledBy u found.name)) := by
  let e := (collected name outDir packagePath program).1
  let c := (collected name outDir packagePath program).2
  have linked : Extraction.Linked program (Path.outputPath packagePath outDir) e c :=
    (Extraction.keeps_linked program (Path.outputPath packagePath outDir)).visitAll _ _
      (Extraction.linked_empty program name outDir packagePath)
  have result : (Package.empty name outDir).addProgram packagePath program =
      e.package.linked (e.package.edgesOf e.stars) := resolve_eq _ _ linked.valid.keyed
  dsimp only
  rw [result]
  obtain ⟨owners, collected, -⟩ := linked.owned
  have owned : Extraction.Owned program (Path.outputPath packagePath outDir) c
      (e.package.linked (e.package.edgesOf e.stars)) owners :=
    collected.of_same rfl rfl fun id d found => declaration?_linked _ found
  refine ⟨owners, owned, fun path id m d link there listed shown => ⟨?_, fun target leads => ?_⟩⟩
  · rw [get?_modules_linked] at there
    obtain ⟨old, before, rfl⟩ := Option.map_eq_some_iff.mp there
    rw [get?_linkedModule] at listed
    obtain ⟨d, known, rfl⟩ := Option.map_eq_some_iff.mp listed
    exact linked.traced path old id d before known link shown
  · obtain ⟨n, last, rfl⟩ := (owned.types _ _).mp leads
    obtain ⟨owner, t, here, key⟩ := last.declares
    obtain ⟨home, found, -, stored, made⟩ := owned.made n _ here
    refine ⟨n, owner, t, found, rfl, here, key, stored, fun s before u rendered => ⟨?_, ?_, ?_⟩⟩
    · intro declares
      rcases rendered.key with ⟨v, known, own⟩ | ⟨none, _⟩
      · exact known.trans (congrArg some (TypeId.key_injective (own.symm.trans key.symm)))
      · rw [declaresType_extends rendered.later.bindings none] at declares
        cases declares
    · constructor
      · rintro rfl
        exact ⟨n, here, last⟩
      · rintro ⟨m, there, again⟩
        rw [again.unique last, here] at there
        cases there
        rfl
    · rintro rfl
      obtain ⟨_, _, looked, _, _, _, _, _, _⟩ := made
      have top := (Bindings.named_ofProgram program).topLevel_of_lookup looked
      rw [rendered.name]
      exact typeName_of_topLevel rendered.shown (top.extends rendered.reached.bindings)

open Syntax in
/-- An interface `B` and an alias `A` of it, a class `C`, and constants `x` of type `B` and `y` with
the value `C`, all exported. -/
def aliased : Program :=
  let item (decl : Decl) : Item := ⟨0, 0, none, {}, .exportDecl decl⟩
  let constant (name : String) (type : Option TypeExpr) (value : Expr) : Decl :=
    .variableList true [⟨.ident name false type, some value, ""⟩]
  let b : TypeExpr := .reference (.ident "B") []
  { files := #[⟨⟨"/a.ts", #[], [item (.interface ⟨"B", [], [], []⟩), item (.typeAlias ⟨"A", [], b⟩),
      item (.classDecl "C" ⟨[], none, [], []⟩), item (constant "x" (some b) .null),
      item (constant "y" none (.ident "C"))]⟩, "/a.ts", true⟩] }

/-- The named types of a declaration. -/
def linksIn (p : Package) (path id : String) : Option (List TypeLink) :=
  ((p.modules.get? path).bind (·.declarations.get? id)).map (·.body.links)

set_option maxRecDepth 20000 in
theorem aliased_result :
    (fun p : Package => (p.linksIn "lib/a.js" "3", (p.declarationForType? "14").map (·.name),
      p.linksIn "lib/a.js" "4", (p.declarationForType? "16").map (·.name),
      p.typeDeclaration.get? "16"))
      ((Package.empty "p" "lib").addProgram "/" aliased) =
    (some [⟨"B", "14"⟩], some "A", some [⟨"typeof C", "16"⟩], some "C", some "2") := by
  cbv

set_option maxRecDepth 20000 in
theorem aliased_collected :
    (fun c : Checker => (c.declared[(⟨2⟩ : SymbolId)]?, c.shownSymbol? ⟨17⟩, c.typeName ⟨17⟩))
      (collected "p" "lib" "/" aliased).2 = (some ⟨16⟩, some ⟨2⟩, "typeof C") := by
  cbv

set_option maxRecDepth 20000 in
theorem aliased_named (space : Space) :
    (Bindings.ofProgram aliased).lookup ⟨0⟩ none space "C" = some ⟨2⟩ := by
  cases space <;> cbv

/-- The type of `y` leads to the declaration of `C`, and is called by its name. -/
theorem aliased_value_links :
    let package := (Package.empty "p" "lib").addProgram "/" aliased
    let c := (collected "p" "lib" "/" aliased).2
    package.typeDeclaration.get? "16" = some "2" ∧
    RenderedAt aliased c ⟨"typeof C", "16"⟩ ⟨2⟩ c ⟨17⟩ ∧
    ∃ owners, Extraction.Owned aliased (Path.outputPath "/" "lib") c package owners ∧
      ∃ (n : Nat) (found : Declaration), Extraction.IsLast owners "16" n ∧
        owners[n]? = some ⟨⟨2⟩, some ⟨16⟩⟩ ∧ package.declaration? "2" = some found ∧
        found.name = "C" ∧ "typeof C" = withoutArgs (c.calledBy ⟨17⟩ found.name) := by
  have result := aliased_result
  simp only [Prod.mk.injEq] at result
  obtain ⟨_, _, shown, called, leads⟩ := result
  have state := aliased_collected
  simp only [Prod.mk.injEq] at state
  obtain ⟨declared, symbol, name⟩ := state
  obtain ⟨d, present, links⟩ := Option.map_eq_some_iff.mp shown
  obtain ⟨m, there, listed⟩ := Option.bind_eq_some_iff.mp present
  have reached : Reached aliased (collected "p" "lib" "/" aliased).2 := Check.kept _ _ _
  have rendered : RenderedAt aliased (collected "p" "lib" "/" aliased).2 ⟨"typeof C", "16"⟩ ⟨2⟩
      (collected "p" "lib" "/" aliased).2 ⟨17⟩ :=
    ⟨reached, Later.refl _, symbol, name.symm, Or.inl ⟨⟨16⟩, declared, rfl⟩⟩
  have inside : (⟨"typeof C", "16"⟩ : TypeLink) ∈ d.body.links := links ▸ List.mem_singleton_self _
  obtain ⟨owners, owned, all⟩ := typeDeclaration_sound "p" "lib" "/" aliased
  obtain ⟨n, owner, t, found, target, here, key, stored, every⟩ :=
    (all _ _ m d _ there listed inside).2 "2" leads
  obtain ⟨_, own, names⟩ := every _ _ _ rendered
  have last : Extraction.IsLast owners "16" n := by
    obtain ⟨n', last, same⟩ := (owned.types _ _).mp leads
    rwa [Nat.repr_injective (target.symm.trans same)]
  have foundName : found.name = "C" := by
    have asked : ((Package.empty "p" "lib").addProgram "/" aliased).declarationForType? "16" =
        some found := Option.bind_eq_some_iff.mpr ⟨"2", leads, stored⟩
    rw [asked] at called
    exact Option.some.inj called
  have same : owner = ⟨2⟩ := by
    obtain ⟨_, d', _, again, made⟩ := owned.made n _ here
    cases (target ▸ stored).symm.trans again
    obtain ⟨root, _, named, _, _, _, _, _, _⟩ := made
    obtain ⟨rfl, _⟩ := Prod.mk.inj (List.mem_singleton.mp root)
    rw [foundName, aliased_named] at named
    exact (Option.some.inj named).symm
  subst same
  obtain rfl : t = ⟨16⟩ := TypeId.key_injective key
  exact ⟨leads, rendered, owners, owned, n, found, last, here, stored, foundName, names rfl⟩

/-- The key of `B` leads to the declaration of `A`, which declares the same type and comes later. The
type of `y` has no declaration of its name. -/
theorem aliased_links_astray :
    let p := (Package.empty "p" "lib").addProgram "/" aliased
    (p.linksIn "lib/a.js" "3" = some [⟨"B", "14"⟩] ∧
      (p.declarationForType? "14").map (·.name) = some "A") ∧
    (p.linksIn "lib/a.js" "4" = some [⟨"typeof C", "16"⟩] ∧
      (p.declarationForType? "16").map (·.name) = some "C") := by
  have result := aliased_result
  simp only [Prod.mk.injEq] at result
  obtain ⟨byName, other, byValue, own, _⟩ := result
  exact ⟨⟨byName, other⟩, byValue, own⟩

end Package

end ApiDocs
