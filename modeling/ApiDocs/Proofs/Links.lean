import ApiDocs.Document.Links

set_option autoImplicit false

/-!
What resolving a package does to it: which edges a module ends up with, where each of them points,
and which back links a declaration collects. The passes write link by link into the maps that they
were read from; here the result is given module by module.
-/

namespace ApiDocs

namespace Package

/-- Every declaration is stored under its own id, and that is not the empty one. -/
def Keyed (p : Package) : Prop :=
  ∀ path m, (path, m) ∈ p.modules.entries →
    ∀ id d, (id, d) ∈ m.declarations.entries → d.id = id ∧ id ≠ ""

/-- The edges that a star export stands for, one for each declaration of its source. -/
def starEdges (p : Package) (star : StarExport) : List Reexport :=
  match p.modules.get? star.source with
  | none => []
  | some source => source.declarations.values.map fun d =>
      { name := d.name, sourceName := d.name, path := star.source }

/-- The edges of a module, then those of its star exports in order. -/
def edgesOf (p : Package) (stars : List StarExport) (path : String) (m : Module) : List Reexport :=
  m.reexports ++ (stars.filter (·.module = path)).flatMap p.starEdges

/-- The declaration that an edge names: the first of that name in the module at its path. -/
def leadsTo? (p : Package) (edge : Reexport) : Option Declaration :=
  (p.modules.get? edge.path).bind (·.declarationNamed? edge.sourceName)

/-- The id that an edge is to be given: none if it has one, or leads nowhere. -/
def newId? (p : Package) (edge : Reexport) : Option String :=
  if edge.isResolved then none else (p.leadsTo? edge).map (·.id)

def linkedEdge (p : Package) (edge : Reexport) : Reexport :=
  { edge with id := (p.newId? edge).getD edge.id }

/-- The back links of a declaration: one for each edge that is given its id, in the order of the
modules and then of their edges. -/
def backLinks (p : Package) (edges : String → Module → List Reexport) (target id : String) :
    List ExportedIn :=
  p.modules.entries.flatMap fun (path, m) =>
    ((edges path m).filter fun e => e.path = target ∧ p.newId? e = some id).map fun e =>
      ⟨path, e.name⟩

/-- The package with other edges. -/
def withEdges (p : Package) (edges : String → Module → List Reexport) : Package :=
  { p with modules := p.modules.mapWithKey fun path m => { m with reexports := edges path m } }

/-- A declaration of the module at `path` with its back links. -/
def linkedDeclaration (p : Package) (edges : String → Module → List Reexport) (path : String)
    (d : Declaration) : Declaration :=
  { d with exportedIn := d.exportedIn ++ p.backLinks edges path d.id }

def linkedModule (p : Package) (edges : String → Module → List Reexport) (path : String)
    (m : Module) : Module :=
  { m with
    reexports := (edges path m).map p.linkedEdge
    declarations := m.declarations.mapWithKey fun _ d => p.linkedDeclaration edges path d }

/-- The package with every edge linked and every back link added. -/
def linked (p : Package) (edges : String → Module → List Reexport) : Package :=
  { p with modules := p.modules.mapWithKey (p.linkedModule edges) }

/-! ### Star exports -/

theorem expandStar_eq (p : Package) (star : StarExport) :
    p.expandStar star = p.withEdges fun path m =>
      m.reexports ++ if path = star.module then p.starEdges star else [] := by
  unfold expandStar starEdges withEdges
  cases p.modules.get? star.source with
  | none => simp only [ite_self, List.append_nil, OrdMap.mapWithKey_id]
  | some source =>
      simp only [OrdMap.modify_eq_mapWithKey]
      congr 1
      apply OrdMap.mapWithKey_congr
      intro path m _
      split
      · rfl
      · rw [List.append_nil]

theorem starEdges_withEdges (p : Package) (edges : String → Module → List Reexport)
    (star : StarExport) : (p.withEdges edges).starEdges star = p.starEdges star := by
  unfold starEdges withEdges
  rw [OrdMap.get?_mapWithKey]
  cases p.modules.get? star.source <;> rfl

theorem withEdges_withEdges (p : Package) (first second : String → Module → List Reexport) :
    (p.withEdges first).withEdges second =
      p.withEdges fun path m => second path { m with reexports := first path m } := by
  simp only [withEdges, OrdMap.mapWithKey_mapWithKey]

/-- Star exports add their edges at the end, in the order of the list. -/
theorem expandStars_eq (p : Package) (stars : List StarExport) :
    p.expandStars stars = p.withEdges (p.edgesOf stars) := by
  induction stars generalizing p with
  | nil =>
      change p = p.withEdges fun _ m => m.reexports ++ []
      simp only [List.append_nil, withEdges, OrdMap.mapWithKey_id]
  | cons star rest ih =>
      have later : (p.expandStar star).starEdges = p.starEdges := by
        funext other
        rw [expandStar_eq, starEdges_withEdges]
      change (p.expandStar star).expandStars rest = _
      rw [ih]
      unfold edgesOf
      rw [later, expandStar_eq, withEdges_withEdges]
      congr 1
      funext path m
      by_cases here : star.module = path
      · simp [here]
      · have there : ¬ path = star.module := fun h => here h.symm
        simp [here, there]

end Package

/-! ### Links -/

/-- What one link does to the module at a path. -/
def Module.withLink (path : String) (m : Module) (link : Package.Link) : Module :=
  { m with
    reexports :=
      if path = link.module then m.reexports.modify link.edge fun e =>
        { e with id := link.declaration }
      else m.reexports
    declarations := m.declarations.mapWithKey fun id d =>
      if path = link.target ∧ id = link.declaration then
        { d with exportedIn := d.exportedIn ++ [⟨link.module, link.name⟩] }
      else d }

namespace Package

theorem applyLink_eq (p : Package) (link : Link) :
    p.applyLink link =
      { p with modules := p.modules.mapWithKey fun path m => m.withLink path link } := by
  unfold applyLink
  simp only [OrdMap.modify_eq_mapWithKey, OrdMap.mapWithKey_mapWithKey]
  congr 1
  apply OrdMap.mapWithKey_congr
  intro path m _
  unfold Module.withLink
  by_cases target : path = link.target
  · simp only [target, ↓reduceIte, true_and]
    split <;> rfl
  · simp only [target, ↓reduceIte, false_and, OrdMap.mapWithKey_id]
    split <;> rfl

theorem foldl_applyLink (p : Package) (links : List Link) :
    links.foldl applyLink p =
      { p with modules := p.modules.mapWithKey fun path m => links.foldl (Module.withLink path) m }
      := by
  induction links generalizing p with
  | nil => simp only [List.foldl_nil, OrdMap.mapWithKey_id]
  | cons link rest ih =>
      rw [List.foldl_cons, ih, applyLink_eq]
      simp only [OrdMap.mapWithKey_mapWithKey, List.foldl_cons]

end Package

namespace Module

/-- Links write into the edges of a module, and append to its declarations. -/
theorem foldl_withLink (path : String) (m : Module) (links : List Package.Link) :
    links.foldl (withLink path) m =
      { m with
        reexports := (links.filter (path = ·.module)).foldl
          (fun edges link => edges.modify link.edge fun e => { e with id := link.declaration })
          m.reexports
        declarations := m.declarations.mapWithKey fun id d =>
          { d with exportedIn := d.exportedIn ++
            (links.filter fun link => path = link.target ∧ id = link.declaration).map fun link =>
              ⟨link.module, link.name⟩ } } := by
  induction links generalizing m with
  | nil => simp [OrdMap.mapWithKey_id]
  | cons link rest ih =>
      rw [List.foldl_cons, ih]
      unfold withLink
      simp only [OrdMap.mapWithKey_mapWithKey, Module.mk.injEq, true_and]
      constructor
      · apply OrdMap.mapWithKey_congr
        intro id d _
        by_cases written : path = link.target ∧ id = link.declaration
        · simp [written.1, written.2]
        · simp only [List.filter_cons, written, ↓reduceIte, decide_false, Bool.false_eq_true]
      · by_cases here : path = link.module
        · simp [here]
        · simp [here]

end Module

namespace Package

theorem link?_eq (p : Package) (path : String) (edge : Nat) (reexport : Reexport) :
    p.link? path edge reexport =
      (p.newId? reexport).map fun id => ⟨path, edge, reexport.name, reexport.path, id⟩ := by
  unfold link? newId? leadsTo?
  split
  · rfl
  · cases p.modules.get? reexport.path with
    | none => rfl
    | some target =>
        cases found : target.declarationNamed? reexport.sourceName <;> simp [found]

/-- The links of the edges of one module. -/
def linksOf (p : Package) (path : String) (edges : List Reexport) (start : Nat) : List Link :=
  (edges.zipIdx start).filterMap fun (reexport, edge) => p.link? path edge reexport

theorem linksOf_cons (p : Package) (path : String) (edge : Reexport) (rest : List Reexport)
    (start : Nat) :
    p.linksOf path (edge :: rest) start =
      ((p.newId? edge).map fun id => ⟨path, start, edge.name, edge.path, id⟩).toList ++
        p.linksOf path rest (start + 1) := by
  unfold linksOf
  rw [List.zipIdx_cons, List.filterMap_cons]
  simp only [link?_eq]
  cases p.newId? edge <;> rfl

theorem module_of_mem_linksOf (p : Package) (path : String) (edges : List Reexport) (start : Nat) :
    ∀ link ∈ p.linksOf path edges start, link.module = path := by
  induction edges generalizing start with
  | nil => intro link inside; cases inside
  | cons edge rest ih =>
      intro link inside
      rw [linksOf_cons, List.mem_append] at inside
      rcases inside with own | later
      · obtain ⟨id, _, rfl⟩ := Option.map_eq_some_iff.mp (Option.mem_toList.mp own)
        rfl
      · exact ih (start + 1) link later

/-- Writing the links of a module into its edges gives every edge its id. The edges before `start`
are those that have been passed. -/
theorem foldl_linksOf (p : Package) (path : String) (passed edges : List Reexport) :
    (p.linksOf path edges passed.length).foldl
        (fun edges link => edges.modify link.edge fun e => { e with id := link.declaration })
        (passed ++ edges) = passed ++ edges.map p.linkedEdge := by
  induction edges generalizing passed with
  | nil => rfl
  | cons edge rest ih =>
      have next : (passed ++ [p.linkedEdge edge]).length = passed.length + 1 := by simp
      have tail := ih (passed ++ [p.linkedEdge edge])
      rw [next, List.append_assoc, List.append_assoc] at tail
      rw [linksOf_cons, List.foldl_append, List.map_cons]
      refine Eq.trans (congrArg (fun edges => List.foldl _ edges _) ?_) tail
      unfold linkedEdge
      cases p.newId? edge with
      | none => rfl
      | some id =>
          have inside : passed.length < (passed ++ edge :: rest).length := by simp
          change (passed ++ edge :: rest).modify passed.length _ = _
          rw [List.modify_eq_take_cons_drop inside]
          simp

/-- The back links that the links of a module make. -/
theorem filter_linksOf (p : Package) (path target id : String) (edges : List Reexport)
    (start : Nat) :
    ((p.linksOf path edges start).filter fun link =>
        target = link.target ∧ id = link.declaration).map
        (fun link => (⟨link.module, link.name⟩ : ExportedIn)) =
      (edges.filter fun e => e.path = target ∧ p.newId? e = some id).map fun e => ⟨path, e.name⟩ := by
  induction edges generalizing start with
  | nil => rfl
  | cons edge rest ih =>
      rw [linksOf_cons, List.filter_append, List.map_append, ih, List.filter_cons]
      cases found : p.newId? edge with
      | none => simp
      | some new =>
          by_cases hit : edge.path = target ∧ new = id
          · simp [hit.1, hit.2]
          · have miss : ¬ (target = edge.path ∧ id = new) := fun h => hit ⟨h.1.symm, h.2.symm⟩
            simp [hit, miss]

/-- Of all links, those that start at a module are the links of its edges. -/
theorem filter_links (p : Package) (path : String) (m : Module)
    (inside : (path, m) ∈ p.modules.entries) :
    p.links.filter (path = ·.module) = p.linksOf path m.reexports 0 := by
  have own : ∀ entry : String × Module, (p.linksOf entry.1 entry.2.reexports 0).filter
      (path = ·.module) = if entry.1 = path then p.linksOf entry.1 entry.2.reexports 0 else [] := by
    intro entry
    have starts := module_of_mem_linksOf p entry.1 entry.2.reexports 0
    split
    · rename_i same
      refine List.filter_eq_self.mpr fun link hit => ?_
      simp [starts link hit, same]
    · rename_i differs
      refine List.filter_eq_nil_iff.mpr fun link hit => ?_
      simp [starts link hit, Ne.symm differs]
  have spread : p.links = p.modules.entries.flatMap fun entry =>
      p.linksOf entry.1 entry.2.reexports 0 := rfl
  rw [spread, List.filter_flatMap]
  simp only [own]
  exact OrdMap.flatMap_entry p.modules path m (fun entry =>
    p.linksOf entry.1 entry.2.reexports 0) inside

theorem backLinks_links (p : Package) (target id : String) :
    (p.links.filter fun link => target = link.target ∧ id = link.declaration).map
        (fun link => (⟨link.module, link.name⟩ : ExportedIn)) =
      p.backLinks (fun _ m => m.reexports) target id := by
  have spread : p.links = p.modules.entries.flatMap fun entry =>
      p.linksOf entry.1 entry.2.reexports 0 := rfl
  rw [spread, List.filter_flatMap, List.map_flatMap]
  simp only [filter_linksOf]
  rfl

/-- Linking gives every edge its id and every declaration its back links. -/
theorem link_eq (p : Package) (keyed : p.Keyed) :
    p.link = p.linked fun _ m => m.reexports := by
  unfold link linked linkedModule linkedDeclaration
  rw [foldl_applyLink]
  congr 1
  apply OrdMap.mapWithKey_congr
  intro path m inside
  rw [Module.foldl_withLink, filter_links p path m inside]
  have written := foldl_linksOf p path [] m.reexports
  simp only [List.nil_append, List.length_nil] at written
  rw [written]
  congr 1
  apply OrdMap.mapWithKey_congr
  intro id d stored
  rw [backLinks_links, (keyed path m inside id d stored).1]

/-! ### Resolving a package -/

theorem newId?_withEdges (p : Package) (edges : String → Module → List Reexport) :
    (p.withEdges edges).newId? = p.newId? := by
  funext edge
  unfold newId? leadsTo? withEdges
  rw [OrdMap.get?_mapWithKey]
  cases p.modules.get? edge.path <;> rfl

theorem keyed_withEdges (p : Package) (edges : String → Module → List Reexport)
    (keyed : p.Keyed) : (p.withEdges edges).Keyed := by
  intro path m inside id d stored
  obtain ⟨entry, old, same⟩ := List.mem_map.mp inside
  obtain ⟨rfl, rfl⟩ := Prod.mk.inj same
  exact keyed entry.1 entry.2 old id d stored

theorem linked_withEdges (p : Package) (edges : String → Module → List Reexport) :
    (p.withEdges edges).linked (fun _ m => m.reexports) = p.linked edges := by
  have back : (p.withEdges edges).backLinks (fun _ m => m.reexports) = p.backLinks edges := by
    funext target id
    unfold backLinks
    rw [newId?_withEdges]
    unfold withEdges
    rw [OrdMap.entries_mapWithKey, List.flatMap_map]
  have link : (p.withEdges edges).linkedEdge = p.linkedEdge := by
    funext edge
    unfold linkedEdge
    rw [newId?_withEdges]
  unfold linked linkedModule linkedDeclaration
  rw [back, link]
  simp only [withEdges, OrdMap.mapWithKey_mapWithKey]

theorem leadsTo?_linked (p : Package) (edges : String → Module → List Reexport)
    (edge : Reexport) :
    (p.linked edges).leadsTo? edge =
      (p.leadsTo? edge).map (p.linkedDeclaration edges edge.path) := by
  unfold leadsTo? linked
  rw [OrdMap.get?_mapWithKey]
  cases p.modules.get? edge.path with
  | none => rfl
  | some m =>
      simp only [Option.map_some, Option.bind_some, Module.declarationNamed?, OrdMap.values,
        linkedModule, OrdMap.entries_mapWithKey, List.find?_map, Option.map_map]
      rfl

theorem id_ne_of_leadsTo? {p : Package} (keyed : p.Keyed) {edge : Reexport} {d : Declaration}
    (found : p.leadsTo? edge = some d) : d.id ≠ "" := by
  obtain ⟨m, target, named⟩ := Option.bind_eq_some_iff.mp found
  have inside := (OrdMap.get?_eq_some_iff p.modules edge.path m).mp target
  obtain ⟨id, stored⟩ := (OrdMap.mem_values_iff _ _).mp (List.mem_of_find?_eq_some named)
  obtain ⟨same, nonempty⟩ := keyed edge.path m inside id d stored
  rw [same]
  exact nonempty

/-- An edge that has been linked is not linked again: it has an id, or leads nowhere. -/
theorem newId?_linkedEdge (p : Package) (keyed : p.Keyed)
    (edges : String → Module → List Reexport) (edge : Reexport) :
    (p.linked edges).newId? (p.linkedEdge edge) = none := by
  cases found : p.newId? edge with
  | some id =>
      have written : (p.linkedEdge edge).id = id := by simp [linkedEdge, found]
      have nonempty : id ≠ "" := by
        unfold newId? at found
        split at found
        · cases found
        · obtain ⟨d, leads, same⟩ := Option.map_eq_some_iff.mp found
          exact same ▸ id_ne_of_leadsTo? keyed leads
      have resolved : (p.linkedEdge edge).isResolved = true := by
        simpa [Reexport.isResolved, written] using nonempty
      simp [newId?, resolved]
  | none =>
      have same : p.linkedEdge edge = edge := by simp [linkedEdge, found]
      rw [same]
      unfold newId? at found ⊢
      rw [leadsTo?_linked, Option.map_map]
      split
      · rfl
      · rename_i unresolved
        rw [if_neg unresolved, Option.map_eq_none_iff] at found
        rw [found]
        rfl

theorem links_linked (p : Package) (keyed : p.Keyed)
    (edges : String → Module → List Reexport) : (p.linked edges).links = [] := by
  unfold links
  rw [List.flatMap_eq_nil_iff]
  rintro ⟨path, m⟩ inside
  rw [List.filterMap_eq_nil_iff]
  rintro ⟨edge, i⟩ placed
  obtain ⟨entry, _, same⟩ := List.mem_map.mp inside
  obtain ⟨rfl, rfl⟩ := Prod.mk.inj same
  obtain ⟨old, _, rfl⟩ := List.mem_map.mp (List.fst_mem_of_mem_zipIdx placed)
  change (p.linked edges).link? entry.1 i (p.linkedEdge old) = none
  rw [link?_eq, newId?_linkedEdge p keyed, Option.map_none]

theorem resolve_eq (p : Package) (stars : List StarExport) (keyed : p.Keyed) :
    p.resolve stars = p.linked (p.edgesOf stars) := by
  unfold resolve
  rw [expandStars_eq, link_eq _ (keyed_withEdges p _ keyed), linked_withEdges]

/-- Resolving a package gives every module the edges of its star exports, every edge without id the
declaration that it names, and every declaration one back link for each edge that was given its id.
All else stays, and linking again changes nothing. -/
theorem resolve_eq_linked (p : Package) (stars : List StarExport) (keyed : p.Keyed) :
    p.resolve stars = p.linked (p.edgesOf stars) ∧ (p.resolve stars).link = p.resolve stars := by
  refine ⟨resolve_eq p stars keyed, ?_⟩
  rw [resolve_eq p stars keyed]
  unfold link
  rw [links_linked p keyed]
  rfl

/-- Two modules that re-export each other, and themselves: a repeated star, two declarations of one
name, an edge with an id, one to a missing name and one to a missing module. -/
def mutualReexports : Package :=
  let shown (id name : String) : String × Declaration :=
    (id, { id, name, documentation := "", body := .variable (.plain "number") "1" })
  { Package.empty "pkg" "lib" with
    modules := .ofList [
      ("a.js",
        { name := "a", sourcePath := "a.ts", outPath := "a.js",
          declarations := .ofList [shown "0" "X", shown "1" "X"],
          reexports := [⟨"Y", "Z", "b.js", ""⟩, ⟨"Old", "X", "a.js", "1"⟩, ⟨"W", "W", "a.js", ""⟩] }),
      ("b.js",
        { name := "b", sourcePath := "b.ts", outPath := "b.js",
          declarations := .ofList [shown "2" "Z"], reexports := [⟨"Q", "Q", "missing.js", ""⟩] })] }

theorem mutualReexports_keyed : mutualReexports.Keyed := by
  have all : mutualReexports.modules.entries.all fun e =>
      e.2.declarations.entries.all fun d => d.2.id = d.1 ∧ d.1 ≠ "" := by decide
  intro path m inside id d stored
  have one := List.all_eq_true.mp (List.all_eq_true.mp all (path, m) inside) (id, d) stored
  simpa using one

theorem mutualReexports_resolve :
    let stars := [⟨"b.js", "a.js"⟩, ⟨"a.js", "a.js"⟩, ⟨"b.js", "a.js"⟩, ⟨"b.js", "missing.js"⟩]
    (mutualReexports.resolve stars = mutualReexports.linked (mutualReexports.edgesOf stars) ∧
      (mutualReexports.resolve stars).link = mutualReexports.resolve stars) ∧
    (mutualReexports.resolve stars).modules.values.map (·.reexports.map (·.id)) =
      [["2", "1", "", "0", "0"], ["", "0", "0", "0", "0"]] :=
  ⟨resolve_eq_linked mutualReexports _ mutualReexports_keyed, by decide⟩

end Package

end ApiDocs
