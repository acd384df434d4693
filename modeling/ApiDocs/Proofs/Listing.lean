import Mathlib.Data.Finset.Card
import Mathlib.Logic.Relation
import ApiDocs.Proofs.Exports
import ApiDocs.Proofs.Members.Rules

set_option autoImplicit false

/-!
The exports that are listed for a file, compared with those that can be looked up. The walk that
lists them visits every file that wildcard exports lead to, each once. A look-up goes the same ways,
but for the default export it stays in the file. So the two agree on every name except for a default
export behind a wildcard.
-/

namespace ApiDocs

open Syntax

namespace Bindings

section

variable (b : Bindings) (p : Program)

/-- A wildcard export of one file leads to another. -/
def StarsTo (file target : FileId) : Prop :=
  ∃ specifier ∈ (b.scope file).stars, p.resolveModule? file specifier = some (.file target)

/-- The files in which a look-up of an export of a file may get to. The default export passes no
wildcard. -/
inductive Searches (name : String) : FileId → FileId → Prop where
  | itself (file : FileId) : Searches name file file
  | star {file target found : FileId} (named : name ≠ defaultName) (leads : b.StarsTo p file target)
      (further : Searches name target found) : Searches name file found

/-- A file has an entry for a value of its own under a name. -/
def Lists (file : FileId) (name : String) : Prop := name ∈ (b.scope file).exports.values.keys

/-- A default export that a file does not have, and that a file has which its wildcard exports lead
to. -/
def DefaultBehindStar (file : FileId) (name : String) : Prop :=
  name = defaultName ∧ ¬ b.Lists file name ∧
    ∃ g, Relation.ReflTransGen (b.StarsTo p) file g ∧ b.Lists g name

/-- The files that the wildcard exports of a file lead to, in the order of the exports. -/
def starTargets (file : FileId) : List FileId :=
  (b.scope file).stars.filterMap fun specifier =>
    match p.resolveModule? file specifier with
    | some (.file target) => some target
    | _ => none

end

variable {b : Bindings} {p : Program}

theorem mem_starTargets {file target : FileId} :
    target ∈ b.starTargets p file ↔ b.StarsTo p file target := by
  have leads : ∀ specifier, (match p.resolveModule? file specifier with
      | some (.file target) => some target
      | _ => none) = some target ↔ p.resolveModule? file specifier = some (.file target) := by
    intro specifier
    cases p.resolveModule? file specifier with
    | none => simp
    | some found => cases found <;> simp
  simp only [starTargets, StarsTo, List.mem_filterMap, leads]

theorem searches_iff {name : String} {file found : FileId} :
    b.Searches p name file found ↔
      found = file ∨ (name ≠ defaultName ∧ Relation.ReflTransGen (b.StarsTo p) file found) := by
  constructor
  · intro searched
    induction searched with
    | itself => exact Or.inl rfl
    | star named leads _ ih =>
        right
        rcases ih with same | ⟨_, further⟩
        · rw [same]
          exact ⟨named, .single leads⟩
        · exact ⟨named, .head leads further⟩
  · rintro (same | ⟨named, reached⟩)
    · rw [same]
      exact .itself file
    · induction reached using Relation.ReflTransGen.head_induction_on with
      | refl => exact .itself found
      | head leads _ ih => exact .star named leads ih

/-! ### The walk -/

/-- What a walk that starts from some files adds to those that were visited before: it gets to all of
them and to all that wildcard exports of new ones lead to, and to nothing else. -/
structure Walks (b : Bindings) (p : Program) (starts seen visited : List FileId) : Prop where
  kept : ∀ g ∈ seen, g ∈ visited
  started : ∀ start ∈ starts, start ∈ visited
  closed : ∀ g ∈ visited, g ∉ seen → ∀ target, b.StarsTo p g target → target ∈ visited
  reached : ∀ g ∈ visited, g ∈ seen ∨
    ∃ start ∈ starts, Relation.ReflTransGen (b.StarsTo p) start g

theorem Walks.append {first rest seen between visited : List FileId}
    (one : b.Walks p first seen between) (two : b.Walks p rest between visited) :
    b.Walks p (first ++ rest) seen visited where
  kept g listed := two.kept g (one.kept g listed)
  started start listed := by
    rcases List.mem_append.mp listed with early | late
    · exact two.kept start (one.started start early)
    · exact two.started start late
  closed g listed new target leads := by
    by_cases early : g ∈ between
    · exact two.kept target (one.closed g early new target leads)
    · exact two.closed g listed early target leads
  reached g listed := by
    have more : ∀ starts : List FileId, (∀ x ∈ starts, x ∈ first ++ rest) →
        (∃ start ∈ starts, Relation.ReflTransGen (b.StarsTo p) start g) →
        ∃ start ∈ first ++ rest, Relation.ReflTransGen (b.StarsTo p) start g := by
      rintro starts within ⟨start, here, way⟩
      exact ⟨start, within start here, way⟩
    rcases two.reached g listed with early | late
    · rcases one.reached g early with before | found
      · exact Or.inl before
      · exact Or.inr (more first (fun _ => List.mem_append_left rest) found)
    · exact Or.inr (more rest (fun _ => List.mem_append_right first) late)

/-- Walks from one file after the other. -/
theorem walks_foldl {walk : List FileId → FileId → List FileId} (starts seen : List FileId)
    (each : ∀ sofar start, (∀ g ∈ seen, g ∈ sofar) → start ∈ starts →
      b.Walks p [start] sofar (walk sofar start)) :
    b.Walks p starts seen (starts.foldl walk seen) := by
  induction starts generalizing seen with
  | nil =>
      exact ⟨fun _ listed => listed, nofun, fun g listed new => absurd listed new,
        fun g listed => Or.inl listed⟩
  | cons start rest ih =>
      have one := each seen start (fun _ listed => listed) List.mem_cons_self
      have two := ih (walk seen start) fun sofar next kept later =>
        each sofar next (fun g listed => kept g (one.kept g listed)) (List.mem_cons_of_mem _ later)
      exact one.append two

theorem exportingFiles_succ (n : Nat) (seen : List FileId) (file : FileId) :
    b.exportingFiles p (n + 1) seen file =
      if file ∈ seen then seen
      else (b.starTargets p file).foldl (b.exportingFiles p n) (seen ++ [file]) := by
  unfold exportingFiles starTargets
  rw [List.foldl_filterMap]
  simp only [List.contains_iff_mem]
  congr 1
  congr 1
  funext sofar specifier
  cases p.resolveModule? file specifier with
  | none => rfl
  | some found => cases found <;> rfl

/-- The number of files that have not been visited. -/
def unvisited (b : Bindings) (seen : List FileId) : Nat :=
  ((Finset.range b.files.size).filter fun i => (⟨i⟩ : FileId) ∉ seen).card

theorem unvisited_le (b : Bindings) (seen : List FileId) : b.unvisited seen ≤ b.files.size := by
  have all := Finset.card_filter_le (Finset.range b.files.size) fun i => (⟨i⟩ : FileId) ∉ seen
  rwa [Finset.card_range] at all

theorem unvisited_mono (b : Bindings) {seen sofar : List FileId} (kept : ∀ g ∈ seen, g ∈ sofar) :
    b.unvisited sofar ≤ b.unvisited seen := by
  apply Finset.card_le_card
  intro i listed
  simp only [Finset.mem_filter] at listed ⊢
  exact ⟨listed.1, fun here => listed.2 (kept _ here)⟩

/-- A visit to a file of the program leaves fewer. -/
theorem unvisited_lt {seen : List FileId} {file : FileId} (inside : file.index < b.files.size)
    (new : file ∉ seen) : b.unvisited (seen ++ [file]) < b.unvisited seen := by
  apply Finset.card_lt_card
  rw [Finset.ssubset_iff_of_subset]
  · refine ⟨file.index, ?_, ?_⟩
    · simp only [Finset.mem_filter, Finset.mem_range]
      exact ⟨inside, new⟩
    · simp
  · intro i listed
    simp only [Finset.mem_filter, List.mem_append, not_or] at listed ⊢
    exact ⟨listed.1, listed.2.1⟩

/-- A file that the program does not have leads nowhere. -/
theorem starTargets_of_outside {file : FileId} (outside : b.files.size ≤ file.index) :
    b.starTargets p file = [] := by
  have empty : b.scope file = {} := by
    simp [scope, Array.getElem?_eq_none outside]
  rw [starTargets, empty]
  rfl

/-- The depth of the walk is enough as long as it exceeds the number of files left. -/
theorem walks_exportingFiles {n : Nat} {seen : List FileId} (enough : b.unvisited seen < n)
    (file : FileId) : b.Walks p [file] seen (b.exportingFiles p n seen file) := by
  induction n generalizing seen file with
  | zero => omega
  | succ n ih =>
      rw [exportingFiles_succ]
      by_cases before : file ∈ seen
      · rw [if_pos before]
        refine ⟨fun _ listed => listed, ?_, fun g listed new => absurd listed new,
          fun g listed => Or.inl listed⟩
        intro start listed
        rwa [List.mem_singleton.mp listed]
      · rw [if_neg before]
        have inner : b.Walks p (b.starTargets p file) (seen ++ [file])
            ((b.starTargets p file).foldl (b.exportingFiles p n) (seen ++ [file])) := by
          by_cases inside : file.index < b.files.size
          · apply walks_foldl
            intro sofar start kept _
            have fewer := unvisited_lt inside before
            have same := b.unvisited_mono kept
            exact ih (by omega) start
          · rw [starTargets_of_outside (by omega)]
            exact walks_foldl [] _ nofun
        have here : file ∈ (b.starTargets p file).foldl (b.exportingFiles p n) (seen ++ [file]) :=
          inner.kept file (by simp)
        refine ⟨fun g listed => inner.kept g (List.mem_append_left _ listed), ?_, ?_, ?_⟩
        · intro start listed
          rwa [List.mem_singleton.mp listed]
        · intro g listed new target leads
          by_cases same : g = file
          · rw [same] at leads
            exact inner.started target (mem_starTargets.mpr leads)
          · exact inner.closed g listed (by simp [new, same]) target leads
        · intro g listed
          rcases inner.reached g listed with old | ⟨start, target, way⟩
          · rcases List.mem_append.mp old with seen | same
            · exact Or.inl seen
            · rw [List.mem_singleton.mp same]
              exact Or.inr ⟨file, List.mem_singleton_self file, .refl⟩
          · have first : b.StarsTo p file start := mem_starTargets.mp target
            exact Or.inr ⟨file, List.mem_singleton_self file, .head first way⟩

/-- The walk gets to exactly the files that wildcard exports lead to, in any number of steps and
around any cycles. -/
theorem mem_exportingFiles {file g : FileId} :
    g ∈ b.exportingFiles p (b.files.size + 1) [] file ↔
      Relation.ReflTransGen (b.StarsTo p) file g := by
  have some : b.unvisited [] < b.files.size + 1 := Nat.lt_succ_of_le (b.unvisited_le [])
  have walks := walks_exportingFiles (p := p) some file
  constructor
  · intro listed
    rcases walks.reached g listed with none | ⟨start, same, way⟩
    · cases none
    · rwa [List.mem_singleton.mp same] at way
  · intro reached
    induction reached with
    | refl => exact walks.started file (List.mem_singleton_self file)
    | tail _ leads ih => exact walks.closed _ ih List.not_mem_nil _ leads

/-! ### Names -/

/-- The names with more names behind them, each once. -/
def addNames (names more : List String) : List String :=
  more.foldl (fun names name => if names.contains name then names else names ++ [name]) names

theorem exportNames_eq (b : Bindings) (p : Program) (file : FileId) :
    b.exportNames p file = (b.exportingFiles p (b.files.size + 1) [] file).foldl
      (fun names id => addNames names (b.scope id).exports.values.keys) [] := rfl

theorem addNames_cons (names : List String) (first : String) (rest : List String) :
    addNames names (first :: rest) =
      addNames (if first ∈ names then names else names ++ [first]) rest := by
  simp only [addNames, List.foldl_cons, List.contains_iff_mem]

theorem nodup_addNames {names : List String} (more : List String) (distinct : names.Nodup) :
    (addNames names more).Nodup := by
  induction more generalizing names with
  | nil => exact distinct
  | cons first rest ih =>
      rw [addNames_cons]
      apply ih
      split
      · exact distinct
      · rename_i new
        rw [List.nodup_append]
        refine ⟨distinct, List.nodup_singleton first, ?_⟩
        intro name listed other last same
        rw [same, List.mem_singleton.mp last] at listed
        exact new listed

theorem mem_addNames {names more : List String} {name : String} :
    name ∈ addNames names more ↔ name ∈ names ∨ name ∈ more := by
  induction more generalizing names with
  | nil => simp [addNames]
  | cons first rest ih =>
      rw [addNames_cons, ih]
      split
      · grind
      · simp only [List.mem_append, List.mem_cons, List.not_mem_nil, or_false, or_assoc]

theorem nodup_foldl_addNames (files : List FileId) (keys : FileId → List String)
    {names : List String} (distinct : names.Nodup) :
    (files.foldl (fun names file => addNames names (keys file)) names).Nodup := by
  induction files generalizing names with
  | nil => exact distinct
  | cons file rest ih => exact ih (nodup_addNames (keys file) distinct)

theorem mem_foldl_addNames {files : List FileId} {keys : FileId → List String}
    {names : List String} {name : String} :
    name ∈ files.foldl (fun names file => addNames names (keys file)) names ↔
      name ∈ names ∨ ∃ file ∈ files, name ∈ keys file := by
  induction files generalizing names with
  | nil => simp
  | cons file rest ih =>
      rw [List.foldl_cons, ih, mem_addNames]
      simp only [List.mem_cons, exists_eq_or_imp, or_assoc]

theorem nodup_exportNames (b : Bindings) (p : Program) (file : FileId) :
    (b.exportNames p file).Nodup := nodup_foldl_addNames _ _ List.nodup_nil

/-- The names listed for a file are those that files have which wildcard exports lead to. -/
theorem mem_exportNames {file : FileId} {name : String} :
    name ∈ b.exportNames p file ↔
      ∃ g, Relation.ReflTransGen (b.StarsTo p) file g ∧ b.Lists g name := by
  rw [exportNames_eq, mem_foldl_addNames]
  simp only [List.not_mem_nil, false_or, mem_exportingFiles, Lists]

/-! ### Looking up -/

/-- What is found under a name is an entry of a file in which it is looked for. -/
theorem lists_of_followExport {n : Nat} {name : String} {file : FileId} {r : Referent}
    (found : b.followExport p n .value file name = some r) :
    ∃ g, b.Searches p name file g ∧ b.Lists g name := by
  induction n generalizing file with
  | zero => cases found
  | succ n ih =>
      unfold followExport at found
      split at found
      · rename_i s entry
        have key : (name, s) ∈ (b.scope file).exports.values.entries :=
          (OrdMap.get?_eq_some_iff _ _ _).mp entry
        exact ⟨file, .itself file, OrdMap.mem_keys_of_mem key⟩
      · split at found
        · cases found
        · rename_i named
          obtain ⟨specifier, listed, here⟩ := List.exists_of_findSome?_eq_some found
          split at here
          · rename_i target leads
            obtain ⟨g, further, has⟩ := ih here
            exact ⟨g, .star named ⟨specifier, listed, leads⟩ further, has⟩
          · cases here

/-- Listing and looking up agree on every name but a default export behind a wildcard. -/
theorem exists_searches_iff {file : FileId} {name : String} :
    (name ∈ b.exportNames p file ↔ ∃ g, b.Searches p name file g ∧ b.Lists g name) ↔
      ¬ b.DefaultBehindStar p file name := by
  rw [mem_exportNames]
  simp only [searches_iff]
  unfold DefaultBehindStar
  constructor
  · rintro agree ⟨default, absent, g, way, has⟩
    obtain ⟨h, searched | ⟨named, _⟩, there⟩ := agree.mp ⟨g, way, has⟩
    · rw [searched] at there
      exact absent there
    · exact named default
  · intro none
    constructor
    · rintro ⟨g, way, has⟩
      by_cases default : name = defaultName
      · have own : b.Lists file name := by
          by_contra absent
          exact none ⟨default, absent, g, way, has⟩
        exact ⟨file, Or.inl rfl, own⟩
      · exact ⟨g, Or.inr ⟨default, way⟩, has⟩
    · rintro ⟨g, same | ⟨_, way⟩, has⟩
      · rw [same] at has
        exact ⟨file, .refl, has⟩
      · exact ⟨g, way, has⟩

end Bindings

/-! ### The object of a module -/

namespace Checker

open Check

/-- Adds a member for a name and what it stands for. -/
def addEntry (typeOf : Option SymbolId → Check TypeId) (shape : Shape)
    (entry : String × Option SymbolId) : Check Shape := do
  let type ← typeOf entry.2
  return shape.addMember ⟨entry.1, type, false, true, ""⟩

/-- Members under new names are added in order. -/
theorem names_addEntries (typeOf : Option SymbolId → Check TypeId)
    (list : List (String × Option SymbolId)) (shape : Shape)
    (distinct : (shape.members.map (·.name) ++ list.map Prod.fst).Nodup) (p : Program) (c : Checker) :
    ((list.foldlM (addEntry typeOf) shape).outcome p c).1.members.map (·.name) =
      shape.members.map (·.name) ++ list.map Prod.fst := by
  induction list generalizing shape c with
  | nil =>
      rw [List.foldlM_nil, outcome_pure, List.map_nil, List.append_nil]
  | cons entry rest ih =>
      let m : Member := ⟨entry.1, ((typeOf entry.2).outcome p c).1, false, true, ""⟩
      have new : entry.1 ∉ shape.members.map (·.name) := by
        rw [List.nodup_append] at distinct
        intro there
        exact distinct.2.2 entry.1 there entry.1 List.mem_cons_self rfl
      have added : (shape.addMember m).members.map (·.name) =
          shape.members.map (·.name) ++ [entry.1] := by
        have absent : ¬ (shape.member? m.name).isSome = true := by
          rw [Shape.member?_isSome_iff]
          exact new
        rw [Shape.addMember, if_neg absent, List.map_append, List.map_singleton]
      have further : ((shape.addMember m).members.map (·.name) ++ rest.map Prod.fst).Nodup := by
        rw [added, List.append_assoc]
        exact distinct
      rw [List.foldlM_cons, outcome_bind]
      have all := ih (shape.addMember m) further ((typeOf entry.2).outcome p c).2
      rw [added, List.append_assoc] at all
      exact all

/-- The type of what an export stands for. -/
def entryType (calls : Calls) : Option SymbolId → Check TypeId
  | some id => calls.ask (.valueType id)
  | none => pure Arena.anyId

theorem namespaceObject_eq (calls : Calls) (s : SymbolId) :
    namespaceObject calls s = (do
      let list ← namespaceMembers s
      let shape ← list.foldlM (addEntry (entryType calls)) { symbol := some s }
      Check.object shape) := by
  unfold namespaceObject
  refine bind_congr fun list => ?_
  refine congrArg (fun add => list.foldlM add { symbol := some s } >>= Check.object) ?_
  funext shape entry
  obtain ⟨name, _ | id⟩ := entry <;> rfl

/-- The object that stands for all exports of a file has a member for each name that is listed for
the file, in that order. -/
theorem members_namespaceObject (calls : Calls) (p : Program) (c : Checker) {s : SymbolId}
    {x : Symbol} {file : FileId} (found : c.bindings.symbol? s = some x)
    (stands : x.decls.head?.map SymbolDecl.node = some (.moduleNamespace file)) :
    let r := (namespaceObject calls s).outcome p c
    ∃ shape, r.2.arena.data r.1 = .object shape ∧
      shape.members.map (·.name) = c.bindings.exportNames p file := by
  have listed : ((namespaceMembers s).outcome p c).1.map Prod.fst =
      c.bindings.exportNames p file := by
    unfold namespaceMembers
    simp only [Check.symbol?, outcome_bind, outcome_pure, outcome_state, outcome_read, found, stands]
    exact (map_mapM (fun _ _ _ => rfl) _ p c).trans (List.map_id _)
  have distinct : (((namespaceMembers s).outcome p c).1.map Prod.fst).Nodup := by
    rw [listed]
    exact Bindings.nodup_exportNames _ p file
  intro r
  let members := (namespaceMembers s).outcome p c
  let made := (members.1.foldlM (addEntry (entryType calls)) { symbol := some s }).outcome p members.2
  have names : made.1.members.map (·.name) = members.1.map Prod.fst :=
    names_addEntries (entryType calls) members.1 { symbol := some s } distinct p members.2
  have result : r = (Check.object made.1).outcome p made.2 := by
    show (namespaceObject calls s).outcome p c = _
    rw [namespaceObject_eq, outcome_bind, outcome_bind]
  refine ⟨made.1, ?_, names.trans listed⟩
  rw [result]
  exact congrArg TypeInfo.data (Arena.info_addInfo_self made.2.arena ⟨.object made.1, none⟩)

/-- A name is listed at most once. It is listed if and only if a file has it in which it is looked
for, unless it is a default export behind a wildcard, which is listed and never found. What is found
is listed, and the object of a module has the names listed as its members. -/
theorem listing_agrees (p : Program) (c : Checker) (file : FileId) :
    let names := c.bindings.exportNames p file
    names.Nodup ∧
    (∀ name, (name ∈ names ↔ ∃ g, c.bindings.Searches p name file g ∧ c.bindings.Lists g name) ↔
      ¬ c.bindings.DefaultBehindStar p file name) ∧
    (∀ name, c.bindings.DefaultBehindStar p file name →
      name ∈ names ∧ (c.bindings.exportOf p file .value name).1 = none) ∧
    (∀ name t, (c.bindings.exportOf p file .value name).1 = some t → name ∈ names) ∧
    ∀ (calls : Calls) (s : SymbolId) (x : Symbol), c.bindings.symbol? s = some x →
      x.decls.head?.map SymbolDecl.node = some (.moduleNamespace file) →
      let r := (namespaceObject calls s).outcome p c
      ∃ shape, r.2.arena.data r.1 = .object shape ∧ shape.members.map (·.name) = names := by
  intro names
  have searched : ∀ {name t}, (c.bindings.exportOf p file .value name).1 = some t →
      ∃ g, c.bindings.Searches p name file g ∧ c.bindings.Lists g name := by
    intro name t found
    unfold Bindings.exportOf at found
    cases follow : c.bindings.followExport p Bindings.maxSteps .value file name with
    | none =>
        rw [follow] at found
        cases found
    | some r => exact Bindings.lists_of_followExport follow
  refine ⟨Bindings.nodup_exportNames _ p file, fun _ => Bindings.exists_searches_iff, ?_, ?_,
    fun calls s x => members_namespaceObject calls p c⟩
  · rintro name ⟨default, absent, g, way, has⟩
    refine ⟨Bindings.mem_exportNames.mpr ⟨g, way, has⟩, ?_⟩
    by_contra present
    obtain ⟨t, found⟩ := Option.ne_none_iff_exists'.mp present
    obtain ⟨h, looked, there⟩ := searched found
    rcases Bindings.searches_iff.mp looked with same | ⟨named, _⟩
    · rw [same] at there
      exact absent there
    · exact named default
  · intro name t found
    obtain ⟨g, looked, has⟩ := searched found
    apply Bindings.mem_exportNames.mpr
    rcases Bindings.searches_iff.mp looked with same | ⟨_, way⟩
    · rw [same] at has
      exact ⟨file, .refl, has⟩
    · exact ⟨g, way, has⟩

end Checker

/-- A file that exports all of another, which has a default export and a constant. -/
def reexported : Program :=
  let function : FunctionExpr := ⟨[], [], none, .none, false, false⟩
  let constant : Declarator := ⟨.ident "k" false none, none, ""⟩
  { files := #[
      ⟨⟨"/a.ts", #[], [⟨0, 0, none, {}, .exportAll "./b"⟩]⟩, "/a.ts", true⟩,
      ⟨⟨"/b.ts", #[], [⟨0, 0, none, {}, .exportDefault (.function (some "f") function)⟩,
        ⟨0, 0, none, {}, .exportDecl (.variableList true [constant])⟩]⟩, "/b.ts", true⟩]
    targets := OrdMap.empty.insert (⟨0⟩, "./b") (.file ⟨1⟩) }

set_option maxRecDepth 20000 in
/-- The constant is found and listed, the default export is listed and not found, and the object of
the module has both as members. -/
theorem reexported_listed :
    let module := (Bindings.ofProgram reexported).moduleNamespace reexported ⟨0⟩
    let c : Checker := { bindings := module.2 }
    let names := c.bindings.exportNames reexported ⟨0⟩
    (c.bindings.exportOf reexported ⟨0⟩ .value "k").1 = some ⟨1⟩ ∧ "k" ∈ names ∧
      (c.bindings.exportOf reexported ⟨0⟩ .value "default").1 = none ∧ "default" ∈ names ∧
      ∀ calls, let r := (Checker.namespaceObject calls module.1).outcome reexported c
        ∃ shape, r.2.arena.data r.1 = .object shape ∧
          "k" ∈ shape.members.map (·.name) ∧ "default" ∈ shape.members.map (·.name) := by
  intro module c names
  obtain ⟨-, -, behind, listed, object⟩ := Checker.listing_agrees reexported c ⟨0⟩
  have proper := Bindings.proper_ofProgram reexported
  have kept := (Bindings.follows_moduleNamespace (Bindings.ofProgram reexported) reexported ⟨0⟩).keptIn
  have scopes : ∀ file, c.bindings.scope file = (Bindings.ofProgram reexported).scope file := by
    intro file
    show module.2.scope file = _
    rw [Bindings.scope, kept.files, Bindings.scope]
  -- The constant is looked for before the object of the module is there, and found again.
  have followed : (Bindings.ofProgram reexported).followExport reexported Bindings.maxSteps .value
      ⟨0⟩ "k" = some (.symbol ⟨1⟩) := by cbv
  have found : (c.bindings.exportOf reexported ⟨0⟩ .value "k").1 = some ⟨1⟩ := by
    have again : module.2.followExport reexported Bindings.maxSteps .value ⟨0⟩ "k" = _ :=
      (proper.toPlaced.follow_keptIn kept Bindings.maxSteps).2 ⟨0⟩ "k"
    unfold Bindings.exportOf
    rw [again, followed]
    rfl
  have constant := listed "k" ⟨1⟩ found
  have hidden : c.bindings.DefaultBehindStar reexported ⟨0⟩ "default" := by
    refine ⟨rfl, ?_, ⟨1⟩, .single ⟨"./b", ?_, by cbv⟩, ?_⟩
    · rw [Bindings.Lists, scopes]
      have none : ((Bindings.ofProgram reexported).scope ⟨0⟩).exports.values.keys = [] := by cbv
      rw [none]
      exact List.not_mem_nil
    · have stars : ((Bindings.ofProgram reexported).scope ⟨0⟩).stars = ["./b"] := by cbv
      rw [scopes, stars]
      exact List.mem_cons_self
    · have all : ((Bindings.ofProgram reexported).scope ⟨1⟩).exports.values.keys =
          ["default", "k"] := by cbv
      rw [Bindings.Lists, scopes, all]
      exact List.mem_cons_self
  obtain ⟨there, unfound⟩ := behind "default" hidden
  refine ⟨found, constant, unfound, there, fun calls => ?_⟩
  have stands := (Referent.isSymbol_symbolFor proper (.exportsOf ⟨0⟩)).2
  obtain ⟨shape, data, members⟩ := object calls module.1 _ stands rfl
  rw [← members] at constant there
  exact ⟨shape, data, constant, there⟩

set_option maxRecDepth 20000 in
/-- The default export is listed, though it is looked for in no file that has it. -/
theorem reexported_default :
    let b := Bindings.ofProgram reexported
    b.exportNames reexported ⟨0⟩ = ["default", "k"] ∧
      (b.exportOf reexported ⟨0⟩ .value "default").1 = none ∧
      ¬ ∃ g, b.Searches reexported "default" ⟨0⟩ g ∧ b.Lists g "default" := by
  refine ⟨by cbv, by cbv, ?_⟩
  rintro ⟨g, looked, has⟩
  rcases Bindings.searches_iff.mp looked with same | ⟨named, _⟩
  · have none : ((Bindings.ofProgram reexported).scope ⟨0⟩).exports.values.keys = [] := by cbv
    rw [same, Bindings.Lists, none] at has
    cases has
  · exact named rfl

end ApiDocs
