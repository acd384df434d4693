import Mathlib.Data.Finset.Card
import Mathlib.Logic.Relation
import ApiDocs.Proofs.Loading.Files

set_option autoImplicit false

/-!
How specifiers are settled. Where a specifier leads is said in terms of the files given and of those
on disk. Files are settled one after the other, and those that are read on the way have to wait for
their turn. Whatever the order is, every turn keeps a program in which what is settled is right, and
leaves less to do.
-/

namespace ApiDocs.Program

open Syntax

/-! ### Where specifiers lead

All of this speaks of the files that are given and of those on disk, and not of the order in which
they are read. -/

/-- Whether a path is one of a file given, or of a source file on disk. -/
def isThere (given : Program) (tree : FileTree) (path : String) : Bool :=
  (given.find? path).isSome || (tree.source? path).isSome

/-- The normal path that a relative specifier leads to: that of the first candidate that is there. -/
def target? (given : Program) (tree : FileTree) (importer specifier : String) : Option String :=
  ((candidates importer specifier).find? (given.isThere tree)).map Path.normalize

/-- The source at a normal path. A file that is given comes before one on disk. -/
def sourceAt? (given : Program) (tree : FileTree) (path : String) : Option SourceText :=
  match given.find? path with
  | some id => (given.file? id).map (·.source)
  | none => tree.source? path

/-- The paths of the files given and of those that relative specifiers lead to from there. -/
inductive Reached (given : Program) (tree : FileTree) : String → Prop where
  | given {path : String} (there : (given.find? path).isSome) : Reached given tree path
  | imported {path target : String} {source : SourceText} {s : String}
      (before : Reached given tree path) (read : given.sourceAt? tree path = some source)
      (written : s ∈ specifiers source) (relative : Path.isRelative s = true)
      (leads : given.target? tree path s = some target) : Reached given tree target

/-- What a specifier in a file may be settled to: the file that a relative one leads to, the typings
that are registered for a bare one, or no file if these are not given. -/
inductive Right (given : Program) (tree : FileTree) (p : Program) (id : FileId) (s : String) :
    ModuleTarget → Prop where
  | found {path : String} {target : FileId} (relative : Path.isRelative s = true)
      (leads : given.target? tree (p.pathOf id) s = some path) (here : p.find? path = some target) :
      Right given tree p id s (.file target)
  | typings {t : Typings} {target : FileId} (bare : Path.isRelative s = false)
      (registered : Typings.forModule? s = some t) (here : p.find? t.path = some target) :
      Right given tree p id s (.file target)
  | external (bare : Path.isRelative s = false)
      (unknown : ∀ t, Typings.forModule? s = some t → given.find? t.path = none) :
      Right given tree p id s .external

/-- A specifier is settled: it has a target, or it is a relative one that leads nowhere. -/
def Settled (given : Program) (tree : FileTree) (p : Program) (id : FileId) (s : String) : Prop :=
  p.resolveModule? id s = none →
    Path.isRelative s = true ∧ given.target? tree (p.pathOf id) s = none

/-- A program on the way: the files given, then files from disk that are reached, and right targets
for what is settled. -/
structure Loaded (given : Program) (tree : FileTree) (p : Program) : Prop where
  tidy : p.Tidy
  grown : given.Grows p
  source : ∀ id f, p.file? id = some f → given.file? id = some f ∨
    f.root = false ∧ given.find? f.path = none ∧
      ∃ path, tree.source? path = some f.source ∧ Path.normalize path = f.path
  reached : ∀ id f, p.file? id = some f → given.Reached tree f.path
  right : ∀ id s target, p.resolveModule? id s = some target →
    (∃ f, p.file? id = some f) ∧ Right given tree p id s target

section

variable {given p p' : Program} {tree : FileTree} {id : FileId} {f : SourceFile} {s path : String}

theorem Right.grows {target : ModuleTarget} (right : Right given tree p id s target)
    (there : p.file? id = some f) (grows : p.Grows p') : Right given tree p' id s target := by
  cases right with
  | found relative leads here =>
      exact .found relative ((grows.pathOf there).symm ▸ leads) (grows.find? here)
  | typings bare registered here => exact .typings bare registered (grows.find? here)
  | external bare unknown => exact .external bare unknown

theorem Settled.grows (settled : Settled given tree p id s) (there : p.file? id = some f)
    (grows : p.Grows p') : Settled given tree p' id s := by
  intro open_
  have before : p.resolveModule? id s = none := by
    cases known : p.resolveModule? id s with
    | none => rfl
    | some target =>
        rw [grows.targets id s target known] at open_
        cases open_
  rw [grows.pathOf there]
  exact settled before

namespace Loaded

/-- A file from disk can be read again at its own path. -/
theorem source?_path (loaded : Loaded given tree p) (found : p.file? id = some f)
    (new : given.find? f.path = none) :
    f.path ∈ tree.entries.keys ∧
      ∃ source, tree.source? f.path = some source ∧ source.items = f.source.items := by
  rcases loaded.source id f found with old | ⟨_, _, path, read, same⟩
  · exact absurd rfl (find?_eq_none_iff.mp new id f old)
  · obtain ⟨_, stored, again⟩ := FileTree.source?_normalize read
    rw [same] at stored again
    exact ⟨stored, again⟩

/-- On the way no other paths are there than at the start. -/
theorem isThere_eq (loaded : Loaded given tree p) : p.isThere tree = given.isThere tree := by
  funext path
  unfold isThere
  cases start : given.find? path with
  | some id => rw [loaded.grown.find? start]
  | none =>
      cases found : p.find? path with
      | none => rfl
      | some id =>
          obtain ⟨f, here, rfl⟩ := exists_of_find? found
          obtain ⟨_, source, read, _⟩ := loaded.source?_path here start
          simp [read]

/-- A file of the program has the items of the source at its path. -/
theorem sourceAt? (loaded : Loaded given tree p) (found : p.file? id = some f) :
    ∃ source, given.sourceAt? tree f.path = some source ∧ specifiers source = specifiers f.source := by
  unfold Program.sourceAt?
  cases start : given.find? f.path with
  | some other =>
      obtain ⟨g, here, same⟩ := exists_of_find? start
      have equal : other = id := loaded.tidy.unique other id g f (loaded.grown.file? here) found same
      subst equal
      have own := loaded.grown.file? here
      rw [found] at own
      cases own
      exact ⟨f.source, by simp [here], rfl⟩
  | none =>
      obtain ⟨_, source, read, items⟩ := loaded.source?_path found start
      exact ⟨source, read, by rw [specifiers, specifiers, items]⟩

end Loaded

end

/-! ### Locating -/

section

variable {given p p' : Program} {tree : FileTree} {id : FileId} {s : String}

/-- What trying paths in turn finds. -/
theorem probe_cases (p : Program) (tree : FileTree) (paths : List String) :
    (p.probe tree paths = none ∧ paths.find? (p.isThere tree) = none) ∨
      ∃ path, paths.find? (p.isThere tree) = some path ∧
        ((∃ id, p.find? path = some id ∧ p.probe tree paths = some (.known (.file id))) ∨
          ∃ source, p.find? path = none ∧ tree.source? path = some source ∧
            p.probe tree paths = some (.onDisk source)) := by
  induction paths with
  | nil => exact .inl ⟨rfl, rfl⟩
  | cons path rest ih =>
      cases known : p.find? path with
      | some id =>
          refine .inr ⟨path, ?_, .inl ⟨id, known, ?_⟩⟩
          · simp [isThere, known]
          · simp [probe, known]
      | none =>
          cases read : tree.source? path with
          | some source =>
              refine .inr ⟨path, ?_, .inr ⟨source, known, read, ?_⟩⟩
              · simp [isThere, read]
              · simp [probe, known, read]
          | none =>
              have skipped : (path :: rest).find? (p.isThere tree) = rest.find? (p.isThere tree) := by
                simp [isThere, known, read]
              have probed : p.probe tree (path :: rest) = p.probe tree rest := by
                simp [probe, known, read]
              rw [skipped, probed]
              exact ih

/-- What is found for a specifier is what it leads to from the files given. -/
theorem Loaded.locate?_cases (loaded : Loaded given tree p) (id : FileId) (s : String) :
    (p.locate? tree id s = none ∧ Path.isRelative s = true ∧
        given.target? tree (p.pathOf id) s = none) ∨
      (∃ target, p.locate? tree id s = some (.known target) ∧ Right given tree p id s target) ∨
        ∃ source, p.locate? tree id s = some (.onDisk source) ∧ Path.isRelative s = true ∧
          given.target? tree (p.pathOf id) s = some (Path.normalize source.path) ∧
            tree.source? source.path = some source := by
  unfold locate?
  by_cases relative : Path.isRelative s = true
  · rw [if_pos relative]
    rcases probe_cases p tree (candidates (p.pathOf id) s) with ⟨none, absent⟩ | ⟨path, first, kind⟩
    · rw [loaded.isThere_eq] at absent
      exact .inl ⟨none, relative, by simp [target?, absent]⟩
    · rw [loaded.isThere_eq] at first
      have leads : given.target? tree (p.pathOf id) s = some (Path.normalize path) := by
        simp [target?, first]
      rcases kind with ⟨j, here, located⟩ | ⟨source, _, read, located⟩
      · rw [loaded.tidy.normalize_of_find? here] at leads
        exact .inr (.inl ⟨_, located, .found relative leads here⟩)
      · obtain ⟨same, _⟩ := FileTree.source?_normalize read
        subst same
        exact .inr (.inr ⟨source, located, relative, leads, read⟩)
  · rw [if_neg relative]
    have bare : Path.isRelative s = false := by simpa using relative
    refine .inr (.inl ?_)
    cases registered : Typings.forModule? s with
    | none => exact ⟨.external, rfl, .external bare fun t same => by simp [registered] at same⟩
    | some t =>
        cases here : p.find? t.path with
        | some j => exact ⟨.file j, by simp [here], .typings bare registered here⟩
        | none =>
            refine ⟨.external, by simp [here], .external bare fun t' same => ?_⟩
            rw [registered] at same
            cases same
            cases start : given.find? t.path with
            | none => rfl
            | some j => rw [loaded.grown.find? start] at here; cases here

/-! ### Settling -/

/-- What is settled and read on the way from one state to another: new files wait. -/
structure Onward (given : Program) (tree : FileTree) (l l' : Loading) : Prop where
  grows : l.program.Grows l'.program
  loaded : Loaded given tree l'.program
  waiting : ∃ new, l'.waiting = new ++ l.waiting ∧
    (∀ id ∈ new, ∃ f, l'.program.file? id = some f) ∧
      ∀ id f, l'.program.file? id = some f → l.program.file? id = some f ∨ id ∈ new

theorem Onward.refl {l : Loading} (loaded : Loaded given tree l.program) : Onward given tree l l where
  grows := .refl _
  loaded := loaded
  waiting := ⟨[], rfl, nofun, fun _ _ found => .inl found⟩

theorem Onward.trans {a b c : Loading} (first : Onward given tree a b)
    (second : Onward given tree b c) : Onward given tree a c where
  grows := first.grows.trans second.grows
  loaded := second.loaded
  waiting := by
    obtain ⟨new, waits, there, fresh⟩ := first.waiting
    obtain ⟨later, waits', there', fresh'⟩ := second.waiting
    refine ⟨later ++ new, by rw [waits', waits, List.append_assoc], ?_, ?_⟩
    · intro id inside
      rcases List.mem_append.mp inside with last | before
      · exact there' id last
      · obtain ⟨f, found⟩ := there id before
        exact ⟨f, second.grows.file? found⟩
    · intro id f found
      rcases fresh' id f found with before | last
      · exact (fresh id f before).imp_right (List.mem_append_right _)
      · exact .inr (List.mem_append_left _ last)

theorem resolveModule?_insert {importer id : FileId} {s s' : String} {target : ModuleTarget} :
    ({ p with targets := p.targets.insert (importer, s) target } : Program).resolveModule? id s' =
      if (id, s') = (importer, s) then some target else p.resolveModule? id s' :=
  OrdMap.get?_insert _ _ _ _

theorem grows_insert {target : ModuleTarget} (unknown : p.resolveModule? id s = none) :
    p.Grows { p with targets := p.targets.insert (id, s) target } where
  files := ⟨#[], by simp⟩
  targets other s' known found := by
    rw [resolveModule?_insert, if_neg, found]
    rintro ⟨⟩
    rw [unknown] at found
    cases found

theorem grows_push (g : SourceFile) : p.Grows { p with files := p.files.push g } where
  files := ⟨#[g], by simp⟩
  targets _ _ _ found := found

/-- A target that is right is entered. -/
theorem Loaded.insert (loaded : Loaded given tree p) {f : SourceFile} {target : ModuleTarget}
    (there : p.file? id = some f) (right : Right given tree p id s target)
    (unknown : p.resolveModule? id s = none) :
    Loaded given tree { p with targets := p.targets.insert (id, s) target } where
  tidy := ⟨loaded.tidy.normal, loaded.tidy.unique⟩
  grown := loaded.grown.trans (grows_insert unknown)
  source := loaded.source
  reached := loaded.reached
  right other s' known found := by
    have grows : p.Grows { p with targets := p.targets.insert (id, s) target } := grows_insert unknown
    rw [resolveModule?_insert] at found
    split at found
    · rename_i same
      cases same
      cases found
      exact ⟨⟨f, there⟩, right.grows there grows⟩
    · obtain ⟨⟨g, here⟩, before⟩ := loaded.right other s' known found
      exact ⟨⟨g, here⟩, before.grows here grows⟩

/-- A file from disk is added behind the others. -/
theorem Loaded.push (loaded : Loaded given tree p) {source : SourceText}
    (read : tree.source? source.path = some source)
    (reached : given.Reached tree (Path.normalize source.path))
    (new : p.find? (Path.normalize source.path) = none) :
    Loaded given tree { p with files := p.files.push ⟨source, Path.normalize source.path, false⟩ } := by
  have tidy := loaded.tidy.add source false
  rw [add_of_new new] at tidy
  have start : given.find? (Path.normalize source.path) = none := by
    cases known : given.find? (Path.normalize source.path) with
    | none => rfl
    | some id =>
        rw [loaded.grown.find? known] at new
        cases new
  refine ⟨tidy, loaded.grown.trans (grows_push _), fun id f found => ?_, fun id f found => ?_,
    fun id s target found => ?_⟩
  · rw [file?_push] at found
    split at found
    · cases found
      exact .inr ⟨rfl, start, source.path, read, rfl⟩
    · exact loaded.source id f found
  · rw [file?_push] at found
    split at found
    · cases found
      exact reached
    · exact loaded.reached id f found
  · obtain ⟨⟨f, here⟩, before⟩ := loaded.right id s target found
    exact ⟨⟨f, (grows_push _).file? here⟩, before.grows here (grows_push _)⟩

/-- A file that is found on disk is there afterwards, and waits. -/
theorem Loaded.read (loaded : Loaded given tree p) {source : SourceText}
    (read : tree.source? source.path = some source)
    (reached : given.Reached tree (Path.normalize source.path)) (waiting : List FileId) :
    let r := p.add source false
    Onward given tree ⟨p, waiting⟩ ⟨r.2, r.1 :: waiting⟩ ∧
      r.2.find? (Path.normalize source.path) = some r.1 ∧ r.2.targets = p.targets := by
  rcases add_false_cases p source with ⟨j, here, added⟩ | ⟨new, added⟩
  · rw [added]
    obtain ⟨g, file, _⟩ := exists_of_find? here
    refine ⟨⟨.refl p, loaded, [j], rfl, ?_, fun _ _ found => .inl found⟩, here, rfl⟩
    intro id inside
    rw [List.mem_singleton.mp inside]
    exact ⟨g, file⟩
  · rw [added]
    have after := loaded.push read reached new
    have last : ({ p with files := p.files.push ⟨source, Path.normalize source.path, false⟩ } :
        Program).file? ⟨p.files.size⟩ = some ⟨source, Path.normalize source.path, false⟩ := by
      rw [file?_push, if_pos rfl]
    have place := after.tidy.index last
    refine ⟨⟨grows_push _, after, [⟨p.files.size⟩], rfl, ?_, ?_⟩, place, rfl⟩
    · intro id inside
      rw [List.mem_singleton.mp inside]
      exact ⟨_, last⟩
    · intro id f found
      rw [file?_push] at found
      split at found
      · rename_i same
        exact .inr (List.mem_singleton.mpr (congrArg FileId.mk same))
      · exact .inl found

/-- What follows when a target that is right is entered. -/
theorem Onward.insert {l : Loading} {waiting : List FileId} {f : SourceFile} {target : ModuleTarget}
    (onward : Onward given tree l ⟨p, waiting⟩) (there : p.file? id = some f)
    (right : Right given tree p id s target) (unknown : p.resolveModule? id s = none) :
    let p' : Program := { p with targets := p.targets.insert (id, s) target }
    Onward given tree l ⟨p', waiting⟩ ∧ Settled given tree p' id s := by
  have step : Onward given tree ⟨p, waiting⟩
      ⟨{ p with targets := p.targets.insert (id, s) target }, waiting⟩ :=
    ⟨grows_insert unknown, onward.loaded.insert there right unknown,
      [], rfl, nofun, fun _ _ found => .inl found⟩
  refine ⟨onward.trans step, fun open_ => ?_⟩
  rw [resolveModule?_insert, if_pos rfl] at open_
  cases open_

/-- A specifier that is settled is left alone. -/
theorem Loaded.settle_of_settled {l : Loading} (loaded : Loaded given tree l.program)
    (settled : Settled given tree l.program id s) : settle tree id l s = l := by
  unfold Program.settle
  dsimp only
  cases known : l.program.resolveModule? id s with
  | some target =>
      have found : l.program.targets.get? (id, s) = some target := known
      rw [if_pos (by simp [OrdMap.contains, found])]
  | none =>
      have unknown : l.program.targets.get? (id, s) = none := known
      obtain ⟨relative, nowhere⟩ := settled known
      rw [if_neg (by simp [OrdMap.contains, unknown])]
      rcases loaded.locate?_cases id s with ⟨none, _⟩ | ⟨target, _, right⟩ | ⟨source, _, _, leads, _⟩
      · rw [none]
      · cases right with
        | found _ leads _ => simp [nowhere] at leads
        | typings bare _ _ => simp [relative] at bare
        | external bare _ => simp [relative] at bare
      · simp [nowhere] at leads

/-- One specifier is settled. -/
theorem Loaded.settle {l : Loading} (loaded : Loaded given tree l.program) {f : SourceFile}
    (there : l.program.file? id = some f) (written : s ∈ specifiers f.source) :
    Onward given tree l (settle tree id l s) ∧
      Settled given tree (settle tree id l s).program id s := by
  by_cases settled : Settled given tree l.program id s
  · rw [loaded.settle_of_settled settled]
    exact ⟨.refl loaded, settled⟩
  · have unknown : l.program.resolveModule? id s = none := by
      by_contra known
      exact settled fun none => absurd none known
    have open_ : l.program.targets.contains (id, s) = false := by
      have : l.program.targets.get? (id, s) = none := unknown
      simp [OrdMap.contains, this]
    unfold Program.settle
    dsimp only
    rw [if_neg (by simp [open_])]
    rcases loaded.locate?_cases id s with ⟨_, nowhere⟩ | ⟨target, located, right⟩ |
      ⟨source, located, relative, leads, read⟩
    · exact absurd (fun _ => nowhere) settled
    · rw [located]
      exact (Onward.refl loaded).insert there right unknown
    · rw [located]
      obtain ⟨_, readable, same⟩ := loaded.sourceAt? there
      have path : l.program.pathOf id = f.path := by simp [pathOf, there]
      have reached : given.Reached tree (Path.normalize source.path) :=
        .imported (loaded.reached id f there) readable (same ▸ written) relative (path ▸ leads)
      obtain ⟨onward, here, targets⟩ := loaded.read read reached l.waiting
      refine onward.insert (onward.grows.file? there) (.found relative ?_ here) ?_
      · rw [onward.grows.pathOf there]
        exact leads
      · rw [resolveModule?, targets]
        exact unknown

/-- All specifiers of a file are settled. -/
def Done (given : Program) (tree : FileTree) (p : Program) (id : FileId) : Prop :=
  ∀ s ∈ p.specifiersOf id, Settled given tree p id s

theorem Done.grows {f : SourceFile} (done : Done given tree p id) (there : p.file? id = some f)
    (grows : p.Grows p') : Done given tree p' id := by
  intro s written
  rw [grows.specifiersOf there] at written
  exact (done s written).grows there grows

theorem Loaded.settle_list {l : Loading} (loaded : Loaded given tree l.program) {f : SourceFile}
    (there : l.program.file? id = some f) (list : List String)
    (written : ∀ s ∈ list, s ∈ specifiers f.source) :
    let l' := list.foldl (Program.settle tree id) l
    Onward given tree l l' ∧ ∀ s ∈ list, Settled given tree l'.program id s := by
  induction list generalizing l with
  | nil => exact ⟨.refl loaded, nofun⟩
  | cons s rest ih =>
      obtain ⟨first, settled⟩ := loaded.settle there (written s List.mem_cons_self)
      obtain ⟨onward, later⟩ := ih first.loaded (first.grows.file? there)
        fun s' inside => written s' (List.mem_cons_of_mem _ inside)
      refine ⟨first.trans onward, fun s' inside => ?_⟩
      rcases List.mem_cons.mp inside with rfl | after
      · exact settled.grows (first.grows.file? there) onward.grows
      · exact later s' after

/-- A file is settled in one turn. -/
theorem Loaded.settleFile {l : Loading} (loaded : Loaded given tree l.program) {f : SourceFile}
    (there : l.program.file? id = some f) :
    Onward given tree l (settleFile tree l id) ∧
      Done given tree (settleFile tree l id).program id := by
  have own : l.program.specifiersOf id = specifiers f.source := by simp [specifiersOf, there]
  obtain ⟨onward, settled⟩ := loaded.settle_list there (l.program.specifiersOf id) (by simp [own])
  have same : (Program.settleFile tree l id).program.specifiersOf id = l.program.specifiersOf id :=
    onward.grows.specifiersOf there
  refine ⟨onward, fun s written => settled s ?_⟩
  rwa [← same]

/-- A file that is settled leads to nothing more. -/
theorem Loaded.settleFile_of_done {l : Loading} (loaded : Loaded given tree l.program)
    (done : Done given tree l.program id) : Program.settleFile tree l id = l := by
  unfold Program.settleFile
  revert done
  unfold Done
  generalize l.program.specifiersOf id = list
  intro done
  induction list with
  | nil => rfl
  | cons s rest ih =>
      rw [List.foldl_cons, loaded.settle_of_settled (done s List.mem_cons_self)]
      exact ih fun s' inside => done s' (List.mem_cons_of_mem _ inside)

/-- Files that wait already do not matter to a turn. -/
theorem settle_append (tree : FileTree) (id : FileId) (p : Program) (new waiting : List FileId)
    (s : String) :
    settle tree id ⟨p, new ++ waiting⟩ s =
      ⟨(settle tree id ⟨p, new⟩ s).program, (settle tree id ⟨p, new⟩ s).waiting ++ waiting⟩ := by
  unfold Program.settle
  dsimp only
  split
  · rfl
  · split <;> rfl

theorem settle_list_append (tree : FileTree) (id : FileId) (list : List String) (p : Program)
    (new waiting : List FileId) :
    list.foldl (settle tree id) ⟨p, new ++ waiting⟩ =
      ⟨(list.foldl (settle tree id) ⟨p, new⟩).program,
        (list.foldl (settle tree id) ⟨p, new⟩).waiting ++ waiting⟩ := by
  induction list generalizing p new with
  | nil => rfl
  | cons s rest ih => rw [List.foldl_cons, List.foldl_cons, settle_append, ih]

theorem settleFile_waiting (tree : FileTree) (id : FileId) (p : Program) (waiting : List FileId) :
    Program.settleFile tree ⟨p, waiting⟩ id =
      ⟨(Program.settleFile tree ⟨p, []⟩ id).program,
        (Program.settleFile tree ⟨p, []⟩ id).waiting ++ waiting⟩ :=
  settle_list_append tree id (p.specifiersOf id) p [] waiting

/-! ### What is left to do -/

/-- The paths that a file of the program can have. -/
def allPaths (given : Program) (tree : FileTree) : Finset String :=
  (given.files.toList.map (·.path) ++ tree.entries.keys).toFinset

/-- The file at a path is there and settled. -/
def DoneAt (given : Program) (tree : FileTree) (p : Program) (path : String) : Prop :=
  ∃ id f, p.file? id = some f ∧ f.path = path ∧ Done given tree p id

open Classical in
/-- The paths at which there is still something to do. -/
noncomputable def openPaths (given : Program) (tree : FileTree) (p : Program) : Finset String :=
  (given.allPaths tree).filter fun path => ¬ DoneAt given tree p path

theorem mem_openPaths {path : String} :
    path ∈ openPaths given tree p ↔ path ∈ given.allPaths tree ∧ ¬ DoneAt given tree p path := by
  classical exact Finset.mem_filter

theorem card_openPaths_le (given : Program) (tree : FileTree) (p : Program) :
    (openPaths given tree p).card ≤ given.files.size + tree.entries.size := by
  have within : openPaths given tree p ⊆ given.allPaths tree := fun _ inside => (mem_openPaths.mp inside).1
  refine (Finset.card_le_card within).trans ((List.toFinset_card_le _).trans ?_)
  simp [OrdMap.keys, OrdMap.size]

theorem DoneAt.grows {path : String} (done : DoneAt given tree p path) (grows : p.Grows p') :
    DoneAt given tree p' path := by
  obtain ⟨id, f, there, same, done⟩ := done
  exact ⟨id, f, grows.file? there, same, done.grows there grows⟩

theorem Grows.openPaths (grows : p.Grows p') :
    Program.openPaths given tree p' ⊆ Program.openPaths given tree p := by
  intro path inside
  obtain ⟨listed, open_⟩ := mem_openPaths.mp inside
  exact mem_openPaths.mpr ⟨listed, fun done => open_ (done.grows grows)⟩

/-- A file is settled if its path is not open. -/
theorem Loaded.mem_openPaths_iff {f : SourceFile} (loaded : Loaded given tree p)
    (there : p.file? id = some f) : f.path ∈ openPaths given tree p ↔ ¬ Done given tree p id := by
  have listed : f.path ∈ given.allPaths tree := by
    rw [allPaths, List.mem_toFinset, List.mem_append]
    rcases loaded.source id f there with old | ⟨_, _, path, read, same⟩
    · exact .inl (List.mem_map_of_mem (Array.mem_toList_iff.mpr (Array.mem_of_getElem? old)))
    · exact .inr (same ▸ (FileTree.source?_normalize read).2.1)
  rw [mem_openPaths, and_iff_right listed, not_iff_not]
  refine ⟨fun ⟨other, g, here, same, done⟩ => ?_, fun done => ⟨id, f, there, rfl, done⟩⟩
  rwa [← loaded.tidy.unique other id g f here there same]

theorem Onward.card_openPaths_lt {l l' : Loading} {f : SourceFile} (onward : Onward given tree l l')
    (loaded : Loaded given tree l.program) (there : l.program.file? id = some f)
    (before : ¬ Done given tree l.program id) (after : Done given tree l'.program id) :
    (openPaths given tree l'.program).card < (openPaths given tree l.program).card := by
  refine Finset.card_lt_card ⟨onward.grows.openPaths, fun back => ?_⟩
  have listed := back ((loaded.mem_openPaths_iff there).mpr before)
  exact (onward.loaded.mem_openPaths_iff (onward.grows.file? there)).mp listed after

/-! ### Turns -/

/-- One of the files that wait is settled, whichever it is. -/
def Turn (tree : FileTree) (l l' : Loading) : Prop :=
  ∃ id rest, l.waiting.Perm (id :: rest) ∧ l' = Program.settleFile tree ⟨l.program, rest⟩ id

/-- Every file is settled or waits. -/
structure Progress (given : Program) (tree : FileTree) (l : Loading) : Prop where
  loaded : Loaded given tree l.program
  there : ∀ id ∈ l.waiting, ∃ f, l.program.file? id = some f
  done : ∀ id f, l.program.file? id = some f → id ∈ l.waiting ∨ Done given tree l.program id

variable {l l' : Loading}

/-- A turn leaves less to do: fewer paths are open, or else it only takes a settled file off the
list. -/
theorem Progress.turn (progress : Progress given tree l) (turn : Turn tree l l') :
    Progress given tree l' ∧ l.program.Grows l'.program ∧
      ((openPaths given tree l'.program).card < (openPaths given tree l.program).card ∨
        l'.program = l.program ∧ l'.waiting.length < l.waiting.length) := by
  obtain ⟨id, rest, order, rfl⟩ := turn
  obtain ⟨f, there⟩ := progress.there id (order.mem_iff.mpr List.mem_cons_self)
  have start : Loaded given tree (Loading.mk l.program rest).program := progress.loaded
  obtain ⟨onward, done⟩ := start.settleFile there
  obtain ⟨new, waits, known, fresh⟩ := onward.waiting
  refine ⟨⟨onward.loaded, fun other inside => ?_, fun other g found => ?_⟩, onward.grows, ?_⟩
  · rw [waits] at inside
    rcases List.mem_append.mp inside with pushed | before
    · exact known other pushed
    · obtain ⟨g, found⟩ := progress.there other (order.mem_iff.mpr (List.mem_cons_of_mem _ before))
      exact ⟨g, onward.grows.file? found⟩
  · rw [waits]
    rcases fresh other g found with old | pushed
    · rcases progress.done other g old with waited | settled
      · rcases List.mem_cons.mp (order.mem_iff.mp waited) with rfl | before
        · exact .inr done
        · exact .inl (List.mem_append_right _ before)
      · exact .inr (settled.grows old onward.grows)
    · exact .inl (List.mem_append_left _ pushed)
  · by_cases settled : Done given tree l.program id
    · rw [start.settleFile_of_done settled]
      exact .inr ⟨rfl, by simp [order.length_eq]⟩
    · exact .inl (onward.card_openPaths_lt start there settled done)

/-- There is no endless run, in whatever order the files are settled. -/
theorem Progress.acc (progress : Progress given tree l) : Acc (fun l' l => Turn tree l l') l := by
  generalize open_ : (openPaths given tree l.program).card = n
  induction n using Nat.strong_induction_on generalizing l with
  | _ n outer =>
      generalize long : l.waiting.length = k
      induction k using Nat.strong_induction_on generalizing l with
      | _ k inner =>
          refine ⟨_, fun l' turn => ?_⟩
          obtain ⟨next, _, fewer | ⟨same, shorter⟩⟩ := progress.turn turn
          · exact outer _ (open_ ▸ fewer) next rfl
          · exact inner _ (long ▸ shorter) next (same ▸ open_) rfl

theorem Progress.run (progress : Progress given tree l) (run : Relation.ReflTransGen (Turn tree) l l') :
    Progress given tree l' ∧ l.program.Grows l'.program := by
  induction run with
  | refl => exact ⟨progress, .refl _⟩
  | tail _ turn ih =>
      obtain ⟨next, grows, _⟩ := ih.1.turn turn
      exact ⟨next, ih.2.trans grows⟩

theorem settleAll_nil (tree : FileTree) (n : Nat) (p : Program) : Program.settleAll tree n p [] = p := by
  cases n <;> rfl

/-- Settling files depth first is such a run, if the bound on the depth leaves room for all that is
open. -/
theorem Progress.settleAll (n : Nat) (ids rest : List FileId)
    (progress : Progress given tree ⟨p, ids ++ rest⟩) (enough : (openPaths given tree p).card ≤ n) :
    Relation.ReflTransGen (Turn tree) ⟨p, ids ++ rest⟩ ⟨settleAll tree n p ids, rest⟩ := by
  induction n generalizing p ids rest with
  | zero =>
      induction ids with
      | nil => exact .refl
      | cons id more ih =>
          obtain ⟨f, there⟩ := progress.there id (by simp)
          have done : Done given tree p id := by
            by_contra open_
            have listed := (progress.loaded.mem_openPaths_iff there).mpr open_
            rw [Finset.card_eq_zero.mp (Nat.le_zero.mp enough)] at listed
            cases listed
          have first : Turn tree ⟨p, id :: more ++ rest⟩ ⟨p, more ++ rest⟩ := by
            refine ⟨id, more ++ rest, .refl _, ?_⟩
            exact (progress.loaded.settleFile_of_done (l := ⟨p, more ++ rest⟩) done).symm
          exact .head first (ih (progress.turn first).1)
  | succ n outer =>
      induction ids generalizing p with
      | nil => exact .refl
      | cons id more ih =>
          obtain ⟨f, there⟩ := progress.there id (by simp)
          let l := Program.settleFile tree ⟨p, []⟩ id
          have first : Turn tree ⟨p, id :: more ++ rest⟩ ⟨l.program, l.waiting ++ (more ++ rest)⟩ :=
            ⟨id, more ++ rest, .refl _, (settleFile_waiting tree id p (more ++ rest)).symm⟩
          obtain ⟨next, grows, _⟩ := progress.turn first
          have below : Relation.ReflTransGen (Turn tree) ⟨l.program, l.waiting ++ (more ++ rest)⟩
              ⟨Program.settleAll tree n l.program l.waiting, more ++ rest⟩ := by
            have start : Loaded given tree (Loading.mk p []).program := progress.loaded
            by_cases settled : Done given tree p id
            · have same : l = ⟨p, []⟩ := start.settleFile_of_done settled
              rw [same, settleAll_nil]
              exact .refl
            · obtain ⟨onward, done⟩ := start.settleFile there
              have fewer := onward.card_openPaths_lt start there settled done
              exact outer l.waiting (more ++ rest) next (Nat.le_of_lt_succ (fewer.trans_le enough))
          obtain ⟨after, later⟩ := next.run below
          refine .head first (below.trans (ih after ?_))
          exact (Finset.card_le_card (grows.trans later).openPaths).trans enough

end

end ApiDocs.Program
