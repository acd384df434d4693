import ApiDocs.Proofs.Exported
import ApiDocs.Proofs.Integrity

set_option autoImplicit false

/-!
Reading a file. The symbols of its exported items have their turns in order, one each, and what is
shown of them does not change any more. The module of the file gets a declaration for each turn that
shows something, and the edges and star exports that the file writes.
-/

namespace ApiDocs

open Syntax

/-- A symbol, and the item that it has its turn at. -/
structure Turn where
  item : Exported
  symbol : SymbolId

namespace Turn

def describe (t : Turn) : Check (Option Content) := t.item.role.describe t.symbol

/-- The name and the body of the declaration that a turn gives, if any. -/
def shown? (p : Program) (c : Checker) (t : Turn) : Option (String × DeclarationBody) :=
  (c.answer p t.describe).map fun content => (t.item.name, content.body)

end Turn

def Exported.turn? (p : Program) (file : FileId) (x : Exported) : Option Turn :=
  (x.symbol? p file).map fun s => ⟨x, s⟩

/-- The turns of the symbols of exported items: each symbol has one, at its first item. -/
def turns (p : Program) (file : FileId) (items : List Exported) : List Turn :=
  (items.filterMap (·.turn? p file)).eraseDupsBy fun t u => t.symbol = u.symbol

theorem eraseDupsBy_concat {α : Type} (r : α → α → Bool) (list : List α) (x : α) :
    (list ++ [x]).eraseDupsBy r =
      list.eraseDupsBy r ++ if (list.eraseDupsBy r).any (r x) then [] else [x] := by
  have loop : ∀ passed, List.eraseDupsBy.loop r (list ++ [x]) passed =
      List.eraseDupsBy.loop r list passed ++
        if (List.eraseDupsBy.loop r list passed).any (r x) then [] else [x] := by
    induction list with
    | nil =>
        intro passed
        simp only [List.nil_append, List.eraseDupsBy.loop, List.any_reverse]
        cases passed.any (r x) <;> simp
    | cons y rest ih =>
        intro passed
        simp only [List.cons_append, List.eraseDupsBy.loop]
        rcases Bool.eq_false_or_eq_true (passed.any (r y)) with known | new
        · simp only [known]
          exact ih passed
        · simp only [new]
          exact ih (y :: passed)
  exact loop []

theorem turns_concat (p : Program) (file : FileId) (items : List Exported) {x : Exported}
    {s : SymbolId} (named : x.symbol? p file = some s) :
    turns p file (items ++ [x]) =
      turns p file items ++ if ∃ t ∈ turns p file items, t.symbol = s then [] else [⟨x, s⟩] := by
  have last : [x].filterMap (·.turn? p file) = [⟨x, s⟩] := by simp [Exported.turn?, named]
  unfold turns
  rw [List.filterMap_append, last, eraseDupsBy_concat]
  simp only [List.any_eq_true, decide_eq_true_eq, eq_comm (a := s)]

theorem mem_of_mem_eraseDupsBy {α : Type} {r : α → α → Bool} {list : List α} {x : α}
    (inside : x ∈ list.eraseDupsBy r) : x ∈ list := by
  induction list using List.reverseRecOn with
  | nil => cases inside
  | append_singleton rest last ih =>
      rw [eraseDupsBy_concat] at inside
      rcases List.mem_append.mp inside with old | new
      · exact List.mem_append_left _ (ih old)
      · split at new
        · cases new
        · exact List.mem_append_right _ new

theorem mem_turns {p : Program} {file : FileId} {items : List Exported} {t : Turn}
    (inside : t ∈ turns p file items) : t.item ∈ items ∧ t.item.symbol? p file = some t.symbol := by
  obtain ⟨x, listed, turn⟩ := List.mem_filterMap.mp (mem_of_mem_eraseDupsBy inside)
  obtain ⟨s, named, rfl⟩ := Option.map_eq_some_iff.mp turn
  exact ⟨listed, named⟩

/-! ### What turns show -/

namespace Turn

open Checker

/-- What a turn shows does not change any more, and it shows nothing only where there is nothing. -/
structure Settled (p : Program) (c : Checker) (t : Turn) : Prop where
  again : ∀ c', c.Later c' → c'.Sound p → c'.answer p t.describe = c.answer p t.describe
  dropped : ∀ c', c.Later c' → c'.Sound p →
    (c.answer p t.describe = none ↔ t.item.role.Dropped p c' t.symbol)
  /-- The answer was given in an earlier state, which had the symbol. -/
  had : ∃ before, before.Sound p ∧ Known before t.symbol ∧ Reached p before ∧
    (t.describe.outcome p before).2.Later c ∧
    (t.describe.outcome p before).1 = c.answer p t.describe

variable {p : Program} {c c' : Checker} {t : Turn}

theorem Settled.later (settled : t.Settled p c) (later : c.Later c') (sound : c'.Sound p) :
    t.Settled p c' where
  again c'' more after := by
    rw [settled.again c'' (later.trans more) after, settled.again c' later sound]
  dropped c'' more after := by
    rw [settled.again c' later sound]
    exact settled.dropped c'' (later.trans more) after
  had := by
    obtain ⟨before, start, known, reached, first, told⟩ := settled.had
    exact ⟨before, start, known, reached, first.trans later,
      told.trans (settled.again c' later sound).symm⟩

theorem Settled.shown? (settled : t.Settled p c) (later : c.Later c') (sound : c'.Sound p) :
    t.shown? p c' = t.shown? p c := by
  unfold Turn.shown?
  rw [settled.again c' later sound]

/-- A turn that was had is settled. -/
theorem settled_after (sound : c.Sound p) (reached : Reached p c) (known : Known c t.symbol) :
    (t.describe.outcome p c).2.Sound p ∧ t.Settled p (t.describe.outcome p c).2 ∧
      (t.describe.outcome p c).2.answer p t.describe = (t.describe.outcome p c).1 := by
  have := sound.started
  have steady : Check.Steady p c t.describe := Role.steady_describe
  have after := (steady.outcome c (.refl c) sound).1
  have told := Role.answer_later sound reached (.refl _) after
  refine ⟨after, ⟨fun c' later sound' => ?_, fun c' later sound' => ?_, c, sound, known, reached,
    .refl _, told.symm⟩, told⟩
  · rw [told]
    exact Role.answer_later sound reached later sound'
  · rw [told]
    exact Role.describe_eq_none_iff sound' t.item.role sound reached known later

end Turn

/-! ### What a file writes -/

namespace Syntax.ItemKind

/-- The edges that an item writes. -/
def edges (e : Extraction) (p : Program) (file : FileId) : ItemKind → List Reexport
  | .exportNamed specifiers (some source) =>
      match e.moduleTarget? p file source with
      | some target => specifiers.filterMap (Extraction.reexport? target)
      | none => []
  | _ => []

/-- Where the star export that an item writes leads. -/
def star? (e : Extraction) (p : Program) (file : FileId) : ItemKind → Option String
  | .exportAll source => e.moduleTarget? p file source
  | _ => none

end Syntax.ItemKind

namespace Syntax.SourceText

/-- The edges that a file writes. -/
def edges (e : Extraction) (p : Program) (file : FileId) (s : SourceText) : List Reexport :=
  s.items.flatMap fun item => item.kind.edges e p file

/-- Where the star exports that a file writes lead. -/
def stars (e : Extraction) (p : Program) (file : FileId) (s : SourceText) : List String :=
  s.items.filterMap fun item => item.kind.star? e p file

end Syntax.SourceText

namespace Extraction

open Check Checker

/-- The turn of the symbol of an exported item. -/
def visitExported (site : ModuleSite) (e : Extraction) (x : Exported) : Check Extraction :=
  e.visit site x.role.space x.name x.role.describe

theorem visitDecl_eq (e : Extraction) (site : ModuleSite) (decl : Decl) :
    e.visitDecl site decl = decl.exported.foldlM (visitExported site) e := by
  have one : ∀ x, [x].foldlM (visitExported site) e = visitExported site e x := fun x => by
    rw [List.foldlM_cons]
    exact bind_pure _
  cases decl with
  | typeAlias a => exact (one ⟨.type, a.name⟩).symm
  | interface i => exact (one ⟨.type, i.name⟩).symm
  | classDecl name class_ => exact (one ⟨.classDecl, name⟩).symm
  | function name function => exact (one ⟨.function, name⟩).symm
  | variableList isConst declarators =>
      unfold visitDecl Decl.exported
      rw [List.foldlM_filterMap]
      dsimp only
      congr 1
      funext e d
      unfold Declarator.exported?
      cases d.name <;> rfl
  | _ => rfl

/-- Where specifiers lead depends on the output paths only. -/
theorem moduleTarget?_congr {e e' : Extraction} (same : e'.outputPath = e.outputPath) (p : Program)
    (file : FileId) (specifier : String) :
    e'.moduleTarget? p file specifier = e.moduleTarget? p file specifier := by
  unfold moduleTarget?
  rw [same]

theorem edges_congr {e e' : Extraction} (same : e'.outputPath = e.outputPath) (p : Program)
    (file : FileId) (source : SourceText) : source.edges e' p file = source.edges e p file := by
  unfold SourceText.edges ItemKind.edges
  simp only [moduleTarget?_congr same]

theorem stars_congr {e e' : Extraction} (same : e'.outputPath = e.outputPath) (p : Program)
    (file : FileId) (source : SourceText) : source.stars e' p file = source.stars e p file := by
  unfold SourceText.stars ItemKind.star?
  simp only [moduleTarget?_congr same]

/-- The turn of a symbol, by whether it has had one. -/
theorem visit_of_lookup {e : Extraction} {site : ModuleSite} {space : Space} {name : String}
    {describe : SymbolId → Check (Option Content)} {p : Program} {c : Checker} {s : SymbolId}
    (found : c.bindings.lookup site.file none space name = some s) :
    (e.visit site space name describe).outcome p c =
      if s ∈ e.extracted then (e, c)
      else (((describe s).outcome p c).1.elim (e.claimed s) fun content => (e.claimed s).store site
        name (((describe s).outcome p c).2.bindings.documentation s) content,
        ((describe s).outcome p c).2) := by
  unfold visit claim Check.lookup
  split
  · rename_i known
    simp [found, known]
  · rename_i new
    simp only [Check.outcome_bind, Check.outcome_state, Check.outcome_pure, found,
      List.contains_eq_mem, new, decide_false, Bool.false_eq_true, ↓reduceIte]
    cases ((describe s).outcome p c).1 <;> rfl

theorem describes (role : Role) : Describes role.space role.describe := by
  cases role with
  | type => exact .type
  | classDecl => exact .classDecl
  | function => exact .function
  | variableDecl d => exact .variableDecl d

/-- The name and the body of each declaration of a module. -/
def listed (m : Module) : List (String × DeclarationBody) :=
  m.declarations.values.map fun d => (d.name, d.body)

theorem listed_insert {m : Module} {id : String} (absent : id ∉ m.declarations.keys)
    (d : Declaration) : listed { m with declarations := m.declarations.insert id d } =
      listed m ++ [(d.name, d.body)] := by
  simp only [listed, OrdMap.values, OrdMap.entries_insert_new _ _ _ absent, List.map_append,
    List.map_cons, List.map_nil]

theorem Valid.fresh_in {e : Extraction} (valid : e.Valid) {path : String} {m : Module}
    (there : e.package.modules.get? path = some m) : toString e.nextId ∉ m.declarations.keys := by
  intro known
  obtain ⟨⟨id, d⟩, entry, same⟩ := List.mem_map.mp known
  have recorded := (valid.stored path m id d there
    ((OrdMap.get?_eq_some_iff _ id d).mpr entry)).2.2
  exact valid.ne_of_recorded recorded same

/-- How far a file has been read since the module was opened: the exported items, edges and stars
that have been passed. -/
structure Reading (p : Program) (site : ModuleSite) (e₀ : Extraction) (c₀ : Checker)
    (items : List Exported) (edges : List Reexport) (stars : List StarExport)
    (e : Extraction) (c : Checker) : Prop where
  valid : e.Valid
  sound : c.Sound p
  later : c₀.Later c
  place : e.outputPath = e₀.outputPath
  keys : e.package.modules.keys = e₀.package.modules.keys
  others : ∀ path ≠ site.outPath, e.package.modules.get? path = e₀.package.modules.get? path
  stars : e.stars = e₀.stars ++ stars
  own : ∃ m, e.package.modules.get? site.outPath = some m ∧ m.reexports = edges ∧
    listed m = (turns p site.file items).filterMap (·.shown? p c)
  settled : ∀ t ∈ turns p site.file items, t.Settled p c
  extracted : ∀ s, s ∈ e.extracted ↔ s ∈ e₀.extracted ∨ ∃ t ∈ turns p site.file items, t.symbol = s

namespace Reading

variable {p : Program} {site : ModuleSite} {e₀ : Extraction} {c₀ : Checker}
  {items : List Exported} {edges : List Reexport} {stars : List StarExport}
  {e : Extraction} {c : Checker}

/-- What the turns that were had show stays in later states. -/
theorem shown (reading : Reading p site e₀ c₀ items edges stars e c) {c' : Checker}
    (later : c.Later c') (sound : c'.Sound p) :
    (turns p site.file items).filterMap (·.shown? p c') =
      (turns p site.file items).filterMap (·.shown? p c) :=
  List.filterMap_congr fun t inside => (reading.settled t inside).shown? later sound

theorem addEdges (reading : Reading p site e₀ c₀ items edges stars e c) {more : List Reexport}
    (unlinked : ∀ edge ∈ more, edge.id = "") :
    Reading p site e₀ c₀ items (edges ++ more) stars (e.addEdges site more) c where
  valid := valid_addEdges reading.valid site more unlinked
  sound := reading.sound
  later := reading.later
  place := reading.place
  keys := (keys_addEdges e site more).trans reading.keys
  others path other := by
    rw [get?_modules_addEdges, ← reading.others path other]
    simp [other]
  stars := reading.stars
  own := by
    obtain ⟨m, there, own, shown⟩ := reading.own
    rw [get?_modules_addEdges, there]
    refine ⟨_, rfl, ?_, ?_⟩
    · simp [own]
    · simpa [listed] using shown
  settled := reading.settled
  extracted := reading.extracted

theorem addStar (reading : Reading p site e₀ c₀ items edges stars e c) (target : String) :
    Reading p site e₀ c₀ items edges (stars ++ [⟨site.outPath, target⟩]) (e.addStar site target) c where
  valid := valid_addStar reading.valid site target
  sound := reading.sound
  later := reading.later
  place := reading.place
  keys := reading.keys
  others := reading.others
  stars := by
    change e.stars ++ _ = _
    rw [reading.stars, List.append_assoc]
  own := reading.own
  settled := reading.settled
  extracted := reading.extracted

/-- A symbol has its turn: it is claimed, and what it is described by is stored. -/
theorem turn (reading : Reading p site e₀ c₀ items edges stars e c) {t : Turn}
    (next : turns p site.file (items ++ [t.item]) = turns p site.file items ++ [t]) {c' : Checker}
    (later : c.Later c') (sound : c'.Sound p) (settled : t.Settled p c') {described : Option Content}
    (told : c'.answer p t.describe = described) (documentation : String) :
    Reading p site e₀ c₀ (items ++ [t.item]) edges stars
      (described.elim (e.claimed t.symbol) fun content =>
        (e.claimed t.symbol).store site t.item.name documentation content) c' where
  valid := by
    have claimed := valid_claimed reading.valid t.symbol
    cases described with
    | none => exact claimed
    | some content =>
        obtain ⟨m, there, _⟩ := reading.own
        refine valid_store claimed site t.item.name documentation content ?_ fun declares => ?_
        · exact OrdMap.mem_keys_of_mem ((OrdMap.get?_eq_some_iff _ _ _).mp there)
        · exact (describes t.item.role).isType told declares _ rfl
  sound := sound
  later := reading.later.trans later
  place := by cases described <;> exact reading.place
  keys := by
    cases described with
    | none => exact reading.keys
    | some content => exact (keys_store _ site _ _ _).trans reading.keys
  others path other := by
    cases described with
    | none => exact reading.others path other
    | some content =>
        rw [Option.elim_some, get?_modules_store, ← reading.others path other]
        simp [other, claimed]
  stars := by cases described <;> exact reading.stars
  own := by
    obtain ⟨m, there, own, shown⟩ := reading.own
    rw [next, List.filterMap_append, reading.shown later sound, ← shown]
    cases described with
    | none => exact ⟨m, there, own, by simp [Turn.shown?, told]⟩
    | some content =>
        have fresh := reading.valid.fresh_in there
        rw [Option.elim_some, get?_modules_store]
        refine ⟨_, congrArg _ there, ?_⟩
        simp only [↓reduceIte]
        refine ⟨own, (listed_insert fresh _).trans ?_⟩
        simp [Turn.shown?, told, Extraction.next]
  settled u inside := by
    rw [next] at inside
    rcases List.mem_append.mp inside with old | new
    · exact (reading.settled u old).later later sound
    · exact List.mem_singleton.mp new ▸ settled
  extracted s := by
    have all : (described.elim (e.claimed t.symbol) fun content =>
        (e.claimed t.symbol).store site t.item.name documentation content).extracted =
        t.symbol :: e.extracted := by cases described <;> rfl
    rw [all, next, List.mem_cons, reading.extracted s]
    simp only [List.mem_append, List.mem_singleton, or_and_right, exists_or, exists_eq_left]
    rw [eq_comm (a := s), or_comm, or_assoc]

theorem visit (reading : Reading p site e₀ c₀ items edges stars e c) (reached : Reached p c₀)
    {x : Exported} {s : SymbolId} {y : Symbol} (named : x.symbol? p site.file = some s)
    (there : (Bindings.ofProgram p).symbol? s = some y) (new : s ∉ e₀.extracted) :
    Reading p site e₀ c₀ (items ++ [x]) edges stars ((visitExported site e x).outcome p c).1
      ((visitExported site e x).outcome p c).2 := by
  have now : Reached p c := reached.trans reading.later
  have found : c.bindings.lookup site.file none x.role.space x.name = some s :=
    (now.bindings.lookup site.file x.role.space x.name).trans named
  have next := turns_concat p site.file items named
  unfold visitExported
  rw [visit_of_lookup found]
  have had : s ∈ e.extracted ↔ ∃ t ∈ turns p site.file items, t.symbol = s := by
    rw [reading.extracted s]
    exact or_iff_right new
  by_cases known : s ∈ e.extracted
  · rw [if_pos known]
    rw [if_pos (had.mp known), List.append_nil] at next
    exact { reading with
      own := next ▸ reading.own
      settled := next ▸ reading.settled
      extracted := next ▸ reading.extracted }
  · rw [if_neg known]
    rw [if_neg (fun turn => known (had.mpr turn))] at next
    let t : Turn := ⟨x, s⟩
    have symbol : Known c t.symbol := known_symbol_iff.mpr
      (Option.isSome_iff_exists.mpr ⟨y, now.bindings.symbol s y there⟩)
    obtain ⟨sound, settled, told⟩ := Turn.settled_after reading.sound now symbol
    exact reading.turn next (t.describe.kept p c) sound settled told _

/-- The symbol of an exported item is there, and has had no turn before the file was read. -/
def Fresh (p : Program) (site : ModuleSite) (e₀ : Extraction) (x : Exported) : Prop :=
  ∃ s y, x.symbol? p site.file = some s ∧ (Bindings.ofProgram p).symbol? s = some y ∧
    s ∉ e₀.extracted

theorem exports (reading : Reading p site e₀ c₀ items edges stars e c) (reached : Reached p c₀)
    {list : List Exported} (fresh : ∀ x ∈ list, Fresh p site e₀ x) :
    let r := (list.foldlM (visitExported site) e).outcome p c
    Reading p site e₀ c₀ (items ++ list) edges stars r.1 r.2 := by
  induction list generalizing items e c with
  | nil => simpa using reading
  | cons x rest ih =>
      obtain ⟨s, y, named, there, new⟩ := fresh x List.mem_cons_self
      have all := ih (reading.visit reached named there new)
        fun x inside => fresh x (List.mem_cons_of_mem _ inside)
      rw [List.append_assoc] at all
      exact all

theorem item (reading : Reading p site e₀ c₀ items edges stars e c) (reached : Reached p c₀)
    {ambient : Bool} {item : Item} (fresh : ∀ x ∈ item.kind.exported ambient, Fresh p site e₀ x) :
    let r := (visitItem site ambient e item).outcome p c
    Reading p site e₀ c₀ (items ++ item.kind.exported ambient)
      (edges ++ item.kind.edges e₀ p site.file)
      (stars ++ (item.kind.star? e₀ p site.file).toList.map fun target => ⟨site.outPath, target⟩)
      r.1 r.2 := by
  obtain ⟨_, _, _, doc, kind⟩ := item
  have nothing : Reading p site e₀ c₀ (items ++ []) (edges ++ []) (stars ++ []) e c := by
    simpa using reading
  have one : ∀ {m : Check Extraction} (x : Exported), m = visitExported site e x →
      Fresh p site e₀ x → Reading p site e₀ c₀ (items ++ [x]) (edges ++ []) (stars ++ [])
        (m.outcome p c).1 (m.outcome p c).2 := by
    rintro m x rfl ⟨s, y, named, there, new⟩
    simpa using reading.visit reached named there new
  have declared : ∀ decl : Decl, (∀ x ∈ decl.exported, Fresh p site e₀ x) →
      Reading p site e₀ c₀ (items ++ decl.exported) (edges ++ []) (stars ++ [])
        ((e.visitDecl site decl).outcome p c).1 ((e.visitDecl site decl).outcome p c).2 := by
    intro decl fresh
    rw [visitDecl_eq]
    simpa using reading.exports reached fresh
  cases kind with
  | exportDecl decl => exact declared decl fresh
  | exportDefault decl =>
      cases decl with
      | classDecl name class_ =>
          cases name with
          | none => exact nothing
          | some name => exact one ⟨.classDecl, name⟩ rfl (fresh _ List.mem_cons_self)
      | function name function =>
          cases name with
          | none => exact nothing
          | some name => exact one ⟨.function, name⟩ rfl (fresh _ List.mem_cons_self)
      | interface i => exact one ⟨.type, i.name⟩ rfl (fresh _ List.mem_cons_self)
  | exportNamed specifiers source =>
      cases source with
      | none => exact nothing
      | some source =>
          simp only [visitItem, outcome_bind, outcome_read, outcome_pure, visitReexport,
            moduleTarget?_congr reading.place, ItemKind.edges, ItemKind.exported, ItemKind.star?]
          cases e₀.moduleTarget? p site.file source with
          | none => exact nothing
          | some target =>
              have unlinked : ∀ edge ∈ specifiers.filterMap (reexport? target), edge.id = "" := by
                intro edge inside
                obtain ⟨specifier, _, named⟩ := List.mem_filterMap.mp inside
                exact id_reexport? target specifier edge named
              simpa using reading.addEdges unlinked
  | exportAll source =>
      simp only [visitItem, outcome_bind, outcome_read, outcome_pure, visitStar,
        moduleTarget?_congr reading.place, ItemKind.edges, ItemKind.exported, ItemKind.star?]
      cases e₀.moduleTarget? p site.file source with
      | none => exact nothing
      | some target => simpa using reading.addStar target
  | decl decl =>
      cases ambient with
      | true => exact declared decl fresh
      | false => exact nothing
  | _ => exact nothing

theorem file {source : SourceText} (reading : Reading p site e₀ c₀ [] [] [] e c)
    (reached : Reached p c₀) (fresh : ∀ x ∈ source.exported, Fresh p site e₀ x) :
    let r := (source.items.foldlM (visitItem site source.isAmbient) e).outcome p c
    Reading p site e₀ c₀ source.exported (source.edges e₀ p site.file)
      ((source.stars e₀ p site.file).map fun target => ⟨site.outPath, target⟩) r.1 r.2 := by
  have loop : ∀ (rest : List Item) {items edges stars e c},
      Reading p site e₀ c₀ items edges stars e c →
      (∀ x ∈ rest.flatMap fun item => item.kind.exported source.isAmbient, Fresh p site e₀ x) →
      let r := (rest.foldlM (visitItem site source.isAmbient) e).outcome p c
      Reading p site e₀ c₀ (items ++ rest.flatMap fun item => item.kind.exported source.isAmbient)
        (edges ++ rest.flatMap fun item => item.kind.edges e₀ p site.file)
        (stars ++ (rest.filterMap fun item => item.kind.star? e₀ p site.file).map
          fun target => ⟨site.outPath, target⟩) r.1 r.2 := by
    intro rest
    induction rest with
    | nil =>
        intro items edges stars e c reading _
        simpa using reading
    | cons first rest ih =>
        intro items edges stars e c reading fresh
        rw [List.flatMap_cons] at fresh
        have all := ih (reading.item reached fun x inside => fresh x (List.mem_append_left _ inside))
          fun x inside => fresh x (List.mem_append_right _ inside)
        have stars : (List.filterMap (fun item => item.kind.star? e₀ p site.file) (first :: rest)) =
            (first.kind.star? e₀ p site.file).toList ++
              rest.filterMap fun item => item.kind.star? e₀ p site.file := by
          cases found : first.kind.star? e₀ p site.file <;> simp [found]
        rw [List.flatMap_cons, List.flatMap_cons, stars, List.map_append]
        simp only [List.append_assoc] at all ⊢
        exact all
  have all := loop source.items reading fresh
  simp only [List.nil_append] at all
  exact all

end Reading

theorem reading_openModule {p : Program} {e : Extraction} {c : Checker} (valid : e.Valid)
    (sound : c.Sound p) (file : FileId) {source : SourceFile}
    (absent : e.outputPath source.path ∉ e.package.modules.keys) :
    Reading p ⟨file, e.outputPath source.path⟩ (e.openModule source) c [] [] []
      (e.openModule source) c where
  valid := valid_openModule valid source absent
  sound := sound
  later := .refl c
  place := rfl
  keys := rfl
  others _ _ := rfl
  stars := (List.append_nil _).symm
  own := ⟨_, OrdMap.get?_insert_self _ _ _, rfl, rfl⟩
  settled _ inside := by cases inside
  extracted s := by
    simp [turns]

end Extraction

end ApiDocs
