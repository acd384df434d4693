import ApiDocs.Proofs.Mapped.Instance
import ApiDocs.Proofs.Mapped.Keys

set_option autoImplicit false

/-!
The constraint and the template of a mapped type `{ [P in keyof T]: T[P] }` when an object type is put
in for `T`. The constraint is worked out to the keys at once, while the template waits for `P`. With a
key put in for `P` it comes to what the member of that name comes to.
-/

namespace ApiDocs

/-! ### Free keys in later states -/

section

variable {c : Checker} {u : TypeId}

theorem Signature.known_of_mem_parts {s : Signature} (known : Known c s) (inside : u ∈ s.parts) :
    Known c u := by
  rcases Signature.mem_parts.mp inside with ⟨x, listed, rfl⟩ | rfl
  · have params : Known c s.params := inferInstance
    have := params.mem listed
    infer_instance
  · infer_instance

theorem Shape.known_of_mem_parts {s : Shape} (known : Known c s) (inside : u ∈ s.parts) :
    Known c u := by
  rcases Shape.mem_parts.mp inside with
    ⟨m, listed, rfl⟩ | ⟨x, listed, part⟩ | ⟨x, listed, part⟩ | ⟨i, found, rfl⟩ | ⟨i, found, rfl⟩
  · have members : Known c s.members := inferInstance
    have := members.mem listed
    infer_instance
  · have call : Known c s.call := inferInstance
    exact Signature.known_of_mem_parts (call.mem listed) part
  · have construct : Known c s.construct := inferInstance
    exact Signature.known_of_mem_parts (construct.mem listed) part
  · have index : Known c s.stringIndex := inferInstance
    have := known_option_iff.mp index i found
    infer_instance
  · have index : Known c s.numberIndex := inferInstance
    have := known_option_iff.mp index i found
    infer_instance

theorem TypeData.known_of_mem_parts {data : TypeData} (known : Known c data)
    (inside : u ∈ data.parts) : Known c u := by
  cases data with
  | union types => exact (known_union_iff.mp known).mem inside
  | intersection types => exact (known_intersection_iff.mp known).mem inside
  | tuple types => exact (known_tuple_iff.mp known).mem inside
  | reference s args => exact (known_reference_iff.mp known).2.mem inside
  | nominal s args => exact (known_nominal_iff.mp known).2.mem inside
  | unresolved name args => exact (known_unresolved_iff.mp known).mem inside
  | object shape => exact Shape.known_of_mem_parts (known_object_iff.mp known) inside
  | keyOf inner =>
      rw [List.mem_singleton.mp inside]
      exact known_keyOf_iff.mp known
  | indexedAccess whole key =>
      obtain ⟨first, second⟩ := known_indexedAccess_iff.mp known
      rcases List.mem_cons.mp inside with rfl | last
      · exact first
      · exact List.mem_singleton.mp last ▸ second
  | mapped m =>
      have := known_mapped_iff.mp known
      rcases List.mem_cons.mp inside with rfl | last
      · infer_instance
      · rw [List.mem_singleton.mp last]
        infer_instance
  | intrinsic | booleanLiteral | numberLiteral | stringLiteral | typeParameter => cases inside

theorem TypeInfo.known_of_mem_openParts {info : TypeInfo} (known : Known c info) {key : TypeId}
    (inside : u ∈ info.openParts key) : Known c u := by
  have data : Known c info.data := inferInstance
  have written : Known c info.writtenAs := inferInstance
  rcases List.mem_append.mp inside with arg | part
  · cases found : info.writtenAs with
    | none =>
        rw [found] at arg
        cases arg
    | some ref =>
        rw [found] at arg written
        have := written.of_some
        have args : Known c ref.args := inferInstance
        exact args.mem arg
  · exact TypeData.known_of_mem_parts data (TypeData.openParts_subset key _ part)

end

namespace Checker

variable {n : Nat} {p : Program} {c c' : Checker}

/-- What is free in a type that is there was so before. -/
theorem Since.occurs (since : Since n c c') (sound : c.Sound p) {key t : TypeId}
    (known : Known c t) (occurs : c'.arena.Occurs key t) : c.arena.Occurs key t := by
  induction occurs using Relation.ReflTransGen.head_induction_on with
  | refl => exact .refl
  | @head t u part _ ih =>
      have there := known_type_iff.mp known
      rw [since.info t there] at part
      exact .head part (ih (TypeInfo.known_of_mem_openParts (sound.infos t there) part))

end Checker

theorem Arena.spares_single {a : Arena} {key image t : TypeId} (free : ¬ a.Occurs key t) :
    a.Spares [(key, image)] t := by
  intro other found entry occurs
  rcases Decidable.em (other = key) with rfl | differs
  · exact absurd occurs free
  · rw [List.lookup_cons, beq_eq_false_iff_ne.mpr differs] at entry
    cases entry

/-- Nothing else is free in a type without parts. -/
theorem Arena.not_occurs_of_no_parts {a : Arena} {key t : TypeId} (parts : (a.info t).parts = [])
    (differs : key ≠ t) : ¬ a.Occurs key t := by
  intro occurs
  rcases Relation.ReflTransGen.cases_head occurs.reaches with same | ⟨u, part, _⟩
  · exact differs same.symm
  · rw [parts] at part
    cases part

namespace Checker

open Check

variable {n : Nat} {p : Program} {c c' : Checker}

/-! ### Mapped types over the keys of a parameter -/

/-- In the state `c`, `m` is `{ [P in keyof T]: T[P] }`, with `param` for `T`. -/
structure OfKeys (c : Checker) (param : TypeId) (m : MappedType) : Prop where
  constraint : c.arena.info m.constraint = ⟨.keyOf param, none⟩
  template : c.arena.info m.template = ⟨.indexedAccess param m.param, none⟩
  isParam : ∃ x, c.arena.info param = ⟨.typeParameter x, none⟩
  isKey : ∃ x, c.arena.info m.param = ⟨.typeParameter x, none⟩
  differ : param ≠ m.param

/-- A type below `n` with members. -/
structure Source (n : Nat) (c : Checker) (source : TypeId) : Prop where
  below : source.index < n
  object : (c.arena.data source).hasMembers = true

namespace OfKeys

variable {param : TypeId} {m : MappedType}

theorem later (maps : OfKeys c param m) (since : Since n c c') : OfKeys c' param m := by
  obtain ⟨x, isParam⟩ := maps.isParam
  obtain ⟨y, isKey⟩ := maps.isKey
  exact ⟨since.info_eq maps.constraint nofun, since.info_eq maps.template nofun,
    ⟨x, since.info_eq isParam nofun⟩, ⟨y, since.info_eq isKey nofun⟩, maps.differ⟩

end OfKeys

namespace Source

variable {source : TypeId}

theorem inside (object : Source n c source) : source.index < c.arena.size := by
  refine Arena.lt_size_of_data (a := c.arena) rfl fun any => ?_
  have members := object.object
  rw [any] at members
  cases members

theorem later (object : Source n c source) (since : Since n c c') : Source n c' source :=
  ⟨object.below, by rw [since.data object.inside]; exact object.object⟩

theorem ne_of_info (object : Source n c source) {t : TypeId} {x : TypeParameter}
    (info : c.arena.info t = ⟨.typeParameter x, none⟩) : source ≠ t := by
  rintro rfl
  have members := object.object
  rw [Arena.data, info] at members
  cases members

theorem plain (object : Source n c source) : (c.arena.data source).isOperator = false :=
  TypeData.isOperator_of_hasMembers object.object

end Source

/-- Types that differ from the key are not looked up. -/
theorem lookup_single {key image t : TypeId} (differs : t ≠ key) :
    [(key, image)].lookup t = none := by
  rw [List.lookup_cons, beq_eq_false_iff_ne.mpr differs]
  rfl

/-- Substitution in a type without a name. It goes into the parts first, and the type is made anew
unless all parts have stayed the same. -/
theorem ends_substituteAt_parts {calls : Calls} {j : Nat} {map : Substitution} {t : TypeId}
    {data : TypeData} (info : c.arena.info t = ⟨data, none⟩) (some : data ≠ .intrinsic .any)
    (apart : map.lookup t = none) {between : TypeData → Checker → Prop}
    (parts : Ends n p c (mapParts (substituteAt calls j) map data) between)
    {post : TypeId → Checker → Prop}
    (same : ∀ c', Since n c c' → Ready n p c' → between data c' → post t c')
    (rest : ∀ put c', Since n c c' → Ready n p c' → between put c' → put ≠ data →
      Ends n p c' (rebuild calls put none) post) :
    Ends n p c (substituteAt calls (j + 1) map t) post := by
  intro c' since ready
  have here : c'.arena.info t = ⟨data, none⟩ := since.info_eq info some
  obtain ⟨after, holds⟩ := parts c' since ready
  let done := (mapParts (substituteAt calls j) map data).outcome p c'
  have later : Since n c done.2 := since.trans (.outcome n _ p c')
  have whole : (substituteAt calls (j + 1) map t).outcome p c' =
      (if done.1 = data then pure t else rebuild calls done.1 none).outcome p done.2 := by
    unfold substituteAt
    rw [apart]
    dsimp only
    rw [outcome_bind, outcome_info, here]
    dsimp only
    rw [show (Option.mapM _ none : Check (Option AliasRef)) = pure none from rfl, pure_bind, outcome_bind]
    simp only [and_true]
    rfl
  rw [whole]
  by_cases unchanged : done.1 = data
  · rw [if_pos unchanged]
    exact ⟨after, same _ later after (unchanged ▸ holds)⟩
  · rw [if_neg unchanged]
    exact rest _ _ later after holds unchanged _ (.refl n _) after

/-- Substitution in an operator without a name, whose parts can be put in without more ado. -/
theorem ends_substituteAt {calls : Calls} {j : Nat} {map : Substitution} {t : TypeId}
    {data put : TypeData} (info : c.arena.info t = ⟨data, none⟩) (operator : data.isOperator = true)
    (apart : map.lookup t = none) (changed : put ≠ data) (again : put.isOperator = true)
    (parts : ∀ c', Since n c c' → Ready n p c' →
      (mapParts (substituteAt calls j) map data).outcome p c' = (put, c'))
    {post : TypeId → Checker → Prop} (rest : Ends n p c (makeNew calls put) post) :
    Ends n p c (substituteAt calls (j + 1) map t) post := by
  have some : data ≠ .intrinsic .any := by
    rintro rfl
    cases operator
  have made : Ends n p c (mapParts (substituteAt calls j) map data) fun made _ => made = put := by
    intro c' since ready
    rw [parts c' since ready]
    exact ⟨ready, rfl⟩
  refine ends_substituteAt_parts info some apart made ?_ ?_
  · exact fun _ _ _ same => absurd same.symm changed
  · intro made c' since _ same _
    rw [same, rebuild_operator calls again]
    exact rest.later since

variable {param source : TypeId} {m : MappedType} (k j : Nat)

/-- The constraint is worked out to the keys of the source. -/
theorem ends_constraint (ready : Ready n p c) (maps : OfKeys c param m) (object : Source n c source) :
    Ends n p c (substituteAt (callsTo (k + 2)) (j + 1) [(param, source)] m.constraint) fun keys c' =>
      ∃ shape, c'.shapes.find? source = some shape ∧
        (shape.OnlyNames → KeysOf c' shape.members keys) := by
  obtain ⟨x, isParam⟩ := maps.isParam
  have apart : m.constraint ≠ param := by
    intro same
    have both := maps.constraint.symm.trans (same ▸ isParam)
    cases both
  have put : ∀ c', (mapParts (substituteAt (callsTo (k + 2)) j) [(param, source)]
      (.keyOf param)).outcome p c' = (.keyOf source, c') := fun c' =>
    bind_of_outcome (substituteAt_key (callsTo (k + 2)) j List.lookup_cons_self) _
  have changed : TypeData.keyOf source ≠ .keyOf param := by
    intro same
    cases same
    exact object.ne_of_info isParam rfl
  have : Known c source := known_type_iff.mpr object.inside
  refine ends_substituteAt maps.constraint rfl (lookup_single apart) changed rfl
    (fun c' _ _ => put c') ?_
  refine ends_makeNew (k + 1) ready rfl (fun r c₁ c₂ since ⟨shape, found, listed⟩ =>
      ⟨shape, since.shapes _ _ object.below found, fun only => (listed only).later since⟩)
    fun t c₁ since₁ ready₁ _ => ?_
  exact ends_evaluateKeyOf k ready₁ object.below (object.later since₁).object t

/-- The two sides of an access, if neither has to be worked out. -/
theorem ends_sides {next : TypeId → TypeId → Bool → Bool → Check TypeId} {key : TypeId}
    {post : TypeId → Checker → Prop} (ready : Ready n p c) (object : Source n c source)
    (inside : key.index < c.arena.size) (plain : (c.arena.data key).isOperator = false)
    (rest : ∀ c', Since n c c' → Ready n p c' →
      Ends n p c' (next source key false (c.arena.data key).isParameter) post) :
    Ends n p c (do
      let object ← (callsTo (k + 1)).ask (.evaluate source)
      let index ← (callsTo (k + 1)).ask (.evaluate key)
      let first ← isWaiting object
      let second ← isWaiting index
      next object index first second) post := by
  refine .bind (ends_evaluate_plain k ready object.inside object.plain) fun _ c₁ since₁ ready₁ same => ?_
  subst same
  refine .bind (ends_evaluate_plain k ready₁ (since₁.inside inside)
    (by rwa [since₁.data inside])) fun _ c₂ since₂ ready₂ same => ?_
  subst same
  have since := since₁.trans since₂
  refine .bind (ends_isWaiting (since.inside object.inside)) fun first c₃ since₃ _ waits => ?_
  rw [waits, since.data object.inside, TypeData.isParameter_of_hasMembers object.object]
  have since := since.trans since₃
  refine .bind (ends_isWaiting (since.inside inside)) fun second c₄ since₄ ready₄ waits => ?_
  rw [waits, since.data inside]
  exact rest c₄ (since.trans since₄) ready₄

/-- The template waits for its key. -/
theorem ends_indexedAccess_waiting (ready : Ready n p c) (object : Source n c source) {key : TypeId}
    {x : TypeParameter} (isKey : c.arena.info key = ⟨.typeParameter x, none⟩) (whole : TypeId) :
    Ends n p c (indexedAccess (callsTo (k + 1)) whole source key) fun r _ => r = whole := by
  have data : c.arena.data key = .typeParameter x := congrArg TypeInfo.data isKey
  unfold indexedAccess
  refine ends_sides k ready object (Arena.lt_size_of_data data nofun) (by rw [data]; rfl)
    fun c' _ _ => ?_
  rw [data]
  exact .pure fun _ _ => rfl

theorem ends_template (ready : Ready n p c) (maps : OfKeys c param m) (object : Source n c source) :
    Ends n p c (substituteAt (callsTo (k + 2)) (j + 1) [(param, source)] m.template) fun t c' =>
      c'.arena.info t = ⟨.indexedAccess source m.param, none⟩ := by
  obtain ⟨x, isParam⟩ := maps.isParam
  obtain ⟨y, isKey⟩ := maps.isKey
  have apart : m.template ≠ param := by
    intro same
    have both := maps.template.symm.trans (same ▸ isParam)
    cases both
  have put : ∀ c', Since n c c' → (mapParts (substituteAt (callsTo (k + 2)) j) [(param, source)]
      (.indexedAccess param m.param)).outcome p c' = (.indexedAccess source m.param, c') := by
    intro c' since
    have first : (substituteAt (callsTo (k + 2)) j [(param, source)] param).outcome p c' = _ :=
      substituteAt_key (callsTo (k + 2)) j List.lookup_cons_self
    have second : (substituteAt (callsTo (k + 2)) j [(param, source)] m.param).outcome p c' = _ :=
      substituteAt_same (callsTo (k + 2)) j _ _ (Arena.spares_single
        (Arena.not_occurs_of_no_parts (by rw [since.info_eq isKey nofun]; rfl) maps.differ))
    exact (bind_of_outcome first _).trans (bind_of_outcome second _)
  have changed : TypeData.indexedAccess source m.param ≠ .indexedAccess param m.param := by
    intro same
    cases same
    exact object.ne_of_info isParam rfl
  have : Known c source := known_type_iff.mpr object.inside
  have : Known c m.param :=
    known_type_iff.mpr (inside_of_info isKey nofun)
  refine ends_substituteAt maps.template rfl (lookup_single apart) changed rfl
    (fun c' since _ => put c' since) ?_
  refine ends_makeNew_waiting (k + 1) ready rfl fun t c₁ since ready₁ => ?_
  exact ends_indexedAccess_waiting k ready₁ (object.later since) (since.info_eq isKey nofun) t

/-! ### Keys put into the template -/

/-- The access to a member that is known gives the type of the member. -/
theorem ends_indexedAccess_member (ready : Ready n p c) (object : Source n c source) {shape : Shape}
    (found : c.shapes.find? source = some shape) {q : Member} (member : shape.member? q.name = some q)
    {key : TypeId} (literal : c.arena.data key = .stringLiteral q.name) (whole : TypeId) :
    Ends n p c (indexedAccess (callsTo (k + 1)) whole source key) fun r _ => r = q.type := by
  have inside : key.index < c.arena.size := Arena.lt_size_of_data literal nofun
  unfold indexedAccess
  refine ends_sides k ready object inside (by rw [literal]; rfl) fun c₁ since₁ _ => ?_
  rw [literal]
  refine .bind (ends_data (since₁.inside inside)) fun data c₂ since₂ _ same => ?_
  rw [same, since₁.data inside, literal]
  have since := since₁.trans since₂
  refine .bind (ends_shape_of_known k object.below (since.shapes _ _ object.below found))
    fun answer c₃ _ _ same => ?_
  rw [same, member]
  exact .pure fun _ _ => rfl

/-- With the key of a member put in, the template comes to what the type of the member comes to. -/
theorem ends_templateAt (ready : Ready n p c) (object : Source n c source)
    (template : c.arena.info m.template = ⟨.indexedAccess source m.param, none⟩)
    (isKey : ∃ x, c.arena.info m.param = ⟨.typeParameter x, none⟩)
    (free : ¬ c.arena.Occurs m.param source) {shape : Shape}
    (found : c.shapes.find? source = some shape) {q : Member} (member : shape.member? q.name = some q)
    (below : q.type.index < n) {key : TypeId} (literal : c.arena.data key = .stringLiteral q.name) :
    Ends n p c (templateAt (callsTo (k + 2)) m key) fun r c' =>
      c'.evaluated.find? q.type = some r := by
  obtain ⟨x, isKey⟩ := isKey
  have inside : key.index < c.arena.size := Arena.lt_size_of_data literal nofun
  have apart : m.template ≠ m.param := by
    intro same
    have both := template.symm.trans (same ▸ isKey)
    cases both
  have differs : key ≠ m.param := by
    rintro rfl
    rw [Arena.data, isKey] at literal
    cases literal
  have put : ∀ c', Since n c c' → (mapParts (substituteAt (callsTo (k + 2)) 32) [(m.param, key)]
      (.indexedAccess source m.param)).outcome p c' = (.indexedAccess source key, c') := by
    intro c' since
    have known : Known c source := known_type_iff.mpr object.inside
    have first : (substituteAt (callsTo (k + 2)) 32 [(m.param, key)] source).outcome p c' = _ :=
      substituteAt_same (callsTo (k + 2)) 32 _ _ (Arena.spares_single fun occurs =>
        free (since.occurs ready.sound known occurs))
    have second : (substituteAt (callsTo (k + 2)) 32 [(m.param, key)] m.param).outcome p c' = _ :=
      substituteAt_key (callsTo (k + 2)) 32 List.lookup_cons_self
    exact (bind_of_outcome first _).trans (bind_of_outcome second _)
  have changed : TypeData.indexedAccess source key ≠ .indexedAccess source m.param := by
    intro same
    cases same
    exact differs rfl
  have : Known c source := known_type_iff.mpr object.inside
  have : Known c key := known_type_iff.mpr inside
  have value : Ends n p c (substitute (callsTo (k + 2)) [(m.param, key)] m.template) fun r _ =>
      r = q.type := by
    refine ends_substituteAt template rfl (lookup_single apart) changed rfl (fun c' since _ => put c' since) ?_
    refine ends_makeNew (k + 1) ready rfl (fun r c₁ c₂ since same => same)
      fun t c₁ since ready₁ _ => ?_
    exact ends_indexedAccess_member k ready₁ (object.later since) (since.shapes _ _ object.below found)
      member ((since.data inside).trans literal) t
  refine .bind value fun r c₁ _ ready₁ same => ?_
  rw [same]
  exact ends_evaluate (k + 1) ready₁ below

end Checker

end ApiDocs
