import ApiDocs.Proofs.Mapped.Templates

set_option autoImplicit false

/-!
The members of an instance of `{ [P in keyof T]: T[P] }`. By the time that the members are made, the
constraint is no `keyof` any more but a union of keys. So each member is made from its key alone: it
has the type of the member of that name, and neither its flags nor its documentation.
-/

namespace ApiDocs.Checker

open Check

variable {n : Nat} {p : Program} {c c' : Checker}

/-! ### What the members are made from -/

/-- What a type comes to, as far as it is known. -/
def comesTo (c : Checker) (t : TypeId) : TypeId := (c.evaluated.find? t).getD t

def Worked (c : Checker) (t : TypeId) : Prop := c.evaluated.find? t = some (c.comesTo t)

theorem comesTo_of_found {t r : TypeId} (found : c.evaluated.find? t = some r) : c.comesTo t = r := by
  rw [comesTo, found, Option.getD_some]

theorem Worked.of_found {t r : TypeId} (found : c.evaluated.find? t = some r) : c.Worked t := by
  rw [Worked, comesTo_of_found found, found]

theorem Since.worked (since : Since n c c') {t : TypeId} (below : t.index < n) (worked : c.Worked t) :
    c'.Worked t := .of_found (since.evaluated _ _ below worked)

theorem Since.comesTo (since : Since n c c') {t : TypeId} (below : t.index < n)
    (worked : c.Worked t) : c'.comesTo t = c.comesTo t :=
  comesTo_of_found (since.evaluated _ _ below worked)

/-- The member that a mapped type makes of the key of a member. -/
def keyMember (c : Checker) (m : MappedType) (q : Member) : Member :=
  ⟨q.name, c.comesTo q.type, applyModifier m.optional false, applyModifier m.readonly false, ""⟩

/-- What members are made of does not change any more, nor does their order. -/
theorem Since.keyMembers (since : Since n c c') {members : List Member} (m : MappedType)
    (below : ∀ q ∈ members, q.type.index < n) (literals : ∀ q ∈ members, c.arena.HasLiteral q.name)
    (worked : ∀ q ∈ members, c.Worked q.type) :
    (c'.inKeyOrder members).map (c'.keyMember m) = (c.inKeyOrder members).map (c.keyMember m) := by
  rw [since.inKeyOrder literals]
  refine List.map_congr_left fun q listed => ?_
  have inside := (c.inKeyOrder_perm members).mem_iff.mp listed
  rw [keyMember, keyMember, since.comesTo (below q inside) (worked q inside)]

/-- A mapped type whose template is an access to the members of `source`, which are known. -/
structure Mapping (n : Nat) (c : Checker) (source : TypeId) (shape : Shape) (m : MappedType) :
    Prop where
  object : Source n c source
  template : c.arena.info m.template = ⟨.indexedAccess source m.param, none⟩
  isKey : ∃ x, c.arena.info m.param = ⟨.typeParameter x, none⟩
  free : ¬ c.arena.Occurs m.param source
  found : c.shapes.find? source = some shape
  below : ∀ q ∈ shape.members, q.type.index < n
  distinct : shape.Distinct

namespace Mapping

variable {source : TypeId} {shape : Shape} {m : MappedType}

theorem later (maps : Mapping n c source shape m) (ready : Ready n p c) (since : Since n c c') :
    Mapping n c' source shape m where
  object := maps.object.later since
  template := since.info_eq maps.template nofun
  isKey := maps.isKey.imp fun _ info => since.info_eq info nofun
  free occurs := maps.free
    (since.occurs ready.sound (known_type_iff.mpr maps.object.inside) occurs)
  found := since.shapes _ _ maps.object.below maps.found
  below := maps.below
  distinct := maps.distinct

/-- A member is found by its name, for no other has it. -/
theorem member (maps : Mapping n c source shape m) {q : Member} (inside : q ∈ shape.members) :
    shape.member? q.name = some q := by
  have some : (shape.member? q.name).isSome = true :=
    (Shape.member?_isSome_iff shape q.name).mpr (List.mem_map_of_mem inside)
  obtain ⟨other, found⟩ := Option.isSome_iff_exists.mp some
  have name : other.name = q.name := by simpa using List.find?_some found
  rw [found, List.inj_on_of_nodup_map maps.distinct (List.mem_of_find?_eq_some found) inside name]

end Mapping

/-! ### Keys one by one -/

theorem addMember_new {s : Shape} {x : Member} (new : x.name ∉ s.members.map (·.name)) :
    s.addMember x = { s with members := s.members ++ [x] } := by
  rw [← Shape.member?_isSome_iff] at new
  exact if_neg new

variable {source : TypeId} {shape : Shape} {m : MappedType} (k : Nat)

/-- The keys of some members give these members, in that order. -/
theorem ends_mapKeys {qs : List Member} {keys : List TypeId} (keyName : String) (sofar : Shape)
    (named : List.Forall₂ (fun q key => c.arena.data key = .stringLiteral q.name) qs keys)
    (ready : Ready n p c) (maps : Mapping n c source shape m) (inside : ∀ q ∈ qs, q ∈ shape.members)
    (distinct : ((sofar.members ++ qs).map (·.name)).Nodup) :
    Ends n p c (mapKeys (callsTo (k + 2)) m keyName sofar keys) fun r c' =>
      r = some { sofar with members := sofar.members ++ qs.map (c'.keyMember m) } ∧
        ∀ q ∈ qs, c'.Worked q.type := by
  induction qs generalizing c sofar keys with
  | nil =>
      cases named
      exact .pure fun _ _ => ⟨by simp, nofun⟩
  | cons q rest ih =>
      obtain _ | ⟨literal, others⟩ := named
      rename_i key keys
      have here := inside q List.mem_cons_self
      have below := maps.below q here
      have there : key.index < c.arena.size := Arena.lt_size_of_data literal nofun
      unfold mapKeys
      refine .bind (ends_data there) fun data c₁ since₁ ready₁ same => ?_
      rw [same, literal]
      have maps₁ := maps.later ready since₁
      refine .bind (ends_templateAt k ready₁ maps₁.object maps₁.template maps₁.isKey maps₁.free
        maps₁.found (maps₁.member here) below ((since₁.data there).trans literal))
        fun t c₂ since₂ ready₂ worked => ?_
      have since := since₁.trans since₂
      have names : ((sofar.members.map (·.name)) ++ q.name :: rest.map (·.name)).Nodup := by
        simpa using distinct
      have new : q.name ∉ sofar.members.map (·.name) := fun listed =>
        List.nodup_append.mp names |>.2.2 _ listed _ List.mem_cons_self rfl
      have still : List.Forall₂ (fun q key => c₂.arena.data key = .stringLiteral q.name) rest keys :=
        others.imp fun (other : Member) key (literal : c.arena.data key = .stringLiteral other.name) =>
          (since.data (Arena.lt_size_of_data literal nofun)).trans literal
      rw [addMember_new (x := ⟨q.name, t, _, _, _⟩) new]
      refine (ih _ still ready₂ (maps₁.later ready₁ since₂)
        (fun x listed => inside x (List.mem_cons_of_mem _ listed)) (by simpa using distinct)).weaken
        fun r c₃ since₃ ⟨made, done⟩ => ?_
      have first : c₃.evaluated.find? q.type = some t := since₃.evaluated _ _ below worked
      refine ⟨?_, fun x listed => ?_⟩
      · simp only [made, List.map_cons, keyMember, comesTo_of_found first, List.append_assoc,
          List.singleton_append]
      · rcases List.mem_cons.mp listed with rfl | later
        · exact .of_found first
        · exact done x later

/-- What was just made of a mapped type over the keys of `members`. -/
structure MadeOf (c : Checker) (m : MappedType) (members : List Member) (result : TypeId) : Prop where
  data : c.arena.data result = .object { members := (c.inKeyOrder members).map (c.keyMember m) }
  unlisted : c.shapes.find? result = none ∧ result ∉ c.shapes.running
  worked : ∀ q ∈ members, c.Worked q.type
  literals : ∀ q ∈ members, c.arena.HasLiteral q.name

/-- Keys are literals or a union of them, and none are `never`. -/
theorem KeysOf.cases {members : List Member} {keys : TypeId} (here : KeysOf c members keys)
    (ready : Ready n p c) :
    (members = [] ∧ c.arena.data keys = .intrinsic .never) ∨
      (c.arena.alternatives keys = (c.inKeyOrder members).map (c.arena.literal ·.name) ∧
        ((∃ name, c.arena.data keys = .stringLiteral name) ∨
          ∃ list, c.arena.data keys = .union list)) := by
  rcases here.listed with ⟨none, rfl⟩ | listed
  · exact Or.inl ⟨none, ready.keywords .never⟩
  · refine Or.inr ⟨listed, ?_⟩
    unfold Arena.alternatives at listed
    split at listed
    · rename_i list data
      exact Or.inr ⟨list, data⟩
    · obtain ⟨q, order, literal⟩ := List.map_eq_singleton_iff.mp listed.symm
      have inside : q ∈ members := (c.inKeyOrder_perm members).mem_iff.mp (order ▸ List.mem_singleton_self q)
      exact Or.inl ⟨q.name, literal ▸ (here.literals q inside).data ready.regular.keyed⟩

/-- Whatever the keys are, they give the members in the order of the keys. -/
theorem ends_mapKeys_all (ready : Ready n p c) (maps : Mapping n c source shape m)
    {keys : TypeId} (here : KeysOf c shape.members keys) (keyName : String) :
    Ends n p c (mapKeys (callsTo (k + 2)) m keyName {} (c.arena.alternatives keys)) fun r c' =>
      r = some { members := (c.inKeyOrder shape.members).map (c'.keyMember m) } ∧
        ∀ q ∈ shape.members, c'.Worked q.type := by
  have perm := c.inKeyOrder_perm shape.members
  rcases here.cases ready with ⟨none, never⟩ | ⟨listed, -⟩
  · rw [none, Arena.alternatives, never]
    unfold mapKeys
    refine .bind (ends_data here.inside) fun data c₁ _ _ same => ?_
    rw [same, never]
    exact .pure fun _ _ => ⟨by simp [inKeyOrder], List.forall_mem_nil _⟩
  · rw [listed]
    have named : List.Forall₂ (fun q key => c.arena.data key = .stringLiteral q.name)
        (c.inKeyOrder shape.members) ((c.inKeyOrder shape.members).map (c.arena.literal ·.name)) := by
      rw [List.forall₂_map_right_iff, List.forall₂_same]
      exact fun q inside => (here.literals q (perm.mem_iff.mp inside)).data ready.regular.keyed
    have distinct : ((c.inKeyOrder shape.members).map (·.name)).Nodup :=
      (perm.map _).nodup_iff.mpr maps.distinct
    refine (ends_mapKeys k keyName {} named ready maps (fun q => perm.mem_iff.mp)
      distinct).weaken fun r c' _ made => ?_
    exact ⟨made.1, fun q inside => made.2 q (perm.mem_iff.mpr inside)⟩

theorem ends_object {shape : Shape} (known : Known c shape) :
    Ends n p c (Check.object shape) fun t c' =>
      c'.arena.data t = .object shape ∧ c'.shapes.find? t = none ∧ t ∉ c'.shapes.running := by
  refine .of_safe inferInstance fun c' _ ready _ => ?_
  have fresh := ready.fresh (c'.arena.addInfo ⟨.object shape, none⟩).2
  exact ⟨congrArg TypeInfo.data (Arena.info_addInfo_self c'.arena _), fresh.shapes, fresh.listing⟩

theorem known_keyMembers (ready : Ready n p c) {list : List Member}
    (worked : ∀ q ∈ list, c.Worked q.type) : Known c ({ members := list.map (c.keyMember m) } : Shape) := by
  have members : Known c (list.map (c.keyMember m)) := by
    refine known_list_iff.mpr fun x inside => ?_
    obtain ⟨q, listed, rfl⟩ := List.mem_map.mp inside
    exact known_member_iff.mpr (ready.sound.holds.evaluated _ _ (worked q listed)).2
  infer_instance

/-- The members of all keys make an object. -/
theorem ends_mapKeys_object (start : Ready n p c) (maps : Mapping n c source shape m)
    {keys : TypeId} (here : KeysOf c shape.members keys) (whole : TypeId) :
    Ends n p c (do
      let name ← keyName m
      match ← mapKeys (callsTo (k + 2)) m name {} (c.arena.alternatives keys) with
      | some shape => Check.object shape
      | none => return whole) fun r c' => c'.MadeOf m shape.members r := by
  have isKey : m.param.index < c.arena.size := by
    obtain ⟨x, info⟩ := maps.isKey
    exact inside_of_info info (by simp)
  have name : Ends n p c (keyName m) fun _ _ => True := by
    refine .bind (ends_data isKey) fun data c₁ _ _ _ => ?_
    split <;> exact .pure fun _ _ => trivial
  refine .bind name fun name c₁ since₁ ready₁ _ => ?_
  refine .bind ((ends_mapKeys_all k start maps here name).later since₁)
    fun r c₂ since₂ ready₂ all => ?_
  obtain ⟨made, worked⟩ := all
  rw [made]
  have perm := c.inKeyOrder_perm shape.members
  have known : Known c₂ _ := known_keyMembers (m := m) ready₂ fun q listed =>
    worked q (perm.mem_iff.mp listed)
  refine (ends_object known).weaken fun t c₃ since₃ object => ?_
  obtain ⟨data, unlisted⟩ := object
  have since := (since₁.trans since₂).trans since₃
  refine ⟨?_, unlisted, fun q inside => since₃.worked (maps.below q inside) (worked q inside),
    fun q inside => since.hasLiteral (here.literals q inside)⟩
  have before := since₁.trans since₂
  have literals : ∀ q ∈ shape.members, c₂.arena.HasLiteral q.name :=
    fun q inside => before.hasLiteral (here.literals q inside)
  rw [data, since₃.keyMembers m maps.below literals worked, before.inKeyOrder here.literals]

/-- A mapped type over keys is worked out to an object. -/
theorem ends_evaluateMapped (ready : Ready n p c) (maps : Mapping n c source shape m)
    (keys : KeysOf c shape.members m.constraint) (whole : TypeId) :
    Ends n p c (evaluateMapped (callsTo (k + 2)) whole m) fun r c' =>
      c'.MadeOf m shape.members r := by
  have plain : (c.arena.data m.constraint).isOperator = false := by
    rcases keys.cases ready with ⟨-, never⟩ | ⟨-, ⟨name, literal⟩ | ⟨list, union⟩⟩
    · rw [never]; rfl
    · rw [literal]; rfl
    · rw [union]; rfl
  unfold evaluateMapped
  refine .bind (ends_data keys.inside) fun data c₁ since₁ ready₁ same => ?_
  rw [same]
  split
  · rename_i inner isKeyOf
    rw [isKeyOf] at plain
    cases plain
  refine .bind (ends_evaluate_plain (k + 1) ready₁ (since₁.inside keys.inside)
    (by rwa [since₁.data keys.inside])) fun r c₂ since₂ ready₂ same => ?_
  rw [same]
  have since := since₁.trans since₂
  refine .bind (ends_data (since.inside keys.inside)) fun data c₃ since₃ ready₃ same => ?_
  have tail := (ends_mapKeys_object k ready maps keys whole).later (since.trans since₃)
  rw [same, since.data keys.inside]
  unfold Arena.alternatives at tail
  dsimp only
  split
  · rename_i members union
    rw [union] at tail
    exact tail
  · rename_i other
    split at tail
    · rename_i members union
      exact absurd union (other members)
    · exact tail

/-! ### Apparent members -/

/-- Noting members of types from `n` on changes nothing below `n`. -/
theorem since_shapes {shapes : Memo TypeId Shape}
    (kept : ∀ (u : TypeId) (shape : Shape), u.index < n →
      c.shapes.find? u = some shape → shapes.find? u = some shape) : Since n c { c with shapes } :=
  ⟨⟨Nat.le_refl _, fun _ _ h => h⟩, .refl _, fun _ _ h => h, fun _ _ => rfl, fun _ _ h => h, kept,
    fun _ _ _ h => h⟩

theorem Ready.enterShape (ready : Ready n p c) {t : TypeId} (inside : t.index < c.arena.size)
    (above : n ≤ t.index) : Ready n p { c with shapes := c.shapes.enter t } := by
  have tabled : Tabled p c { c with shapes := c.shapes.enter t } :=
    tabled_beside ready.sound { ready.sound.holds with } rfl rfl (fun _ => rfl) fun _ => rfl
  refine ⟨tabled.sound, ⟨ready.regular.unnamed, ready.regular.plain⟩, ready.start, ready.base,
    ready.evaluating, fun u running => ?_⟩
  rcases List.mem_cons.mp running with rfl | before
  · exact ⟨above, inside⟩
  · exact ready.listing u before

/-- The members of an object that was just made are its own. -/
theorem ask_shape_object {t : TypeId} {own : Shape} (data : c.arena.data t = .object own)
    (unlisted : c.shapes.find? t = none ∧ t ∉ c.shapes.running) :
    (((callsTo (k + 1)).ask (.shape t)).outcome p c).1 = own := by
  rw [ask_shape, shapeOnce_fresh unlisted.1 unlisted.2]
  exact (denotes_shapeOfData (callsTo k) t p _).object own data

/-- The apparent members of a mapped type over keys. -/
theorem shape_mapped (ready : Ready n p c) {t : TypeId} (fresh : c.Fresh t) (above : n ≤ t.index)
    (data : c.arena.data t = .mapped m) (maps : Mapping n c source shape m)
    (keys : KeysOf c shape.members m.constraint) :
    let r := ((callsTo (k + 2 + 2)).ask (.shape t)).outcome p c
    r.1.members = (r.2.inKeyOrder shape.members).map (r.2.keyMember m) ∧
      (∀ q ∈ shape.members, r.2.Worked q.type) ∧ Since n c r.2 := by
  have inside : t.index < c.arena.size := Arena.lt_size_of_data data nofun
  let entered : Checker := { c with shapes := c.shapes.enter t }
  have enter : Since n c entered := since_shapes fun _ _ _ found => found
  have start : Ready n p entered := ready.enterShape inside above
  let value := ((callsTo (k + 3)).ask (.evaluate t)).outcome p entered
  have work : Ends n p entered (evaluateData (callsTo (k + 2)) t) fun r c' =>
      c'.MadeOf m shape.members r :=
    ends_evaluateData (show entered.arena.data t = .mapped m from data) rfl
      (ends_evaluateMapped k start (maps.later ready enter) (keys.later enter) t)
  obtain ⟨_, made⟩ := evaluate_fresh (k + 2) start inside above fresh.evaluated fresh.evaluating work
    fun r c' evaluated since made => ⟨by rw [since.keyMembers m maps.below made.literals made.worked,
      ← made.data], made.unlisted,
      fun q inside => since.worked (maps.below q inside) (made.worked q inside), made.literals⟩
  let answer := ((callsTo (k + 3)).ask (.shape value.1)).outcome p value.2
  have first : Since n entered value.2 := .outcome n ((callsTo (k + 3)).ask (.evaluate t)) p entered
  have second : Since n value.2 answer.2 := .outcome n ((callsTo (k + 3)).ask (.shape value.1)) p value.2
  have other : value.1 ≠ t := by
    intro same
    have mapped := (first.data inside).trans (show entered.arena.data t = _ from data)
    rw [← same, made.data] at mapped
    cases mapped
  have opened : (shapeOfData (callsTo (k + 3)) t).outcome p entered = answer := by
    unfold shapeOfData
    rw [outcome_bind, outcome_data, show entered.arena.data t = _ from data]
    dsimp only
    rw [outcome_bind, if_neg other]
  have leave : Since n answer.2 { answer.2 with shapes := answer.2.shapes.leave t answer.1 } := by
    refine since_shapes fun u own below found => ?_
    refine (Memo.find?_leave_other _ _ _ _ fun same => ?_).trans found
    exact Nat.not_le_of_lt below (same ▸ above)
  have last := second.trans leave
  have whole : ((callsTo (k + 2 + 2)).ask (.shape t)).outcome p c =
      (answer.1, { answer.2 with shapes := answer.2.shapes.leave t answer.1 }) := by
    rw [ask_shape (k + 3), shapeOnce_fresh fresh.shapes fresh.listing, opened]
  have own : answer.1 = { members := (value.2.inKeyOrder shape.members).map (value.2.keyMember m) } :=
    ask_shape_object (k + 2) made.data made.unlisted
  rw [whole]
  refine ⟨?_, fun q inside => last.worked (maps.below q inside) (made.worked q inside),
    (enter.trans first).trans last⟩
  rw [last.keyMembers m maps.below made.literals made.worked, own]

end ApiDocs.Checker
