import ApiDocs.Proofs.Arena.Normal
import ApiDocs.Proofs.Content

set_option autoImplicit false

/-!
Booleans in unions as they are shown. A boolean literal is joined with a literal member right behind
it to one `boolean`. The two literals that all tables start with stand side by side in every union, so
these two are never both shown. Other types that are shown as boolean literals may stand anywhere, and
the main statement says exactly which literals are left.
-/

namespace ApiDocs.Render

open Check Checker

/-! ### Joining -/

/-- A member of a union: whether it is made of a boolean literal, and how it is shown. -/
structure Shown where
  literal : Bool
  bound : Bound

def isLiteralBound : Bound → Bool
  | .booleanLiteral _ => true
  | _ => false

/-- Adds a member behind those that are shown. -/
def joinNext (sofar : List Bound) (x : Shown) : List Bound :=
  if x.literal && endsInBooleanLiteral sofar then sofar.dropLast ++ [Bound.plain "boolean"]
  else sofar ++ [x.bound]

/-- The members as they are shown. A boolean literal and a literal member behind it are shown as one
`boolean`. -/
def joined : List Shown → List Bound
  | [] => []
  | [x] => [x.bound]
  | x :: y :: rest =>
      if isLiteralBound x.bound && y.literal then Bound.plain "boolean" :: joined rest
      else x.bound :: joined (y :: rest)

@[simp] theorem endsInBooleanLiteral_append (sofar : List Bound) (b : Bound) :
    endsInBooleanLiteral (sofar ++ [b]) = isLiteralBound b := by
  unfold endsInBooleanLiteral
  rw [List.getLast?_append, List.getLast?_singleton, Option.some_or]
  cases b <;> rfl

theorem endsInBooleanLiteral_cons (b : Bound) {rest : List Bound} (more : rest ≠ []) :
    endsInBooleanLiteral (b :: rest) = endsInBooleanLiteral rest := by
  obtain ⟨first, others, rfl⟩ := List.exists_cons_of_ne_nil more
  unfold endsInBooleanLiteral
  rw [List.getLast?_cons_cons]

theorem joined_ne_nil (x : Shown) (rest : List Shown) : joined (x :: rest) ≠ [] := by
  cases rest with
  | nil => exact List.cons_ne_nil _ _
  | cons y rest =>
      unfold joined
      split <;> exact List.cons_ne_nil _ _

theorem joined_pair (x y : Shown) (rest : List Shown) :
    joined (x :: y :: rest) =
      if isLiteralBound x.bound && y.literal then Bound.plain "boolean" :: joined rest
      else x.bound :: joined (y :: rest) := by
  rw [joined]

theorem joined_plain (rest : List Shown) :
    joined (⟨false, Bound.plain "boolean"⟩ :: rest) = Bound.plain "boolean" :: joined rest := by
  cases rest with
  | nil => rfl
  | cons y rest => rw [joined_pair, if_neg (by simp [isLiteralBound, Bound.plain])]

/-- Behind the last member that was added, what is shown is what the members give by themselves. -/
theorem foldl_joinNext (sofar : List Bound) (x : Shown) (rest : List Shown) :
    rest.foldl joinNext (sofar ++ [x.bound]) = sofar ++ joined (x :: rest) := by
  induction rest generalizing sofar x with
  | nil => rfl
  | cons y rest ih =>
      rw [List.foldl_cons, joinNext, endsInBooleanLiteral_append, Bool.and_comm, joined_pair]
      split
      · rw [List.dropLast_concat, ih sofar ⟨false, Bound.plain "boolean"⟩, joined_plain]
      · rw [ih, List.append_assoc, List.singleton_append]

theorem foldl_joinNext_nil (list : List Shown) : list.foldl joinNext [] = joined list := by
  cases list with
  | nil => rfl
  | cons x rest =>
      rw [List.foldl_cons, joinNext, if_neg (by simp [endsInBooleanLiteral])]
      exact foldl_joinNext [] x rest

/-- Members that are not joined with what is shown before them. -/
theorem joined_append {first second : List Shown}
    (apart : ∀ x ∈ second.head?, x.literal → ¬ endsInBooleanLiteral (joined first)) :
    joined (first ++ second) = joined first ++ joined second := by
  induction first using joined.induct with
  | case1 => rfl
  | case2 x =>
      cases second with
      | nil => rfl
      | cons y rest =>
          have last := apart y rfl
          rw [List.singleton_append, joined_pair, if_neg]
          · rfl
          · rw [Bool.and_eq_true]
            rintro ⟨literal, next⟩
            apply last next
            exact (endsInBooleanLiteral_append [] x.bound).trans literal
  | case3 x y rest pair ih =>
      rw [joined_pair, if_pos pair] at apart ⊢
      rw [List.cons_append, List.cons_append, joined_pair, if_pos pair, List.cons_append, ih]
      intro z head literal ends
      apply apart z head literal
      rw [endsInBooleanLiteral_cons]
      · exact ends
      · intro none
        rw [none] at ends
        cases ends
  | case4 x y rest single ih =>
      rw [joined_pair, if_neg single] at apart ⊢
      rw [List.cons_append, List.cons_append, joined_pair, if_neg single, List.cons_append,
        ← List.cons_append, ih]
      intro z head literal ends
      apply apart z head literal
      rwa [endsInBooleanLiteral_cons _ (joined_ne_nil y rest)]

/-- A member that is shown as a boolean literal, is not joined with the one before it, and has no
literal behind it. -/
def LeftAlone (list : List Shown) (value : String) : Prop :=
  ∃ before x after, list = before ++ x :: after ∧ x.bound = .booleanLiteral value ∧
    (x.literal → ¬ endsInBooleanLiteral (joined before)) ∧ ∀ y ∈ after.head?, y.literal = false

/-- A literal that is shown is one that is left. The induction is on how members are joined. -/
theorem leftAlone_of_mem_joined {list : List Shown} {value : String}
    (listed : .booleanLiteral value ∈ joined list) : LeftAlone list value := by
  induction list using joined.induct with
  | case1 => cases listed
  | case2 x =>
      refine ⟨[], x, [], rfl, (List.mem_singleton.mp listed).symm, ?_, nofun⟩
      intro _ ends
      cases ends
  | case3 x y rest pair ih =>
      rw [joined_pair, if_pos pair] at listed
      obtain ⟨before, z, after, rfl, bound, alone, behind⟩ := ih (by simpa [Bound.plain] using listed)
      refine ⟨x :: y :: before, z, after, rfl, bound, ?_, behind⟩
      rw [joined_pair, if_pos pair]
      intro literal ends
      cases before with
      | nil => cases ends
      | cons w before =>
          rw [endsInBooleanLiteral_cons _ (joined_ne_nil w before)] at ends
          exact alone literal ends
  | case4 x y rest single ih =>
      rw [joined_pair, if_neg single] at listed
      rcases List.mem_cons.mp listed with same | later
      · refine ⟨[], x, y :: rest, rfl, same.symm, ?_, ?_⟩
        · intro _ ends
          cases ends
        · intro z head
          cases head
          rw [← same] at single
          simpa [isLiteralBound] using single
      · obtain ⟨before, z, after, split, bound, alone, behind⟩ := ih later
        refine ⟨x :: before, z, after, by rw [split, List.cons_append], bound, ?_, behind⟩
        intro literal ends
        cases before with
        | nil =>
            obtain ⟨rfl, -⟩ := List.cons.inj split
            have last : isLiteralBound x.bound :=
              (endsInBooleanLiteral_append [] x.bound).symm.trans ends
            rw [last, literal] at single
            exact single rfl
        | cons w before =>
            obtain ⟨rfl, rfl⟩ := List.cons.inj split
            rw [joined_pair, if_neg single, endsInBooleanLiteral_cons _ (joined_ne_nil _ before)] at ends
            exact alone literal ends

/-- The literals that are shown are those that are left. -/
theorem mem_joined_iff {list : List Shown} {value : String} :
    .booleanLiteral value ∈ joined list ↔ LeftAlone list value := by
  refine ⟨leftAlone_of_mem_joined, ?_⟩
  rintro ⟨before, x, after, rfl, bound, alone, behind⟩
  have front : joined (x :: after) = x.bound :: joined after := by
    refine @joined_append [x] after fun y head literal => ?_
    rw [behind y head] at literal
    cases literal
  rw [joined_append, front, bound]
  · simp
  · intro y head literal
    cases head
    exact alone literal

/-- Members are shown one by one if no literal comes behind what is shown as one. -/
theorem joined_eq_map {list : List Shown}
    (apart : ∀ before x after, list = before ++ x :: after → x.literal →
      ∀ y ∈ before, isLiteralBound y.bound = false) : joined list = list.map (·.bound) := by
  induction list using joined.induct with
  | case1 => rfl
  | case2 => rfl
  | case3 x y rest pair =>
      rw [Bool.and_eq_true] at pair
      have other := apart [x] y rest rfl pair.2 x (List.mem_singleton_self x)
      rw [pair.1] at other
      cases other
  | case4 x y rest single ih =>
      have rest : joined (y :: rest) = (y :: rest).map (·.bound) := by
        apply ih
        intro before z after split literal w early
        exact apart (x :: before) z after (by rw [split, List.cons_append]) literal w
          (List.mem_cons_of_mem x early)
      rw [joined_pair, if_neg single, rest]
      rfl

theorem exists_of_endsInBooleanLiteral {bounds : List Bound} (ends : endsInBooleanLiteral bounds) :
    ∃ b ∈ bounds, isLiteralBound b := by
  rcases List.eq_nil_or_concat' bounds with none | ⟨before, last, rfl⟩
  · rw [none] at ends
    cases ends
  · rw [endsInBooleanLiteral_append] at ends
    exact ⟨last, by simp, ends⟩

/-! ### Unions -/

section

variable {p : Program} {c c' : Checker}

/-- Shows one more member of a union. -/
def showNext (child : TypeId → Check Bound) (sofar : List Bound) (m : TypeId) :
    Check (List Bound) := do
  if isBooleanLiteral (← Check.data m) && endsInBooleanLiteral sofar then
    return sofar.dropLast ++ [Bound.plain "boolean"]
  else return sofar ++ [← child m]

theorem outcome_showNext (p : Program) (c : Checker) (child : TypeId → Check Bound)
    (sofar : List Bound) (m : TypeId) :
    (showNext child sofar m).outcome p c =
      if isBooleanLiteral (c.arena.data m) && endsInBooleanLiteral sofar then
        (sofar.dropLast ++ [Bound.plain "boolean"], c)
      else (sofar ++ [((child m).outcome p c).1], ((child m).outcome p c).2) := by
  unfold showNext
  rw [outcome_bind, outcome_data]
  split <;> rfl

theorem unionMembers_eq (child : TypeId → Check Bound) (members : List TypeId) :
    unionMembers child members = members.foldlM (showNext child) [] := rfl

/-- A member of a union, as it is shown in a state. -/
def shownIn (p : Program) (c : Checker) (child : TypeId → Check Bound) (m : TypeId) : Shown :=
  ⟨isBooleanLiteral (c.arena.data m), c.answer p (child m)⟩

variable {child : TypeId → Check Bound} [on : SteadyOn p c child]

/-- A member is shown as it is at any later time. -/
theorem showNext_later {m : TypeId} (known : Known c m) (sound : c.Sound p) (reached : Reached p c)
    {sofar : List Bound} (later : ((showNext child sofar m).outcome p c).2.Later c')
    (after : c'.Sound p) :
    ((showNext child sofar m).outcome p c).1 = joinNext sofar (shownIn p c' child m) ∧
      ((showNext child sofar m).outcome p c).2.Sound p := by
  have before : c.Later c' := Later.trans (Check.kept _ p c) later
  have data : c'.arena.data m = c.arena.data m :=
    congrArg TypeInfo.data (before.info m (known_type_iff.mp known))
  rw [joinNext, shownIn, data]
  rw [outcome_showNext] at later ⊢
  split
  · exact ⟨rfl, sound⟩
  · rename_i alone
    rw [if_neg alone] at later
    have steady : Steady p c (child m) := inferInstance
    rw [Role.answer_later sound reached later after]
    exact ⟨rfl, (steady.outcome c (.refl c) sound).1⟩

/-- The members of a union are shown as they are at any later time, and joined. -/
theorem unionMembers_eq_joined {members : List TypeId} (known : Known c members) (sound : c.Sound p)
    (reached : Reached p c) (later : ((unionMembers child members).outcome p c).2.Later c')
    (after : c'.Sound p) :
    ((unionMembers child members).outcome p c).1 = joined (members.map (shownIn p c' child)) := by
  rw [← foldl_joinNext_nil]
  rw [unionMembers_eq] at later ⊢
  -- The state grows from one member to the next; the last one, `c'`, is later than all of them.
  generalize ([] : List Bound) = sofar at later ⊢
  induction members generalizing c sofar with
  | nil => rfl
  | cons m rest ih =>
      have here : Known c m := known.mem List.mem_cons_self
      have others : Known c rest := known.sublist fun _ => List.mem_cons_of_mem m
      rw [List.foldlM_cons, outcome_bind] at later ⊢
      have told : ((showNext child sofar m).outcome p c).2.Later c' :=
        Later.trans (Check.kept _ p _) later
      obtain ⟨same, next⟩ := showNext_later here sound reached told after
      have grown : c.Before ((showNext child sofar m).outcome p c).2 := Check.before _ p c
      rw [List.map_cons, List.foldl_cons, ← same]
      exact ih (others.later grown) next (reached.after _) _ later

end

variable {p : Program} {c : Checker}

/-- Whether a union is shown by name. -/
def byName (c : Checker) (preferNamed : Bool) (t : TypeId) : Bool :=
  (preferNamed && (c.arena.alias? t).isSome) || c.arena.isBoolean t

theorem outcome_boundAt_union {n : Nat} {preferNamed : Bool} {t : TypeId} {members : List TypeId}
    (made : c.arena.data t = .union members) :
    (boundAt (n + 1) preferNamed t).outcome p c =
      if byName c preferNamed t then (named (boundAt n true) t).outcome p c
      else (Bound.union <$> unionMembers (boundAt n true) members).outcome p c := by
  unfold boundAt byName
  rw [outcome_bind, outcome_alias?]
  by_cases aliased : (preferNamed && (c.arena.alias? t).isSome) = true
  · simp only [aliased, ↓reduceIte, Bool.true_or]
  · simp only [aliased, Bool.false_eq_true, ↓reduceIte, Bool.false_or, outcome_bind, outcome_data,
      made, outcome_isBoolean]
    by_cases boolean : c.arena.isBoolean t = true
    · simp only [boolean, ↓reduceIte]
    · simp only [boolean, Bool.false_eq_true, ↓reduceIte, map_eq_pure_bind]

theorem named_ne_union (child : TypeId → Check Bound) (t : TypeId) (bounds : List Bound) :
    ((named child t).outcome p c).1 ≠ .union bounds := nofun

/-- A union is shown by name, or by its members, which are shown as they are in the end. -/
theorem boundAt_union {t : TypeId} {members : List TypeId} (sound : c.Sound p)
    (reached : Reached p c) (made : c.arena.data t = .union members) (n : Nat) (preferNamed : Bool) :
    let r := (boundAt (n + 1) preferNamed t).outcome p c
    ((∃ bounds, r.1 = .union bounds) ↔ byName c preferNamed t = false) ∧
    ∀ bounds, r.1 = .union bounds → bounds = joined (members.map (shownIn p r.2 (boundAt n true))) := by
  intro r
  have started := sound.started
  have inside : t.index < c.arena.size := Arena.lt_size_of_data made (by simp)
  have known : Known c t := known_type_iff.mpr inside
  have parts : Known c members := by
    have all := (known_info_iff.mp (sound.infos t inside)).1
    have data : (c.arena.info t).data = .union members := made
    rw [data] at all
    exact known_union_iff.mp all
  have steady : Steady p c (boundAt (n + 1) preferNamed t) := inferInstance
  have after : r.2.Sound p := (steady.outcome c (.refl c) sound).1
  have result : r = _ := outcome_boundAt_union made
  by_cases byName : byName c preferNamed t = true
  · rw [if_pos byName] at result
    have other : ∀ bounds, r.1 ≠ .union bounds := by
      rw [result]
      exact named_ne_union _ t
    refine ⟨iff_of_false ?_ ?_, fun bounds union => absurd union (other bounds)⟩
    · rintro ⟨bounds, union⟩
      exact other bounds union
    · simp [byName]
  · rw [if_neg byName, map_eq_pure_bind, outcome_bind, outcome_pure] at result
    have all : ((unionMembers (boundAt n true) members).outcome p c).1 =
        joined (members.map (shownIn p r.2 (boundAt n true))) := by
      apply unionMembers_eq_joined parts sound reached _ after
      rw [result]
      exact .refl _
    rw [all] at result
    have union : r.1 = .union _ := congrArg Prod.fst result
    refine ⟨iff_of_true ⟨_, union⟩ (Bool.eq_false_iff.mpr byName), fun bounds shown => ?_⟩
    exact (Bound.union.inj (union.symm.trans shown)).symm

/-- In a list in order, nothing stands between the two literals that all tables start with. -/
theorem head?_of_increasing {members before after : List TypeId}
    (increasing : members.Pairwise (·.index < ·.index))
    (split : members = before ++ Arena.falseId :: after) (both : Arena.trueId ∈ members) :
    after.head? = some Arena.trueId := by
  rw [split, List.pairwise_append, List.pairwise_cons] at increasing
  obtain ⟨-, ⟨behind, ordered⟩, across⟩ := increasing
  rw [split, List.mem_append, List.mem_cons] at both
  have inside : Arena.trueId ∈ after := by
    rcases both with early | same | late
    · exact absurd (across _ early _ List.mem_cons_self) (by decide)
    · cases same
    · exact late
  cases after with
  | nil => cases inside
  | cons first rest =>
      rcases List.mem_cons.mp inside with same | later
      · rw [List.head?_cons, same]
      · have low := behind first List.mem_cons_self
        have high := (List.pairwise_cons.mp ordered).1 _ later
        have numbers : Arena.falseId.index = 11 ∧ Arena.trueId.index = 12 := ⟨rfl, rfl⟩
        omega

/-- The types that all tables start with. -/
theorem info_base (reached : Reached p c) {t : TypeId} (small : t.index < 14) :
    c.arena.info t = Arena.initial.info t :=
  reached.info t (Nat.lt_of_lt_of_le small (sound_ofProgram p).base)

/-- The two boolean literals are shown as such. -/
theorem boundAt_literal (reached : Reached p c) (n : Nat) (preferNamed : Bool) :
    c.answer p (boundAt (n + 1) preferNamed Arena.falseId) = .booleanLiteral "false" ∧
      c.answer p (boundAt (n + 1) preferNamed Arena.trueId) = .booleanLiteral "true" := by
  have shows : ∀ t : TypeId, t.index < 14 → ∀ value,
      Arena.initial.info t = ⟨.booleanLiteral value, none⟩ →
      c.answer p (boundAt (n + 1) preferNamed t) =
        .booleanLiteral (if value then "true" else "false") := by
    intro t small value info
    rw [← info_base reached small] at info
    have written : c.arena.alias? t = none := congrArg TypeInfo.writtenAs info
    have data : c.arena.data t = .booleanLiteral value := congrArg TypeInfo.data info
    unfold answer boundAt
    simp only [outcome_bind, outcome_alias?, written, Option.isSome_none, Bool.and_false,
      Bool.false_eq_true, ↓reduceIte, outcome_data, data, outcome_pure]
  exact ⟨shows _ (by decide) false (by cbv), shows _ (by decide) true (by cbv)⟩

/-- Neither of the two boolean literals is shown as the other, whatever the depth. -/
theorem boundAt_literal_ne (reached : Reached p c) (n : Nat) :
    c.answer p (boundAt n true Arena.falseId) ≠ .booleanLiteral "true" ∧
      c.answer p (boundAt n true Arena.trueId) ≠ .booleanLiteral "false" := by
  cases n with
  | zero => constructor <;> rintro ⟨⟩
  | succ n =>
      rw [(boundAt_literal reached n true).1, (boundAt_literal reached n true).2]
      simp

theorem literal_shownIn (reached : Reached p c) (child : TypeId → Check Bound) :
    (shownIn p c child Arena.trueId).literal := by
  have data : c.arena.data Arena.trueId = .booleanLiteral true := by
    rw [Arena.data, info_base reached (by decide)]
    cbv
  show isBooleanLiteral (c.arena.data Arena.trueId) = true
  rw [data]
  rfl

/-- The keywords are not shown as literals. -/
theorem boundAt_keyword (reached : Reached p c) (n : Nat) {t : TypeId} (small : t.index < 11) :
    isLiteralBound (c.answer p (boundAt n true t)) = false := by
  have keywords : ∀ i : Fin 11, (Arena.initial.info ⟨i⟩).writtenAs = none ∧
      ∃ keyword, (Arena.initial.info ⟨i⟩).data = .intrinsic keyword := by
    intro i
    fin_cases i <;> exact ⟨by cbv, _, by cbv⟩
  obtain ⟨written, keyword, data⟩ := keywords ⟨t.index, small⟩
  rw [← info_base reached (Nat.lt_trans small (by decide))] at written data
  cases n with
  | zero => rfl
  | succ n =>
      have written : c.arena.alias? t = none := written
      have data : c.arena.data t = .intrinsic keyword := data
      unfold answer boundAt
      simp only [outcome_bind, outcome_alias?, written, Option.isSome_none, Bool.and_false,
        Bool.false_eq_true, ↓reduceIte, outcome_data, data]
      rfl

section

variable {members : List TypeId} (increasing : members.Pairwise (·.index < ·.index))
  {entry : TypeId → Shown}

include increasing

/-- Of the two literals that all tables start with, the first is not left beside the second. -/
theorem not_both_left (shows : ∀ m ∈ members, isLiteralBound (entry m).bound →
      m = Arena.falseId ∨ m = Arena.trueId)
    (isFalse : (entry Arena.falseId).bound ≠ .booleanLiteral "true")
    (isTrue : (entry Arena.trueId).bound ≠ .booleanLiteral "false")
    (literal : (entry Arena.trueId).literal) :
    ¬ (LeftAlone (members.map entry) "true" ∧ LeftAlone (members.map entry) "false") := by
  have member : ∀ value, LeftAlone (members.map entry) value → ∃ before m after,
      members = before ++ m :: after ∧ (entry m).bound = .booleanLiteral value ∧
        ∀ next ∈ after.head?, (entry next).literal = false := by
    rintro value ⟨before, x, after, split, bound, -, behind⟩
    obtain ⟨front, back, rfl, -, rest⟩ := List.map_eq_append_iff.mp split
    obtain ⟨m, others, rfl, rfl, rfl⟩ := List.map_eq_cons_iff.mp rest
    refine ⟨front, m, others, rfl, bound, fun next head => behind (entry next) ?_⟩
    rw [Option.mem_def] at head ⊢
    rw [List.head?_map, head, Option.map_some]
  rintro ⟨first, second⟩
  obtain ⟨_, m, _, splitTrue, boundTrue, _⟩ := member _ first
  obtain ⟨before, m', after, splitFalse, boundFalse, behind⟩ := member _ second
  have there : m ∈ members := by simp [splitTrue]
  have there' : m' ∈ members := by simp [splitFalse]
  rcases shows m there (by rw [boundTrue]; rfl) with same | same
  · rw [same] at boundTrue
    exact isFalse boundTrue
  rcases shows m' there' (by rw [boundFalse]; rfl) with same' | same'
  · subst same same'
    have next := behind _ (head?_of_increasing increasing splitFalse there)
    rw [literal] at next
    cases next
  · rw [same'] at boundFalse
    exact isTrue boundFalse

variable (literals : ∀ m ∈ members, (entry m).literal → m = Arena.falseId ∨ m = Arena.trueId)
  (keywords : ∀ m : TypeId, m.index < 11 → isLiteralBound (entry m).bound = false)

include literals keywords

/-- A union that lacks one of the two literals shows its members as they are. -/
theorem joined_of_lacking (lacks : ¬ (Arena.falseId ∈ members ∧ Arena.trueId ∈ members)) :
    joined (members.map entry) = members.map fun m => (entry m).bound := by
  rw [joined_eq_map, List.map_map]
  · rfl
  intro before x after split literal y early
  obtain ⟨front, back, same, rfl, rest⟩ := List.map_eq_append_iff.mp split
  obtain ⟨m, others, rfl, rfl, rfl⟩ := List.map_eq_cons_iff.mp rest
  obtain ⟨u, listed, rfl⟩ := List.mem_map.mp early
  have there : m ∈ members := by simp [same]
  have inside : u ∈ members := by simp [same, listed]
  rw [same, List.pairwise_append] at increasing
  have below := increasing.2.2 u listed m List.mem_cons_self
  apply keywords
  rcases literals m there literal with first | second
  · rw [first] at below
    exact below
  · have other : u ≠ Arena.falseId := by
      rintro rfl
      exact lacks ⟨inside, second ▸ there⟩
    have index : u.index ≠ 11 := fun eleven => other (congrArg TypeId.mk eleven)
    rw [second] at below
    have twelve : Arena.trueId.index = 12 := rfl
    omega

/-- A union that has both literals shows one `boolean` for them. -/
theorem joined_of_both (isFalse : isLiteralBound (entry Arena.falseId).bound)
    (isTrue : (entry Arena.trueId).literal)
    (both : Arena.falseId ∈ members ∧ Arena.trueId ∈ members) :
    ∃ before after, members = before ++ Arena.falseId :: Arena.trueId :: after ∧
      joined (members.map entry) = (before.map fun m => (entry m).bound) ++
        Bound.plain "boolean" :: after.map fun m => (entry m).bound := by
  obtain ⟨before, rest, split⟩ := List.append_of_mem both.1
  obtain ⟨after, rfl⟩ : ∃ after, rest = Arena.trueId :: after :=
    ⟨rest.tail, List.eq_cons_of_mem_head? (head?_of_increasing increasing split both.2)⟩
  refine ⟨before, after, split, ?_⟩
  subst split
  have parts := increasing
  rw [List.pairwise_append, List.pairwise_cons, List.pairwise_cons] at parts
  obtain ⟨inFront, ⟨-, behind, inBack⟩, across⟩ := parts
  have low : ∀ m ∈ before, m.index < 11 := fun m listed => across m listed _ List.mem_cons_self
  have front : joined (before.map entry) = before.map fun m => (entry m).bound := by
    apply joined_of_lacking inFront (fun m listed => literals m (List.mem_append_left _ listed)) keywords
    exact fun both => absurd (low _ both.1) (by decide)
  have back : joined (after.map entry) = after.map fun m => (entry m).bound := by
    apply joined_of_lacking inBack _ keywords
    · exact fun both => absurd (behind _ both.2) (by decide)
    · exact fun m listed => literals m (by simp [listed])
  rw [List.map_append, joined_append, front, List.map_cons, List.map_cons, joined_pair, isFalse,
    isTrue, back]
  · rfl
  · intro x _ _ ends
    rw [front] at ends
    obtain ⟨bound, shown, literal⟩ := exists_of_endsInBooleanLiteral ends
    obtain ⟨m, listed, rfl⟩ := List.mem_map.mp shown
    rw [keywords m (low m listed)] at literal
    cases literal

end

/-- A union is shown by name, or by its members. A boolean literal is shown for it where one is left
when members are joined. No pair of them is shown if no member is shown as a literal but the two that
all tables start with. If no other member is made of a literal and the depth is enough, the members
are shown in order, and one `boolean` for the two where both are there. -/
theorem booleans_shown {t : TypeId} {members : List TypeId} (sound : c.Sound p)
    (reached : Reached p c) (made : c.arena.data t = .union members)
    (built : ∃ (a : Arena) (flat : List TypeId), members = a.normalMembers flat)
    (n : Nat) (preferNamed : Bool) :
    let r := (boundAt (n + 1) preferNamed t).outcome p c
    let entry := shownIn p r.2 (boundAt n true)
    ((∃ bounds, r.1 = .union bounds) ↔ byName c preferNamed t = false) ∧
    ∀ bounds, r.1 = .union bounds →
      bounds = joined (members.map entry) ∧
      (∀ value, .booleanLiteral value ∈ bounds ↔ LeftAlone (members.map entry) value) ∧
      ((∀ m ∈ members, isLiteralBound (entry m).bound → m = Arena.falseId ∨ m = Arena.trueId) →
        ¬ (.booleanLiteral "true" ∈ bounds ∧ .booleanLiteral "false" ∈ bounds)) ∧
      (0 < n → (∀ m ∈ members, (entry m).literal → m = Arena.falseId ∨ m = Arena.trueId) →
        (¬ (Arena.falseId ∈ members ∧ Arena.trueId ∈ members) →
          bounds = members.map fun m => (entry m).bound) ∧
        (Arena.falseId ∈ members ∧ Arena.trueId ∈ members →
          ∃ before after, members = before ++ Arena.falseId :: Arena.trueId :: after ∧
            bounds = (before.map fun m => (entry m).bound) ++
              Bound.plain "boolean" :: after.map fun m => (entry m).bound)) := by
  intro r entry
  have still : Reached p r.2 := reached.after _
  have increasing : members.Pairwise (·.index < ·.index) := by
    obtain ⟨a, flat, rfl⟩ := built
    exact a.normalMembers_increasing flat
  have literal : (entry Arena.trueId).literal := literal_shownIn still _
  have keywords : ∀ m : TypeId, m.index < 11 → isLiteralBound (entry m).bound = false :=
    fun m small => boundAt_keyword still n small
  obtain ⟨byMembers, all⟩ := boundAt_union sound reached made n preferNamed
  refine ⟨byMembers, fun bounds union => ?_⟩
  obtain rfl := all bounds union
  refine ⟨rfl, fun _ => mem_joined_iff, fun shows => ?_, fun deep literals => ⟨fun lacks => ?_, fun both => ?_⟩⟩
  · rw [mem_joined_iff, mem_joined_iff]
    obtain ⟨isFalse, isTrue⟩ := boundAt_literal_ne still n
    exact not_both_left increasing shows isFalse isTrue literal
  · exact joined_of_lacking increasing literals keywords lacks
  · apply joined_of_both increasing literals keywords _ literal both
    obtain ⟨m, rfl⟩ := Nat.exists_eq_add_of_lt deep
    show isLiteralBound (r.2.answer p (boundAt (0 + m + 1) true Arena.falseId)) = true
    rw [(boundAt_literal still (0 + m) true).1]
    rfl

/-- Aliases: `S` of a string literal, `A` of a member of `B` that is `true`, and `B` of an object with
that member and one of the type `A | "s" | false`. -/
def copied : Program :=
  let item (name : String) (type : Syntax.TypeExpr) : Syntax.Item :=
    ⟨0, 0, none, {}, .exportDecl (.typeAlias ⟨name, [], type⟩)⟩
  let b : Syntax.TypeExpr := .reference (.ident "B") []
  let x : Syntax.TypeExpr :=
    .union [.reference (.ident "A") [], .stringLiteral "s", .booleanLiteral false]
  { files := #[⟨⟨"/a.ts", #[], [
      item "S" (.stringLiteral "s"),
      item "A" (.indexed b (.stringLiteral "y")),
      item "B" (.members [.property "x" (some x) false false {},
        .property "y" (some (.booleanLiteral true)) false false {}])]⟩, "/a.ts", true⟩] }

/-- The state after the types of `S` and `A` were asked for. -/
def copiedState : Checker :=
  let first := ((Check.declaredType ⟨0⟩).outcome copied (ofProgram copied)).2
  ((Check.declaredType ⟨1⟩).outcome copied first).2

set_option maxRecDepth 20000 in
/-- The symbols are there when they are asked for. The union that is made, its members in their
order, and what is shown for it. -/
theorem copied_read :
    let first := ((Check.declaredType ⟨0⟩).outcome copied (ofProgram copied)).2
    (((ofProgram copied).bindings.symbol? ⟨0⟩).isSome ∧ (first.bindings.symbol? ⟨1⟩).isSome) ∧
    copiedState.arena.data ⟨18⟩ = .union [⟨11⟩, ⟨15⟩, ⟨16⟩] ∧
    [⟨11⟩, ⟨15⟩, ⟨16⟩] = copiedState.arena.normalMembers [⟨16⟩, ⟨15⟩, ⟨11⟩] ∧
    ((boundAt (1 + 1) true ⟨18⟩).outcome copied copiedState).1 =
      .union [.booleanLiteral "false", .stringLiteral "s", .booleanLiteral "true"] := by
  cbv

theorem copied_atRest : copiedState.AtRest copied := by
  obtain ⟨⟨first, second⟩, -⟩ := copied_read
  exact .ask (.ask (.refl _) (.declaredType ⟨0⟩) (known_symbol_iff.mpr first)) (.declaredType ⟨1⟩)
    (known_symbol_iff.mpr second)

set_option maxRecDepth 20000 in
/-- Both literals are shown for the union, which is found where it is built again. -/
theorem copied_pair :
    (copiedState.arena.union [⟨16⟩, ⟨15⟩, ⟨11⟩]).1 = ⟨18⟩ ∧ copiedState.arena.isBoolean ⟨18⟩ = false ∧
      ((bound ⟨18⟩).outcome copied copiedState).1 =
        .union [.booleanLiteral "false", .stringLiteral "s", .booleanLiteral "true"] := by
  cbv

/-- The literal that stands in the place of `A` is left, and so is `false`. -/
theorem copied_left :
    let r := (boundAt (1 + 1) true ⟨18⟩).outcome copied copiedState
    let entries := [⟨11⟩, ⟨15⟩, ⟨16⟩].map (shownIn copied r.2 (boundAt 1 true))
    LeftAlone entries "true" ∧ LeftAlone entries "false" := by
  obtain ⟨reached, sound⟩ := copied_atRest.later (sound_ofProgram copied)
  obtain ⟨-, union, normal, shown⟩ := copied_read
  have all := booleans_shown sound reached union ⟨_, _, normal⟩ 1 true
  obtain ⟨-, left, -⟩ := all.2 _ shown
  exact ⟨(left "true").mp (by simp), (left "false").mp (by simp)⟩

end ApiDocs.Render
