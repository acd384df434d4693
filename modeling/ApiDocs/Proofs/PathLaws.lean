import ApiDocs.Proofs.ModuleKeys

set_option autoImplicit false

/-!
Laws of paths. Normal texts are those in which nothing is left to resolve: each path has one, and each
is the normal text of itself. The way from one absolute path to another leads there: put behind the
first one, it gives the normal text of the second.
-/

namespace ApiDocs.Path

open Text

/-! ### Normal texts -/

/-- `.`, the root, or segments with slashes between them, none of them empty or `.`. The segments `..`
stand in front of all others, and there are none in a path from the root. -/
def NormalText (cs : List Char) : Prop :=
  cs = here ∨ cs = ['/'] ∨
    ∃ climbs forward, climbs ++ forward ≠ [] ∧ (∀ s ∈ climbs, s = up) ∧
      (∀ s ∈ forward, s ≠ up ∧ counts s) ∧
      (splitOn '/' cs = climbs ++ forward ∨ climbs = [] ∧ splitOn '/' cs = [] :: forward)

/-- Where a relative path leads: back some way, and from there on. The segments stand last first. -/
theorem Walked.climbs {walked : List (List Char)} (before : Walked false walked) :
    ∃ forward n, walked = forward ++ List.replicate n up ∧ up ∉ forward := by
  induction before with
  | start => exact ⟨[], 0, rfl, List.not_mem_nil⟩
  | @on segment walked _ stays ih =>
      obtain ⟨forward, n, rfl, onward⟩ := ih
      by_cases back : segment = up
      · subst back
        cases forward with
        | nil => exact ⟨[], n + 1, rfl, List.not_mem_nil⟩
        | cons last rest =>
            -- walking back from a segment takes it away and adds none
            have differs : last ≠ up := fun same => onward (same ▸ List.mem_cons_self)
            have shorter := congrArg List.length stays
            simp [Path.walk, differs] at shorter
            omega
      · exact ⟨segment :: forward, n, rfl, by simp [onward, Ne.symm back]⟩

/-- The segments of a resolved path. -/
theorem resolve_segments (p : Path) : ∃ climbs forward, p.resolve.segments = climbs ++ forward ∧
    (∀ s ∈ climbs, s = up) ∧ up ∉ forward ∧ (p.absolute = true → climbs = []) := by
  have walked : Walked p.absolute (p.segments.foldl (Path.walk p.absolute) []) := Walked.start.foldl _
  cases absolute : p.absolute with
  | true =>
      rw [absolute] at walked
      refine ⟨[], p.resolve.segments, rfl, fun _ inside => absurd inside List.not_mem_nil, ?_,
        fun _ => rfl⟩
      simpa [resolve, absolute] using walked.forward
  | false =>
      rw [absolute] at walked
      obtain ⟨forward, n, whole, onward⟩ := walked.climbs
      refine ⟨List.replicate n up, forward.reverse, ?_, ?_, by simpa using onward,
        (absurd · Bool.false_ne_true)⟩
      · simp [resolve, absolute, whole]
      · exact fun s inside => List.eq_of_mem_replicate inside

theorem normalText_resolve {p : Path} (proper : ∀ s ∈ p.segments, Proper s) :
    NormalText p.resolve.chars := by
  obtain ⟨climbs, forward, whole, back, onward, rooted⟩ := resolve_segments p
  have proper := proper_resolve proper
  have absolute : p.resolve.absolute = p.absolute := rfl
  by_cases none : p.resolve.segments = []
  · unfold NormalText chars
    cases p.resolve.absolute <;> simp [none, joinWith]
  · have parts := splitOn_joinWith none fun s inside => (proper s inside).2
    obtain ⟨c, rest, joined, -⟩ := joinWith_ne_nil none proper
    refine .inr (.inr ⟨climbs, forward, whole ▸ none, back, fun s inside => ?_, ?_⟩)
    · exact ⟨fun same => onward (same ▸ inside),
        (proper s (whole ▸ List.mem_append_right _ inside)).1⟩
    · unfold chars
      rw [absolute]
      cases isAbsolute : p.absolute with
      | true =>
          have stays := rooted isAbsolute
          rw [stays, List.nil_append] at whole
          rw [whole] at parts
          exact .inr ⟨stays, by simp [splitOn, parts, whole]⟩
      | false =>
          have filled : joinWith ['/'] p.resolve.segments ≠ [] := by simp [joined]
          exact .inl (by simpa [filled, ← whole] using parts)

/-- Walking back and on from where a relative path starts stays as it is. -/
theorem foldl_walk_climbs {climbs forward : List (List Char)} (back : ∀ s ∈ climbs, s = up)
    (onward : up ∉ forward) :
    (climbs ++ forward).foldl (walk false) [] = (climbs ++ forward).reverse := by
  have climbed : climbs.foldl (walk false) [] = climbs := by
    rw [List.eq_replicate_of_mem back]
    generalize climbs.length = n
    induction n with
    | zero => rfl
    | succ n ih =>
        rw [List.replicate_succ', List.foldl_append, ih]
        -- what was walked so far is empty or ends with a `..`: either way one more `..` stays
        cases n with
        | zero => rfl
        | succ n =>
            simp only [List.replicate_succ, List.foldl_cons, List.foldl_nil, walk, ↓reduceIte,
              Bool.false_eq_true]
            rw [← List.replicate_succ, ← List.replicate_succ, List.replicate_succ']
  have same : climbs.reverse = climbs := by
    rw [List.eq_replicate_of_mem back, List.reverse_replicate]
  rw [List.foldl_append, climbed, foldl_walk_forward false climbs onward, List.reverse_append, same]

/-- A normal text is left as it is. -/
theorem chars_resolve_ofChars {cs : List Char} (normal : NormalText cs) :
    (ofChars cs).resolve.chars = cs := by
  rcases normal with rfl | rfl | ⟨climbs, forward, some, back, onward, spelled⟩
  · decide
  · decide
  · have joined := joinWith_splitOn '/' cs
    have counted : ∀ s ∈ climbs ++ forward, counts s := by
      intro s inside
      rcases List.mem_append.mp inside with climb | step
      · exact back s climb ▸ by decide
      · exact (onward s step).2
    have kept := List.filter_eq_self.mpr counted
    have ahead : up ∉ forward := fun inside => (onward up inside).1 rfl
    rcases spelled with parts | ⟨rfl, parts⟩
    · have relative : startsWith ['/'] cs = false := by
        cases cs with
        | nil => rfl
        | cons c rest =>
            by_cases slash : c = '/'
            · -- the part before a slash at the front would be empty
              rw [slash, splitOn, if_pos rfl] at parts
              have := counted [] (parts ▸ List.mem_cons_self)
              simp [counts] at this
            · simp [startsWith, List.isPrefixOf, Ne.symm slash]
      have filled : cs ≠ [] := by
        rintro rfl
        have := counted [] (parts ▸ List.mem_cons_self)
        simp [counts] at this
      rw [parts] at joined
      simp [ofChars, relative, parts, kept, resolve, foldl_walk_climbs back ahead, chars, joined,
        filled]
    · simp only [List.nil_append] at some kept
      obtain ⟨next, others, same⟩ := List.exists_cons_of_ne_nil some
      rw [parts, same, joinWith, ← same, List.nil_append, List.singleton_append] at joined
      · have rooted : startsWith ['/'] cs = true := by simp [← joined, startsWith]
        have dropped : ([] :: forward).filter counts = forward := by
          rw [List.filter_cons_of_neg (by decide), kept]
        simp [ofChars, rooted, parts, dropped, resolve, foldl_walk_forward _ _ ahead, chars, joined]
      · simp

theorem normalText_normalize (path : String) : NormalText (normalize path).toList := by
  unfold normalize text ofText
  rw [String.toList_ofList]
  exact normalText_resolve fun s => proper_ofChars

theorem normalize_eq_self_iff (path : String) : normalize path = path ↔ NormalText path.toList := by
  constructor
  · intro same
    rw [← same]
    exact normalText_normalize path
  · intro normal
    rw [← String.toList_inj, normalize, text, String.toList_ofList, ofText,
      chars_resolve_ofChars normal]

/-! ### The way from one path to another -/

theorem take_commonFront (base path : List (List Char)) :
    base.take (commonFront base path) = path.take (commonFront base path) := by
  induction base generalizing path with
  | nil => cases path <;> simp [commonFront]
  | cons part more ih =>
      cases path with
      | nil => simp [commonFront]
      | cons other rest =>
          by_cases same : part = other
          · simp [commonFront, same, ih]
          · simp [commonFront, same]

theorem commonFront_le (base path : List (List Char)) : commonFront base path ≤ base.length := by
  induction base generalizing path with
  | nil => cases path <;> simp [commonFront]
  | cons part more ih =>
      cases path with
      | nil => simp [commonFront]
      | cons other rest =>
          by_cases same : part = other
          · simp [commonFront, same, ih]
          · simp [commonFront, same]

/-- Walking back takes segments away. -/
theorem foldl_walk_back {walked : List (List Char)} (forward : up ∉ walked) (n : Nat) :
    (List.replicate n up).foldl (walk true) walked = walked.drop n := by
  induction n generalizing walked with
  | zero => rfl
  | succ n ih =>
      rw [List.replicate_succ, List.foldl_cons]
      cases walked with
      | nil => simpa [walk] using ih List.not_mem_nil
      | cons last rest =>
          simp only [List.mem_cons, not_or] at forward
          simpa [walk, Ne.symm forward.1] using ih forward.2

/-- The steps from one place to another lead there. -/
theorem foldl_walk_stepsBetween {base path : List (List Char)} (fromRoot : up ∉ base)
    (forward : up ∉ path) :
    (stepsBetween base path).foldl (walk true) base.reverse = path.reverse := by
  have within := commonFront_le base path
  have common := take_commonFront base path
  unfold stepsBetween
  generalize commonFront base path = n at within common
  have onward : up ∉ path.drop n := fun inside => forward (List.mem_of_mem_drop inside)
  have back : base.reverse.drop (base.length - n) = (path.take n).reverse := by
    rw [List.drop_reverse, ← common]
    congr 2
    omega
  rw [List.foldl_append, foldl_walk_back (by simpa using fromRoot), back,
    foldl_walk_forward true _ onward, ← List.reverse_append, List.take_append_drop]

/-- The text of segments that do not start at the root. -/
theorem ofChars_joinWith {steps : List (List Char)} (proper : ∀ s ∈ steps, Proper s) :
    ofChars (joinWith ['/'] steps) = ⟨false, steps⟩ := by
  by_cases none : steps = []
  · subst none
    decide
  · obtain ⟨c, rest, joined, -⟩ := joinWith_ne_nil none proper
    rw [← ofChars_chars false proper]
    simp [chars, joined]

theorem proper_up : Proper up := by
  refine ⟨rfl, ?_⟩
  decide

theorem proper_stepsBetween {base path : List (List Char)} (proper : ∀ s ∈ path, Proper s) :
    ∀ s ∈ stepsBetween base path, Proper s := by
  intro s inside
  rcases List.mem_append.mp inside with back | onward
  · exact List.eq_of_mem_replicate back ▸ proper_up
  · exact proper s (List.mem_of_mem_drop onward)

theorem ofText_relative (base path : String) : ofText (relative base path) =
    ⟨false, stepsBetween (ofText base).resolve.segments (ofText path).resolve.segments⟩ := by
  have proper := proper_resolve (p := ofText path) fun s => proper_ofChars
  rw [ofText, relative, String.toList_ofList, ofChars_joinWith (proper_stepsBetween proper)]

theorem forward_resolve {p : Path} (absolute : p.absolute = true) : up ∉ p.resolve.segments := by
  obtain ⟨climbs, forward, whole, -, onward, rooted⟩ := resolve_segments p
  rw [whole, rooted absolute]
  simpa using onward

theorem join_relative {base path : String} (rooted : (ofText base).absolute = true)
    (absolute : (ofText path).absolute = true) : join base (relative base path) = normalize path := by
  have led := foldl_walk_stepsBetween (forward_resolve rooted) (forward_resolve absolute)
  rw [join, ofText_relative, normalize]
  congr 1
  simp only [append, Bool.false_eq_true, ↓reduceIte]
  generalize stepsBetween (ofText base).resolve.segments (ofText path).resolve.segments = steps at *
  simp only [resolve, rooted, absolute, List.reverse_reverse] at led
  simp only [resolve, rooted, absolute, List.foldl_append, led]

/-- Normalizing twice is normalizing once; the texts it gives are the normal ones, which it leaves as
they are. From any absolute path the way to an absolute path leads to the latter's normal text. -/
theorem normalize_laws (path : String) :
    normalize (normalize path) = normalize path ∧ NormalText (normalize path).toList ∧
    (NormalText path.toList → normalize path = path) ∧
    ((ofText path).absolute = true → ∀ base, (ofText base).absolute = true →
      join base (relative base path) = normalize path) :=
  ⟨normalize_normalize path, normalText_normalize path, (normalize_eq_self_iff path).mpr,
    fun absolute _ rooted => join_relative rooted absolute⟩

/-- The way out of one package into another, from a directory that is spelled in a roundabout way. -/
theorem sibling_reached :
    NormalText "../lib/b.ts".toList ∧ normalize "../lib/b.ts" = "../lib/b.ts" ∧
    (ofText "/pkg//other/../lib/b.ts").absolute = true ∧ (ofText "/pkg/./src/").absolute = true ∧
    relative "/pkg/./src/" "/pkg//other/../lib/b.ts" = "../lib/b.ts" ∧
    join "/pkg/./src/" (relative "/pkg/./src/" "/pkg//other/../lib/b.ts") = "/pkg/lib/b.ts" := by
  have normal : NormalText "../lib/b.ts".toList :=
    .inr (.inr ⟨[up], ["lib".toList, "b.ts".toList], by decide, by decide, by decide, .inl (by decide)⟩)
  have absolute : (ofText "/pkg//other/../lib/b.ts").absolute = true := by decide
  have rooted : (ofText "/pkg/./src/").absolute = true := by decide
  refine ⟨normal, (normalize_laws _).2.2.1 normal, absolute, rooted, by decide, ?_⟩
  rw [(normalize_laws _).2.2.2 absolute _ rooted]
  decide

end ApiDocs.Path
