import Mathlib
import ApiDocs.Render
import ApiDocs.Proofs.Paths

set_option autoImplicit false

/-!
Which package a type is said to come from. The name of an unknown package is written into the path of a
file that does not exist, and read back from there. What is read knows fewer characters than names of
packages have: a name is read back exactly if it has no dot and no underscore.
-/

namespace ApiDocs.Origin

open Text

/-! ### Names of packages -/

def isNameChar (c : Char) : Bool := isPackageChar c || c == '.' || c == '_'

/-- A scope or the name behind it. -/
structure NamePart (part : List Char) : Prop where
  filled : part ≠ []
  chars : ∀ c ∈ part, isNameChar c
  front : ∀ c ∈ part.head?, c ≠ '.' ∧ c ≠ '_'

/-- The scope `@types` holds typings of packages, and no package of its own. -/
inductive PackageName : List Char → Prop where
  | plain {name : List Char} : NamePart name → PackageName name
  | underScope {scope name : List Char} : NamePart scope → scope ≠ "types".toList → NamePart name →
      PackageName ('@' :: scope ++ '/' :: name)

/-- Whether a name has only characters that are read back. -/
def Legible (name : List Char) : Prop := '.' ∉ name ∧ '_' ∉ name

instance (name : List Char) : Decidable (Legible name) :=
  inferInstanceAs (Decidable ('.' ∉ name ∧ '_' ∉ name))

namespace NamePart

variable {part : List Char}

theorem not_mem (valid : NamePart part) {c : Char} (other : isNameChar c = false) : c ∉ part := by
  intro inside
  have := valid.chars c inside
  simp [other] at this

theorem noSlash (valid : NamePart part) : '/' ∉ part := valid.not_mem (by decide)

theorem noAt (valid : NamePart part) : '@' ∉ part := valid.not_mem (by decide)

theorem all_isPackageChar_iff (valid : NamePart part) :
    (∀ c ∈ part, isPackageChar c) ↔ Legible part := by
  constructor
  · intro plain
    exact ⟨fun inside => absurd (plain _ inside) (by decide),
      fun inside => absurd (plain _ inside) (by decide)⟩
  · rintro ⟨noDot, noUnderscore⟩ c inside
    have known := valid.chars c inside
    have dot : c ≠ '.' := fun same => noDot (same ▸ inside)
    have underscore : c ≠ '_' := fun same => noUnderscore (same ▸ inside)
    simpa [isNameChar, dot, underscore] using known

end NamePart

/-! ### Writing the name into a path -/

theorem packageName_plain {name below : List Char} (clean : '/' ∉ name) (unscoped : '@' ∉ name)
    (sub : below = [] ∨ ∃ rest, below = '/' :: rest) : packageName (name ++ below) = name := by
  rcases sub with rfl | ⟨rest, rfl⟩
  · rw [List.append_nil, packageName, splitOn_clean clean]
  · rw [packageName, splitOn_append clean]
    obtain ⟨second, more, parts⟩ := List.exists_cons_of_ne_nil (splitOn_ne_nil '/' rest)
    have : startsWith ['@'] name = false := by
      cases name with
      | nil => rfl
      | cons c name =>
          simp only [List.mem_cons, not_or] at unscoped
          simp [startsWith, List.isPrefixOf, unscoped.1]
    simp [parts, this]

theorem packageName_underScope {scope name below : List Char} (cleanScope : '/' ∉ scope)
    (clean : '/' ∉ name) (sub : below = [] ∨ ∃ rest, below = '/' :: rest) :
    packageName ('@' :: scope ++ '/' :: name ++ below) = '@' :: scope ++ '/' :: name := by
  have cleanScope : '/' ∉ '@' :: scope := by simp [cleanScope]
  have led : startsWith ['@'] ('@' :: scope) = true := by simp [startsWith]
  have spelled : '@' :: scope ++ '/' :: name ++ below = '@' :: scope ++ '/' :: (name ++ below) :=
    List.append_assoc ..
  rw [spelled, packageName, splitOn_append cleanScope]
  rcases sub with rfl | ⟨rest, rfl⟩
  · simp [splitOn_clean clean, led]
  · simp [splitOn_append clean, led]

theorem packageName_append {name below : List Char} (valid : PackageName name)
    (sub : below = [] ∨ ∃ rest, below = '/' :: rest) : packageName (name ++ below) = name := by
  cases valid with
  | plain valid => exact packageName_plain valid.noSlash valid.noAt sub
  | underScope scope _ valid => exact packageName_underScope scope.noSlash valid.noSlash sub

/-! ### Reading the name back -/

theorem isPrefixOf_segment {mark part : List Char} (cleanMark : '/' ∉ mark) (clean : '/' ∉ part)
    (marks rest : List Char) : (mark ++ '/' :: marks).isPrefixOf (part ++ '/' :: rest) =
      (decide (mark = part) && marks.isPrefixOf rest) := by
  induction mark generalizing part with
  | nil =>
      cases part with
      | nil => simp
      | cons c part =>
          simp only [List.mem_cons, not_or] at clean
          simp [List.isPrefixOf, clean.1]
  | cons m mark ih =>
      simp only [List.mem_cons, not_or] at cleanMark
      cases part with
      | nil => simp [List.isPrefixOf, Ne.symm cleanMark.1]
      | cons c part =>
          simp only [List.mem_cons, not_or] at clean
          have := ih cleanMark.2 clean.2
          by_cases same : m = c <;> simp_all [List.isPrefixOf]

/-- A mark that spans a segment is found where the segment is the same and the rest of the mark
follows. -/
theorem dropMark?_segment {mark part : List Char} (cleanMark : '/' ∉ mark) (clean : '/' ∉ part)
    (marks rest : List Char) : dropMark? (mark ++ '/' :: marks) (part ++ '/' :: rest) =
      if mark = part then dropMark? marks rest else none := by
  unfold dropMark?
  rw [isPrefixOf_segment cleanMark clean]
  by_cases same : mark = part
  · subst same
    simp [← List.drop_drop]
  · simp [same]

theorem dropMark?_slash (marks rest : List Char) :
    dropMark? ('/' :: marks) ('/' :: rest) = dropMark? marks rest := by
  simp [dropMark?]

theorem dropMark?_elsewhere (marks : List Char) {c : Char} {rest : List Char} (differs : c ≠ '/') :
    dropMark? ('/' :: marks) (c :: rest) = none := by
  simp [dropMark?, List.isPrefixOf, Ne.symm differs]

/-- Package characters up to a slash are a segment, and no other text in front of a slash is. -/
theorem segment?_append {part : List Char} (filled : part ≠ []) (clean : '/' ∉ part)
    (rest : List Char) : segment? (part ++ '/' :: rest) =
      if ∀ c ∈ part, isPackageChar c then some (part, rest) else none := by
  have slash : isPackageChar '/' = false := by decide
  split
  · rename_i plain
    rw [segment?, List.takeWhile_append_of_pos plain, List.dropWhile_append_of_pos plain]
    cases part with
    | nil => exact absurd rfl filled
    | cons c part => simp [slash]
  · rename_i strange
    -- the run ends at a character of the part, which is no slash
    have stops : ∃ c others, (part ++ '/' :: rest).dropWhile isPackageChar = c :: others ∧
        c ≠ '/' := by
      clear filled
      induction part with
      | nil => simp at strange
      | cons c part ih =>
          simp only [List.mem_cons, not_or] at clean
          by_cases plain : isPackageChar c
          · simpa [plain] using ih clean.2 fun all => strange (by simpa [plain] using all)
          · exact ⟨c, part ++ '/' :: rest, by simp [plain], Ne.symm clean.1⟩
    obtain ⟨c, others, dropped, differs⟩ := stops
    unfold segment?
    rw [dropped]
    cases (part ++ '/' :: rest).takeWhile isPackageChar with
    | nil => rfl
    | cons first more => simp [differs]

/-- How the name of the file ends that stands for a package. -/
def index : List Char := "index.d.ts".toList

theorem installed_eq : installed = '/' :: ("node_modules".toList ++ '/' :: []) := by decide

theorem installed_append (rest : List Char) :
    installed ++ rest = '/' :: ("node_modules".toList ++ '/' :: rest) := by
  rw [installed_eq]
  rfl

theorem libMark_eq : installed ++ "typescript/lib/lib.".toList =
    '/' :: ("node_modules".toList ++ '/' :: ("typescript".toList ++ '/' :: "lib/lib.".toList)) := by
  decide

/-- Behind the directory of packages nothing more is read. -/
theorem dropMark?_installed {part : List Char} (clean : '/' ∉ part) (rest : List Char) :
    dropMark? installed ('/' :: (part ++ '/' :: rest)) =
      if "node_modules".toList = part then some rest else none := by
  rw [installed_eq, dropMark?_slash, dropMark?_segment (by decide) clean]
  rfl

section

variable {part : List Char}

theorem libAt?_segment (clean : '/' ∉ part) {rest : List Char}
    (other : dropMark? ("typescript".toList ++ '/' :: "lib/lib.".toList) rest = none) :
    libAt? ('/' :: (part ++ '/' :: rest)) = none := by
  have noMark : dropMark? (installed ++ "typescript/lib/lib.".toList) ('/' :: (part ++ '/' :: rest)) =
      none := by
    rw [libMark_eq, dropMark?_slash, dropMark?_segment (by decide) clean, other, ite_self]
  rw [libAt?, noMark]
  rfl

theorem packageAt?_other (clean : '/' ∉ part) (differs : "node_modules".toList ≠ part)
    (rest : List Char) : packageAt? ('/' :: (part ++ '/' :: rest)) = none := by
  rw [packageAt?, dropMark?_installed clean, if_neg differs]
  rfl

theorem packageAt?_index (clean : '/' ∉ part) : packageAt? ('/' :: (part ++ '/' :: index)) = none := by
  by_cases same : "node_modules".toList = part
  · subst same
    decide
  · exact packageAt?_other clean same _

theorem packageAt?_installed (rest : List Char) :
    packageAt? (installed ++ rest) =
      (((dropMark? ("@types".toList ++ '/' :: []) rest).bind scoped?) <|> scoped? rest) := by
  rw [installed_append, packageAt?, dropMark?_installed (by decide), if_pos rfl]
  rfl

end

/-- Nothing that is read starts anywhere but at a slash. -/
theorem firstAt?_clean {read : List Char → Option (List Char)}
    (atSlash : ∀ c rest, c ≠ '/' → read (c :: rest) = none) {part : List Char} (clean : '/' ∉ part)
    (rest : List Char) : firstAt? read (part ++ rest) = firstAt? read rest := by
  induction part with
  | nil => rfl
  | cons c part ih =>
      simp only [List.mem_cons, not_or] at clean
      rw [List.cons_append, firstAt?, atSlash c _ (Ne.symm clean.1), ih clean.2]
      rfl

theorem libAt?_elsewhere (c : Char) (rest : List Char) (differs : c ≠ '/') :
    libAt? (c :: rest) = none := by
  rw [libAt?, libMark_eq, dropMark?_elsewhere _ differs]
  rfl

theorem packageAt?_elsewhere (c : Char) (rest : List Char) (differs : c ≠ '/') :
    packageAt? (c :: rest) = none := by
  rw [packageAt?, installed_eq, dropMark?_elsewhere _ differs]
  rfl

section

variable {read : List Char → Option (List Char)}

/-- Where nothing is read at a slash that a clean segment follows, what is behind the segment
decides. -/
theorem firstAt?_segment (atSlash : ∀ c rest, c ≠ '/' → read (c :: rest) = none) {part : List Char}
    (clean : '/' ∉ part) {rest : List Char} (here : read ('/' :: (part ++ '/' :: rest)) = none) :
    firstAt? read ('/' :: (part ++ '/' :: rest)) = firstAt? read ('/' :: rest) := by
  rw [firstAt?, here, firstAt?_clean atSlash clean]
  rfl

theorem firstAt?_installed (atSlash : ∀ c rest, c ≠ '/' → read (c :: rest) = none)
    {rest : List Char} (behind : firstAt? read ('/' :: rest) = none) :
    firstAt? read (installed ++ rest) = read (installed ++ rest) := by
  rw [installed_append, firstAt?, firstAt?_clean atSlash (by decide), behind]
  cases read ('/' :: ("node_modules".toList ++ '/' :: rest)) <;> rfl

end

/-! ### Names of both kinds -/

section

variable {scope name : List Char}

theorem noLibrary (clean : '/' ∉ name) :
    dropMark? ("typescript".toList ++ '/' :: "lib/lib.".toList) (name ++ '/' :: index) = none := by
  rw [dropMark?_segment (by decide) clean]
  exact ite_eq_right_iff.mpr fun _ => by decide

theorem firstLib_index (clean : '/' ∉ name) : firstAt? libAt? ('/' :: (name ++ '/' :: index)) = none :=
  (firstAt?_segment libAt?_elsewhere clean (libAt?_segment clean (by decide))).trans (by decide)

theorem firstLib_plain (clean : '/' ∉ name) :
    firstAt? libAt? (installed ++ (name ++ '/' :: index)) = none := by
  rw [firstAt?_installed libAt?_elsewhere (firstLib_index clean), installed_append]
  exact libAt?_segment (by decide) (noLibrary clean)

theorem firstLib_underScope (cleanScope : '/' ∉ '@' :: scope) (clean : '/' ∉ name) :
    firstAt? libAt? (installed ++ ('@' :: scope ++ '/' :: (name ++ '/' :: index))) = none := by
  have differs : "typescript".toList ≠ '@' :: scope := fun same =>
    absurd (List.cons.inj same).1 (by decide)
  have other : dropMark? ("typescript".toList ++ '/' :: "lib/lib.".toList)
      ('@' :: scope ++ '/' :: (name ++ '/' :: index)) = none := by
    rw [dropMark?_segment (by decide) cleanScope, if_neg differs]
  rw [firstAt?_installed libAt?_elsewhere]
  · rw [installed_append]
    exact libAt?_segment (by decide) other
  · rw [firstAt?_segment libAt?_elsewhere cleanScope (libAt?_segment cleanScope (noLibrary clean)),
      firstLib_index clean]

theorem firstPackage_index (clean : '/' ∉ name) :
    firstAt? packageAt? ('/' :: (name ++ '/' :: index)) = none :=
  (firstAt?_segment packageAt?_elsewhere clean (packageAt?_index clean)).trans (by decide)

theorem segment?_namePart (valid : NamePart name) (rest : List Char) :
    segment? (name ++ '/' :: rest) = if Legible name then some (name, rest) else none := by
  rw [segment?_append valid.filled valid.noSlash]
  simp only [valid.all_isPackageChar_iff]

theorem firstPackage_plain (valid : NamePart name) :
    firstAt? packageAt? (installed ++ (name ++ '/' :: index)) =
      if Legible name then some name else none := by
  have unscoped : "@types".toList ≠ name := fun same => valid.noAt (same ▸ by decide)
  have noScope : dropMark? ("@types".toList ++ '/' :: []) (name ++ '/' :: index) = none := by
    rw [dropMark?_segment (by decide) valid.noSlash, if_neg unscoped]
  have read : scoped? (name ++ '/' :: index) = (segment? (name ++ '/' :: index)).map Prod.fst := by
    unfold scoped?
    split
    · rename_i rest same
      have noAt := valid.noAt
      cases name with
      | nil => exact absurd rfl valid.filled
      | cons c name => simp [(List.cons.inj same).1] at noAt
    · rfl
  rw [firstAt?_installed packageAt?_elsewhere (firstPackage_index valid.noSlash),
    packageAt?_installed, noScope, read, segment?_namePart valid]
  split <;> rfl

theorem firstPackage_underScope (validScope : NamePart scope) (differs : scope ≠ "types".toList)
    (valid : NamePart name) :
    firstAt? packageAt? (installed ++ ('@' :: scope ++ '/' :: (name ++ '/' :: index))) =
      if Legible ('@' :: scope ++ '/' :: name) then some ('@' :: scope ++ '/' :: name) else none := by
  have cleanScope : '/' ∉ '@' :: scope := by simp [validScope.noSlash]
  have unscoped : "@types".toList ≠ '@' :: scope := fun same =>
    differs (List.cons.inj same).2.symm
  have noPackages : "node_modules".toList ≠ '@' :: scope := fun same =>
    absurd (List.cons.inj same).1 (by decide)
  have noScope : dropMark? ("@types".toList ++ '/' :: [])
      ('@' :: scope ++ '/' :: (name ++ '/' :: index)) = none := by
    rw [dropMark?_segment (by decide) cleanScope, if_neg unscoped]
  have both : Legible ('@' :: scope ++ '/' :: name) ↔ Legible scope ∧ Legible name := by
    simp only [Legible, List.cons_append, List.mem_cons, List.mem_append]
    grind
  rw [firstAt?_installed packageAt?_elsewhere]
  · rw [packageAt?_installed, noScope, ite_cond_congr (propext both)]
    simp only [List.cons_append, scoped?, segment?_namePart validScope]
    by_cases legibleScope : Legible scope <;> by_cases legible : Legible name <;>
      simp [legibleScope, legible, segment?_namePart valid]
  · rw [firstAt?_segment packageAt?_elsewhere cleanScope (packageAt?_other cleanScope noPackages _),
      firstPackage_index valid.noSlash]

/-- What is read back from the path that stands for a package. -/
theorem importedFrom_installed {name : List Char} (valid : PackageName name) :
    importedFrom (String.ofList (installed ++ name ++ "/index.d.ts".toList)) =
      if Legible name then some (String.ofList name) else none := by
  have spelled (front : List Char) : installed ++ front ++ "/index.d.ts".toList =
      installed ++ (front ++ '/' :: index) := List.append_assoc ..
  rw [importedFrom, String.toList_ofList, spelled]
  cases valid with
  | plain valid =>
      rw [firstLib_plain valid.noSlash, firstPackage_plain valid]
      simp only [apply_ite (Option.map String.ofList), Option.map_some, Option.map_none]
  | @underScope scope name validScope differs valid =>
      have parts : '@' :: scope ++ '/' :: name ++ '/' :: index =
          '@' :: scope ++ '/' :: (name ++ '/' :: index) := List.append_assoc ..
      rw [parts, firstLib_underScope (by simp [validScope.noSlash]) valid.noSlash,
        firstPackage_underScope validScope differs valid]
      simp only [apply_ite (Option.map String.ofList), Option.map_some, Option.map_none]

end

/-! ### Types of unknown packages -/

theorem originPath?_later {b b' : Bindings} (grown : b.Extends b')
    {p : Program} {s : SymbolId} {path : String} (declared : b.originPath? p s = some path) :
    b'.originPath? p s = some path := by
  unfold Bindings.originPath? Bindings.decls at declared ⊢
  cases known : b.symbol? s with
  | none => simp [known] at declared
  | some x => simpa [known, grown.symbol s x known] using declared

/-- A type without an alias is shown by its name, with the label that belongs to the file of the first
declaration of its symbol. -/
theorem label_named (child : TypeId → Check Bound) {p : Program} {c : Checker} {t : TypeId}
    {s : SymbolId} {path : String} (plain : c.arena.alias? t = none)
    (declares : c.typeSymbol? t = some s) (declared : c.bindings.originPath? p s = some path) :
    ∃ parameters key, ((Render.named child t).outcome p c).1 =
      .named (c.typeName t) parameters key (importedFrom path) := by
  have parts : ((Render.namedParts t).outcome p c).1.symbol = some s := by
    simp [Render.namedParts, plain, declares]
  have later := originPath?_later ((Render.namedParts t).kept p c).bindings declared
  generalize made : (Render.namedParts t).outcome p c = r at parts later
  have last := originPath?_later ((Render.typeList child r.1.args).kept p r.2).bindings later
  refine ⟨((Render.typeList child r.1.args).outcome p r.2).1, r.1.key, ?_⟩
  simp only [Render.named, Check.outcome_bind, Check.outcome_state, Check.outcome_read, Check.outcome_pure,
    made, parts, Option.bind_some, last]

/-- A type that stands for no more than its symbol is shown by its name, at any depth. -/
theorem boundAt_nominal (n : Nat) {p : Program} {c : Checker} {t : TypeId} {s : SymbolId}
    {args : List TypeId} (made : c.arena.info t = ⟨.nominal s args, none⟩) :
    (Render.boundAt (n + 1) true t).outcome p c =
      (Render.named (Render.boundAt n true) t).outcome p c := by
  have plain : c.arena.alias? t = none := congrArg TypeInfo.writtenAs made
  have data : c.arena.data t = .nominal s args := congrArg TypeInfo.data made
  simp only [Render.boundAt, Check.outcome_bind, Check.outcome_alias?, plain, Option.isSome_none,
    Bool.and_false, Bool.false_eq_true, ↓reduceIte, Check.outcome_data, data]

/-- The name of an unknown package is read back from the path that stands for it, whatever follows it in
the specifier, if it has no dot and no underscore; else nothing is read. Types that the package declares
are labelled accordingly. -/
theorem label_external {specifier : String} {name below : List Char} (valid : PackageName name)
    (sub : below = [] ∨ ∃ rest, below = '/' :: rest) (spelled : specifier.toList = name ++ below) :
    let label := if Legible name then some (String.ofList name) else none
    importedFrom (externalPath specifier) = label ∧
    ∀ (p : Program) (c : Checker) (t : TypeId) (s : SymbolId) (args : List TypeId) (d : SymbolDecl),
      c.arena.info t = ⟨.nominal s args, none⟩ → (c.bindings.decls s).head? = some d →
      d.node = .external specifier → ∃ parameters key,
        ((Render.bound t).outcome p c).1 = .named (c.typeName t) parameters key label := by
  have read : importedFrom (externalPath specifier) =
      if Legible name then some (String.ofList name) else none := by
    rw [externalPath, spelled, packageName_append valid sub, importedFrom_installed valid]
  refine ⟨read, fun p c t s args d made first outside => ?_⟩
  have plain : c.arena.alias? t = none := congrArg TypeInfo.writtenAs made
  have data : c.arena.data t = .nominal s args := congrArg TypeInfo.data made
  have declares : c.typeSymbol? t = some s := by simp [Checker.typeSymbol?, data]
  have declared : c.bindings.originPath? p s = some (externalPath specifier) := by
    simp [Bindings.originPath?, first, outside]
  obtain ⟨n, deep⟩ : ∃ n, Render.maxDepth = n + 1 := ⟨Render.maxDepth - 1, rfl⟩
  simp only [Render.bound, deep, boundAt_nominal n made, ← read]
  exact label_named _ plain declares declared

/-- A type that a package under a scope declares. -/
def boxed : Checker :=
  { bindings := (Bindings.external {} "@scope/pkg/sub" "Box").2
    arena := (Arena.initial.addInfo ⟨.nominal ⟨0⟩ [], none⟩).2 }

theorem boxed_labelled : PackageName "@scope/pkg".toList ∧
    importedFrom (externalPath "@scope/pkg/sub") = some "@scope/pkg" ∧
    ∃ parameters key, ((Render.bound ⟨14⟩).outcome {} boxed).1 =
      .named (boxed.typeName ⟨14⟩) parameters key (some "@scope/pkg") := by
  have scope : NamePart "scope".toList := ⟨by decide, List.all_eq_true.mp (by decide), by simp⟩
  have name : NamePart "pkg".toList := ⟨by decide, List.all_eq_true.mp (by decide), by simp⟩
  have valid : PackageName "@scope/pkg".toList := .underScope scope (by decide) name
  have spelled : "@scope/pkg/sub".toList = "@scope/pkg".toList ++ "/sub".toList := by decide
  have labels := label_external valid (.inr ⟨"sub".toList, by decide⟩) spelled
  have legible : Legible "@scope/pkg".toList := by decide
  rw [if_pos legible, String.ofList_toList] at labels
  have size : Arena.initial.size = 14 := by cbv
  have made : boxed.arena.info ⟨14⟩ = ⟨.nominal ⟨0⟩ [], none⟩ :=
    size ▸ Arena.info_addInfo_self Arena.initial _
  exact ⟨valid, labels.1, labels.2 {} boxed ⟨14⟩ ⟨0⟩ [] ⟨⟨0⟩, {}, .external "@scope/pkg/sub"⟩ made rfl rfl⟩

/-- A valid name with a dot: its types have no label. -/
theorem dotted_unlabelled : PackageName "lodash.debounce".toList ∧
    externalPath "lodash.debounce" = "/node_modules/lodash.debounce/index.d.ts" ∧
    importedFrom (externalPath "lodash.debounce") = none :=
  ⟨.plain ⟨by decide, List.all_eq_true.mp (by decide), by simp⟩, by decide, by decide⟩

end ApiDocs.Origin
