import ApiDocs.Proofs.Arity.Types
import ApiDocs.Proofs.Loading.Resolved
import ApiDocs.Proofs.Tables

set_option autoImplicit false

/-!
The standard library in the programs that are built. It is the first file of each of them, and a
symbol that is declared with type parameters keeps their number whatever is declared later. So arrays
and promises have one argument everywhere, as the text of the standard library says.
-/

namespace ApiDocs

open Syntax

/-! ### Declarations that are added -/

namespace Bindings

variable {b b' : Bindings} {s : SymbolId}

theorem Same.refl (x : Symbol) : Same x x := ⟨rfl, rfl, rfl, [], (List.append_nil _).symm⟩

theorem Same.trans {x y z : Symbol} (first : Same x y) (second : Same y z) : Same x z := by
  obtain ⟨more, added⟩ := first.decls
  obtain ⟨further, later⟩ := second.decls
  refine ⟨second.name.trans first.name, second.parent.trans first.parent,
    second.kind.trans first.kind, more ++ further, ?_⟩
  rw [later, added, List.append_assoc]

/-- Symbols stay, and declarations are only added behind the ones that they have. -/
def Lasts (b b' : Bindings) : Prop :=
  ∀ s x, b.symbol? s = some x → ∃ y, b'.symbol? s = some y ∧ Same x y

theorem Lasts.of_symbol? (same : ∀ s, b'.symbol? s = b.symbol? s) : b.Lasts b' :=
  fun s x found => ⟨x, (same s).trans found, .refl x⟩

theorem Lasts.trans {b'' : Bindings} (first : b.Lasts b') (second : b'.Lasts b'') : b.Lasts b'' := by
  intro s x found
  obtain ⟨y, middle, same⟩ := first s x found
  obtain ⟨z, after, still⟩ := second s y middle
  exact ⟨z, after, same.trans still⟩

theorem lasts_addSymbol (b : Bindings) (new : Symbol) : b.Lasts (b.addSymbol new).2 :=
  fun _ x found => ⟨x, symbol?_addSymbol_old new found, .refl x⟩

theorem lasts_declare (b : Bindings) (site : Site) (spaces : List Space) (name : String)
    (kind : SymbolKind) (doc : DocComment) (node : DeclNode) :
    b.Lasts (b.declare site spaces name kind doc node).2 := by
  intro s x found
  unfold declare
  dsimp only
  split
  · rw [symbol?_modify, found]
    split
    · exact ⟨_, rfl, rfl, rfl, rfl, _, rfl⟩
    · exact ⟨x, rfl, .refl x⟩
  · obtain ⟨members, after⟩ := symbol?_modifyTable site.table _ (symbol?_addSymbol_old _ found)
    exact ⟨_, after, rfl, rfl, rfl, [], (List.append_nil _).symm⟩

theorem Binds.lasts {n : Nat} (binds : Binds n b b') : b.Lasts b' := by
  induction binds with
  | refl | exports | star | openFile => exact .of_symbol? fun _ => rfl
  | trans _ _ first second => exact first.trans second
  | declare => exact lasts_declare _ _ _ _ _ _ _
  | redirect => exact lasts_addSymbol _ _

/-- The first declaration with type parameters stays the first one. -/
theorem Lasts.arity (lasts : b.Lasts b') (positive : 0 < b.arity s) : b'.arity s = b.arity s := by
  cases found : b.symbol? s with
  | none => simp [Bindings.arity, decls, found] at positive
  | some x =>
      obtain ⟨y, after, same⟩ := lasts s x found
      obtain ⟨more, added⟩ := same.decls
      have before : b.decls s = x.decls := by simp [decls, found]
      have later : b'.decls s = x.decls ++ more := by simp [decls, after, added]
      rw [Bindings.arity, before] at positive
      rw [Bindings.arity, Bindings.arity, before, later, List.find?_append]
      cases first : x.decls.find? fun d => !(Checker.writtenTypeParams d.node).isEmpty with
      | none => simp [first] at positive
      | some d => rfl

/-- The number of type parameters of a global type. -/
def globalArity? (b : Bindings) (name : String) : Option Nat :=
  (b.global.get? .type name).bind fun s => (b.symbol? s).map fun _ => b.arity s

/-- A global type that has type parameters keeps them. -/
theorem Binds.globalArity? {n m : Nat} (binds : Binds n b b') {name : String}
    (known : b.globalArity? name = some (m + 1)) : b'.globalArity? name = some (m + 1) := by
  obtain ⟨s, listed, there⟩ := Option.bind_eq_some_iff.mp known
  obtain ⟨x, found, arity⟩ := Option.map_eq_some_iff.mp there
  obtain ⟨y, after, -⟩ := binds.lasts s x found
  have later : b'.global.get? .type name = some s := binds.grows.names .global .type name s listed
  have same := binds.lasts.arity (s := s) (by omega)
  simp only [Bindings.globalArity?, later, Option.bind_some, after, Option.map_some, same, arity]

end Bindings

/-! ### The text -/

/-- The character at a place below a power of two, found by halves. -/
def Syntax.Chars.halved? : Nat → List Char → Nat → Option Char
  | 0, list, i => list[i]?
  | n + 1, list, i =>
      match Nat.ble (2 ^ n) i with
      | false => halved? n list i
      | true => halved? n (list.drop (2 ^ n)) (i - 2 ^ n)

theorem Syntax.Chars.halved?_eq (n : Nat) (list : List Char) (i : Nat) :
    halved? n list i = list[i]? := by
  induction n generalizing list i with
  | zero => rfl
  | succ n ih =>
      unfold halved?
      split
      · exact ih list i
      · rename_i above
        rw [ih, List.getElem?_drop, Nat.add_sub_cancel' (Nat.le_of_ble_eq_true above)]

theorem Syntax.Chars.ofArray_toArray (n : Nat) (list : List Char) :
    ofArray list.toArray = ⟨list.length, halved? n list⟩ := by
  unfold ofArray
  congr 1
  funext i
  rw [halved?_eq, List.getElem?_toArray]

namespace Program

/-- What a typed file is read as, from the characters of its text. -/
def typed? (path : String) (list : List Char) : Option SourceText :=
  (Parser.parseItems ⟨true, false⟩ ⟨list.length, Chars.halved? 13 list⟩).toOption.map fun items =>
    ⟨path, list.toArray, items⟩

theorem read_typed {path : String} (absolute : path.startsWith "/" = true)
    (dialect : Dialect.ofPath path = ⟨true, false⟩) (list : List Char) :
    (SourceText.read path (String.ofList list)).toOption = typed? path list := by
  unfold SourceText.read SourceText.parse typed?
  dsimp only
  rw [if_pos absolute, String.toList_ofList, dialect, Chars.ofArray_toArray 13]
  cases Parser.parseItems ⟨true, false⟩ ⟨list.length, Chars.halved? 13 list⟩ <;> rfl

theorem parsed?_standardLibrary {list : List Char}
    (text : Typings.standardLibrary.source = String.ofList list) :
    parsed? Typings.standardLibrary = typed? Typings.standardLibrary.path list := by
  rw [parsed?, text]
  exact read_typed (by decide +kernel) (by decide +kernel) list

set_option maxRecDepth 20000 in
/-- The text of the standard library declares arrays and promises with one type parameter each. -/
theorem standardLibrary_generic : ∃ list, Typings.standardLibrary.source = String.ofList list ∧
    (typed? Typings.standardLibrary.path list).any (fun library =>
      ["Array", "Promise"].all fun name =>
        (Bindings.bindFile {} ⟨0⟩ library).globalArity? name == some 1) = true :=
  ⟨_, rfl, by decide +kernel⟩

theorem eraseDupsBy_cons_head {α : Type} (r : α → α → Bool) (x : α) (list : List α) :
    ∃ rest, (x :: list).eraseDupsBy r = x :: rest := by
  induction list using List.reverseRecOn with
  | nil => exact ⟨[], rfl⟩
  | append_singleton front last ih =>
      obtain ⟨rest, kept⟩ := ih
      rw [← List.cons_append, eraseDupsBy_concat, kept]
      exact ⟨_, List.cons_append⟩

/-- The first file of a program is the standard library. -/
theorem Resolved.first {tree : FileTree} {roots : List SourceText} {g : Program}
    (resolved : Resolved tree roots g) {library : SourceText}
    (read : parsed? Typings.standardLibrary = some library) :
    ∃ f, g.file? ⟨0⟩ = some f ∧ f.source = library := by
  obtain ⟨more, front⟩ := resolved.front
  have typings : embedded = library :: [Typings.react].filterMap parsed? :=
    List.filterMap_cons_some read
  obtain ⟨rest, kept⟩ := eraseDupsBy_cons_head samePath library
    ([Typings.react].filterMap parsed? ++ roots)
  rw [typings, List.cons_append, kept, List.cons_append] at front
  have here : (g.files.toList.map (·.source))[0]? = some library := by rw [front]; rfl
  rw [List.getElem?_map, Array.getElem?_toList] at here
  exact Option.map_eq_some_iff.mp here

end Program

/-! ### Programs -/

namespace Bindings

variable {tree : FileTree} {roots : List SourceText}

/-- Arrays and promises have one type parameter each in every program that is built. -/
theorem globalArity?_build {name : String} (listed : name ∈ ["Array", "Promise"]) :
    (ofProgram (Program.build tree roots)).globalArity? name = some 1 := by
  obtain ⟨list, text, generic⟩ := Program.standardLibrary_generic
  obtain ⟨library, read, each⟩ := (Option.any_eq_true _ _).mp generic
  rw [← Program.parsed?_standardLibrary text] at read
  obtain ⟨f, found, same⟩ := (Program.finished_build tree roots).resolved.first read
  obtain ⟨n, later⟩ := binds_after found
  rw [same] at later
  exact later.globalArity? (eq_of_beq (List.all_eq_true.mp each name listed))

instance standard_build : (ofProgram (Program.build tree roots)).Standard := by
  refine ⟨fun name listed s known t => ?_⟩
  have arity : (ofProgram (Program.build tree roots)).globalArity? name = some 1 :=
    globalArity?_build listed
  rw [globalArity?, known, Option.bind_some] at arity
  obtain ⟨x, there, one⟩ := Option.map_eq_some_iff.mp arity
  exact ⟨Option.isSome_iff_exists.mpr ⟨x, there⟩, one.symm⟩

end Bindings

end ApiDocs
