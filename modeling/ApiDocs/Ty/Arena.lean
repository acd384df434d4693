import Std.Data.HashMap
import ApiDocs.Ty.Basic

set_option autoImplicit false

/-!
The table of types. Equal literals, references and unions are kept once; the members of a union are
in the order of their creation.
-/

namespace ApiDocs

/-- Types that are kept once: equal ones share an id. -/
inductive InternKey where
  | boolean (value : Bool)
  | number (text : String)
  | string (value : String)
  | reference (symbol : SymbolId) (args : List TypeId)
  | union (members : List TypeId)
deriving DecidableEq, Hashable, Repr

/-- The table of all types. It only grows, and the order of creation orders the members of
unions. -/
structure Arena where
  types : Array TypeInfo := #[]
  interned : Std.HashMap InternKey TypeId := {}

namespace Arena

def size (a : Arena) : Nat := a.types.size

def info (a : Arena) (id : TypeId) : TypeInfo := (a.types[id.index]?).getD default

def data (a : Arena) (id : TypeId) : TypeData := (a.info id).data

def alias? (a : Arena) (id : TypeId) : Option AliasRef := (a.info id).writtenAs

def addInfo (a : Arena) (info : TypeInfo) : TypeId × Arena :=
  (⟨a.types.size⟩, { a with types := a.types.push info })

/-- A new type, whether or not there is an equal one. -/
def add (a : Arena) (data : TypeData) : TypeId × Arena := a.addInfo { data }

/-- Fills a place that was reserved. -/
def set (a : Arena) (id : TypeId) (info : TypeInfo) : Arena :=
  { a with types := a.types.setIfInBounds id.index info }

/-- Fills in the data of a reserved place and leaves its alias. -/
def setData (a : Arena) (id : TypeId) (data : TypeData) : Arena :=
  { a with types := a.types.modify id.index fun info => { info with data } }

def intern (a : Arena) (key : InternKey) (data : TypeData) : TypeId × Arena :=
  match a.interned[key]? with
  | some id => (id, a)
  | none =>
      let (id, a) := a.add data
      (id, { a with interned := a.interned.insert key id })

def intrinsicId (i : Intrinsic) : TypeId := ⟨Intrinsic.all.idxOf i⟩

def anyId : TypeId := intrinsicId .any

def falseId : TypeId := ⟨11⟩

def trueId : TypeId := ⟨12⟩

def booleanId : TypeId := ⟨13⟩

/-- The arena every run starts with: the keyword types, the two boolean literals and their union. -/
def initial : Arena :=
  let a := Intrinsic.all.foldl (fun a i => (a.add (.intrinsic i)).2) ({} : Arena)
  let a := (a.intern (.boolean false) (.booleanLiteral false)).2
  let a := (a.intern (.boolean true) (.booleanLiteral true)).2
  (a.intern (.union [falseId, trueId]) (.union [falseId, trueId])).2

instance : Inhabited Arena := ⟨initial⟩

def booleanLiteral (a : Arena) (value : Bool) : TypeId × Arena :=
  a.intern (.boolean value) (.booleanLiteral value)

def numberLiteral (a : Arena) (text : String) : TypeId × Arena :=
  a.intern (.number text) (.numberLiteral text)

def stringLiteral (a : Arena) (value : String) : TypeId × Arena :=
  a.intern (.string value) (.stringLiteral value)

def reference (a : Arena) (symbol : SymbolId) (args : List TypeId) : TypeId × Arena :=
  a.intern (.reference symbol args) (.reference symbol args)

/-- Whether a type is the union of the two boolean literals. -/
def isBoolean (a : Arena) (id : TypeId) : Bool :=
  match a.data id with
  | .union members => members.length = 2 && members.contains falseId && members.contains trueId
  | _ => false

def intrinsic? (a : Arena) (id : TypeId) : Option Intrinsic :=
  match a.data id with
  | .intrinsic i => some i
  | _ => none

def isNullable (a : Arena) (id : TypeId) : Bool :=
  match a.intrinsic? id with
  | some i => i.isNullable
  | none => false

def flattenUnion (a : Arena) (members : List TypeId) : List TypeId :=
  members.flatMap fun id =>
    match a.data id with
    | .union inner => inner
    | _ => [id]

/-- The members of a normal union: `never` is left out, `null` and `undefined` are left out beside
others, and the rest stands in the order of creation, each once. -/
def normalMembers (a : Arena) (flat : List TypeId) : List TypeId :=
  let present := flat.filter fun id => a.intrinsic? id ≠ some .never
  let kept :=
    if present.any (!a.isNullable ·) then present.filter (!a.isNullable ·) else present
  (kept.mergeSort fun x y => x.index ≤ y.index).eraseReps

/-- The normal union of types. `any` and `unknown` absorb all others. -/
def union (a : Arena) (members : List TypeId) : TypeId × Arena :=
  let flat := a.flattenUnion members
  match flat.find? fun id => a.intrinsic? id = some .any || a.intrinsic? id = some .unknown with
  | some absorbing => (absorbing, a)
  | none =>
      match a.normalMembers flat with
      | [] => (intrinsicId .never, a)
      | [id] => (id, a)
      | ids => a.intern (.union ids) (.union ids)

def addDistinct (sofar : List TypeId) (id : TypeId) : List TypeId :=
  if sofar.contains id then sofar else sofar ++ [id]

def flattenIntersection (a : Arena) (members : List TypeId) : List TypeId :=
  (members.flatMap fun id =>
    match a.data id with
    | .intersection inner => inner
    | _ => [id]).foldl addDistinct []

/-- The intersection of types in the order given. `any` and then `never` absorb all others. -/
def intersection (a : Arena) (members : List TypeId) : TypeId × Arena :=
  let flat := a.flattenIntersection members
  if flat.any (a.intrinsic? · = some .any) then (anyId, a)
  else if flat.any (a.intrinsic? · = some .never) then (intrinsicId .never, a)
  else match flat with
    | [] => (intrinsicId .unknown, a)
    | [id] => (id, a)
    | ids => a.add (.intersection ids)

def tuple (a : Arena) (items : List TypeId) : TypeId × Arena := a.add (.tuple items)

def object (a : Arena) (shape : Shape) : TypeId × Arena := a.add (.object shape)

/-- Passes the arena through a list from left to right. -/
def mapIds {α : Type} (f : Arena → α → TypeId × Arena) : Arena → List α → List TypeId × Arena
  | a, [] => ([], a)
  | a, x :: rest =>
      let (id, a) := f a x
      let (ids, a) := mapIds f a rest
      (id :: ids, a)

/-- Replaces literals by their keyword types, through unions that no alias names, down to the given
depth. -/
def widenTo : Nat → Arena → TypeId → TypeId × Arena
  | 0, a, id => (id, a)
  | n + 1, a, id =>
      match a.data id with
      | .booleanLiteral _ => (booleanId, a)
      | .numberLiteral _ => (intrinsicId .number, a)
      | .stringLiteral _ => (intrinsicId .string, a)
      | .union members =>
          if (a.alias? id).isSome then (id, a)
          else
            let (widened, a) := mapIds (widenTo n) a members
            a.union widened
      | _ => (id, a)

/-- Every chain of nested unions is shorter than the arena. -/
def widen (a : Arena) (id : TypeId) : TypeId × Arena := widenTo (a.size + 1) a id

end Arena

end ApiDocs
