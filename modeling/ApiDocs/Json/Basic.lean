set_option autoImplicit false

/-!
JSON documents.
-/

namespace ApiDocs

/-- A JSON document. Numbers keep the text they are written with, objects their fields in order and
with repetitions. A string with half of a surrogate pair in it is `broken`: it denotes no text. -/
inductive Json where
  | null
  | bool (value : Bool)
  | number (text : String)
  | string (text : String)
  | broken
  | array (items : List Json)
  | object (fields : List (String × Json))
deriving Repr, Inhabited

namespace Json

def ofNat (n : Nat) : Json := .number (toString n)

def ofOption {α : Type} (f : α → Json) : Option α → Json
  | some a => f a
  | none => .null

def ofList {α : Type} (f : α → Json) (items : List α) : Json := .array (items.map f)

/-- The field of an absent value is left out. -/
def optionalField {α : Type} (name : String) (f : α → Json) : Option α → List (String × Json)
  | some a => [(name, f a)]
  | none => []

/-- The value of the first field of that name. -/
def field? (doc : Json) (name : String) : Option Json :=
  match doc with
  | .object fields => fields.lookup name
  | _ => none

def asText? : Json → Option String
  | .string text => some text
  | _ => none

def asBool? : Json → Option Bool
  | .bool value => some value
  | _ => none

def asArray? : Json → Option (List Json)
  | .array items => some items
  | _ => none

/-- The value of a number written with digits only. -/
def asNat? : Json → Option Nat
  | .number text =>
      let digits := text.toList
      if digits ≠ [] ∧ digits.all (fun c => '0' ≤ c && c ≤ '9') then
        some (digits.foldl (fun n d => 10 * n + (d.toNat - '0'.toNat)) 0)
      else none
  | _ => none

def asList? {α : Type} (read : Json → Option α) (doc : Json) : Option (List α) :=
  doc.asArray?.bind (·.mapM read)

end Json

end ApiDocs
