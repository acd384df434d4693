set_option autoImplicit false

/-!
Types as the documentation shows them, and the keys by which they refer to declarations.
-/

namespace ApiDocs

mutual

/-- A type as the documentation shows it: a tree whose names refer to declarations only by key. -/
inductive Bound where
  /-- A type shown by its name. `key` is looked up in the package's table of type declarations. -/
  | named (name : String) (parameters : Option (List Bound)) (key origin : Option String)
  | object (properties : List Property) (index : Option IndexEntry)
  | tuple (items : List Bound)
  | function (typeParameters : Option (List Bound)) (parameters : List Property) (result : Bound)
  | intersection (members : List Bound)
  | union (members : List Bound)
  | booleanLiteral (value : String)
  | numberLiteral (value : String)
  | stringLiteral (value : String)
deriving Repr

/-- A property of an object, a parameter of a function or a property of a component. -/
structure Property where
  name : String
  documentation : String
  type : Bound
  optional : Bool
  defaultValue : Option String := none
deriving Repr

/-- A string index signature with the name of its parameter. -/
structure IndexEntry where
  name : String
  type : Bound
deriving Repr

end

/-- A call signature as the documentation shows it. -/
structure SignatureBound where
  typeParameters : Option (List Bound) := none
  parameters : List Property
  result : Bound
deriving Repr

namespace Bound

def plain (name : String) : Bound := .named name none none none

instance : Inhabited Bound := ⟨plain "any"⟩

def name? : Bound → Option String
  | .named name _ _ _ => some name
  | _ => none

def key? : Bound → Option String
  | .named _ _ key _ => key
  | _ => none

mutual

/-- The keys of all named types in the tree: a node's own key, then those of its parts in order. -/
def keys : Bound → List String
  | .named _ none key _ => key.toList
  | .named _ (some parameters) key _ => key.toList ++ keysOfAll parameters
  | .object properties none => keysOfProperties properties
  | .object properties (some ⟨_, type⟩) => keysOfProperties properties ++ keys type
  | .tuple items => keysOfAll items
  | .function none parameters result => keysOfProperties parameters ++ keys result
  | .function (some typeParameters) parameters result =>
      keysOfAll typeParameters ++ keysOfProperties parameters ++ keys result
  | .intersection members => keysOfAll members
  | .union members => keysOfAll members
  | .booleanLiteral _ => []
  | .numberLiteral _ => []
  | .stringLiteral _ => []

def keysOfAll : List Bound → List String
  | [] => []
  | bound :: rest => keys bound ++ keysOfAll rest

def keysOfProperties : List Property → List String
  | [] => []
  | ⟨_, _, type, _, _⟩ :: rest => keys type ++ keysOfProperties rest

end

mutual

/-- Renames the keys of all named types in the tree. -/
def mapKeys (rename : String → String) : Bound → Bound
  | .named name none key origin => .named name none (key.map rename) origin
  | .named name (some parameters) key origin =>
      .named name (some (mapKeysOfAll rename parameters)) (key.map rename) origin
  | .object properties none => .object (mapKeysOfProperties rename properties) none
  | .object properties (some ⟨name, type⟩) =>
      .object (mapKeysOfProperties rename properties) (some ⟨name, mapKeys rename type⟩)
  | .tuple items => .tuple (mapKeysOfAll rename items)
  | .function none parameters result =>
      .function none (mapKeysOfProperties rename parameters) (mapKeys rename result)
  | .function (some typeParameters) parameters result =>
      .function (some (mapKeysOfAll rename typeParameters))
        (mapKeysOfProperties rename parameters) (mapKeys rename result)
  | .intersection members => .intersection (mapKeysOfAll rename members)
  | .union members => .union (mapKeysOfAll rename members)
  | .booleanLiteral value => .booleanLiteral value
  | .numberLiteral value => .numberLiteral value
  | .stringLiteral value => .stringLiteral value

def mapKeysOfAll (rename : String → String) : List Bound → List Bound
  | [] => []
  | bound :: rest => mapKeys rename bound :: mapKeysOfAll rename rest

def mapKeysOfProperties (rename : String → String) : List Property → List Property
  | [] => []
  | ⟨name, documentation, type, optional, defaultValue⟩ :: rest =>
      ⟨name, documentation, mapKeys rename type, optional, defaultValue⟩ ::
        mapKeysOfProperties rename rest

end

end Bound

end ApiDocs
