import ApiDocs.Syntax.Parser.Types

set_option autoImplicit false

/-!
Patterns of declarations and parameters.
-/

namespace ApiDocs.Syntax.Parser

open Parse

variable (rules : Rules)

/-- The name of a property of an object or class; a computed key has none. -/
def Key.propertyName? : Key → Option String
  | .ident name => some name
  | .string value => some value
  | .number value => some value.text
  | .bigint digits => some digits
  | _ => none

/-- A default value with its text, if one follows. -/
def defaultValue? : Parse (Option (Expr × String)) := do
  if ← eat "=" then
    let start ← startHere
    let value ← rules.call (.assignment {})
    return some (value, ← textFrom start)
  else return none

def withDefault (left : Pattern) : Option (Expr × String) → Pattern
  | some (value, text) => .default left value text
  | none => left

/-- A part of a pattern: a pattern and maybe a default value. -/
def patternPart : Parse Pattern := do
  let left ← rules.call .pattern
  return withDefault left (← defaultValue? rules)

/-- An item of an array pattern; it may be missing. -/
def arrayPart : Parse (Option Pattern) := do
  if (← at_ ",") || (← at_ "]") then return none
  else if ← eat "..." then return some (.rest (← rules.call .pattern) none)
  else return some (← patternPart rules)

def objectPart : Parse PatternProperty := do
  if ← eat "..." then return .rest (← rules.call .pattern)
  else
    let short ← succeeds (do
      let _ ← ident
      unless (← at_ ",") || (← at_ "=") || (← at_ "\x7d") do fail)
    if short then
      let name ← ident
      return .shorthand name ((← defaultValue? rules).map Prod.fst)
    else
      let name := (← key rules).propertyName?
      expect ":"
      return .keyed name (← patternPart rules)

/-- A name, array or object to bind. -/
def pattern : Parse Pattern := do
  if ← eat "[" then return .array (← commaList "]" (arrayPart rules)) false none
  else if ← eat "\x7b" then return .object (← commaList "\x7d" (objectPart rules)) false none
  else return .ident (← ident) false none

/-- Marks a pattern as optional and gives it a type. -/
def annotated (optional : Bool) (type : Option TypeExpr) : Pattern → Pattern
  | .ident name _ _ => .ident name optional type
  | .array items _ _ => .array items optional type
  | .object properties _ _ => .object properties optional type
  | .rest of _ => .rest of type
  | .default left value text => .default left value text

/-- Skips decorators. -/
def decorators : Parse Unit :=
  extend (fun _ => do
    if ← eat "@" then
      let _ ← rules.call .leftHandSide
      return some ()
    else return none) ()

/-- A parameter behind its modifiers. -/
def param : Parse Pattern := do
  if ← eat "..." then
    let of ← rules.call .pattern
    return .rest of (← annotation rules)
  else
    let left ←
      if ← eatName "this" then pure (.ident "this" false none) else rules.call .pattern
    let optional ← if ← typed then eat "?" else pure false
    let type ← annotation rules
    return withDefault (annotated optional type left) (← defaultValue? rules)

def params : Parse (List Pattern) := do
  expect "("
  commaList ")" do
    decorators rules
    param rules

/-- Words that turn a parameter of a constructor into a property. -/
def paramModifiers : List String :=
  ["public", "private", "protected", "readonly", "override"]

/-- The modifiers of a parameter. A word is one if the parameter goes on behind it. -/
def paramModifiersHere : Parse (List String) :=
  collect do
    if (← typed) && (← atNames paramModifiers) && (← succeeds (do
        advance
        match ← kind with
        | .name _ => return
        | .punct mark => if mark = "\x7b" ∨ mark = "[" then return else fail
        | _ => fail)) then
      return some (← word)
    else return none

def constructorParam : Parse ConstructorParam := do
  decorators rules
  let modifiers ← paramModifiersHere
  let pattern ← param rules
  return ⟨pattern, !modifiers.isEmpty, modifiers.contains "readonly"⟩

def constructorParams : Parse (List ConstructorParam) := do
  expect "("
  commaList ")" (constructorParam rules)

end ApiDocs.Syntax.Parser
