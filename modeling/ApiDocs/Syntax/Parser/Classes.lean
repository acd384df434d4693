import ApiDocs.Syntax.Parser.Expressions

set_option autoImplicit false

/-!
Classes and their members.
-/

namespace ApiDocs.Syntax.Parser

open Parse

variable (rules : Rules)

/-- An expression with type arguments, in a heritage clause. -/
def heritage : Parse Heritage := do
  let start ← startHere
  match ← rules.call .leftHandSide with
  | .instantiation expr text args => return ⟨expr, text, args⟩
  | expr =>
      let text ← textFrom start
      let args ← if (← typed) && (← atAngle) then typeArgs rules else pure []
      return ⟨expr, text, args⟩

/-- Expressions with commas between them, up to a brace. -/
def heritageList : Parse (List Heritage) := do
  let first ← heritage rules
  let rest ← collect do
    if ← eat "," then return some (← heritage rules) else return none
  return first :: rest

/-- Words that can stand before a member of a class. -/
def memberModifiers (typed : Bool) : List String :=
  ["static", "accessor", "async"] ++
    if typed then
      ["declare", "public", "private", "protected", "abstract", "override", "readonly"]
    else []

/-- The modifiers of a member. A word is one if a key follows it on the same line. -/
def memberModifiersHere : Parse (List String) :=
  collect do
    if (← atNames (memberModifiers (← typed))) && (← isModifier) then return some (← word) else return none

/-- Whether a member with these modifiers and this key belongs to the instances and has a name. -/
def instanceName? (modifiers : List String) (key : Key) : Option String :=
  if modifiers.contains "static" || modifiers.contains "accessor" then none else key.propertyName?

/-- The rest of a property behind its key. -/
def propertyRest (modifiers : List String) (key : Key) (optional : Bool) (doc : DocComment) :
    Parse (Option ClassMember) := do
  unless optional do
    if (← typed) && (← at_ "!") then advance
  let type ← annotation rules
  let value ← if ← eat "=" then some <$> rules.call (.assignment {}) else pure none
  endStatement
  return (instanceName? modifiers key).map
    (.property · type value optional (modifiers.contains "readonly") doc)

/-- The rest of a method behind its key; a method without a body ends like a statement. -/
def methodRest (modifiers : List String) (key : Key) (kind : MethodKind) (isGenerator : Bool)
    (optional : Bool) (doc : DocComment) : Parse (Option ClassMember) := do
  let function ← rules.call (.method (modifiers.contains "async") isGenerator)
  match function.body with
  | .none =>
      unless ← typed do fail
      endStatement
  | _ => pure ()
  return (instanceName? modifiers key).map (.method · function kind optional doc)

/-- The rest of a constructor behind its name. -/
def constructorRest (doc : DocComment) : Parse (Option ClassMember) := do
  let params ← constructorParams rules
  let _ ← resultAnnotation rules
  if ← at_ "\x7b" then
    let _ ← rules.call .block
    return some (.constructor params true doc)
  else
    endStatement
    return some (.constructor params false doc)

def Key.isConstructor : Key → Bool
  | .ident name => name = "constructor"
  | .string value => value = "constructor"
  | _ => false

/-- A member behind its modifiers. -/
def memberRest (modifiers : List String) (doc : DocComment) : Parse (Option ClassMember) := do
  if (← typed) && (← atIndex) then
    advance
    let index ← indexRest rules
    endMember
    return if modifiers.contains "static" then none else some (.index index)
  else if ((← atName "get") || (← atName "set")) && (← isModifier) then
    let kind := if (← word) = "get" then MethodKind.getter else .setter
    let key ← key rules
    let optional ← eat "?"
    methodRest rules modifiers key kind false optional doc
  else
    let isGenerator ← eat "*"
    let key ← key rules
    let optional ← if ← typed then eat "?" else pure false
    if key.isConstructor && !modifiers.contains "static" && ((← at_ "(") || (← at_ "<")) then
      constructorRest rules doc
    else if (← at_ "(") || (← at_ "<") then
      methodRest rules modifiers key .method isGenerator optional doc
    else if isGenerator then fail
    else propertyRest rules modifiers key optional doc

def classMember : Parse (Option ClassMember) := do
  if ← eat ";" then return none
  else
    let doc ← docHere
    decorators rules
    let modifiers ← memberModifiersHere
    if (modifiers.contains "static") && (← at_ "\x7b") then
      let _ ← rules.call .block
      return none
    else memberRest rules modifiers doc

/-- A class behind its keyword: its name, if it has one, and the rest. -/
def classRest : Parse (Option String × ClassExpr) := do
  let name ←
    if (← atIdent) && !((← atName "implements") && (← succeeds (do advance; let _ ← ident))) then
      some <$> ident
    else pure none
  let typeParams ← optionalTypeParams rules
  let base ← if ← eatName "extends" then some <$> heritage rules else pure none
  if (← typed) && (← atName "implements") then
    advance
    let _ ← heritageList rules
  expect "\x7b"
  let members ← itemsUntil "\x7d" (classMember rules)
  return (name, ⟨typeParams, base.map (·.expr), (base.map (·.args)).getD [],
    members.filterMap id⟩)

end ApiDocs.Syntax.Parser
