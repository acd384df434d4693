import ApiDocs.Checker.Infer

set_option autoImplicit false

/-!
What the statements of a body declare and return.
-/

namespace ApiDocs.Checker

open Syntax

variable (calls : Calls)

/-- The type that a variable is declared with. -/
def declaratorType (scope : ValueScope) (isConst : Bool) (d : Declarator) : Check TypeId := do
  let annotation := match d.name with
    | .ident _ _ type => type
    | _ => none
  match annotation, d.init with
  | some e, _ => calls.ask (.lower scope.types e)
  | none, some e =>
      let t ← calls.ask (.infer scope e)
      if isConst then return t else Check.widen t
  | none, none => return Arena.anyId

/-- Binds the items of an array pattern; holes bind nothing. -/
def bindItems (t : TypeId) (items : List (Option Pattern)) (scope : ValueScope) :
    Check ValueScope := do
  let tuple := match ← Check.data t with
    | .tuple types => some types
    | _ => none
  items.zipIdx.foldlM (fun scope (item, i) => do
    match item with
    | none => return scope
    | some pattern =>
        let part ← match tuple with
          | some types => pure ((types[i]?).getD Arena.anyId)
          | none => itemType calls t
        calls.ask (.bindPattern scope pattern part)) scope

/-- Binds a property of an object pattern. -/
def bindProperty (t : TypeId) (scope : ValueScope) : PatternProperty → Check ValueScope
  | .shorthand name _ => return scope.bind name (← memberType calls t name)
  | .keyed (some name) value => do
      calls.ask (.bindPattern scope value (← memberType calls t name))
  | .keyed none value => calls.ask (.bindPattern scope value Arena.anyId)
  | .rest of => calls.ask (.bindPattern scope of Arena.anyId)

/-- Binds the names of a pattern to the parts of a type. -/
def bindPattern (scope : ValueScope) (t : TypeId) : Pattern → Check ValueScope
  | .ident name _ _ => return scope.bind name t
  | .default left _ _ => calls.ask (.bindPattern scope left t)
  | .rest of _ => calls.ask (.bindPattern scope of t)
  | .array items _ _ => bindItems calls t items scope
  | .object properties _ _ => properties.foldlM (bindProperty calls t) scope

/-- What a statement adds to the names in reach and to the types returned. Names that a block
declares stay in reach behind it. -/
def returns (sofar : Returns) : Stmt → Check Returns
  | .return value => do
      let t ← match value with
        | some e => inferWidened calls sofar.scope e
        | none => pure (Arena.intrinsicId .undefined)
      return { sofar with types := sofar.types ++ [t] }
  | .block statements =>
      statements.foldlM (fun sofar s => calls.ask (.returns sofar s)) sofar
  | .variableList isConst declarators => do
      let scope ← declarators.foldlM (fun scope d => do
        let t ← declaratorType calls scope isConst d
        calls.ask (.bindPattern scope d.name t)) sofar.scope
      return { sofar with scope }
  | .function name function => do
      let t ← Check.callable (← functionSignature calls sofar.scope {} function)
      return { sofar with scope := sofar.scope.bind name t }
  | .other => return sofar

end ApiDocs.Checker
