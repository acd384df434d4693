import ApiDocs.Checker.Names

set_option autoImplicit false

/-!
Putting types in the place of type parameters. A type that the substitution does not touch is
itself the result.
-/

namespace ApiDocs.Checker

section

variable (f : TypeId → Check TypeId)

def mapSignature (s : Signature) : Check Signature := do
  let params ← s.params.mapM fun p => return { p with type := ← f p.type }
  return { s with params, result := ← f s.result }

def mapIndex (index : Option IndexInfo) : Check (Option IndexInfo) :=
  index.mapM fun i => return { i with type := ← f i.type }

/-- The shape with all types in it replaced; the type parameters of signatures stay. -/
def mapShape (s : Shape) : Check Shape := do
  let members ← s.members.mapM fun m => return { m with type := ← f m.type }
  let call ← s.call.mapM (mapSignature f)
  let construct ← s.construct.mapM (mapSignature f)
  let stringIndex ← mapIndex f s.stringIndex
  let numberIndex ← mapIndex f s.numberIndex
  return { s with members, call, construct, stringIndex, numberIndex }

end

/-- Substitutes in the parts of a type. The parameter of a mapped type is bound in its template. -/
def mapParts (f : Substitution → TypeId → Check TypeId) (map : Substitution) :
    TypeData → Check TypeData
  | .union members => return .union (← members.mapM (f map))
  | .intersection members => return .intersection (← members.mapM (f map))
  | .tuple items => return .tuple (← items.mapM (f map))
  | .reference symbol args => return .reference symbol (← args.mapM (f map))
  | .nominal symbol args => return .nominal symbol (← args.mapM (f map))
  | .unresolved name args => return .unresolved name (← args.mapM (f map))
  | .object shape => return .object (← mapShape (f map) shape)
  | .keyOf of => return .keyOf (← f map of)
  | .indexedAccess object index => return .indexedAccess (← f map object) (← f map index)
  | .mapped m => do
      let constraint ← f map m.constraint
      let template ← f (map.filter (·.1 ≠ m.param)) m.template
      return .mapped { m with constraint, template }
  | data => return data

variable (calls : Calls)

/-- The type with the given data and alias. Without an alias it is normal, and worked out. -/
def rebuild (data : TypeData) (writtenAs : Option AliasRef) : Check TypeId := do
  match data, writtenAs with
  | .union members, none => Check.union members
  | .intersection members, none => Check.intersection members
  | .reference symbol args, none => Check.reference symbol args
  | _, _ =>
      let normal ← match data with
        | .union members => Check.data (← Check.union members)
        | .intersection members => Check.data (← Check.intersection members)
        | other => pure other
      let result ← Check.addInfo ⟨normal, writtenAs⟩
      let value ← calls.ask (.evaluate result)
      return if writtenAs.isNone then value else result

def substituteAt : Nat → Substitution → TypeId → Check TypeId
  | 0, map, t => return (map.lookup t).getD t
  | n + 1, map, t =>
      match map.lookup t with
      | some image => return image
      | none => do
          let info ← Check.info t
          let writtenAs ← info.writtenAs.mapM fun a =>
            return { a with args := ← a.args.mapM (substituteAt n map) }
          let data ← mapParts (substituteAt n) map info.data
          if data = info.data ∧ writtenAs = info.writtenAs then return t
          else rebuild calls data writtenAs

/-- Substitutes in a type. -/
def substitute (map : Substitution) (t : TypeId) : Check TypeId :=
  if map.isEmpty then return t else substituteAt calls maxDepth map t

def substituteShape (map : Substitution) (s : Shape) : Check Shape :=
  mapShape (substituteAt calls maxDepth map) s

def substituteSignature (map : Substitution) (s : Signature) : Check Signature :=
  mapSignature (substituteAt calls maxDepth map) s

end ApiDocs.Checker
