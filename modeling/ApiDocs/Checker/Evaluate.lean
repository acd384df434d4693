import ApiDocs.Checker.Substitute

set_option autoImplicit false

/-!
Working out `keyof`, indexed access and mapped types. They wait while a type parameter stands
where the members are needed.
-/

namespace ApiDocs.Checker

variable (calls : Calls)

/-- Whether a type has to wait for its type parameter. -/
def isWaiting (t : TypeId) : Check Bool := do
  match ← Check.data t with
  | .typeParameter _ => return true
  | _ => return false

/-- The type of what a number selects: by a number index, or else by a string index. -/
def numberIndexType (object : TypeId) : Check TypeId := do
  let shape ← calls.ask (.shape object)
  return ((shape.numberIndex <|> shape.stringIndex).map (·.type)).getD Arena.anyId

def stringIndexType (object : TypeId) : Check TypeId := do
  let shape ← calls.ask (.shape object)
  return (shape.stringIndex.map (·.type)).getD Arena.anyId

/-- The type of a named member, or else of a string index. -/
def memberType (object : TypeId) (name : String) : Check TypeId := do
  match (← calls.ask (.shape object)).member? name with
  | some m => return m.type
  | none => stringIndexType calls object

/-- What all items of an array or tuple have in common. -/
def itemType (t : TypeId) : Check TypeId := do
  match ← Check.data t with
  | .tuple items => Check.union items
  | _ => numberIndexType calls t

def evaluateKeyOf (whole inner : TypeId) : Check TypeId := do
  let inner ← calls.ask (.evaluate inner)
  if ← isWaiting inner then return whole
  else if inner = Arena.anyId then
    Check.union ([.string, .number, .symbol].map Arena.intrinsicId)
  else
    let shape ← calls.ask (.shape inner)
    let names ← shape.members.mapM fun m => Check.stringLiteral m.name
    let keys (index : Option IndexInfo) (i : Intrinsic) : List TypeId :=
      if index.isSome then [Arena.intrinsicId i] else []
    Check.union (names ++ keys shape.stringIndex .string ++ keys shape.numberIndex .number)

/-- The place that the text of a number selects. -/
def place? (text : String) : Option Nat :=
  let cs := text.toList
  if cs ≠ [] ∧ cs.all Char.isDigit then some (Nat.ofDigitChars 10 cs 0) else none

def indexedAccess (whole object index : TypeId) : Check TypeId := do
  let object ← calls.ask (.evaluate object)
  let index ← calls.ask (.evaluate index)
  if (← isWaiting object) || (← isWaiting index) then return whole
  else
    match ← Check.data index with
    | .stringLiteral name => memberType calls object name
    | .numberLiteral text =>
        match ← Check.data object with
        | .tuple items => return ((place? text).bind (items[·]?)).getD Arena.anyId
        | _ => numberIndexType calls object
    | .intrinsic .number => itemType calls object
    | .intrinsic .string => stringIndexType calls object
    | .union members =>
        Check.union (← members.mapM fun m => calls.ask (.indexedAccess whole object m))
    | _ => return Arena.anyId

/-- A modifier of a mapped type, applied to what the source has. -/
def applyModifier (modifier : Option Modifier) (source : Bool) : Bool :=
  match modifier with
  | some .add => true
  | some .remove => false
  | none => source

/-- The type of the member that a mapped type gives to a key. -/
def templateAt (m : MappedType) (key : TypeId) : Check TypeId := do
  let value ← substitute calls [(m.param, key)] m.template
  calls.ask (.evaluate value)

/-- Maps the members of a type, which keep their order and documentation. -/
def mapMembers (m : MappedType) (source : Shape) : Check Shape := do
  let shape ← source.members.foldlM (fun (shape : Shape) (p : Member) => do
    let type ← templateAt calls m (← Check.stringLiteral p.name)
    return shape.addMember { p with
      type, optional := applyModifier m.optional p.optional,
      readonly := applyModifier m.readonly p.readonly }) {}
  let stringIndex ← source.stringIndex.mapM fun i =>
    return { i with type := ← templateAt calls m (Arena.intrinsicId .string) }
  return { shape with stringIndex }

/-- Maps keys one by one; a type parameter among them has to be waited for. -/
def mapKeys (m : MappedType) (keyName : String) : Shape → List TypeId → Check (Option Shape)
  | shape, [] => return some shape
  | shape, key :: rest => do
      let named (name : String) : Check (Option Shape) := do
        let type ← templateAt calls m key
        mapKeys m keyName (shape.addMember ⟨name, type, applyModifier m.optional false,
          applyModifier m.readonly false, ""⟩) rest
      match ← Check.data key with
      | .stringLiteral name => named name
      | .numberLiteral name => named name
      | .intrinsic .string =>
          let type ← templateAt calls m key
          mapKeys m keyName { shape with stringIndex := some ⟨keyName, type⟩ } rest
      | .intrinsic .number =>
          let type ← templateAt calls m key
          mapKeys m keyName { shape with numberIndex := some ⟨keyName, type⟩ } rest
      | .typeParameter _ => return none
      | _ => mapKeys m keyName shape rest

/-- The name of the parameter of a mapped type. -/
def keyName (m : MappedType) : Check String := do
  match ← Check.data m.param with
  | .typeParameter param => return param.name
  | _ => return "key"

def evaluateMapped (whole : TypeId) (m : MappedType) : Check TypeId := do
  match ← Check.data m.constraint with
  | .keyOf source =>
      let source ← calls.ask (.evaluate source)
      if source = Arena.anyId then return Arena.anyId
      else if ← isWaiting source then return whole
      else
        let shape ← mapMembers calls m (← calls.ask (.shape source))
        Check.object shape
  | _ =>
      let keys ← calls.ask (.evaluate m.constraint)
      let members ← match ← Check.data keys with
        | .union members => pure members
        | _ => pure [keys]
      match ← mapKeys calls m (← keyName m) {} members with
      | some shape => Check.object shape
      | none => return whole

/-- What a type comes to by its data. -/
def evaluateData (t : TypeId) : Check TypeId := do
  match ← Check.data t with
  | .keyOf inner => evaluateKeyOf calls t inner
  | .indexedAccess object index => indexedAccess calls t object index
  | .mapped m => evaluateMapped calls t m
  | _ => return t

theorem evaluateData_plain (t : TypeId) (p : Program) (c : Checker)
    (plain : (c.arena.data t).isOperator = false) :
    ((evaluateData calls t).outcome p c).1 = t := by
  unfold evaluateData
  rw [Check.outcome_bind, Check.outcome_data]
  cases data : c.arena.data t with
  | keyOf | indexedAccess | mapped =>
      rw [data] at plain
      cases plain
  | _ => rfl

/-- Works a type out, once. While that goes on the type stands for itself. -/
def evaluate (t : TypeId) : Check TypeId :=
  Check.evaluateOnce t (evaluateData calls t) (evaluateData_plain calls t)

end ApiDocs.Checker
