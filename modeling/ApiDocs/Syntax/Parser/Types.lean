import ApiDocs.Number.Shortest
import ApiDocs.Syntax.Parser.Basic

set_option autoImplicit false

/-!
Types, type parameters, signatures and the members of type literals.
-/

namespace ApiDocs.Syntax.Parser

open Parse

/-- The key of a property. -/
inductive Key where
  | ident (name : String)
  | string (value : String)
  | number (value : Number.Binary64)
  | bigint (digits : String)
  | computed (expr : Expr)
  | hashed

variable (rules : Rules)

/-- A key: a word, a literal or a computed expression. -/
def key : Parse Key := do
  match ← kind with
  | .name text =>
      advance
      return .ident text
  | .string value =>
      advance
      return .string value
  | .number value =>
      advance
      return .number value
  | .bigint digits =>
      advance
      return .bigint digits
  | .privateName _ =>
      advance
      return .hashed
  | _ =>
      expect "["
      let expr ← rules.call (.assignment {})
      expect "]"
      return .computed expr

/-- A dotted name; the words after a dot may be reserved. -/
def entity : Parse Entity := do
  let first ← word
  extend (fun name => do
    if ← eat "." then return some (.qualified name (← word)) else return none) (.ident first)

/-- A `<` that opens a list, also when it is the first half of `<<`. -/
def openAngle : Parse Unit := do
  if ← at_ "<<" then moveTo ((← startHere) + 1) .opening else expect "<"

def atAngle : Parse Bool := return (← at_ "<") || (← at_ "<<")

def typeArgs : Parse (List TypeExpr) := do
  openAngle
  let args ← commaList ">" (rules.call (.type false))
  if args.isEmpty then fail else return args

/-- Type arguments, if they follow on the same line. -/
def optionalTypeArgs : Parse (List TypeExpr) := do
  if (← atAngle) && !(← afterBreak) then typeArgs rules else return []

/-- A type after a colon, if there is one. -/
def annotation : Parse (Option TypeExpr) := do
  if (← typed) && (← at_ ":") then
    advance
    return some (← rules.call (.type false))
  else return none

/-- The type of a result after a colon, if there is one. -/
def resultAnnotation : Parse (Option TypeExpr) := do
  if (← typed) && (← at_ ":") then
    advance
    return some (← rules.call .resultType)
  else return none

/-- Skips the modifiers of a type parameter; a word is one if another name follows. -/
def skipVariance : Parse Unit :=
  extend (fun _ => do
    if (← atName "const") || (← atName "in") then
      advance
      return some ()
    else if (← atName "out") && (← succeeds (do advance; let _ ← ident)) then
      advance
      return some ()
    else return none) ()

def typeParam : Parse TypeParam := do
  skipVariance
  let name ← ident
  let constraint ← if ← eatName "extends" then some <$> rules.call (.type false) else pure none
  let default ← if ← eat "=" then some <$> rules.call (.type false) else pure none
  return ⟨name, constraint, default⟩

def typeParams : Parse (List TypeParam) := do
  openAngle
  let params ← commaList ">" (typeParam rules)
  if params.isEmpty then fail else return params

def optionalTypeParams : Parse (List TypeParam) := do
  if (← typed) && (← atAngle) then rules.call .typeParams else return []

/-- Parameters of a signature have no default values. -/
def plainParams : Parse (List Pattern) := do
  let params ← rules.call .params
  let hasDefault (p : Pattern) : Bool := match p with
    | .default .. => true
    | _ => false
  if params.any hasDefault then fail else return params

/-- Type parameters, parameters and the type of the result of a signature. -/
def signature : Parse SignatureExpr := do
  let typeParams ← optionalTypeParams rules
  let params ← plainParams rules
  let result ← resultAnnotation rules
  return ⟨typeParams, params, result⟩

/-- A function type from its type parameters on. -/
def functionType : Parse SignatureExpr := do
  let typeParams ← optionalTypeParams rules
  let params ← plainParams rules
  expect "=>"
  let result ← rules.call .resultType
  return ⟨typeParams, params, some result⟩

/-- The keyword types, but for `boolean`. -/
def keywordType? : String → Option TypeExpr
  | "any" => some (.intrinsic .any)
  | "unknown" => some (.intrinsic .unknown)
  | "string" => some (.intrinsic .string)
  | "number" => some (.intrinsic .number)
  | "bigint" => some (.intrinsic .bigint)
  | "symbol" => some (.intrinsic .symbol)
  | "void" => some (.intrinsic .void)
  | "undefined" => some (.intrinsic .undefined)
  | "null" => some (.intrinsic .null)
  | "never" => some (.intrinsic .never)
  | "object" => some (.intrinsic .object)
  | "intrinsic" => some (.intrinsic .any)
  | "boolean" => some .boolean
  | "true" => some (.booleanLiteral true)
  | "false" => some (.booleanLiteral false)
  | _ => none

/-- The rest of an imported type, behind `import`: its module, a dotted name and arguments. -/
def importType : Parse Unit := do
  expect "("
  let _ ← rules.call (.type false)
  if ← eat "," then
    unless ← at_ ")" do
      let _ ← rules.call .object
      let _ ← eat ","
  expect ")"
  extend (fun _ => do
    if ← eat "." then
      let _ ← word
      return some ()
    else return none) ()
  let _ ← optionalTypeArgs rules

/-- A `typeof` type, behind its keyword. -/
def typeQuery : Parse TypeExpr := do
  if ← eatName "import" then
    importType rules
    return .intrinsic .any
  else
    let name ← entity
    let _ ← optionalTypeArgs rules
    return .query name

/-- A sign before `readonly` or `?` of a mapped type. -/
def sign : Parse (Option Modifier) := do
  if ← eat "+" then return some .add
  else if ← eat "-" then return some .remove
  else return none

/-- The head of a mapped type behind its brace, up to `in`: the `readonly` modifier and the name. -/
def mappedHead : Parse (Option Modifier × String) := do
  let mark ← sign
  let readonly ←
    if mark.isSome then do
      expectName "readonly"
      pure mark
    else if (← atName "readonly") && (← succeeds (do advance; expect "[")) then do
      advance
      pure (some .add)
    else pure none
  expect "["
  let name ← ident
  expectName "in"
  return (readonly, name)

/-- The rest of a mapped type, up to its closing brace. -/
def mappedRest (readonly : Option Modifier) (name : String) : Parse TypeExpr := do
  let constraint ← rules.call (.type false)
  if ← eatName "as" then
    let _ ← rules.call (.type false)
  expect "]"
  let mark ← sign
  let isOptional ← eat "?"
  if mark.isSome && !isOptional then fail
  let optional := if isOptional then mark.or (some .add) else none
  let template ← annotation rules
  let _ ← (eat ";" <||> eat ",")
  expect "\x7d"
  return .mapped name constraint template optional readonly

def membersUntilBrace : Parse (List TypeMember) :=
  return (← itemsUntil "\x7d" (rules.call .typeMember)).filterMap id

/-- A mapped type or a type literal. -/
def braceType : Parse TypeExpr := do
  expect "\x7b"
  match ← attempt mappedHead with
  | some (readonly, name) => mappedRest rules readonly name
  | none => return .members (← membersUntilBrace rules)

/-- An item of a tuple, with or without a label. -/
def tupleItem : Parse TypeExpr := do
  let _ ← eat "..."
  let labelled ← succeeds (do
    let _ ← word
    let _ ← eat "?"
    expect ":")
  if labelled then
    advance
    let _ ← eat "?"
    expect ":"
  let type ← rules.call (.type false)
  let _ ← eat "?"
  return type

/-- The rest of a template type behind a substitution. -/
def templateTypeRest : Parse Unit := do
  let input ← read
  extend (fun _ => do
    let _ ← rules.call (.type false)
    unless ← at_ "\x7d" do fail
    let start := (← view).stop
    match Lexer.templatePart? input.text (input.text.size + 1) start with
    | none => fail
    | some (stop, true) => moveTo (stop + 1) .opening; return none
    | some (stop, false) => moveTo (stop + 2) .closing; return some ()) ()

/-- A template type: without substitutions it is the literal of its text. -/
def templateType : Parse TypeExpr := do
  let input ← read
  let start := (← view).stop
  match Lexer.templatePart? input.text (input.text.size + 1) start with
  | none => fail
  | some (stop, true) =>
      moveTo (stop + 1) .opening
      return .stringLiteral (Lexer.sliceText input.text start stop)
  | some (stop, false) =>
      moveTo (stop + 2) .closing
      templateTypeRest rules
      return .intrinsic .string

def negated : Number.Binary64 → Number.Binary64
  | .nan => .nan
  | .infinite negative => .infinite (!negative)
  | .finite negative mantissa exponent => .finite (!negative) mantissa exponent

/-- A type that starts with a word. -/
def namedType (text : String) : Parse TypeExpr := do
  let dotted ← succeeds (do advance; expect ".")
  match if dotted then none else keywordType? text with
  | some type =>
      advance
      return type
  | none =>
      if text = "this" ∧ !dotted then
        advance
        if (← atName "is") && !(← afterBreak) then
          advance
          let _ ← rules.call (.type false)
          return .boolean
        else return .this
      else if text = "typeof" then
        advance
        typeQuery rules
      else if text = "import" then
        let start ← startHere
        advance
        importType rules
        return .verbatim (← textFrom start)
      else if reservedWords.contains text then fail
      else
        let name ← entity
        return .reference name (← optionalTypeArgs rules)

/-- A type without operators and suffixes. -/
def primaryType : Parse TypeExpr := do
  match ← kind with
  | .name text => namedType rules text
  | .string value =>
      advance
      return .stringLiteral value
  | .number value =>
      advance
      return .numberLiteral value
  | .bigint _ =>
      advance
      return .intrinsic .bigint
  | .backquote => templateType rules
  | .punct "-" =>
      advance
      match ← kind with
      | .number value =>
          advance
          return .numberLiteral (negated value)
      | .bigint _ =>
          advance
          return .intrinsic .bigint
      | _ => fail
  | .punct "\x7b" => braceType rules
  | .punct "[" =>
      advance
      return .tuple (← commaList "]" (tupleItem rules))
  | .punct "(" =>
      advance
      let type ← rules.call (.type false)
      expect ")"
      return type
  | _ => fail

/-- A type with array and index suffixes, which stand on the same line. -/
def suffixedType : Parse TypeExpr := do
  extend (fun type => do
    if (← at_ "[") && !(← afterBreak) then
      advance
      if ← eat "]" then return some (.array type)
      else
        let index ← rules.call (.type false)
        expect "]"
        return some (.indexed type index)
    else return none) (← primaryType rules)

/-- The constraint of an inferred type; before a question mark, `extends` belongs to a conditional
type. -/
def inferConstraint (plain : Bool) : Parse Unit := do
  expectName "extends"
  let _ ← rules.call (.type true)
  if !plain && (← at_ "?") then fail

/-- A type with operators in front. -/
def operatorType (plain : Bool) : Nat → Parse TypeExpr
  | 0 => fail
  | n + 1 => do
      match ← kind with
      | .name "keyof" =>
          advance
          return .keyOf (← operatorType plain n)
      | .name "unique" =>
          advance
          operatorType plain n
      | .name "readonly" =>
          advance
          operatorType plain n
      | .name "infer" =>
          let start ← startHere
          advance
          let _ ← ident
          let _ ← attempt (inferConstraint rules plain)
          return .verbatim (← textFrom start)
      | _ => suffixedType rules

/-- A function or constructor type, when one stands here. -/
def functionType? : Parse (Option TypeExpr) := do
  let constructs ← succeeds (do
    let _ ← eatName "abstract"
    expectName "new")
  if constructs then
    let _ ← eatName "abstract"
    advance
    return some (.constructor (← functionType rules))
  else if ← at_ "<" then return some (.function (← functionType rules))
  else if ← at_ "(" then return (← attempt (functionType rules)).map .function
  else return none

/-- Members with a mark between them, and maybe one in front. -/
def separated (mark : String) (member : Parse TypeExpr) : Parse (List TypeExpr) := do
  let _ ← eat mark
  let first ← member
  let rest ← collect do
    if ← eat mark then return some (← member) else return none
  return first :: rest

def unionMember (plain : Bool) : Parse TypeExpr := do
  match ← functionType? rules with
  | some type => return type
  | none => operatorType rules plain ((← read).text.size + 1)

def intersectionType (plain : Bool) : Parse TypeExpr := do
  match ← separated "&" (unionMember rules plain) with
  | [type] => return type
  | types => return .intersection types

def unionType (plain : Bool) : Parse TypeExpr := do
  match ← separated "|" (intersectionType rules plain) with
  | [type] => return type
  | types => return .union types

/-- A type. A conditional one is known by its text. -/
def type (plain : Bool) : Parse TypeExpr := do
  let start ← startHere
  let check ← unionType rules plain
  if !plain && !(← afterBreak) && (← atName "extends") then
    advance
    let _ ← rules.call (.type true)
    expect "?"
    let _ ← rules.call (.type false)
    expect ":"
    let _ ← rules.call (.type false)
    return .verbatim (← textFrom start)
  else return check

/-- A predicate such as `x is T` or `asserts x`. -/
def predicate : Parse TypeExpr := do
  let asserts ← succeeds (do
    expectName "asserts"
    if ← afterBreak then fail
    let _ ← word)
  if asserts && !(← succeeds (do advance; expectName "is")) then
    advance
    let _ ← word
    if (← atName "is") && !(← afterBreak) then
      advance
      let _ ← rules.call (.type false)
    return .boolean
  else
    let _ ← word
    if ← afterBreak then fail
    expectName "is"
    let _ ← rules.call (.type false)
    return .boolean

def resultType : Parse TypeExpr := do
  match ← attempt (predicate rules) with
  | some type => return type
  | none => rules.call (.type false)

/-- The name of a member of a type. A computed key counts by the name or literal inside it. -/
def Key.memberName? : Key → Option String
  | .ident name => some name
  | .string value => some value
  | .number value => some value.text
  | .computed (.ident name) => some name
  | .computed (.string value) => some value
  | .computed (.number value) => some value.text
  | _ => none

/-- The parameter of an index signature behind its bracket, and the type behind it. -/
def indexRest : Parse IndexExpr := do
  let keyName ← ident
  let keyType ← annotation rules
  expect "]"
  let type ← annotation rules
  return ⟨keyName, keyType, type⟩

/-- Whether an index signature stands here. -/
def atIndex : Parse Bool := succeeds do
  expect "["
  let _ ← ident
  expect ":"

def endMember : Parse Unit := do
  unless ← (eat ";" <||> eat ",") do
    unless (← at_ "\x7d") || (← afterBreak) do fail

/-- Whether the word in view is a modifier: a key follows it on the same line. -/
def isModifier : Parse Bool := succeeds do
  advance
  if ← afterBreak then fail
  match ← kind with
  | .name _ => return
  | .string _ => return
  | .number _ => return
  | .bigint _ => return
  | .privateName _ => return
  | .punct mark => if ["[", "*", "\x7b"].contains mark then return else fail
  | _ => fail

/-- Whether a getter or setter of a type stands here. -/
def isAccessor : Parse Bool := succeeds do
  advance
  match ← kind with
  | .name _ => return
  | .string _ => return
  | .number _ => return
  | .punct "[" => return
  | _ => fail

/-- A member with a key. -/
def keyedMember (readonly : Bool) (doc : DocComment) : Parse (Option TypeMember) := do
  let name := (← key rules).memberName?
  let optional ← eat "?"
  if (← at_ "(") || (← at_ "<") then
    let s ← signature rules
    return name.map (.method · s optional doc)
  else
    let type ← annotation rules
    return name.map (.property · type optional readonly doc)

/-- A member of a type, without the mark that ends it. -/
def memberBody : Parse (Option TypeMember) := do
  let doc ← docHere
  if (← at_ "(") || (← at_ "<") then return some (.call (← signature rules) doc)
  else if (← atName "new") && (← succeeds (do
      advance
      unless (← at_ "(") || (← at_ "<") do fail)) then
    advance
    return some (.construct (← signature rules) doc)
  else
    let readonly ← if (← atName "readonly") && (← succeeds (do
        advance
        match ← kind with
        | .punct mark => unless mark = "[" do fail
        | _ => pure ())) then do
      advance
      pure true
    else pure false
    if ← atIndex then
      advance
      return some (.index (← indexRest rules))
    else if (← atName "get") && (← isAccessor) then
      advance
      let name := (← key rules).memberName?
      expect "("
      expect ")"
      let type ← annotation rules
      return name.map (.property · type false false doc)
    else if (← atName "set") && (← isAccessor) then
      advance
      let name := (← key rules).memberName?
      match ← plainParams rules with
      | [param] =>
          let _ ← annotation rules
          return name.map (.setter · param doc)
      | _ => fail
    else keyedMember rules readonly doc

def typeMember : Parse (Option TypeMember) := do
  let member ← memberBody rules
  endMember
  return member

end ApiDocs.Syntax.Parser
