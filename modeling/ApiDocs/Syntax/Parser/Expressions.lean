import ApiDocs.Syntax.Parser.Patterns

set_option autoImplicit false

namespace ApiDocs.Syntax.Parser

open Parse

variable (rules : Rules)

/-! ### Literals -/

/-- The rest of a template behind a substitution. -/
def templateRest : Parse Unit := do
  let input ← read
  extend (fun _ => do
    let _ ← rules.call (.expression false)
    unless ← at_ "\x7d" do fail
    let start := (← view).stop
    match Lexer.templatePart? input.text (input.text.size + 1) start with
    | none => fail
    | some (stop, true) => moveTo (stop + 1) .opening; return none
    | some (stop, false) => moveTo (stop + 2) .closing; return some ()) ()

def template : Parse Expr := do
  let input ← read
  let start := (← view).stop
  match Lexer.templatePart? input.text (input.text.size + 1) start with
  | none => fail
  | some (stop, true) =>
      moveTo (stop + 1) .opening
      return .template (some (Lexer.sliceText input.text start stop))
  | some (stop, false) =>
      moveTo (stop + 2) .closing
      templateRest rules
      return .template none

def regex : Parse Expr := do
  let input ← read
  match Lexer.regexEnd? input.text (input.text.size + 1) ((← startHere) + 1) false with
  | none => fail
  | some stop =>
      moveTo stop .closing
      return .regex

/-- An item of an array; a hole is left out. -/
def arrayItem : Parse (Option (Bool × Expr)) := do
  if (← at_ ",") || (← at_ "]") then return none
  else if ← eat "..." then return some (true, ← rules.call (.assignment {}))
  else return some (false, ← rules.call (.assignment {}))

def arrayLiteral : Parse Expr := do
  expect "["
  return .array ((← commaList "]" (arrayItem rules)).filterMap id)

/-- The body and the parameters of a function from its type parameters on. -/
def method (isAsync isGenerator : Bool) : Parse FunctionExpr := do
  let typeParams ← optionalTypeParams rules
  let params ← rules.call .params
  let result ← resultAnnotation rules
  let body ← if ← at_ "\x7b" then Body.block <$> rules.call .block else pure Body.none
  return ⟨typeParams, params, result, body, isAsync, isGenerator⟩

/-- A property behind its modifiers. -/
def keyedProperty (isAsync isGenerator : Bool) (doc : DocComment) :
    Parse (Option ObjectProperty) := do
  let isIdent ← atIdent
  let key ← key rules
  let name := key.propertyName?
  if (← at_ "(") || (← at_ "<") then
    let function ← rules.call (.method isAsync isGenerator)
    return name.map (.method · function doc)
  else if isAsync || isGenerator then fail
  else if ← eat ":" then
    let value ← rules.call (.assignment {})
    return name.map (.keyed · value doc)
  else if !isIdent then fail
  else if ← eat "=" then
    let value ← rules.call (.assignment {})
    return name.map (.assign · value doc)
  else return name.map (.shorthand · doc)

def objectProperty : Parse (Option ObjectProperty) := do
  let doc ← docHere
  if ← eat "..." then return some (.spread (← rules.call (.assignment {})))
  else if (← atName "get") && (← isAccessor) then
    advance
    let name := (← key rules).propertyName?
    let function ← rules.call (.method false false)
    let body := match function.body with
      | .block statements => some statements
      | _ => none
    return name.map (.getter · function.result body doc)
  else if (← atName "set") && (← isAccessor) then
    advance
    let name := (← key rules).propertyName?
    let _ ← rules.call (.method false false)
    return name.map (.setter · doc)
  else
    let isAsync ← if (← atName "async") && (← isModifier) then do
      advance
      pure true
    else pure false
    let isGenerator ← eat "*"
    keyedProperty rules isAsync isGenerator doc

def object : Parse Expr := do
  expect "\x7b"
  return .object ((← commaList "\x7d" (objectProperty rules)).filterMap id)

/-! ### Functions -/

/-- A function expression or declaration behind `function`: its name, if it has one, and the
rest. -/
def functionRest (isAsync : Bool) : Parse (Option String × FunctionExpr) := do
  let isGenerator ← eat "*"
  let name ← if ← atIdent then some <$> ident else pure none
  return (name, ← rules.call (.method isAsync isGenerator))

def functionExpr : Parse Expr := do
  let isAsync ← eatName "async"
  expectName "function"
  let (_, function) ← functionRest rules isAsync
  match function.body with
  | .none => fail
  | _ => return .function function

/-- Whether an `async` function stands here. -/
def atAsyncFunction : Parse Bool := succeeds do
  expectName "async"
  if ← afterBreak then fail
  expectName "function"

/-- The head of an arrow function with parentheses, up to its arrow. -/
def arrowHead : Parse (List TypeParam × List Pattern × Option TypeExpr) := do
  let typeParams ← optionalTypeParams rules
  let params ← rules.call .params
  let result ← resultAnnotation rules
  if ← afterBreak then fail
  expect "=>"
  return (typeParams, params, result)

def arrowBody (place : Place) : Parse Body := do
  if ← at_ "\x7b" then return .block (← rules.call .block)
  else return .expr (← rules.call (.assignment place))

/-- An arrow function with parentheses, when one stands here. Before the colon of a conditional
expression, a type of the result must leave a colon behind. -/
def parenArrow? (isAsync : Bool) (place : Place) : Parse (Option Expr) := do
  let start ← get
  match ← attempt (arrowHead rules) with
  | none => return none
  | some (typeParams, params, result) =>
      let finish : Parse Expr := do
        let body ← arrowBody rules place
        return .function ⟨typeParams, params, result, body, isAsync, false⟩
      if place.beforeColon && result.isSome then
        match ← attempt (do
          let arrow ← finish
          unless ← at_ ":" do fail
          return arrow) with
        | some arrow => return some arrow
        | none =>
            set start
            return none
      else return some (← finish)

/-- An arrow function with a single name as parameter, when one stands here. -/
def nameArrow? (isAsync : Bool) (place : Place) : Parse (Option Expr) := do
  let here ← succeeds (do
    let _ ← ident
    if ← afterBreak then fail
    expect "=>")
  if here then
    let name ← ident
    expect "=>"
    let body ← arrowBody rules place
    return some (.function ⟨[], [.ident name false none], none, body, isAsync, false⟩)
  else return none

/-- An `async` arrow function, when one stands here. -/
def asyncArrow? (place : Place) : Parse (Option Expr) := do
  let start ← get
  let isAsync ← succeeds (do
    expectName "async"
    if ← afterBreak then fail
    unless (← at_ "(") || (← atAngle) || (← atIdent) do fail)
  if isAsync then
    advance
    match ← nameArrow? rules true place with
    | some arrow => return some arrow
    | none =>
        match ← parenArrow? rules true place with
        | some arrow => return some arrow
        | none =>
            set start
            return none
  else return none

/-- An arrow function, when one stands here. Where elements are allowed, type parameters can be
taken for one. -/
def arrow? (place : Place) : Parse (Option Expr) := do
  match ← kind with
  | .name _ =>
      match ← nameArrow? rules false place with
      | some arrow => return some arrow
      | none => asyncArrow? rules place
  | .punct "(" => parenArrow? rules false place
  | .punct "<" =>
      let dialect := (← read).dialect
      if dialect.typed && dialect.elements then
        return (← attempt (parenArrow? rules false place)).join
      else if dialect.typed then parenArrow? rules false place
      else return none
  | _ => return none

/-! ### Calls and members -/

/-- Whether an expression can start here. -/
def startsExpr : Parse Bool := do
  match ← kind with
  | .punct mark =>
      return ["(", "[", "\x7b", "+", "-", "!", "~", "++", "--", "/", "/=", "<", "@"].contains mark
  | .endOfFile => return false
  | .malformed => return false
  | _ => return true

/-- Words that are binary operators. -/
def wordOperators : List String := ["in", "instanceof", "as", "satisfies"]

/-- The precedence and the kind of a binary operator. -/
def operator? : String → Option (Nat × BinaryOp)
  | "??" => some (1, .nullish)
  | "||" => some (2, .or)
  | "&&" => some (3, .and)
  | "|" => some (4, .arithmetic)
  | "^" => some (5, .arithmetic)
  | "&" => some (6, .arithmetic)
  | "==" => some (7, .compare)
  | "!=" => some (7, .compare)
  | "===" => some (7, .compare)
  | "!==" => some (7, .compare)
  | "<" => some (8, .compare)
  | ">" => some (8, .compare)
  | "<=" => some (8, .compare)
  | ">=" => some (8, .compare)
  | "instanceof" => some (8, .compare)
  | "in" => some (8, .compare)
  | "<<" => some (9, .arithmetic)
  | ">>" => some (9, .arithmetic)
  | ">>>" => some (9, .arithmetic)
  | "+" => some (10, .add)
  | "-" => some (10, .arithmetic)
  | "*" => some (11, .arithmetic)
  | "/" => some (11, .arithmetic)
  | "%" => some (11, .arithmetic)
  | "**" => some (12, .arithmetic)
  | _ => none

/-- The precedence of `as` and `satisfies`. -/
def castLevel : Nat := 8

/-- Whether type arguments can end here. In doubt they do at a line break, before an operator and
where no expression starts. -/
def canFollowTypeArgs : Parse Bool := do
  if (← at_ "(") || (← kind) = .backquote then return true
  else if (← at_ "<") || (← at_ ">") || (← at_ "+") || (← at_ "-") then return false
  else
    let operator ← match ← kind with
      | .punct mark => pure (operator? mark).isSome
      | .name text => pure (wordOperators.contains text)
      | _ => pure false
    return (← afterBreak) || operator || !(← startsExpr)

/-- Type arguments of an expression, if that is what a `<` opens. -/
def exprTypeArgs? : Parse (Option (List TypeExpr)) := do
  if (← typed) && (← atAngle) then
    attempt do
      let args ← typeArgs rules
      unless ← canFollowTypeArgs do fail
      return args
  else return none

/-- The arguments of a call, behind the parenthesis. -/
def argsRest : Parse (List Expr) :=
  commaList ")" do
    let _ ← eat "..."
    rules.call (.assignment {})

/-- A member behind its dot. -/
def dotMember (object : Expr) : Parse Expr := do
  match ← kind with
  | .privateName _ =>
      advance
      return .privateMember object
  | _ => return .member object (← word)

def indexMember (object : Expr) : Parse Expr := do
  let index ← rules.call (.expression false)
  expect "]"
  return .computed object index

/-- What follows `?.`. -/
def optionalMember (object : Expr) : Parse Expr := do
  if ← eat "(" then return .wrapped (.call object none (← argsRest rules))
  else if ← eat "[" then return .wrapped (← indexMember rules object)
  else if (← typed) && (← atAngle) then
    let typeArgs ← typeArgs rules
    expect "("
    return .wrapped (.call object (some typeArgs) (← argsRest rules))
  else return .wrapped (← dotMember object)

/-- One more member, call or assertion behind an expression that started at a place. -/
def subscript? (noCall : Bool) (start : Nat) (of : Expr) : Parse (Option Expr) := do
  if ← eat "." then return some (← dotMember of)
  else if !noCall && (← at_ "?.") then
    advance
    return some (← optionalMember rules of)
  else if ← eat "[" then return some (← indexMember rules of)
  else if (← typed) && (← at_ "!") && !(← afterBreak) then
    advance
    return some (.wrapped of)
  else if !noCall && (← at_ "(") then
    advance
    let args ← argsRest rules
    match of with
    | .other => return some .other
    | _ => return some (.call of none args)
  else if (← kind) = .backquote then
    let _ ← template rules
    return some .other
  else if noCall then return none
  else
    let text ← textFrom start
    match ← exprTypeArgs? rules with
    | none => return none
    | some typeArgs =>
        if ← eat "(" then return some (.call of (some typeArgs) (← argsRest rules))
        else if (← kind) = .backquote then
          let _ ← template rules
          return some .other
        else return some (.instantiation of text typeArgs)

/-- An expression in parentheses. -/
def parenExpr : Parse Expr := do
  expect "("
  let of ← rules.call (.expression false)
  expect ")"
  return .paren of

/-- A `new` expression behind its keyword. -/
def newExpr : Parse Expr := do
  if ← eat "." then
    let _ ← word
    return .other
  else
    let callee ← rules.call .member
    let typeArgs ← exprTypeArgs? rules
    let args ← if ← eat "(" then argsRest rules else pure []
    return .new callee typeArgs args

/-- What follows `super` or `import` in an expression; neither has a type. -/
def keywordExpr : Parse Expr := do
  if ← eat "." then
    let _ ← word
    return .other
  else if ← eat "[" then
    let _ ← indexMember rules .other
    return .other
  else
    expect "("
    let _ ← argsRest rules
    return .other

def classValue : Parse Expr := do
  decorators rules
  expectName "class"
  let _ ← rules.call .classExpr
  return .other

/-- An expression that starts with a word. -/
def wordExpr (text : String) : Parse Expr := do
  match text with
  | "this" => advance; return .this
  | "null" => advance; return .null
  | "true" => advance; return .boolean true
  | "false" => advance; return .boolean false
  | "function" => rules.call .functionExpr
  | "class" => classValue rules
  | "new" =>
      advance
      newExpr rules
  | "super" =>
      advance
      keywordExpr rules
  | "import" =>
      advance
      keywordExpr rules
  | _ =>
      if ← atAsyncFunction then rules.call .functionExpr
      else if heldWords.contains text then fail
      else return .ident (← ident)

def primary : Parse Expr := do
  match ← kind with
  | .name text => wordExpr rules text
  | .number value =>
      advance
      return .number value
  | .bigint _ =>
      advance
      return .bigint
  | .string value =>
      advance
      return .string value
  | .backquote => template rules
  | .privateName _ =>
      advance
      unless ← atName "in" do fail
      return .other
  | .punct "(" => parenExpr rules
  | .punct "[" => arrayLiteral rules
  | .punct "\x7b" => rules.call .object
  | .punct "/" => regex
  | .punct "/=" => regex
  | .punct "@" => classValue rules
  | .punct "<" =>
      if (← read).dialect.elements then
        rules.call .element
        return .element
      else fail
  | _ => fail

/-- The callee of a `new` expression: calls belong to the expression, not to the callee. -/
def member : Parse Expr := do
  let start ← startHere
  extend (subscript? rules true start) (← primary rules)

def leftHandSide : Parse Expr := do
  let start ← startHere
  extend (subscript? rules false start) (← primary rules)

/-! ### Operators -/

/-- A type assertion in angle brackets. -/
def angleCast : Parse Expr := do
  expect "<"
  if ← eatName "const" then
    expect ">"
    return .wrapped (← rules.call .unary)
  else
    let type ← rules.call (.type false)
    expect ">"
    let _ ← rules.call .unary
    return .cast type

def prefixed (op : UnaryOp) : Parse Expr := do
  advance
  return .unary op (← rules.call .unary)

/-- An expression with `++` or `--` behind it, on the same line. -/
def postfixed : Parse Expr := do
  let of ← leftHandSide rules
  if ((← at_ "++") || (← at_ "--")) && !(← afterBreak) then
    advance
    return .update
  else return of

def unary : Parse Expr := do
  match ← kind with
  | .punct "!" => prefixed rules .not
  | .punct "~" => prefixed rules .tilde
  | .punct "+" => prefixed rules .plus
  | .punct "-" => prefixed rules .minus
  | .punct "++" =>
      advance
      let _ ← rules.call .unary
      return .update
  | .punct "--" =>
      advance
      let _ ← rules.call .unary
      return .update
  | .punct "<" =>
      let dialect := (← read).dialect
      if dialect.typed && !dialect.elements then angleCast rules else postfixed rules
  | .name "typeof" => prefixed rules .typeOf
  | .name "void" => prefixed rules .void
  | .name "delete" => prefixed rules .delete
  | .name "await" =>
      -- With nothing to wait for, `await` is a name.
      let alone ← lookAhead do
        advance
        return (← at_ ")") || (← at_ "]") || (← at_ ";") || (← at_ ",")
      if alone then postfixed rules
      else
        advance
        return .await (← rules.call .unary)
  | _ => postfixed rules

/-- Operators that start with `>`, longest first. -/
def angleOperators : List String := [">>>=", ">>=", ">>>", ">>", ">="]

/-- The operator in view and the place behind it. -/
def operatorHere? : Parse (Option (String × Nat)) := do
  let token ← view
  match token.kind with
  | .punct ">" =>
      let text := (← read).text
      match angleOperators.find? fun op => Lexer.holdsAt text token.start op.toList with
      | some op => return some (op, token.start + op.length)
      | none => return some (">", token.stop)
  | .punct mark => return some (mark, token.stop)
  | .name text => return some (text, token.stop)
  | _ => return none

/-- A cast behind `as` or `satisfies`, which stand on the same line. -/
def castRest (op : String) (of : Expr) : Parse Expr := do
  advance
  if op = "as" then
    if ← eatName "const" then return .wrapped of
    else return .cast (← rules.call (.type false))
  else
    let _ ← rules.call (.type false)
    return .wrapped of

/-- An expression of binary operators that bind more tightly than a level. -/
def binary (place : Place) : Nat → Nat → Parse Expr
  | 0, _ => fail
  | n + 1, least => do
      extend (fun left => do
        match ← operatorHere? with
        | none => return none
        | some (op, stop) =>
            if (op = "as" ∨ op = "satisfies") ∧ (← typed) ∧ !(← afterBreak) ∧ least < castLevel then
              return some (← castRest rules op left)
            else match operator? op with
              | none => return none
              | some (level, kind) =>
                  if level ≤ least ∨ (op = "in" ∧ place.noIn) then return none
                  else
                    moveTo stop .opening
                    let right ← binary place n (if op = "**" then level - 1 else level)
                    return some (.binary kind left right)) (← rules.call .unary)

def conditional (place : Place) : Parse Expr := do
  let test ← binary rules place ((← read).text.size + 1) 0
  if ← eat "?" then
    let whenTrue ← rules.call (.assignment { beforeColon := true })
    expect ":"
    let whenFalse ← rules.call (.assignment place)
    return .conditional whenTrue whenFalse
  else return test

def assignmentOperators : List String :=
  ["=", "+=", "-=", "*=", "/=", "%=", "**=", "<<=", ">>=", ">>>=", "&=", "|=", "^=", "&&=", "||=",
    "??="]

/-- A `yield` expression behind its keyword. -/
def yieldRest (place : Place) : Parse Expr := do
  if ← canEndStatement then return .other
  else
    let delegates ← eat "*"
    if delegates || (← startsExpr) then
      let _ ← rules.call (.assignment place)
    return .other

def assignment (place : Place) : Parse Expr := do
  if (← atName "yield") && !(← succeeds (do advance; expect "=>")) then
    advance
    yieldRest rules place
  else
    match ← arrow? rules place with
    | some arrow => return arrow
    | none =>
        let left ← conditional rules place
        match ← operatorHere? with
        | some (op, stop) =>
            if assignmentOperators.contains op then
              moveTo stop .opening
              return .assign (← rules.call (.assignment place))
            else return left
        | none => return left

/-- An expression, with commas. -/
def expression (noIn : Bool) : Parse Expr := do
  let first ← rules.call (.assignment { noIn })
  let rest ← collect do
    if ← eat "," then return some (← rules.call (.assignment { noIn })) else return none
  match rest.getLast? with
  | some last => return .sequence last
  | none => return first

end ApiDocs.Syntax.Parser
