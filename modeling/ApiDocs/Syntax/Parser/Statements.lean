import ApiDocs.Syntax.Parser.Classes

set_option autoImplicit false

namespace ApiDocs.Syntax.Parser

open Parse

variable (rules : Rules)

/-! ### Declarations -/

def declarator (noIn : Bool) : Parse Declarator := do
  let name ← rules.call .pattern
  if (← typed) && (← at_ "!") then advance
  let type ← annotation rules
  let name := annotated false type name
  if ← eat "=" then
    let start ← startHere
    let init ← rules.call (.assignment { noIn })
    return ⟨name, some init, ← textFrom start⟩
  else return ⟨name, none, ""⟩

def declarators (noIn : Bool) : Parse (List Declarator) := do
  let first ← declarator rules noIn
  let rest ← collect do
    if ← eat "," then return some (← declarator rules noIn) else return none
  return first :: rest

/-- Whether variables are declared here. -/
def atVariables : Parse Bool := do
  if (← atName "var") || (← atName "const") then return true
  else succeeds do
    expectName "let"
    unless (← atIdent) || (← at_ "[") || (← at_ "\x7b") do fail

/-- Declared variables, from the keyword on, and whether they are constants. -/
def variableList (noIn : Bool) : Parse (Bool × List Declarator) := do
  let isConst := (← word) = "const"
  return (isConst, ← declarators rules noIn)

/-- Whether a word stands here that a name follows on the same line. -/
def atWordAndName (text : String) : Parse Bool := succeeds do
  expectName text
  if ← afterBreak then fail
  let _ ← ident

/-- Whether two words stand here on the same line. -/
def atWords (first second : String) : Parse Bool := succeeds do
  expectName first
  if ← afterBreak then fail
  expectName second

def classDecl : Parse Decl := do
  expectName "class"
  match ← rules.call .classExpr with
  | (some name, c) => return .classDecl name c
  | (none, _) => fail

/-- Ends a function without a body, which only a typed dialect has. -/
def endFunction (function : FunctionExpr) : Parse Unit := do
  match function.body with
  | .none =>
      unless ← typed do fail
      endStatement
  | _ => return

def functionDecl : Parse Decl := do
  let isAsync ← eatName "async"
  expectName "function"
  match ← functionRest rules isAsync with
  | (some name, function) =>
      endFunction function
      return .function name function
  | (none, _) => fail

def interfaceDecl : Parse InterfaceDecl := do
  expectName "interface"
  let name ← ident
  let typeParams ← optionalTypeParams rules
  let bases ← if ← eatName "extends" then heritageList rules else pure []
  expect "\x7b"
  return ⟨name, typeParams, bases, ← membersUntilBrace rules⟩

def aliasDecl : Parse Decl := do
  expectName "type"
  let name ← ident
  let typeParams ← optionalTypeParams rules
  expect "="
  let type ← rules.call (.type false)
  endStatement
  return .typeAlias ⟨name, typeParams, type⟩

def enumDecl : Parse Decl := do
  let _ ← eatName "const"
  expectName "enum"
  let name ← ident
  expect "\x7b"
  let _ ← commaList "\x7d" do
    let _ ← key rules
    if ← eat "=" then
      let _ ← rules.call (.assignment {})
  return .enum name

/-- A namespace behind its keyword. A module with a string for its name declares nothing here. -/
def namespaceDecl : Parse Decl := do
  match ← kind with
  | .string _ =>
      advance
      if ← at_ "\x7b" then
        let _ ← rules.call .namespaceBody
      else endStatement
      return .other
  | _ =>
      let name ← ident
      return .namespaceDecl name (← rules.call .namespaceBody)

/-- Whether a namespace stands here: a keyword and a name on the same line. -/
def atNamespace : Parse Bool := succeeds do
  unless ← atNames ["namespace", "module"] do fail
  advance
  if ← afterBreak then fail
  match ← kind with
  | .string _ => return
  | _ =>
      let _ ← ident
      unless (← at_ "\x7b") || (← at_ ".") do fail

/-- Words that can follow `declare`. -/
def declarable : List String :=
  ["class", "function", "const", "let", "var", "enum", "namespace", "module", "global", "type",
    "interface", "abstract", "async"]

/-- Declarations of a typed dialect. -/
def typedDecl? : Parse (Option Decl) := do
  if ← atWordAndName "interface" then return some (.interface (← interfaceDecl rules))
  else if ← atWordAndName "type" then return some (← aliasDecl rules)
  else if ← atWords "abstract" "class" then
    advance
    return some (← classDecl rules)
  else if (← atName "enum") || (← atWords "const" "enum") then return some (← enumDecl rules)
  else if ← atNamespace then
    advance
    return some (← namespaceDecl rules)
  else if ← succeeds (do expectName "global"; expect "\x7b") then
    advance
    return some (.namespaceDecl "global" (← rules.call .namespaceBody))
  else if ← succeeds (do
      expectName "declare"
      if ← afterBreak then fail
      unless ← atNames declarable do fail) then
    advance
    match ← rules.call .decl with
    | some decl => return some decl
    | none => fail
  else return none

/-- A declaration that holds a resource; it binds no name that is documented. -/
def usingDecl? : Parse (Option Decl) := do
  let _ ← if ← atWords "await" "using" then advance else pure ()
  if ← atWordAndName "using" then
    advance
    let _ ← declarators rules false
    endStatement
    return some .other
  else return none

/-- A declaration, when one stands here. -/
def decl : Parse (Option Decl) := do
  let typedOne ← if ← typed then typedDecl? rules else pure none
  if typedOne.isSome then return typedOne
  else if ← at_ "@" then
    decorators rules
    let _ ← if ← typed then eatName "declare" else pure false
    let _ ← if ← typed then eatName "abstract" else pure false
    return some (← classDecl rules)
  else if ← atName "class" then return some (← classDecl rules)
  else if (← atName "function") || (← atAsyncFunction) then return some (← functionDecl rules)
  else if ← atVariables then
    let (isConst, declarators) ← variableList rules false
    endStatement
    return some (.variableList isConst declarators)
  else match ← attempt (usingDecl? rules) with
    | some found => return found
    | none => return none

/-! ### Statements -/

/-- What a function body keeps of a declaration. -/
def stmtOfDecl : Decl → Stmt
  | .variableList isConst declarators => .variableList isConst declarators
  | .function name function => .function name function
  | _ => .other

def block : Parse (List Stmt) := do
  expect "\x7b"
  itemsUntil "\x7d" (rules.call .statement)

/-- An expression in parentheses, as the head of a statement. -/
def headExpr : Parse Unit := do
  expect "("
  let _ ← rules.call (.expression false)
  expect ")"

def ifStatement : Parse Stmt := do
  advance
  headExpr rules
  let whenTrue ← rules.call .statement
  if ← eatName "else" then return .block [whenTrue, ← rules.call .statement]
  else return .block [whenTrue]

/-- An expression, unless a mark stands here. -/
def exprUnless (mark : String) : Parse Unit := do
  unless ← at_ mark do
    let _ ← rules.call (.expression false)

/-- The head of a loop behind its parenthesis, up to the closing one. -/
def forHead : Parse Unit := do
  if ← atVariables then
    let _ ← variableList rules true
  else unless ← at_ ";" do
    let _ ← rules.call (.expression true)
  if ← atNames ["of", "in"] then
    advance
    let _ ← rules.call (.expression false)
  else
    expect ";"
    exprUnless rules ";"
    expect ";"
    exprUnless rules ")"
  expect ")"

def forStatement : Parse Stmt := do
  advance
  let _ ← eatName "await"
  expect "("
  forHead rules
  return .block [← rules.call .statement]

def whileStatement : Parse Stmt := do
  advance
  headExpr rules
  return .block [← rules.call .statement]

def doStatement : Parse Stmt := do
  advance
  let body ← rules.call .statement
  expectName "while"
  headExpr rules
  let _ ← eat ";"
  return .block [body]

def tryStatement : Parse Stmt := do
  advance
  let body ← rules.call .block
  let handler ←
    if ← eatName "catch" then do
      if ← eat "(" then
        let _ ← rules.call .pattern
        let _ ← annotation rules
        expect ")"
      some <$> rules.call .block
    else pure none
  let final ← if ← eatName "finally" then some <$> rules.call .block else pure none
  if handler.isNone && final.isNone then fail
  return .block (.block body :: (handler.toList ++ final.toList).map .block)

/-- A case of a switch statement: its statements. -/
def switchCase : Parse Stmt := do
  if ← eatName "default" then expect ":"
  else
    expectName "case"
    let _ ← rules.call (.assignment { beforeColon := true })
    expect ":"
  let statements ← collect do
    if (← atName "case") || (← atName "default") || (← at_ "\x7d") then return none
    else return some (← rules.call .statement)
  return .block statements

def switchStatement : Parse Stmt := do
  advance
  headExpr rules
  expect "\x7b"
  return .block (← itemsUntil "\x7d" (switchCase rules))

def returnStatement : Parse Stmt := do
  advance
  if ← canEndStatement then
    endStatement
    return .return none
  else
    let value ← rules.call (.expression false)
    endStatement
    return .return (some value)

def throwStatement : Parse Stmt := do
  advance
  if ← afterBreak then fail
  let _ ← rules.call (.expression false)
  endStatement
  return .other

/-- A `break` or `continue` statement. -/
def jumpStatement : Parse Stmt := do
  advance
  unless ← canEndStatement do
    let _ ← ident
  endStatement
  return .other

/-- An expression or a labelled statement. -/
def simpleStatement : Parse Stmt := do
  let labelled ← succeeds (do
    let _ ← ident
    expect ":")
  if labelled then
    advance
    advance
    return .block [← rules.call .statement]
  else
    let _ ← rules.call (.expression false)
    endStatement
    return .other

def otherStatement : Parse Stmt := do
  match ← kind with
  | .punct "\x7b" => return .block (← rules.call .block)
  | .punct ";" =>
      advance
      return .other
  | .name "if" => ifStatement rules
  | .name "for" => forStatement rules
  | .name "while" => whileStatement rules
  | .name "do" => doStatement rules
  | .name "try" => tryStatement rules
  | .name "switch" => switchStatement rules
  | .name "return" => returnStatement rules
  | .name "throw" => throwStatement rules
  | .name "break" => jumpStatement
  | .name "continue" => jumpStatement
  | .name "debugger" =>
      advance
      endStatement
      return .other
  | .name "with" =>
      advance
      headExpr rules
      let _ ← rules.call .statement
      return .other
  | _ => simpleStatement rules

def statement : Parse Stmt := do
  match ← rules.call .decl with
  | some decl => return stmtOfDecl decl
  | none => otherStatement rules

end ApiDocs.Syntax.Parser
