import ApiDocs.Syntax.Parser.Statements

set_option autoImplicit false

/-!
The items of a file: imports, exports, declarations and statements.
-/

namespace ApiDocs.Syntax.Parser

open Parse

variable (rules : Rules)

/-- A name of an import or export: a word or a string. -/
def exportName : Parse String := do
  match ← kind with
  | .string value =>
      advance
      return value
  | _ => word

/-- Whether a `type` modifier stands here, and not a name: another name follows that is not `as`,
or an `as` that is itself the name, for it ends the specifier or `as` and a name follow it. -/
def atTypeModifier : Parse Bool := do
  if !(← typed) then return false
  else succeeds do
    expectName "type"
    match ← kind with
    | .string _ => return
    | .name "as" =>
        advance
        match ← kind with
        | .name "as" =>
            advance
            let _ ← exportName
        | .name _ => fail
        | .string _ => fail
        | _ => return
    | .name _ => return
    | _ => fail

/-- A name of a module, and the one it gets behind `as`. -/
def specifier : Parse (String × Option String) := do
  if ← atTypeModifier then advance
  let name ← exportName
  if ← eatName "as" then return (name, some (← exportName)) else return (name, none)

def importSpecifier : Parse ImportSpecifier := do
  match ← specifier with
  | (name, some localName) => return ⟨localName, .named name⟩
  | (name, none) =>
      if reservedWords.contains name then fail else return ⟨name, .named name⟩

/-- Attributes of an import, and the end of the statement. -/
def endModuleItem : Parse Unit := do
  if (← atName "with") || ((← atName "assert") && !(← afterBreak)) then
    advance
    let _ ← rules.call .object
  endStatement

def fromSource : Parse String := do
  expectName "from"
  stringValue

/-- The right side of an import that gives a name to a namespace or module. -/
def importEquals : Parse ItemKind := do
  expect "="
  if ← succeeds (do expectName "require"; expect "(") then
    advance
    advance
    let _ ← stringValue
    expect ")"
  else
    let _ ← entity
  endStatement
  return .otherModule

/-- Whether `type` makes the whole import one of types. -/
def atTypeImport : Parse Bool := do
  if !(← typed) then return false
  else succeeds do
    expectName "type"
    match ← kind with
    | .punct mark => unless mark = "\x7b" ∨ mark = "*" do fail
    | .name "from" =>
        advance
        unless (← atName "from") || (← at_ "=") do fail
    | .name _ => return
    | _ => fail

/-- The names in braces, or the name behind a star. -/
def importBindings : Parse (List ImportSpecifier) := do
  if ← eat "*" then
    expectName "as"
    return [⟨← ident, .wholeModule⟩]
  else
    expect "\x7b"
    commaList "\x7d" importSpecifier

/-- An import behind its keyword. -/
def importRest : Parse ItemKind := do
  match ← kind with
  | .string source =>
      advance
      endModuleItem rules
      return .importFrom [] source
  | _ =>
      if (← atTypeImport) || (← succeeds (do expectName "defer"; expect "*")) then advance
      if (← at_ "\x7b") || (← at_ "*") then
        let names ← importBindings
        let source ← fromSource
        endModuleItem rules
        return .importFrom names source
      else
        let name ← ident
        if (← typed) && (← at_ "=") then importEquals
        else
          let others ← if ← eat "," then importBindings else pure []
          let source ← fromSource
          endModuleItem rules
          return .importFrom (⟨name, .default⟩ :: others) source

/-- The names in braces of an export, behind the brace. -/
def exportBraces : Parse ItemKind := do
  let names ← commaList "\x7d" specifier
  let source ← if ← atName "from" then some <$> fromSource else pure none
  endModuleItem rules
  return .exportNamed (names.map fun (name, exported) => .named name exported) source

/-- An export of a whole module, behind the star. -/
def exportStar : Parse ItemKind := do
  let name ← if ← eatName "as" then some <$> exportName else pure none
  let source ← fromSource
  endModuleItem rules
  match name with
  | some name => return .exportNamed [.wholeModule name] (some source)
  | none => return .exportAll source

/-- Whether the default of a module is exported here under a name. -/
def atDefaultFrom : Parse Bool := succeeds do
  let _ ← ident
  unless ← at_ "," do
    expectName "from"
    let _ ← stringValue

/-- The default of a module under a name, maybe with more names of the module. -/
def exportDefaultFrom : Parse ItemKind := do
  let name ← ident
  let others ←
    if ← eat "," then do
      if ← eat "*" then
        expectName "as"
        pure [.wholeModule (← exportName)]
      else
        expect "\x7b"
        let names ← commaList "\x7d" specifier
        pure (names.map fun (name, exported) => .named name exported)
    else pure []
  let source ← fromSource
  endModuleItem rules
  return .exportNamed (.default name :: others) (some source)

/-- A default export, behind `default`. -/
def exportDefault : Parse ItemKind := do
  if (← atName "class") || (← at_ "@") || ((← typed) && (← atWords "abstract" "class")) then
    decorators rules
    let _ ← if ← typed then eatName "abstract" else pure false
    expectName "class"
    let (name, c) ← rules.call .classExpr
    return .exportDefault (.classDecl name c)
  else if (← atName "function") || (← atAsyncFunction) then
    let isAsync ← eatName "async"
    expectName "function"
    let (name, function) ← functionRest rules isAsync
    endFunction function
    return .exportDefault (.function name function)
  else if (← typed) && (← atWordAndName "interface") then
    return .exportDefault (.interface (← interfaceDecl rules))
  else
    let value ← rules.call (.assignment {})
    endStatement
    match value with
    | .ident name => return .exportValue (some name)
    | _ => return .exportValue none

/-- An export behind its keyword. -/
def exportRest : Parse ItemKind := do
  if ← eatName "default" then exportDefault rules
  else if ← eat "*" then exportStar rules
  else if ← eat "\x7b" then exportBraces rules
  else if !(← typed) then
    if ← atDefaultFrom then exportDefaultFrom rules else exportedDecl
  else if ← eat "=" then
    let _ ← rules.call (.expression false)
    endStatement
    return .otherModule
  else if ← atWords "as" "namespace" then
    advance
    advance
    let _ ← ident
    endStatement
    return .otherModule
  else if ← eatName "import" then
    let _ ← if ← atTypeImport then advance else pure ()
    let _ ← ident
    importEquals
  else if ← succeeds (do expectName "type"; expect "\x7b") then
    advance
    advance
    exportBraces rules
  else if ← succeeds (do expectName "type"; expect "*") then
    advance
    advance
    exportStar rules
  else exportedDecl
where
  exportedDecl : Parse ItemKind := do
    match ← rules.call .decl with
    | some decl => return .exportDecl decl
    | none => fail

/-- An import or export, a declaration or a statement. -/
def itemKind : Parse ItemKind := do
  if ← atName "export" then
    advance
    exportRest rules
  else if (← atName "import") && !(← succeeds (do
      advance
      unless (← at_ "(") || (← at_ ".") do fail)) then
    advance
    importRest rules
  else
    match ← rules.call .decl with
    | some decl => return .decl decl
    | none =>
        let _ ← otherStatement rules
        return .statement

/-- Skips the decorators of an exported class; the item starts behind them. -/
def exportDecorators : Parse Unit := do
  let here ← succeeds (do
    unless ← at_ "@" do fail
    decorators rules
    expectName "export")
  if here then decorators rules

def item : Parse Item := do
  exportDecorators rules
  let token ← view
  let doc ← docHere
  let kind ← itemKind rules
  return ⟨token.start, (← get).stop, token.doc, doc, kind⟩

/-- The declarations of a namespace: a block, or the rest of a dotted name. -/
def namespaceBody : Parse NamespaceBody := do
  if ← eat "." then
    let doc ← docHere
    let name ← ident
    return .nested name doc (← rules.call .namespaceBody)
  else
    expect "\x7b"
    let items ← itemsUntil "\x7d" (item rules)
    return .block (items.filterMap fun item =>
      match item.kind with
      | .decl decl => some (item.doc, decl)
      | .exportDecl decl => some (item.doc, decl)
      | _ => none)

/-- All items of a text. -/
def items : Parse (List Item) :=
  collect do
    if (← kind) = .endOfFile then return none else return some (← item rules)

end ApiDocs.Syntax.Parser
