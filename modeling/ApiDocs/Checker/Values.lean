import ApiDocs.Checker.Returns

set_option autoImplicit false

/-!
The types of declared values.
-/

namespace ApiDocs.Checker

open Syntax

variable (calls : Calls)

def variableDecl? (d : SymbolDecl) : Option (Bool × Declarator) :=
  match d.node with
  | .variable isConst declarator => some (isConst, declarator)
  | _ => none

/-- The type of a variable: as annotated, or else that of its first value. -/
def variableType (s : SymbolId) : Check TypeId := do
  let decls ← Check.decls s
  match decls.findSome? variableDecl? with
  | none => return Arena.anyId
  | some (isConst, d) =>
      let file := (decls.head?.map (·.file)).getD ⟨0⟩
      declaratorType calls { types := ← Check.scopeIn file s } isConst d

def functionDecl? (d : SymbolDecl) : Option (FileId × DocComment × FunctionExpr) :=
  match d.node with
  | .function function => some (d.file, d.doc, function)
  | _ => none

/-- The signatures of a function. Where there are overloads, the declaration with the body is not
one of them. -/
def functionSignatures (s : SymbolId) : Check (List Signature) := do
  let all := (← Check.decls s).filterMap functionDecl?
  let hasBody (d : FileId × DocComment × FunctionExpr) : Bool := d.2.2.body.isWritten
  let hidesBody := all.any hasBody && all.any (!hasBody ·)
  (all.filter fun d => !(hidesBody && hasBody d)).mapM fun (file, doc, function) => do
    functionSignature calls { types := ← Check.scopeIn file s } doc function

/-- The members of a namespace, or the exports of a module, with what they stand for. -/
def namespaceMembers (s : SymbolId) : Check (List (String × Option SymbolId)) := do
  match ← Check.symbol? s with
  | none => return []
  | some symbol =>
      match symbol.decls.head?.map SymbolDecl.node with
      | some (.moduleNamespace file) =>
          let names := (← Check.state).bindings.exportNames (← read) file
          names.mapM fun name => return (name, ← Check.exportOf file .value name)
      | _ => return symbol.members.values.entries.map fun (name, id) => (name, some id)

/-- The object that a namespace or a module is as a value. -/
def namespaceObject (s : SymbolId) : Check TypeId := do
  let shape ← (← namespaceMembers s).foldlM (fun (shape : Shape) (name, target) => do
    let type ← match target with
      | some id => calls.ask (.valueType id)
      | none => pure Arena.anyId
    return shape.addMember ⟨name, type, false, true, ""⟩) { symbol := some s }
  Check.object shape

def declaredValue (s : SymbolId) : Check TypeId := do
  match ← Check.kind? s with
  | some .variable => variableType calls s
  | some .function => do
      Check.object { call := ← functionSignatures calls s, symbol := some s }
  | some .classDecl => do
      Check.object { construct := ← constructSignatures calls s, symbol := some s }
  | some .redirect =>
      match ← Check.resolveAlias s .value with
      | some target => if target ≠ s then calls.ask (.valueType target) else return Arena.anyId
      | none => return Arena.anyId
  | some .namespaceDecl => namespaceObject calls s
  | some .moduleNamespace => namespaceObject calls s
  | some .enum => calls.ask (.declaredType s)
  | some .external => calls.ask (.declaredType s)
  | _ => return Arena.anyId

/-- The type of a value, once it is known; meanwhile it is `any`. -/
def valueType (s : SymbolId) : Check TypeId := Check.valueOnce s (declaredValue calls s)

end ApiDocs.Checker
