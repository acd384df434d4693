import ApiDocs.Bindings.Basic

set_option autoImplicit false

/-!
Recording the declarations of a program. Files with imports or exports have a scope of their own;
the others, and `declare global` blocks, declare global names.
-/

namespace ApiDocs.Bindings

open Syntax

/-- A table that names are declared in. -/
inductive Table where
  | file (id : FileId)
  | global
  | members (id : SymbolId)
deriving Repr, DecidableEq

/-- Where a declaration stands. -/
structure Site where
  file : FileId
  table : Table
  parent : Option SymbolId
  global : Bool
deriving Repr, DecidableEq

def both : List Space := [.type, .value]

def table (b : Bindings) : Table → SymbolTable
  | .file id => (b.scope id).locals
  | .global => b.global
  | .members id => ((b.symbol? id).map (·.members)).getD {}

def modifyTable (b : Bindings) (t : Table) (f : SymbolTable → SymbolTable) : Bindings :=
  match t with
  | .file id =>
      { b with files := b.files.modify id.index fun s => { s with locals := f s.locals } }
  | .global => { b with global := f b.global }
  | .members id =>
      { b with symbols := b.symbols.modify id.index fun s => { s with members := f s.members } }

/-- The symbol that a declaration adds to: one of its kind under its name, if the kind merges. -/
def merging? (b : Bindings) (site : Site) (spaces : List Space) (name : String)
    (kind : SymbolKind) : Option SymbolId :=
  let found := spaces.findSome? fun space => (b.table site.table).get? space name
  found.filter fun id => kind.merges && b.kind? id = some kind

/-- Declares a name. A name that is taken keeps its symbol; the new one is then known to exports
only. -/
def declare (b : Bindings) (site : Site) (spaces : List Space) (name : String) (kind : SymbolKind)
    (doc : DocComment) (node : DeclNode) : SymbolId × Bindings :=
  let decl : SymbolDecl := ⟨site.file, doc, node⟩
  match b.merging? site spaces name kind with
  | some id =>
      (id, { b with symbols := b.symbols.modify id.index fun s =>
        { s with decls := s.decls ++ [decl] } })
  | none =>
      let (id, b) := b.addSymbol
        { name, kind, parent := site.parent, global := site.global, decls := [decl] }
      (id, b.modifyTable site.table fun t => t.insertAll spaces name id)

/-- Names with what they were bound to. -/
abbrev Bound := List (Space × String × SymbolId)

def bindName (b : Bindings) (site : Site) (spaces : List Space) (name : String)
    (kind : SymbolKind) (doc : DocComment) (node : DeclNode) : Bound × Bindings :=
  let (id, b) := b.declare site spaces name kind doc node
  (spaces.map fun space => (space, name, id), b)

/-- Variables are bound by plain names only. -/
def bindVariables (b : Bindings) (site : Site) (doc : DocComment) (isConst : Bool)
    (declarators : List Declarator) : Bound × Bindings :=
  declarators.foldl (fun (bound, b) d =>
    match d.name with
    | .ident name _ _ =>
        let (more, b) := b.bindName site [.value] name .variable doc (.variable isConst d)
        (bound ++ more, b)
    | _ => (bound, b)) ([], b)

mutual

def bindDecl (b : Bindings) (site : Site) (doc : DocComment) : Decl → Bound × Bindings
  | .classDecl name class_ => b.bindName site both name .classDecl doc (.classDecl class_)
  | .function name function => b.bindName site [.value] name .function doc (.function function)
  | .variableList isConst declarators => b.bindVariables site doc isConst declarators
  | .interface i => b.bindName site [.type] i.name .interface doc (.interface i)
  | .typeAlias a => b.bindName site [.type] a.name .typeAlias doc (.typeAlias a)
  | .enum name => b.bindName site both name .enum doc .enum
  | .namespaceDecl name body =>
      if name = "global" then ([], bindBody b ⟨site.file, .global, none, true⟩ body)
      else
        let (id, b) := b.declare site both name .namespaceDecl doc .namespaceDecl
        (both.map fun space => (space, name, id),
          bindBody b ⟨site.file, .members id, some id, site.global⟩ body)
  | .other => ([], b)

def bindBody (b : Bindings) (site : Site) : NamespaceBody → Bindings
  | .block declarations => bindDecls b site declarations
  | .nested name doc body =>
      let (id, b) := b.declare site both name .namespaceDecl doc .namespaceDecl
      bindBody b ⟨site.file, .members id, some id, site.global⟩ body

def bindDecls (b : Bindings) (site : Site) : List (DocComment × Decl) → Bindings
  | [] => b
  | item :: rest => bindDecls (bindDocDecl b site item) site rest

def bindDocDecl (b : Bindings) (site : Site) : DocComment × Decl → Bindings
  | (doc, decl) => (bindDecl b site doc decl).2

end

/-- Adds exports of a file; the first one under a name stays. -/
def exportAll (b : Bindings) (file : FileId) (bound : Bound) : Bindings :=
  { b with files := b.files.modify file.index fun s =>
    { s with exports := bound.foldl (fun t (space, name, id) => t.insert space name id) s.exports } }

def exportBoth (b : Bindings) (file : FileId) (name : String) (id : SymbolId) : Bindings :=
  b.exportAll file (both.map fun space => (space, name, id))

/-- The name of default exports. -/
def defaultName : String := "default"

def bindDefault (b : Bindings) (site : Site) (doc : DocComment) (decl : DefaultDecl) : Bindings :=
  let (bound, b) := match decl with
    | .classDecl name class_ =>
        b.bindName site both (name.getD defaultName) .classDecl doc (.classDecl class_)
    | .function name function =>
        b.bindName site [.value] (name.getD defaultName) .function doc (.function function)
    | .interface i => b.bindName site [.type] i.name .interface doc (.interface i)
  b.exportAll site.file (bound.map fun (space, _, id) => (space, defaultName, id))

/-- An exported name and what it stands for; a default or a namespace needs a module to stand
for. -/
def exportNode? (source : Option String) : ExportSpecifier → Option (String × DeclNode)
  | .named name exported =>
      let node := match source with
        | some specifier => .imported specifier (.named name)
        | none => .localAlias name
      some (exported.getD name, node)
  | .default name => source.map fun specifier => (name, .imported specifier .default)
  | .wholeModule name => source.map fun specifier => (name, .imported specifier .wholeModule)

/-- An export that stands for something else is no local name. -/
def bindExport (b : Bindings) (site : Site) (doc : DocComment) (source : Option String)
    (specifier : ExportSpecifier) : Bindings :=
  match exportNode? source specifier with
  | some (name, node) =>
      let (id, b) := b.addSymbol
        { name, kind := .redirect, parent := site.parent, global := false,
          decls := [⟨site.file, doc, node⟩] }
      b.exportBoth site.file name id
  | none => b

def bindImport (b : Bindings) (site : Site) (doc : DocComment) (source : String)
    (specifier : ImportSpecifier) : Bindings :=
  (b.declare site both specifier.localName .redirect doc (.imported source specifier.name)).2

def addStar (b : Bindings) (file : FileId) (source : String) : Bindings :=
  { b with files := b.files.modify file.index fun s => { s with stars := s.stars ++ [source] } }

def bindItem (site : Site) (b : Bindings) (item : Item) : Bindings :=
  match item.kind with
  | .statement => b
  | .decl decl => (b.bindDecl site item.doc decl).2
  | .exportDecl decl =>
      let (bound, b) := b.bindDecl site item.doc decl
      b.exportAll site.file bound
  | .exportDefault decl => b.bindDefault site item.doc decl
  | .exportValue (some name) =>
      let (id, b) := b.declare site both defaultName .redirect item.doc (.localAlias name)
      b.exportBoth site.file defaultName id
  | .exportValue none => b
  | .exportNamed specifiers source =>
      specifiers.foldl (fun b s => b.bindExport site item.doc source s) b
  | .exportAll source => b.addStar site.file source
  | .importFrom specifiers source =>
      specifiers.foldl (fun b s => b.bindImport site item.doc source s) b
  | .otherModule => b

def bindFile (b : Bindings) (id : FileId) (source : SourceText) : Bindings :=
  let isModule := source.isModule
  let b := { b with files := b.files.push { isModule } }
  let site : Site := ⟨id, if isModule then .file id else .global, none, !isModule⟩
  source.items.foldl (bindItem site) b

/-- Binds every file of a program. -/
def ofProgram (p : Program) : Bindings :=
  p.fileIds.foldl (fun b id =>
    match p.file? id with
    | some f => b.bindFile id f.source
    | none => b) {}

end ApiDocs.Bindings
