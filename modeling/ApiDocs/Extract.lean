import ApiDocs.Document.Links
import ApiDocs.Render

set_option autoImplicit false

/-!
From the exported items of files to declarations, one for each symbol. Exports from other modules
become edges, whose targets are found once all modules are known.
-/

namespace ApiDocs

open Syntax

/-- What a declaration shows, and the type that it declares, if it is to be found by one. -/
structure Content where
  body : DeclarationBody
  declares : Option TypeId := none

namespace Content

/-- An alias or interface. -/
def ofType (s : SymbolId) : Check (Option Content) := do
  let t ← Check.declaredType s
  let shown ← Render.declaredBound t
  let parameters ← Render.typeParameters s
  return some ⟨.type shown parameters, some t⟩

def classBody (members : Render.ClassMembers) : DeclarationBody :=
  .classDecl (members.properties.map fun (m, shown) => ⟨m.name, m.documentation, shown⟩)
    members.constructors
    (members.methods.map fun (m, signature) => ⟨m.name, m.documentation, signature⟩)

/-- A class is shown as a component, else by its members. -/
def ofClass (s : SymbolId) : Check (Option Content) := do
  let value ← Check.valueType s
  let t ← Check.declaredType s
  match ← Render.componentProps? value with
  | some properties => return some ⟨.component properties, some t⟩
  | none => return (← Render.classMembers? value).map fun members => ⟨classBody members, some t⟩

/-- A value is shown as a component, else as a function if it can be called. -/
def ofCallable (t : TypeId) : Check (Option Content) := do
  match ← Render.componentProps? t with
  | some properties => return some ⟨.component properties, none⟩
  | none => return (← Render.function? t).map fun signature => ⟨.function signature, none⟩

def ofFunction (s : SymbolId) : Check (Option Content) := do
  ofCallable (← Check.valueType s)

/-- A variable that is neither component nor callable needs a value to be shown. -/
def ofVariable (d : Declarator) (s : SymbolId) : Check (Option Content) := do
  let t ← Check.valueType s
  match ← ofCallable t with
  | some content => return some content
  | none =>
      if d.init.isSome then return some ⟨.variable (← Render.bound t) d.initText, none⟩
      else return none

end Content

/-- The declarations found so far. -/
structure Extraction where
  package : Package
  /-- Where the package is, from which the paths of its modules are taken. -/
  packagePath : String
  nextId : Nat := 0
  /-- The symbols that have had their turn. -/
  extracted : List SymbolId := []
  stars : List StarExport := []

/-- The file that is being read, and the module that its declarations go to. -/
structure ModuleSite where
  file : FileId
  outPath : String

namespace Extraction

def outputPath (e : Extraction) (source : String) : String :=
  Path.outputPath e.packagePath e.package.outDir source

/-- The symbol has had its turn. -/
def claimed (e : Extraction) (s : SymbolId) : Extraction :=
  { e with extracted := s :: e.extracted }

/-- The symbol of an exported name. Each symbol has one turn, so merged declarations give one. -/
def claim (e : Extraction) (site : ModuleSite) (space : Space) (name : String) :
    Check (Option (SymbolId × Extraction)) := do
  match ← Check.lookup { file := site.file } space name with
  | none => return none
  | some s => return if e.extracted.contains s then none else some (s, e.claimed s)

/-- The declaration that comes next. -/
def next (e : Extraction) (name documentation : String) (content : Content) : Declaration :=
  { id := toString e.nextId, name, documentation, body := content.body }

/-- Adds a declaration under the next id. If it declares a type, types refer to it by their key. -/
def store (e : Extraction) (site : ModuleSite) (name documentation : String) (content : Content) :
    Extraction :=
  let d := e.next name documentation content
  let p := e.package
  { e with
    nextId := e.nextId + 1
    package := { p with
      typeDeclaration := match content.declares with
        | some t => p.typeDeclaration.insert t.key d.id
        | none => p.typeDeclaration
      declarationModule := p.declarationModule.insert d.id site.outPath
      modules := p.modules.modify site.outPath fun m =>
        { m with declarations := m.declarations.insert d.id d } } }

/-- Gives a symbol its turn. One of which nothing is shown has no declaration. -/
def visit (e : Extraction) (site : ModuleSite) (space : Space) (name : String)
    (describe : SymbolId → Check (Option Content)) : Check Extraction := do
  match ← e.claim site space name with
  | none => return e
  | some (s, e) =>
      match ← describe s with
      | some content => return e.store site name ((← Check.state).bindings.documentation s) content
      | none => return e

def visitType (e : Extraction) (site : ModuleSite) (name : String) : Check Extraction :=
  e.visit site .type name Content.ofType

def visitClass (e : Extraction) (site : ModuleSite) (name : String) : Check Extraction :=
  e.visit site .value name Content.ofClass

def visitFunction (e : Extraction) (site : ModuleSite) (name : String) : Check Extraction :=
  e.visit site .value name Content.ofFunction

def visitVariable (e : Extraction) (site : ModuleSite) (name : String) (d : Declarator) :
    Check Extraction :=
  e.visit site .value name (Content.ofVariable d)

def visitDecl (e : Extraction) (site : ModuleSite) : Decl → Check Extraction
  | .typeAlias decl => e.visitType site decl.name
  | .interface interface => e.visitType site interface.name
  | .classDecl name _ => e.visitClass site name
  | .function name _ => e.visitFunction site name
  | .variableList _ declarators =>
      declarators.foldlM (fun (e : Extraction) d =>
        match d.name with
        | .ident name _ _ => e.visitVariable site name d
        | _ => return e) e
  | _ => return e

/-- Where a specifier leads within the package, by output path. A relative one that names no file
leads to where that file would be; packages are no modules of the package. -/
def moduleTarget? (e : Extraction) (p : Program) (file : FileId) (specifier : String) :
    Option String :=
  match p.resolveModule? file specifier with
  | some (.file target) =>
      let path := p.pathOf target
      if Text.contains Origin.installed path.toList then none else some (e.outputPath path)
  | some .external => none
  | none =>
      if Path.isRelative specifier then
        let path := Path.join (Path.dirname (p.pathOf file)) specifier
        let path := if (Path.ofText path).extension?.isNone then path ++ ".ts" else path
        some (e.outputPath path)
      else none

/-- The edge of an export from another module; only names have one. -/
def reexport? (target : String) : ExportSpecifier → Option Reexport
  | .named source exported => some { name := exported.getD source, sourceName := source, path := target }
  | .default _ => none
  | .wholeModule _ => none

/-- The extraction with more edges of a module. -/
def addEdges (e : Extraction) (site : ModuleSite) (edges : List Reexport) : Extraction :=
  { e with package := { e.package with
    modules := e.package.modules.modify site.outPath fun m =>
      { m with reexports := m.reexports ++ edges } } }

def visitReexport (e : Extraction) (site : ModuleSite) (p : Program)
    (specifiers : List ExportSpecifier) (source : String) : Extraction :=
  match e.moduleTarget? p site.file source with
  | none => e
  | some target => e.addEdges site (specifiers.filterMap (reexport? target))

def addStar (e : Extraction) (site : ModuleSite) (target : String) : Extraction :=
  { e with stars := e.stars ++ [⟨site.outPath, target⟩] }

def visitStar (e : Extraction) (site : ModuleSite) (p : Program) (source : String) : Extraction :=
  match e.moduleTarget? p site.file source with
  | none => e
  | some target => e.addStar site target

/-- Reads an item. In an ambient module every declaration is exported. -/
def visitItem (site : ModuleSite) (ambient : Bool) (e : Extraction) (item : Item) :
    Check Extraction := do
  match item.kind with
  | .exportDecl decl => e.visitDecl site decl
  | .exportDefault (.classDecl (some name) _) => e.visitClass site name
  | .exportDefault (.function (some name) _) => e.visitFunction site name
  | .exportDefault (.interface interface) => e.visitType site interface.name
  | .exportNamed specifiers (some source) =>
      return e.visitReexport site (← read) specifiers source
  | .exportAll source => return e.visitStar site (← read) source
  | .decl decl => if ambient then e.visitDecl site decl else return e
  | _ => return e

/-- The extraction with a module more, which is empty. -/
def openModule (e : Extraction) (source : SourceFile) : Extraction :=
  let outPath := e.outputPath source.path
  let m : Module := { name := Path.moduleName outPath, outPath,
                      sourcePath := Path.relative e.packagePath source.path }
  { e with package := { e.package with modules := e.package.modules.insert outPath m } }

/-- Reads a file. Of files with one output path the first is read. -/
def visitFile (e : Extraction) (file : FileId) (source : SourceFile) : Check Extraction := do
  let outPath := e.outputPath source.path
  if e.package.modules.contains outPath then return e
  else
    let ambient := Path.isDeclarationFile source.source.path && source.source.isModule
    source.source.items.foldlM (visitItem ⟨file, outPath⟩ ambient) (e.openModule source)

/-- Reads the root files of a program in order. -/
def visitAll (e : Extraction) : Check Extraction := do
  (← read).rootFiles.foldlM (fun (e : Extraction) (id, file) => e.visitFile id file) e

end Extraction

namespace Package

/-- Adds the declarations of a program to a package, and links them. -/
def addProgram (p : Package) (packagePath : String) (program : Program) : Package :=
  let work := Extraction.visitAll { package := p, packagePath }
  let e := (work.outcome program (Checker.ofProgram program)).1
  e.package.resolve e.stars

end Package

end ApiDocs
