import ApiDocs.Document.Package

set_option autoImplicit false

/-!
Re-exports: star exports become one edge for each declaration, and every edge is linked with the
declaration that it leads to.
-/

namespace ApiDocs

/-- A module that exports all that another module declares. Both are given by output path. -/
structure StarExport where
  module : String
  source : String
deriving Repr, DecidableEq

namespace Package

/-- One edge for each declaration of the source, added to those of the module. -/
def expandStar (p : Package) (star : StarExport) : Package :=
  match p.modules.get? star.source with
  | none => p
  | some source =>
      let edges := source.declarations.values.map fun d =>
        { name := d.name, sourceName := d.name, path := star.source : Reexport }
      { p with
        modules := p.modules.modify star.module fun m =>
          { m with reexports := m.reexports ++ edges } }

def expandStars (p : Package) (stars : List StarExport) : Package := stars.foldl expandStar p

/-- An edge of a module, by position, and the declaration that it leads to. -/
structure Link where
  module : String
  edge : Nat
  name : String
  target : String
  declaration : String
deriving Repr, DecidableEq

/-- The declaration that an edge without id leads to, if there is one. -/
def link? (p : Package) (module : String) (edge : Nat) (reexport : Reexport) : Option Link :=
  if reexport.isResolved then none
  else do
    let target ← p.modules.get? reexport.path
    let declaration ← target.declarationNamed? reexport.sourceName
    return ⟨module, edge, reexport.name, reexport.path, declaration.id⟩

def links (p : Package) : List Link :=
  p.modules.entries.flatMap fun (path, m) =>
    m.reexports.zipIdx.filterMap fun (reexport, edge) => p.link? path edge reexport

/-- Writes a link into its edge, and back into the declaration. -/
def applyLink (p : Package) (link : Link) : Package :=
  let modules := p.modules.modify link.module fun m =>
    { m with reexports := m.reexports.modify link.edge fun e => { e with id := link.declaration } }
  { p with
    modules := modules.modify link.target fun m =>
      { m with
        declarations := m.declarations.modify link.declaration fun d =>
          { d with exportedIn := d.exportedIn ++ [⟨link.module, link.name⟩] } } }

/-- Points every edge without id at the declaration it names. -/
def link (p : Package) : Package := p.links.foldl applyLink p

/-- Expands star exports, then links all edges. -/
def resolve (p : Package) (stars : List StarExport) : Package := (p.expandStars stars).link

end Package

end ApiDocs
