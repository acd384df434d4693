import ApiDocs.Bindings.Bind

set_option autoImplicit false

/-!
Following imports and exports to what they stand for.
-/

namespace ApiDocs

open Syntax

/-- What a chain of imports and exports ends at. -/
inductive Referent where
  | symbol (id : SymbolId)
  /-- All exports of a file. -/
  | exportsOf (file : FileId)
  /-- A name of a package without typings. -/
  | external (module name : String)
deriving Repr, DecidableEq

namespace Bindings

/-- How an import names what it takes from a package without typings. -/
def externalName : ImportName → String
  | .named name => name
  | .default => defaultName
  | .wholeModule => "*"

mutual

/-- What a symbol stands for; one that is no alias stands for itself. The number bounds the steps
from here on. -/
def followSymbol (b : Bindings) (p : Program) : Nat → Space → SymbolId → Option Referent
  | 0, _, _ => none
  | n + 1, space, id =>
      match b.symbol? id with
      | none => none
      | some s =>
          if s.kind = .redirect then
            match s.decls.head? with
            | none => none
            | some decl =>
                match decl.node with
                | .localAlias name =>
                    match (b.scope decl.file).locals.get? space name with
                    | some target => followSymbol b p n space target
                    | none => none
                | .imported specifier name =>
                    match p.resolveModule? decl.file specifier with
                    | none => none
                    | some (.file target) =>
                        match name with
                        | .named name => followExport b p n space target name
                        | .default => followExport b p n space target defaultName
                        | .wholeModule => some (.exportsOf target)
                    | some .external => some (.external specifier (externalName name))
                | _ => some (.symbol id)
          else some (.symbol id)

/-- What an export of a file stands for: its own, else the first that a wildcard export finds.
Wildcards pass over the default export. -/
def followExport (b : Bindings) (p : Program) : Nat → Space → FileId → String → Option Referent
  | 0, _, _, _ => none
  | n + 1, space, file, name =>
      match (b.scope file).exports.get? space name with
      | some id => followSymbol b p n space id
      | none =>
          if name = defaultName then none
          else (b.scope file).stars.findSome? fun specifier =>
            match p.resolveModule? file specifier with
            | some (.file target) => followExport b p n space target name
            | _ => none

end

/-- How many steps a chain of imports and exports may take. -/
def maxSteps : Nat := 33

/-- The symbol that stands for all exports of a file. -/
def moduleNamespace (b : Bindings) (p : Program) (file : FileId) : SymbolId × Bindings :=
  match b.moduleNamespaces.get? file with
  | some id => (id, b)
  | none =>
      let (id, b) := b.addSymbol
        { name := Path.moduleName (p.pathOf file), kind := .moduleNamespace, parent := none,
          global := false, decls := [⟨file, {}, .moduleNamespace file⟩] }
      (id, { b with moduleNamespaces := b.moduleNamespaces.insert file id })

/-- The symbol for a name of a package without typings. It has no file of its own; its declaration
is held by the first one. -/
def external (b : Bindings) (module name : String) : SymbolId × Bindings :=
  match b.externals.get? (module, name) with
  | some id => (id, b)
  | none =>
      let (id, b) := b.addSymbol
        { name, kind := .external, parent := none, global := false,
          decls := [⟨⟨0⟩, {}, .external module⟩] }
      (id, { b with externals := b.externals.insert (module, name) id })

/-- The symbol of a referent. -/
def symbolFor (b : Bindings) (p : Program) : Referent → SymbolId × Bindings
  | .symbol id => (id, b)
  | .exportsOf file => b.moduleNamespace p file
  | .external module name => b.external module name

def symbolFor? (b : Bindings) (p : Program) : Option Referent → Option SymbolId × Bindings
  | none => (none, b)
  | some referent =>
      let (id, b) := b.symbolFor p referent
      (some id, b)

/-- The declared symbol that a symbol stands for. -/
def resolveAlias (b : Bindings) (p : Program) (id : SymbolId) (space : Space) :
    Option SymbolId × Bindings :=
  b.symbolFor? p (b.followSymbol p maxSteps space id)

/-- The symbol that a file exports under a name. -/
def exportOf (b : Bindings) (p : Program) (file : FileId) (space : Space) (name : String) :
    Option SymbolId × Bindings :=
  b.symbolFor? p (b.followExport p maxSteps space file name)

/-- A member of a symbol that holds names. -/
def member (b : Bindings) (p : Program) (container : SymbolId) (space : Space) (name : String) :
    Option SymbolId × Bindings :=
  match b.resolveAlias p container space with
  | (none, b) => (none, b)
  | (some id, b) =>
      match b.symbol? id with
      | none => (none, b)
      | some s =>
          match s.kind, s.decls.head?.map SymbolDecl.node with
          | .namespaceDecl, _ => (s.members.get? space name, b)
          | .moduleNamespace, some (.moduleNamespace file) => b.exportOf p file space name
          | .external, some (.external module) =>
              let (id, b) := b.external module name
              (some id, b)
          | _, _ => (none, b)

/-- The files that a file exports from, itself first, each once. -/
def exportingFiles (b : Bindings) (p : Program) : Nat → List FileId → FileId → List FileId
  | 0, seen, _ => seen
  | n + 1, seen, file =>
      if seen.contains file then seen
      else (b.scope file).stars.foldl (fun seen specifier =>
        match p.resolveModule? file specifier with
        | some (.file target) => exportingFiles b p n seen target
        | _ => seen) (seen ++ [file])

/-- The names of the value exports of a file, those of wildcard exports included, each once. -/
def exportNames (b : Bindings) (p : Program) (file : FileId) : List String :=
  (b.exportingFiles p (b.files.size + 1) [] file).foldl (fun names id =>
    (b.scope id).exports.values.keys.foldl
      (fun names name => if names.contains name then names else names ++ [name]) names) []

end Bindings

end ApiDocs
