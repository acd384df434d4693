import ApiDocs.FileTree
import ApiDocs.Ids
import ApiDocs.Typings

set_option autoImplicit false

/-!
The closed set of files that one analysis runs over: the embedded typings, the files given, and
every file that they reach through relative imports. What each module specifier points to is
settled when the program is built.
-/

namespace ApiDocs

open Syntax

/-- A file of a program. -/
structure SourceFile where
  source : SourceText
  /-- The normalized path. -/
  path : String
  /-- Whether the file was given for analysis. -/
  root : Bool

/-- What a module specifier points to. -/
inductive ModuleTarget where
  | file (id : FileId)
  /-- A package without typings. -/
  | external
deriving Repr, DecidableEq

structure Program where
  files : Array SourceFile := #[]
  targets : OrdMap (FileId × String) ModuleTarget := .empty

namespace Program

def file? (p : Program) (id : FileId) : Option SourceFile := p.files[id.index]?

/-- The file with a normalized path. -/
def find? (p : Program) (path : String) : Option FileId :=
  (p.files.findIdx? (·.path = path)).map FileId.mk

def fileIds (p : Program) : List FileId := (List.range p.files.size).map FileId.mk

def pathOf (p : Program) (id : FileId) : String := ((p.file? id).map (·.path)).getD ""

/-- Of files with one normalized path the first stays; it becomes a root if any of them is one. -/
def add (p : Program) (source : SourceText) (root : Bool) : FileId × Program :=
  let path := Path.normalize source.path
  match p.find? path with
  | some id =>
      (id, { p with files := p.files.modify id.index fun f => { f with root := f.root || root } })
  | none => (⟨p.files.size⟩, { p with files := p.files.push ⟨source, path, root⟩ })

/-- What a specifier in a file points to. -/
def resolveModule? (p : Program) (importer : FileId) (specifier : String) : Option ModuleTarget :=
  p.targets.get? (importer, specifier)

/-- Endings that a relative specifier is tried with, in this order. -/
def probeEndings : List String :=
  [".ts", ".tsx", ".d.ts", "/index.ts", "/index.tsx", "/index.d.ts"]

/-- A path without the ending of a compiled file. -/
def uncompiled (path : List Char) : List Char :=
  match [".js".toList, ".jsx".toList].find? (Text.endsWith · path) with
  | some ending => path.take (path.length - ending.length)
  | none => path

/-- The paths that a relative specifier may refer to, in the order in which they are tried. -/
def candidates (importer specifier : String) : List String :=
  let base := Path.join (Path.dirname importer) specifier
  let itself :=
    if Text.endsWith ".ts".toList base.toList || Text.endsWith ".tsx".toList base.toList
    then [base] else []
  let stem := String.ofList (uncompiled base.toList)
  itself ++ probeEndings.map (stem ++ ·)

/-- Where the file behind a specifier was found. -/
inductive Located where
  | known (target : ModuleTarget)
  | onDisk (source : SourceText)

/-- The first of the paths that is one of a file of the program, or of a file on disk that
parses. -/
def probe (p : Program) (tree : FileTree) : List String → Option Located
  | [] => none
  | path :: rest =>
      match p.find? path with
      | some id => some (.known (.file id))
      | none =>
          match tree.source? path with
          | some source => some (.onDisk source)
          | none => probe p tree rest

def locate? (p : Program) (tree : FileTree) (importer : FileId) (specifier : String) :
    Option Located :=
  if Path.isRelative specifier then
    p.probe tree (candidates (p.pathOf importer) specifier)
  else
    match (Typings.forModule? specifier).bind fun t => p.find? t.path with
    | some id => some (.known (.file id))
    | none => some (.known .external)

/-- The specifier of an import or of an export from another module. -/
def specifier? : ItemKind → Option String
  | .importFrom _ source => some source
  | .exportNamed _ source => source
  | .exportAll source => some source
  | _ => none

def specifiers (s : SourceText) : List String := s.items.filterMap fun item => specifier? item.kind

/-- A program that is being built, and the files whose specifiers are still to be settled. -/
structure Loading where
  program : Program
  waiting : List FileId

/-- Settles one specifier of a file. A file that is found on disk has to wait for its turn. -/
def settle (tree : FileTree) (importer : FileId) (l : Loading) (specifier : String) : Loading :=
  let p := l.program
  if p.targets.contains (importer, specifier) then l
  else
    match p.locate? tree importer specifier with
    | none => l
    | some (.known target) =>
        { l with program := { p with targets := p.targets.insert (importer, specifier) target } }
    | some (.onDisk source) =>
        let (id, p) := p.add source false
        ⟨{ p with targets := p.targets.insert (importer, specifier) (.file id) }, id :: l.waiting⟩

/-- The specifiers that a file is written with. -/
def specifiersOf (p : Program) (id : FileId) : List String :=
  ((p.file? id).map fun f => specifiers f.source).getD []

def settleFile (tree : FileTree) (l : Loading) (id : FileId) : Loading :=
  (l.program.specifiersOf id).foldl (settle tree id) l

/-- Settles files, each with those that it leads to, the latest first. The number bounds how long a
chain of files that lead to each other gets. -/
def settleAll (tree : FileTree) : Nat → Program → List FileId → Program
  | 0, p, _ => p
  | n + 1, p, ids =>
      ids.foldl (fun p id =>
        let l := settleFile tree ⟨p, []⟩ id
        settleAll tree n l.program l.waiting) p

/-- The embedded typings. -/
def embedded : List SourceText :=
  Typings.all.filterMap fun t => (SourceText.read t.path t.source).toOption

/-- Typings come first, then the roots in the order given. -/
def ofSources (roots : List SourceText) : Program :=
  let p := embedded.foldl (fun p s => (p.add s false).2) {}
  roots.foldl (fun p s => (p.add s true).2) p

/-- A program from its parsed root files. Other files that their relative imports lead to are read
from disk; one that is missing or does not parse is passed over. A file that was settled before leads
to nothing new, so no chain is longer than there are files, given or on disk. -/
def build (tree : FileTree) (roots : List SourceText) : Program :=
  let p := ofSources roots
  settleAll tree (p.files.size + tree.entries.size) p p.fileIds.reverse

/-- The files given for analysis, in the order given. -/
def rootFiles (p : Program) : List (FileId × SourceFile) :=
  p.fileIds.filterMap fun id =>
    match p.file? id with
    | some f => if f.root then some (id, f) else none
    | none => none

/-- The paths that the relative specifiers of a program may lead to. -/
def reach (p : Program) : List String :=
  p.files.toList.flatMap fun f =>
    ((specifiers f.source).filter Path.isRelative).flatMap (candidates f.path)

def findByPath? (p : Program) (path : String) : Option FileId := p.find? (Path.normalize path)

end Program

end ApiDocs
