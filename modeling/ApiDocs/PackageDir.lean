import ApiDocs.Document.Decode
import ApiDocs.Extract
import ApiDocs.Json.Reader

set_option autoImplicit false

/-!
A package on disk: its descriptors, its source files and its readmes.
-/

namespace ApiDocs

/-- What is read from the descriptor of a package. -/
structure Manifest where
  name : String
  main : Option String

namespace Json

/-- The value of a field that may be absent. -/
def defaulted {α : Type} (default : α) (read : Json → Option α) : Option Json → Option α
  | some value => read value
  | none => some default

end Json

open Json

def Manifest.decode (doc : Json) : Option Manifest := do
  match ← record? ["name", "main"] doc with
  | [name, main] => return ⟨← defaulted "" asText? name, ← nullable asText? main⟩
  | _ => none

/-- What is read from the descriptor of the compiler: the output directory. -/
structure CompilerConfig where
  outDir : Option String := none

def CompilerConfig.decodeOptions (doc : Json) : Option CompilerConfig := do
  match ← record? ["outDir"] doc with
  | [outDir] => return ⟨← nullable asText? outDir⟩
  | _ => none

def CompilerConfig.decode (doc : Json) : Option CompilerConfig := do
  match ← record? ["compilerOptions"] doc with
  | [options] => defaulted {} decodeOptions options
  | _ => none

/-- Where the sources and readmes of a package are. -/
structure Layout where
  /-- The directory with the sources, below that of the package. -/
  sourceRoot : String := "src"
  readmeName : String := "README.md"
deriving Repr, DecidableEq

namespace Layout

def missingDescriptors : String :=
  "The package folder does not contain package.json and tsconfig.json files"

def missingOutDir : String := "The tsconfig.json must specify an outDir"

/-- Reads a JSON document. -/
def readDocument {α : Type} (tree : FileTree) (path : String) (decode : Json → Option α) :
    Except Failure α := do
  let text ← tree.readText path
  match (Json.read? text).bind decode with
  | some a => return a
  | none => throw .badDocument

/-- The source files, in order. -/
def sourceFiles (tree : FileTree) (sourceRoot : String) : List String :=
  (tree.filesBelow sourceRoot).filter Path.isTypeScriptFile

def isNamed (name path : String) : Bool :=
  (Path.ofText path).fileName? = some name.toList

/-- The readmes below the source root, each under the output directory that it documents. -/
def sourceReadmes (l : Layout) (tree : FileTree) (packagePath sourceRoot outDir : String) :
    Except Failure (List (String × String)) :=
  ((tree.filesBelow sourceRoot).filter (isNamed l.readmeName)).mapM fun path => do
    let key := Path.dirname (Path.join outDir (Path.relative packagePath path))
    return (key, ← tree.readText path)

/-- Adds the readmes to a package. The readme of the package stands in where the source root has
none. -/
def addReadmes (l : Layout) (tree : FileTree) (packagePath sourceRoot : String) (p : Package) :
    Except Failure Package := do
  let found ← l.sourceReadmes tree packagePath sourceRoot p.outDir
  let readmes := found.foldl (fun (m : OrdMap String String) (key, text) => m.insert key text)
    p.readmes
  let rootKey := Path.join p.outDir l.sourceRoot
  let fallback := FileTree.under packagePath l.readmeName
  if !readmes.contains rootKey && tree.isFile fallback then
    return { p with readmes := readmes.insert rootKey (← tree.readText fallback) }
  else return { p with readmes }

end Layout

namespace Package

/-- Adds the declarations of source files to a package. The first file that cannot be read or
parsed stops the run. -/
def addFiles (p : Package) (tree : FileTree) (packagePath : String) (paths : List String) :
    Except Failure Package := do
  let sources ← paths.mapM tree.readSource
  return p.addProgram packagePath (Program.build tree sources)

end Package

namespace Layout

/-- The documentation of the package in a directory, which is seen from a working directory. -/
def analyze (l : Layout) (tree : FileTree) (workingDir dir : String) : Except Failure Package := do
  let manifestPath := FileTree.under workingDir (FileTree.under dir "package.json")
  let configPath := FileTree.under workingDir (FileTree.under dir "tsconfig.json")
  if !tree.isFile manifestPath || !tree.isFile configPath then
    throw (.config missingDescriptors)
  let packagePath ← tree.canonical workingDir dir
  let manifest ← readDocument tree manifestPath Manifest.decode
  let config ← readDocument tree configPath CompilerConfig.decode
  match config.outDir with
  | none => throw (.config missingOutDir)
  | some outDir =>
      let p := { Package.empty manifest.name outDir with
        mainModule := manifest.main.map Path.normalize }
      let sourceRoot := FileTree.under packagePath l.sourceRoot
      let p ← p.addFiles tree packagePath (sourceFiles tree sourceRoot)
      l.addReadmes tree packagePath sourceRoot p

end Layout

end ApiDocs
