import ApiDocs.Extract

set_option autoImplicit false

/-!
Packages given as a list of paths and sources, without files on disk.
-/

namespace ApiDocs.Fixture

/-- Where the sources are taken to be. -/
def root : String := "/virtual"

def outDir : String := "lib"

def name : String := "fixture"

/-- The documentation of sources given by their paths below the root, in order. -/
def analyze (files : List (String × String)) : Except Failure Package := do
  let sources ← files.mapM fun (path, source) =>
    Syntax.SourceText.read (Path.join root path) source
  return (Package.empty name outDir).addProgram root (Program.build .empty sources)

/-- The key of the module of a source path. -/
def outPath (path : String) : String := Path.outputPath root outDir (Path.join root path)

/-- The module of a source path. -/
def module? (p : Package) (path : String) : Option Module := p.modules.get? (outPath path)

/-- The declaration of a name in the module of a source path. -/
def declaration? (p : Package) (path name : String) : Option Declaration :=
  (module? p path).bind (·.declarationNamed? name)

end ApiDocs.Fixture
