import ApiDocs.Document.Encode
import ApiDocs.Json.Writer
import ApiDocs.PackageDir

set_option autoImplicit false

/-!
The command line: the documentation of a package as JSON.
-/

namespace ApiDocs

/-- What a command line asks for. -/
structure Command where
  packageDir : String
  /-- The file to write; none means standard output. -/
  output : Option String := none
  sourceRoot : String := "src"
  /-- Whether the document is written in one line. -/
  compact : Bool := false
deriving Repr, DecidableEq

/-- What a run leaves behind. -/
structure Outcome where
  exitCode : UInt32 := 0
  stdout : String := ""
  stderr : String := ""
  /-- The files after the run. -/
  tree : FileTree := {}
  /-- The file that was written, and its text. -/
  written : Option (String × String) := none

namespace Command

def usage : String :=
  "Usage: documittu-analyze <package-dir> [--output <file>] [--source-root <dir>] [--compact]"

/-- The options read so far. -/
structure Partial where
  packageDir : Option String := none
  output : Option String := none
  sourceRoot : String := "src"
  compact : Bool := false

/-- Reads arguments from left to right; later ones win. -/
def readArgs : Partial → List String → Except String Partial
  | sofar, [] => .ok sofar
  | sofar, arg :: rest =>
      if arg = "--output" || arg = "-o" then
        match rest with
        | value :: rest => readArgs { sofar with output := some value } rest
        | [] => .error "--output requires a value"
      else if arg = "--source-root" then
        match rest with
        | value :: rest => readArgs { sofar with sourceRoot := value } rest
        | [] => .error "--source-root requires a value"
      else if arg = "--compact" then readArgs { sofar with compact := true } rest
      else if !arg.startsWith "-" && sofar.packageDir.isNone then
        readArgs { sofar with packageDir := some arg } rest
      else .error ("Unknown argument: " ++ arg)

def parse (args : List String) : Except String Command := do
  let found ← readArgs {} args
  match found.packageDir with
  | some packageDir => return ⟨packageDir, found.output, found.sourceRoot, found.compact⟩
  | none => throw usage

/-- The document of a package, with a line break at its end. -/
def render (p : Package) (compact : Bool) : String :=
  (if compact then p.encode.compact else p.encode.pretty) ++ "\n"

/-- One of several causes, with its number. -/
def numberedCause (cause : String) (n : Nat) : String :=
  let number := toString n
  String.ofList (List.replicate (5 - number.length) ' ') ++ number ++ ": " ++ cause ++ "\n"

/-- The report of an error and what caused it. -/
def report (message : String) (causes : List String) : String :=
  "Error: " ++ message ++ "\n" ++
    match causes with
    | [] => ""
    | [cause] => "\nCaused by:\n    " ++ cause ++ "\n"
    | causes => "\nCaused by:\n" ++ String.join (causes.zipIdx.map fun (c, n) => numberedCause c n)

def failed (tree : FileTree) (message : String) (causes : List String) : Outcome :=
  { exitCode := 1, stderr := report message causes, tree }

/-- The paths that a run looks at whatever it finds there: the descriptors, the sources, the readme
and the output. -/
def places (c : Command) (workingDir : String) : List String :=
  let dir := FileTree.under workingDir c.packageDir
  let layout : Layout := { sourceRoot := c.sourceRoot }
  ["package.json", "tsconfig.json", layout.sourceRoot, layout.readmeName].map (FileTree.under dir)
    ++ (c.output.map (FileTree.under workingDir)).toList

/-- The paths that the imports of the sources may lead to, as far as their files are known. -/
def reach (c : Command) (tree : FileTree) (workingDir : String) : List String :=
  let sourceRoot := FileTree.under (FileTree.under workingDir c.packageDir) c.sourceRoot
  let sources := (Layout.sourceFiles tree sourceRoot).filterMap tree.source?
  (Program.build tree sources).reach

/-- Analyzes the package and writes its document. -/
def run (c : Command) (tree : FileTree) (workingDir : String) : Outcome :=
  match ({ sourceRoot := c.sourceRoot } : Layout).analyze tree workingDir c.packageDir with
  | .error e => failed tree ("Failed to analyze " ++ c.packageDir) e.chain
  | .ok p =>
      let document := render p c.compact
      match c.output with
      | none => { stdout := document, tree }
      | some output =>
          let place := FileTree.under workingDir output
          let result := if output = "" then .error (FileTree.reason .missing)
            else tree.write place document
          match result with
          | .ok tree => { tree, written := some (place, document) }
          | .error reason => failed tree ("Failed to write " ++ output) [reason]

/-- Runs a command line in a working directory. A wish for help comes before all else. -/
def runArgs (tree : FileTree) (workingDir : String) (args : List String) : Outcome :=
  if args.any fun a => a = "--help" || a = "-h" then { stdout := usage ++ "\n", tree }
  else
    match parse args with
    | .ok c => c.run tree workingDir
    | .error message => failed tree message []

end Command

end ApiDocs
