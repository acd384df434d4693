import ApiDocs.Text.Blank
import ApiDocs.Text.Lines

set_option autoImplicit false

/-!
Slash paths: normal form, the way from one to another, and the module keys of source files.
-/

namespace ApiDocs

/-- A slash path: whether it starts at the root, and its segments. Empty and `.` segments do not
count. -/
structure Path where
  absolute : Bool
  segments : List (List Char)
deriving DecidableEq, Repr

namespace Path

open Text

def here : List Char := ['.']

def up : List Char := ['.', '.']

def counts (segment : List Char) : Bool := segment != [] && segment != here

def ofChars (cs : List Char) : Path :=
  ⟨startsWith ['/'] cs, (splitOn '/' cs).filter counts⟩

def ofText (text : String) : Path := ofChars text.toList

/-- Walks one segment. The walked segments are kept last first: `..` takes back the last one; at
the root it does nothing, and before any other segment of a relative path it stays. -/
def walk (absolute : Bool) (walked : List (List Char)) (segment : List Char) : List (List Char) :=
  if segment = up then
    match walked with
    | [] => if absolute then [] else [up]
    | last :: rest => if last = up then (if absolute then walked else up :: walked) else rest
  else segment :: walked

/-- The path without `..` segments, a leading run in a relative path apart. -/
def resolve (p : Path) : Path := ⟨p.absolute, (p.segments.foldl (walk p.absolute) []).reverse⟩

def chars (p : Path) : List Char :=
  let joined := joinWith ['/'] p.segments
  if p.absolute then '/' :: joined
  else if joined = [] then here
  else joined

def text (p : Path) : String := String.ofList p.chars

/-- An absolute second path replaces the first one. -/
def append (base rest : Path) : Path :=
  if rest.absolute then rest else ⟨base.absolute, base.segments ++ rest.segments⟩

/-- The length of the longest common front of two lists. -/
def commonFront : List (List Char) → List (List Char) → Nat
  | a :: as, b :: bs => if a = b then commonFront as bs + 1 else 0
  | _, _ => 0

/-- The segments that lead from one resolved path to another; being absolute plays no part. -/
def stepsBetween (base path : List (List Char)) : List (List Char) :=
  let common := commonFront base path
  List.replicate (base.length - common) up ++ path.drop common

/-- The last segment, unless it is `..`. -/
def fileName? (p : Path) : Option (List Char) :=
  match p.segments.getLast? with
  | some name => if name = up then none else some name
  | none => none

/-- What follows the last dot of a file name; a dot at its front starts no extension. -/
def extension? (p : Path) : Option (List Char) :=
  match p.fileName? with
  | none => none
  | some name =>
      let after := name.reverse.takeWhile (· ≠ '.')
      let stem := name.length - after.length
      if stem ≤ 1 then none else some after.reverse

/-- The path with `.` and `..` segments resolved. -/
def normalize (path : String) : String := (ofText path).resolve.text

def relative (base path : String) : String :=
  let segments := stepsBetween (ofText base).resolve.segments (ofText path).resolve.segments
  String.ofList (joinWith ['/'] segments)

def join (base rest : String) : String := (append (ofText base) (ofText rest)).resolve.text

/-- Endings of source files, each replaced by `outputExtension`. -/
def sourceExtensions : List (List Char) := [".js", ".jsx", ".ts", ".tsx"].map String.toList

/-- The ending of every compiled module. -/
def outputExtension : List Char := ".js".toList

def compiled (path : List Char) : List Char :=
  match sourceExtensions.find? (endsWith · path) with
  | some ending => path.take (path.length - ending.length) ++ outputExtension
  | none => path

/-- The module key of a source file below the output directory. -/
def outputPath (packagePath outDir source : String) : String :=
  String.ofList (compiled (join outDir (relative packagePath source)).toList)

/-- What follows the last slash. -/
def lastPart (cs : List Char) : List Char := (cs.reverse.takeWhile (· ≠ '/')).reverse

/-- The file name without the output extension. -/
def moduleName (outPath : String) : String :=
  let name := lastPart outPath.toList
  String.ofList <|
    if endsWith outputExtension name then name.take (name.length - outputExtension.length) else name

/-- What stands before the last slash. -/
def dirname (path : String) : String :=
  match (path.toList.reverse.dropWhile (· ≠ '/')) with
  | [] => "."
  | [_] => "/"
  | _ :: front => String.ofList front.reverse

def isDeclarationFile (path : String) : Bool :=
  match (ofText path).fileName? with
  | some name => endsWith ".d.ts".toList name
  | none => false

def isTypeScriptFile (path : String) : Bool :=
  match (ofText path).extension? with
  | some ending => ending = ['t', 's'] || ending = ['t', 's', 'x']
  | none => false

/-- Whether a module specifier is a path from the importing file. -/
def isRelative (specifier : String) : Bool :=
  let cs := specifier.toList
  startsWith ['.', '/'] cs || startsWith ['.', '.', '/'] cs || cs = here || cs = up

end Path

end ApiDocs
