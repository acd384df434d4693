import ApiDocs.Failure
import ApiDocs.OrdMap

set_option autoImplicit false

/-!
Files and directories as they stood when a run began. A path is walked segment by segment, so a
file in its middle blocks it, and `..` leads out of directories that exist.

The names of files and directories are text. An entry whose name is no text is not in a tree: paths are
spelled as text everywhere, and such names have no spelling of their own.
-/

namespace ApiDocs

/-- What stands at a path: a directory, or a file and its text if its bytes are text. -/
inductive FileEntry where
  | file (text : Option String)
  | directory
deriving Repr, DecidableEq

/-- The entries below the root, by their normalized absolute paths. -/
structure FileTree where
  entries : OrdMap String FileEntry := .empty

namespace FileTree

def empty : FileTree := {}

/-- Where a walk stands. The segments of the path are kept last first. -/
inductive Place where
  | inside (path : List (List Char))
  | onFile (path : List (List Char)) (text : Option String)
  | missing
  | blocked
deriving Repr, DecidableEq

def keyOf (path : List (List Char)) : String := (Path.mk true path.reverse).text

/-- Walks one segment; an empty one or `.` stays in a directory. -/
def walk (t : FileTree) (place : Place) (segment : List Char) : Place :=
  match place with
  | .inside path =>
      if !Path.counts segment then place
      else if segment = Path.up then .inside path.tail
      else
        match t.entries.get? (keyOf (segment :: path)) with
        | some (.file text) => .onFile (segment :: path) text
        | some .directory => .inside (segment :: path)
        | none => .missing
  | .onFile _ _ => .blocked
  | .missing => .missing
  | .blocked => .blocked

/-- What an absolute path leads to. -/
def find (t : FileTree) (path : String) : Place :=
  (Text.splitOn '/' (path.toList.drop 1)).foldl t.walk (.inside [])

def isFile (t : FileTree) (path : String) : Bool :=
  match t.find path with
  | .onFile _ _ => true
  | _ => false

/-- Why a walk leads to no text: the words of the system. -/
def reason : Place → String
  | .inside _ => "Is a directory (os error 21)"
  | .onFile _ _ => "stream did not contain valid UTF-8"
  | .missing => "No such file or directory (os error 2)"
  | .blocked => "Not a directory (os error 20)"

/-- The text of a file. -/
def readText (t : FileTree) (path : String) : Except Failure String :=
  match t.find path with
  | .onFile _ (some text) => .ok text
  | place => .error (.unreadable (reason place))

/-- Reads and parses a source file. -/
def readSource (t : FileTree) (path : String) : Except Failure Syntax.SourceText :=
  match t.find path with
  | .onFile _ (some text) => Syntax.SourceText.read path text
  | .missing => .error (.notFound path)
  | place => .error (.unreadable ("Failed to read " ++ path ++ ": " ++ reason place))

/-- A source file that exists and parses. -/
def source? (t : FileTree) (path : String) : Option Syntax.SourceText :=
  if t.isFile path then (t.readSource path).toOption else none

/-- The tree with an entry more, and the directories above it. -/
def insert (t : FileTree) (path : String) (entry : FileEntry) : FileTree :=
  let segments := (Path.ofText path).resolve.segments
  let above := (List.range segments.length).drop 1
  let withDirs := above.foldl
    (fun entries n => entries.insertNew (Path.mk true (segments.take n)).text .directory) t.entries
  ⟨withDirs.insert (Path.mk true segments).text entry⟩

/-- A path as seen from a directory. -/
def under (directory path : String) : String :=
  if path.startsWith "/" || directory = "" then path else directory ++ "/" ++ path

/-- The path of a directory that exists, with nothing left to resolve. The empty path is none. -/
def canonical (t : FileTree) (directory path : String) : Except Failure String :=
  if path = "" then .error (.unreadable (reason .missing))
  else
    match t.find (under directory path) with
    | .inside segments => .ok (keyOf segments)
    | .onFile segments _ => .ok (keyOf segments)
    | place => .error (.unreadable (reason place))

/-- The order of paths: segment by segment. -/
def comesBefore : List String → List String → Bool
  | [], _ => true
  | _ :: _, [] => false
  | a :: as, b :: bs => if a = b then comesBefore as bs else a < b

def segmentsOf (path : String) : List String :=
  (Path.ofText path).segments.map String.ofList

/-- The files at or below a path, in order. -/
def filesBelow (t : FileTree) (path : String) : List String :=
  match t.find path with
  | .onFile segments _ => [keyOf segments]
  | .inside segments =>
      let root := segments.reverse
      let found := t.entries.entries.filterMap fun (key, entry) =>
        match entry with
        | .file _ => if root.isPrefixOf (Path.ofText key).segments then some key else none
        | .directory => none
      found.mergeSort fun a b => comesBefore (segmentsOf a) (segmentsOf b)
  | _ => []

/-- Writes a file into a directory that exists, or says why not. -/
def write (t : FileTree) (path text : String) : Except String FileTree :=
  let segments := Text.splitOn '/' (path.toList.drop 1)
  let name := segments.getLast?.getD []
  match segments.dropLast.foldl t.walk (.inside []) with
  | .inside parent =>
      if !Path.counts name || name = Path.up then .error (reason (.inside parent))
      else
        match t.walk (.inside parent) name with
        | .inside place => .error (reason (.inside place))
        | _ => .ok ⟨t.entries.insert (keyOf (name :: parent)) (.file (some text))⟩
  | .onFile _ _ => .error (reason .blocked)
  | place => .error (reason place)

end FileTree

end ApiDocs
