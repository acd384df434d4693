import ApiDocs.Text.Blank
import ApiDocs.Text.Lines

set_option autoImplicit false

/-!
Where a declaration file comes from, as its path tells.
-/

namespace ApiDocs.Origin

open Text

/-- Where packages are installed. -/
def installed : List Char := "/node_modules/".toList

/-- The package of a bare module specifier: two segments under a scope, else one. -/
def packageName (specifier : List Char) : List Char :=
  match splitOn '/' specifier with
  | first :: second :: _ =>
      if startsWith ['@'] first then first ++ '/' :: second else first
  | first :: [] => first
  | [] => []

/-- The file that the types of an unknown package are attributed to. -/
def externalPath (specifier : String) : String :=
  String.ofList (installed ++ packageName specifier.toList ++ "/index.d.ts".toList)

def isLibChar (c : Char) : Bool := ('a' ≤ c && c ≤ 'z') || ('0' ≤ c && c ≤ '9')

def isPackageChar (c : Char) : Bool := isLibChar c || c == '-'

/-- The library name in `/node_modules/typescript/lib/lib.NAME.`, read from the front. -/
def libAt? (cs : List Char) : Option (List Char) := do
  let rest ← dropMark? (installed ++ "typescript/lib/lib.".toList) cs
  let name := rest.takeWhile isLibChar
  if name ≠ [] ∧ startsWith ['.'] (rest.dropWhile isLibChar) then some name else none

/-- A nonempty run of package characters that ends at a slash, and what follows the slash. -/
def segment? (cs : List Char) : Option (List Char × List Char) :=
  match cs.takeWhile isPackageChar, cs.dropWhile isPackageChar with
  | [], _ => none
  | name, '/' :: rest => some (name, rest)
  | _, _ => none

/-- A package name, with its scope if it has one, that ends at a slash. -/
def scoped? (cs : List Char) : Option (List Char) :=
  match cs with
  | '@' :: rest => do
      let (scope, rest) ← segment? rest
      let (name, _) ← segment? rest
      return '@' :: scope ++ '/' :: name
  | _ => (segment? cs).map Prod.fst

/-- The package name after `/node_modules/`; the scope of type packages is passed over. -/
def packageAt? (cs : List Char) : Option (List Char) := do
  let rest ← dropMark? installed cs
  ((dropMark? "@types/".toList rest).bind scoped?) <|> scoped? rest

/-- The first answer that a suffix of the text gives. -/
def firstAt? (read : List Char → Option (List Char)) : List Char → Option (List Char)
  | [] => read []
  | c :: rest => read (c :: rest) <|> firstAt? read rest

/-- The library or package that a file belongs to. -/
def importedFrom (path : String) : Option String :=
  let cs := path.toList
  match firstAt? libAt? cs with
  | some name => some ("lib " ++ String.ofList name)
  | none => (firstAt? packageAt? cs).map String.ofList

end ApiDocs.Origin
