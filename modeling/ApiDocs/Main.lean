import ApiDocs.Command

set_option autoImplicit false

/-!
The program. It takes a picture of the files that its command line is about, runs the command on
the picture, and carries out what the run leaves behind.
-/

namespace ApiDocs.Picture

/-- Adds what stands at an absolute path; a directory comes with all that is below it. -/
partial def take (tree : FileTree) (path : String) : IO FileTree := do
  let place := (← IO.currentDir) / path
  if ← place.isDir then
    let mut tree := tree.insert path .directory
    for entry in ← place.readDir do
      tree ← take tree (path ++ "/" ++ entry.fileName)
    return tree
  else if ← place.pathExists then
    return tree.insert path (.file (String.fromUTF8? (← IO.FS.readBinFile place)))
  else return tree

/-- Adds the directories on the way to a path. -/
def takeAbove (tree : FileTree) (path : String) : IO FileTree := do
  let segments := path.splitOn "/"
  let mut tree := tree
  for n in List.range segments.length do
    let above := "/".intercalate (segments.take n)
    if ← ((← IO.currentDir) / above).isDir then
      tree := tree.insert above .directory
  return tree

/-- Adds the files that the imports of the sources lead to, and what these import in turn. -/
partial def takeImports (c : Command) (workingDir : String) (tree : FileTree) (seen : List String) :
    IO FileTree := do
  let fresh := (c.reach tree workingDir).filter fun path => !seen.contains path
  if fresh.isEmpty then return tree
  let mut tree := tree
  for path in fresh.eraseDups do
    if !(← ((← IO.currentDir) / path).isDir) then
      tree ← take (← takeAbove tree path) path
  takeImports c workingDir tree (fresh ++ seen)

/-- The files that a command is about. -/
def ofCommand (c : Command) (workingDir : String) : IO FileTree := do
  let mut tree ← takeAbove {} (workingDir ++ "/")
  for path in c.places workingDir do
    tree ← takeAbove tree path
    if c.output.map (FileTree.under workingDir) != some path then tree ← take tree path
    else if ← ((← IO.currentDir) / path).isDir then tree := tree.insert path .directory
  takeImports c workingDir tree []

end ApiDocs.Picture

open ApiDocs in
def main (args : List String) : IO UInt32 := do
  let workingDir := (← IO.currentDir).toString
  let tree ← match Command.parse args with
    | .ok c => Picture.ofCommand c workingDir
    | .error _ => pure {}
  let outcome := Command.runArgs tree workingDir args
  IO.print outcome.stdout
  IO.eprint outcome.stderr
  if let some (path, text) := outcome.written then
    try IO.FS.writeFile path text
    catch e =>
      IO.eprint (Command.report ("Failed to write " ++ path) [toString e])
      return 1
  return outcome.exitCode
