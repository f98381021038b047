import Spacecraft.Storage.Path
import Spacecraft.Storage.Store

/-!
# Files in a directory tree

A store laid out below one directory of a tree, its root; a path may lead out of it again.  Writing creates the
directories on the way, moving does not.
-/

namespace Spacecraft

/-- A file, or a directory with its names. -/
inductive Node where
  | file (content : Bytes)
  | directory (entries : List (String × Node))

/-- A place of a tree: the names on the way from the top. -/
abbrev Place := List String

namespace Node

/-- Put something under a name of a directory, or take it away. -/
def assign (name : String) (node : Option Node) (entries : List (String × Node)) : List (String × Node) :=
  node.toList.map (fun node => (name, node)) ++ entries.filter (fun entry => entry.1 != name)

/-- Put something at a place, or take it away, if its directory exists. -/
def replace (new : Option Node) : Place → Option Node → Option Node
  | [], _ => new
  | name :: rest, some (.directory entries) =>
    some (.directory (assign name (replace new rest (entries.lookup name)) entries))
  | _ :: _, node => node

end Node

/-- What stands at the top, and the text of the path to the root of the store. -/
structure Tree where
  root : String
  top : Node

namespace Tree

/-- A tree that holds nothing but the directories on the way to the root. -/
def laidOut (root : String) : Tree :=
  ⟨root, (TreePath.ofText root).steps.foldr (fun name node => .directory [(name, node)]) (.directory [])⟩

/-- Move the root of the store down, without creating a directory. -/
def below (path : String) (tree : Tree) : Tree := { tree with root := TreePath.continued tree.root path }

/-- The text of a path of the store from the top of the tree. -/
def fullText (tree : Tree) (path : String) : String :=
  TreePath.continued tree.root (String.ofList (path.toList.dropWhile fun c => c == '/'))

/-- Put something at a place, or take it away. -/
def replace (place : Place) (node : Option Node) (tree : Tree) : Tree :=
  { tree with top := (Node.replace node place tree.top).getD tree.top }

/-- The size reported for a directory. -/
def directorySize : Nat := 4096

/-! ### Following paths -/

/-- Where a walk has come to: the names it followed with the directories that hold them, latest first, and what is
there. -/
structure Position where
  trail : List (String × Node)
  here : Option Node

/-- The place of a position. -/
def Position.place (position : Position) : Place := (position.trail.map Prod.fst).reverse

/-- A text can be a path. -/
def checkText (path text : String) : Except FileError Unit :=
  if text.toList.contains (Char.ofNat 0) then .error (.unusable path)
  else if TreePath.lengthBound ≤ text.utf8ByteSize then .error (.nameTooLong path)
  else .ok ()

/-- The names of the directory at a position. -/
def Position.entries (path : String) (position : Position) : Except FileError (List (String × Node)) :=
  match position.here with
  | none => .error (.missing path)
  | some (.file _) => .error (.notADirectory path)
  | some (.directory entries) => .ok entries

/-- Take one step from a directory; there need not be anything where it leads.  Above the top is the top. -/
def Position.step (path : String) (position : Position) (step : String) : Except FileError Position :=
  match position.entries path with
  | .error e => .error e
  | .ok entries =>
    if step = TreePath.upward then
      match position.trail with
      | [] => .ok position
      | (_, holder) :: trail => .ok ⟨trail, some holder⟩
    else if TreePath.nameLimit < step.utf8ByteSize then .error (.nameTooLong path)
    else .ok ⟨(step, .directory entries) :: position.trail, entries.lookup step⟩

/-- Take steps one after the other. -/
def Position.walk (path : String) (position : Position) : List String → Except FileError Position
  | [] => .ok position
  | first :: rest =>
    match position.step path first with
    | .error e => .error e
    | .ok position => position.walk path rest

/-- Take steps from the top. -/
def walk (tree : Tree) (path : String) (steps : List String) : Except FileError Position :=
  Position.walk path ⟨[], some tree.top⟩ steps

/-- The directory to which steps from the top lead. -/
def directory (tree : Tree) (path : String) (steps : List String) : Except FileError Position :=
  match tree.walk path steps with
  | .error e => .error e
  | .ok position => (position.entries path).map fun _ => position

/-- What a path leads to. -/
def resolve (tree : Tree) (path : String) : Except FileError Node := do
  let text := tree.fullText path
  checkText path text
  let position ← tree.walk path (TreePath.ofText text).steps
  match position.here with
  | none => .error (.missing path)
  | some (.directory entries) => .ok (.directory entries)
  | some (.file content) =>
    if (TreePath.ofText text).wantsDirectory then .error (.notADirectory path) else .ok (.file content)

/-! ### Reading -/

/-- The whole content of a file. -/
def read (tree : Tree) (path : String) : Except FileError Bytes :=
  match tree.resolve path with
  | .error e => .error e
  | .ok (.directory _) => .error (.isADirectory path)
  | .ok (.file content) => .ok content

/-- The number of bytes of a file. -/
def size (tree : Tree) (path : String) : Except FileError Nat :=
  match tree.resolve path with
  | .error e => .error e
  | .ok (.directory _) => .ok directorySize
  | .ok (.file content) => .ok content.length

/-! ### Writing -/

/-- The place for a new directory. -/
def freePlace (tree : Tree) (path : String) (steps : List String) : Except FileError Place := do
  let holder ← tree.directory path steps.dropLast
  match steps.getLast?.filter (fun step => step != TreePath.upward) with
  | none => .error (.alreadyExists path)
  | some name =>
    let position ← holder.step path name
    if position.here.isSome then .error (.alreadyExists path) else .ok position.place

/-- Create a directory. -/
def makeDirectory (path : String) (steps : List String) (tree : Tree) : Except FileError Unit × Tree :=
  match tree.freePlace path steps with
  | .error e => (.error e, tree)
  | .ok place => (.ok (), tree.replace place (some (.directory [])))

/-- A directory that cannot be created may exist already. -/
def acceptExisting (path : String) (steps : List String) :
    Except FileError Unit × Tree → Except FileError Unit × Tree
  | (.ok (), tree) => (.ok (), tree)
  | (.error e, tree) =>
    match tree.directory path steps with
    | .ok _ => (.ok (), tree)
    | .error _ => (.error e, tree)

/-- Create a directory and those on the way to it, given the steps to it from its end. -/
def makeDirectories (path : String) : List String → Tree → Except FileError Unit × Tree
  | [], tree => (.ok (), tree)
  | last :: above, tree =>
    let steps := (last :: above).reverse
    match tree.makeDirectory path steps with
    | (.error (.missing _), tree) =>
      match makeDirectories path above tree with
      | (.error e, tree) => (.error e, tree)
      | (.ok (), tree) => acceptExisting path steps (tree.makeDirectory path steps)
    | outcome => acceptExisting path steps outcome

/-- The place of a file to be written, and what it holds so far. -/
def filePlace (tree : Tree) (path : String) : Except FileError (Place × Bytes) := do
  let text := tree.fullText path
  checkText path text
  let target := TreePath.ofText text
  match target.name? with
  | none =>
    let _ ← tree.resolve path
    .error (.isADirectory path)
  | some name =>
    let holder ← tree.directory path target.above
    if target.wantsDirectory then .error (.isADirectory path)
    else
      let position ← holder.step path name
      match position.here with
      | some (.directory _) => .error (.isADirectory path)
      | some (.file old) => .ok (position.place, old)
      | none => .ok (position.place, [])

/-- Store the content made from what the file held before, creating the directories on the way. -/
def store (path : String) (content : Bytes → Bytes) (tree : Tree) : Except FileError Unit × Tree :=
  let text := tree.fullText path
  match checkText path (TreePath.holderText text) with
  | .error e => (.error e, tree)
  | .ok () =>
    match tree.makeDirectories path (TreePath.ofText text).steps.reverse.tail with
    | (.error e, tree) => (.error e, tree)
    | (.ok (), tree) =>
      match tree.filePlace path with
      | .error e => (.error e, tree)
      | .ok (place, old) => (.ok (), tree.replace place (some (.file (content old))))

/-- Create a file or replace its content. -/
def write (path : String) (content : Bytes) : Tree → Except FileError Unit × Tree :=
  store path (fun _ => content)

/-- Add bytes at the end of a file, creating it if needed. -/
def append (path : String) (content : Bytes) : Tree → Except FileError Unit × Tree :=
  store path (fun old => old ++ content)

/-! ### Moving -/

/-- A file can be moved to a position, where it replaces a file but no directory. -/
def checkFileMove (path : String) (source target : Position) : Except FileError Unit :=
  if source.place = target.place then .ok ()
  else if target.place.isPrefixOf source.place then .error (.directoryNotEmpty path)
  else
    match target.here with
    | some (.directory _) => .error (.isADirectory path)
    | _ => .ok ()

/-- A directory can be moved to a position outside it, where it replaces an empty directory but no file. -/
def checkDirectoryMove (path : String) (source target : Position) : Except FileError Unit :=
  if source.place = target.place then .ok ()
  else if source.place.isPrefixOf target.place then .error (.insideItself path)
  else
    match target.here with
    | none | some (.directory []) => .ok ()
    | some (.directory (_ :: _)) => .error (.directoryNotEmpty path)
    | some (.file _) => .error (.notADirectory path)

/-- What is moved, from where and to where. -/
def moveOf (tree : Tree) (source target : String) : Except FileError (Node × Place × Place) := do
  let sourceText := tree.fullText source
  let targetText := tree.fullText target
  if (sourceText ++ targetText).toList.contains (Char.ofNat 0) then .error (.unusable source)
  checkText source sourceText
  let sourcePath := TreePath.ofText sourceText
  let sourceHolder ← tree.directory source sourcePath.above
  checkText target targetText
  let targetPath := TreePath.ofText targetText
  let targetHolder ← tree.directory target targetPath.above
  match sourcePath.name?, targetPath.name? with
  | some sourceName, some targetName =>
    let old ← sourceHolder.step source sourceName
    match old.here with
    | none => .error (.missing source)
    | some node =>
      let new ← targetHolder.step target targetName
      match node with
      | .directory _ => checkDirectoryMove target old new
      | .file _ =>
        if sourcePath.wantsDirectory || targetPath.wantsDirectory then .error (.notADirectory target)
        else checkFileMove target old new
      .ok (node, old.place, new.place)
  | _, _ => .error (.busy source)

/-- Move a file or a directory; the directories that hold the two places have to exist. -/
def rename (source target : String) (tree : Tree) : Except FileError Unit × Tree :=
  match tree.moveOf source target with
  | .error e => (.error e, tree)
  | .ok (node, old, new) => (.ok (), (tree.replace old none).replace new (some node))

instance : FileStore Tree where
  read := read
  write := write
  append := append
  rename := rename
  size := size

end Tree

end Spacecraft
