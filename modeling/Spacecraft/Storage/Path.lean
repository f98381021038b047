/-!
# Paths in a tree

A path is a row of steps between slashes.  A step is a name or `..`, which leads up; empty steps and single dots lead
nowhere.  After a slash or a dot only a directory can be meant, and only what a path names in its last step can be
created or moved.
-/

namespace Spacecraft

/-- What a path ends with. -/
inductive PathEnd where
  | step
  | slash
  | dot
deriving DecidableEq, Repr

/-- A path as a row of steps. -/
structure TreePath where
  steps : List String
  ending : PathEnd
deriving DecidableEq, Repr

namespace TreePath

/-- The step that leads up. -/
def upward : String := ".."

/-- The most bytes a name can have. -/
def nameLimit : Nat := 255

/-- A path has fewer bytes than this. -/
def lengthBound : Nat := 4096

/-- Pieces between slashes that are no steps. -/
def isIdle (piece : String) : Bool := piece == "" || piece == "."

/-- The path that a text denotes. -/
def ofText (text : String) : TreePath :=
  let pieces := text.splitOn "/"
  let marks := pieces.filter (fun piece => piece != "")
  { steps := pieces.filter (fun piece => !isIdle piece)
    ending :=
      if marks.getLast? = some "." then .dot
      else if pieces.getLast? = some "" then .slash
      else .step }

/-- The text of a path that goes on from another, with a slash between the two. -/
def continued (base path : String) : String :=
  if base.toList.getLast? = some '/' then base ++ path else base ++ "/" ++ path

/-- The text of the path to the directory that holds the last step of a path. -/
def holderText (text : String) : String :=
  String.intercalate "/" ((((text.splitOn "/").reverse.dropWhile isIdle).tail).dropWhile isIdle).reverse

/-- The steps to the directory in which the end of a path is looked up. -/
def above (path : TreePath) : List String :=
  if path.ending = .dot then path.steps else path.steps.dropLast

/-- The name in the last step, if it is one. -/
def name? (path : TreePath) : Option String :=
  if path.ending = .dot then none else path.steps.getLast?.filter (fun step => step != upward)

/-- Only a directory can be meant. -/
def wantsDirectory (path : TreePath) : Bool := path.ending != .step

end TreePath

end Spacecraft
