/-!
# The path in a request target

A target is a path from the root, or an absolute address of a scheme, an authority and a path, or an authority alone,
which has no path.  The path ends where a query or a fragment begins.
-/

namespace Spacecraft

namespace RequestTarget

/-- A character that can stand in a scheme. -/
def isSchemeChar (c : Char) : Bool := c.isAlphanum || c == '+' || c == '-' || c == '.' || c == '~'

/-- A query or a fragment begins. -/
def endsPath (c : Char) : Bool := c == '?' || c == '#'

/-- An authority ends. -/
def endsAuthority (c : Char) : Bool := c == '/' || endsPath c

/-- What follows the scheme of an absolute address. -/
def afterScheme? (target : List Char) : Option (List Char) :=
  match target.dropWhile isSchemeChar with
  | ':' :: '/' :: '/' :: rest => some rest
  | _ => none

/-- The path that begins a text. -/
def leadingPath (text : List Char) : List Char := text.takeWhile fun c => !endsPath c

/-- The path of a target, character by character; an absolute address without a path means its root. -/
def pathChars (target : List Char) : List Char :=
  if target.head? = some '/' then leadingPath target
  else
    match afterScheme? target with
    | none => []
    | some rest =>
      match leadingPath (rest.dropWhile fun c => !endsAuthority c) with
      | [] => ['/']
      | path => path

/-- The path of a target. -/
def path (target : String) : String := String.ofList (pathChars target.toList)

end RequestTarget

end Spacecraft
