/-!
# Event bits

A word of 32 flags that threads set, clear and wait for.  A wait reports the word it saw; it clears its bits only if
it was told to and its condition held.
-/

namespace Spacecraft

namespace EventWord

/-- What a waiting thread asks of the bits in its mask. -/
inductive Condition where
  /-- At least one of them is set. -/
  | any
  /-- All of them are set. -/
  | all
deriving DecidableEq

/-- The bits satisfy a waiting thread. -/
def satisfies (word mask : UInt32) : Condition → Bool
  | .any => word &&& mask != 0
  | .all => word &&& mask == mask

/-- The word with more bits set. -/
def set (bits word : UInt32) : UInt32 := word ||| bits

/-- The word with bits taken away. -/
def clear (bits word : UInt32) : UInt32 := word &&& ~~~ bits

/-- The word after a wait saw it. -/
def leave (mask : UInt32) (condition : Condition) (clearing : Bool) (word : UInt32) : UInt32 :=
  if clearing && satisfies word mask condition then clear mask word else word

/-- A wait that does not block, or whose time runs out: what it saw, and the word afterwards. -/
def wait (mask : UInt32) (condition : Condition) (clearing : Bool) (word : UInt32) : UInt32 × UInt32 :=
  (word, leave mask condition clearing word)

/-- A wait during which bits are set: the word after setting, what the wait saw, and the word afterwards. -/
def waitAcross (mask : UInt32) (condition : Condition) (clearing : Bool) (bits word : UInt32) :
    UInt32 × UInt32 × UInt32 :=
  if satisfies word mask condition then
    let after := set bits (leave mask condition clearing word)
    (after, word, after)
  else
    let after := set bits word
    (after, after, leave mask condition clearing after)

end EventWord

end Spacecraft
