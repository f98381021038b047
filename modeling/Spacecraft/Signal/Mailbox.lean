/-!
# A mailbox of one item

A writer never waits: an item that nobody took yet is replaced.  After closing, a pending item can still be taken;
only then do readers learn that nothing more will come.
-/

namespace Spacecraft

/-- At most one pending item, and whether the box is closed. -/
structure Mailbox (α : Type) where
  item : Option α
  closed : Bool
deriving DecidableEq

namespace Mailbox

variable {α : Type}

/-- An open mailbox without an item. -/
def empty : Mailbox α := ⟨none, false⟩

/-- Put an item in, replacing a pending one. -/
def overwrite (a : α) (box : Mailbox α) : Mailbox α := { box with item := some a }

/-- Close the box; a pending item stays. -/
def close (box : Mailbox α) : Mailbox α := { box with closed := true }

/-- What a reader meets. -/
inductive Delivery (α : Type) where
  | item (a : α)
  /-- Nothing is pending and nothing will come. -/
  | closed
  /-- Nothing is pending yet. -/
  | waiting
deriving DecidableEq

/-- What a reader would meet now. -/
def peek (box : Mailbox α) : Delivery α :=
  match box.item with
  | some a => .item a
  | none => if box.closed then .closed else .waiting

/-- The box after a reader came by. -/
def drain (box : Mailbox α) : Mailbox α := { box with item := none }

/-- Take the pending item, if there is one. -/
def take (box : Mailbox α) : Option α × Mailbox α := (box.item, box.drain)

/-- What a reader gets who waits while something is done to the box. -/
def takeAcross (change : Mailbox α → Mailbox α) (box : Mailbox α) : Option α × Mailbox α :=
  match box.peek with
  | .item a => (some a, change box.drain)
  | .closed => (none, change box)
  | .waiting => (change box).take

@[simp]
theorem take_overwrite (a : α) (box : Mailbox α) : (box.overwrite a).take = (some a, box.drain) := rfl

theorem peek_eq_waiting_iff (box : Mailbox α) : box.peek = .waiting ↔ box.item = none ∧ box.closed = false := by
  unfold peek
  split <;> simp_all

end Mailbox

end Spacecraft
