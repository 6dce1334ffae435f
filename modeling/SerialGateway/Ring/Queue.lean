/-!
# Drop-oldest queues

What this module delivers: the queue that a receive ring behaves as, with the
unread bytes as a plain list and no positions. It is the yardstick for the ring
and is not run.
-/

set_option autoImplicit false

namespace SerialGateway

/-- A queue of at most `cap` bytes, oldest first, that gives up its oldest byte
when it is full. -/
structure DropOldest (cap : Nat) where
  /-- The unread bytes, oldest first. -/
  items : List UInt8
  /-- How many bytes were given up since the last flush; 255 stays. -/
  overflows : Nat

namespace DropOldest

variable {cap : Nat}

/-- No unread byte. -/
def empty (cap : Nat) : DropOldest cap := ⟨[], 0⟩

/-- Append a byte; a full queue first gives up its oldest one. -/
def push (q : DropOldest cap) (byte : UInt8) : Bool × DropOldest cap :=
  if q.items.length < cap then (true, { q with items := q.items ++ [byte] })
  else (false, ⟨q.items.tail ++ [byte], min 255 (q.overflows + 1)⟩)

/-- Take the oldest byte. -/
def pop (q : DropOldest cap) : Option UInt8 × DropOldest cap :=
  (q.items.head?, { q with items := q.items.tail })

/-- The byte `offset` places behind the oldest one. -/
def peek (q : DropOldest cap) (offset : Nat) : Option UInt8 := q.items[offset]?

/-- How many bytes wait. -/
def available (q : DropOldest cap) : Nat := q.items.length

end DropOldest

end SerialGateway
