import SerialGateway.Counter
import SerialGateway.Device.Line

/-!
# Receive rings

What this module delivers: a byte buffer of fixed capacity between a receive
interrupt and the foreground. The producer never waits: a byte that arrives at
a full ring overwrites the oldest unread one, and the overwritten bytes are
counted.

Both positions run over two laps of the storage and index it modulo the
capacity. That tells a full ring (positions one lap apart) from an empty one
(positions equal) without a stored length.
-/

set_option autoImplicit false

namespace SerialGateway

/-- A ring of `cap` bytes. -/
structure Ring (cap : Nat) where
  /-- The bytes; a position indexes it modulo `cap`. -/
  storage : Vector UInt8 cap
  /-- Where the next byte goes. -/
  writePos : Nat
  /-- Where the oldest unread byte is. -/
  readPos : Nat
  /-- How many unread bytes were overwritten since the last flush; 255 stays. -/
  overflows : UInt8
  cap_pos : 0 < cap

namespace Ring

variable {cap : Nat}

/-- A ring with no unread byte. -/
def empty (cap : Nat) (h : 0 < cap) : Ring cap where
  storage := Vector.replicate cap 0
  writePos := 0
  readPos := 0
  overflows := 0
  cap_pos := h

/-- Two laps of the storage: the range of a position. -/
def laps (cap : Nat) : Nat := 2 * cap

/-- The position after `pos`. -/
def advance (cap pos : Nat) : Nat := (pos + 1) % laps cap

/-- The write position seen from the read position, before it is brought back
into range: one range is added so that the difference is never negative. -/
def lead (r : Ring cap) : Nat := r.writePos + laps cap - r.readPos

/-- How many bytes wait to be read. -/
def available (r : Ring cap) : Nat := r.lead % laps cap

/-- The byte stored at a position. -/
def byteAt (r : Ring cap) (pos : Nat) : UInt8 :=
  have _ := Nat.mod_lt pos r.cap_pos
  r.storage[pos % cap]

/-- Store a byte at the write position. -/
def store (r : Ring cap) (byte : UInt8) : Ring cap :=
  { r with
    storage := r.storage.set (r.writePos % cap) byte (Nat.mod_lt _ r.cap_pos)
    writePos := advance cap r.writePos }

/-- Give up the oldest unread byte and count it. -/
def giveUp (r : Ring cap) : Ring cap :=
  { r with
    readPos := advance cap r.readPos
    overflows := Counter.bump8 r.overflows }

/-- Store a received byte. The answer is `false` if the ring was full, and the
oldest unread byte was lost. -/
def push (r : Ring cap) (byte : UInt8) : Bool × Ring cap :=
  if r.available < cap then (true, r.store byte) else (false, r.giveUp.store byte)

/-- Take the oldest unread byte. -/
def pop (r : Ring cap) : Option UInt8 × Ring cap :=
  if r.writePos = r.readPos then (none, r)
  else (some (r.byteAt r.readPos), { r with readPos := advance cap r.readPos })

/-- The unread byte `offset` places behind the oldest one, which stays unread. -/
def peek (r : Ring cap) (offset : Nat) : Option UInt8 :=
  if offset < r.available then some (r.byteAt (r.readPos + offset)) else none

/-- Forget the unread bytes and the overflow count. -/
def clear (r : Ring cap) : Ring cap :=
  { r with writePos := 0, readPos := 0, overflows := 0 }

/-- Take waiting bytes, at most `n` of them, one after another into the first slot
of the storage. -/
def discard {D : Type} (rx : Receiver D) : Nat → Ring cap → D → Ring cap × D
  | 0, r, d => (r, d)
  | n + 1, r, d =>
      if rx.pending d then
        let taken := rx.take d
        discard rx n { r with storage := r.storage.set 0 taken.1 r.cap_pos } taken.2
      else (r, d)

/-- Forget the unread bytes and the overflow count, and discard what the receiver
still holds, so that no earlier byte shows up afterwards. That takes a receiver
that runs dry: with any other one the discarding is cut off. -/
def flush {D : Type} (rx : Receiver D) (r : Ring cap) (d : D) : Ring cap × D :=
  let emptied := discard rx (rx.backlog d) r d
  (emptied.1.clear, emptied.2)

/-- A flush drains the receiver. -/
theorem flush_snd {D : Type} (rx : Receiver D) (r : Ring cap) (d : D) :
    (r.flush rx d).2 = rx.drain d := by
  suffices h : ∀ n (r : Ring cap) d, (discard rx n r d).2 = rx.drop n d from h (rx.backlog d) r d
  intro n
  induction n with
  | zero => exact fun _ _ => rfl
  | succ n ih =>
      intro r d
      simp only [discard, Receiver.drop]
      split
      · exact ih _ _
      · rfl

/-- The unread bytes, oldest first. -/
def toList (r : Ring cap) : List UInt8 :=
  (List.range r.available).map fun i => r.byteAt (r.readPos + i)

@[simp] theorem length_toList (r : Ring cap) : r.toList.length = r.available := by
  simp [toList]

/-- Looking ahead reads the list of unread bytes. -/
theorem peek_eq_getElem? (r : Ring cap) (offset : Nat) : r.peek offset = r.toList[offset]? := by
  unfold peek toList
  split
  · next h => simp [h]
  · next h => simp [Nat.le_of_not_lt h]

/-- The positions of every ring that was used only through its operations: both
lie in their range, and the unread bytes fit the storage. -/
structure InRange (r : Ring cap) : Prop where
  write_lt : r.writePos < laps cap
  read_lt : r.readPos < laps cap
  available_le : r.available ≤ cap

theorem advance_lt (h : 0 < cap) (pos : Nat) : advance cap pos < laps cap :=
  Nat.mod_lt _ (by unfold laps; omega)

theorem inRange_empty (h : 0 < cap) : (empty cap h).InRange where
  write_lt := by simp [empty, laps, h]
  read_lt := by simp [empty, laps, h]
  available_le := by simp [available, lead, empty]

end Ring

end SerialGateway
