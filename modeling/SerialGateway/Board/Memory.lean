/-!
# Word memory

What this module delivers: the memory through which the board's registers are
reached, as words of 32 bits at addresses that are multiples of four. The memory
is plain: a read gives the last value written and changes nothing, and a word
that was never written is zero (`read_write_self`, `read_write_of_ne`).

The written words are kept by rising address, which is also the order in which
`changesSince` reports them.
-/

set_option autoImplicit false

namespace SerialGateway

/-- The address of a word. -/
abbrev Address : Type := UInt32

/-- The contents of a word. -/
abbrev Word : Type := UInt32

/-- The word in which only bit `n` is set. -/
def Word.bit (n : UInt32) : Word := (1 : UInt32) <<< n

/-- A memory, given by the words that were written to. -/
structure Memory where
  /-- Addresses and contents, by rising address. -/
  cells : List (Address × Word) := []

namespace Memory

/-- The contents of the first cell at an address; zero if there is none. -/
def lookup (a : Address) : List (Address × Word) → Word
  | [] => 0
  | (b, v) :: rest => if b = a then v else lookup a rest

/-- The cells with one word replaced, or inserted in front of the first higher
address. -/
def insert (a : Address) (v : Word) : List (Address × Word) → List (Address × Word)
  | [] => [(a, v)]
  | (b, u) :: rest =>
      if a < b then (a, v) :: (b, u) :: rest
      else if b = a then (a, v) :: rest
      else (b, u) :: insert a v rest

/-- Read a word. -/
def read (m : Memory) (a : Address) : Word := lookup a m.cells

/-- Write a word. -/
def write (m : Memory) (a : Address) (v : Word) : Memory := ⟨insert a v m.cells⟩

/-- Read a word, change it, and write it back. -/
def modify (m : Memory) (a : Address) (f : Word → Word) : Memory := m.write a (f (m.read a))

/-- Set bits of a word and keep the others. -/
def setBits (m : Memory) (a : Address) (bits : Word) : Memory := m.modify a (· ||| bits)

/-- Clear bits of a word and keep the others. -/
def clearBits (m : Memory) (a : Address) (bits : Word) : Memory := m.modify a (· &&& ~~~bits)

/-- At least one of the bits of a word is set. -/
def anyBit (m : Memory) (a : Address) (bits : Word) : Bool := m.read a &&& bits != 0

/-- Write byte `place` of a word, counted from the low end, and keep the others. -/
def writeByte (m : Memory) (a : Address) (place : UInt32) (byte : UInt8) : Memory :=
  let shift := 8 * place
  m.modify a fun v => (v &&& ~~~((255 : UInt32) <<< shift)) ||| (byte.toUInt32 <<< shift)

/-- The words of `m` that differ from `old`, by rising address. -/
def changesSince (old m : Memory) : List (Address × Word) :=
  m.cells.filter fun (a, v) => old.read a != v

theorem lookup_insert_self (a : Address) (v : Word) (cells : List (Address × Word)) :
    lookup a (insert a v cells) = v := by
  induction cells with
  | nil => simp [insert, lookup]
  | cons cell rest ih =>
      rcases cell with ⟨b, u⟩
      rw [insert]
      split
      · simp [lookup]
      · split
        · simp [lookup]
        · next hb => simp [lookup, hb, ih]

theorem lookup_insert_of_ne {a c : Address} (h : c ≠ a) (v : Word)
    (cells : List (Address × Word)) : lookup c (insert a v cells) = lookup c cells := by
  induction cells with
  | nil => simp [insert, lookup, Ne.symm h]
  | cons cell rest ih =>
      rcases cell with ⟨b, u⟩
      rw [insert]
      split
      · simp [lookup, Ne.symm h]
      · split
        · next hb => subst hb; simp [lookup, Ne.symm h]
        · simp [lookup, ih]

/-- A read gives the last value written. -/
@[simp] theorem read_write_self (m : Memory) (a : Address) (v : Word) :
    (m.write a v).read a = v :=
  lookup_insert_self a v m.cells

/-- A write changes no other word. -/
theorem read_write_of_ne (m : Memory) {a c : Address} (h : c ≠ a) (v : Word) :
    (m.write a v).read c = m.read c :=
  lookup_insert_of_ne h v m.cells

end Memory

end SerialGateway
