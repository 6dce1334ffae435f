import SerialGateway.Bench.Devices
import SerialGateway.Ring.Lemmas
import SerialGateway.Ring.Queue

/-!
# Receive rings are drop-oldest queues

A ring works with two positions over two laps of its storage, a drop-oldest queue with a list of
bytes. Both serve the same requests, and from the empty state on they give the same replies to every
sequence of requests (`serve_eq_dropOldest`): the queue is all that can be seen of the ring. The
relation that a request keeps is `Mirrors`.

The positions are natural numbers here. On a capacity `cap` with `4 * cap - 1` in a word, every
number that an operation forms from them fits a word too (`FitsWord`), so nothing would change if
they were words.
-/

set_option autoImplicit false

namespace SerialGateway

namespace Ring

variable {cap : Nat}

/-- What is asked of a ring. A flush comes with the bytes that the receiver holds. -/
inductive Request where
  | push (byte : UInt8)
  | pop
  | peek (offset : UInt64)
  | available
  | overflows
  | flush (held : Bench.ByteQueue)

/-- What is answered: whether a pushed byte fitted, a byte that was asked for, a count, or what a
flush has left in the receiver. -/
inductive Reply where
  | fitted (fits : Bool)
  | found (byte : Option UInt8)
  | counted (n : Nat)
  | drained (left : Bench.ByteQueue)
  deriving DecidableEq

/-- One request to a ring. -/
def answer : Request → Ring cap → Reply × Ring cap
  | .push byte, r => (.fitted (r.push byte).1, (r.push byte).2)
  | .pop, r => (.found r.pop.1, r.pop.2)
  | .peek offset, r => (.found (r.peek offset.toNat), r)
  | .available, r => (.counted r.available, r)
  | .overflows, r => (.counted r.overflows.toNat, r)
  | .flush held, r =>
      let flushed := r.flush Bench.ByteQueue.receiver held
      (.drained flushed.2, flushed.1)

/-- The replies to a sequence of requests, and the state after it. -/
def serve {S : Type} (answer : Request → S → Reply × S) : List Request → S → List Reply × S
  | [], s => ([], s)
  | request :: rest, s =>
      let first := answer request s
      let later := serve answer rest first.2
      (first.1 :: later.1, later.2)

end Ring

/-- One request to a queue. A flush leaves nothing, neither here nor in the receiver. -/
def DropOldest.answer {cap : Nat} :
    Ring.Request → DropOldest cap → Ring.Reply × DropOldest cap
  | .push byte, q => (.fitted (q.push byte).1, (q.push byte).2)
  | .pop, q => (.found q.pop.1, q.pop.2)
  | .peek offset, q => (.found (q.peek offset.toNat), q)
  | .available, q => (.counted q.available, q)
  | .overflows, q => (.counted q.overflows, q)
  | .flush _, _ => (.drained [], .empty cap)

namespace Ring

variable {cap : Nat}

/-! ## The relation between a ring and its queue -/

/-- A ring in range that shows what the queue holds. -/
structure Mirrors (r : Ring cap) (q : DropOldest cap) : Prop where
  items : r.toList = q.items
  overflows : r.overflows.toNat = q.overflows
  inRange : r.InRange

theorem mirrors_empty (h : 0 < cap) : Mirrors (empty cap h) (DropOldest.empty cap) where
  items := toList_clear (empty cap h)
  overflows := rfl
  inRange := inRange_empty h

/-- A push counts an overflow exactly when the ring is full. -/
theorem overflows_push (r : Ring cap) (byte : UInt8) :
    (r.push byte).2.overflows =
      if r.toList.length < cap then r.overflows else Counter.bump8 r.overflows := by
  rw [length_toList]
  by_cases h : r.available < cap
  · rw [push, if_pos h, if_pos h]
    rfl
  · rw [push, if_neg h, if_neg h]
    rfl

theorem mirrors_push {r : Ring cap} {q : DropOldest cap} (h : Mirrors r q) (byte : UInt8) :
    (r.push byte).1 = (q.push byte).1 ∧ Mirrors (r.push byte).2 (q.push byte).2 := by
  have hfits := push_fst r byte
  have hlist := toList_push h.inRange byte
  have hcount := overflows_push r byte
  rw [h.items] at hfits hlist hcount
  by_cases hlt : q.items.length < cap
  · rw [if_pos hlt] at hlist hcount
    simp only [DropOldest.push, if_pos hlt]
    refine ⟨by simpa [hlt] using hfits, hlist, ?_, inRange_push h.inRange byte⟩
    rw [hcount]
    exact h.overflows
  · rw [if_neg hlt] at hlist hcount
    simp only [DropOldest.push, if_neg hlt]
    refine ⟨by simpa [hlt] using hfits, hlist, ?_, inRange_push h.inRange byte⟩
    rw [hcount, Counter.toNat_bump8, h.overflows]

theorem mirrors_pop {r : Ring cap} {q : DropOldest cap} (h : Mirrors r q) :
    r.pop.1 = q.pop.1 ∧ Mirrors r.pop.2 q.pop.2 := by
  have hbyte := pop_fst h.inRange
  have hlist := toList_pop h.inRange
  have hcount : r.pop.2.overflows = r.overflows := by
    by_cases he : r.writePos = r.readPos
    · rw [pop, if_pos he]
    · rw [pop, if_neg he]
  rw [h.items] at hbyte hlist
  refine ⟨hbyte, hlist, ?_, inRange_pop h.inRange⟩
  rw [hcount]
  exact h.overflows

/-- One request is answered alike, and leaves the ring and the queue in step. -/
theorem mirrors_answer {r : Ring cap} {q : DropOldest cap} (h : Mirrors r q) (request : Request) :
    (answer request r).1 = (q.answer request).1 ∧
      Mirrors (answer request r).2 (q.answer request).2 := by
  cases request with
  | push byte =>
      obtain ⟨hfits, hnext⟩ := mirrors_push h byte
      exact ⟨congrArg Reply.fitted hfits, hnext⟩
  | pop =>
      obtain ⟨hbyte, hnext⟩ := mirrors_pop h
      exact ⟨congrArg Reply.found hbyte, hnext⟩
  | peek offset =>
      refine ⟨congrArg Reply.found ?_, h⟩
      rw [peek_eq_getElem?, h.items]
      rfl
  | available =>
      refine ⟨congrArg Reply.counted ?_, h⟩
      rw [← length_toList, h.items]
      rfl
  | overflows => exact ⟨congrArg Reply.counted h.overflows, h⟩
  | flush held =>
      refine ⟨congrArg Reply.drained ?_, ?_⟩
      · rw [flush_snd, Bench.ByteQueue.drain_receiver]
      · exact ⟨toList_clear _, rfl, inRange_clear _⟩

theorem mirrors_serve (requests : List Request) {r : Ring cap} {q : DropOldest cap}
    (h : Mirrors r q) :
    (serve answer requests r).1 = (serve DropOldest.answer requests q).1 ∧
      Mirrors (serve answer requests r).2 (serve DropOldest.answer requests q).2 := by
  induction requests generalizing r q with
  | nil => exact ⟨rfl, h⟩
  | cons request rest ih =>
      obtain ⟨hfirst, hnext⟩ := mirrors_answer h request
      obtain ⟨hlater, hend⟩ := ih hnext
      refine ⟨?_, hend⟩
      simp only [serve]
      rw [hfirst, hlater]

/-! ## Numbers that fit a word -/

/-- The largest 64-bit number. -/
def wordMax : Nat := UInt64.size - 1

/-- Every sum, difference and product that an operation forms from the positions of a ring lies in
the range of a word. -/
structure FitsWord (r : Ring cap) : Prop where
  laps_le : laps cap ≤ wordMax
  sum_le : r.writePos + laps cap ≤ wordMax
  read_le_sum : r.readPos ≤ r.writePos + laps cap
  write_succ_le : r.writePos + 1 ≤ wordMax
  read_succ_le : r.readPos + 1 ≤ wordMax
  read_add_le : ∀ offset, offset < r.available → r.readPos + offset ≤ wordMax

theorem fitsWord_of_inRange {r : Ring cap} (h : r.InRange) (hword : 4 * cap - 1 ≤ wordMax) :
    r.FitsWord := by
  have hcap := r.cap_pos
  have hw : r.writePos < 2 * cap := h.write_lt
  have hr : r.readPos < 2 * cap := h.read_lt
  have hle := h.available_le
  have hlaps : laps cap = 2 * cap := rfl
  constructor
  case read_add_le =>
    intro offset hoffset
    omega
  all_goals omega

/-! ## The ring is its queue -/

/-- From the empty state on, a ring replies to every sequence of requests as the drop-oldest queue
of its capacity does. At the end of the sequence, which is any reachable state, it shows what the
queue holds, its positions lie in their two laps, every slot it would touch is one of its storage,
and its arithmetic stays within a word. -/
theorem serve_eq_dropOldest (hcap : 0 < cap) (hword : 4 * cap - 1 ≤ wordMax)
    (requests : List Request) :
    let ring := serve answer requests (empty cap hcap)
    let queue := serve DropOldest.answer requests (DropOldest.empty cap)
    ring.1 = queue.1 ∧
      ring.2.toList = queue.2.items ∧ ring.2.overflows.toNat = queue.2.overflows ∧
      queue.2.items.length ≤ cap ∧
      ring.2.writePos < 2 * cap ∧ ring.2.readPos < 2 * cap ∧
      ring.2.writePos % cap < cap ∧ (∀ offset, (ring.2.readPos + offset) % cap < cap) ∧
      ring.2.FitsWord := by
  intro ring queue
  obtain ⟨hreplies, hmirrors⟩ := mirrors_serve requests (mirrors_empty hcap)
  have hlength : queue.2.items.length ≤ cap := by
    rw [← hmirrors.items, length_toList]
    exact hmirrors.inRange.available_le
  exact ⟨hreplies, hmirrors.items, hmirrors.overflows, hlength, hmirrors.inRange.write_lt,
    hmirrors.inRange.read_lt, Nat.mod_lt _ hcap, fun _ => Nat.mod_lt _ hcap,
    fitsWord_of_inRange hmirrors.inRange hword⟩

/-- Three bytes through a ring of two: the third one takes the place of the first. -/
theorem serve_three_bytes :
    (0 < 2 ∧ 4 * 2 - 1 ≤ wordMax) ∧
      (serve answer [.push 1, .push 2, .push 3, .peek 1, .pop, .overflows, .flush [(7, .clean)]]
        (empty 2 (by decide))).1 =
      [.fitted true, .fitted true, .fitted false, .found (some 3), .found (some 2), .counted 1,
        .drained []] :=
  ⟨by decide, (serve_eq_dropOldest (by decide) (by decide) _).1.trans (by decide)⟩

end Ring

end SerialGateway
