import Mathlib.Algebra.BigOperators.Intervals
import SerialGateway.Bench.Transmitter
import SerialGateway.Console.Writer

/-!
# Console output arrives

The console writes by waiting: it polls the transmitter until that is ready, and hands over one
byte. What can go wrong is a byte that is lost, sent twice or sent early, and a wait that does not
end; each may depend on how long the transmitter is busy before which byte. Here the transmitter is
the one with a schedule, and the schedule is arbitrary.

The proof has two halves. On any transmitter, whatever is put out is the writing of one list of
bytes (`Console.putAll_eq_writeBytes`), and writing is one loop, of which a `Console.turn` is a
round and which comes to an end (`Console.exists_iterate_turn`). On the transmitter with a
schedule, the record of what happens on the line is a function of the schedule and the bytes alone
(`Bench.Scheduled.writeBytes_eq`), and everything asked about the line is read off that record.
`Console.output_complete` puts the halves together.
-/

set_option autoImplicit false

namespace SerialGateway

/-! ## What is put out -/

namespace Console

/-- Something the console can be asked to put out. -/
inductive Output where
  | byte (value : UInt8)
  | bytes (values : List UInt8)
  | newline
  | text (characters : String)

namespace Output

/-- The bytes that are to appear on the line: line feed and carriage return for a line break, and
each character of a text in its UTF-8 encoding. -/
def payload : Output → List UInt8
  | byte value => [value]
  | bytes values => values
  | newline => [10, 13]
  | text characters => characters.toList.flatMap String.utf8EncodeChar

variable {T : Type} [Transmitter T]

/-- The console puts something out. -/
def put (t : T) : Output → T
  | byte value => writeByte t value
  | bytes values => writeBytes t values
  | newline => Console.newline t
  | text characters => writeText t characters

end Output

/-- The bytes of several outputs, in order. -/
def payloads (outputs : List Output) : List UInt8 := outputs.flatMap Output.payload

/-! ### The bytes of a text -/

/-- The loop that lists a byte array keeps what it has in `seen`, latest first. -/
theorem listing_eq (bs : ByteArray) (i : Nat) (seen : List UInt8) :
    ByteArray.toList.loop bs i seen = seen.reverse ++ bs.data.toList.drop i := by
  induction hleft : bs.size - i generalizing i seen with
  | zero =>
      have hpast : bs.data.toList.drop i = [] := by simpa using Nat.le_of_sub_eq_zero hleft
      rw [ByteArray.toList.loop, if_neg (by omega), hpast, List.append_nil]
  | succ n ih =>
      -- the next byte goes from the rest of the array to the front of what was seen
      have hi : i < bs.size := by omega
      have hnext : bs.data.toList.drop i = bs.get! i :: bs.data.toList.drop (i + 1) := by
        rw [List.drop_eq_getElem_cons (by simpa using hi)]
        simp [ByteArray.get!, hi]
      rw [ByteArray.toList.loop, if_pos hi, ih (i + 1) (bs.get! i :: seen) (by omega), hnext]
      simp

theorem toList_toUTF8 (text : String) :
    text.toUTF8.toList = text.toList.flatMap String.utf8EncodeChar := by
  have hdata : text.toUTF8.toList = text.toUTF8.data.toList := by
    simp [ByteArray.toList, listing_eq]
  rw [hdata, String.toUTF8_eq_toByteArray, ← String.utf8Encode_toList, List.utf8Encode,
    List.toList_data_toByteArray]

section AnyTransmitter

variable {T : Type} [Transmitter T]

/-- The console puts out one thing after another. -/
def putAll (t : T) (outputs : List Output) : T := outputs.foldl Output.put t

theorem writeBytes_append (t : T) (xs ys : List UInt8) :
    writeBytes t (xs ++ ys) = writeBytes (writeBytes t xs) ys :=
  List.foldl_append

theorem put_eq_writeBytes (t : T) (output : Output) :
    output.put t = writeBytes t output.payload := by
  cases output with
  | byte value => rfl
  | bytes values => rfl
  | newline => rfl
  | text characters => exact congrArg (writeBytes t) (toList_toUTF8 characters)

theorem putAll_eq_writeBytes (t : T) (outputs : List Output) :
    putAll t outputs = writeBytes t (payloads outputs) := by
  induction outputs generalizing t with
  | nil => rfl
  | cons output rest ih =>
      have hrest : putAll t (output :: rest) = putAll (output.put t) rest := rfl
      rw [hrest, ih, put_eq_writeBytes, ← writeBytes_append]
      rfl

/-! ## The loop that writes -/

/-- One round of the loop: poll, and hand over the next byte if the transmitter takes it. With no
byte left nothing is polled. -/
def turn : T × List UInt8 → T × List UInt8
  | (t, []) => (t, [])
  | (t, byte :: rest) =>
      if Transmitter.ready t then (Transmitter.send byte (Transmitter.poll t), rest)
      else (Transmitter.poll t, byte :: rest)

theorem turn_of_ready {t : T} (h : Transmitter.ready t = true) (byte : UInt8)
    (rest : List UInt8) : turn (t, byte :: rest) = (writeByte t byte, rest) := by
  unfold turn writeByte awaitReady
  simp [h]

theorem turn_of_busy {t : T} (h : Transmitter.ready t = false) (byte : UInt8)
    (rest : List UInt8) : turn (t, byte :: rest) = (Transmitter.poll t, byte :: rest) := by
  simp [turn, h]

theorem writeByte_poll {t : T} (h : Transmitter.ready t = false) (byte : UInt8) :
    writeByte (Transmitter.poll t) byte = writeByte t byte := by
  unfold writeByte
  conv_rhs => unfold awaitReady
  simp [h]

theorem exists_iterate_turn_byte (t : T) (byte : UInt8) (rest : List UInt8) :
    ∃ n, turn^[n] (t, byte :: rest) = (writeByte t byte, rest) := by
  -- a refused poll leaves less patience
  induction hpatience : Transmitter.patience t using Nat.strong_induction_on generalizing t with
  | _ patience ih =>
      cases hready : Transmitter.ready t with
      | true => exact ⟨1, turn_of_ready hready byte rest⟩
      | false =>
          have hless := Transmitter.patience_poll t hready
          rw [hpatience] at hless
          obtain ⟨n, hn⟩ := ih _ hless (Transmitter.poll t) rfl
          refine ⟨n + 1, ?_⟩
          rw [Function.iterate_succ_apply, turn_of_busy hready, hn, writeByte_poll hready]

/-- On any transmitter the loop comes to an end, and has then written its bytes. -/
theorem exists_iterate_turn (t : T) (bytes : List UInt8) :
    ∃ n, turn^[n] (t, bytes) = (writeBytes t bytes, []) := by
  induction bytes generalizing t with
  | nil => exact ⟨0, rfl⟩
  | cons byte rest ih =>
      obtain ⟨n, hn⟩ := exists_iterate_turn_byte t byte rest
      obtain ⟨k, hk⟩ := ih (writeByte t byte)
      refine ⟨k + n, ?_⟩
      rw [Function.iterate_add_apply, hn, hk]
      rfl

theorem iterate_turn_nil (t : T) (n : Nat) : turn^[n] (t, []) = (t, []) :=
  Function.iterate_fixed rfl n

end AnyTransmitter

end Console

/-! ## A transmitter with a schedule -/

namespace Bench

/-- Each byte of the record was handed over to a ready transmitter, right after a poll that said
so. -/
def Prompt (record : List TransmitStep) : Prop :=
  ∀ before value ready after, record = before ++ .byte value ready :: after →
    ready = true ∧ ∃ earlier, before = earlier ++ [.poll true]

namespace Prompt

theorem nil : Prompt [] := by
  intro before value ready after h
  simp at h

theorem append {xs ys : List TransmitStep} (hxs : Prompt xs) (hys : Prompt ys) :
    Prompt (xs ++ ys) := by
  intro before value ready after h
  rcases List.append_eq_append_iff.mp h with ⟨mid, rfl, hmid⟩ | ⟨mid, rfl, hmid⟩
  · obtain ⟨hready, earlier, rfl⟩ := hys mid value ready after hmid
    exact ⟨hready, xs ++ earlier, by simp⟩
  · -- the byte lies in `xs`, or opens `ys`, where no poll would stand before it
    cases mid with
    | nil =>
        obtain ⟨hready, earlier, hearlier⟩ := hys [] value ready after (by simpa using hmid.symm)
        simp at hearlier
    | cons step mid =>
        obtain ⟨rfl, -⟩ : TransmitStep.byte value ready = step ∧ after = mid ++ ys := by
          simpa using hmid
        exact hxs before value ready mid rfl

theorem busy (n : Nat) : Prompt (List.replicate n (.poll false)) := by
  intro before value ready after h
  have hmem : TransmitStep.byte value ready ∈ List.replicate n (TransmitStep.poll false) := by
    simp [h]
  simp [List.mem_replicate] at hmem

theorem handover (value : UInt8) : Prompt [.poll true, .byte value true] := by
  intro before value' ready after h
  rcases before with _ | ⟨first, _ | ⟨second, before⟩⟩
  · simp at h
  · obtain ⟨rfl, ⟨rfl, rfl⟩, rfl⟩ : TransmitStep.poll true = first ∧
        (value = value' ∧ true = ready) ∧ [] = after := by simpa using h
    exact ⟨rfl, [], rfl⟩
  · simp at h

end Prompt

namespace Scheduled

/-- The record of one byte: the refused polls, the poll that is granted, the byte. -/
def transmission (refusals : Nat) (value : UInt8) : List TransmitStep :=
  List.replicate refusals (.poll false) ++ [.poll true, .byte value true]

/-- The record of some bytes, of which the first is byte number `k`. -/
def transmissions (busy : Nat → Nat) : Nat → List UInt8 → List TransmitStep
  | _, [] => []
  | k, value :: rest => transmission (busy k) value ++ transmissions busy (k + 1) rest

theorem prompt_transmissions (busy : Nat → Nat) (k : Nat) (bytes : List UInt8) :
    Prompt (transmissions busy k bytes) := by
  induction bytes generalizing k with
  | nil => exact Prompt.nil
  | cons value rest ih =>
      exact ((Prompt.busy (busy k)).append (Prompt.handover value)).append (ih (k + 1))

theorem filterMap_value_transmission (refusals : Nat) (value : UInt8) :
    (transmission refusals value).filterMap TransmitStep.value? = [value] := by
  rw [transmission, List.filterMap_append, List.filterMap_replicate_of_none rfl]
  rfl

theorem countP_isEarly_transmission (refusals : Nat) (value : UInt8) :
    (transmission refusals value).countP TransmitStep.isEarly = 0 := by
  rw [transmission, List.countP_append, List.countP_replicate]
  rfl

theorem countP_isPoll_transmission (refusals : Nat) (value : UInt8) :
    (transmission refusals value).countP TransmitStep.isPoll = refusals + 1 := by
  rw [transmission, List.countP_append, List.countP_replicate]
  rfl

theorem filterMap_value_transmissions (busy : Nat → Nat) (k : Nat) (bytes : List UInt8) :
    (transmissions busy k bytes).filterMap TransmitStep.value? = bytes := by
  induction bytes generalizing k with
  | nil => rfl
  | cons value rest ih =>
      rw [transmissions, List.filterMap_append, filterMap_value_transmission, ih]
      rfl

theorem countP_isEarly_transmissions (busy : Nat → Nat) (k : Nat) (bytes : List UInt8) :
    (transmissions busy k bytes).countP TransmitStep.isEarly = 0 := by
  induction bytes generalizing k with
  | nil => rfl
  | cons value rest ih =>
      rw [transmissions, List.countP_append, countP_isEarly_transmission, ih]

theorem countP_isPoll_transmissions (busy : Nat → Nat) (k : Nat) (bytes : List UInt8) :
    (transmissions busy k bytes).countP TransmitStep.isPoll =
      ∑ i ∈ Finset.range bytes.length, (busy (k + i) + 1) := by
  induction bytes generalizing k with
  | nil => rfl
  | cons value rest ih =>
      rw [transmissions, List.countP_append, countP_isPoll_transmission, ih, List.length_cons,
        Finset.sum_range_succ', Nat.add_comm]
      -- the byte after byte number `k` is byte number `k + 1`
      simp only [Nat.add_zero, Nat.add_assoc, Nat.add_comm 1]

/-! ### What the console does to it -/

/-- The transmitter has refused nothing since its last byte. -/
def Fresh (t : Scheduled) : Prop := t.refusals = t.busy t.taken

/-- The transmitter after some bytes of which each was waited for. -/
def after (t : Scheduled) (bytes : List UInt8) : Scheduled where
  busy := t.busy
  taken := t.taken + bytes.length
  refusals := t.busy (t.taken + bytes.length)
  history := (transmissions t.busy t.taken bytes).reverse ++ t.history

theorem awaitReady_eq (t : Scheduled) :
    Console.awaitReady t = { t with
      refusals := 0
      history := .poll true :: (List.replicate t.refusals (.poll false) ++ t.history) } := by
  obtain ⟨busy, taken, refusals, history⟩ := t
  -- the refusals are what runs out; the record grows at its front
  induction refusals generalizing history with
  | zero =>
      unfold Console.awaitReady
      simp [Transmitter.ready, Transmitter.poll, isReady, poll]
  | succ n ih =>
      have hpoll : Console.awaitReady (⟨busy, taken, n + 1, history⟩ : Scheduled) =
          Console.awaitReady ⟨busy, taken, n, .poll false :: history⟩ := by
        conv_lhs => unfold Console.awaitReady
        simp [Transmitter.ready, Transmitter.poll, isReady, poll]
      rw [hpoll, ih]
      simp [List.replicate_succ']

theorem writeByte_eq {t : Scheduled} (h : t.Fresh) (value : UInt8) :
    Console.writeByte t value = t.after [value] := by
  rw [Console.writeByte, awaitReady_eq]
  simp [Transmitter.send, send, after, transmissions, transmission, isReady, h.symm]

theorem fresh_after (t : Scheduled) (bytes : List UInt8) : (t.after bytes).Fresh := rfl

theorem after_cons (t : Scheduled) (value : UInt8) (rest : List UInt8) :
    (t.after [value]).after rest = t.after (value :: rest) := by
  simp [after, transmissions, Nat.add_comm, Nat.add_left_comm]

theorem writeBytes_eq {t : Scheduled} (h : t.Fresh) (bytes : List UInt8) :
    Console.writeBytes t bytes = t.after bytes := by
  induction bytes generalizing t with
  | nil =>
      obtain ⟨busy, taken, refusals, history⟩ := t
      simpa [Console.writeBytes, after, transmissions, Fresh] using h
  | cons value rest ih =>
      have hrest : Console.writeBytes t (value :: rest) =
          Console.writeBytes (Console.writeByte t value) rest := rfl
      rw [hrest, writeByte_eq h, ih (t.fresh_after [value]), after_cons]

/-! ### How long the loop runs -/

theorem iterate_turn_byte (t : Scheduled) (value : UInt8) (rest : List UInt8) :
    Console.turn^[t.refusals + 1] (t, value :: rest) = (Console.writeByte t value, rest) := by
  obtain ⟨busy, taken, refusals, history⟩ := t
  induction refusals generalizing history with
  | zero =>
      have hready : Transmitter.ready (⟨busy, taken, 0, history⟩ : Scheduled) = true := rfl
      exact Console.turn_of_ready hready value rest
  | succ n ih =>
      have hbusy : Transmitter.ready (⟨busy, taken, n + 1, history⟩ : Scheduled) = false := rfl
      rw [Function.iterate_succ_apply, Console.turn_of_busy hbusy, ← Console.writeByte_poll hbusy]
      exact ih (.poll false :: history)

theorem iterate_turn_bytes {t : Scheduled} (h : t.Fresh) (bytes : List UInt8) :
    Console.turn^[∑ i ∈ Finset.range bytes.length, (t.busy (t.taken + i) + 1)] (t, bytes) =
      (Console.writeBytes t bytes, []) := by
  induction bytes generalizing t with
  | nil => rfl
  | cons value rest ih =>
      have hfirst : t.busy (t.taken + 0) + 1 = t.refusals + 1 := congrArg (· + 1) h.symm
      have hshift : ∀ i, t.busy (t.taken + (i + 1)) + 1 =
          (t.after [value]).busy ((t.after [value]).taken + i) + 1 := by
        intro i
        simp [after, Nat.add_assoc, Nat.add_comm 1 i]
      -- the rounds of the first byte come first, and those of the rest are counted from there
      rw [List.length_cons, Finset.sum_range_succ', Function.iterate_add_apply, hfirst,
        iterate_turn_byte, writeByte_eq h]
      simp only [hshift]
      rw [ih (t.fresh_after [value]), ← writeByte_eq h]
      rfl

theorem polls_poll (t : Scheduled) : t.poll.polls = t.polls + 1 :=
  List.countP_cons_of_pos rfl

theorem polls_turn_le (t : Scheduled) (bytes : List UInt8) :
    (Console.turn (t, bytes)).1.polls ≤ t.polls + 1 := by
  cases bytes with
  | nil => exact Nat.le_succ t.polls
  | cons value rest =>
      cases hready : Transmitter.ready t with
      | false =>
          rw [Console.turn_of_busy hready]
          exact (polls_poll t).le
      | true =>
          have hsend : Console.turn (t, value :: rest) = ((t.poll).send value, rest) := by
            simp only [Console.turn, hready, if_true]
            rfl
          rw [hsend]
          exact (polls_poll t).le

theorem polls_iterate_turn_le (t : Scheduled) (bytes : List UInt8) (n : Nat) :
    (Console.turn^[n] (t, bytes)).1.polls ≤ t.polls + n := by
  induction n generalizing t bytes with
  | zero => simp
  | succ n ih =>
      rw [Function.iterate_succ_apply]
      have hturn := polls_turn_le t bytes
      have hrest := ih (Console.turn (t, bytes)).1 (Console.turn (t, bytes)).2
      simp only [Prod.mk.eta] at hrest
      omega

/-- A transmitter that was busy by the schedule `busy` has been handed exactly `bytes`. -/
structure Delivered (busy : Nat → Nat) (bytes : List UInt8) (t : Scheduled) : Prop where
  /-- The bytes are there, in order, and no others. -/
  written : t.written = bytes
  /-- Before each byte it refused as often as the schedule says, and then granted one poll. -/
  record : t.history.reverse = transmissions busy 0 bytes
  /-- Each byte came right after the poll that was granted. -/
  prompt : Prompt t.history.reverse
  /-- No byte came while it was busy. -/
  early : t.early = 0
  /-- It was polled no more often than that. -/
  polls : t.polls = ∑ k ∈ Finset.range bytes.length, (busy k + 1)

theorem delivered_after (busy : Nat → Nat) (bytes : List UInt8) :
    Delivered busy bytes ((ofSchedule busy).after bytes) := by
  have hrecord : ((ofSchedule busy).after bytes).history.reverse = transmissions busy 0 bytes := by
    simp [after, ofSchedule]
  refine ⟨?_, hrecord, ?_, ?_, ?_⟩
  · rw [written, hrecord, filterMap_value_transmissions]
  · rw [hrecord]
    exact prompt_transmissions busy 0 bytes
  · rw [early, ← List.countP_reverse, hrecord, countP_isEarly_transmissions]
  · rw [polls, ← List.countP_reverse, hrecord, countP_isPoll_transmissions]
    simp only [Nat.zero_add]

end Scheduled

end Bench

namespace Console

open Bench (Scheduled)

/-- Output is complete, ordered and never early, whatever the console is asked to put out and
however long the transmitter is busy before each byte. The loop that writes has come to its end, with
nothing left to write, after as many rounds as the schedule has polls, and not before. -/
theorem output_complete (busy : Nat → Nat) (outputs : List Output) :
    Scheduled.Delivered busy (payloads outputs) (putAll (Scheduled.ofSchedule busy) outputs) ∧
    ∀ rounds, turn^[rounds] (Scheduled.ofSchedule busy, payloads outputs) =
        (putAll (Scheduled.ofSchedule busy) outputs, []) ↔
      ∑ k ∈ Finset.range (payloads outputs).length, (busy k + 1) ≤ rounds := by
  have hfresh : (Scheduled.ofSchedule busy).Fresh := rfl
  have hdelivered : Scheduled.Delivered busy (payloads outputs)
      (putAll (Scheduled.ofSchedule busy) outputs) := by
    rw [putAll_eq_writeBytes, Scheduled.writeBytes_eq hfresh]
    exact Scheduled.delivered_after busy (payloads outputs)
  have hends := Scheduled.iterate_turn_bytes hfresh (payloads outputs)
  rw [← putAll_eq_writeBytes] at hends
  simp only [Scheduled.ofSchedule, Nat.zero_add] at hends
  refine ⟨hdelivered, fun rounds => ⟨fun hend => ?_, fun hle => ?_⟩⟩
  · -- one round is at most one poll
    have hpolls :=
      Scheduled.polls_iterate_turn_le (Scheduled.ofSchedule busy) (payloads outputs) rounds
    rw [hend, hdelivered.polls] at hpolls
    simpa [Scheduled.polls, Scheduled.ofSchedule] using hpolls
  · obtain ⟨extra, rfl⟩ := Nat.exists_eq_add_of_le' hle
    rw [Function.iterate_add_apply, Scheduled.ofSchedule, hends, iterate_turn_nil]

end Console

end SerialGateway
