import SerialGateway.Proofs.Node.ConsoleStream
import SerialGateway.Proofs.Node.RebootRequest

/-!
# Reboot requests across a flush

Bytes leave the console receiver in two ways: an interrupt takes one, and a flush drains all that
wait. The detector of the reboot request sees only those that interrupts take. As long as the byte
that left last was taken, what the detector remembers is what left last, and a request is the `R`
after an `@` on the line. A flush in between hides from the detector what it drains, so that an `@`
before the drained bytes and an `R` after them make a request although they have not come one after
the other (`RemovedRebootLaw`).
-/

set_option autoImplicit false

namespace SerialGateway.Node

open Bench History RebootSequence

variable {M : Type} {cap : Nat}

/-! ## What has left the receiver -/

/-- The bytes that have left the receiver, in order, taken or drained. An interrupt that finds none
takes a zero byte. -/
def bytesRemoved (history : History interface Doing (Node M Devices cap)) : List UInt8 :=
  (departures history).map Departure.byte

/-- The byte that left the receiver last was drained by a flush. -/
def DrainedLast (history : History interface Doing (Node M Devices cap)) (byte : UInt8) : Prop :=
  ∃ entry : Entry, (departures history).getLast? = some (.drained entry) ∧ entry.byte = byte

/-- The taken ones of the bytes that have left are the bytes that interrupts have taken. -/
theorem bytesTaken_eq (history : History interface Doing (Node M Devices cap)) :
    bytesTaken history = ((departures history).filterMap Departure.taken?).map Entry.byte := by
  induction history with
  | nil => rfl
  | cons m rest ih =>
      have hcons : bytesTaken (m :: rest) =
          (m.calling? fun _ => byteTaken?).toList ++ bytesTaken rest := seen_cons ..
      rw [hcons, ih, departures_cons, List.filterMap_append, List.map_append]
      congr 1
      cases m with
      | entered | left | returned | acted => rfl
      | began k c n =>
          cases c with
          | flush =>
              -- no drained byte is a taken one
              have hnone : (n.devices.console.map fun waiting =>
                  Departure.drained ⟨k, waiting.1⟩).filterMap Departure.taken? = [] := by
                rw [List.filterMap_map, List.filterMap_eq_nil_iff]
                exact fun _ _ => rfl
              exact (congrArg (List.map Entry.byte) hnone).symm
          | _ => rfl

/-- Unless a flush has drained the last byte, an interrupt has taken it. -/
theorem getLast?_bytesTaken {history : History interface Doing (Node M Devices cap)}
    (h : ∀ byte, ¬ DrainedLast history byte) :
    (bytesTaken history).getLast? = (bytesRemoved history).getLast? := by
  rw [bytesTaken_eq, bytesRemoved]
  rcases List.eq_nil_or_concat (departures history) with hnone | ⟨earlier, last, hlast⟩
  · rw [hnone]
    rfl
  · rw [List.concat_eq_append] at hlast
    cases last with
    | taken entry => simp [hlast]
    | drained entry => exact absurd ⟨entry, by simp [hlast], rfl⟩ (h entry.byte)

theorem DrainedLast.getLast?_bytesRemoved
    {history : History interface Doing (Node M Devices cap)} {byte : UInt8}
    (h : DrainedLast history byte) : (bytesRemoved history).getLast? = some byte := by
  obtain ⟨entry, hlast, rfl⟩ := h
  rw [bytesRemoved, List.getLast?_map, hlast]
  rfl

/-! ## Requests -/

/-- Console interrupt `k` begins in `n` after `past`. It requests a reboot if its byte is `R` and the
last one that an interrupt took was `@`. That is the last byte which left the receiver, unless a
flush drained that one; and the request is spurious exactly if a flush did so, and the byte was no
`@`. -/
structure RemovedRebootLaw (history past : History interface Doing (Node M Devices cap)) (k : Nat)
    (n : Node M Devices cap) : Prop where
  answer : (k, ⟨.consoleInterrupt, .rebootRequested⟩) ∈ history.outcomes ↔
    Requests (bytesTaken past) n.consoleByte
  unflushed : (∀ byte, ¬ DrainedLast past byte) →
    ((k, ⟨.consoleInterrupt, .rebootRequested⟩) ∈ history.outcomes ↔
      Requests (bytesRemoved past) n.consoleByte)
  spurious : ((k, ⟨.consoleInterrupt, .rebootRequested⟩) ∈ history.outcomes ∧
      ¬ Requests (bytesRemoved past) n.consoleByte) ↔
    Requests (bytesTaken past) n.consoleByte ∧ ∃ byte, DrainedLast past byte ∧ byte ≠ leader

theorem removedRebootLaw_of_answer {history past : History interface Doing (Node M Devices cap)}
    {k : Nat} {n : Node M Devices cap}
    (answer : (k, ⟨.consoleInterrupt, .rebootRequested⟩) ∈ history.outcomes ↔
      Requests (bytesTaken past) n.consoleByte) :
    RemovedRebootLaw history past k n := by
  have unflushed : (∀ byte, ¬ DrainedLast past byte) →
      (Requests (bytesTaken past) n.consoleByte ↔ Requests (bytesRemoved past) n.consoleByte) := by
    intro h
    rw [Requests, Requests, getLast?_bytesTaken h]
  refine ⟨answer, fun h => answer.trans (unflushed h), ?_⟩
  rw [answer]
  constructor
  · rintro ⟨htaken, hremoved⟩
    refine ⟨htaken, ?_⟩
    by_contra hno
    -- then the byte that was drained last, if one was, is the leader
    by_cases hdrained : ∃ byte, DrainedLast past byte
    · obtain ⟨byte, hbyte⟩ := hdrained
      have hleader : byte = leader := by
        by_contra hne
        exact hno ⟨byte, hbyte, hne⟩
      subst hleader
      exact hremoved ⟨hbyte.getLast?_bytesRemoved, htaken.2⟩
    · exact hremoved ((unflushed fun byte hbyte => hdrained ⟨byte, hbyte⟩).1 htaken)
  · rintro ⟨htaken, byte, hbyte, hne⟩
    refine ⟨htaken, fun hremoved => hne ?_⟩
    have hlast := hbyte.getLast?_bytesRemoved.symm.trans hremoved.1
    exact Option.some.inj hlast

variable [InterruptControl M]

/-- Reboot requests and the bytes that have left the receiver, in every run on the bench from the
start, with bytes that come at any time and flushes in between. -/
theorem reboot_and_removed_bytes (timing : ChannelTiming) (controller : M) (hcap : 0 < cap)
    (devices : Devices) (t : CallTree interface Doing (Node M Devices cap)) :
    let history : History interface Doing (Node M Devices cap) :=
      t.moments (onBench M cap) (Node.new controller timing devices cap hcap)
    ∀ past k n future, history = past ++ .began k .consoleInterrupt n :: future →
      RemovedRebootLaw history past k n := by
  intro history past k n future hsplit
  have hlaw : RebootLaw history past k n future := rebootLaw_of_moments rfl hsplit
  exact removedRebootLaw_of_answer hlaw.answer

/-- An `@` is taken, and the `R` that follows at once requests a reboot; the flush before the `@`
does no harm. -/
theorem reboot_and_removed_bytes_unflushed :
    let t : CallTree interface Doing (Node Control Devices 4) :=
      .act (.consoleByte 120 .clean) fun _ => .call .flush (fun _ => .done) fun _ =>
        .act (.consoleByte 64 .clean) fun _ => .call .consoleInterrupt (fun _ => .done) fun _ =>
          .act (.consoleByte 82 .clean) fun _ => .call .consoleInterrupt (fun _ => .done) fun _ =>
            .done
    let history : History interface Doing (Node Control Devices 4) :=
      t.moments (onBench Control 4)
        (Node.new { enabled := true } Settings.busTiming {} 4 (by decide))
    0 < 4 ∧ (3, ⟨.consoleInterrupt, .rebootRequested⟩) ∈ history.outcomes := by
  intro t history
  obtain ⟨past, n, future, hsplit, hlast, hremoved⟩ : ∃ past n future,
      history = past ++ .began 3 .consoleInterrupt n :: future ∧
        (departures past).getLast? = some (.taken ⟨2, 64⟩) ∧
        Requests (bytesRemoved past) n.consoleByte := by
    refine ⟨[_, _, _, _, _, _, _, _, _], _, _, rfl, rfl, ?_⟩
    decide
  have hlaw : RemovedRebootLaw history past 3 n :=
    reboot_and_removed_bytes Settings.busTiming { enabled := true } (by decide) {} t
      past 3 n future hsplit
  have hunflushed : ∀ byte, ¬ DrainedLast past byte := by
    rintro byte ⟨entry, hdrained, -⟩
    rw [hlast] at hdrained
    cases hdrained
  exact ⟨by decide, (hlaw.unflushed hunflushed).2 hremoved⟩

/-- An `@` is taken, a flush drains the byte after it, and the `R` that comes then requests a reboot
although the byte that left the receiver before it was no `@`. -/
theorem flush_joins_reboot_request :
    let t : CallTree interface Doing (Node Control Devices 4) :=
      .act (.consoleByte 64 .clean) fun _ => .call .consoleInterrupt (fun _ => .done) fun _ =>
        .act (.consoleByte 120 .clean) fun _ => .call .flush (fun _ => .done) fun _ =>
          .act (.consoleByte 82 .clean) fun _ => .call .consoleInterrupt (fun _ => .done) fun _ =>
            .done
    let history : History interface Doing (Node Control Devices 4) :=
      t.moments (onBench Control 4)
        (Node.new { enabled := true } Settings.busTiming {} 4 (by decide))
    (3, ⟨.consoleInterrupt, .rebootRequested⟩) ∈ history.outcomes ∧
      departures history = [.taken ⟨1, 64⟩, .drained ⟨2, 120⟩, .taken ⟨3, 82⟩] ∧
      ∃ past n future, history = past ++ .began 3 .consoleInterrupt n :: future ∧
        bytesRemoved past = [64, 120] ∧ ¬ Requests (bytesRemoved past) n.consoleByte := by
  refine ⟨.tail _ (.tail _ (.head _)), rfl, [_, _, _, _, _, _, _, _, _], _, _, rfl, rfl, ?_⟩
  decide

end SerialGateway.Node
