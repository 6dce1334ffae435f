import SerialGateway.Decimal
import SerialGateway.Device.Line

/-!
# Console output

What this module delivers: blocking output on a transmitter. Every byte waits
until a poll answers that the transmitter is ready; the wait ends because the
transmitter's patience runs out. Text goes out as UTF-8.
-/

set_option autoImplicit false

namespace SerialGateway.Console

variable {T : Type} [Transmitter T]

/-- Poll the transmitter until it answers that it is ready. -/
def awaitReady (t : T) : T :=
  if Transmitter.ready t then Transmitter.poll t else awaitReady (Transmitter.poll t)
termination_by Transmitter.patience t
decreasing_by exact Transmitter.patience_poll t (by simp_all)

/-- Wait for the transmitter, then hand over one byte. -/
def writeByte (t : T) (byte : UInt8) : T := Transmitter.send byte (awaitReady t)

/-- Write bytes one after another. -/
def writeBytes (t : T) (bytes : List UInt8) : T := bytes.foldl writeByte t

/-- The line break of a terminal: line feed, then carriage return. -/
def lineBreak : List UInt8 := [10, 13]

/-- Break the line. -/
def newline (t : T) : T := writeBytes t lineBreak

/-- Write a text. -/
def writeText (t : T) (text : String) : T := writeBytes t text.toUTF8.toList

/-- Write a named number, as `name=value`. -/
def writeValue (t : T) (name : String) (value : Int) : T :=
  writeText (writeText (writeText t name) "=") (decimal value)

end SerialGateway.Console
