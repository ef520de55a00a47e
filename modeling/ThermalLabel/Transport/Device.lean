import ThermalLabel.Error
import ThermalLabel.Transport.Chunks

/-! # Printer devices

A printer is written to like a file that is opened at its start and not emptied: new bytes take the
place of old ones, and what lies behind them stays. Jobs on one open device follow one another. -/

namespace ThermalLabel

/-- An open device. -/
structure Device where
  /-- The bytes before the place that is written next, last one first. -/
  before : List UInt8
  /-- The bytes from that place on. -/
  behind : List UInt8
deriving DecidableEq

namespace Device

/-- The device of a printer that is set up by default. -/
def defaultPath : String := "/dev/rfcomm0"

/-- How many bytes a printer is given at once. -/
def chunkSize : Nat := 4096

/-- A device with a content, open at its start. -/
def ofContent (content : List UInt8) : Device := ⟨[], content⟩

/-- All bytes of a device. -/
def content (d : Device) : List UInt8 := d.before.reverse ++ d.behind

/-- A device takes every piece. -/
def sink : Sink Device FileFault where
  write piece d := (⟨piece.reverse ++ d.before, d.behind.drop piece.length⟩, .ok ())
  flush d := (d, .ok ())

/-- A job written to a device in pieces. -/
def print (size : Nat) (job : List UInt8) (d : Device) : Except TransportFault Device :=
  match sink.send size job d with
  | (d, .ok _) => .ok d
  | (_, .error fault) => .error (.writeFailed fault)

/-- Jobs written to one open device. -/
def printAll (size : Nat) (jobs : List (List UInt8)) (d : Device) : Except TransportFault Device :=
  jobs.foldlM (fun d job => d.print size job) d

end Device

/-- A sink that gathers bytes. -/
def bufferSink : Sink (List UInt8) Empty where
  write piece bytes := (bytes ++ piece, .ok ())
  flush bytes := (bytes, .ok ())

end ThermalLabel
