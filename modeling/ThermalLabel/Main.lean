import ThermalLabel.CommandLine.Effect
import Std.Time.DateTime.Timestamp

/-! # The program

The outer layer of the command line: it reads the file that a command needs, and brings about the
effect that the command ends in. -/

namespace ThermalLabel.CommandLine

/-- The cause of a fault of the system. -/
def faultOf : IO.Error → FileFault
  | .noFileOrDirectory .. => .notFound
  | .permissionDenied .. => .denied
  | e => .other (toString e)

/-- What an action gives, or its fault. -/
def attempt {β : Type} (action : IO β) : IO (Except FileFault β) := do
  try return .ok (← action)
  catch e => return .error (faultOf e)

/-- What the clocks show, at Greenwich. -/
def readClock : IO Clock := do
  let now ← Std.Time.Timestamp.now
  let seconds : Int := now.toSecondsSinceUnixEpoch.val
  let nanoseconds := (now.toNanosecondsSinceUnixEpoch.val % 1000000000).toNat
  let second := (seconds % 86400).toNat
  return {
    timestamp := ⟨seconds, nanoseconds⟩
    date := Date.ofDays (seconds / 86400)
    time := ⟨second / 3600, second / 60 % 60, second % 60⟩ }

/-- A supply of ids that no other run of the program is likely to use. -/
def newSupply : IO IdSupply := do
  let bytes ← IO.getRandomBytes 16
  return IdSupply.numbered (bytes.toList.foldl (fun n b => 256 * n + b.toNat) 0)

/-- A job written to a device in pieces, with pauses in which the printer can catch up. -/
def writeJob (path : String) (job : List UInt8) : IO (Except Error Unit) := do
  match ← attempt (IO.FS.Handle.mk path .readWrite) with
  | .error fault => return .error (.transport (.cannotOpen path fault))
  | .ok device =>
    let writing := do
      for piece in pieces Device.chunkSize job do
        device.write ⟨piece.toArray⟩
        IO.sleep 2
      device.flush
    return (← attempt writing).mapError fun fault => .transport (.writeFailed fault)

/-- An effect brought about. -/
def Effect.perform : Effect → IO (Except Error Unit)
  | .display _ => return .ok ()
  | .write path text => return (← attempt (IO.FS.writeFile path text)).mapError .io
  | .send device _ job => writeJob device job

/-- The answer to a command line. -/
def answer (args : List String) : IO Output := do
  match Command.parse? args with
  | none => return misuse
  | some command =>
    let input ← match command.input? with
      | some path => attempt (IO.FS.readFile path)
      | none => pure (.error .notFound)
    match command.effect (α := Float) input (← readClock) (← newSupply) with
    | .error error => return failure error
    | .ok effect =>
      match ← effect.perform with
      | .error error => return failure error
      | .ok () => return effect.report

end ThermalLabel.CommandLine

/-- The program: it prints the answer to its arguments. -/
def main (args : List String) : IO UInt32 := do
  let output ← ThermalLabel.CommandLine.answer args
  IO.print output.stdout
  IO.eprint output.stderr
  return output.code.toUInt32
