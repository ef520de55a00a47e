import ThermalLabel.CommandLine.Effect
import ThermalLabel.CommandLine.Place
import ThermalLabel.Text.Legible

/-! # Commands in a folder

A command that is run in a folder reads and writes the files there. It may also write to the devices
of the system, and what goes to its own outputs in this way is part of its answer. -/

namespace ThermalLabel.CommandLine

/-- The files of a folder by name. -/
abbrev Folder := StringMap (List UInt8)

/-- What an effect leaves behind: the files, and the bytes that went to the two outputs. -/
structure Trace where
  folder : Folder
  output : List UInt8
  messages : List UInt8

namespace SystemDevice

/-- A device once it is open. -/
def opened : SystemDevice → Except FileFault SystemDevice
  | .terminal => .error .noDevice
  | d => .ok d

/-- What a device holds. Nobody can read all of one that has no end. -/
def content : SystemDevice → Except FileFault (List UInt8)
  | .null => .ok []
  | _ => .error .noMemory

/-- What is left behind when bytes are written to a device. -/
def receive (d : SystemDevice) (f : Folder) (bytes : List UInt8) : Except FileFault Trace :=
  match d with
  | .null | .endless | .terminal => .ok ⟨f, [], []⟩
  | .full => .error .noSpace
  | .output => .ok ⟨f, bytes, []⟩
  | .messages => .ok ⟨f, [], bytes⟩

end SystemDevice

namespace Folder

/-- What a path leads to. -/
def locate (f : Folder) (path : String) : Except FileFault Place := Place.ofPath f.contains path

/-- The bytes of a file. -/
def bytes (f : Folder) (path : String) : Except FileFault (List UInt8) := do
  match ← f.locate path with
  | .file name => ((f.get? name).map Except.ok).getD (.error .notFound)
  | .device d => (← d.opened).content
  | .notice => return []
  | .free => throw .notFound
  | .here | .folder _ => throw .isDirectory

/-- The text of a file. -/
def read (f : Folder) (path : String) : Except FileFault String := do
  match String.fromUTF8? ⟨(← f.bytes path).toArray⟩ with
  | some text => return text
  | none => throw .notText

/-- What is left behind when a text is written to a file, which need not be there. -/
def write (f : Folder) (path text : String) : Except FileFault Trace := do
  match ← f.locate path with
  | .file name => return ⟨f.insert name (Text.utf8 text), [], []⟩
  | .device d => (← d.opened).receive f (Text.utf8 text)
  | .notice => throw .denied
  | .free => return ⟨f, [], []⟩
  | .here | .folder _ => throw .isDirectory

/-- What is left behind when a job is written to a file, as to a printer. The file must be there. -/
def send (f : Folder) (path : String) (job : List UInt8) : Except TransportFault Trace := do
  match ← (f.locate path).mapError (.cannotOpen path) with
  | .file name =>
    match f.get? name with
    | none => throw (.cannotOpen path .notFound)
    | some content =>
      let device ← (Device.ofContent content).print Device.chunkSize job
      return ⟨f.insert name device.content, [], []⟩
  | .device d =>
    let device ← d.opened.mapError (.cannotOpen path)
    (device.receive f job).mapError .writeFailed
  | .notice => throw (.cannotOpen path .denied)
  | .free => throw (.cannotOpen path .notFound)
  | .here | .folder _ => throw (.cannotOpen path .isDirectory)

end Folder

/-- What an effect leaves behind in a folder. -/
def Effect.apply (e : Effect) (f : Folder) : Except Error Trace :=
  match e with
  | .display _ => .ok ⟨f, [], []⟩
  | .write path text => (f.write path text).mapError .io
  | .send device _ job => (f.send device job).mapError .transport

/-- A report behind what has gone to the outputs already. -/
def Output.after (o : Output) (t : Trace) : Output where
  code := o.code
  stdout := Text.legible t.output ++ o.stdout
  stderr := Text.legible t.messages ++ o.stderr

/-- A command line run in a folder: the answer and the folder after it. -/
def run (α : Type) [Scalar α] [NumberText α] (args : List String) (f : Folder) (now : Clock)
    (supply : IdSupply) : Output × Folder :=
  match Command.parse? args with
  | none => (misuse, f)
  | some command =>
    let input := (command.input?.map f.read).getD (.error .notFound)
    match command.effect (α := α) input now supply with
    | .error error => (failure error, f)
    | .ok effect =>
      match effect.apply f with
      | .error error => (failure error, f)
      | .ok trace => (effect.report.after trace, trace.folder)

end ThermalLabel.CommandLine
