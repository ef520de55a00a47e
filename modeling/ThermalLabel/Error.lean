/-! # Errors

Layout and compilation never fail: bad geometry is clamped and unknown ids are passed over. Errors
arise where something comes from outside, and each names its cause; the wording is in
`Error.message`. -/

namespace ThermalLabel

/-- Why a file or a device could not be used. -/
inductive FileFault where
  | notFound
  | isDirectory
  | notDirectory
  | denied
  | nameTooLong
  | noSpace
  | noDevice
  | noMemory
  /-- The content is not text. -/
  | notText
  /-- Any other reason, in the words of the system. -/
  | other (reason : String)
deriving DecidableEq

/-- What the system says about a fault. -/
def FileFault.message : FileFault → String
  | .notFound => "No such file or directory (os error 2)"
  | .isDirectory => "Is a directory (os error 21)"
  | .notDirectory => "Not a directory (os error 20)"
  | .denied => "Permission denied (os error 13)"
  | .nameTooLong => "File name too long (os error 36)"
  | .noSpace => "No space left on device (os error 28)"
  | .noDevice => "No such device or address (os error 6)"
  | .noMemory => "Cannot allocate memory (os error 12)"
  | .notText => "stream did not contain valid UTF-8"
  | .other reason => reason

/-- Why a job did not reach the printer. -/
inductive TransportFault where
  | cannotOpen (device : String) (fault : FileFault)
  | writeFailed (fault : FileFault)
deriving DecidableEq

/-- What is said about a failed transport. -/
def TransportFault.message : TransportFault → String
  | .cannotOpen device fault => "Failed to open " ++ device ++ ": " ++ fault.message
  | .writeFailed fault => "Write failed: " ++ fault.message

/-- Why a text is not a template. -/
inductive TemplateFault where
  | notJson
  | notObject
  | missing (field : String)
  /-- The label size or the list of elements cannot be read. -/
  | unreadable
deriving DecidableEq

/-- What is said about a bad template. -/
def TemplateFault.message : TemplateFault → String
  | .notJson => "not valid JSON"
  | .notObject => "expected a JSON object"
  | .missing field => "missing '" ++ field ++ "'"
  | .unreadable => "unreadable label size or elements"

/-- Why an argument was refused. -/
inductive ArgumentFault where
  | unknownKind (name : String)
  | unknownReorder (name : String)
  | unknownHandle (name : String)
  | unknownAlignment (name : String)
  | unknownDistribution (name : String)
  | unknownPreset (name : String)
  | notAssignment (text : String)
  | emptyVariableName (text : String)
deriving DecidableEq

/-- What is said about a refused argument. -/
def ArgumentFault.message : ArgumentFault → String
  | .unknownKind name => "unknown element type '" ++ name ++ "'"
  | .unknownReorder name => "unknown reorder direction '" ++ name ++ "'"
  | .unknownHandle name => "unknown resize handle '" ++ name ++ "'"
  | .unknownAlignment name => "unknown alignment '" ++ name ++ "'"
  | .unknownDistribution name => "unknown distribution '" ++ name ++ "'"
  | .unknownPreset name => "unknown preset '" ++ name ++ "'"
  | .notAssignment text => "expected KEY=VALUE, got '" ++ text ++ "'"
  | .emptyVariableName text => "empty variable name in '" ++ text ++ "'"

/-- The causes of failure. -/
inductive Error where
  | transport (fault : TransportFault)
  | invalidTemplate (fault : TemplateFault)
  | unsupportedLanguage (name : String)
  | invalidArgument (fault : ArgumentFault)
  | io (fault : FileFault)
  /-- A JSON text that cannot be read as what it should be. -/
  | json
deriving DecidableEq

/-- The wording of an error. -/
def Error.message : Error → String
  | .transport fault => "Transport error: " ++ fault.message
  | .invalidTemplate fault => "Invalid template: " ++ fault.message
  | .unsupportedLanguage name => "Unsupported printer language '" ++ name ++ "'"
  | .invalidArgument fault => "Invalid argument: " ++ fault.message
  | .io fault => "I/O error: " ++ fault.message
  | .json => "JSON error: the text has another shape"

end ThermalLabel
