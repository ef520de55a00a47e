import ThermalLabel.Json.Printer
import ThermalLabel.Json.Reader
import ThermalLabel.Session.Basic

/-! # Session stores

A session is kept in memory or as the text of a file, spread over lines. -/

namespace ThermalLabel

/-- Where a session is kept between sittings. -/
inductive Store (α : Type) where
  | memory (session : Option (Session α))
  /-- The text of the session file, or nothing while there is no file. -/
  | file (text : Option String)

namespace Session

variable {α : Type} [Scalar α] [NumberText α]

/-- A session from its text. -/
def parse (text : String) : Except Error (Session α) :=
  match (Json.Tree.parse? text).bind ofTree? with
  | some session => .ok session
  | none => .error .json

/-- The text of a session, spread over lines. -/
def text (s : Session α) : String := s.toTree.pretty 0

end Session

namespace Store

variable {α : Type} [Scalar α] [NumberText α]

/-- The session in a store; a store that was never saved to has none. -/
def load : Store α → Except Error (Option (Session α))
  | .memory session => .ok session
  | .file none => .ok none
  | .file (some text) => (Session.parse text).map some

/-- The store with its session replaced. -/
def save : Store α → Session α → Store α
  | .memory _, session => .memory (some session)
  | .file _, session => .file (some session.text)

/-- The text of the file of a store. -/
def fileText? : Store α → Option String
  | .memory _ => none
  | .file text => text

end Store

end ThermalLabel
