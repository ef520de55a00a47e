import ThermalLabel.Json.Tree

/-! # Requests and responses -/

namespace ThermalLabel.Api

/-- A request as it arrives, with a body that is a text. A body that is not in UTF-8 is refused
before it is looked at, and no such request is described here. -/
structure Request where
  method : String
  /-- The path with its percent signs, which may stand for a text that is not in UTF-8; a host may
  stand before it and a query after it. -/
  target : String
  body : String

/-- What a response carries. -/
inductive Content (α : Type) where
  | empty
  | json (t : Json.Tree α)
  | text (s : String)

/-- The media type that goes with a content. -/
def Content.mediaType? {α : Type} : Content α → Option String
  | .empty => none
  | .json _ => some "application/json"
  | .text _ => some "text/plain; charset=utf-8"

/-- The answer to a request. -/
structure Response (α : Type) where
  status : Nat
  content : Content α
  /-- Whether only the head of the response is sent. -/
  headOnly : Bool := false

end ThermalLabel.Api
