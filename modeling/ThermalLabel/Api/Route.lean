import ThermalLabel.Api.Message
import ThermalLabel.Text.PercentCoded

/-! # Routes

What the paths of the interface are, and which methods they take. -/

namespace ThermalLabel.Api

/-- The paths of the interface. -/
inductive Endpoint where
  | presets
  /-- A language, percent coded. -/
  | compile (code : String)
  | print (code : String)
  | session
  | validate
deriving DecidableEq

/-- The characters of the name of a protocol. -/
def isSchemeChar (c : Char) : Bool := c.isAlphanum || c == '+' || c == '-' || c == '.'

/-- Whether a character ends the part of a path or of a host. -/
def endsPath (c : Char) : Bool := c == '?' || c == '#'

/-- A target without protocol and host, if it has them. -/
def withoutHost (target : List Char) : List Char :=
  match target.dropWhile isSchemeChar with
  | ':' :: '/' :: '/' :: rest => rest.dropWhile fun c => c != '/' && !endsPath c
  | _ => target

/-- The path of a target: what is left without protocol and host in front and the query behind. -/
def pathOf (target : String) : String :=
  String.ofList ((withoutHost target.toList).takeWhile fun c => !endsPath c)

/-- The parts of a path between the slashes. -/
def pathParts (path : String) : List String := (path.toList.splitOn '/').map String.ofList

/-- The endpoint of a target. Letter case and a slash at the end count. -/
def Endpoint.ofTarget? (target : String) : Option Endpoint :=
  match pathParts (pathOf target) with
  | ["", "api", "presets"] => some .presets
  | ["", "api", "compile", code] => if code.isEmpty then none else some (.compile code)
  | ["", "api", "print", code] => if code.isEmpty then none else some (.print code)
  | ["", "api", "session"] => some .session
  | ["", "api", "template", "validate"] => some .validate
  | _ => none

/-- What is asked for. -/
inductive Route where
  | presets
  | compile (code : String)
  | print (code : String)
  | readSession
  | replaceSession
  | validate
deriving DecidableEq

/-- Where a request leads. -/
inductive Routing where
  | found (route : Route)
  /-- To something that is read, of which only the head is wanted. -/
  | headOf (route : Route)
  | wrongMethod
  | unknownPath
deriving DecidableEq

/-- The routing of something that is read. -/
def Routing.ofRead (route : Route) (method : String) : Routing :=
  if method == "GET" then .found route
  else if method == "HEAD" then .headOf route
  else .wrongMethod

/-- The routing of something that takes one method. -/
def Routing.ofMethod (route : Route) (wanted method : String) : Routing :=
  if method == wanted then .found route else .wrongMethod

/-- The routing of a method at an endpoint. -/
def Endpoint.routing (method : String) : Endpoint → Routing
  | .presets => .ofRead .presets method
  | .compile code => .ofMethod (.compile code) "POST" method
  | .print code => .ofMethod (.print code) "POST" method
  | .session => if method == "PUT" then .found .replaceSession else .ofRead .readSession method
  | .validate => .ofMethod .validate "POST" method

/-- Where a request leads. -/
def Request.routing (r : Request) : Routing :=
  match Endpoint.ofTarget? r.target with
  | some endpoint => endpoint.routing r.method
  | none => .unknownPath

end ThermalLabel.Api
