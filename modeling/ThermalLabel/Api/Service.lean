import ThermalLabel.Api.Route
import ThermalLabel.Editor.Workspace
import ThermalLabel.Job.Basic
import ThermalLabel.Transport.Device

/-! # The service

Requests are handled one after another. Labels to compile or print and templates to check travel in
the body of a request and leave the session alone; only a session that is put in place changes it.

A refused request is answered by a status and, unless the path or the method is wrong, by a message.
-/

namespace ThermalLabel.Api

/-- What the service works with. -/
structure Service (α : Type) where
  workspace : Workspace α
  devicePath : String
  /-- What the printer device holds, or why it cannot be opened. -/
  device : Except FileFault (List UInt8)

/-- A label to compile or print. Its variables are laid over those that every session has. -/
structure JobRequest (α : Type) where
  document : Document α
  custom : Variables
  comments : Bool

/-- Why a request is refused. -/
inductive Refusal where
  | unreadableBody
  | emptyLabel
  | failed (error : Error)
  | printFailed (error : Error)
  | bodyTooLong
  /-- A language that is not a text in UTF-8. -/
  | unreadableLanguage
deriving DecidableEq

namespace Refusal

/-- What is said about a refusal. -/
def message : Refusal → String
  | .unreadableBody => "Invalid request body: the text has another shape"
  | .emptyLabel => "labelSize must have positive width and height"
  | .failed error => error.message
  | .printFailed error => "Print failed: " ++ error.message
  | .bodyTooLong => "Failed to buffer the request body: length limit exceeded"
  | .unreadableLanguage => "Invalid URL: Invalid UTF-8 in `lang`"

/-- The status of a refusal: faults of device and store are the service's own. -/
def status : Refusal → Nat
  | .failed (.transport _) => 500
  | .failed (.io _) => 500
  | .printFailed _ => 500
  | .bodyTooLong => 413
  | _ => 400

/-- Whether the message is sent as plain text. -/
def isPlain : Refusal → Bool
  | .bodyTooLong => true
  | .unreadableLanguage => true
  | _ => false

/-- The response to a refused request. -/
def response {α : Type} (r : Refusal) : Response α where
  status := r.status
  content :=
    if r.isPlain then .text r.message
    else .json (.object [("success", .bool false), ("error", .string r.message)])

end Refusal

variable {α : Type} [Scalar α] [NumberText α]

/-! ### Reading a request -/

/-- A label to compile or print as a record. -/
def JobRequest.ofTree? (t : Json.Tree α) : Option (JobRequest α) := do
  let fields ← t.fields? ["labelSize", "elements", "variables", "showComments"]
  let labelSize ← fields.require? "labelSize" LabelSize.ofTree?
  let elements ← fields.require? "elements" (Json.Tree.list? Element.ofTree?)
  let custom ← Json.Tree.orDefault? StringMap.empty Json.Tree.stringMap? (fields.get? "variables")
  let comments ← Json.Tree.orDefault? false Json.Tree.bool? (fields.get? "showComments")
  return ⟨⟨labelSize, elements⟩, custom, comments⟩

/-- The longest body in bytes: two mebibytes. -/
def maxBodyLength : Nat := 2097152

/-- A body that is not too long. -/
def bodyOf (r : Request) : Except Refusal String :=
  if maxBodyLength < r.body.utf8ByteSize then .error .bodyTooLong else .ok r.body

/-- A language from the path. -/
def languageName (code : String) : Except Refusal String :=
  match Text.percentDecode? code with
  | some name => .ok name
  | none => .error .unreadableLanguage

/-- What a body says. -/
def readBody {β : Type} (read : Json.Tree α → Option β) (body : String) : Except Refusal β :=
  match (Json.Tree.parse? body).bind read with
  | some value => .ok value
  | none => .error .unreadableBody

/-! ### Answers -/

/-- A response that all went well. -/
def succeeded (t : Json.Tree α) : Response α := { status := 200, content := .json t }

/-- The label sizes, fonts and languages on offer. -/
def catalogue : Response α :=
  succeeded (.object [
    ("presets", .array (LabelSize.presets.map LabelSize.toTree)),
    ("fontFamilies", .array (Font.families.map .string)),
    ("languages", .array (Language.all.map fun lang => .string lang.name))])

/-- The variables of a request's job. -/
def JobRequest.jobVariables (job : JobRequest α) (now : Clock) : Variables :=
  Variables.withDefaults now.date now.time job.custom

/-- A label compiled. The body is read before the language; an unknown language is said in the text.
-/
def compile (now : Clock) (code : String) (r : Request) : Except Refusal (Response α) := do
  let name ← languageName code
  let job : JobRequest α ← readBody JobRequest.ofTree? (← bodyOf r)
  let text := Job.compileNamed name job.document (job.jobVariables now) job.comments
  return {
    status := if (Language.parse name).toBool then 200 else 400
    content := .text text }

/-- A job sent to the printer device: what the device holds then. -/
def sendJob (path : String) (device : Except FileFault (List UInt8)) (job : List UInt8) :
    Except Error (List UInt8) :=
  match device with
  | .error fault => .error (.transport (.cannotOpen path fault))
  | .ok content =>
    match (Device.ofContent content).print Device.chunkSize job with
    | .ok device => .ok device.content
    | .error fault => .error (.transport fault)

/-- A label printed, and what the device holds then. The language is read before the body. -/
def print (s : Service α) (now : Clock) (code : String) (r : Request) :
    Except Refusal (Response α × List UInt8) := do
  let name ← languageName code
  let body ← bodyOf r
  let lang ← (Language.parse name).mapError .failed
  let job : JobRequest α ← readBody JobRequest.ofTree? body
  let payload := Job.payload lang job.document (job.jobVariables now)
  let device ← (sendJob s.devicePath s.device payload).mapError .printFailed
  let response := succeeded (.object [("success", .bool true),
    ("message", .string "Label sent to printer"), ("bytes", .number (.integer payload.length))])
  return (response, device)

/-- A template checked. -/
def validate (r : Request) : Except Refusal (Response α) := do
  let template : Template α ← (Template.parse (← bodyOf r)).mapError .failed
  return succeeded (.object [("success", .bool true), ("version", .string template.version),
    ("elements", .number (.integer template.elements.length)),
    ("labelSize", template.labelSize.toTree)])

/-- The session of a request that replaces it. -/
def newSession (r : Request) : Except Refusal (Session α) := do
  let session : Session α ← readBody Session.ofTree? (← bodyOf r)
  if session.document.labelSize.isValid then return session else throw .emptyLabel

namespace Service

/-- A response that is one or a refusal. -/
def settle : Except Refusal (Response α) → Response α
  | .ok response => response
  | .error refusal => refusal.response

/-- The session as a response. -/
def sessionResponse (s : Service α) : Response α := succeeded s.workspace.editor.session.toTree

/-- A route followed: the service after it and the response. -/
def follow (s : Service α) (now : Clock) (r : Request) : Route → Service α × Response α
  | .presets => (s, catalogue)
  | .compile code => (s, settle (compile now code r))
  | .print code =>
    match print s now code r with
    | .ok (response, device) => ({ s with device := .ok device }, response)
    | .error refusal => (s, refusal.response)
  | .readSession => (s, s.sessionResponse)
  | .replaceSession =>
    match newSession r with
    | .ok session =>
      let s := { s with workspace := (s.workspace.perform (.restore session)).1 }
      (s, s.sessionResponse)
    | .error refusal => (s, refusal.response)
  | .validate => (s, settle (validate r))

/-- A request handled: the service after it and the response. -/
def handle (s : Service α) (now : Clock) (r : Request) : Service α × Response α :=
  match r.routing with
  | .found route => s.follow now r route
  | .headOf route =>
    let (s, response) := s.follow now r route
    (s, { response with headOnly := true })
  | .wrongMethod => (s, { status := 405, content := .empty })
  | .unknownPath => (s, { status := 404, content := .empty })

end Service

end ThermalLabel.Api
