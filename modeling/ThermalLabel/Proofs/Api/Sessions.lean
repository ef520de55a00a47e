import Mathlib.Data.String.Basic
import ThermalLabel.Api.Service
import ThermalLabel.Decimal.Text
import ThermalLabel.Proofs.Editor.Restart
import ThermalLabel.Proofs.Session.Proper
import ThermalLabel.Proofs.Session.Writer
import ThermalLabel.Scalar.Binary64

/-! # The session behind the service

The service keeps one session. A request either puts another one in its place or leaves it alone,
and with it the store: to the workspace a row of requests is the row of the sessions that they put
in place (`Service.workspace_after`). So the session is the one of the last such request, with its
ids repaired, and the store holds it. What is read from the service can be sent back to it, and
nothing changes (`Service.session_kept`). -/

namespace ThermalLabel

variable {α : Type} [Scalar α]

/-- A text has at least as many bytes as characters. -/
theorem length_toList_le (s : String) : s.toList.length ≤ s.utf8ByteSize := by
  rw [← String.utf8Len_toList]
  induction s.toList with
  | nil => exact Nat.le_refl 0
  | cons c cs ih =>
    have hpos := c.utf8Size_pos
    rw [List.length_cons, String.utf8Len_cons]
    omega

namespace Session

/-- A session with its empty and repeated ids replaced. -/
def repaired (s : Session α) (supply : IdSupply) : Session α where
  document :=
    { s.document with
      elements := (Sequence.repairIds StringMap.empty s.document.elements supply).1 }
  settings := s.settings

variable [NumberText α]

/-- What is written of a session in an answer is read as the session. -/
def ReadsBack (s : Session α) : Prop := Api.readBody ofTree? s.toTree.compact = .ok s

theorem SaysItself.readsBack {s : Session α} (h : s.SaysItself)
    (hproper : Sequence.All Element.Proper s.document.elements) : s.ReadsBack := by
  unfold ReadsBack Api.readBody
  rw [h.text, Option.bind_some, h.ofTree?_toTree hproper]

omit [Scalar α] in
/-- What is written of a session is longer than any content in it. -/
theorem length_lt_compact (s : Session α) {e : Element α} (he : e ∈ s.document.elements)
    {content : String} (hcontent : e.body.content? = some content) :
    content.toList.length < s.toTree.compact.utf8ByteSize := by
  have hmember : ("content", .string content) ∈ e.members := by
    rcases e with ⟨id, x, y, body, extra⟩
    cases body <;> simp_all [Element.members, Element.bodyMembers, Body.content?]
  have hparts := Json.Tree.compact_infix s.toTree
  have helements := (Json.Tree.allParts_object.mp hparts).2
    ("elements", Document.elementsTree s.document.elements) (by simp)
  have helement := (Json.Tree.allParts_array.mp helements).2 e.toTree (List.mem_map_of_mem he)
  have hinfix := ((Json.Tree.allParts_object.mp helement).2 _ hmember).self
  calc content.toList.length
    _ < (Json.Quoted.write content).toList.length := Json.Quoted.length_lt_write content
    _ ≤ s.toTree.compact.toList.length := hinfix.length_le
    _ ≤ s.toTree.compact.utf8ByteSize := length_toList_le _

end Session

namespace Editor

variable {e : Editor α} {s : Session α}

/-- An editor as it is when a session was loaded. -/
structure Loaded (e : Editor α) : Prop where
  size : e.document.labelSize.InOrder
  selection : e.selection = StringMap.empty
  history : e.history = e.history.reset e.elements
  gesture : e.gesture = .idle

theorem loaded_load (e : Editor α) (s : Session α) : Loaded (e.load s) :=
  ⟨Document.inOrder_normalize _ _, rfl, rfl, rfl⟩

theorem loaded_openStored (stored : Except Error (Option (Session α))) (supply : IdSupply) :
    Loaded (openStored stored supply) := by
  unfold openStored
  split <;> exact loaded_load _ _

/-- What was loaded and is in order does not change when it is loaded again. -/
theorem Loaded.load_session (h : Loaded e) (hids : DistinctIds e.document.ids) :
    e.load e.session = e := by
  obtain ⟨document, settings, selection, history, gesture, measured, zoom, supply⟩ := e
  have hnormal := Document.normalize_of_distinct h.size hids supply
  obtain rfl : selection = StringMap.empty := h.selection
  obtain rfl : gesture = .idle := h.gesture
  have hhistory : history = history.reset document.elements := h.history
  simp only [load, session, hnormal, ← hhistory]

/-- A session with a label size in order is loaded with its ids repaired. -/
theorem session_load (e : Editor α) (h : s.document.labelSize.isValid = true) :
    (e.load s).session = s.repaired e.supply := by
  simp only [load, session, Document.normalize, h, if_true, Session.repaired]

variable [NumberText α]

theorem loaded_after_restores (h : Loaded e) (sessions : List (Session α)) :
    Loaded (e.after (sessions.map .restore)) := by
  refine invariant_after (I := Loaded) (fun _ hop => ?_) h
    (throughout_of_forall (c := fun op => ∃ s, op = .restore s) ?_)
  · obtain ⟨s, rfl⟩ := hop
    exact loaded_load _ s
  · intro op hop
    obtain ⟨s, -, rfl⟩ := List.mem_map.mp hop
    exact ⟨s, rfl⟩

end Editor

/-! ### What the store holds in the end -/

namespace Workspace

variable {store : Store α} {w : Workspace α} {saved : List (Session α)} [NumberText α]

/-- The sessions that a workspace saved since its store was `store`: they are in the store, or the
writer has been asked to write them. -/
def Saved (store : Store α) (saved : List (Session α)) (w : Workspace α) : Prop :=
  match w.writer with
  | none => w.store = saved.foldl Store.save store
  | some writer => w.store = store ∧ ∃ steps, Writer.Course saved false steps writer

theorem saved_ofStore (store : Store α) (background : Bool) (supply : IdSupply) :
    Saved store [] (ofStore store background supply) := by
  cases background with
  | false => exact rfl
  | true => exact ⟨rfl, 0, .start⟩

omit [Scalar α] in
theorem Saved.save (h : w.Saved store saved) (s : Session α) :
    (w.save s).Saved store (saved ++ [s]) := by
  obtain ⟨e, current, writer⟩ := w
  cases writer with
  | none =>
    have hstore : current = saved.foldl Store.save store := h
    show current.save s = (saved ++ [s]).foldl Store.save store
    rw [List.foldl_append, ← hstore]
    rfl
  | some writer =>
    obtain ⟨hstore, steps, hcourse⟩ := h
    exact ⟨hstore, steps, hcourse.save s⟩

theorem Saved.perform (h : w.Saved store saved) (op : Operation α) :
    ∃ saved, (w.perform op).1.Saved store saved := by
  unfold Workspace.perform after
  dsimp only
  split
  · next session _ =>
    have hperformed : Saved store saved { w with editor := (w.editor.perform op).editor } := h
    exact ⟨saved ++ [session], hperformed.save session⟩
  · exact ⟨saved, h⟩

theorem Saved.performAll (h : w.Saved store saved) (ops : List (Operation α)) :
    ∃ saved, (w.performAll ops).Saved store saved := by
  induction ops generalizing w saved with
  | nil => exact ⟨saved, h⟩
  | cons op ops ih =>
    obtain ⟨_, hstep⟩ := h.perform op
    exact ih hstep

omit [Scalar α] in
/-- Once everything is written, the store holds the session that was saved last. -/
theorem Saved.close (h : w.Saved store saved) :
    w.close = saved.getLast?.elim store store.save := by
  rw [← Store.foldl_save]
  obtain ⟨e, current, writer⟩ := w
  cases writer with
  | none => exact h
  | some writer =>
    obtain ⟨hstore, steps, hcourse⟩ := h
    obtain rfl : current = store := hstore
    show writer.close.written.foldl Store.save current = _
    rw [Store.foldl_save, Store.foldl_save, hcourse.getLast?_close]

omit [Scalar α] in
theorem Saved.close_save (h : w.Saved store saved) (s : Session α) :
    (w.save s).close = store.save s := by
  rw [(h.save s).close, List.getLast?_concat]
  rfl

theorem perform_restore (w : Workspace α) (s : Session α) :
    (w.perform (.restore s)).1 =
      { w with editor := w.editor.load s }.save (w.editor.load s).session := rfl

omit [Scalar α] in
theorem editor_save (w : Workspace α) (s : Session α) : (w.save s).editor = w.editor := by
  unfold Workspace.save
  split <;> rfl

end Workspace

/-! ### Requests -/

namespace Api

variable [NumberText α] {r : Request}

/-- What is sent of a content. -/
def Content.written : Content α → String
  | .empty => ""
  | .json t => t.compact
  | .text s => s

/-- The session that a request puts in place, if it does. -/
def Request.replacement? (r : Request) : Option (Session α) :=
  match r.routing with
  | .found .replaceSession => (newSession r).toOption
  | _ => none

/-- The sessions that a row of requests puts in place. -/
def replacements (requests : List (Clock × Request)) : List (Session α) :=
  requests.filterMap fun request => request.2.replacement?

omit [Scalar α] [NumberText α] in
theorem bodyOf_of_le (h : r.body.utf8ByteSize ≤ maxBodyLength) : bodyOf r = .ok r.body :=
  if_neg (Nat.not_lt.mpr h)

omit [Scalar α] [NumberText α] in
theorem bodyOf_of_lt (h : maxBodyLength < r.body.utf8ByteSize) : bodyOf r = .error .bodyTooLong :=
  if_pos h

theorem proper_of_readBody {body : String} {session : Session α}
    (h : readBody Session.ofTree? body = .ok session) :
    Sequence.All Element.Proper session.document.elements := by
  unfold readBody at h
  split at h
  · next value hread =>
    obtain rfl := Except.ok.inj h
    obtain ⟨t, -, hsession⟩ := Option.bind_eq_some_iff.mp hread
    exact Session.proper_of_ofTree? hsession
  · cases h

theorem newSession_eq_ok_iff {session : Session α} :
    newSession r = .ok session ↔
      (∃ body, bodyOf r = .ok body ∧ readBody Session.ofTree? body = .ok session) ∧
      session.document.labelSize.isValid = true := by
  have hnew : (newSession r : Except Refusal (Session α)) =
      (bodyOf r).bind fun body => (readBody Session.ofTree? body).bind fun read =>
        if read.document.labelSize.isValid then .ok read else .error .emptyLabel := rfl
  rw [hnew]
  cases bodyOf r with
  | error refusal => exact ⟨nofun, fun ⟨⟨_, h, _⟩, _⟩ => nomatch h⟩
  | ok body =>
    simp only [Except.bind, Except.ok.injEq, exists_eq_left']
    cases readBody (α := α) Session.ofTree? body with
    | error refusal => exact ⟨nofun, fun ⟨h, _⟩ => nomatch h⟩
    | ok read =>
      simp only [Except.ok.injEq]
      split_ifs with hsize
      · exact ⟨fun h => ⟨Except.ok.inj h, Except.ok.inj h ▸ hsize⟩, fun ⟨h, _⟩ => congrArg _ h⟩
      · exact ⟨nofun, fun ⟨h, hvalid⟩ => absurd (h ▸ hvalid) hsize⟩

/-- A session is put in place by its own request only, with a body that can be read and a label that
has an area. -/
theorem Request.replacement?_eq_some_iff {session : Session α} :
    r.replacement? = some session ↔ r.routing = .found .replaceSession ∧
      (∃ body, bodyOf r = .ok body ∧ readBody Session.ofTree? body = .ok session) ∧
      session.document.labelSize.isValid = true := by
  rw [← newSession_eq_ok_iff]
  unfold replacement?
  split
  · next hrouting =>
    rw [hrouting]
    cases newSession (α := α) r <;> simp [Except.toOption]
  · next hrouting =>
    exact ⟨nofun, fun ⟨h, _⟩ => absurd h hrouting⟩

theorem replacements_cons_none {request : Clock × Request} (requests : List (Clock × Request))
    (h : (request.2.replacement? : Option (Session α)) = none) :
    (replacements (request :: requests) : List (Session α)) = replacements requests :=
  List.filterMap_cons_none h

theorem replacements_cons_some {request : Clock × Request} (requests : List (Clock × Request))
    {session : Session α} (h : request.2.replacement? = some session) :
    replacements (request :: requests) = session :: replacements requests :=
  List.filterMap_cons_some h

/-- Only what is read has a head of its own. -/
theorem Request.routing_ne_headOf_replaceSession (r : Request) :
    r.routing ≠ .headOf .replaceSession := by
  unfold Request.routing
  split
  · next endpoint _ =>
    cases endpoint <;> simp only [Endpoint.routing, Routing.ofRead, Routing.ofMethod] <;>
      split_ifs <;> nofun
  · nofun

namespace Service

/-- A service on a store. -/
def opened (store : Store α) (background : Bool) (supply : IdSupply) (devicePath : String)
    (device : Except FileFault (List UInt8)) : Service α :=
  ⟨Workspace.ofStore store background supply, devicePath, device⟩

/-- The service after a row of requests. -/
def after (s : Service α) (requests : List (Clock × Request)) : Service α :=
  requests.foldl (fun s request => (s.handle request.1 request.2).1) s

/-- The session of the service. -/
def session (s : Service α) : Session α := s.workspace.editor.session

theorem handle_of_replacement {s : Service α} {now : Clock} {session : Session α}
    (h : r.replacement? = some session) :
    s.handle now r =
      ({ s with workspace := (s.workspace.perform (.restore session)).1 },
        Service.sessionResponse
          { s with workspace := (s.workspace.perform (.restore session)).1 }) := by
  obtain ⟨hrouting, hnew⟩ := Request.replacement?_eq_some_iff.mp h
  rw [← newSession_eq_ok_iff] at hnew
  simp only [handle, hrouting, follow, hnew]

/-- **Whatever does not put a session in place leaves the workspace as it is.** -/
theorem workspace_handle {s : Service α} {now : Clock}
    (h : (r.replacement? : Option (Session α)) = none) :
    (s.handle now r).1.workspace = s.workspace := by
  have hfollow : ∀ route, route ≠ .replaceSession →
      (s.follow now r route).1.workspace = s.workspace := by
    intro route hroute
    cases route with
    | replaceSession => exact absurd rfl hroute
    | print code =>
      simp only [follow]
      split <;> rfl
    | _ => rfl
  unfold handle
  split
  · next route hrouting =>
    by_cases hroute : route = .replaceSession
    · rw [hroute] at hrouting ⊢
      unfold follow
      cases hnew : newSession (α := α) r with
      | error refusal => rfl
      | ok session =>
        simp [Request.replacement?, hrouting, hnew, Except.toOption] at h
    · exact hfollow route hroute
  · next route hrouting =>
    refine hfollow route fun hroute => ?_
    exact r.routing_ne_headOf_replaceSession (hroute ▸ hrouting)
  · rfl
  · rfl

theorem after_cons (s : Service α) (request : Clock × Request) (requests : List (Clock × Request)) :
    s.after (request :: requests) = (s.handle request.1 request.2).1.after requests :=
  List.foldl_cons ..

theorem after_append (s : Service α) (requests more : List (Clock × Request)) :
    s.after (requests ++ more) = (s.after requests).after more := List.foldl_append

/-- To the workspace a row of requests is the row of the sessions that they put in place. -/
theorem workspace_after (s : Service α) (requests : List (Clock × Request)) :
    (s.after requests).workspace =
      s.workspace.performAll ((replacements requests).map .restore) := by
  induction requests generalizing s with
  | nil => rfl
  | cons request requests ih =>
    rw [after_cons, ih]
    cases hone : (request.2.replacement? : Option (Session α)) with
    | none => rw [replacements_cons_none requests hone, workspace_handle hone]
    | some session =>
      rw [replacements_cons_some requests hone, handle_of_replacement hone]
      rfl

/-- The last of a row of requests that puts a session in place, with those before it. -/
structure LastPut (requests before : List (Clock × Request)) (now : Clock) (put : Request)
    (session : Session α) : Prop where
  split : ∃ later, requests = before ++ (now, put) :: later ∧
    (replacements later : List (Session α)) = []
  puts : put.replacement? = some session

theorem lastPut_cases (requests : List (Clock × Request)) :
    (replacements requests : List (Session α)) = [] ∨
      ∃ before now put, ∃ session : Session α, LastPut requests before now put session := by
  induction requests with
  | nil => exact Or.inl rfl
  | cons request requests ih =>
    rcases ih with hnone | ⟨before, now, put, session, ⟨later, rfl, hlater⟩, hput⟩
    · cases hone : (request.2.replacement? : Option (Session α)) with
      | none => exact Or.inl ((replacements_cons_none requests hone).trans hnone)
      | some session =>
        exact Or.inr ⟨[], request.1, request.2, session, ⟨requests, rfl, hnone⟩, hone⟩
    · exact Or.inr ⟨request :: before, now, put, session, ⟨later, rfl, hlater⟩, hput⟩

section
variable {s : Service α} {now : Clock} {put : Request} {session : Session α}
  {requests before : List (Clock × Request)}

theorem session_handle (h : put.replacement? = some session) :
    (s.handle now put).1.session = session.repaired s.workspace.editor.supply := by
  have hvalid := (Request.replacement?_eq_some_iff.mp h).2.2
  rw [handle_of_replacement h, Service.session, Workspace.perform_restore, Workspace.editor_save]
  exact Editor.session_load s.workspace.editor hvalid

theorem response_handle (h : put.replacement? = some session) :
    (s.handle now put).2 = (s.handle now put).1.sessionResponse := by
  rw [handle_of_replacement h]

theorem close_handle {store : Store α} {saved : List (Session α)}
    (hsaved : s.workspace.Saved store saved) (h : put.replacement? = some session) :
    (s.handle now put).1.workspace.close = store.save (s.handle now put).1.session := by
  have hloaded : Workspace.Saved store saved
      { s.workspace with editor := s.workspace.editor.load session } := hsaved
  rw [Service.session, handle_of_replacement h, Workspace.perform_restore, Workspace.editor_save]
  exact hloaded.close_save _

/-- Until the next session is put in place, the workspace stays as the last one left it. -/
theorem LastPut.workspace (h : LastPut requests before now put session) :
    (s.after requests).workspace = ((s.after before).handle now put).1.workspace := by
  obtain ⟨later, rfl, hlater⟩ := h.split
  rw [after_append, after_cons, workspace_after, hlater, List.map_nil, Workspace.performAll,
    List.foldl_nil]

theorem LastPut.session_after (h : LastPut requests before now put session) :
    (s.after requests).session = session.repaired (s.after before).workspace.editor.supply := by
  rw [Service.session, h.workspace]
  exact session_handle h.puts

/-- What a session put in place is answered by is what is read from then on. -/
theorem LastPut.response (h : LastPut requests before now put session) :
    ((s.after before).handle now put).2 = (s.after requests).sessionResponse := by
  rw [response_handle h.puts, sessionResponse, sessionResponse, h.workspace]

theorem LastPut.close {store : Store α} {saved : List (Session α)}
    (hsaved : s.workspace.Saved store saved) (h : LastPut requests before now put session) :
    (s.after requests).workspace.close = store.save (s.after requests).session := by
  obtain ⟨saved, hbefore⟩ := hsaved.performAll ((replacements before).map .restore)
  rw [← workspace_after] at hbefore
  rw [Service.session, h.workspace]
  exact close_handle hbefore h.puts

end

theorem handle_of_tooLong {s : Service α} {now : Clock} {put : Request}
    (hrouting : put.routing = .found .replaceSession)
    (h : maxBodyLength < put.body.utf8ByteSize) :
    s.handle now put = (s, Refusal.bodyTooLong.response) := by
  have hnew : newSession (α := α) put = .error .bodyTooLong := by
    unfold newSession
    rw [bodyOf_of_lt h]
    rfl
  simp only [handle, hrouting, follow, hnew]

/-- A service at rest on a session in order, which the store will hold if any was put in place. -/
structure InOrder (store : Store α) (s : Service α) : Prop where
  loaded : s.workspace.editor.Loaded
  distinct : DistinctIds s.session.document.ids
  saved : ∃ saved, s.workspace.Saved store saved

theorem inOrder_after {store : Store α} {supply : IdSupply} {requests : List (Clock × Request)}
    (hopen : Editor.OpensFresh store.load supply)
    (hfresh : Editor.Throughout Editor.TakesFresh (Editor.openStored store.load supply)
      ((replacements requests).map .restore))
    (background : Bool) (devicePath : String) (device : Except FileFault (List UInt8)) :
    ((opened store background supply devicePath device).after requests).InOrder store := by
  have hloaded := Editor.loaded_openStored store.load supply
  have hdistinct := Editor.invariant_after (I := Editor.Everywhere Editor.Distinct)
    Editor.everywhere_distinct_perform (Editor.everywhere_distinct_openStored hopen) hfresh
  have hsaved := Workspace.saved_ofStore store background supply
  refine ⟨?_, ?_, ?_⟩
  · rw [workspace_after, Workspace.editor_performAll]
    exact Editor.loaded_after_restores hloaded _
  · rw [Service.session, workspace_after, Workspace.editor_performAll]
    exact hdistinct.elements
  · rw [workspace_after]
    exact hsaved.performAll _

/-- The elements of the session are proper, if those in the store are. -/
theorem proper_after {store : Store α}
    (hstored : Sequence.All Element.Proper (Editor.storedElements store.load)) (supply : IdSupply)
    (requests : List (Clock × Request)) (background : Bool) (devicePath : String)
    (device : Except FileFault (List UInt8)) :
    Sequence.All Element.Proper ((opened store background supply devicePath device).after
      requests).session.document.elements := by
  have hbrought : ∀ op ∈ (replacements requests : List (Session α)).map Operation.restore,
      Sequence.All Element.Proper op.brought := by
    intro op hop
    obtain ⟨session, hsession, rfl⟩ := List.mem_map.mp hop
    obtain ⟨request, -, hput⟩ := List.mem_filterMap.mp hsession
    obtain ⟨-, ⟨body, -, hread⟩, -⟩ := Request.replacement?_eq_some_iff.mp hput
    exact proper_of_readBody hread
  rw [Service.session, workspace_after, Workspace.editor_performAll]
  exact (Element.lasting_proper.everywhere_after hstored hbrought supply).elements

/-- What is read from a service and sent back to it is put in place, and only saved once more. -/
theorem InOrder.handle_put {store : Store α} {s : Service α} {now : Clock} {put : Request}
    (h : s.InOrder store) (hstandard : (LabelSize.standard : LabelSize α).isValid = true)
    (hrouting : put.routing = .found .replaceSession)
    (hbody : bodyOf put = .ok s.session.toTree.compact) (hreads : s.session.ReadsBack) :
    put.replacement? = some s.session ∧
      s.handle now put = ({ s with workspace := s.workspace.save s.session }, s.sessionResponse) ∧
      (s.handle now put).1.workspace.close = store.save s.session := by
  have hvalid : s.session.document.labelSize.isValid = true := by
    rcases h.loaded.size with hvalid | hsize
    · exact hvalid
    · rw [Service.session, Editor.session, hsize]
      exact hstandard
  have hput : put.replacement? = some s.session :=
    Request.replacement?_eq_some_iff.mpr ⟨hrouting, ⟨_, hbody, hreads⟩, hvalid⟩
  have hload : s.workspace.editor.load s.session = s.workspace.editor :=
    h.loaded.load_session h.distinct
  have hsame : (s.workspace.perform (.restore s.session)).1 = s.workspace.save s.session := by
    rw [Workspace.perform_restore, hload]
    rfl
  have hhandle : s.handle now put =
      ({ s with workspace := s.workspace.save s.session }, s.sessionResponse) := by
    rw [handle_of_replacement hput, hsame, sessionResponse, Workspace.editor_save]
    rfl
  obtain ⟨saved, hsaved⟩ := h.saved
  refine ⟨hput, hhandle, ?_⟩
  rw [hhandle]
  exact hsaved.close_save s.session

/-- **The session behind the service.** After any requests to a service on any store the session is
the one that was put in place last, with its ids repaired, or the one that the service was opened
with; the store holds it once everything is written, and what it was answered by is what is read.
A request that puts no session in place leaves the workspace, its store included, as it is. And what
is read can be sent back, unless it is too long for a body: if it reads back, the session is put in
place, and nothing happens but that it is saved once more. It reads back as soon as its texts say
what they were written for, if the unknown members in the store have names of their own. -/
theorem session_kept {store : Store Float} {supply : IdSupply} {requests : List (Clock × Request)}
    (hopen : Editor.OpensFresh store.load supply)
    (hfresh : Editor.Throughout Editor.TakesFresh (Editor.openStored store.load supply)
      ((replacements requests).map .restore))
    (background : Bool) (devicePath : String) (device : Except FileFault (List UInt8)) :
    let first := opened store background supply devicePath device
    let s := first.after requests
    (((replacements requests : List (Session Float)) = [] ∧ s.workspace = first.workspace) ∨
      ∃ before now put session, LastPut requests before now put session ∧
        s.session = session.repaired (first.after before).workspace.editor.supply ∧
        s.workspace.close = store.save s.session ∧
        ((first.after before).handle now put).2 = s.sessionResponse) ∧
    (∀ now get, get.routing = .found .readSession → s.handle now get = (s, s.sessionResponse)) ∧
    (∀ now r, (r.replacement? : Option (Session Float)) = none →
      (s.handle now r).1.workspace = s.workspace) ∧
    (∀ now put, put.routing = .found .replaceSession →
      put.body = s.sessionResponse.content.written →
      (maxBodyLength < put.body.utf8ByteSize →
        s.handle now put = (s, Refusal.bodyTooLong.response)) ∧
      (put.body.utf8ByteSize ≤ maxBodyLength → s.session.ReadsBack →
        put.replacement? = some s.session ∧
        s.handle now put =
          ({ s with workspace := s.workspace.save s.session }, s.sessionResponse) ∧
        (s.handle now put).1.workspace.close = store.save s.session)) ∧
    (Sequence.All Element.Proper (Editor.storedElements store.load) →
      s.session.SaysItself → s.session.ReadsBack) := by
  intro first s
  have horder : s.InOrder store := inOrder_after hopen hfresh background devicePath device
  refine ⟨?_, fun now get hget => ?_, fun now r hr => workspace_handle hr,
    fun now put hrouting hbody => ⟨fun hlong => handle_of_tooLong hrouting hlong,
      fun hshort hreads => ?_⟩, fun hstored hsays => ?_⟩
  · rcases lastPut_cases (α := Float) requests with hnone | ⟨before, now, put, session, hlast⟩
    · refine Or.inl ⟨hnone, ?_⟩
      rw [workspace_after, hnone]
      rfl
    · have hsaved := Workspace.saved_ofStore store background supply
      exact Or.inr ⟨before, now, put, session, hlast, hlast.session_after, hlast.close hsaved,
        hlast.response⟩
  · simp only [handle, hget, follow]
  · have hstandard : (LabelSize.standard : LabelSize Float).isValid = true := by decide +kernel
    exact horder.handle_put hstandard hrouting ((bodyOf_of_le hshort).trans (congrArg _ hbody))
      hreads
  · exact hsays.readsBack (proper_after hstored supply requests background devicePath device)

/-- The time of the requests. -/
def noon : Clock := ⟨⟨0, 0⟩, ⟨1970, 1, 1⟩, ⟨12, 0, 0⟩⟩

/-- A session of two boxes with one id. -/
def twinBoxes : String :=
  "\x7b\"labelSize\":\x7b\"width\":50,\"height\":30\x7d,\"elements\":[" ++
    "\x7b\"type\":\"box\",\"id\":\"a\"\x7d,\x7b\"type\":\"box\",\"id\":\"a\",\"x\":0.1\x7d]\x7d"

/-- A session put in place, one that cannot be read, and a label to compile. -/
@[irreducible]
def mixedRequests : List (Clock × Request) := [
  (noon, ⟨"PUT", "/api/session", twinBoxes⟩), (noon, ⟨"PUT", "/api/session", "[]"⟩),
  (noon, ⟨"POST", "/api/compile/zpl", twinBoxes⟩)]

/-- The service after the requests, over a file. -/
def mixedService : Service Float :=
  (opened (.file none) true (.numbered 0) "printer" (.ok [])).after mixedRequests

/-- Sent back, the answer of the service is put in place. -/
theorem mixed_session_kept :
    (replacements mixedRequests : List (Session Float)).length = 1 ∧
    mixedService.handle noon
        ⟨"PUT", "/api/session", mixedService.sessionResponse.content.written⟩ =
      ({ mixedService with workspace := mixedService.workspace.save mixedService.session },
        mixedService.sessionResponse) := by
  have hone : (replacements mixedRequests : List (Session Float)).length = 1 := by decide +kernel
  have hopen : Editor.OpensFresh (Store.file none : Store Float).load (.numbered 0) := by
    decide +kernel
  have hfresh : Editor.Throughout Editor.TakesFresh
      (Editor.openStored (Store.file none : Store Float).load (.numbered 0))
      ((replacements mixedRequests).map .restore) := by decide +kernel
  have hrouting : Request.routing
      ⟨"PUT", "/api/session", mixedService.sessionResponse.content.written⟩ =
      .found .replaceSession := by decide +kernel
  have hshort : mixedService.sessionResponse.content.written.utf8ByteSize ≤ maxBodyLength := by
    decide +kernel
  have hportable : mixedService.session.Portable := by decide +kernel
  obtain ⟨-, -, -, hback, hreads⟩ := session_kept hopen hfresh true "printer" (.ok [])
  have hread : mixedService.session.ReadsBack :=
    hreads (Session.proper_stored_file none) hportable.saysItself
  exact ⟨hone, ((hback noon _ hrouting rfl).2 hshort hread).2.1⟩

/-- A session with a text as long as the longest body. -/
def overgrown : Session Float where
  document :=
    { labelSize := .standard
      elements := [{ Element.text (String.ofList (List.replicate maxBodyLength 'a')) with
        id := "a" }] }
  settings := .standard

/-- A service that starts with it. -/
def overgrownService : Service Float :=
  opened (.memory (some overgrown)) false (.numbered 0) "printer" (.ok [])

theorem session_overgrownService : overgrownService.session = overgrown := by
  have hsize : overgrown.document.labelSize.InOrder := Or.inl (by decide +kernel)
  have hids : DistinctIds overgrown.document.ids := by decide +kernel
  have hnormal := Document.normalize_of_distinct hsize hids (.numbered 0)
  show (Editor.ofSession overgrown (.numbered 0)).session = overgrown
  simp only [Editor.ofSession, Editor.load, Editor.session, hnormal]

/-- **An answer can be too long to be sent back.** The session would read back, but with what stands
around its text it is longer than a body may be. -/
theorem overgrown_refused :
    overgrownService.session.ReadsBack ∧
    overgrownService.handle noon ⟨"GET", "/api/session", ""⟩ =
      (overgrownService, overgrownService.sessionResponse) ∧
    overgrownService.handle noon
        ⟨"PUT", "/api/session", overgrownService.sessionResponse.content.written⟩ =
      (overgrownService, Refusal.bodyTooLong.response) := by
  have hreads : overgrownService.session.ReadsBack := by
    have hportable : overgrown.Portable := by decide +kernel
    rw [session_overgrownService]
    exact hportable.saysItself.readsBack hportable.proper
  have hlong : maxBodyLength <
      overgrownService.sessionResponse.content.written.utf8ByteSize := by
    show maxBodyLength < overgrownService.session.toTree.compact.utf8ByteSize
    have hlength := overgrown.length_lt_compact List.mem_cons_self rfl
    rw [String.toList_ofList, List.length_replicate] at hlength
    rwa [session_overgrownService]
  have hget : Request.routing ⟨"GET", "/api/session", ""⟩ = .found .readSession := by
    decide +kernel
  have hput : Request.routing
      ⟨"PUT", "/api/session", overgrownService.sessionResponse.content.written⟩ =
      .found .replaceSession := by decide +kernel
  refine ⟨hreads, ?_, handle_of_tooLong hput hlong⟩
  simp only [handle, hget, follow]

end Service

end Api

end ThermalLabel
