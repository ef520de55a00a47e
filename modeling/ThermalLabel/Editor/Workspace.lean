import ThermalLabel.Editor.Operation
import ThermalLabel.Session.Store
import ThermalLabel.Session.Writer

/-! # Workspaces

A workspace is an editor over the store of its session. It saves at once or through a background
writer; then the store changes only when the writer gets to it, at the latest when the workspace is
closed. -/

namespace ThermalLabel

/-- An editor over a store. -/
structure Workspace (α : Type) where
  editor : Editor α
  store : Store α
  /-- The writer that saves go through, if there is one. -/
  writer : Option (Writer (Session α))

namespace Workspace

variable {α β : Type} [Scalar α] [NumberText α]

/-- A workspace over a store, with or without a background writer. -/
def ofStore (store : Store α) (background : Bool) (supply : IdSupply) : Workspace α where
  editor := Editor.openStored store.load supply
  store := store
  writer := if background then some Writer.idle else none

/-- The workspace after a session is saved. -/
def save (w : Workspace α) (s : Session α) : Workspace α :=
  match w.writer with
  | none => { w with store := w.store.save s }
  | some writer => { w with writer := some (writer.request (.save s)) }

/-- The workspace after an operation on its editor. -/
def after (w : Workspace α) (r : Reply α β) : Workspace α :=
  let w := { w with editor := r.editor }
  match r.saved? with
  | some session => w.save session
  | none => w

/-- An operation carried out, and what the operator learns from it. -/
def perform (w : Workspace α) (op : Operation α) : Workspace α × Outcome :=
  let reply := w.editor.perform op
  (w.after reply, reply.value)

/-- The store after all saves are written. -/
def close (w : Workspace α) : Store α :=
  match w.writer with
  | none => w.store
  | some writer => writer.close.written.foldl Store.save w.store

/-- The workspace closed and opened again. -/
def reopen (w : Workspace α) : Workspace α := ofStore w.close w.writer.isSome w.editor.supply

end Workspace

end ThermalLabel
