import ThermalLabel.Editor.Edit

/-! # Operations

Everything that an operator can do to an editor, as data. -/

namespace ThermalLabel

/-- An operation on an editor. -/
inductive Operation (α : Type) where
  | pointerDown (target : PointerTarget) (pos : Point α) (modifiers : Modifiers)
  | pointerMove (pos : Point α) (modifiers : Modifiers)
  | pointerUp (pos : Point α) (modifiers : Modifiers)
  | cancel
  | select (id : ElementId)
  | selectAll
  | clearSelection
  | add (kind : Kind) (patch : Patch α)
  | update (id : ElementId) (patch : Patch α)
  | delete
  | duplicate
  | reorder (id : ElementId) (how : Reorder)
  | nudge (offset : Point α)
  | align (alignment : Alignment)
  | distribute (distribution : Distribution)
  | undo
  | redo
  | setLabelSize (size : LabelSize α)
  | applyPreset (name : String)
  | reset
  | restore (session : Session α)
  | importTemplate (text : String)
  | setVariable (key value : String)
  | removeVariable (key : String)
  | setLanguage (language : Language)
  | setGrid (size : α)
  | measure (id : ElementId) (size : Size α)
  | setZoom (zoom : α)

/-- What an operator learns from an operation. -/
inductive Outcome where
  | done
  | flag (holds : Bool)
  | element (id : ElementId)
  | elements (ids : List ElementId)
  | failed (error : Error)
deriving DecidableEq

/-- The outcome of an operation that may fail. -/
def Outcome.ofExcept : Except Error Unit → Outcome
  | .ok () => .done
  | .error error => .failed error

namespace Editor

variable {α : Type} [Scalar α] [NumberText α]

/-- An operation carried out. -/
def perform (e : Editor α) : Operation α → Reply α Outcome
  | .pointerDown target pos modifiers => (e.pointerDown target pos modifiers).keeping .done
  | .pointerMove pos modifiers => (e.pointerMove pos modifiers).keeping .done
  | .pointerUp pos modifiers => (e.pointerUp pos modifiers).map fun _ => .done
  | .cancel => e.cancel.keeping .done
  | .select id => (e.select id).keeping .done
  | .selectAll => e.selectAll.keeping .done
  | .clearSelection => e.clearSelection.keeping .done
  | .add kind patch => (e.add kind patch).map .element
  | .update id patch => (e.update id patch).map .flag
  | .delete => e.delete.map fun _ => .done
  | .duplicate => e.duplicate.map .elements
  | .reorder id how => (e.reorder id how).map fun _ => .done
  | .nudge offset => (e.nudge offset).map fun _ => .done
  | .align alignment => (e.align alignment).map fun _ => .done
  | .distribute distribution => (e.distribute distribution).map fun _ => .done
  | .undo => e.undo.map .flag
  | .redo => e.redo.map .flag
  | .setLabelSize size => (e.setLabelSize size).map .flag
  | .applyPreset name => (e.applyPreset name).map .ofExcept
  | .reset => e.reset.map fun _ => .done
  | .restore session => (e.restore session).map fun _ => .done
  | .importTemplate text => (e.importTemplate text).map .ofExcept
  | .setVariable key value => (e.setVariable key value).map fun _ => .done
  | .removeVariable key => (e.removeVariable key).map .flag
  | .setLanguage language => (e.setLanguage language).map fun _ => .done
  | .setGrid size => (e.setGrid size).map fun _ => .done
  | .measure id size => (e.measure id size).keeping .done
  | .setZoom zoom => (e.setZoom zoom).keeping .done

end Editor

end ThermalLabel
