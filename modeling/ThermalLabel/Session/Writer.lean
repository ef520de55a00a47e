/-! # The background writer

Saves must not keep an operator waiting, so they are put in a queue and a writer works through it.
The writer takes a state from the queue, replaces it by newer ones as long as there are any, and
then writes the one it holds. A stop request ends its work.

The queue is first in, first out. The requests of the senders and the steps of the writer may come
in any order; `Writer.work?` is one step of the writer, and `Writer.drain` all it can do before the
next request. -/

namespace ThermalLabel

/-- What a writer is asked to do. -/
inductive WriteRequest (β : Type) where
  | save (state : β)
  | stop
deriving DecidableEq

/-- What a writer is doing. -/
inductive WriterPhase (β : Type) where
  /-- Waiting for a request. -/
  | waiting
  /-- Looking for a newer state than the one it holds. -/
  | collecting (state : β)
  /-- About to write a state, and to stop afterwards if it was asked to. -/
  | writing (state : β) (stops : Bool)
  | stopped
deriving DecidableEq

/-- A writer with its queue. -/
structure Writer (β : Type) where
  queue : List (WriteRequest β)
  phase : WriterPhase β
  /-- What has been written, first one first. -/
  written : List β

namespace Writer

variable {β : Type}

/-- A writer that nothing was asked of. -/
def idle : Writer β := ⟨[], .waiting, []⟩

/-- The writer after a request was put in its queue. -/
def request (w : Writer β) (r : WriteRequest β) : Writer β := { w with queue := w.queue ++ [r] }

/-- One step of the writer; nothing while it waits for a request, and nothing once it has stopped.
-/
def work? (w : Writer β) : Option (Writer β) :=
  match w.phase, w.queue with
  | .waiting, [] => none
  | .waiting, .save state :: queue => some { w with queue, phase := .collecting state }
  | .waiting, .stop :: queue => some { w with queue, phase := .stopped }
  | .collecting state, [] => some { w with phase := .writing state false }
  | .collecting _, .save newer :: queue => some { w with queue, phase := .collecting newer }
  | .collecting state, .stop :: queue => some { w with queue, phase := .writing state true }
  | .writing state false, _ => some { w with phase := .waiting, written := w.written ++ [state] }
  | .writing state true, _ => some { w with phase := .stopped, written := w.written ++ [state] }
  | .stopped, _ => none

/-- How many steps are left in a phase at most. -/
def WriterPhase.weight : WriterPhase β → Nat
  | .collecting _ => 2
  | .writing _ _ => 1
  | _ => 0

/-- A bound on the steps that a writer can take without a new request. -/
def weight (w : Writer β) : Nat := 3 * w.queue.length + WriterPhase.weight w.phase

theorem weight_lt_of_work? {w next : Writer β} (h : w.work? = some next) :
    next.weight < w.weight := by
  obtain ⟨queue, phase, written⟩ := w
  unfold work? at h
  split at h <;> simp_all only [Option.some.injEq, reduceCtorEq]
  all_goals subst h
  all_goals simp only [weight, WriterPhase.weight, List.length_cons]
  all_goals omega

/-- The writer after all the steps that it can take. -/
def drain (w : Writer β) : Writer β :=
  match _h : w.work? with
  | none => w
  | some next => next.drain
termination_by w.weight
decreasing_by exact weight_lt_of_work? _h

/-- The writer after a last request to stop and all its work. -/
def close (w : Writer β) : Writer β := (w.request .stop).drain

end Writer

end ThermalLabel
