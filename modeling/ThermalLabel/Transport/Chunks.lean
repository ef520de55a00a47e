/-! # Chunked delivery

A printer has little room for what it has not printed yet, so a job is handed over in pieces. A sink
takes the pieces one after another; the first refusal ends the delivery, and the last piece is
followed by a flush. -/

namespace ThermalLabel

/-- A job cut into pieces of `size` bytes, the last one shorter if it has to be. A size of nothing
counts as one. -/
def pieces (size : Nat) (job : List UInt8) : List (List UInt8) :=
  if _h : job = [] then []
  else job.take (max size 1) :: pieces size (job.drop (max size 1))
termination_by job.length
decreasing_by
  have := List.length_pos_iff.mpr _h
  rw [List.length_drop]
  omega

/-- Nothing is lost, and the order is kept. -/
theorem flatten_pieces (size : Nat) (job : List UInt8) : (pieces size job).flatten = job := by
  fun_induction pieces size job with
  | case1 => rfl
  | case2 job _ ih => rw [List.flatten_cons, ih, List.take_append_drop]

/-- A piece is not empty and not longer than the size. -/
theorem length_of_mem_pieces {size : Nat} {job piece : List UInt8} (h : piece ∈ pieces size job) :
    0 < piece.length ∧ piece.length ≤ max size 1 := by
  fun_induction pieces size job with
  | case1 => simp at h
  | case2 job hne ih =>
    rcases List.mem_cons.mp h with rfl | h
    · have := List.length_pos_iff.mpr hne
      rw [List.length_take]
      omega
    · exact ih h

/-- Something in a state that takes bytes, or refuses them for a reason. What it refuses may leave
it in another state too, as a file that is full after the first bytes. -/
structure Sink (σ ε : Type) where
  write : List UInt8 → σ → σ × Except ε Unit
  flush : σ → σ × Except ε Unit

namespace Sink

variable {σ ε : Type}

/-- Pieces handed over, after `taken` others: the state that the sink is left in, and the number of
pieces taken or the reason of the first refusal. -/
def deliver (sink : Sink σ ε) : Nat → List (List UInt8) → σ → σ × Except ε Nat
  | taken, [], state =>
    match sink.flush state with
    | (state, .ok ()) => (state, .ok taken)
    | (state, .error reason) => (state, .error reason)
  | taken, piece :: rest, state =>
    match sink.write piece state with
    | (state, .ok ()) => deliver sink (taken + 1) rest state
    | (state, .error reason) => (state, .error reason)

/-- A job handed over in pieces of at most `size` bytes. -/
def send (sink : Sink σ ε) (size : Nat) (job : List UInt8) (state : σ) : σ × Except ε Nat :=
  sink.deliver 0 (pieces size job) state

end Sink

/-- What a sink was given: the pieces, last one first, and the number of flushes. -/
structure DeliveryLog where
  pieces : List (List UInt8)
  flushes : Nat

namespace DeliveryLog

/-- The log of a sink that was given nothing. -/
def empty : DeliveryLog := ⟨[], 0⟩

/-- The sink that writes a log and refuses the piece with a number, if one is given. -/
def sink (refused : Option Nat) : Sink DeliveryLog Unit where
  write piece log :=
    if refused.any (· == log.pieces.length) then (log, .error ())
    else ({ log with pieces := piece :: log.pieces }, .ok ())
  flush log := ({ log with flushes := log.flushes + 1 }, .ok ())

/-- The bytes of all pieces, in order. -/
def bytes (log : DeliveryLog) : List UInt8 := log.pieces.reverse.flatten

end DeliveryLog

end ThermalLabel
