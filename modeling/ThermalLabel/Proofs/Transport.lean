import Mathlib.Algebra.Order.Floor.Div
import ThermalLabel.Transport.Chunks

/-! # What a delivery comes to

A job is cut into pieces, and a sink is handed one after another. Either it takes all of them and is
flushed then, or the delivery ends with the first piece that it refuses (`Sink.delivered_intact`).

A sink answers as it likes, and its state need not show what it was handed. It is therefore watched:
`Sink.watched` answers as the sink does and notes every call with its answer, so that the notes hold
the calls that a delivery makes, in order, and no others. -/

namespace ThermalLabel

/-! ### The number of pieces -/

/-- There are as many pieces as the size goes into the length, rounded up. -/
theorem length_pieces (size : Nat) (job : List UInt8) :
    (pieces size job).length = job.length ⌈/⌉ max size 1 := by
  have hsize : 0 < max size 1 := lt_max_of_lt_right Nat.one_pos
  fun_induction pieces size job with
  | case1 => exact (zero_ceilDiv _).symm
  | case2 job hne ih =>
    rw [List.length_cons, ih, List.length_drop]
    have hjob := List.length_pos_iff.mpr hne
    -- a rounded quotient is known by the numbers that are not below it
    refine eq_of_forall_ge_iff fun n => ?_
    rw [ceilDiv_le_iff_le_mul hsize]
    cases n with
    | zero => omega
    | succ n =>
      rw [Nat.succ_le_succ_iff, ceilDiv_le_iff_le_mul hsize, Nat.mul_succ]
      omega

namespace Sink

variable {σ ε : Type}

/-! ### What a sink does with pieces -/

/-- The sink takes pieces one after another, which leads it from one state to another. -/
inductive Takes (sink : Sink σ ε) : List (List UInt8) → σ → σ → Prop
  | nil (state : σ) : Takes sink [] state state
  | cons {piece : List UInt8} {rest : List (List UInt8)} {state next last : σ}
      (first : sink.write piece state = (next, .ok ())) (others : Takes sink rest next last) :
      Takes sink (piece :: rest) state last

/-- The sink takes the pieces before number `k` and refuses that one. -/
structure Refuses (sink : Sink σ ε) (row : List (List UInt8)) (k : Nat) (piece : List UInt8)
    (state after : σ) (reason : ε) : Prop where
  piece_at : row[k]? = some piece
  answered : ∃ between, sink.Takes (row.take k) state between ∧
    sink.write piece between = (after, .error reason)

variable {sink : Sink σ ε}

/-- Pieces are all taken, or there is a first one that is refused. -/
theorem takes_or_refuses (sink : Sink σ ε) (row : List (List UInt8)) (state : σ) :
    (∃ last, sink.Takes row state last) ∨
      ∃ k piece after reason, sink.Refuses row k piece state after reason := by
  induction row generalizing state with
  | nil => exact .inl ⟨state, .nil state⟩
  | cons piece rest ih =>
    rcases hwrite : sink.write piece state with ⟨next, reason | ⟨⟩⟩
    · exact .inr ⟨0, piece, next, reason, rfl, state, .nil state, hwrite⟩
    · rcases ih next with ⟨last, hothers⟩ | ⟨k, refused, after, reason, hat, between, hothers, hend⟩
      · exact .inl ⟨last, .cons hwrite hothers⟩
      · exact .inr ⟨k + 1, refused, after, reason, hat, between, .cons hwrite hothers, hend⟩

/-- Pieces that are taken leave the delivery with the ones behind them. -/
theorem Takes.deliver {row : List (List UInt8)} {state last : σ} (h : sink.Takes row state last)
    (count : Nat) (rest : List (List UInt8)) :
    sink.deliver count (row ++ rest) state = sink.deliver (count + row.length) rest last := by
  induction h generalizing count with
  | nil => rfl
  | cons first _ ih =>
    rw [List.cons_append, Sink.deliver, first]
    simp only
    rw [ih, List.length_cons, Nat.add_assoc, Nat.add_comm 1]

/-! ### Watching a sink -/

/-- A call of a sink and its answer. -/
inductive Call (ε : Type)
  | write (piece : List UInt8) (answer : Except ε Unit)
  | flush (answer : Except ε Unit)

/-- The call with a piece that was taken. -/
def Call.taken (piece : List UInt8) : Call ε := .write piece (.ok ())

/-- The sink with notes of its calls. -/
def watched (sink : Sink σ ε) : Sink (σ × List (Call ε)) ε where
  write piece s :=
    let (state, answer) := sink.write piece s.1
    ((state, s.2 ++ [.write piece answer]), answer)
  flush s :=
    let (state, answer) := sink.flush s.1
    ((state, s.2 ++ [.flush answer]), answer)

variable {piece : List UInt8} {state next : σ} {answer : Except ε Unit}

theorem watched_write (h : sink.write piece state = (next, answer)) (notes : List (Call ε)) :
    sink.watched.write piece (state, notes) = ((next, notes ++ [.write piece answer]), answer) := by
  simp only [watched, h]

theorem watched_flush (h : sink.flush state = (next, answer)) (notes : List (Call ε)) :
    sink.watched.flush (state, notes) = ((next, notes ++ [.flush answer]), answer) := by
  simp only [watched, h]

/-- A delivery does not depend on whether the sink is watched. -/
theorem deliver_watched (sink : Sink σ ε) (count : Nat) (row : List (List UInt8)) (state : σ)
    (notes : List (Call ε)) :
    ((sink.watched.deliver count row (state, notes)).1.1,
      (sink.watched.deliver count row (state, notes)).2) = sink.deliver count row state := by
  induction row generalizing count state notes with
  | nil =>
    rcases hflush : sink.flush state with ⟨closed, _ | ⟨⟩⟩ <;>
      simp only [deliver, hflush, watched_flush hflush]
  | cons piece rest ih =>
    rcases hwrite : sink.write piece state with ⟨next, _ | ⟨⟩⟩
    · simp only [deliver, hwrite, watched_write hwrite]
    · simp only [deliver, hwrite, watched_write hwrite, ih]

theorem Takes.watched {row : List (List UInt8)} {last : σ} (h : sink.Takes row state last)
    (notes : List (Call ε)) :
    sink.watched.Takes row (state, notes) (last, notes ++ row.map Call.taken) := by
  induction h generalizing notes with
  | nil state =>
    rw [List.map_nil, List.append_nil]
    exact .nil _
  | cons first _ ih =>
    rw [List.map_cons, List.append_cons]
    exact .cons (watched_write first notes) (ih _)

/-! ### Deliveries -/

/-- All pieces taken: one flush behind them, whose refusal is the only one there can be. -/
theorem Takes.delivery {row : List (List UInt8)} {last closed : σ}
    (h : sink.Takes row state last) (hflush : sink.flush last = (closed, answer)) :
    sink.watched.deliver 0 row (state, []) =
      ((closed, row.map Call.taken ++ [.flush answer]), answer.map fun _ => row.length) := by
  have hdeliver := (h.watched []).deliver 0 []
  rw [List.append_nil, List.nil_append, Nat.zero_add] at hdeliver
  rw [hdeliver, Sink.deliver, watched_flush hflush]
  rcases answer with _ | ⟨⟩ <;> rfl

/-- A piece refused: it is the last call. -/
theorem Refuses.delivery {row : List (List UInt8)} {k : Nat} {after : σ} {reason : ε}
    (h : sink.Refuses row k piece state after reason) :
    sink.watched.deliver 0 row (state, []) =
      ((after, (row.take k).map Call.taken ++ [.write piece (.error reason)]), .error reason) := by
  obtain ⟨hat, between, htakes, hrefused⟩ := h
  obtain ⟨hk, rfl⟩ := List.getElem?_eq_some_iff.mp hat
  have hdeliver := (htakes.watched []).deliver 0 (row.drop k)
  rw [List.take_append_drop, List.drop_eq_getElem_cons hk, List.nil_append] at hdeliver
  rw [hdeliver, Sink.deliver, watched_write hrefused]

/-- **A job is delivered whole, or up to the piece that is refused.** The pieces are consecutive,
not empty and not longer than the size, and there are as many as the size goes into the length,
rounded up. Any sink either takes them all or refuses a first one. If it takes them all, it is
handed these pieces in order and flushed once then, and the answer is their number, unless the flush
is refused. If it refuses one, it was handed the pieces before that one, which are the beginning of
the job, then that one, and nothing else; the answer is the reason. -/
theorem delivered_intact (sink : Sink σ ε) (size : Nat) (job : List UInt8) (state : σ) :
    let row := pieces size job
    let run := sink.watched.send size job (state, [])
    (row.flatten = job ∧ (∀ piece ∈ row, 0 < piece.length ∧ piece.length ≤ max size 1) ∧
        row.length = job.length ⌈/⌉ max size 1) ∧
      (run.1.1, run.2) = sink.send size job state ∧
      ((∃ last, sink.Takes row state last) ∨
        ∃ k piece after reason, sink.Refuses row k piece state after reason) ∧
      (∀ last closed answer, sink.Takes row state last → sink.flush last = (closed, answer) →
        run = ((closed, row.map Call.taken ++ [.flush answer]),
          answer.map fun _ => row.length)) ∧
      ∀ k piece after reason, sink.Refuses row k piece state after reason →
        (row.take k).flatten <+: job ∧
          run = ((after, (row.take k).map Call.taken ++ [.write piece (.error reason)]),
            .error reason) := by
  refine ⟨⟨flatten_pieces size job, fun _ => length_of_mem_pieces, length_pieces size job⟩,
    sink.deliver_watched 0 _ state [], sink.takes_or_refuses _ state, ?_, ?_⟩
  · intro last closed answer htakes hflush
    exact htakes.delivery hflush
  · intro k piece after reason hrefuses
    refine ⟨?_, hrefuses.delivery⟩
    have hprefix := (List.take_prefix k (pieces size job)).flatten
    rwa [flatten_pieces] at hprefix

/-- A sink with room for some bytes. Of a piece that is too long it keeps the bytes that fit. -/
def withRoom (room : Nat) : Sink (List UInt8) Unit where
  write piece kept :=
    ((kept ++ piece).take room, if (kept ++ piece).length ≤ room then .ok () else .error ())
  flush kept := (kept, .ok ())

/-- Seven bytes in pieces of two. With room for five of them the third piece is refused, although
half of it is kept; with room for nine the last piece is a single byte. -/
theorem seven_bytes_delivered :
    let job : List UInt8 := [1, 2, 3, 4, 5, 6, 7]
    ((withRoom 5).Refuses (pieces 2 job) 2 [5, 6] [] [1, 2, 3, 4, 5] () ∧
      (withRoom 5).watched.send 2 job ([], []) =
        (([1, 2, 3, 4, 5], [.write [1, 2] (.ok ()), .write [3, 4] (.ok ()),
          .write [5, 6] (.error ())]), .error ())) ∧
      (withRoom 9).Takes (pieces 2 job) [] job ∧
      (withRoom 9).watched.send 2 job ([], []) =
        ((job, [.write [1, 2] (.ok ()), .write [3, 4] (.ok ()), .write [5, 6] (.ok ()),
          .write [7] (.ok ()), .flush (.ok ())]), .ok 4) := by
  intro job
  have hrow : pieces 2 job = [[1, 2], [3, 4], [5, 6], [7]] := by simp [pieces, job]
  have hrefuses : (withRoom 5).Refuses (pieces 2 job) 2 [5, 6] [] [1, 2, 3, 4, 5] () := by
    rw [hrow]
    exact ⟨rfl, [1, 2, 3, 4], .cons rfl (.cons rfl (.nil _)), rfl⟩
  have htakes : (withRoom 9).Takes (pieces 2 job) [] job := by
    rw [hrow]
    exact .cons rfl (.cons rfl (.cons rfl (.cons rfl (.nil _))))
  have hrefused := ((delivered_intact (withRoom 5) 2 job []).2.2.2.2 2 _ _ _ hrefuses).2
  have htaken := (delivered_intact (withRoom 9) 2 job []).2.2.2.1 job _ _ htakes rfl
  rw [hrow] at hrefused htaken
  exact ⟨⟨hrefuses, hrefused⟩, htakes, htaken⟩

end Sink

end ThermalLabel
