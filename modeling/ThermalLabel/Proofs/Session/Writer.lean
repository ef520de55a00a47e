import Mathlib.Data.List.NodupEquivFin
import ThermalLabel.Decimal.Exact
import ThermalLabel.Session.Store
import ThermalLabel.Session.Writer

/-! # What the background writer writes

Saves come in from any number of senders while the writer takes its steps, and at last it is asked
to stop. However these alternate, the writer skips states but never changes their order, it stops,
and it has then written the state that was saved last (`last_save_written`).

What carries this is the row of the states that are written, held and still in the queue: a request
puts a state at its end, and a step of the writer takes out at most one, which is never the last. -/

namespace ThermalLabel

variable {β : Type}

/-! ### Requests -/

namespace WriteRequest

/-- The states that are to be saved. -/
def states : List (WriteRequest β) → List β
  | [] => []
  | .save state :: rest => state :: states rest
  | .stop :: rest => states rest

theorem states_append (requests more : List (WriteRequest β)) :
    states (requests ++ more) = states requests ++ states more := by
  induction requests with
  | nil => rfl
  | cons request rest ih => cases request <;> simp [states, ih]

/-- Saves, and then the request to stop if it was made. -/
def agenda (saves : List β) (closing : Bool) : List (WriteRequest β) :=
  saves.map .save ++ if closing then [.stop] else []

variable {state : β} {saves : List β} {closing : Bool} {rest : List (WriteRequest β)}

theorem exists_agenda_of_save (h : .save state :: rest = agenda saves closing) :
    ∃ more, rest = agenda more closing := by
  cases saves with
  | nil => cases closing <;> cases h
  | cons first more => exact ⟨more, (List.cons.inj h).2⟩

theorem closing_of_stop (h : .stop :: rest = agenda saves closing) :
    closing = true ∧ rest = [] := by
  cases saves with
  | nil =>
    cases closing with
    | false => cases h
    | true => exact ⟨rfl, (List.cons.inj h).2⟩
  | cons first more => cases (List.cons.inj h).1

end WriteRequest

/-! ### Steps -/

namespace WriterPhase

/-- The state that a writer holds. -/
def held : WriterPhase β → List β
  | .collecting state | .writing state _ => [state]
  | _ => []

/-- Whether the request to stop was taken from the queue. -/
def isClosing : WriterPhase β → Bool
  | .writing _ stops => stops
  | .stopped => true
  | _ => false

end WriterPhase

namespace Writer

/-- All that a step of the writer can be. -/
inductive Work : Writer β → Writer β → Prop
  /-- A state taken up. -/
  | receive (state queue written) :
      Work ⟨.save state :: queue, .waiting, written⟩ ⟨queue, .collecting state, written⟩
  | halt (queue written) : Work ⟨.stop :: queue, .waiting, written⟩ ⟨queue, .stopped, written⟩
  /-- A newer state taken up in place of the one held. -/
  | replace (state newer queue written) :
      Work ⟨.save newer :: queue, .collecting state, written⟩ ⟨queue, .collecting newer, written⟩
  /-- No newer state found. -/
  | settle (state written) :
      Work ⟨[], .collecting state, written⟩ ⟨[], .writing state false, written⟩
  /-- No newer state to come. -/
  | close (state queue written) :
      Work ⟨.stop :: queue, .collecting state, written⟩ ⟨queue, .writing state true, written⟩
  | write (state queue written) :
      Work ⟨queue, .writing state false, written⟩ ⟨queue, .waiting, written ++ [state]⟩
  | writeLast (state queue written) :
      Work ⟨queue, .writing state true, written⟩ ⟨queue, .stopped, written ++ [state]⟩

theorem work_of_work? {w next : Writer β} (h : w.work? = some next) : Work w next := by
  obtain ⟨queue, phase, written⟩ := w
  cases phase with
  | waiting =>
    match queue, h with
    | .save state :: queue, rfl => exact .receive state queue written
    | .stop :: queue, rfl => exact .halt queue written
  | collecting state =>
    match queue, h with
    | [], rfl => exact .settle state written
    | .save newer :: queue, rfl => exact .replace state newer queue written
    | .stop :: queue, rfl => exact .close state queue written
  | writing state stops =>
    match stops, h with
    | false, rfl => exact .write state queue written
    | true, rfl => exact .writeLast state queue written
  | stopped => cases h

/-- The writer can take no step only while it waits for a request, and once it has stopped. -/
theorem work?_eq_none_iff {w : Writer β} :
    w.work? = none ↔ (w.phase = .waiting ∧ w.queue = []) ∨ w.phase = .stopped := by
  obtain ⟨queue, phase, written⟩ := w
  cases phase with
  | waiting => rcases queue with _ | ⟨_ | _, queue⟩ <;> simp [work?]
  | collecting state => rcases queue with _ | ⟨_ | _, queue⟩ <;> simp [work?]
  | writing state stops => cases stops <;> simp [work?]
  | stopped => simp [work?]

/-! ### The row of the states -/

/-- All states that the writer has not skipped: written, held, or still in the queue. -/
def row (w : Writer β) : List β := w.written ++ w.phase.held ++ WriteRequest.states w.queue

theorem row_request_save (w : Writer β) (state : β) :
    (w.request (.save state)).row = w.row ++ [state] := by
  simp only [row, request, WriteRequest.states_append, List.append_assoc]
  rfl

theorem row_request_stop (w : Writer β) : (w.request .stop).row = w.row := by
  simp only [row, request, WriteRequest.states_append]
  exact congrArg _ (List.append_nil _)

/-- A step takes no state out of the row, or one that has a newer one behind it. -/
theorem Work.row {w next : Writer β} (h : Work w next) :
    next.row.Sublist w.row ∧ next.row.getLast? = w.row.getLast? := by
  cases h with
  | replace state newer queue written =>
    have hbefore : Writer.row ⟨.save newer :: queue, .collecting state, written⟩ =
        written ++ state :: newer :: WriteRequest.states queue := by
      simp [Writer.row, WriterPhase.held, WriteRequest.states]
    have hafter : Writer.row ⟨queue, .collecting newer, written⟩ =
        written ++ newer :: WriteRequest.states queue := by
      simp [Writer.row, WriterPhase.held]
    rw [hbefore, hafter]
    refine ⟨(List.sublist_cons_self state _).append_left written, ?_⟩
    rw [List.getLast?_append, List.getLast?_append, List.getLast?_cons_cons]
  | receive | halt | settle | close | write | writeLast =>
    simp [Writer.row, WriterPhase.held, WriteRequest.states]

/-! ### Courses -/

/-- The course of a writer: the states saved so far in the order of the queue, whether a stop was
requested since, the number of steps that the writer has taken, and the writer then. Saves and steps
alternate in any way; the request to stop is the last one. -/
inductive Course : List β → Bool → Nat → Writer β → Prop
  | start : Course [] false 0 idle
  | save {saved steps w} (course : Course saved false steps w) (state : β) :
      Course (saved ++ [state]) false steps (w.request (.save state))
  | stop {saved steps w} (course : Course saved false steps w) :
      Course saved true steps (w.request .stop)
  | work {saved closing steps w next} (course : Course saved closing steps w)
      (step : w.work? = some next) : Course saved closing (steps + 1) next

/-- What is in the queue: saves, and the request to stop behind them until it is taken. -/
def Awaits (closing : Bool) (w : Writer β) : Prop :=
  if w.phase.isClosing then closing = true ∧ w.queue = []
  else ∃ saves, w.queue = WriteRequest.agenda saves closing

variable {saved : List β} {closing : Bool} {steps : Nat} {w next : Writer β}

theorem Awaits.exists_agenda (h : Awaits closing w) (hopen : w.phase.isClosing = false) :
    ∃ saves, w.queue = WriteRequest.agenda saves closing := by
  rwa [Awaits, hopen, if_neg Bool.false_ne_true] at h

theorem Awaits.isClosing_eq_false (h : Awaits false w) : w.phase.isClosing = false := by
  by_contra hclosing
  rw [Awaits, if_pos (Bool.eq_true_of_not_eq_false hclosing)] at h
  cases h.1

theorem Awaits.request_save (h : Awaits false w) (state : β) :
    Awaits false (w.request (.save state)) := by
  have hopen := h.isClosing_eq_false
  obtain ⟨saves, hqueue⟩ := h.exists_agenda hopen
  refine (if_neg (Bool.eq_false_iff.mp hopen)).mpr ⟨saves ++ [state], ?_⟩
  simp [request, hqueue, WriteRequest.agenda]

theorem Awaits.request_stop (h : Awaits false w) : Awaits true (w.request .stop) := by
  have hopen := h.isClosing_eq_false
  obtain ⟨saves, hqueue⟩ := h.exists_agenda hopen
  refine (if_neg (Bool.eq_false_iff.mp hopen)).mpr ⟨saves, ?_⟩
  simp [request, hqueue, WriteRequest.agenda]

theorem Awaits.work (h : Awaits closing w) (hwork : Work w next) : Awaits closing next := by
  cases hwork with
  | receive | replace =>
    obtain ⟨saves, hqueue⟩ := h.exists_agenda rfl
    exact WriteRequest.exists_agenda_of_save hqueue
  | halt | close =>
    obtain ⟨saves, hqueue⟩ := h.exists_agenda rfl
    exact WriteRequest.closing_of_stop hqueue
  | settle | write | writeLast => exact h

theorem Course.awaits (h : Course saved closing steps w) : Awaits closing w := by
  induction h with
  | start => exact ⟨[], rfl⟩
  | save _ state ih => exact ih.request_save state
  | stop _ ih => exact ih.request_stop
  | work _ step ih => exact ih.work (work_of_work? step)

/-- States are skipped on their way, but not the last one. -/
theorem Course.row (h : Course saved closing steps w) :
    w.row.Sublist saved ∧ w.row.getLast? = saved.getLast? := by
  induction h with
  | start => exact ⟨List.Sublist.refl _, rfl⟩
  | save _ state ih =>
    rw [row_request_save]
    refine ⟨ih.1.append_right [state], ?_⟩
    rw [List.getLast?_concat, List.getLast?_concat]
  | stop _ ih => rwa [row_request_stop]
  | work _ step ih =>
    have hwork := (work_of_work? step).row
    exact ⟨hwork.1.trans ih.1, hwork.2.trans ih.2⟩

/-- A request gives the writer three steps to take at most. -/
theorem Course.steps_add_weight_le (h : Course saved closing steps w) :
    steps + w.weight ≤ 3 * (saved.length + closing.toNat) := by
  have hrequest : ∀ (w : Writer β) request, (w.request request).weight = w.weight + 3 := by
    intro w request
    simp only [weight, Writer.request, List.length_append, List.length_singleton]
    omega
  induction h with
  | start => exact Nat.le_refl 0
  | save _ state ih =>
    rw [hrequest, List.length_append, List.length_singleton]
    omega
  | stop _ ih =>
    rw [hrequest, Bool.toNat_true]
    rw [Bool.toNat_false] at ih
    omega
  | work _ step ih =>
    have hless := weight_lt_of_work? step
    omega

/-- Once the stop is requested, the writer never waits. -/
theorem Course.exists_work? (h : Course saved true steps w) (hrunning : w.phase ≠ .stopped) :
    ∃ next, w.work? = some next := by
  rw [← Option.ne_none_iff_exists']
  intro hnone
  obtain ⟨hwaiting, hempty⟩ := (work?_eq_none_iff.mp hnone).resolve_right hrunning
  obtain ⟨saves, hqueue⟩ := h.awaits.exists_agenda (by rw [hwaiting]; rfl)
  rw [hempty] at hqueue
  cases saves <;> cases hqueue

/-- A writer that has stopped was asked to, and nothing is left to be written. -/
theorem Course.row_of_stopped (h : Course saved closing steps w) (hstopped : w.phase = .stopped) :
    closing = true ∧ w.row = w.written := by
  have hawaits := h.awaits
  rw [Awaits, hstopped] at hawaits
  refine ⟨hawaits.1, ?_⟩
  rw [Writer.row, hstopped, hawaits.2]
  simp [WriterPhase.held, WriteRequest.states]

/-- All the steps that the writer can take belong to its course. -/
theorem Course.drain (h : Course saved closing steps w) :
    ∃ steps, Course saved closing steps w.drain ∧ w.drain.work? = none := by
  fun_induction Writer.drain w generalizing steps with
  | case1 w hnone => exact ⟨steps, h, hnone⟩
  | case2 w next hnext ih => exact ih (h.work hnext)

/-- A writer that is closed writes the state that was saved last. -/
theorem Course.getLast?_close (h : Course saved false steps w) :
    w.close.written.getLast? = saved.getLast? := by
  obtain ⟨steps, hdrain, hnone⟩ := h.stop.drain
  have hstopped : w.close.phase = .stopped := by
    by_contra hrunning
    obtain ⟨next, hnext⟩ := hdrain.exists_work? hrunning
    rw [hnone] at hnext
    cases hnext
  have hrow : w.close.row = w.close.written := (hdrain.row_of_stopped hstopped).2
  rw [← hrow]
  exact hdrain.row.2

end Writer

/-! ### The store -/

variable {α : Type} [NumberText α]

/-- Of several sessions written to a store the last one is there. -/
theorem Store.foldl_save (sessions : List (Session α)) (store : Store α) :
    sessions.foldl Store.save store = sessions.getLast?.elim store store.save := by
  induction sessions generalizing store with
  | nil => rfl
  | cons session rest ih =>
    rw [List.foldl_cons, ih]
    cases rest with
    | nil => rfl
    | cons newer rest =>
      rw [List.getLast?_cons_cons]
      cases store <;> rfl

/-- **The writer loses and reorders nothing.** Whatever course the writer takes, what it has written
stands among the saved sessions in the same order, and it takes three steps for a request at most.
Once it is asked to stop, it takes steps until it has stopped; then the store holds the session that
was saved last, or what it held before if none was saved. -/
theorem Writer.last_save_written {saved : List (Session α)} {closing : Bool} {steps : Nat}
    {w : Writer (Session α)} (h : Course saved closing steps w) :
    (∃ place : Fin w.written.length ↪o Fin saved.length,
        ∀ i, w.written.get i = saved.get (place i)) ∧
      steps ≤ 3 * (saved.length + 1) ∧
      (closing = true → w.phase ≠ .stopped → ∃ next, w.work? = some next) ∧
      (w.phase = .stopped → closing = true ∧
        ∀ store : Store α, w.written.foldl Store.save store = saved.getLast?.elim store store.save)
    := by
  refine ⟨?_, ?_, ?_, fun hstopped => ?_⟩
  · rw [← List.sublist_iff_exists_fin_orderEmbedding_get_eq]
    refine List.Sublist.trans ?_ h.row.1
    rw [Writer.row, List.append_assoc]
    exact List.sublist_append_left _ _
  · have hsteps := h.steps_add_weight_le
    have hone := Bool.toNat_le closing
    omega
  · rintro rfl hrunning
    exact h.exists_work? hrunning
  · obtain ⟨hclosing, hrow⟩ := h.row_of_stopped hstopped
    refine ⟨hclosing, fun store => ?_⟩
    rw [Store.foldl_save, ← hrow, h.row.2]

/-- A session without elements on a grid. -/
def gridOf (gridSize : Rat) : Session Rat :=
  ⟨Document.empty LabelSize.standard, ⟨StringMap.empty, .tspl, gridSize⟩⟩

/-- The second of three saves comes in time to replace the first one, and the third one does not; it
is met together with the request to stop. -/
theorem Writer.last_of_three_saves_written :
    ∃ steps w, Course [gridOf (1 / 2), gridOf (3 / 2), gridOf (5 / 2)] true steps w ∧
      w.written = [gridOf (3 / 2), gridOf (5 / 2)] ∧ w.phase = .stopped ∧
      w.written.foldl Store.save (.memory none) = .memory (some (gridOf (5 / 2))) := by
  have hheld : Course [gridOf (1 / 2)] false 1 _ := (Course.start.save (gridOf (1 / 2))).work rfl
  have hnewer : Course [gridOf (1 / 2), gridOf (3 / 2)] false 3 _ :=
    ((hheld.save (gridOf (3 / 2))).work rfl).work rfl
  have hcourse : Course [gridOf (1 / 2), gridOf (3 / 2), gridOf (5 / 2)] true 7 _ :=
    (((((hnewer.save (gridOf (5 / 2))).stop).work rfl).work rfl).work rfl).work rfl
  exact ⟨7, _, hcourse, rfl, rfl, ((last_save_written hcourse).2.2.2 rfl).2 (.memory none)⟩

end ThermalLabel
