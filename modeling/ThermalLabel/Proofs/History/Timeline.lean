import ThermalLabel.Proofs.History.Stacks

/-! # Timelines

A timeline is a present with a past and a future, and nothing in it is counted: it says what a
history is for. A history with a cursor in a row of snapshots serves every row of requests as a
timeline does that keeps so many entries of its past (`bounded_refines_unbounded`). What such a
timeline has forgotten, when it is compared with one that forgets nothing, are the oldest entries.
-/

namespace ThermalLabel

/-- What is asked of a history. -/
inductive HistoryRequest (β : Type) where
  | commit (snapshot : β)
  | undo
  | redo
  | reset (initial : β)
deriving DecidableEq

/-- A present between a past, the latest first, and a future, the next first. -/
structure Timeline (β : Type) where
  past : List β
  present : β
  future : List β

variable {β : Type}

/-- The answer to undo or redo: where they lead to, or the state from before and no snapshot. -/
def answer {σ : Type} (present : σ → β) (before : σ) : Option σ → σ × Option β
  | some after => (after, some (present after))
  | none => (before, none)

/-- A row of requests served one after another: the last state, and the answers. -/
def serveAll {σ ρ ω : Type} (serve : σ → ρ → σ × ω) : σ → List ρ → σ × List ω
  | s, [] => (s, [])
  | s, request :: requests =>
    let served := serve s request
    let rest := serveAll serve served.1 requests
    (rest.1, served.2 :: rest.2)

/-- A simulation of one request, under an invariant, is one of a row of them. -/
theorem serveAll_of_simulates {σ τ ρ ω : Type} {serve : σ → ρ → σ × ω} {serve' : τ → ρ → τ × ω}
    {abs : σ → τ} {I : σ → Prop} (hkeeps : ∀ s r, I s → I (serve s r).1)
    (hstep : ∀ s r, I s → serve' (abs s) r = (abs (serve s r).1, (serve s r).2)) {s : σ}
    (hs : I s) (requests : List ρ) :
    I (serveAll serve s requests).1 ∧
      serveAll serve' (abs s) requests =
        (abs (serveAll serve s requests).1, (serveAll serve s requests).2) := by
  induction requests generalizing s with
  | nil => exact ⟨hs, rfl⟩
  | cons r requests ih =>
    obtain ⟨hlast, hrest⟩ := ih (hkeeps s r hs)
    refine ⟨hlast, ?_⟩
    simp only [serveAll, hstep s r hs, hrest]

/-! ### What a timeline does -/

namespace Timeline

/-- The timeline without past and future. -/
def of (initial : β) : Timeline β := ⟨[], initial, []⟩

/-- A new present. The old one goes to the past, and the future is gone. -/
def commit (t : Timeline β) (snapshot : β) : Timeline β := ⟨t.present :: t.past, snapshot, []⟩

/-- The latest entry of the past as the present; the present goes to the future. -/
def undo? (t : Timeline β) : Option (Timeline β) :=
  match t.past with
  | [] => none
  | earlier :: past => some ⟨past, earlier, t.present :: t.future⟩

/-- The next entry of the future as the present; the present goes to the past. -/
def redo? (t : Timeline β) : Option (Timeline β) :=
  match t.future with
  | [] => none
  | later :: future => some ⟨t.present :: t.past, later, future⟩

/-- The timeline with the latest entries of its past, or with all of them. -/
def keeping (room : Option Nat) (t : Timeline β) : Timeline β :=
  match room with
  | some n => { t with past := t.past.take n }
  | none => t

/-- A request served by a timeline with room for so many entries in its past, or for all. -/
def serve (room : Option Nat) (t : Timeline β) : HistoryRequest β → Timeline β × Option β
  | .commit snapshot => ((t.commit snapshot).keeping room, none)
  | .undo => answer present t t.undo?
  | .redo => answer present t t.redo?
  | .reset initial => (of initial, none)

/-- A timeline that has nothing in its past but the latest entries of the past of another one. -/
structure Recalls (t u : Timeline β) : Prop where
  past : t.past <+: u.past
  present : t.present = u.present
  future : t.future = u.future

theorem recalls_refl (t : Timeline β) : Recalls t t := ⟨List.prefix_rfl, rfl, rfl⟩

/-- The requests of a row without the undos that find no past. -/
def granted (room : Option Nat) : Timeline β → List (HistoryRequest β) → List (HistoryRequest β)
  | _, [] => []
  | t, request :: requests =>
    let rest := granted room (t.serve room request).1 requests
    match request, t.undo? with
    | .undo, none => rest
    | _, _ => request :: rest

theorem Recalls.commit {t u : Timeline β} (h : Recalls t u) (room : Option Nat) (snapshot : β) :
    Recalls ((t.commit snapshot).keeping room) (u.commit snapshot) := by
  have hpast : (t.commit snapshot).past <+: (u.commit snapshot).past :=
    List.cons_prefix_cons.mpr ⟨h.present, h.past⟩
  cases room with
  | none => exact ⟨hpast, rfl, rfl⟩
  | some n => exact ⟨(List.take_prefix n _).trans hpast, rfl, rfl⟩

theorem Recalls.undo {t t' u : Timeline β} (h : Recalls t u) (ht : t.undo? = some t') :
    ∃ u', u.undo? = some u' ∧ Recalls t' u' := by
  obtain ⟨past, present, future⟩ := t
  obtain ⟨past', present', future'⟩ := u
  obtain ⟨hpast, rfl, rfl⟩ := h
  cases past with
  | nil => cases ht
  | cons earlier past =>
    cases ht
    cases past' with
    | nil => cases List.prefix_nil.mp hpast
    | cons earlier' past' =>
      obtain ⟨rfl, hback⟩ := List.cons_prefix_cons.mp hpast
      exact ⟨_, rfl, hback, rfl, rfl⟩

/-- The futures are the same, so redo leads both on or neither. -/
theorem Recalls.redo {t u : Timeline β} (h : Recalls t u) :
    Recalls (answer Timeline.present t t.redo?).1 (answer Timeline.present u u.redo?).1 := by
  obtain ⟨past, present, future⟩ := t
  obtain ⟨past', present', future'⟩ := u
  obtain ⟨hpast, rfl, rfl⟩ := h
  cases future with
  | nil => exact ⟨hpast, rfl, rfl⟩
  | cons later future => exact ⟨List.cons_prefix_cons.mpr ⟨rfl, hpast⟩, rfl, rfl⟩

/-- What is forgotten along a row of requests is the oldest. -/
theorem Recalls.serveAll {t u : Timeline β} (h : Recalls t u) (room : Option Nat)
    (requests : List (HistoryRequest β)) :
    Recalls (serveAll (serve room) t requests).1
      (serveAll (serve none) u (granted room t requests)).1 := by
  induction requests generalizing t u with
  | nil => exact h
  | cons request requests ih =>
    cases request with
    | commit snapshot => exact ih (h.commit room snapshot)
    | reset initial => exact ih (recalls_refl _)
    | redo => exact ih h.redo
    | undo =>
      -- an undo that `t` refuses is kept from `u`, which might remember more
      simp only [ThermalLabel.serveAll, granted, serve]
      cases hundo : t.undo? with
      | none => exact ih h
      | some t' =>
        obtain ⟨u', hu', h'⟩ := h.undo hundo
        simp only [ThermalLabel.serveAll, serve, hu']
        exact ih h'

end Timeline

/-! ### Histories as timelines -/

namespace History

/-- What a history stands for. -/
def timeline (h : History β) : Timeline β := ⟨h.past, h.current, h.future⟩

/-- A request served by a history. -/
def serve (h : History β) : HistoryRequest β → History β × Option β
  | .commit snapshot => (h.commit snapshot, none)
  | .undo => answer current h h.undo?
  | .redo => answer current h h.redo?
  | .reset initial => (h.reset initial, none)

theorem serve_undo {h h' : History β} (hu : h.undo? = some h') :
    h.serve .undo = (h', some h'.current) := by
  simp only [serve, hu, answer]

theorem serve_redo {h h' : History β} (hr : h.redo? = some h') :
    h.serve .redo = (h', some h'.current) := by
  simp only [serve, hr, answer]

theorem size_eq (h : History β) : h.size = h.past.length + 1 + h.future.length := by
  rw [size, ← Array.length_toList, toList_snapshots, List.length_append, List.length_reverse,
    List.length_cons]
  omega

theorem canUndo_iff {h : History β} : h.canUndo = true ↔ h.past ≠ [] := by
  rw [canUndo, decide_eq_true_iff, ← List.length_pos_iff, length_past]

theorem canRedo_iff {h : History β} : h.canRedo = true ↔ h.future ≠ [] := by
  have hsize := h.size_eq
  rw [length_past, size] at hsize
  rw [canRedo, decide_eq_true_iff, ← List.length_pos_iff]
  omega

/-- A history with no more snapshots than it has room for, and room for one at least. -/
def Fits (h : History β) : Prop := h.size ≤ h.capacity

theorem Fits.cursor_lt {h : History β} (hfits : h.Fits) : h.cursor < h.capacity :=
  Nat.lt_of_lt_of_le h.cursor_lt hfits

theorem fits_withCapacity (initial : β) (capacity : Nat) :
    (withCapacity initial capacity).Fits := Nat.le_max_right capacity 1

theorem fits_commit {h : History β} (hfits : h.Fits) (snapshot : β) : (h.commit snapshot).Fits := by
  have hlt := hfits.cursor_lt
  rw [Fits, size_eq, future_commit, length_past, cursor_commit, capacity_commit, List.length_nil]
  split_ifs <;> omega

theorem fits_reset {h : History β} (hfits : h.Fits) (initial : β) : (h.reset initial).Fits :=
  Nat.lt_of_le_of_lt (Nat.zero_le _) hfits.cursor_lt

theorem fits_undo? {h h' : History β} (hfits : h.Fits) (hu : h.undo? = some h') : h'.Fits := by
  obtain ⟨hs, -, hc⟩ := undo?_spec hu
  rwa [Fits, size, hs, hc]

theorem fits_redo? {h h' : History β} (hfits : h.Fits) (hr : h.redo? = some h') : h'.Fits := by
  obtain ⟨hs, -, hc⟩ := redo?_spec hr
  rwa [Fits, size, hs, hc]

/-- The past keeps the latest snapshots, as many as there is room for beside the current one. -/
theorem past_commit_of_fits {h : History β} (hfits : h.Fits) (snapshot : β) :
    (h.commit snapshot).past = (h.current :: h.past).take (h.capacity - 1) := by
  have hlt := hfits.cursor_lt
  have hlength : (h.current :: h.past).length = h.cursor + 1 := by
    rw [List.length_cons, length_past]
  rw [past_commit, cursor_commit]
  split_ifs
  · congr 1
    omega
  · -- there is room for all of them
    rw [List.take_of_length_le (by omega), List.take_of_length_le (by omega)]

theorem timeline_commit {h : History β} (hfits : h.Fits) (snapshot : β) :
    (h.commit snapshot).timeline =
      (h.timeline.commit snapshot).keeping (some (h.capacity - 1)) := by
  rw [timeline, current_commit, future_commit, past_commit_of_fits hfits]
  rfl

/-- Undo passes a snapshot from the past to the future, if there is one. -/
theorem map_timeline_undo? (h : History β) : h.undo?.map timeline = h.timeline.undo? := by
  cases hu : h.undo? with
  | none => simp only [Timeline.undo?, timeline, undo?_eq_none_iff.mp hu, Option.map_none]
  | some h' =>
    simp only [Timeline.undo?, timeline, past_of_undo? hu, Option.map_some, future_of_undo? hu]

theorem map_timeline_redo? (h : History β) : h.redo?.map timeline = h.timeline.redo? := by
  cases hr : h.redo? with
  | none => simp only [Timeline.redo?, timeline, redo?_eq_none_iff.mp hr, Option.map_none]
  | some h' =>
    simp only [Timeline.redo?, timeline, future_of_redo? hr, Option.map_some, past_of_redo? hr]

theorem answer_timeline (h : History β) (after : Option (History β)) :
    answer Timeline.present h.timeline (after.map timeline) =
      ((answer current h after).1.timeline, (answer current h after).2) := by
  cases after <;> rfl

/-- **A history serves a request as its timeline does.** -/
theorem serve_timeline {h : History β} (hfits : h.Fits) (request : HistoryRequest β) :
    h.timeline.serve (some (h.capacity - 1)) request =
      ((h.serve request).1.timeline, (h.serve request).2) := by
  cases request with
  | commit snapshot => exact Prod.ext (timeline_commit hfits snapshot).symm rfl
  | undo => rw [Timeline.serve, ← map_timeline_undo?, answer_timeline]; rfl
  | redo => rw [Timeline.serve, ← map_timeline_redo?, answer_timeline]; rfl
  | reset initial => rfl

theorem fits_serve {h : History β} (hfits : h.Fits) (request : HistoryRequest β) :
    (h.serve request).1.Fits := by
  cases request with
  | commit snapshot => exact fits_commit hfits snapshot
  | reset initial => exact fits_reset hfits initial
  | undo =>
    unfold serve
    cases hu : h.undo? with
    | none => exact hfits
    | some h' => exact fits_undo? hfits hu
  | redo =>
    unfold serve
    cases hr : h.redo? with
    | none => exact hfits
    | some h' => exact fits_redo? hfits hr

theorem capacity_serve (h : History β) (request : HistoryRequest β) :
    (h.serve request).1.capacity = h.capacity := by
  cases request with
  | commit snapshot => exact capacity_commit h snapshot
  | reset initial => rfl
  | undo =>
    unfold serve
    cases hu : h.undo? with
    | none => rfl
    | some h' => exact (undo?_spec hu).2.2
  | redo =>
    unfold serve
    cases hr : h.redo? with
    | none => rfl
    | some h' => exact (redo?_spec hr).2.2

/-- **A bounded history is a timeline that forgets its oldest entries.** Whatever the capacity, the
first snapshot and the requests, the history answers as the timeline does that keeps `capacity - 1`
entries of its past, and stands for it at the end; compared with a timeline that forgets nothing
and is spared the undos that are refused, only the far end of the past is missing. The cursor stays
within the row of snapshots, and the row within the capacity, where none counts as one. -/
theorem bounded_refines_unbounded (initial : β) (capacity : Nat)
    (requests : List (HistoryRequest β)) :
    let room := some (capacity - 1)
    let served := serveAll serve (withCapacity initial capacity) requests
    let h := served.1
    serveAll (Timeline.serve room) (Timeline.of initial) requests = (h.timeline, served.2) ∧
      h.timeline.Recalls (serveAll (Timeline.serve none) (Timeline.of initial)
        (Timeline.granted room (Timeline.of initial) requests)).1 ∧
      (1 ≤ h.size ∧ h.size ≤ max capacity 1) ∧
      (h.cursor < h.size ∧ h.snapshots[h.cursor]? = some h.timeline.present) ∧
      (h.canUndo = true ↔ h.timeline.past ≠ []) ∧ (h.canRedo = true ↔ h.timeline.future ≠ []) := by
  intro room served h
  -- the invariant: the snapshots fit, and the capacity is the one that was asked for
  have hkeeps : ∀ (h : History β) request, h.Fits ∧ h.capacity = max capacity 1 →
      (h.serve request).1.Fits ∧ (h.serve request).1.capacity = max capacity 1 :=
    fun h request hI => ⟨fits_serve hI.1 request, (capacity_serve h request).trans hI.2⟩
  have hstep : ∀ (h : History β) request, h.Fits ∧ h.capacity = max capacity 1 →
      h.timeline.serve room request = ((h.serve request).1.timeline, (h.serve request).2) := by
    rintro h request ⟨hfits, hcapacity⟩
    have hroom : capacity - 1 = h.capacity - 1 := by omega
    show h.timeline.serve (some (capacity - 1)) request = _
    rw [hroom]
    exact serve_timeline hfits request
  obtain ⟨⟨hfits, hcapacity⟩, hserved⟩ := serveAll_of_simulates hkeeps hstep
    ⟨fits_withCapacity initial capacity, rfl⟩ requests
  have hstart : (withCapacity initial capacity).timeline = Timeline.of initial := rfl
  have hrecalls := (Timeline.recalls_refl (Timeline.of initial)).serveAll room requests
  rw [hstart] at hserved
  rw [hserved] at hrecalls
  have hpos : 1 ≤ h.size := Nat.lt_of_le_of_lt (Nat.zero_le _) h.cursor_lt
  have hcurrent : h.snapshots[h.cursor]? = some h.current := by
    rw [← Array.getElem?_toList, h.getElem?_cursor]
  exact ⟨hserved, hrecalls, ⟨hpos, hcapacity ▸ hfits⟩, ⟨h.cursor_lt, hcurrent⟩, canUndo_iff,
    canRedo_iff⟩

end History

end ThermalLabel
