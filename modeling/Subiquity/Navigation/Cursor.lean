import Subiquity.Navigation.Scan

/-!
Runs of `next_screen`/`prev_screen` (`subiquitycore/tui.py`), each call finishing
before the next starts, against a cursor over the stages that apply.

* `refMove`, `refRun`: the reference cursor: a move by `d` goes to the nearest stage
  in direction `d` that does not skip and shows its view when the view builds; when
  the build fails the cursor stays; past the stages it stays moving back and
  finishes moving forward.
* `moveScreen_eq`: one call of `move_screen` in closed form, from `_moveScreen_eq_scanResult`.
* `runCalls_refines`: in every run where no view factory raises and no `make_ui`
  raises `CancelledError`, `controllers.index` and the view last passed to
  `ui.set_body` are the reference cursor's after every call.
* `runCalls_factory_raises`: where a factory raises, `move_screen` has already left
  the index on the new stage, and the old view stays shown.
-/

namespace Subiquity

variable {V : Type}

/-! ### The reference cursor -/

/-- The view a `make_ui` outcome builds: its view, or what its factory returns;
`none` when it raises or its factory does. -/
def built : Except Exc (Shown V) → Option V
  | .ok (.view v) => some v
  | .ok (.factory (.ok v)) => some v
  | _ => none

/-- The reference cursor: a position and the view shown, and whether navigation
has passed the last stage. -/
structure Cursor (V : Type) where
  index : Int
  shown : Option V
  finished : Bool
  deriving DecidableEq, Repr

/-- Before the first move: at `-1`, nothing shown. -/
def Cursor.init : Cursor V := ⟨-1, none, false⟩

/-- One move of the reference cursor, by the contract's words. -/
def refMove (c : Setup) (call : Call V) (p : Cursor V) : Cursor V :=
  match call.coro with
  | some (.error _) => p
  | _ =>
    match (stepsFrom c.n p.index call.increment).find? (fun j => !skips c call.ui j) with
    | some j =>
      match built (call.ui j) with
      | some v => { p with index := j, shown := some v }
      | none => p
    | none => if call.increment = 1 then { p with index := c.n, finished := true } else p

/-- A run of the reference cursor; it stops once finished. -/
def refRun (c : Setup) : List (Call V) → Cursor V → Cursor V
  | [], p => p
  | call :: calls, p => if p.finished then p else refRun c calls (refMove c call p)

/-! ### The run refines the cursor -/

lemma Call.increment_eq (call : Call V) : call.increment = 1 ∨ call.increment = -1 := by
  cases call <;> simp [Call.increment]

/-- A call in which no view factory raises and no `make_ui` raises
`CancelledError`. -/
def Call.Tame (call : Call V) : Prop :=
  ∀ j, (∀ e, call.ui j ≠ .ok (.factory (.error e))) ∧ call.ui j ≠ .error .cancelled

/-- The code state and the reference cursor agree, and the index is one a move may
start from. -/
structure Agrees (c : Setup) (s : Tui V) (p : Cursor V) : Prop where
  index : s.index = p.index
  shown : s.body = p.shown
  finished : s.exited = p.finished
  lo : -1 ≤ s.index
  hi : s.exited = false → s.index < c.n

lemma Agrees.init (c : Setup) : Agrees c (Tui.init : Tui V) Cursor.init :=
  ⟨rfl, rfl, rfl, le_refl _, fun _ => by simp [Tui.init]; omega⟩

lemma Call.apply_eq {c : Setup} {call : Call V} {s : Tui V}
    (hco : ∀ e, call.coro ≠ some (.error e)) (hi : -1 ≤ s.index) (hin : s.index < c.n) :
    call.apply c s = ((scanResult c call.ui call.increment s.index
      (stepsFrom c.n s.index call.increment) s.leave).1.display
      (scanResult c call.ui call.increment s.index (stepsFrom c.n s.index call.increment)
        s.leave).2).1 := by
  simp [Call.apply, moveScreen, _moveScreen_eq_scanResult c call.ui call.increment_eq hco s hi hin]

/-- A call whose `coro` raises leaves the state as it was. -/
lemma Call.apply_of_coro_error {c : Setup} {call : Call V} {e : Exc}
    (he : call.coro = some (.error e)) (s : Tui V) : call.apply c s = s := by
  simp [Call.apply, moveScreen, _moveScreen, he]

/-- **One call keeps the agreement.** -/
lemma Agrees.apply {c : Setup} {s : Tui V} {p : Cursor V} (h : Agrees c s p)
    (hx : s.exited = false) {call : Call V} (ht : call.Tame) :
    Agrees c (call.apply c s) (refMove c call p) := by
  by_cases hco : ∃ e, call.coro = some (.error e)
  · obtain ⟨e, he⟩ := hco
    have hp : refMove c call p = p := by simp [refMove, he]
    rw [Call.apply_of_coro_error he, hp]; exact h
  push_neg at hco
  have hin := h.hi hx
  have hpf : p.finished = false := h.finished ▸ hx
  have hleave : Event.appExit ∉ s.leave.events := by
    simpa [Tui.exited] using (Tui.leave_exited s).trans hx
  have hne := appExit_not_mem_flatMap_skipEvents c
    ((stepsFrom c.n s.index call.increment).takeWhile (skips c call.ui))
  rw [Call.apply_eq hco h.lo hin]
  have hp : refMove c call p = match (stepsFrom c.n s.index call.increment).find?
      (fun j => !skips c call.ui j) with
      | some j => match built (call.ui j) with
        | some v => { p with index := j, shown := some v }
        | none => p
      | none => if call.increment = 1 then { p with index := c.n, finished := true } else p := by
    unfold refMove
    rw [h.index]
    rcases hc : call.coro with _ | (e | u)
    · rfl
    · exact absurd hc (hco e)
    · rfl
  rw [hp]
  simp only [scanResult]
  rcases hf : (stepsFrom c.n s.index call.increment).find? (fun j => !skips c call.ui j) with _ | j
  · rcases call.increment_eq with hd | hd <;> rw [hd] at hne ⊢
    · exact ⟨rfl, by simpa using h.shown, by simp [Tui.exited], by simp; omega,
        by simp [Tui.exited]⟩
    · exact ⟨by simpa using h.index, by simpa using h.shown, by simp [Tui.exited, hleave, hne, hpf],
        by simpa using h.lo, fun _ => by simpa using hin⟩
  · dsimp only
    have hj : skips c call.ui j = false := by simpa using List.find?_some hf
    have hlt : j < c.n :=
      lt_of_mem_stepsFrom call.increment_eq h.lo hin (List.mem_of_find?_eq_some hf)
    obtain ⟨hfac, hcan⟩ := ht j
    rcases hb : call.ui j with e | (v | (e | v))
    · rw [settle_of_error c call.ui hj hb, if_pos (isException_of_not_skips c call.ui hj hb hcan)]
      exact ⟨h.index, by simpa [built] using h.shown, by simp [Tui.exited, built, hleave, hne, hpf],
        h.lo, fun _ => hin⟩
    · rw [settle_of_ok c call.ui hj hb]
      exact ⟨rfl, rfl, by simp [Tui.exited, built, hleave, hne, hpf], by simp; omega,
        fun _ => by simpa⟩
    · exact absurd hb (hfac e)
    · rw [settle_of_ok c call.ui hj hb]
      exact ⟨rfl, rfl, by simp [Tui.exited, built, hleave, hne, hpf], by simp; omega,
        fun _ => by simpa⟩

lemma Agrees.runCalls {c : Setup} : ∀ {calls : List (Call V)} {s : Tui V} {p : Cursor V},
    Agrees c s p → (∀ call ∈ calls, call.Tame) → Agrees c (runCalls c calls s) (refRun c calls p)
  | [], _, _, h, _ => h
  | call :: calls, s, p, h, ht => by
    simp only [Subiquity.runCalls, refRun, ← h.finished]
    cases hx : s.exited
    · exact Agrees.runCalls (h.apply hx (ht call (List.mem_cons_self _ _)))
        fun call' hc => ht call' (List.mem_cons_of_mem _ hc)
    · exact h

/-- **Sequential navigation refines the cursor.** In every run from the start in
which no view factory raises and no `make_ui` raises `CancelledError`, after every
call `controllers.index` and the view last passed to `ui.set_body` are the
reference cursor's. -/
theorem runCalls_refines (c : Setup) (calls : List (Call V)) (ht : ∀ call ∈ calls, call.Tame)
    (k : Nat) :
    (runCalls c (calls.take k) Tui.init).index = (refRun c (calls.take k) Cursor.init).index ∧
    (runCalls c (calls.take k) Tui.init).body = (refRun c (calls.take k) Cursor.init).shown :=
  have h := (Agrees.init c).runCalls fun call hc => ht call (List.mem_of_mem_take hc)
  ⟨h.index, h.shown⟩

/-- The refinement on a run forward onto a screened-in stage and back. -/
theorem runCalls_refines_there_and_back :
    let c : Setup := ⟨["a", "b"], ["b"]⟩
    let calls : List (Call Nat) := [.next none fun _ => .ok (.view 1), .prev fun _ => .ok (.view 2)]
    (∀ call ∈ calls, call.Tame) ∧ ∀ k,
      (runCalls c (calls.take k) Tui.init).index = (refRun c (calls.take k) Cursor.init).index ∧
      (runCalls c (calls.take k) Tui.init).body = (refRun c (calls.take k) Cursor.init).shown :=
  have ht : ∀ call ∈ ([.next none fun _ => .ok (.view 1), .prev fun _ => .ok (.view 2)] :
      List (Call Nat)), call.Tame := by
    simp [Call.Tame, Call.ui]
  ⟨ht, runCalls_refines _ _ ht⟩

/-! ### A view factory that raises -/

/-- **The factory path breaks the contract.** One stage whose `make_ui` returns a
view factory that raises: `next_screen` re-raises, yet `_move_screen` has already
left `controllers.index` on the stage, while the reference cursor stays at `-1`. -/
theorem runCalls_factory_raises :
    let c : Setup := ⟨["a"], []⟩
    let calls : List (Call Nat) := [.next none fun _ => .ok (.factory (.error (.error 0)))]
    ((runCalls c calls Tui.init).index, (runCalls c calls Tui.init).body) = (0, none) ∧
    ((refRun c calls Cursor.init).index, (refRun c calls Cursor.init).shown) = (-1, none) := by
  decide

end Subiquity
