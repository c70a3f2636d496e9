import Subiquity.Navigation.Scan
import Subiquity.Indication.Basic

/-!
Navigation requests as asyncio tasks (`request_next_screen`/`request_prev_screen`
through `run_bg_task`, `subiquitycore/tui.py`): each task runs `move_screen`, whose
`_move_screen` runs inside `wait_with_progress`, and the tasks interleave at their
suspension points: `await coro`, the await of a stage's `make_ui` coroutine, and
`await min_show_task`; each has its own `show_task` and `min_show_task`.

* `MakeUi`, `Request`: what a stage's `make_ui()` does (returns or raises at once,
  or returns a coroutine to await), and a request with its move's data.
* `scanA`: the loop of `_move_screen` until it returns, raises or suspends;
  `scanA_sync` shows it is `scan` when no `make_ui` returns a coroutine.
* `Sys`, `MoveAct`, `moveStep`, `moveRun`: the shared state, the steps of the event
  loop, and runs of them; `cancel` delivers `CancelledError` at a task's await. A task's
  `show_task` and `min_show_task` take the steps of `Helpers.step` (`Sys.helperStep`),
  and its `finally` is `Helpers.leave` (`settleMove`), as for a call alone.
* `cancel_in_move_moves_index`: a request cancelled while it awaits a stage's `make_ui`
  coroutine, or `min_show_task` after the stage was built, leaves `controllers.index` on
  that stage: `except Exception` does not catch `CancelledError`, and by
  `min_show_task` the index has settled.
-/

namespace Subiquity

variable {V : Type}

/-- What a stage's `make_ui()` does when called: it returns a view or factory or
raises at once, or it returns a coroutine, which the move awaits. -/
inductive MakeUi (V : Type) where
  | sync (r : Except Exc (Shown V))
  | async

/-- A navigation request, with what each stage's `make_ui()` does during its move. -/
inductive Request (V : Type) where
  /-- `request_next_screen(coro)`: `coro` is what awaiting it gives, `none` without one. -/
  | next (coro : Option (Except Exc Unit)) (ui : Nat → MakeUi V)
  /-- `request_prev_screen()`. -/
  | prev (ui : Nat → MakeUi V)

namespace Request

/-- The increment the request passes to `move_screen`. -/
def increment : Request V → Int
  | next .. => 1
  | prev _ => -1

/-- The coroutine the request passes to `move_screen`. -/
def coro : Request V → Option (Except Exc Unit)
  | next coro _ => coro
  | prev _ => none

/-- What `make_ui()` of each stage does during the request's move. -/
def ui : Request V → Nat → MakeUi V
  | next _ ui => ui
  | prev ui => ui

end Request

/-- The loop of `_move_screen` from where it stands, at most `fuel` passes: it
returns or raises (`.inl`), or suspends in the coroutine of the stage at `j`
after entering its context (`.inr (j, _)`). -/
def scanA (c : Setup) (ui : Nat → MakeUi V) (increment curIndex : Int) :
    Nat → Tui V → Option ((Tui V × Except Exc (Option (Shown V))) ⊕ (Nat × Tui V))
  | 0, _ => none
  | fuel + 1, s =>
    let s : Tui V := { s with index := s.index + increment }
    if s.index < 0 then some (.inl ({ s with index := curIndex }, .ok none))
    else if (c.n : Int) ≤ s.index then some (.inl (s.emit .appExit, .ok none))
    else
      let j := s.index.toNat
      let s : Tui V := s.emit (.enter j "starting UI")
      if c.screenedOut j then scanA c ui increment curIndex fuel s
      else match ui j with
        | .async => some (.inr (j, s))
        | .sync r =>
          match buildView j r s with
          | (s, .error .skip) => scanA c ui increment curIndex fuel s
          | r => some (.inl (afterBuild curIndex r))

/-- **No coroutine, no suspension.** When every `make_ui()` returns at once, the
loop is the one of the sequential model. -/
theorem scanA_sync (c : Setup) (ui : Nat → Except Exc (Shown V)) (increment curIndex : Int) :
    ∀ (fuel : Nat) (s : Tui V), scanA c (fun j => .sync (ui j)) increment curIndex fuel s =
      (scan c ui increment curIndex fuel s).map .inl
  | 0, _ => rfl
  | fuel + 1, s => by
    simp only [scanA, scan, makeViewForController]
    split
    · rfl
    split
    · rfl
    split
    · rw [scanA_sync c ui increment curIndex fuel]
    · generalize buildView _ _ _ = r
      rcases r with ⟨s', (_ | _ | _) | x⟩
      · exact scanA_sync c ui increment curIndex fuel s'
      all_goals rfl

/-! ### The tasks and the event loop -/

/-- Where a request's task is. -/
inductive MovePc (V : Type) where
  /-- Made by `run_bg_task`, not yet run. -/
  | start
  /-- `await coro` in `_move_screen`. -/
  | coro
  /-- `view = await maybe_view` in `make_view_for_controller` for the stage at `j`;
  `curIndex` is the `cur_index` of `_move_screen`. -/
  | ui (j : Nat) (curIndex : Int)
  /-- `await min_show_task` in the `finally` of `_wait_with_indication`, with what
  `_move_screen` gave. -/
  | awaitingMin (r : Except Exc (Option (Shown V)))
  /-- `move_screen` returned or raised. -/
  | done (r : Except Exc Unit)

/-- A request's task, with the `show_task` and `min_show_task` of its
`wait_with_progress` (no `hide`) and the times it invoked `show_progress`. -/
structure MoveTask (V : Type) extends Helpers where
  req : Request V
  pc : MovePc V

/-- The task `run_bg_task` makes for a request. -/
def MoveTask.init (req : Request V) : MoveTask V := ⟨Helpers.init, req, .start⟩

/-- The state the tasks share, and the tasks. -/
structure Sys (V : Type) where
  tui : Tui V
  /-- The event loop's clock, in milliseconds. -/
  now : Nat
  /-- `self.ui.block_input`. -/
  blockInput : Bool
  tasks : List (MoveTask V)

/-- Run task `k`: `f` gives the shared state and the task after it, `none` when the
task cannot run. -/
def Sys.runTask (st : Sys V) (k : Nat) (f : MoveTask V → Option (Sys V × MoveTask V)) :
    Option (Sys V) :=
  match st.tasks[k]? with
  | none => none
  | some t => (f t).map fun p => { p.1 with tasks := st.tasks.set k p.2 }

lemma Sys.runTask_eq_some {st st' : Sys V} {k : Nat} {f : MoveTask V → Option (Sys V × MoveTask V)}
    (h : st.runTask k f = some st') :
    ∃ t p, st.tasks[k]? = some t ∧ f t = some p ∧ st' = { p.1 with tasks := st.tasks.set k p.2 } := by
  unfold Sys.runTask at h
  split at h
  · cases h
  · obtain ⟨p, hp, rfl⟩ := Option.map_eq_some'.mp h
    exact ⟨_, p, ‹_›, hp, rfl⟩

/-- A step that runs one task through `f` relates a task of the state, the state after
and the task after by `R` when `f` does, `R` reading no task of the state. -/
lemma Sys.runTask_rel {st st' : Sys V} {k : Nat} {f : MoveTask V → Option (Sys V × MoveTask V)}
    (R : MoveTask V → Sys V → MoveTask V → Prop)
    (hR : ∀ t s t' (l : List (MoveTask V)), R t s t' → R t { s with tasks := l } t')
    (h : st.runTask k f = some st') (hf : ∀ t ∈ st.tasks, ∀ p, f t = some p → R t p.1 p.2) :
    ∃ k t t', st.tasks[k]? = some t ∧ st'.tasks = st.tasks.set k t' ∧ R t st' t' := by
  obtain ⟨t, p, hk, hft, rfl⟩ := Sys.runTask_eq_some h
  exact ⟨k, t, p.2, hk, rfl, hR _ _ _ _ (hf t (List.getElem?_mem hk) p hft)⟩

section Steps

variable (c : Setup)

/-- `_move_screen` gave `r`: the `finally` of `_wait_with_indication` and, when it
does not await `min_show_task`, the end of `move_screen`. -/
def settleMove (r : Except Exc (Option (Shown V))) (st : Sys V) (t : MoveTask V) :
    Sys V × MoveTask V :=
  match t.leave with
  | some h =>
    ({ st with tui := (st.tui.display r).1, blockInput := false },
      { t with toHelpers := h, pc := .done (st.tui.display r).2 })
  | none => (st, { t with pc := .awaitingMin r })

/-- The loop of `_move_screen` from the current index, until it returns, raises or
suspends. -/
def continueMove (curIndex : Int) (st : Sys V) (t : MoveTask V) : Option (Sys V × MoveTask V) :=
  (scanA c t.req.ui t.req.increment curIndex (c.n + 1) st.tui).map fun
    | .inl (tui, r) => settleMove r { st with tui } t
    | .inr (j, tui) => ({ st with tui }, { t with pc := .ui j curIndex })

/-- `_move_screen` past `await coro`: leave the current screen, keep `cur_index`,
run the loop. -/
def moveBody (st : Sys V) (t : MoveTask V) : Option (Sys V × MoveTask V) :=
  continueMove c st.tui.index { st with tui := st.tui.leave } t

/-- The coroutine of the stage at `j` gave `r`: the rest of
`make_view_for_controller`, then the `except` clauses of the loop. -/
def resumeMove (j : Nat) (curIndex : Int) (r : Except Exc (Shown V)) (st : Sys V)
    (t : MoveTask V) : Option (Sys V × MoveTask V) :=
  match buildView j r st.tui with
  | (tui, .error .skip) => continueMove c curIndex { st with tui } t
  | b => some (settleMove (afterBuild curIndex b).2 { st with tui := (afterBuild curIndex b).1 } t)

end Steps

/-- Task `k`'s `show_task` or `min_show_task` takes a step; neither exists before the
task has run. -/
def Sys.helperStep (st : Sys V) (k : Nat) (a : HelperAct) : Option (Sys V) :=
  st.runTask k fun t =>
    match t.pc with
    | .start => none
    | _ => (t.toHelpers.step st.now a).map fun h =>
      ({ st with blockInput := a.blockInput st.blockInput }, { t with toHelpers := h })

/-- What a step of a task's helper tasks does: it changes that task's helper tasks, and
`block_input` when `show_task` wakes; nothing else. -/
lemma Sys.helperStep_eq_some {st st' : Sys V} {k : Nat} {a : HelperAct}
    (h : st.helperStep k a = some st') :
    ∃ t h', st.tasks[k]? = some t ∧ t.pc ≠ .start ∧ t.toHelpers.step st.now a = some h' ∧
      st' = { st with blockInput := a.blockInput st.blockInput,
                      tasks := st.tasks.set k { t with toHelpers := h' } } := by
  obtain ⟨t, p, hk, hf, rfl⟩ := Sys.runTask_eq_some h
  split at hf
  · cases hf
  · rename_i hpc
    obtain ⟨h', hh, rfl⟩ := Option.map_eq_some'.mp hf
    exact ⟨t, h', hk, hpc, hh, rfl⟩

/-- One step of the event loop. -/
inductive MoveAct (V : Type) where
  /-- The clock advances by `t`. -/
  | advance (t : Nat)
  /-- Task `k` runs for the first time. -/
  | start (k : Nat)
  /-- Task `k` resumes from its `coro`. -/
  | resumeCoro (k : Nat)
  /-- Task `k` resumes from a stage's `make_ui` coroutine, which gave `r`. -/
  | resumeUi (k : Nat) (r : Except Exc (Shown V))
  | startShow (k : Nat)
  /-- The `show_task` of task `k` wakes: `block_input = False`, `min_show_task`
  made, `show_progress` invoked. -/
  | wakeShow (k : Nat)
  | showReturns (k : Nat)
  | startMin (k : Nat)
  | wakeMin (k : Nat)
  /-- Task `k` resumes from `min_show_task`. -/
  | resumeMin (k : Nat)
  /-- Task `k` is cancelled: `CancelledError` at its current await. -/
  | cancel (k : Nat)

section Step

variable (c : Setup)

/-- One step of the event loop, `none` when it cannot happen. -/
def moveStep (st : Sys V) : MoveAct V → Option (Sys V)
  | .advance d => some { st with now := st.now + d }
  | .start k => st.runTask k fun t =>
    match t.pc, t.req.coro with
    | .start, none => moveBody c { st with blockInput := true } t
    | .start, some _ => some ({ st with blockInput := true }, { t with pc := .coro })
    | _, _ => none
  | .resumeCoro k => st.runTask k fun t =>
    match t.pc, t.req.coro with
    | .coro, some (.error e) => some (settleMove (.error e) st t)
    | .coro, _ => moveBody c st t
    | _, _ => none
  | .resumeUi k r => st.runTask k fun t =>
    match t.pc with
    | .ui j curIndex => resumeMove c j curIndex r st t
    | _ => none
  | .startShow k => st.helperStep k .startShow
  | .wakeShow k => st.helperStep k .wakeShow
  | .showReturns k => st.helperStep k .showReturns
  | .startMin k => st.helperStep k .startMin
  | .wakeMin k => st.helperStep k .wakeMin
  | .resumeMin k => st.runTask k fun t =>
    match t.pc, t.minShow with
    | .awaitingMin r, .done =>
      some ({ st with tui := (st.tui.display r).1 }, { t with pc := .done (st.tui.display r).2 })
    | _, _ => none
  | .cancel k => st.runTask k fun t =>
    match t.pc with
    | .start => some (st, { t with showTask := .cancelled, pc := .done (.error .cancelled) })
    | .coro => some (settleMove (.error .cancelled) st t)
    | .ui j curIndex => resumeMove c j curIndex (.error .cancelled) st t
    | .awaitingMin _ =>
      some (st, { t with minShow := t.minShow.cancel, pc := .done (.error .cancelled) })
    | .done _ => none

/-- A run of steps, `none` if one of them cannot happen. -/
def moveRun : Sys V → List (MoveAct V) → Option (Sys V)
  | st, [] => some st
  | st, a :: as => (moveStep c st a).bind (moveRun · as)

end Step

/-! ### A cancelled request -/

/-- **A cancellation during a move leaves the index moved.** One stage. A forward
request from the start whose stage's `make_ui()` returns a coroutine is cancelled
while it awaits it; another, with a pretransition that outlasts `MAX_BLOCK_TIME`, is
cancelled while `wait_with_progress` awaits `min_show_task`. Either way the
`CancelledError` leaves `move_screen` with `controllers.index` at `0`, not at `-1` as
at the call, and no view shown. -/
theorem cancel_in_move_moves_index :
    let c : Setup := ⟨["a"], []⟩
    (moveRun c (⟨Tui.init, 0, false, [MoveTask.init (.next none fun _ => .async)]⟩ : Sys Nat)
        [.start 0, .cancel 0]).map (fun st => (st.tui.index, st.tui.body)) = some (0, none) ∧
      (moveRun c (⟨Tui.init, 0, false,
          [MoveTask.init (.next (some (.ok ())) fun _ => .sync (.ok (.view 1)))]⟩ : Sys Nat)
        [.start 0, .startShow 0, .advance 100, .wakeShow 0, .resumeCoro 0, .cancel 0]).map
        (fun st => (st.tui.index, st.tui.body)) = some (0, none) := by
  decide

end Subiquity
