import Mathlib.Data.List.Basic

/-!
The navigation engine of `subiquitycore/tui.py` (`TuiApplication`), one call at a
time: the data it reads and writes, and the source functions that move between
screens.

* `Exc`: the exceptions the engine tells apart: `Skip`, any other `Exception`, and
  `asyncio.CancelledError`, which `except Exception` does not catch.
* `Setup`: `controllers.instances` (by name) and `opts.screens`, neither of which a
  move changes.
* `Tui`: `controllers.index`, `cur_screen`, the view last passed to `ui.set_body`,
  and the calls made on the stages' contexts and on the application.
* `makeViewForController`, `scan`, `_moveScreen`, `moveScreen`: the source
  functions, each stage's `make_ui` outcome given per call; `scan` is the
  `while True` loop of `_move_screen`, run with explicit fuel.
* `runCalls`: a run of `next_screen`/`prev_screen` calls, each finishing before the
  next starts; `self.exit()` stops the event loop, and the run with it.
-/

namespace Subiquity

/-- Outcomes compare by constructor and payload. -/
instance decEqExcept {ε α : Type} [DecidableEq ε] [DecidableEq α] : DecidableEq (Except ε α)
  | .error a, .error b => decidable_of_iff (a = b) (by simp)
  | .ok a, .ok b => decidable_of_iff (a = b) (by simp)
  | .error _, .ok _ => isFalse (by simp)
  | .ok _, .error _ => isFalse (by simp)

/-- The exceptions the navigation code tells apart. -/
inductive Exc where
  /-- `subiquitycore.tuicontroller.Skip`: the stage does not apply now. -/
  | skip
  /-- Any other `Exception`, told apart by an identifier. -/
  | error (id : Nat)
  /-- `asyncio.CancelledError`, a `BaseException` and not an `Exception`. -/
  | cancelled
  deriving DecidableEq, Repr

/-- Whether `except Exception` catches the exception. -/
def Exc.isException : Exc → Bool
  | .cancelled => false
  | _ => true

/-- What `make_ui` gives, its coroutine awaited: a view, or a view factory
(`Callable[[], BaseView]`) with what calling it does. -/
inductive Shown (V : Type) where
  | view (v : V)
  | factory (f : Except Exc V)
  deriving DecidableEq, Repr

/-- What the navigation reads and never writes: the names of
`controllers.instances`, and `opts.screens` (`[]` when not given). -/
structure Setup where
  instances : List String
  screens : List String
  deriving DecidableEq, Repr

/-- `len(self.controllers.instances)`. -/
def Setup.n (c : Setup) : Nat := c.instances.length

/-- `self.opts.screens and new.name not in self.opts.screens`, for the stage at
`j`: `make_view_for_controller` then raises `Skip` before calling `make_ui`. -/
def Setup.screenedOut (c : Setup) (j : Nat) : Bool :=
  !c.screens.isEmpty && !decide (c.instances.getD j "" ∈ c.screens)

/-- A call the navigation makes on a stage or on the application. -/
inductive Event where
  /-- `instances[j].context.enter(msg)`. -/
  | enter (j : Nat) (msg : String)
  /-- `instances[j].context.exit(msg)`. -/
  | exit (j : Nat) (msg : String)
  /-- `instances[j].end_ui()`. -/
  | endUi (j : Nat)
  /-- `self.exit()`. -/
  | appExit
  deriving DecidableEq, Repr

/-- The navigation state of a `TuiApplication`. -/
structure Tui (V : Type) where
  /-- `controllers.index`. -/
  index : Int
  /-- `cur_screen`, by its position in `controllers.instances`. -/
  curScreen : Option Nat
  /-- The view last passed to `ui.set_body`. -/
  body : Option V
  /-- The calls made on the stages and the application, oldest first. -/
  events : List Event
  deriving DecidableEq, Repr

namespace Tui

variable {V : Type}

/-- Before the first move: `controllers.index = -1`, no screen, nothing shown. -/
def init : Tui V := ⟨-1, none, none, []⟩

/-- Record a call on a stage or on the application. -/
def emit (s : Tui V) (e : Event) : Tui V := { s with events := s.events ++ [e] }

@[simp] lemma emit_index (s : Tui V) (e : Event) : (s.emit e).index = s.index := rfl
@[simp] lemma emit_curScreen (s : Tui V) (e : Event) : (s.emit e).curScreen = s.curScreen := rfl
@[simp] lemma emit_body (s : Tui V) (e : Event) : (s.emit e).body = s.body := rfl
@[simp] lemma emit_events (s : Tui V) (e : Event) : (s.emit e).events = s.events ++ [e] := rfl

/-- `old, self.cur_screen = self.cur_screen, None`, then
`old.context.exit("completed")` and `old.end_ui()` when there was one. -/
def leave (s : Tui V) : Tui V :=
  match s.curScreen with
  | none => s
  | some old => ({ s with curScreen := none }.emit (.exit old "completed")).emit (.endUi old)

@[simp] lemma leave_index (s : Tui V) : s.leave.index = s.index := by
  unfold leave; split <;> rfl
@[simp] lemma leave_curScreen (s : Tui V) : s.leave.curScreen = none := by
  unfold leave; split <;> simp_all
@[simp] lemma leave_body (s : Tui V) : s.leave.body = s.body := by
  unfold leave; split <;> rfl

/-- Whether `self.exit()` has been called. -/
def exited (s : Tui V) : Bool := decide (Event.appExit ∈ s.events)

@[simp] lemma leave_exited (s : Tui V) : s.leave.exited = s.exited := by
  unfold leave exited; split <;> simp [emit]

end Tui

section Move

variable {V : Type} (c : Setup) (ui : Nat → Except Exc (Shown V))

/-- The `try` of `make_view_for_controller(new)` once `make_ui` gave `r`, its
coroutine awaited: `except Skip` exits the context and re-raises; `else` makes
the stage `cur_screen`. -/
def buildView (new : Nat) : Except Exc (Shown V) → Tui V → Tui V × Except Exc (Shown V)
  | .ok x, s => ({ s with curScreen := some new }, .ok x)
  | .error .skip, s => (s.emit (.exit new "(skipped)"), .error .skip)
  | .error e, s => (s, .error e)

/-- `make_view_for_controller(new)` for the stage at `new`, `r` being what its
`make_ui` does on this call. -/
def makeViewForController (new : Nat) (r : Except Exc (Shown V)) (s : Tui V) :
    Tui V × Except Exc (Shown V) :=
  let s := s.emit (.enter new "starting UI")
  if c.screenedOut new then (s, .error .skip) else buildView new r s

/-- The `try` around `make_view_for_controller`, `except Skip` apart: the view is
returned; `except Exception` restores the index and re-raises; a `BaseException`
goes through. -/
def afterBuild (curIndex : Int) : Tui V × Except Exc (Shown V) →
    Tui V × Except Exc (Option (Shown V))
  | (s, .ok x) => (s, .ok (some x))
  | (s, .error e) =>
    if e.isException then ({ s with index := curIndex }, .error e) else (s, .error e)

/-- The `while True` loop of `_move_screen`, at most `fuel` passes (`none` if it
has not returned by then); `curIndex` is the index the move started from and
`ui j` what `make_ui` of the stage at `j` does. -/
def scan (increment curIndex : Int) : Nat → Tui V → Option (Tui V × Except Exc (Option (Shown V)))
  | 0, _ => none
  | fuel + 1, s =>
    let s := { s with index := s.index + increment }
    if s.index < 0 then some ({ s with index := curIndex }, .ok none)
    else if (c.n : Int) ≤ s.index then some (s.emit .appExit, .ok none)
    else match makeViewForController c s.index.toNat (ui s.index.toNat) s with
      | (s, .error .skip) => scan increment curIndex fuel s
      | r => some (afterBuild curIndex r)

/-- `_move_screen(increment, coro)`: `coro` is `none` when no coroutine is passed,
else what awaiting it does. The loop gets one pass per stage and one more. -/
def _moveScreen (increment : Int) (coro : Option (Except Exc Unit)) (s : Tui V) :
    Option (Tui V × Except Exc (Option (Shown V))) :=
  match coro with
  | some (.error e) => some (s, .error e)
  | _ => scan c ui increment s.index (c.n + 1) s.leave

end Move

namespace Tui

variable {V : Type}

/-- The end of `move_screen` on what `_move_screen` gave: a factory is called,
and the view goes to `ui.set_body`. -/
def display (s : Tui V) : Except Exc (Option (Shown V)) → Tui V × Except Exc Unit
  | .error e => (s, .error e)
  | .ok none => (s, .ok ())
  | .ok (some (.view v)) => ({ s with body := some v }, .ok ())
  | .ok (some (.factory (.ok v))) => ({ s with body := some v }, .ok ())
  | .ok (some (.factory (.error e))) => (s, .error e)

@[simp] lemma display_error (s : Tui V) (e : Exc) : s.display (.error e) = (s, .error e) := rfl
@[simp] lemma display_none (s : Tui V) : s.display (.ok none) = (s, .ok ()) := rfl
@[simp] lemma display_view (s : Tui V) (v : V) :
    s.display (.ok (some (.view v))) = ({ s with body := some v }, .ok ()) := rfl
@[simp] lemma display_factory_ok (s : Tui V) (v : V) :
    s.display (.ok (some (.factory (.ok v)))) = ({ s with body := some v }, .ok ()) := rfl
@[simp] lemma display_factory_error (s : Tui V) (e : Exc) :
    s.display (.ok (some (.factory (.error e)))) = (s, .error e) := rfl

end Tui

/-- `move_screen(increment, coro)` run alone: `wait_with_progress` returns what
`_move_screen` returns (`Indication` proves it), and `display` shows it. -/
def moveScreen {V : Type} (c : Setup) (ui : Nat → Except Exc (Shown V)) (increment : Int)
    (coro : Option (Except Exc Unit)) (s : Tui V) : Option (Tui V × Except Exc Unit) :=
  (_moveScreen c ui increment coro s).map fun p => p.1.display p.2

/-- A navigation call, with what each stage's `make_ui` does during it. -/
inductive Call (V : Type) where
  /-- `next_screen(coro)`. -/
  | next (coro : Option (Except Exc Unit)) (ui : Nat → Except Exc (Shown V))
  /-- `prev_screen()`. -/
  | prev (ui : Nat → Except Exc (Shown V))

namespace Call

variable {V : Type}

/-- The increment the call passes to `move_screen`. -/
def increment : Call V → Int
  | next .. => 1
  | prev _ => -1

/-- The coroutine the call passes to `move_screen`. -/
def coro : Call V → Option (Except Exc Unit)
  | next coro _ => coro
  | prev _ => none

/-- What `make_ui` of each stage does during the call. -/
def ui : Call V → Nat → Except Exc (Shown V)
  | next _ ui => ui
  | prev ui => ui

/-- The state after the call; what it raises goes to its caller. The `none`
branch is never taken from an index a move may start from (`Call.apply_eq`). -/
def apply (c : Setup) (call : Call V) (s : Tui V) : Tui V :=
  match moveScreen c call.ui call.increment call.coro s with
  | some p => p.1
  | none => s

end Call

/-- A run of calls, each finishing before the next starts. `self.exit()` (in
`subiquitycore.core`, whose code is not here) ends the application: by the design's
description it "triggers overall termination", so no call runs after it. -/
def runCalls {V : Type} (c : Setup) : List (Call V) → Tui V → Tui V
  | [], s => s
  | call :: calls, s => if s.exited then s else runCalls c calls (call.apply c s)

end Subiquity
