import Subiquity.Navigation.Basic

/-!
`TuiApplication._wait_with_indication` (`subiquitycore/tui.py`) as three asyncio
tasks and an event loop clock: the waiting coroutine, the `_show` task and the
`min_show_task`, with the awaitable completing whenever the outside world lets it.

* `MAX_BLOCK_TIME`, `MIN_SHOW_PROGRESS_TIME`: the source's constants, in
  milliseconds of the loop's clock.
* `Helpers`, `Helpers.step`, `Helpers.leave`: `show_task` and `min_show_task` with the
  times `show` was invoked, their steps, and what the `finally` does to them; every
  model of a call (this one, and each navigation request's in `Concurrent.Basic`) runs
  them through these.
* `Ind`: the shared state: the clock, `ui.block_input`, the awaitable's outcome, the
  three tasks, and the times at which `hide` was invoked.
* `Act`, `step`: one step of the event loop: the clock advancing, the awaitable
  completing, one task running from one suspension point to the next, or the
  waiting task being cancelled (`asyncio.CancelledError` delivered at its await).
* `run`: a run of steps; `hide` is whether a `hide` callback is given
  (`wait_with_text_dialog`) or not (`wait_with_progress`).
-/

namespace Subiquity

/-- `MAX_BLOCK_TIME = 0.1`: block the UI at most this long before showing progress. -/
def MAX_BLOCK_TIME : Nat := 100

/-- `MIN_SHOW_PROGRESS_TIME = 1.0`: show an indication of progress at least this long. -/
def MIN_SHOW_PROGRESS_TIME : Nat := 1000

/-- The `_show` task, `show_task`. -/
inductive ShowTask where
  /-- Made by `asyncio.create_task`, not yet run. -/
  | created
  /-- In `await asyncio.sleep(MAX_BLOCK_TIME)`, due at `due`. -/
  | sleeping (due : Nat)
  /-- In `await show()`. -/
  | showing
  /-- Returned. -/
  | done
  /-- Cancelled: the `CancelledError` ends it at its await, or before it starts. -/
  | cancelled
  deriving DecidableEq, Repr

/-- `show_task.cancel()`. -/
def ShowTask.cancel : ShowTask → ShowTask
  | .done => .done
  | _ => .cancelled

/-- The `min_show_task`, `None` until `_show` makes it. -/
inductive MinShowTask where
  | none
  /-- Made by `asyncio.create_task(asyncio.sleep(MIN_SHOW_PROGRESS_TIME))`, not yet run. -/
  | created
  /-- Asleep, due at `due`. -/
  | sleeping (due : Nat)
  | done
  | cancelled
  deriving DecidableEq, Repr

/-- `min_show_task` once the task awaiting it is cancelled: asyncio cancels the awaited
task, and a task already done stays done. -/
def MinShowTask.cancel : MinShowTask → MinShowTask
  | .done => .done
  | _ => .cancelled

/-! ### The helper tasks -/

/-- The two tasks a `_wait_with_indication` call makes beside the waiting coroutine,
with the times `show` was invoked. -/
structure Helpers where
  showTask : ShowTask
  minShow : MinShowTask
  /-- When `show` was invoked, oldest first. -/
  shownAt : List Nat
  deriving DecidableEq, Repr

/-- `show_task = asyncio.create_task(_show())`, with `min_show_task = None`. -/
def Helpers.init : Helpers := ⟨.created, .none, []⟩

@[simp] lemma Helpers.init_showTask : Helpers.init.showTask = .created := rfl
@[simp] lemma Helpers.init_minShow : Helpers.init.minShow = .none := rfl
@[simp] lemma Helpers.init_shownAt : Helpers.init.shownAt = [] := rfl

/-- One step of `show_task` or of `min_show_task`. -/
inductive HelperAct where
  /-- `show_task` starts: `await asyncio.sleep(MAX_BLOCK_TIME)`. -/
  | startShow
  /-- `show_task` wakes: `block_input = False`, `min_show_task` made, `await show()`. -/
  | wakeShow
  /-- `show()` returns. -/
  | showReturns
  /-- `min_show_task` starts sleeping. -/
  | startMin
  /-- `min_show_task` wakes and returns. -/
  | wakeMin
  deriving DecidableEq, Repr

/-- A step of the helper tasks at clock `now`, `none` when it cannot happen. -/
def Helpers.step (now : Nat) (h : Helpers) : HelperAct → Option Helpers
  | .startShow =>
    match h.showTask with
    | .created => some { h with showTask := .sleeping (now + MAX_BLOCK_TIME) }
    | _ => none
  | .wakeShow =>
    match h.showTask with
    | .sleeping due =>
      if due ≤ now then
        some { h with minShow := .created, shownAt := h.shownAt ++ [now], showTask := .showing }
      else none
    | _ => none
  | .showReturns =>
    match h.showTask with
    | .showing => some { h with showTask := .done }
    | _ => none
  | .startMin =>
    match h.minShow with
    | .created => some { h with minShow := .sleeping (now + MIN_SHOW_PROGRESS_TIME) }
    | _ => none
  | .wakeMin =>
    match h.minShow with
    | .sleeping due => if due ≤ now then some { h with minShow := .done } else none
    | _ => none

/-- `self.ui.block_input` after a step of the helper tasks: `_show` clears it. -/
def HelperAct.blockInput : HelperAct → Bool → Bool
  | .wakeShow, _ => false
  | _, b => b

@[simp] lemma HelperAct.blockInput_false (a : HelperAct) : a.blockInput false = false := by
  cases a <;> rfl

lemma HelperAct.blockInput_of_ne {a : HelperAct} (ha : a ≠ .wakeShow) (b : Bool) :
    a.blockInput b = b := by
  cases a <;> first | rfl | exact absurd rfl ha

/-- **What a step of the helper tasks can do**, one case per step. -/
lemma Helpers.step_eq_some {now : Nat} {h h' : Helpers} {a : HelperAct}
    (hs : h.step now a = some h') :
    (a = .startShow ∧ h.showTask = .created ∧
      h' = { h with showTask := .sleeping (now + MAX_BLOCK_TIME) }) ∨
    (a = .wakeShow ∧ (∃ due, h.showTask = .sleeping due ∧ due ≤ now) ∧
      h' = { h with minShow := .created, shownAt := h.shownAt ++ [now], showTask := .showing }) ∨
    (a = .showReturns ∧ h.showTask = .showing ∧ h' = { h with showTask := .done }) ∨
    (a = .startMin ∧ h.minShow = .created ∧
      h' = { h with minShow := .sleeping (now + MIN_SHOW_PROGRESS_TIME) }) ∨
    (a = .wakeMin ∧ (∃ due, h.minShow = .sleeping due ∧ due ≤ now) ∧
      h' = { h with minShow := .done }) := by
  cases a <;> simp only [Helpers.step] at hs <;> split at hs <;> (try split_ifs at hs) <;>
    cases hs <;> simp_all

/-- Only `show_task` waking invokes `show`. -/
lemma Helpers.step_shownAt {now : Nat} {h h' : Helpers} {a : HelperAct}
    (hs : h.step now a = some h') (ha : a ≠ .wakeShow) : h'.shownAt = h.shownAt := by
  rcases step_eq_some hs with ⟨-, -, rfl⟩ | ⟨rfl, -⟩ | ⟨-, -, rfl⟩ | ⟨-, -, rfl⟩ | ⟨-, -, rfl⟩
  all_goals first | rfl | exact absurd rfl ha

/-- A step keeps `min_show_task`, or leaves it made and not cancelled; only `show_task`
waking makes it. -/
lemma Helpers.step_minShow {now : Nat} {h h' : Helpers} {a : HelperAct}
    (hs : h.step now a = some h') : h'.minShow = h.minShow ∨
      h'.minShow ≠ .none ∧ h'.minShow ≠ .cancelled ∧ (h.minShow = .none → a = .wakeShow) := by
  rcases step_eq_some hs with ⟨-, -, rfl⟩ | ⟨rfl, -, rfl⟩ | ⟨-, -, rfl⟩ | ⟨-, hm, rfl⟩ |
    ⟨-, ⟨_, hm, -⟩, rfl⟩
  · exact .inl rfl
  · exact .inr ⟨nofun, nofun, fun _ => rfl⟩
  · exact .inl rfl
  all_goals exact .inr ⟨nofun, nofun, by simp [hm]⟩

/-- The `finally` of `_wait_with_indication` for the helper tasks: with no
`min_show_task`, `show_task.cancel()` and the call leaves (`some`); with one, the
call awaits it (`none`). -/
def Helpers.leave (h : Helpers) : Option Helpers :=
  match h.minShow with
  | .none => some { h with showTask := h.showTask.cancel }
  | _ => none

lemma Helpers.leave_eq_some {h h' : Helpers} :
    h.leave = some h' ↔ h.minShow = .none ∧ h' = { h with showTask := h.showTask.cancel } := by
  unfold leave; split <;> simp_all [eq_comm]

lemma Helpers.leave_eq_none {h : Helpers} : h.leave = none ↔ h.minShow ≠ .none := by
  unfold leave; split <;> simp_all

/-! ### One call -/

/-- Where the waiting coroutine is, with the awaitable's outcome once it has one. -/
inductive Waiter (α : Type) where
  /-- `result = await awaitable`. -/
  | awaiting
  /-- In the `finally`: `await min_show_task`. -/
  | awaitingMin (r : Except Exc α)
  /-- In the `finally`: `await hide()`. -/
  | hiding (r : Except Exc α)
  /-- Left `_wait_with_indication`: returned the value or raised. -/
  | returned (r : Except Exc α)
  deriving DecidableEq, Repr

/-- The state of one `_wait_with_indication` call and the tasks it made. -/
structure Ind (α : Type) extends Helpers where
  /-- The event loop's clock, `loop.time()`, in milliseconds. -/
  now : Nat
  /-- `self.ui.block_input`. -/
  blockInput : Bool
  /-- The awaitable's outcome, `none` while it runs. -/
  awaitable : Option (Except Exc α)
  waiter : Waiter α
  /-- When `hide` was invoked, oldest first. -/
  hiddenAt : List Nat
  deriving DecidableEq, Repr

namespace Ind

variable {α : Type}

/-- Just after the call at time `t0`: `self.ui.block_input = True`, `show_task`
made, and the coroutine suspended on the awaitable. -/
def init (t0 : Nat) : Ind α :=
  ⟨Helpers.init, t0, true, none, .awaiting, []⟩

/-- The `finally` of `_wait_with_indication` on the awaitable's outcome `r`: with a
`min_show_task` it awaits it; without, it unblocks input, cancels `show_task` and
leaves. -/
def finish (s : Ind α) (r : Except Exc α) : Ind α :=
  match s.leave with
  | some h => { s with toHelpers := h, blockInput := false, waiter := .returned r }
  | none => { s with waiter := .awaitingMin r }

/-- A step of the call's helper tasks. -/
def helperStep (s : Ind α) (a : HelperAct) : Option (Ind α) :=
  (s.toHelpers.step s.now a).map fun h =>
    { s with toHelpers := h, blockInput := a.blockInput s.blockInput }

lemma finish_of_none {s : Ind α} (hm : s.minShow = .none) (r : Except Exc α) :
    s.finish r = { s with showTask := s.showTask.cancel, blockInput := false, waiter := .returned r } := by
  simp [finish, Helpers.leave, hm]

lemma finish_of_ne_none {s : Ind α} (hm : s.minShow ≠ .none) (r : Except Exc α) :
    s.finish r = { s with waiter := .awaitingMin r } := by
  simp [finish, Helpers.leave_eq_none.mpr hm]

lemma helperStep_eq_some {s s' : Ind α} {a : HelperAct} (hs : s.helperStep a = some s') :
    ∃ h, s.toHelpers.step s.now a = some h ∧
      s' = { s with toHelpers := h, blockInput := a.blockInput s.blockInput } := by
  obtain ⟨h, hh, rfl⟩ := Option.map_eq_some'.mp hs
  exact ⟨h, hh, rfl⟩

end Ind

/-- One step of the event loop. -/
inductive Act (α : Type) where
  /-- The clock advances by `t`. -/
  | advance (t : Nat)
  /-- The awaitable completes with a value or an exception. -/
  | complete (r : Except Exc α)
  /-- `show_task` starts: `await asyncio.sleep(MAX_BLOCK_TIME)`. -/
  | startShow
  /-- `show_task` wakes: `block_input = False`, `min_show_task` made, `await show()`. -/
  | wakeShow
  /-- `show()` returns. -/
  | showReturns
  /-- The waiting coroutine resumes from the awaitable and runs the `finally`. -/
  | resume
  /-- `min_show_task` starts sleeping. -/
  | startMin
  /-- `min_show_task` wakes and returns. -/
  | wakeMin
  /-- The waiting coroutine resumes from `min_show_task`: `await hide()` if given. -/
  | resumeMin
  /-- `hide()` returns. -/
  | hideReturns
  /-- The waiting task is cancelled: `CancelledError` at its current await. -/
  | cancel
  deriving DecidableEq, Repr

section Step

variable {α : Type} (hide : Bool)

/-- One step of the event loop, `none` when the step cannot happen. -/
def step (s : Ind α) : Act α → Option (Ind α)
  | .advance t => some { s with now := s.now + t }
  | .complete r =>
    match s.awaitable with
    | none => some { s with awaitable := some r }
    | some _ => none
  | .startShow => s.helperStep .startShow
  | .wakeShow => s.helperStep .wakeShow
  | .showReturns => s.helperStep .showReturns
  | .resume =>
    match s.waiter, s.awaitable with
    | .awaiting, some r => some (s.finish r)
    | _, _ => none
  | .startMin => s.helperStep .startMin
  | .wakeMin => s.helperStep .wakeMin
  | .resumeMin =>
    match s.waiter, s.minShow with
    | .awaitingMin r, .done =>
      some (if hide then { s with hiddenAt := s.hiddenAt ++ [s.now], waiter := .hiding r }
        else { s with waiter := .returned r })
    | _, _ => none
  | .hideReturns =>
    match s.waiter with
    | .hiding r => some { s with waiter := .returned r }
    | _ => none
  | .cancel =>
    match s.waiter with
    | .awaiting => some (s.finish (.error .cancelled))
    | .awaitingMin _ =>
      some { s with minShow := s.minShow.cancel, waiter := .returned (.error .cancelled) }
    | .hiding _ => some { s with waiter := .returned (.error .cancelled) }
    | .returned _ => none

/-- A run of steps, `none` if one of them cannot happen. -/
def run : Ind α → List (Act α) → Option (Ind α)
  | s, [] => some s
  | s, a :: as => (step hide s a).bind (run · as)

end Step

end Subiquity
