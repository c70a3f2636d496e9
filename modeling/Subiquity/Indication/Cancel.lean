import Subiquity.Indication.Timing

/-!
`_wait_with_indication` (`subiquitycore/tui.py`) when the waiting task is
cancelled: `asyncio.CancelledError` arrives at the coroutine's current await, and
the `finally` block runs up to its own first await.

* `cancel_in_finally_skips_hide`: cancelled while the `finally` awaits
  `min_show_task`, the call leaves with `show` invoked and `hide` never.
* `Settled`: `show_task` past its sleep or cancelled (`ShowTask.Passed`) as soon as the
  waiting coroutine has left the awaitable; every step keeps it.
* `run_left_no_show`: once the call has left, `show` is never invoked again,
  whatever the cancellations.
-/

namespace Subiquity

variable {α : Type}

/-! ### A cancellation in the `finally` -/

/-- **A cancellation in the `finally` skips `hide`.** The awaitable outlasts
`MAX_BLOCK_TIME`, so `show` runs at 100 ms; the awaitable completes at 150 ms and the
coroutine awaits `min_show_task`; the task is cancelled at 200 ms and the
`CancelledError` leaves `_wait_with_indication` with `show` invoked and `hide` never. -/
theorem cancel_in_finally_skips_hide :
    run true (Ind.init 0 : Ind Unit) [.startShow, .advance 100, .wakeShow, .startMin,
      .advance 50, .complete (.ok ()), .resume, .advance 50, .cancel] =
      some { showTask := .showing, minShow := .cancelled, shownAt := [100], now := 200,
             blockInput := false, awaitable := some (.ok ()),
             waiter := .returned (.error .cancelled), hiddenAt := [] } := by
  decide

/-! ### No `show` after the call has left -/

/-- `show_task` has passed once `min_show_task` exists and once the waiting coroutine
has left the awaitable. -/
structure Settled (s : Ind α) : Prop where
  min_passed : s.minShow ≠ .none → s.showTask.Passed
  left_passed : s.waiter ≠ .awaiting → s.showTask.Passed

lemma Settled.init (t0 : Nat) : Settled (Ind.init t0 : Ind α) :=
  ⟨fun h => absurd rfl h, fun h => absurd rfl h⟩

/-- Every step, cancellations included, keeps `Settled`. -/
lemma Settled.step {hide : Bool} {s s' : Ind α} {a : Act α} (h : Settled s)
    (hs : step hide s a = some s') : Settled s' := by
  cases a with
  | advance k => cases hs; exact ⟨h.min_passed, h.left_passed⟩
  | complete r => simp only [Subiquity.step] at hs; split at hs <;> cases hs; exact ⟨h.min_passed, h.left_passed⟩
  | startShow | wakeShow | showReturns | startMin | wakeMin =>
    obtain ⟨h', hh, rfl⟩ := Ind.helperStep_eq_some hs
    rcases Helpers.step_eq_some hh with ⟨-, hS, rfl⟩ | ⟨-, ⟨_, hS, -⟩, rfl⟩ | ⟨-, -, rfl⟩ |
      ⟨-, hm, rfl⟩ | ⟨-, ⟨_, hm, -⟩, rfl⟩
    · exact ⟨fun hm => absurd (h.min_passed hm) (by simp [hS, ShowTask.Passed]),
        fun hw => absurd (h.left_passed hw) (by simp [hS, ShowTask.Passed])⟩
    · exact ⟨fun _ => trivial, fun hw => absurd (h.left_passed hw) (by simp [hS, ShowTask.Passed])⟩
    · exact ⟨fun _ => trivial, fun _ => trivial⟩
    all_goals exact ⟨fun _ => h.min_passed (by simp [hm]), h.left_passed⟩
  | resume =>
    simp only [Subiquity.step] at hs; split at hs <;> cases hs
    exact ⟨fun _ => Ind.finish_passed h.min_passed _, fun _ => Ind.finish_passed h.min_passed _⟩
  | resumeMin =>
    simp only [Subiquity.step] at hs; split at hs <;> cases hs
    rename_i hw _
    have hp := h.left_passed (by simp [hw])
    split <;> exact ⟨fun _ => hp, fun _ => hp⟩
  | hideReturns =>
    simp only [Subiquity.step] at hs; split at hs <;> cases hs
    rename_i hw
    have hp := h.left_passed (by simp [hw])
    exact ⟨fun _ => hp, fun _ => hp⟩
  | cancel =>
    simp only [Subiquity.step] at hs; split at hs <;> cases hs
    · exact ⟨fun _ => Ind.finish_passed h.min_passed _, fun _ => Ind.finish_passed h.min_passed _⟩
    all_goals
      rename_i hw
      have hp := h.left_passed (by simp [hw])
      exact ⟨fun _ => hp, fun _ => hp⟩

lemma Settled.run {hide : Bool} : ∀ {s s' : Ind α} {acts : List (Act α)}, Settled s →
    Subiquity.run hide s acts = some s' → Settled s'
  | _, _, [], h, hr => by cases hr; exact h
  | s, s', a :: acts, h, hr => by
    simp only [Subiquity.run] at hr
    cases hs : Subiquity.step hide s a with
    | none => simp [hs] at hr
    | some s₁ =>
      simp only [hs, Option.bind_some] at hr
      exact Settled.run (h.step hs) hr

/-- **No `show` after the call has left.** Whatever the schedule and the
cancellations, once `_wait_with_indication` has returned or raised, no later step
invokes `show`. -/
theorem run_left_no_show (hide : Bool) (t0 : Nat) (acts acts' : List (Act α)) (s s' : Ind α)
    (r : Except Exc α) (hr : run hide (Ind.init t0) acts = some s) (hw : s.waiter = .returned r)
    (hr' : run hide s acts' = some s') : s'.shownAt = s.shownAt :=
  run_of_passed (((Settled.init t0).run hr).left_passed (by simp [hw])) hr'

/-- No `show` after a call cancelled before `MAX_BLOCK_TIME`, the clock running on
past `show_task`'s due time. -/
theorem run_left_no_show_early :
    let s : Ind Unit := { showTask := .cancelled, minShow := .none, shownAt := [], now := 50,
                          blockInput := false, awaitable := none,
                          waiter := .returned (.error .cancelled), hiddenAt := [] }
    run true (Ind.init 0) [.startShow, .advance 50, .cancel] = some s ∧
      run true s [.advance 100] = some { s with now := 150 } ∧
      ({ s with now := 150 } : Ind Unit).shownAt = s.shownAt :=
  ⟨by decide, by decide, run_left_no_show true 0 [.startShow, .advance 50, .cancel] [.advance 100]
    _ _ _ (by decide) rfl (by decide)⟩

end Subiquity
