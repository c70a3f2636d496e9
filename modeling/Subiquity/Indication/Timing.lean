import Subiquity.Indication.Basic

/-!
The timing contract of `_wait_with_indication` (`subiquitycore/tui.py`) over every
schedule of its three tasks and every completion time of the awaitable, the
waiting task not being cancelled.

* `MinOk`, `Helpers.Ok`: the invariant of the helper tasks of a call made at `t0`:
  `show` not invoked yet, or invoked once, at `ts`, at least `MAX_BLOCK_TIME` after the
  call, with `min_show_task` due at least `MIN_SHOW_PROGRESS_TIME` after `ts`.
  `Helpers.Ok.step`, `Helpers.Ok.leave`: each step of the helper tasks, and the
  `finally` with no `min_show_task`, keep it. Every model of a call reuses them.
* `WaiterOk`, `Phase`, `Phase.step`, `Phase.run`: the invariant of the call, the helper
  tasks' with the waiting coroutine in step, kept by each step but a cancellation.
* `Phase.returns`: from every state of the invariant, once the awaitable has completed,
  the call's own steps and the clock take it to its return with the awaitable's outcome.
* `ShowTask.Passed`, `run_of_passed`: once `show_task` has woken or been cancelled, no
  step invokes `show`.
* `waitWithIndication_bookkeeping`: `show` at most once and never before
  `MAX_BLOCK_TIME`; `hide` only after `show`, at least `MIN_SHOW_PROGRESS_TIME` later,
  and at most once; on return the awaitable's outcome, input unblocked, `hide` invoked
  exactly when given and `show` was, and `min_show_task` done; once the coroutine resumes
  before `show_task` wakes, `show` is never invoked; and the call does return.
-/

namespace Subiquity

variable {α : Type}

/-! ### The helper tasks -/

/-- Where `min_show_task` may stand once `show` was invoked at `t`. -/
def MinOk (t now : Nat) : MinShowTask → Prop
  | .created => True
  | .sleeping due => t + MIN_SHOW_PROGRESS_TIME ≤ due
  | .done => t + MIN_SHOW_PROGRESS_TIME ≤ now
  | _ => False

lemma MinOk.mono {t now now' : Nat} {m : MinShowTask} (h : MinOk t now m) (hle : now ≤ now') :
    MinOk t now' m := by
  cases m <;> simp only [MinOk] at h ⊢ <;> omega

/-- `show_task` before it wakes, due no earlier than `MAX_BLOCK_TIME` after the call at
`t0`, or cancelled before it woke. -/
def ShowTask.Quiet (t0 : Nat) : ShowTask → Prop
  | .created | .cancelled => True
  | .sleeping due => t0 + MAX_BLOCK_TIME ≤ due
  | _ => False

lemma ShowTask.Quiet.cancel {t0 : Nat} {t : ShowTask} (h : t.Quiet t0) : t.cancel.Quiet t0 := by
  cases t <;> trivial

/-- `show_task` can no longer invoke `show`: it got past its sleep, or was cancelled. -/
def ShowTask.Passed : ShowTask → Prop
  | .created => False
  | .sleeping _ => False
  | _ => True

lemma ShowTask.cancel_passed (t : ShowTask) : t.cancel.Passed := by
  cases t <;> trivial

/-- **The invariant of the helper tasks** of a call made at `t0`, at clock `now`, no
cancellation having reached `min_show_task`: `show` not invoked and no `min_show_task`;
or `show` invoked once, at `ts`, no earlier than `MAX_BLOCK_TIME` after the call,
`show_task` past its sleep and `min_show_task` as `MinOk` says. -/
inductive Helpers.Ok (t0 now : Nat) (h : Helpers) : Prop where
  | quiet : h.showTask.Quiet t0 → h.minShow = .none → h.shownAt = [] → Helpers.Ok t0 now h
  | shown (ts : Nat) : h.shownAt = [ts] → t0 + MAX_BLOCK_TIME ≤ ts → ts ≤ now →
      (h.showTask = .showing ∨ h.showTask = .done) → MinOk ts now h.minShow → Helpers.Ok t0 now h

namespace Helpers.Ok

variable {t0 now : Nat} {h h' : Helpers}

lemma init (t0 now : Nat) : Helpers.init.Ok t0 now := .quiet trivial rfl rfl

lemma mono (hok : h.Ok t0 now) {now' : Nat} (hle : now ≤ now') : h.Ok t0 now' := by
  rcases hok with ⟨hq, hm, hsh⟩ | ⟨ts, hsh, ht0, htn, hS, hM⟩
  exacts [.quiet hq hm hsh, .shown ts hsh ht0 (by omega) hS (hM.mono hle)]

/-- With `min_show_task` made, `show` was invoked once. -/
lemma of_minShow (hok : h.Ok t0 now) (hm : h.minShow ≠ .none) : ∃ ts, h.shownAt = [ts] ∧
    t0 + MAX_BLOCK_TIME ≤ ts ∧ (h.showTask = .showing ∨ h.showTask = .done) ∧
      MinOk ts now h.minShow := by
  rcases hok with ⟨-, hm', -⟩ | ⟨ts, hsh, ht0, -, hS, hM⟩
  exacts [absurd hm' hm, ⟨ts, hsh, ht0, hS, hM⟩]

lemma minShow_eq_none (hok : h.Ok t0 now) : h.minShow = .none ↔ h.shownAt = [] := by
  rcases hok with ⟨-, hm, hsh⟩ | ⟨ts, hsh, -, -, -, hM⟩
  · simp [hm, hsh]
  · simp only [hsh, List.cons_ne_nil, iff_false]
    rintro hm
    simp [hm, MinOk] at hM

lemma minShow_ne_cancelled (hok : h.Ok t0 now) : h.minShow ≠ .cancelled := by
  rcases hok with ⟨-, hm, -⟩ | ⟨_, -, -, -, -, hM⟩
  · simp [hm]
  · rintro hm
    simp [hm, MinOk] at hM

/-- **Each step of the helper tasks keeps the invariant**, at a clock past the call. -/
lemma step (hok : h.Ok t0 now) (hn : t0 ≤ now) {a : HelperAct} (hs : h.step now a = some h') :
    h'.Ok t0 now := by
  rcases Helpers.step_eq_some hs with ⟨-, hS, rfl⟩ | ⟨-, ⟨due, hS, hle⟩, rfl⟩ | ⟨-, hS, rfl⟩ |
    ⟨-, hm, rfl⟩ | ⟨-, ⟨due, hm, hle⟩, rfl⟩
  case inl =>
    rcases hok with ⟨-, hm, hsh⟩ | ⟨ts, -, -, -, hS' | hS', -⟩
    · exact .quiet (show t0 + MAX_BLOCK_TIME ≤ now + MAX_BLOCK_TIME by omega) hm hsh
    all_goals simp [hS] at hS'
  case inr.inl =>
    rcases hok with ⟨hq, hm, hsh⟩ | ⟨ts, -, -, -, hS' | hS', -⟩
    · rw [hS] at hq
      exact .shown now (by simp [hsh]) (by simp only [ShowTask.Quiet] at hq; omega) le_rfl
        (.inl rfl) trivial
    all_goals simp [hS] at hS'
  case inr.inr.inl =>
    rcases hok with ⟨hq, -, -⟩ | ⟨ts, hsh, ht0, htn, -, hM⟩
    · rw [hS] at hq
      exact hq.elim
    · exact .shown ts hsh ht0 htn (.inr rfl) hM
  case inr.inr.inr.inl =>
    rcases hok with ⟨-, hm', -⟩ | ⟨ts, hsh, ht0, htn, hS, -⟩
    · simp [hm] at hm'
    · exact .shown ts hsh ht0 htn hS
        (show ts + MIN_SHOW_PROGRESS_TIME ≤ now + MIN_SHOW_PROGRESS_TIME by omega)
  case inr.inr.inr.inr =>
    rcases hok with ⟨-, hm', -⟩ | ⟨ts, hsh, ht0, htn, hS, hM⟩
    · simp [hm] at hm'
    · rw [hm] at hM
      exact .shown ts hsh ht0 htn hS
        (show ts + MIN_SHOW_PROGRESS_TIME ≤ now by simp only [MinOk] at hM; omega)

/-- With no `min_show_task`, `show_task` has not woken. -/
lemma quiet_of_none (hok : h.Ok t0 now) (hm : h.minShow = .none) : h.showTask.Quiet t0 := by
  rcases hok with ⟨hq, -, -⟩ | ⟨_, -, -, -, -, hM⟩
  exacts [hq, by simp [hm, MinOk] at hM]

/-- With `min_show_task` done, a step of the helper tasks changes neither it nor the
show log: `show_task` is past its sleep. -/
lemma step_of_done (hok : h.Ok t0 now) (hm : h.minShow = .done) {a : HelperAct}
    (hs : h.step now a = some h') : h'.minShow = .done ∧ h'.shownAt = h.shownAt := by
  obtain ⟨_, -, -, hS, -⟩ := hok.of_minShow (by simp [hm])
  rcases Helpers.step_eq_some hs with ⟨-, hS', rfl⟩ | ⟨-, ⟨_, hS', -⟩, rfl⟩ | ⟨-, -, rfl⟩ |
    ⟨-, hm', rfl⟩ | ⟨-, ⟨_, hm', -⟩, rfl⟩
  · rcases hS with hS | hS <;> simp [hS] at hS'
  · rcases hS with hS | hS <;> simp [hS] at hS'
  · exact ⟨hm, rfl⟩
  all_goals simp [hm] at hm'

/-- The `finally` with no `min_show_task` keeps the invariant: `show_task`, not yet
woken, is cancelled. -/
lemma leave (hok : h.Ok t0 now) (hl : h.leave = some h') : h'.Ok t0 now := by
  obtain ⟨hm, rfl⟩ := Helpers.leave_eq_some.mp hl
  exact .quiet (hok.quiet_of_none hm).cancel hm (hok.minShow_eq_none.mp hm)

end Helpers.Ok

/-! ### The invariant of a call -/

/-- `hide` invoked once, no earlier than `MIN_SHOW_PROGRESS_TIME` after `show`. -/
def HiddenOnce (hiddenAt shownAt : List Nat) : Prop :=
  ∃ x, hiddenAt = [x] ∧ ∀ ts ∈ shownAt, ts + MIN_SHOW_PROGRESS_TIME ≤ x

/-- Where the waiting coroutine may stand, with `block_input`, the awaitable's outcome,
`min_show_task` and `hide` in step. -/
def WaiterOk (hide : Bool) (s : Ind α) : Prop :=
  match s.waiter with
  | .awaiting => s.hiddenAt = [] ∧ s.blockInput = decide (s.shownAt = [])
  | .awaitingMin r => s.awaitable = some r ∧ s.hiddenAt = [] ∧ s.minShow ≠ .none ∧
      s.blockInput = false
  | .hiding r => s.awaitable = some r ∧ hide = true ∧ s.minShow = .done ∧
      s.blockInput = false ∧ HiddenOnce s.hiddenAt s.shownAt
  | .returned r => s.awaitable = some r ∧ s.blockInput = false ∧
      (s.minShow = .none ∧ s.showTask = .cancelled ∨ s.minShow = .done) ∧
      if hide ∧ s.shownAt ≠ [] then HiddenOnce s.hiddenAt s.shownAt else s.hiddenAt = []

/-- **The invariant of a call** made at `t0` and not cancelled. -/
structure Phase (hide : Bool) (t0 : Nat) (s : Ind α) : Prop where
  started : t0 ≤ s.now
  helpers : s.toHelpers.Ok t0 s.now
  waiter : WaiterOk hide s

lemma Phase.init (hide : Bool) (t0 : Nat) : Phase hide t0 (Ind.init t0 : Ind α) :=
  ⟨le_rfl, .init t0 t0, ⟨rfl, rfl⟩⟩

/-! ### Each step keeps the invariant -/

section Steps

variable {hide : Bool} {t0 : Nat} {s s' : Ind α}

/-- A step of `show_task` or `min_show_task`. -/
lemma Phase.helperStep (h : Phase hide t0 s) {a : HelperAct} (hs : s.helperStep a = some s') :
    Phase hide t0 s' := by
  obtain ⟨h', hh, rfl⟩ := Ind.helperStep_eq_some hs
  refine ⟨h.started, h.helpers.step h.started hh, ?_⟩
  have hW := h.waiter
  cases hw : s.waiter with
  | awaiting =>
    simp only [WaiterOk, hw] at hW ⊢
    obtain ⟨hhi, hb⟩ := hW
    refine ⟨hhi, ?_⟩
    by_cases ha : a = .wakeShow
    · subst ha
      rcases Helpers.step_eq_some hh with ⟨⟨⟩, -⟩ | ⟨-, -, rfl⟩ | ⟨⟨⟩, -⟩ | ⟨⟨⟩, -⟩ | ⟨⟨⟩, -⟩
      simp [HelperAct.blockInput]
    · simp [hb, Helpers.step_shownAt hh ha, HelperAct.blockInput_of_ne ha]
  | awaitingMin r =>
    simp only [WaiterOk, hw] at hW ⊢
    obtain ⟨hA, hhi, hm, hb⟩ := hW
    refine ⟨hA, hhi, ?_, by simp [hb]⟩
    rcases Helpers.step_minShow hh with hm' | ⟨hm', -⟩
    exacts [hm' ▸ hm, hm']
  | «hiding» r =>
    simp only [WaiterOk, hw] at hW ⊢
    obtain ⟨hA, hh', hm, hb, x, hx, hle⟩ := hW
    obtain ⟨hm', hsh'⟩ := h.helpers.step_of_done hm hh
    exact ⟨hA, hh', hm', by simp [hb], x, hx, hsh' ▸ hle⟩
  | returned r =>
    simp only [WaiterOk, hw] at hW ⊢
    obtain ⟨hA, hb, ⟨hm, hS⟩ | hm, hhid⟩ := hW
    · -- no helper task can step once `show_task` is cancelled with no `min_show_task`
      rcases Helpers.step_eq_some hh with ⟨-, h₁, -⟩ | ⟨-, ⟨_, h₁, -⟩, -⟩ | ⟨-, h₁, -⟩ |
        ⟨-, h₁, -⟩ | ⟨-, ⟨_, h₁, -⟩, -⟩ <;> simp [hS, hm] at h₁
    · obtain ⟨hm', hsh'⟩ := h.helpers.step_of_done hm hh
      exact ⟨hA, by simp [hb], .inr hm', by simpa only [hsh'] using hhid⟩

/-- The `finally` on the awaitable's outcome. -/
lemma Phase.finish (h : Phase hide t0 s) (hw : s.waiter = .awaiting) {r : Except Exc α}
    (hA : s.awaitable = some r) : Phase hide t0 (s.finish r) := by
  have hW := h.waiter
  simp only [WaiterOk, hw] at hW
  obtain ⟨hhi, hb⟩ := hW
  by_cases hm : s.minShow = .none
  · have hl : s.leave = some { s.toHelpers with showTask := s.showTask.cancel } :=
      Helpers.leave_eq_some.mpr ⟨hm, rfl⟩
    rw [Ind.finish_of_none hm]
    refine ⟨h.started, h.helpers.leave hl, ?_⟩
    have hc : s.showTask.cancel = .cancelled := by
      have hq := h.helpers.quiet_of_none hm
      revert hq; cases s.showTask <;> simp [ShowTask.Quiet, ShowTask.cancel]
    simp [WaiterOk, hA, hm, hc, h.helpers.minShow_eq_none.mp hm, hhi]
  · rw [Ind.finish_of_ne_none hm]
    have hsh : s.shownAt ≠ [] := fun h' => hm (h.helpers.minShow_eq_none.mpr h')
    exact ⟨h.started, h.helpers, by simp [WaiterOk, hA, hhi, hm, hb, hsh]⟩

/-- **Each step but a cancellation keeps the invariant.** -/
lemma Phase.step (h : Phase hide t0 s) {a : Act α} (ha : a ≠ .cancel)
    (hs : Subiquity.step hide s a = some s') : Phase hide t0 s' := by
  cases a with
  | advance k =>
    cases hs
    exact ⟨by simp only; have := h.started; omega, h.helpers.mono (by simp), h.waiter⟩
  | complete r =>
    simp only [Subiquity.step] at hs
    split at hs <;> cases hs
    rename_i hA
    refine ⟨h.started, h.helpers, ?_⟩
    have hW := h.waiter
    unfold WaiterOk at hW ⊢
    split at hW <;> simp_all
  | startShow | wakeShow | showReturns | startMin | wakeMin => exact h.helperStep hs
  | resume =>
    simp only [Subiquity.step] at hs
    split at hs <;> cases hs
    exact h.finish ‹_› ‹_›
  | resumeMin =>
    simp only [Subiquity.step] at hs
    split at hs <;> cases hs
    rename_i r hw hm
    have hW := h.waiter
    simp only [WaiterOk, hw] at hW
    obtain ⟨hA, hhi, -, hb⟩ := hW
    obtain ⟨ts, hsh, -, -, hM⟩ := h.helpers.of_minShow (by simp [hm])
    simp only [hm, MinOk] at hM
    cases hide <;>
      exact ⟨h.started, h.helpers, by simp [WaiterOk, HiddenOnce, hA, hb, hm, hhi, hsh, hM]⟩
  | hideReturns =>
    simp only [Subiquity.step] at hs
    split at hs <;> cases hs
    rename_i r hw
    have hW := h.waiter
    simp only [WaiterOk, hw] at hW
    obtain ⟨hA, hh, hm, hb, hO⟩ := hW
    obtain ⟨ts, hsh, -⟩ := h.helpers.of_minShow (by simp [hm])
    have hne : s.shownAt ≠ [] := by simp [hsh]
    exact ⟨h.started, h.helpers, by simp [WaiterOk, hA, hb, hm, hh, hne, hO]⟩
  | cancel => exact absurd rfl ha

/-- A run without cancellation keeps the invariant. -/
lemma Phase.run : ∀ {s s' : Ind α} {acts : List (Act α)}, Phase hide t0 s →
    (∀ a ∈ acts, a ≠ .cancel) → Subiquity.run hide s acts = some s' → Phase hide t0 s'
  | _, _, [], h, _, hr => by cases hr; exact h
  | _, _, a :: acts, h, hc, hr => by
    obtain ⟨s₁, h₁, h₂⟩ := Option.bind_eq_some.mp hr
    exact Phase.run (h.step (hc a (.head _)) h₁) (fun b hb => hc b (.tail _ hb)) h₂

end Steps

/-! ### The call returns -/

section Returns

variable {hide : Bool} {s s₁ s₂ s₃ : Ind α}

lemma run_append (s : Ind α) (as bs : List (Act α)) :
    run hide s (as ++ bs) = (run hide s as).bind (run hide · bs) := by
  induction as generalizing s with
  | nil => rfl
  | cons a as ih =>
    simp only [List.cons_append, run]
    cases step hide s a <;> simp [ih]

/-- `s'` follows from `s` by steps of the call and the clock, none a cancellation. -/
def Reaches (hide : Bool) (s s' : Ind α) : Prop :=
  ∃ acts : List (Act α), (∀ a ∈ acts, a ≠ .cancel) ∧ run hide s acts = some s'

lemma Reaches.refl (s : Ind α) : Reaches hide s s := ⟨[], nofun, rfl⟩

lemma Reaches.trans (h₁ : Reaches hide s₁ s₂) (h₂ : Reaches hide s₂ s₃) : Reaches hide s₁ s₃ := by
  obtain ⟨as, ha, hr⟩ := h₁
  obtain ⟨bs, hb, hr'⟩ := h₂
  exact ⟨as ++ bs, List.forall_mem_append.mpr ⟨ha, hb⟩, by rw [run_append, hr]; exact hr'⟩

lemma Reaches.single {a : Act α} (hs : step hide s₁ a = some s₂) (ha : a ≠ .cancel) :
    Reaches hide s₁ s₂ :=
  ⟨[a], by simpa using ha, by simp [run, hs]⟩

/-- `min_show_task`, made and not cancelled, gets done by its own steps and the clock. -/
lemma reaches_minDone (hide : Bool) (hm : s.minShow ≠ .none) (hc : s.minShow ≠ .cancelled) :
    ∃ s', Reaches hide s s' ∧ s'.waiter = s.waiter ∧ s'.minShow = .done := by
  have hwake : ∀ {s : Ind α} {due : Nat}, s.minShow = .sleeping due → due ≤ s.now →
      step hide s .wakeMin = some { s with minShow := .done } := fun hms hle => by
    simp [Subiquity.step, Ind.helperStep, Helpers.step, hms, hle, HelperAct.blockInput]
  cases hms : s.minShow with
  | none | cancelled => simp_all
  | done => exact ⟨s, .refl s, rfl, hms⟩
  | sleeping due =>
    let s₁ : Ind α := { s with now := s.now + (due - s.now) }
    have hadv : step hide s (.advance (due - s.now)) = some s₁ := rfl
    exact ⟨_, (Reaches.single hadv nofun).trans
      (.single (hwake (s := s₁) hms (by simp only [s₁]; omega)) nofun), rfl, rfl⟩
  | created =>
    let s₁ : Ind α := { s with minShow := .sleeping (s.now + MIN_SHOW_PROGRESS_TIME) }
    have hstart : step hide s .startMin = some s₁ := by
      simp [s₁, Subiquity.step, Ind.helperStep, Helpers.step, hms, HelperAct.blockInput]
    have hadv : step hide s₁ (.advance MIN_SHOW_PROGRESS_TIME) =
        some { s₁ with now := s₁.now + MIN_SHOW_PROGRESS_TIME } := rfl
    exact ⟨_, (Reaches.single hstart nofun).trans <| (Reaches.single hadv nofun).trans <|
      .single (hwake rfl le_rfl) nofun, rfl, rfl⟩

/-- Awaiting a `min_show_task` that is done, the coroutine returns: straight away, or
once `hide()` returns. -/
lemma reaches_returned_of_min (hide : Bool) {r : Except Exc α} (hw : s.waiter = .awaitingMin r)
    (hm : s.minShow = .done) : ∃ s', Reaches hide s s' ∧ s'.waiter = .returned r := by
  cases hide
  · exact ⟨_, .single (a := .resumeMin) (by simp [Subiquity.step, hw, hm]; rfl) nofun, rfl⟩
  · have hres : step true s .resumeMin =
        some { s with hiddenAt := s.hiddenAt ++ [s.now], waiter := .hiding r } := by
      simp [Subiquity.step, hw, hm]
    have hret : step true { s with hiddenAt := s.hiddenAt ++ [s.now], waiter := .hiding r }
        .hideReturns = some { s with hiddenAt := s.hiddenAt ++ [s.now], waiter := .returned r } := rfl
    exact ⟨_, (Reaches.single hres nofun).trans (.single hret nofun), rfl⟩

/-- **The call returns.** From every state of the invariant, once the awaitable has
completed with `r` (or completes now), the steps of the call's own tasks and the clock
take it to its return with `r`. -/
lemma Phase.returns {t0 : Nat} (h : Phase hide t0 s) {r : Except Exc α}
    (hr : s.awaitable = none ∨ s.awaitable = some r) :
    ∃ s', Reaches hide s s' ∧ s'.waiter = .returned r := by
  obtain ⟨s₁, h₁, hp, hA⟩ : ∃ s₁, Reaches hide s s₁ ∧ Phase hide t0 s₁ ∧ s₁.awaitable = some r := by
    rcases hr with hr | hr
    · have hs : Subiquity.step hide s (.complete r) = some { s with awaitable := some r } := by
        simp [Subiquity.step, hr]
      exact ⟨_, .single hs nofun, h.step (by nofun) hs, rfl⟩
    · exact ⟨s, .refl s, h, hr⟩
  have hW := hp.waiter
  have hmin : ∀ {s : Ind α}, Phase hide t0 s → s.waiter = .awaitingMin r → s.minShow ≠ .none →
      ∃ s', Reaches hide s s' ∧ s'.waiter = .returned r := fun hp hw hm => by
    obtain ⟨s', h', hw', hm'⟩ := reaches_minDone hide hm hp.helpers.minShow_ne_cancelled
    obtain ⟨s'', h'', hr''⟩ := reaches_returned_of_min hide (hw'.trans hw) hm'
    exact ⟨s'', h'.trans h'', hr''⟩
  cases hw : s₁.waiter with
  | awaiting =>
    have hs : Subiquity.step hide s₁ .resume = some (s₁.finish r) := by
      simp [Subiquity.step, hw, hA]
    by_cases hm : s₁.minShow = .none
    · exact ⟨_, h₁.trans (.single hs nofun), by simp [Ind.finish_of_none hm]⟩
    · obtain ⟨s', h', hr'⟩ := hmin (hp.step (by nofun) hs) (by simp [Ind.finish_of_ne_none hm])
        (by simpa [Ind.finish_of_ne_none hm] using hm)
      exact ⟨s', h₁.trans ((Reaches.single hs nofun).trans h'), hr'⟩
  | awaitingMin r' =>
    simp only [WaiterOk, hw, hA, Option.some.injEq] at hW
    obtain ⟨rfl, -, hm, -⟩ := hW
    obtain ⟨s', h', hr'⟩ := hmin hp hw hm
    exact ⟨s', h₁.trans h', hr'⟩
  | «hiding» r' =>
    simp only [WaiterOk, hw, hA, Option.some.injEq] at hW
    obtain ⟨rfl, -⟩ := hW
    have hs : Subiquity.step hide s₁ .hideReturns = some { s₁ with waiter := .returned r } := by
      simp [Subiquity.step, hw]
    exact ⟨_, h₁.trans (.single hs nofun), rfl⟩
  | returned r' =>
    simp only [WaiterOk, hw, hA, Option.some.injEq] at hW
    obtain ⟨rfl, -⟩ := hW
    exact ⟨s₁, h₁, hw⟩

end Returns

/-! ### The contract -/

section Contract

variable {hide : Bool} {t0 : Nat} {s s' : Ind α}

/-- `hide` not invoked, or invoked once after `show` as `HiddenOnce` says. -/
lemma Phase.hidden (h : Phase hide t0 s) :
    s.hiddenAt = [] ∨ s.shownAt ≠ [] ∧ HiddenOnce s.hiddenAt s.shownAt := by
  have hW := h.waiter
  unfold WaiterOk at hW
  split at hW
  · exact .inl hW.1
  · exact .inl hW.2.1
  · obtain ⟨-, -, hm, -, hO⟩ := hW
    obtain ⟨ts, hsh, -⟩ := h.helpers.of_minShow (by simp [hm])
    exact .inr ⟨by simp [hsh], hO⟩
  · obtain ⟨-, -, -, hO⟩ := hW
    split at hO
    exacts [.inr ⟨(‹_ ∧ _›).2, hO⟩, .inl hO]

/-- What the invariant says about `show`, `hide` and the return. -/
lemma Phase.bookkeeping (h : Phase hide t0 s) :
    s.shownAt.length ≤ 1 ∧ (∀ t ∈ s.shownAt, t0 + MAX_BLOCK_TIME ≤ t) ∧
    s.hiddenAt.length ≤ 1 ∧ (∀ x ∈ s.hiddenAt, ∃ t ∈ s.shownAt, t + MIN_SHOW_PROGRESS_TIME ≤ x) ∧
    (∀ r, s.waiter = .returned r → s.awaitable = some r ∧ s.blockInput = false ∧
      s.hiddenAt.length = (if hide ∧ s.shownAt ≠ [] then 1 else 0) ∧
      ∀ t ∈ s.shownAt, s.minShow = .done ∧ t + MIN_SHOW_PROGRESS_TIME ≤ s.now) := by
  refine ⟨?_, ?_, ?_, ?_, fun r hw => ?_⟩
  · rcases h.helpers with ⟨-, -, hsh⟩ | ⟨ts, hsh, -⟩ <;> simp [hsh]
  · rcases h.helpers with ⟨-, -, hsh⟩ | ⟨ts, hsh, ht0, -⟩
    exacts [by simp [hsh], by simpa [hsh] using ht0]
  · rcases h.hidden with hhi | ⟨-, x, hx, -⟩ <;> simp [*]
  · rcases h.hidden with hhi | ⟨hsh, x, hx, hle⟩
    · simp [hhi]
    · obtain ⟨t, ht⟩ := List.exists_mem_of_ne_nil _ hsh
      simp only [hx, List.mem_singleton, forall_eq]
      exact ⟨t, ht, hle t ht⟩
  · have hW := h.waiter
    simp only [WaiterOk, hw] at hW
    obtain ⟨hA, hb, hm, hO⟩ := hW
    refine ⟨hA, hb, ?_, fun t ht => ?_⟩
    · split at hO
      · obtain ⟨x, hx, -⟩ := hO
        simp [hx, *]
      · simp [hO, *]
    · have hne : s.minShow ≠ .none := fun h' =>
        by simp [h.helpers.minShow_eq_none.mp h'] at ht
      have hd : s.minShow = .done := hm.resolve_left fun h' => hne h'.1
      obtain ⟨ts, hsh, -, -, hM⟩ := h.helpers.of_minShow hne
      rw [hsh, List.mem_singleton] at ht
      rw [hd] at hM
      exact ⟨hd, ht ▸ hM⟩

@[simp] lemma Ind.finish_shownAt (s : Ind α) (r : Except Exc α) :
    (s.finish r).shownAt = s.shownAt := by
  unfold Ind.finish; split <;> simp_all [Helpers.leave_eq_some]

/-- `show_task` has passed after the `finally` when it had whenever `min_show_task`
exists: without one, the `finally` cancels it. -/
lemma Ind.finish_passed (hp : s.minShow ≠ .none → s.showTask.Passed) (r : Except Exc α) :
    (s.finish r).showTask.Passed := by
  by_cases hm : s.minShow = .none
  · simpa [Ind.finish_of_none hm] using ShowTask.cancel_passed s.showTask
  · simpa [Ind.finish_of_ne_none hm] using hp hm

/-- Once `show_task` has passed, a step invokes no `show` and it stays passed. -/
lemma step_of_passed {a : Act α} (hp : s.showTask.Passed) (hs : step hide s a = some s') :
    s'.shownAt = s.shownAt ∧ s'.showTask.Passed := by
  cases a with
  | startShow | wakeShow | showReturns | startMin | wakeMin =>
    obtain ⟨h', hh, rfl⟩ := Ind.helperStep_eq_some hs
    rcases Helpers.step_eq_some hh with ⟨-, hS, rfl⟩ | ⟨-, ⟨_, hS, -⟩, rfl⟩ | ⟨-, -, rfl⟩ |
      ⟨-, -, rfl⟩ | ⟨-, -, rfl⟩
    · simp [hS, ShowTask.Passed] at hp
    · simp [hS, ShowTask.Passed] at hp
    · exact ⟨rfl, trivial⟩
    all_goals exact ⟨rfl, hp⟩
  | resume =>
    simp only [Subiquity.step] at hs
    split at hs <;> cases hs
    exact ⟨Ind.finish_shownAt _ _, Ind.finish_passed (fun _ => hp) _⟩
  | cancel =>
    simp only [Subiquity.step] at hs
    split at hs <;> cases hs
    · exact ⟨Ind.finish_shownAt _ _, Ind.finish_passed (fun _ => hp) _⟩
    all_goals exact ⟨rfl, hp⟩
  | advance _ | complete _ | resumeMin | hideReturns =>
    simp only [Subiquity.step] at hs
    (repeat' split at hs) <;> cases hs
    all_goals exact ⟨rfl, hp⟩

lemma run_of_passed : ∀ {s s' : Ind α} {acts : List (Act α)},
    s.showTask.Passed → run hide s acts = some s' → s'.shownAt = s.shownAt
  | _, _, [], _, hr => by cases hr; rfl
  | _, _, a :: acts, hp, hr => by
    obtain ⟨s₁, h₁, h₂⟩ := Option.bind_eq_some.mp hr
    obtain ⟨hsh, hp₁⟩ := step_of_passed hp h₁
    rw [run_of_passed hp₁ h₂, hsh]

/-- **The timing contract of `_wait_with_indication`.** Over every schedule of the
three tasks and every completion of the awaitable, without cancellation: `show` is
invoked at most once, and never before `MAX_BLOCK_TIME` after the call; `hide` at
most once, only after `show`, and at least `MIN_SHOW_PROGRESS_TIME` after it; on
leaving, the call gives the awaitable's outcome, with input unblocked, `hide` invoked
exactly once if given and `show` was, else never, and, when `show` was invoked,
`min_show_task` done and the clock at least `MIN_SHOW_PROGRESS_TIME` past `show`; once
the coroutine resumes from the awaitable before `show_task` has woken, `show` is never
invoked; and from every point, once the awaitable completes, the call's own steps and
the clock take it to its return with the awaitable's outcome. -/
theorem waitWithIndication_bookkeeping (hide : Bool) (t0 : Nat) (acts : List (Act α))
    (s : Ind α) (hc : ∀ a ∈ acts, a ≠ .cancel) (hr : run hide (Ind.init t0) acts = some s) :
    s.shownAt.length ≤ 1 ∧ (∀ t ∈ s.shownAt, t0 + MAX_BLOCK_TIME ≤ t) ∧
    s.hiddenAt.length ≤ 1 ∧ (∀ x ∈ s.hiddenAt, ∃ t ∈ s.shownAt, t + MIN_SHOW_PROGRESS_TIME ≤ x) ∧
    (∀ r, s.waiter = .returned r → s.awaitable = some r ∧ s.blockInput = false ∧
      s.hiddenAt.length = (if hide ∧ s.shownAt ≠ [] then 1 else 0) ∧
      ∀ t ∈ s.shownAt, s.minShow = .done ∧ t + MIN_SHOW_PROGRESS_TIME ≤ s.now) ∧
    ((s.showTask = .created ∨ ∃ due, s.showTask = .sleeping due) →
      ∀ s₁ acts₁ s₂, step hide s .resume = some s₁ → run hide s₁ acts₁ = some s₂ →
        s₂.shownAt = []) ∧
    (∀ r, s.awaitable = none ∨ s.awaitable = some r → ∃ acts' : List (Act α),
      (∀ a ∈ acts', a ≠ .cancel) ∧ ∃ s', run hide s acts' = some s' ∧ s'.waiter = .returned r) := by
  have h := (Phase.init hide t0).run hc hr
  refine ⟨h.bookkeeping.1, h.bookkeeping.2.1, h.bookkeeping.2.2.1, h.bookkeeping.2.2.2.1,
    h.bookkeeping.2.2.2.2, fun hS s₁ acts₁ s₂ hs hr₂ => ?_, fun r hA => ?_⟩
  · have hq : s.minShow = .none := by
      rcases h.helpers with ⟨-, hm, -⟩ | ⟨-, -, -, -, hS' | hS', -⟩
      · exact hm
      all_goals rcases hS with hS | ⟨_, hS⟩ <;> simp [hS] at hS'
    have hsh := h.helpers.minShow_eq_none.mp hq
    simp only [Subiquity.step] at hs
    split at hs <;> cases hs
    rw [run_of_passed (by simpa [Ind.finish_of_none hq] using ShowTask.cancel_passed s.showTask) hr₂]
    simp [hsh]
  · obtain ⟨s', ⟨acts', hc', hr'⟩, hw⟩ := h.returns hA
    exact ⟨acts', hc', s', hr', hw⟩

/-- The contract on a call whose awaitable outlasts `MAX_BLOCK_TIME`: `show` at
100 ms, the awaitable done at 150 ms, `hide` at 1100 ms, then the return. -/
theorem waitWithIndication_bookkeeping_slow :
    ∃ s, run true (Ind.init 0 : Ind Unit) [.startShow, .advance 100, .wakeShow, .startMin,
      .advance 50, .complete (.ok ()), .resume, .advance 950, .wakeMin, .resumeMin,
      .hideReturns] = some s ∧ s.waiter = .returned (.ok ()) ∧ s.hiddenAt.length = 1 ∧
      s.minShow = .done := by
  have hr : run true (Ind.init 0 : Ind Unit) [.startShow, .advance 100, .wakeShow, .startMin,
      .advance 50, .complete (.ok ()), .resume, .advance 950, .wakeMin, .resumeMin,
      .hideReturns] = some ⟨⟨.showing, .done, [100]⟩, 1100, false, some (.ok ()),
        .returned (.ok ()), [1100]⟩ := by decide
  obtain ⟨-, -, -, -, hret, -⟩ := waitWithIndication_bookkeeping true 0 _ _ (by decide) hr
  obtain ⟨-, -, hlen, hmin⟩ := hret _ rfl
  exact ⟨_, hr, rfl, by rw [hlen]; decide, (hmin 100 (by decide)).1⟩

end Contract

end Subiquity
