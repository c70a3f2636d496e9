import Subiquity.Concurrent.Serial

/-!
`self.ui.block_input` (`subiquitycore/tui.py`) with any number of navigation requests
interleaving. The `_wait_with_indication` of each request sets it when the wait starts,
and clears it when the request's `show_task` wakes, or in its `finally` when there is no
`min_show_task`; all the requests share the one flag.

* `MovePc.isMoving`, `MoveTask.Blocking`: a request within `await awaitable` of its wait
  whose `show_task` has not woken.
* `Continues`: what the rest of a move does to the flag, whether it ends or suspends;
  `InputStep`, `moveStep_input`: what one step of the event loop does to it.
* `InputInv`, `InputInv.step`, `InputInv.run`: input is blocked only while some request
  is blocking, kept by every step.
* `input_blocked_only_while_moving`: from unblocked input, in every interleaving of any
  requests, with any cancellations, input stays blocked only while some request is
  within its move with no progress shown; once every request has finished, it is not.
-/

namespace Subiquity

variable {V : Type}

/-- Within `result = await awaitable` of the task's `wait_with_progress`: awaiting its
`coro` or a stage's `make_ui` coroutine. -/
def MovePc.isMoving : MovePc V → Bool
  | .coro | .ui .. => true
  | _ => false

/-- The task's wait has set `block_input`, and neither its `show_task` nor its `finally`
has cleared it yet. -/
def MoveTask.Blocking (t : MoveTask V) : Prop := t.pc.isMoving ∧ t.minShow = .none

instance : DecidablePred (@MoveTask.Blocking V) := fun _ =>
  inferInstanceAs (Decidable (_ ∧ _))

lemma MovePc.not_isMoving_of_isDone {pc : MovePc V} (h : pc.isDone) : pc.isMoving = false := by
  cases pc <;> simp_all [isDone, isMoving]

/-! ### One step -/

/-- What the rest of a move does to `block_input`, from `b` to `b'`, and to its task,
from `t` to `t'`, until it ends or suspends: it clears the flag (the move ended with no
`min_show_task`), or it keeps the flag and the task's `min_show_task`, and either the
task had one or the move is suspended. -/
def Continues (b : Bool) (t : MoveTask V) (b' : Bool) (t' : MoveTask V) : Prop :=
  t'.pc ≠ .start ∧
    (b' = false ∨ b' = b ∧ t'.minShow = t.minShow ∧ (t.minShow ≠ .none ∨ t'.pc.isMoving))

/-- What a step does to `block_input`, from `b` to `b'`, and to the task it runs, from `t`
to `t'`: the task leaves its start for good, and the step clears the flag, leaves the task
blocking, or keeps the flag and does not end the task's blocking. -/
def InputStep (b : Bool) (t : MoveTask V) (b' : Bool) (t' : MoveTask V) : Prop :=
  t'.pc ≠ .start ∧ (b' = false ∨ t'.Blocking ∨ b' = b ∧ (t.Blocking → t'.Blocking))

section Continues

variable {b b' : Bool} {t t' : MoveTask V}

lemma Continues.inputStep (h : Continues b t b' t') : InputStep b t b' t' := by
  obtain ⟨hs, hb | ⟨rfl, hm, hmov⟩⟩ := h
  · exact ⟨hs, .inl hb⟩
  · refine ⟨hs, .inr (.inr ⟨rfl, fun ⟨_, hn⟩ => ⟨?_, hm.trans hn⟩⟩)⟩
    simpa [hn] using hmov

/-- A move that set the flag itself, with no `min_show_task`, clears it or blocks. -/
lemma Continues.of_start (h : Continues true t b' t') (hm : t.minShow = .none) (b : Bool) :
    InputStep b t b' t' := by
  obtain ⟨hs, hb | ⟨-, hm', hmov⟩⟩ := h
  · exact ⟨hs, .inl hb⟩
  · exact ⟨hs, .inr (.inl ⟨by simpa [hm] using hmov, hm'.trans hm⟩)⟩

/-- A step that changes neither where the task is nor its `min_show_task`. -/
lemma InputStep.same (hs : t.pc ≠ .start) (hpc : t'.pc = t.pc) (hm : t'.minShow = t.minShow) :
    InputStep b t b t' :=
  ⟨hpc ▸ hs, .inr (.inr ⟨rfl, fun ⟨hmov, hn⟩ => ⟨hpc ▸ hmov, hm.trans hn⟩⟩)⟩

/-- A step of a task that was not blocking and that keeps the flag. -/
lemma InputStep.of_not_blocking (hs : t'.pc ≠ .start) (hb : ¬t.Blocking) : InputStep b t b t' :=
  ⟨hs, .inr (.inr ⟨rfl, fun h => absurd h hb⟩)⟩

end Continues

section Moves

variable (c : Setup)

lemma settleMove_continues (r : Except Exc (Option (Shown V))) (st : Sys V) (t : MoveTask V) :
    Continues st.blockInput t (settleMove r st t).1.blockInput (settleMove r st t).2 := by
  unfold settleMove
  split
  · exact ⟨nofun, .inl rfl⟩
  · exact ⟨nofun, .inr ⟨rfl, rfl, .inl (Helpers.leave_eq_none.mp ‹_›)⟩⟩

lemma continueMove_continues {curIndex : Int} {st : Sys V} {t : MoveTask V}
    {p : Sys V × MoveTask V} (h : continueMove c curIndex st t = some p) :
    Continues st.blockInput t p.1.blockInput p.2 := by
  obtain ⟨x, -, hx⟩ := Option.map_eq_some'.mp h
  subst hx
  rcases x with ⟨tui, r⟩ | ⟨j, tui⟩
  · exact settleMove_continues r { st with tui } t
  · exact ⟨nofun, .inr ⟨rfl, rfl, .inr rfl⟩⟩

lemma resumeMove_continues {j : Nat} {curIndex : Int} {r : Except Exc (Shown V)} {st : Sys V}
    {t : MoveTask V} {p : Sys V × MoveTask V} (h : resumeMove c j curIndex r st t = some p) :
    Continues st.blockInput t p.1.blockInput p.2 := by
  unfold resumeMove at h
  split at h
  · exact (continueMove_continues c h :)
  · cases h
    exact settleMove_continues _ _ t

end Moves

/-- A step that runs one task through `f` is an `InputStep` when `f` is, on each task. -/
lemma inputStep_of_runTask {st st' : Sys V} {k : Nat} {f : MoveTask V → Option (Sys V × MoveTask V)}
    (h : st.runTask k f = some st')
    (hf : ∀ t ∈ st.tasks, ∀ p, f t = some p → InputStep st.blockInput t p.1.blockInput p.2) :
    ∃ k t t', st.tasks[k]? = some t ∧ st'.tasks = st.tasks.set k t' ∧
      InputStep st.blockInput t st'.blockInput t' :=
  Sys.runTask_rel (fun t s t' => InputStep st.blockInput t s.blockInput t') (fun _ _ _ _ h => h) h hf

/-- The tasks not yet run have no `min_show_task`. -/
def Fresh (st : Sys V) : Prop :=
  ∀ t ∈ st.tasks, t.pc = .start → t.minShow = .none

/-- A step of a task's helper tasks: `show_task` waking clears the flag; any other step
keeps it and ends no blocking, for only `show_task` waking makes `min_show_task`. -/
lemma inputStep_of_helper {t : MoveTask V} {h' : Helpers} {now : Nat} {a : HelperAct}
    (b : Bool) (hpc : t.pc ≠ .start) (hh : t.toHelpers.step now a = some h') :
    InputStep b t (a.blockInput b) { t with toHelpers := h' } := by
  by_cases ha : a = .wakeShow
  · subst ha
    exact ⟨hpc, .inl rfl⟩
  · rw [HelperAct.blockInput_of_ne ha]
    rcases Helpers.step_minShow hh with hm | ⟨-, -, hw⟩
    · exact .same hpc rfl hm
    · exact .of_not_blocking hpc fun ⟨_, hn⟩ => ha (hw hn)

/-- **One step**: it only moves the clock, or it runs one task as `InputStep` says. -/
lemma moveStep_input (c : Setup) {st st' : Sys V} {a : MoveAct V} (hf : Fresh st)
    (h : moveStep c st a = some st') :
    st'.blockInput = st.blockInput ∧ st'.tasks = st.tasks ∨
      ∃ k t t', st.tasks[k]? = some t ∧ st'.tasks = st.tasks.set k t' ∧
        InputStep st.blockInput t st'.blockInput t' := by
  cases a with
  | advance d =>
    cases h
    exact .inl ⟨rfl, rfl⟩
  | start k =>
    refine .inr (inputStep_of_runTask h fun t ht p h₁ => ?_)
    split at h₁
    · exact (continueMove_continues c h₁).of_start (hf t ht ‹_›) _
    · cases h₁
      exact ⟨nofun, .inr (.inl ⟨rfl, hf t ht ‹_›⟩)⟩
    · cases h₁
  | resumeCoro k =>
    refine .inr (inputStep_of_runTask h fun t _ p h₁ => ?_)
    split at h₁
    · cases h₁
      exact (settleMove_continues _ _ t).inputStep
    · exact (continueMove_continues c h₁).inputStep
    · cases h₁
  | resumeUi k r =>
    refine .inr (inputStep_of_runTask h fun t _ p h₁ => ?_)
    split at h₁
    · exact (resumeMove_continues c h₁).inputStep
    · cases h₁
  | cancel k =>
    refine .inr (inputStep_of_runTask h fun t _ p h₁ => ?_)
    split at h₁ <;> rename_i hpc
    · cases h₁
      exact .of_not_blocking nofun (by simp [MoveTask.Blocking, MovePc.isMoving, hpc])
    · cases h₁
      exact (settleMove_continues _ _ t).inputStep
    · exact (resumeMove_continues c h₁).inputStep
    · cases h₁
      exact .of_not_blocking nofun (by simp [MoveTask.Blocking, MovePc.isMoving, hpc])
    · cases h₁
  | startShow k | wakeShow k | showReturns k | startMin k | wakeMin k =>
    obtain ⟨t, h', hk, hpc, hh, rfl⟩ := Sys.helperStep_eq_some h
    exact .inr ⟨k, t, _, hk, rfl, inputStep_of_helper _ hpc hh⟩
  | resumeMin k =>
    refine .inr (inputStep_of_runTask h fun t _ p h₁ => ?_)
    split at h₁ <;> cases h₁
    exact .of_not_blocking nofun (by simp [MoveTask.Blocking, MovePc.isMoving, *])

/-! ### Every run -/

/-- **The invariant**: the tasks not yet run are fresh, and input is blocked only while
some task is blocking. -/
structure InputInv (st : Sys V) : Prop where
  fresh : Fresh st
  blocked : st.blockInput = true → ∃ t ∈ st.tasks, t.Blocking

/-- The tasks `run_bg_task` made for `reqs`, with input unblocked. -/
lemma InputInv.init (tui : Tui V) (now : Nat) (reqs : List (Request V)) :
    InputInv ⟨tui, now, false, reqs.map MoveTask.init⟩ where
  fresh := by simp [Fresh, MoveTask.init]
  blocked := nofun

/-- **Each step keeps the invariant.** A blocking task is found again after the step: the
one the step ran, when the step left it blocking, else the one found before the step. -/
lemma InputInv.step (c : Setup) {st st' : Sys V} {a : MoveAct V} (hi : InputInv st)
    (h : moveStep c st a = some st') : InputInv st' := by
  rcases moveStep_input c hi.fresh h with ⟨hb, ht⟩ | ⟨k, t, t', hk, ht, hs, hstep⟩
  · exact ⟨fun u hu => hi.fresh u (ht ▸ hu), fun h => ht ▸ hi.blocked (hb ▸ h)⟩
  have hmem : t' ∈ st'.tasks :=
    ht ▸ List.mem_set _ _ (List.getElem?_eq_some_iff.mp hk).1 _
  refine ⟨fun u hu hp => ?_, fun hb => ?_⟩
  · rcases List.mem_or_eq_of_mem_set (ht ▸ hu) with hu | rfl
    exacts [hi.fresh u hu hp, absurd hp hs]
  rcases hstep with hb' | hbl | ⟨hb', himp⟩
  · simp [hb'] at hb
  · exact ⟨t', hmem, hbl⟩
  obtain ⟨u, hu, hbu⟩ := hi.blocked (hb' ▸ hb)
  obtain ⟨i, hui⟩ := List.mem_iff_getElem?.mp hu
  by_cases hik : k = i
  · subst hik
    exact ⟨t', hmem, himp (Option.some.inj (hk.symm.trans hui) ▸ hbu)⟩
  · exact ⟨u, List.getElem?_mem (by rw [ht, List.getElem?_set_ne hik, hui]), hbu⟩

/-- **Every run keeps the invariant.** -/
lemma InputInv.run (c : Setup) : ∀ (acts : List (MoveAct V)) {st st' : Sys V}, InputInv st →
    moveRun c st acts = some st' → InputInv st'
  | [], _, _, hi, h => by cases h; exact hi
  | a :: acts, _, _, hi, h => by
    obtain ⟨st₁, h₁, h₂⟩ := Option.bind_eq_some.mp h
    exact InputInv.run c acts (hi.step c h₁) h₂

/-- **Input is blocked only while a request is moving.** Whatever the requests, the
interleaving of their tasks and the cancellations, from unblocked input: input is blocked
only while some request is within its move (awaiting its `coro` or a stage's `make_ui`
coroutine) with no progress indication shown; so once every request has finished, input
is not blocked. -/
theorem input_blocked_only_while_moving (c : Setup) (tui : Tui V) (now : Nat)
    (reqs : List (Request V)) (acts : List (MoveAct V)) (st : Sys V)
    (hr : moveRun c ⟨tui, now, false, reqs.map MoveTask.init⟩ acts = some st) :
    (st.blockInput = true → ∃ t ∈ st.tasks, t.pc.isMoving ∧ t.minShow = .none) ∧
      ((∀ t ∈ st.tasks, t.pc.isDone) → st.blockInput = false) := by
  have hi := (InputInv.init tui now reqs).run c acts hr
  refine ⟨hi.blocked, fun hd => Bool.eq_false_iff.mpr fun hb => ?_⟩
  obtain ⟨t, ht, hmov, -⟩ := hi.blocked hb
  simp [MovePc.not_isMoving_of_isDone (hd t ht)] at hmov

/-- One request whose stage's `make_ui()` returns a coroutine: suspended in it, the request
keeps input blocked. -/
theorem input_blocked_only_while_moving_suspended :
    ∃ st, moveRun ⟨["a"], []⟩ ⟨(Tui.init : Tui Nat), 0, false,
        [Request.next none fun _ => .async].map MoveTask.init⟩ [.start 0] = some st ∧
      st.blockInput = true ∧
      ((st.blockInput = true → ∃ t ∈ st.tasks, t.pc.isMoving ∧ t.minShow = .none) ∧
        ((∀ t ∈ st.tasks, t.pc.isDone) → st.blockInput = false)) :=
  ⟨_, rfl, rfl, input_blocked_only_while_moving ⟨["a"], []⟩ Tui.init 0
    [Request.next none fun _ => .async] [.start 0] _ rfl⟩

end Subiquity
