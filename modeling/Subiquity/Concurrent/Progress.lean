import Subiquity.Concurrent.Sequential

/-!
No step of a move is refused (`subiquitycore/tui.py`): in every interleaving of the tasks
of any requests, every task that has not finished can take its next step, whatever the
coroutine it awaits gives, and one awaiting `min_show_task` can once the clock has passed
it. So the `n + 1` passes the model gives the `while True` loop of `_move_screen` never
stop a move, and every interleaving of the code's awaits is a run of the model.

* `scanA_isSome`: the loop that suspends returns or suspends within `n + 1` passes.
* `scanA_index`: it leaves, or suspends on, an index of at least `-1`.
* `TaskOk`, `StepInv`, `StepInv.step`, `StepInv.run`: the screen's index and the index
  each suspended move restores are from `-1` on; a task awaiting `min_show_task` has
  made it; a task whose `min_show_task` was cancelled has finished.
* `move_never_stuck`: every unfinished task can take its next step.
-/

namespace Subiquity

variable {V : Type} (c : Setup)

/-! ### The loop's passes -/

section Fuel

variable {ui : Nat → MakeUi V} {ui' : Nat → Except Exc (Shown V)} (hf : Fits ui ui')
  (d curIndex : Int)
include hf

/-- The loop that suspends runs out of passes only where the sequential loop does. -/
lemma scanA_isSome_of_scan : ∀ (fuel : Nat) (s : Tui V),
    (scan c ui' d curIndex fuel s).isSome → (scanA c ui d curIndex fuel s).isSome
  | 0, _, h => by cases h
  | fuel + 1, s, h => by
    simp only [scan, makeViewForController] at h
    simp only [scanA]
    split_ifs at h ⊢
    · rfl
    · rfl
    · exact scanA_isSome_of_scan fuel _ h
    rcases hu : ui (s.index + d).toNat with r | _ <;> simp only [hu]
    · rw [hf _ _ hu] at h
      generalize buildView _ r _ = b at h ⊢
      rcases b with ⟨s', (_ | _ | _) | _⟩
      · exact scanA_isSome_of_scan fuel s' h
      all_goals rfl
    · rfl

end Fuel

lemma fits_result (ui : Nat → MakeUi V) : Fits ui fun j => (ui j).result :=
  fun _ _ h => by simp [h, MakeUi.result]

/-- **The loop that suspends returns or suspends within `n + 1` passes**, from any index
from `-1` on. -/
lemma scanA_isSome {ui : Nat → MakeUi V} {d : Int} (hd : d = 1 ∨ d = -1) (curIndex : Int)
    {s : Tui V} (hi : -1 ≤ s.index) : (scanA c ui d curIndex (c.n + 1) s).isSome :=
  scanA_isSome_of_scan c (fits_result ui) d curIndex _ s (scan_isSome c _ curIndex hd s hi)

lemma Request.increment_eq (req : Request V) : req.increment = 1 ∨ req.increment = -1 := by
  cases req <;> simp [Request.increment]

/-! ### The index -/

lemma buildView_index (j : Nat) (r : Except Exc (Shown V)) (s : Tui V) :
    (buildView j r s).1.index = s.index := by
  rcases r with (_ | _ | _) | _ <;> rfl

/-- `except Exception` restores the index the move started from; otherwise the index stays. -/
lemma afterBuild_index {curIndex : Int} (hci : -1 ≤ curIndex) {b : Tui V × Except Exc (Shown V)}
    (hb : -1 ≤ b.1.index) : -1 ≤ (afterBuild curIndex b).1.index := by
  rcases b with ⟨s, e | x⟩
  · simp only [afterBuild]
    split_ifs
    exacts [hci, hb]
  · exact hb

/-- The loop that suspends leaves, or suspends on, an index of at least `-1`. -/
lemma scanA_index {ui : Nat → MakeUi V} {d curIndex : Int} (hci : -1 ≤ curIndex) :
    ∀ (fuel : Nat) (s : Tui V) {x : (Tui V × Except Exc (Option (Shown V))) ⊕ (Nat × Tui V)},
      scanA c ui d curIndex fuel s = some x → -1 ≤ (x.elim Prod.fst Prod.snd).index
  | 0, _, _, h => by cases h
  | fuel + 1, s, x, h => by
    simp only [scanA] at h
    split_ifs at h with h₀ h₁
    · cases h
      exact hci
    · cases h
      simp only [Sum.elim_inl, Tui.emit_index]
      omega
    · exact scanA_index hci fuel _ h
    rcases hu : ui (s.index + d).toNat with r | _ <;> simp only [hu] at h
    · generalize hb : buildView _ r _ = b at h
      have hbi := buildView_index (s.index + d).toNat r
        (({ s with index := s.index + d } : Tui V).emit (.enter (s.index + d).toNat "starting UI"))
      rw [hb] at hbi
      rcases b with ⟨s', (_ | _ | _) | _⟩
      · exact scanA_index hci fuel s' h
      all_goals
        cases h
        exact afterBuild_index hci (by dsimp only; simp only [Tui.emit_index] at hbi; omega)
    · cases h
      simp only [Sum.elim_inr, Tui.emit_index]
      omega

/-! ### The invariant -/

/-- What keeps each step of a task possible: the index a suspended move restores is from
`-1` on; awaiting `min_show_task`, the task has made it; once `min_show_task` was
cancelled, the task has finished. -/
structure TaskOk (t : MoveTask V) : Prop where
  ui : ∀ j curIndex, t.pc = .ui j curIndex → -1 ≤ curIndex
  min : ∀ r, t.pc = .awaitingMin r → t.minShow ≠ .none ∧ t.minShow ≠ .cancelled
  cancelled : t.minShow = .cancelled → ∃ e, t.pc = .done e

/-- Every task is `TaskOk`, and the screen's index is from `-1` on. -/
structure StepInv (st : Sys V) : Prop where
  index : -1 ≤ st.tui.index
  tasks : ∀ t ∈ st.tasks, TaskOk t

lemma TaskOk.init (req : Request V) : TaskOk (MoveTask.init req) where
  ui _ _ h := by cases h
  min _ h := by cases h
  cancelled h := by cases h

lemma StepInv.init (tui : Tui V) (hi : -1 ≤ tui.index) (now : Nat) (b : Bool)
    (reqs : List (Request V)) : StepInv (⟨tui, now, b, reqs.map MoveTask.init⟩ : Sys V) where
  index := hi
  tasks := by
    simp only [List.mem_map]
    rintro _ ⟨req, -, rfl⟩
    exact TaskOk.init req

section Move

variable {st : Sys V} {t : MoveTask V} (hnc : t.minShow ≠ .cancelled)
include hnc

lemma settleMove_ok (r : Except Exc (Option (Shown V))) :
    (settleMove r st t).1.tui.index = st.tui.index ∧ TaskOk (settleMove r st t).2 := by
  unfold settleMove
  split <;> rename_i hm
  · exact ⟨Tui.display_index _ _, ⟨by simp, by simp, by simp [hm]⟩⟩
  · exact ⟨rfl, ⟨by simp, fun _ _ => ⟨Helpers.leave_eq_none.mp hm, hnc⟩, fun h => absurd h hnc⟩⟩

lemma continueMove_ok {curIndex : Int} (hci : -1 ≤ curIndex) {p : Sys V × MoveTask V}
    (h : continueMove c curIndex st t = some p) : -1 ≤ p.1.tui.index ∧ TaskOk p.2 := by
  obtain ⟨x, hx, rfl⟩ := Option.map_eq_some'.mp h
  have hi := scanA_index c hci _ _ hx
  rcases x with ⟨tui, r⟩ | ⟨j, tui⟩
  · obtain ⟨h₁, h₂⟩ := @settleMove_ok _ { st with tui } _ hnc r
    exact ⟨h₁ ▸ hi, h₂⟩
  · refine ⟨hi, ⟨fun _ _ h => ?_, fun _ h => (nomatch h), fun h => absurd h hnc⟩⟩
    cases h
    exact hci

lemma moveBody_ok (hi : -1 ≤ st.tui.index) {p : Sys V × MoveTask V} (h : moveBody c st t = some p) :
    -1 ≤ p.1.tui.index ∧ TaskOk p.2 :=
  (continueMove_ok c hnc hi h :)

lemma resumeMove_ok (hi : -1 ≤ st.tui.index) {j : Nat} {curIndex : Int} (hci : -1 ≤ curIndex)
    {r : Except Exc (Shown V)} {p : Sys V × MoveTask V} (h : resumeMove c j curIndex r st t = some p) :
    -1 ≤ p.1.tui.index ∧ TaskOk p.2 := by
  unfold resumeMove at h
  split at h
  · exact (continueMove_ok c hnc hci h :)
  · cases h
    obtain ⟨h₁, h₂⟩ := @settleMove_ok _ { st with tui := (afterBuild curIndex (buildView j r st.tui)).1 }
      _ hnc (afterBuild curIndex (buildView j r st.tui)).2
    exact ⟨h₁ ▸ afterBuild_index hci (by rw [buildView_index]; exact hi), h₂⟩

end Move

/-- A step that leaves where the task stands and its `min_show_task`. -/
lemma TaskOk.same {t t' : MoveTask V} (ht : TaskOk t) (hpc : t'.pc = t.pc)
    (hm : t'.minShow = t.minShow) : TaskOk t' :=
  ⟨hpc ▸ ht.ui, hpc ▸ hm ▸ ht.min, hpc ▸ hm ▸ ht.cancelled⟩

/-- A step that leaves where the task stands and makes its `min_show_task`. -/
lemma TaskOk.setMin {t t' : MoveTask V} (ht : TaskOk t) (hpc : t'.pc = t.pc)
    (hm : t'.minShow ≠ .none) (hc : t'.minShow ≠ .cancelled) : TaskOk t' :=
  ⟨hpc ▸ ht.ui, fun _ _ => ⟨hm, hc⟩, fun h => absurd h hc⟩

lemma TaskOk.of_done {t : MoveTask V} {e : Except Exc Unit} (h : t.pc = .done e) : TaskOk t :=
  ⟨fun _ _ h' => by simp [h] at h', fun _ h' => by simp [h] at h', fun _ => ⟨e, h⟩⟩

lemma stepInv_of_runTask {st st' : Sys V} {k : Nat} {f : MoveTask V → Option (Sys V × MoveTask V)}
    (hi : StepInv st) (h : st.runTask k f = some st')
    (hf : ∀ t ∈ st.tasks, ∀ p, f t = some p → -1 ≤ p.1.tui.index ∧ TaskOk p.2) : StepInv st' := by
  obtain ⟨t, p, hk, hft, rfl⟩ := Sys.runTask_eq_some h
  obtain ⟨h₁, h₂⟩ := hf t (List.getElem?_mem hk) p hft
  exact ⟨h₁, fun u hu => (List.mem_or_eq_of_mem_set hu).elim (hi.tasks u) (· ▸ h₂)⟩

/-- **Each step keeps the invariant.** -/
lemma StepInv.step {st st' : Sys V} {a : MoveAct V} (hi : StepInv st)
    (h : moveStep c st a = some st') : StepInv st' := by
  have hnc : ∀ t ∈ st.tasks, (∀ e, t.pc ≠ .done e) → t.minShow ≠ .cancelled := fun t ht hd hc =>
    let ⟨e, he⟩ := (hi.tasks t ht).cancelled hc
    hd e he
  cases a with
  | advance d =>
    cases h
    exact ⟨hi.index, hi.tasks⟩
  | start k =>
    refine stepInv_of_runTask hi h fun t ht p hf => ?_
    split at hf <;> rename_i hpc _
    · exact moveBody_ok c (hnc t ht (by simp [hpc])) (by exact hi.index) hf
    · cases hf
      exact ⟨hi.index, fun _ _ h => (nomatch h), fun _ h => (nomatch h),
        fun h => absurd h (hnc t ht (by simp [hpc]))⟩
    · cases hf
  | resumeCoro k =>
    refine stepInv_of_runTask hi h fun t ht p hf => ?_
    split at hf <;> rename_i hpc _
    · cases hf
      obtain ⟨h₁, h₂⟩ := @settleMove_ok _ st _ (hnc t ht (by simp [hpc])) (.error ‹_›)
      exact ⟨h₁ ▸ hi.index, h₂⟩
    · exact moveBody_ok c (hnc t ht (by simp [hpc])) hi.index hf
    · cases hf
  | resumeUi k r =>
    refine stepInv_of_runTask hi h fun t ht p hf => ?_
    split at hf <;> rename_i hpc
    · exact resumeMove_ok c (hnc t ht (by simp [hpc])) hi.index ((hi.tasks t ht).ui _ _ hpc) hf
    · cases hf
  | startShow k | wakeShow k | showReturns k | startMin k | wakeMin k =>
    obtain ⟨t, h', hk, -, hh, rfl⟩ := Sys.helperStep_eq_some h
    have ht := hi.tasks t (List.getElem?_mem hk)
    refine ⟨hi.index, fun u hu => (List.mem_or_eq_of_mem_set hu).elim (hi.tasks u) fun hu => hu ▸ ?_⟩
    rcases Helpers.step_minShow hh with hm | ⟨hm, hc, -⟩
    exacts [ht.same rfl hm, ht.setMin rfl hm hc]
  | resumeMin k =>
    refine stepInv_of_runTask hi h fun t ht p hf => ?_
    split at hf <;> cases hf
    exact ⟨by simpa using hi.index, .of_done rfl⟩
  | cancel k =>
    refine stepInv_of_runTask hi h fun t ht p hf => ?_
    split at hf <;> rename_i hpc
    · cases hf
      exact ⟨hi.index, .of_done rfl⟩
    · cases hf
      obtain ⟨h₁, h₂⟩ := @settleMove_ok _ st _ (hnc t ht (by simp [hpc])) (.error .cancelled)
      exact ⟨h₁ ▸ hi.index, h₂⟩
    · exact resumeMove_ok c (hnc t ht (by simp [hpc])) hi.index ((hi.tasks t ht).ui _ _ hpc) hf
    · cases hf
      exact ⟨hi.index, .of_done rfl⟩
    · cases hf

/-- **Every run keeps the invariant.** -/
lemma StepInv.run : ∀ (acts : List (MoveAct V)) {st st' : Sys V}, StepInv st →
    moveRun c st acts = some st' → StepInv st'
  | [], _, _, hi, h => by cases h; exact hi
  | a :: acts, _, _, hi, h => by
    obtain ⟨st₁, h₁, h₂⟩ := Option.bind_eq_some.mp h
    exact StepInv.run acts (hi.step c h₁) h₂

/-! ### Every unfinished task can go on -/

lemma Sys.runTask_isSome {st : Sys V} {k : Nat} {t : MoveTask V}
    {f : MoveTask V → Option (Sys V × MoveTask V)} (hk : st.tasks[k]? = some t) :
    (st.runTask k f).isSome = (f t).isSome := by
  simp [Sys.runTask, hk]

section Enabled

variable {st : Sys V} {t : MoveTask V} (hi : -1 ≤ st.tui.index)
include hi

lemma continueMove_isSome (curIndex : Int) : (continueMove c curIndex st t).isSome := by
  simp [continueMove, scanA_isSome c t.req.increment_eq curIndex hi]

lemma moveBody_isSome : (moveBody c st t).isSome :=
  continueMove_isSome c (by simpa using hi) _

lemma resumeMove_isSome (j : Nat) (curIndex : Int) (r : Except Exc (Shown V)) :
    (resumeMove c j curIndex r st t).isSome := by
  unfold resumeMove
  split
  · rename_i tui heq
    have h₁ := buildView_index j r st.tui
    rw [heq] at h₁
    exact continueMove_isSome c (by dsimp only at h₁ ⊢; omega) _
  · rfl

end Enabled

/-- **No step of a move is refused.** In every interleaving of the tasks of any requests,
with any cancellations, from a screen whose index is from `-1` on: a task about to run
can run; one awaiting its `coro` can resume; one suspended in a stage's coroutine can
resume with whatever the coroutine gives; and one awaiting `min_show_task` can resume
after steps of its `min_show_task` and the clock alone. -/
theorem move_never_stuck (c : Setup) (tui : Tui V) (hi : -1 ≤ tui.index) (now : Nat) (b : Bool)
    (reqs : List (Request V)) (acts : List (MoveAct V)) (st : Sys V)
    (hr : moveRun c ⟨tui, now, b, reqs.map MoveTask.init⟩ acts = some st) (k : Nat)
    (t : MoveTask V) (hk : st.tasks[k]? = some t) :
    (t.pc = .start → (moveStep c st (.start k)).isSome) ∧
      (t.pc = .coro → (moveStep c st (.resumeCoro k)).isSome) ∧
      (∀ j curIndex r, t.pc = .ui j curIndex → (moveStep c st (.resumeUi k r)).isSome) ∧
      (∀ r, t.pc = .awaitingMin r → ∃ acts' : List (MoveAct V),
        (∀ a ∈ acts', a = .startMin k ∨ a = .wakeMin k ∨ ∃ d, a = .advance d) ∧
          (moveRun c st (acts' ++ [.resumeMin k])).isSome) := by
  have hinv := StepInv.run c acts (StepInv.init tui hi now b reqs) hr
  refine ⟨fun hpc => ?_, fun hpc => ?_, fun j curIndex r hpc => ?_, fun r hpc => ?_⟩
  · simp only [moveStep, Sys.runTask_isSome hk, hpc]
    cases t.req.coro
    · exact moveBody_isSome c hinv.index
    · rfl
  · simp only [moveStep, Sys.runTask_isSome hk, hpc]
    rcases t.req.coro with _ | _ | _
    · exact moveBody_isSome c hinv.index
    · rfl
    · exact moveBody_isSome c hinv.index
  · simp only [moveStep, Sys.runTask_isSome hk, hpc]
    exact resumeMove_isSome c hinv.index j curIndex r
  · obtain ⟨hne, hnc⟩ := (hinv.tasks t (List.getElem?_mem hk)).min r hpc
    have hk' := (List.getElem?_eq_some_iff.mp hk).1
    cases hm : t.minShow with
    | none => exact absurd hm hne
    | cancelled => exact absurd hm hnc
    | done =>
      exact ⟨[], by simp, by simp [moveRun, moveStep, Sys.runTask, hk, hpc, hm]⟩
    | sleeping due =>
      refine ⟨[.advance (due - st.now), .wakeMin k], by simp, ?_⟩
      have hdue : due ≤ st.now + (due - st.now) := by omega
      simp [moveRun, moveStep, Sys.helperStep, Helpers.step, Sys.runTask, hk, hpc, hm, hk', hdue,
        List.getElem?_set_self']
    | created =>
      refine ⟨[.startMin k, .advance MIN_SHOW_PROGRESS_TIME, .wakeMin k], by simp, ?_⟩
      simp [moveRun, moveStep, Sys.helperStep, Helpers.step, Sys.runTask, hk, hpc, hm, hk',
        List.getElem?_set_self']

/-- A forward request from the start, suspended in the first stage's coroutine: it can
resume, whatever the coroutine gives. -/
theorem move_never_stuck_suspended :
    ∃ st, moveRun ⟨["a", "b"], []⟩ ⟨(Tui.init : Tui Nat), 0, false,
        [Request.next none fun _ => .async].map MoveTask.init⟩ [.start 0] = some st ∧
      ∃ t, st.tasks[0]? = some t ∧ t.pc = .ui 0 (-1) ∧
        ((t.pc = .start → (moveStep ⟨["a", "b"], []⟩ st (.start 0)).isSome) ∧
          (t.pc = .coro → (moveStep ⟨["a", "b"], []⟩ st (.resumeCoro 0)).isSome) ∧
          (∀ j curIndex r, t.pc = .ui j curIndex →
            (moveStep ⟨["a", "b"], []⟩ st (.resumeUi 0 r)).isSome) ∧
          (∀ r, t.pc = .awaitingMin r → ∃ acts' : List (MoveAct Nat),
            (∀ a ∈ acts', a = .startMin 0 ∨ a = .wakeMin 0 ∨ ∃ d, a = .advance d) ∧
              (moveRun ⟨["a", "b"], []⟩ st (acts' ++ [.resumeMin 0])).isSome)) :=
  ⟨_, rfl, _, rfl, rfl, move_never_stuck ⟨["a", "b"], []⟩ Tui.init (by decide) 0 false
    [Request.next none fun _ => .async] [.start 0] _ rfl 0 _ rfl⟩

end Subiquity
