import Subiquity.Concurrent.Basic
import Subiquity.Indication.Timing

/-!
The progress indication of concurrent navigation requests (`subiquitycore/tui.py`):
each request's `move_screen` runs `_move_screen` under `wait_with_progress`, that is
`_wait_with_indication` with no `hide`, and then calls `ui.set_body` with the view. Each
task's `show_task` and `min_show_task` take the steps of `Helpers.step`, so the timing
invariant of a call alone (`Helpers.Ok`) holds of every task, whatever the others do.

* `MoveFrame`, `settleMove_frame`, `continueMove_frame`, `moveBody_frame`,
  `resumeMove_frame`: a move leaves the clock, leaves its task's helper tasks or runs
  the `finally` with no `min_show_task`, and changes the view shown only in that
  `finally`.
* `ShowsOk`, `ShowsOk.step`, `ShowsOk.run`: without cancellation, every task's helper
  tasks keep the invariant of a call made when the run started.
* `moveStep_body`: a step that changes the view shown runs a task that has no
  `min_show_task`, or is that task resuming from a `min_show_task` that is done.
* `request_min_show_measured`: every request whose progress was shown showed it once,
  at `ts`, no earlier than `MAX_BLOCK_TIME` into the run, with its `min_show_task`
  measuring `MIN_SHOW_PROGRESS_TIME` from `ts`; and its move's view is displayed only
  when it resumes from that `min_show_task`, at least `MIN_SHOW_PROGRESS_TIME` after `ts`.
-/

namespace Subiquity

variable {V : Type}

/-- The task a step runs; the clock's advance runs none. -/
def MoveAct.task : MoveAct V → Option Nat
  | .advance _ => none
  | .start k | .resumeCoro k | .resumeUi k _ | .startShow k | .wakeShow k | .showReturns k
  | .startMin k | .wakeMin k | .resumeMin k | .cancel k => some k

/-! ### What a move does to the indication and to the view -/

lemma buildView_body (j : Nat) (r : Except Exc (Shown V)) (s : Tui V) :
    (buildView j r s).1.body = s.body := by
  rcases r with (_ | _ | _) | _ <;> rfl

lemma afterBuild_body (curIndex : Int) (b : Tui V × Except Exc (Shown V)) :
    (afterBuild curIndex b).1.body = b.1.body := by
  rcases b with ⟨s, e | x⟩
  · simp only [afterBuild]
    split_ifs <;> rfl
  · rfl

/-- The loop of `_move_screen` never calls `ui.set_body`. -/
lemma scanA_body (c : Setup) {ui : Nat → MakeUi V} {d curIndex : Int} :
    ∀ (fuel : Nat) (s : Tui V) {x : (Tui V × Except Exc (Option (Shown V))) ⊕ (Nat × Tui V)},
      scanA c ui d curIndex fuel s = some x → (x.elim Prod.fst Prod.snd).body = s.body
  | 0, _, _, h => by cases h
  | fuel + 1, s, x, h => by
    simp only [scanA] at h
    split_ifs at h
    · cases h; rfl
    · cases h; rfl
    · exact (scanA_body c fuel _ h :)
    split at h
    · cases h; rfl
    · generalize hb : buildView _ _ _ = b at h
      have hbb := buildView_body (V := V) (s.index + d).toNat ‹_›
        (({ s with index := s.index + d } : Tui V).emit (.enter (s.index + d).toNat "starting UI"))
      rw [hb] at hbb
      rcases b with ⟨s', (_ | _ | _) | _⟩
      · exact (scanA_body c fuel s' h).trans hbb
      all_goals
        cases h
        exact (afterBuild_body _ _).trans hbb

/-- What a move does, from `st` and its task `t` to `p`: it leaves the clock; it leaves
the task's helper tasks, or runs the `finally` with no `min_show_task`
(`Helpers.leave`); and it changes the view shown only then. -/
def MoveFrame (st : Sys V) (t : MoveTask V) (p : Sys V × MoveTask V) : Prop :=
  p.1.now = st.now ∧ (p.2.toHelpers = t.toHelpers ∨ t.leave = some p.2.toHelpers) ∧
    (p.1.tui.body ≠ st.tui.body → t.minShow = .none)

section Moves

variable (c : Setup)

lemma settleMove_frame (r : Except Exc (Option (Shown V))) (st : Sys V) (t : MoveTask V) :
    MoveFrame st t (settleMove r st t) := by
  unfold settleMove
  split
  · rename_i hl
    exact ⟨rfl, .inr hl, fun _ => (Helpers.leave_eq_some.mp hl).1⟩
  · exact ⟨rfl, .inl rfl, fun h => absurd rfl h⟩

lemma continueMove_frame {curIndex : Int} {st : Sys V} {t : MoveTask V} {p : Sys V × MoveTask V}
    (h : continueMove c curIndex st t = some p) : MoveFrame st t p := by
  obtain ⟨x, hx, rfl⟩ := Option.map_eq_some'.mp h
  have hb := scanA_body c _ _ hx
  rcases x with ⟨tui, r⟩ | ⟨j, tui⟩
  · obtain ⟨h₁, h₂, h₃⟩ := settleMove_frame r { st with tui } t
    exact ⟨h₁, h₂, fun hne => h₃ fun h => hne (h.trans hb)⟩
  · exact ⟨rfl, .inl rfl, fun hne => absurd hb hne⟩

lemma moveBody_frame {st : Sys V} {t : MoveTask V} {p : Sys V × MoveTask V}
    (h : moveBody c st t = some p) : MoveFrame st t p := by
  obtain ⟨h₁, h₂, h₃⟩ := continueMove_frame c h
  exact ⟨h₁, h₂, fun hne => h₃ fun h => hne (h.trans (Tui.leave_body _))⟩

lemma resumeMove_frame {j : Nat} {curIndex : Int} {r : Except Exc (Shown V)} {st : Sys V}
    {t : MoveTask V} {p : Sys V × MoveTask V} (h : resumeMove c j curIndex r st t = some p) :
    MoveFrame st t p := by
  have hb := buildView_body j r st.tui
  unfold resumeMove at h
  split at h
  · rename_i tui heq
    rw [heq] at hb
    obtain ⟨h₁, h₂, h₃⟩ := continueMove_frame c h
    exact ⟨h₁, h₂, fun hne => h₃ fun h => hne (h.trans hb)⟩
  · cases h
    obtain ⟨h₁, h₂, h₃⟩ := settleMove_frame (afterBuild curIndex (buildView j r st.tui)).2
      { st with tui := (afterBuild curIndex (buildView j r st.tui)).1 } t
    exact ⟨h₁, h₂, fun hne => h₃ fun h => hne (h.trans ((afterBuild_body _ _).trans hb))⟩

end Moves

/-! ### What a step does -/

/-- **What a step can do**: advance the clock; take a step of one task's helper tasks;
or run task `k` from `t` to `p`, leaving the clock, changing the task's helper tasks
only as the `finally` does (`Helpers.leave`) unless it cancels the task, and changing
the view shown only when the task has no `min_show_task` or resumes from one that is
done. -/
lemma moveStep_eq_some (c : Setup) {st st' : Sys V} {a : MoveAct V}
    (h : moveStep c st a = some st') :
    (∃ d, a = .advance d ∧ st' = { st with now := st.now + d }) ∨
    (∃ k t ha h', st.tasks[k]? = some t ∧ t.toHelpers.step st.now ha = some h' ∧
      st' = { st with blockInput := ha.blockInput st.blockInput,
                      tasks := st.tasks.set k { t with toHelpers := h' } }) ∨
    ∃ (k : Nat) (t : MoveTask V) (p : Sys V × MoveTask V), a.task = some k ∧ st.tasks[k]? = some t ∧
      st' = { p.1 with tasks := st.tasks.set k p.2 } ∧ p.1.now = st.now ∧
      ((p.2.toHelpers = t.toHelpers ∨ t.leave = some p.2.toHelpers) ∨ a = .cancel k) ∧
      (p.1.tui.body ≠ st.tui.body → t.minShow = .none ∨ a = .resumeMin k ∧ t.minShow = .done) := by
  have hframe : ∀ {k : Nat} {t : MoveTask V} {p : Sys V × MoveTask V}, MoveFrame st t p →
      p.1.now = st.now ∧
      ((p.2.toHelpers = t.toHelpers ∨ t.leave = some p.2.toHelpers) ∨ a = .cancel k) ∧
      (p.1.tui.body ≠ st.tui.body → t.minShow = .none ∨ a = .resumeMin k ∧ t.minShow = .done) :=
    fun hf => ⟨hf.1, .inl hf.2.1, fun hb => .inl (hf.2.2 hb)⟩
  cases a with
  | advance d => exact .inl ⟨d, rfl, (Option.some.inj h).symm⟩
  | startShow k | wakeShow k | showReturns k | startMin k | wakeMin k =>
    obtain ⟨t, h', hk, -, hh, rfl⟩ := Sys.helperStep_eq_some h
    exact .inr (.inl ⟨k, t, _, h', hk, hh, rfl⟩)
  | start k =>
    obtain ⟨t, p, hk, hf, rfl⟩ := Sys.runTask_eq_some h
    refine .inr (.inr ⟨k, t, p, rfl, hk, rfl, ?_⟩)
    split at hf
    · exact hframe (moveBody_frame c hf :)
    · cases hf
      exact ⟨rfl, .inl (.inl rfl), fun hb => absurd rfl hb⟩
    · cases hf
  | resumeCoro k =>
    obtain ⟨t, p, hk, hf, rfl⟩ := Sys.runTask_eq_some h
    refine .inr (.inr ⟨k, t, p, rfl, hk, rfl, ?_⟩)
    split at hf
    · cases hf
      exact hframe (settleMove_frame _ _ t)
    · exact hframe (moveBody_frame c hf)
    · cases hf
  | resumeUi k r =>
    obtain ⟨t, p, hk, hf, rfl⟩ := Sys.runTask_eq_some h
    refine .inr (.inr ⟨k, t, p, rfl, hk, rfl, ?_⟩)
    split at hf
    · exact hframe (resumeMove_frame c hf)
    · cases hf
  | resumeMin k =>
    obtain ⟨t, p, hk, hf, rfl⟩ := Sys.runTask_eq_some h
    refine .inr (.inr ⟨k, t, p, rfl, hk, rfl, ?_⟩)
    split at hf
    · cases hf
      exact ⟨rfl, .inl (.inl rfl), fun _ => .inr ⟨rfl, ‹_›⟩⟩
    · cases hf
  | cancel k =>
    obtain ⟨t, p, hk, hf, rfl⟩ := Sys.runTask_eq_some h
    refine .inr (.inr ⟨k, t, p, rfl, hk, rfl, ?_⟩)
    split at hf
    · cases hf
      exact ⟨rfl, .inr rfl, fun hb => absurd rfl hb⟩
    · cases hf
      exact hframe (settleMove_frame _ _ t)
    · exact hframe (resumeMove_frame c hf)
    · cases hf
      exact ⟨rfl, .inr rfl, fun hb => absurd rfl hb⟩
    · cases hf

/-- **Only a task with no `min_show_task`, or one resuming from a `min_show_task` that is
done, changes the view shown.** -/
lemma moveStep_body (c : Setup) {st st' : Sys V} {a : MoveAct V} (h : moveStep c st a = some st')
    (hb : st'.tui.body ≠ st.tui.body) : ∃ k t, a.task = some k ∧ st.tasks[k]? = some t ∧
      (t.minShow = .none ∨ a = .resumeMin k ∧ t.minShow = .done) := by
  rcases moveStep_eq_some c h with ⟨_, -, rfl⟩ | ⟨_, _, _, _, -, -, rfl⟩ |
    ⟨k, t, p, hk, ht, rfl, -, -, hf⟩
  · exact absurd rfl hb
  · exact absurd rfl hb
  · exact ⟨k, t, hk, ht, hf hb⟩

/-! ### Every run without cancellation -/

/-- **The invariant of runs without cancellation** from the clock at `now0`: the clock
has not gone back, and every task's helper tasks are as for a call made at `now0`. -/
structure ShowsOk (now0 : Nat) (st : Sys V) : Prop where
  clock : now0 ≤ st.now
  tasks : ∀ t ∈ st.tasks, t.toHelpers.Ok now0 st.now

lemma ShowsOk.init (tui : Tui V) (now : Nat) (b : Bool) (reqs : List (Request V)) :
    ShowsOk now ⟨tui, now, b, reqs.map MoveTask.init⟩ where
  clock := le_rfl
  tasks := by
    simp only [List.mem_map]
    rintro _ ⟨req, -, rfl⟩
    exact .init now now

/-- **Each step but a cancellation keeps the invariant.** -/
lemma ShowsOk.step (c : Setup) {now0 : Nat} {st st' : Sys V} {a : MoveAct V}
    (hi : ShowsOk now0 st) (ha : ∀ k, a ≠ .cancel k) (h : moveStep c st a = some st') :
    ShowsOk now0 st' := by
  rcases moveStep_eq_some c h with ⟨_, -, rfl⟩ | ⟨k, t, _, _, hk, hh, rfl⟩ |
    ⟨k, t, p, -, hk, rfl, hn, hh | hc, -⟩
  · exact ⟨by simp only; have := hi.clock; omega,
      fun t ht => (hi.tasks t ht).mono (Nat.le_add_right _ _)⟩
  · refine ⟨hi.clock, fun u hu => ?_⟩
    rcases List.mem_or_eq_of_mem_set hu with hu | rfl
    exacts [hi.tasks u hu, (hi.tasks t (List.getElem?_mem hk)).step hi.clock hh]
  · refine ⟨hn ▸ hi.clock, fun u hu => ?_⟩
    rw [show ({ p.1 with tasks := st.tasks.set k p.2 } : Sys V).now = st.now from hn]
    have hok := hi.tasks t (List.getElem?_mem hk)
    rcases List.mem_or_eq_of_mem_set hu with hu | rfl
    · exact hi.tasks u hu
    · rcases hh with hh | hh
      exacts [hh ▸ hok, hok.leave hh]
  · exact absurd hc (ha k)

/-- **Every run without cancellation keeps the invariant.** -/
lemma ShowsOk.run (c : Setup) {now0 : Nat} : ∀ (acts : List (MoveAct V)) {st st' : Sys V},
    (∀ a ∈ acts, ∀ k, a ≠ .cancel k) → ShowsOk now0 st → moveRun c st acts = some st' →
      ShowsOk now0 st'
  | [], _, _, _, hi, h => by cases h; exact hi
  | a :: acts, _, _, hc, hi, h => by
    obtain ⟨st₁, h₁, h₂⟩ := Option.bind_eq_some.mp h
    exact ShowsOk.run c acts (fun b hb => hc b (.tail _ hb)) (hi.step c (hc a (.head _)) h₁) h₂

/-- **Each request's progress indication is measured, and its view waits for it.** In
every interleaving of any requests' tasks without cancellation, from the clock at `now`:
a request whose progress was shown showed it once, at `ts`, no earlier than
`MAX_BLOCK_TIME` into the run and no later than now, its `show_task` past its sleep and
its `min_show_task` due no earlier than `ts + MIN_SHOW_PROGRESS_TIME` (`MinOk`); and
every step from there that changes the view shown runs a request that never showed
progress, or is a request resuming from its `min_show_task` once it is done, at least
`MIN_SHOW_PROGRESS_TIME` after that request showed its progress. -/
theorem request_min_show_measured (c : Setup) (tui : Tui V) (now : Nat) (b : Bool)
    (reqs : List (Request V)) (acts : List (MoveAct V)) (hc : ∀ a ∈ acts, ∀ k, a ≠ .cancel k)
    (st : Sys V) (hr : moveRun c ⟨tui, now, b, reqs.map MoveTask.init⟩ acts = some st) :
    (∀ t ∈ st.tasks, ∀ ts ∈ t.shownAt, t.shownAt = [ts] ∧ now + MAX_BLOCK_TIME ≤ ts ∧
      ts ≤ st.now ∧ (t.showTask = .showing ∨ t.showTask = .done) ∧ MinOk ts st.now t.minShow) ∧
    ∀ a st', moveStep c st a = some st' → st'.tui.body ≠ st.tui.body →
      ∃ k t, a.task = some k ∧ st.tasks[k]? = some t ∧
        (t.shownAt = [] ∨ a = .resumeMin k ∧ t.minShow = .done ∧
          ∀ ts ∈ t.shownAt, ts + MIN_SHOW_PROGRESS_TIME ≤ st.now) := by
  have hi := ShowsOk.run c acts hc (ShowsOk.init tui now b reqs) hr
  refine ⟨fun t ht ts hts => ?_, fun a st' h hb => ?_⟩
  · rcases hi.tasks t ht with ⟨-, -, hsh⟩ | ⟨ts', hsh, ht0, htn, hS, hM⟩
    · simp [hsh] at hts
    · rw [hsh, List.mem_singleton] at hts
      subst hts
      exact ⟨hsh, ht0, htn, hS, hM⟩
  · obtain ⟨k, t, hk, ht, hm | ⟨rfl, hm⟩⟩ := moveStep_body c h hb
    · exact ⟨k, t, hk, ht, .inl ((hi.tasks t (List.getElem?_mem ht)).minShow_eq_none.mp hm)⟩
    · refine ⟨k, t, hk, ht, .inr ⟨rfl, hm, fun ts hts => ?_⟩⟩
      obtain ⟨ts', hsh, -, -, hM⟩ := (hi.tasks t (List.getElem?_mem ht)).of_minShow (by simp [hm])
      rw [hsh, List.mem_singleton] at hts
      rw [hm] at hM
      exact hts ▸ hM

set_option maxRecDepth 4000 in
/-- A forward request whose first stage's `make_ui` coroutine takes long: its progress is
shown at 100 ms, its `min_show_task` is done at 1100 ms, and only then does it resume and
show the view. -/
theorem request_min_show_measured_shown :
    ∃ st, moveRun ⟨["a", "b"], []⟩ ⟨(Tui.init : Tui Nat), 0, false,
        [Request.next none (fun j => if j = 0 then .async else .sync (.ok (.view 1)))].map
          MoveTask.init⟩
        [.start 0, .startShow 0, .advance 100, .wakeShow 0, .startMin 0,
          .resumeUi 0 (.ok (.view 1)), .advance 1000, .wakeMin 0] = some st ∧
      (∃ t, st.tasks[0]? = some t ∧ t.shownAt = [100] ∧ t.minShow = .done) ∧
      (∀ t ∈ st.tasks, ∀ ts ∈ t.shownAt, t.shownAt = [ts] ∧ 0 + MAX_BLOCK_TIME ≤ ts ∧
        ts ≤ st.now ∧ (t.showTask = .showing ∨ t.showTask = .done) ∧ MinOk ts st.now t.minShow) ∧
      ∀ a st', moveStep ⟨["a", "b"], []⟩ st a = some st' → st'.tui.body ≠ st.tui.body →
        ∃ k t, a.task = some k ∧ st.tasks[k]? = some t ∧
          (t.shownAt = [] ∨ a = .resumeMin k ∧ t.minShow = .done ∧
            ∀ ts ∈ t.shownAt, ts + MIN_SHOW_PROGRESS_TIME ≤ st.now) :=
  ⟨_, rfl, ⟨_, rfl, rfl, rfl⟩, request_min_show_measured ⟨["a", "b"], []⟩ Tui.init 0 false
    [Request.next none (fun j => if j = 0 then .async else .sync (.ok (.view 1)))]
    [.start 0, .startShow 0, .advance 100, .wakeShow 0, .startMin 0,
      .resumeUi 0 (.ok (.view 1)), .advance 1000, .wakeMin 0] (by simp) _ rfl⟩

end Subiquity
