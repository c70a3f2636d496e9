import Subiquity.Concurrent.Basic
import Subiquity.Navigation.Context

/-!
The calls on the stages' contexts (`subiquitycore/tui.py`) when navigation requests
interleave. Overlapping moves can leave `cur_screen` on one stage and
`controllers.index` on another, and can leave a context entered for good; yet no
context is ever exited more often than it was entered.

* `MovePc.stage`, `CtxOpen`: the stage whose `make_ui` coroutine a task awaits, and the
  enters of a context still open for the current screen and for the tasks building it.
* `CtxStep`: a change of the calls that keeps, for every context, the enters open for
  the current screen, for the task that runs and for any number of other tasks;
  `scanA_ctx`, `moveStep_ctx`: the loop of `_move_screen`, and every step, are such
  changes.
* `CtxInv`, `concurrent_exits_closed`: in every interleaving of any requests, with any
  cancellations, every exit closes an earlier enter, the context of `cur_screen` is
  open, and so is the context of each stage a request is building.
-/

namespace Subiquity

variable {V : Type}

/-- The stage whose `make_ui` coroutine the task awaits, if any. -/
def MovePc.stage : MovePc V → Option Nat
  | .ui j _ => some j
  | _ => none

/-! ### Open enters -/

/-- The context of `j` after the calls of `s`: every exit has closed an earlier enter,
and the enters still open cover the current screen and `n` more. -/
def CtxOpen (j : Nat) (s : Tui V) (n : Nat) : Prop :=
  ∃ d, openAfter 0 (ctxCalls j s.events) = some d ∧
    (if s.curScreen = some j then 1 else 0) + n ≤ d

/-- From the calls of `s`, the task building stage `q`, to those of `s'`, the task building
`q'`: for every context, the enters open for the current screen, for the task and for
any `m` other tasks stay open. -/
def CtxStep (s : Tui V) (q : Option Nat) (s' : Tui V) (q' : Option Nat) : Prop :=
  ∀ j m, CtxOpen j s (m + if q = some j then 1 else 0) →
    CtxOpen j s' (m + if q' = some j then 1 else 0)

namespace CtxStep

variable {s s₁ s₂ s₃ : Tui V} {q q₁ q₂ q₃ : Option Nat}

lemma trans (h₁ : CtxStep s₁ q₁ s₂ q₂) (h₂ : CtxStep s₂ q₂ s₃ q₃) : CtxStep s₁ q₁ s₃ q₃ :=
  fun j m h => h₂ j m (h₁ j m h)

/-- A change that leaves the calls on the contexts and the current screen alone. -/
lemma of_eq (he : ∀ j, ctxCalls j s'.events = ctxCalls j s.events)
    (hc : s'.curScreen = s.curScreen) (q : Option Nat) : CtxStep s q s' q :=
  fun j _ ⟨d, hd, hle⟩ => ⟨d, he j ▸ hd, hc ▸ hle⟩

lemma index (s : Tui V) (i : Int) (q : Option Nat) : CtxStep s q { s with index := i } q :=
  of_eq (fun _ => rfl) rfl q

lemma body (s : Tui V) (b : Option V) (q : Option Nat) : CtxStep s q { s with body := b } q :=
  of_eq (fun _ => rfl) rfl q

lemma appExit (s : Tui V) (q : Option Nat) : CtxStep s q (s.emit .appExit) q :=
  of_eq (fun _ => by simp [ctxCalls]) (Tui.emit_curScreen s _) q

lemma display (s : Tui V) (r : Except Exc (Option (Shown V))) (q : Option Nat) :
    CtxStep s q (s.display r).1 q := by
  rcases r with e | (_ | (v | (e | v)))
  · exact fun _ _ h => h
  · exact fun _ _ h => h
  · exact body s _ q
  · exact fun _ _ h => h
  · exact body s _ q

/-- The task stops building stage `j`. -/
lemma release (s : Tui V) (j : Nat) : CtxStep s (some j) s none :=
  fun i m ⟨d, hd, hle⟩ => ⟨d, hd, by
    simp only [Option.some.injEq, reduceCtorEq, if_false, Nat.add_zero] at hle ⊢
    split_ifs at hle ⊢ <;> omega⟩

/-- `new.context.enter("starting UI")`: the task builds stage `j`. -/
lemma enter (s : Tui V) (j : Nat) : CtxStep s none (s.emit (.enter j "starting UI")) (some j) :=
  fun i m ⟨d, hd, hle⟩ => ⟨_, exitsClosed_enter j hd, by
    simp only [Tui.emit_curScreen, Option.some.injEq, reduceCtorEq, if_false, Nat.add_zero] at hle ⊢
    split_ifs at hle ⊢ <;> omega⟩

/-- The stage the task built becomes `cur_screen`. -/
lemma settle (s : Tui V) (j : Nat) : CtxStep s (some j) { s with curScreen := some j } none :=
  fun i m ⟨d, hd, hle⟩ => ⟨d, hd, by
    simp only [Option.some.injEq, reduceCtorEq, if_false, Nat.add_zero] at hle ⊢
    split_ifs at hle ⊢ <;> omega⟩

/-- A context with an enter open for the task loses it to an exit. -/
lemma openAfter_exit {j : Nat} {l : List Event} {d : Nat} (hd : openAfter 0 (ctxCalls j l) = some d)
    (k : Nat) (msg : String) (hk : k = j → 0 < d) :
    openAfter 0 (ctxCalls j (l ++ [.exit k msg])) = some (if k = j then d - 1 else d) := by
  by_cases h : k = j
  · obtain ⟨d, rfl⟩ : ∃ d', d = d' + 1 := ⟨d - 1, by have := hk h; omega⟩
    simp [h, openAfter_append, hd, openAfter]
  · simp [h, hd]

/-- `new.context.exit("(skipped)")`: the task stops building stage `j`. -/
lemma skipped (s : Tui V) (j : Nat) :
    CtxStep s (some j) (s.emit (.exit j "(skipped)")) none := fun i m ⟨d, hd, hle⟩ =>
  ⟨_, openAfter_exit hd j _ fun h => by subst h; simp at hle; omega, by
    simp only [Tui.emit_curScreen, Option.some.injEq, reduceCtorEq, if_false, Nat.add_zero] at hle ⊢
    split_ifs at hle ⊢ <;> omega⟩

/-- `old.context.exit("completed")` and `old.end_ui()` on leaving `cur_screen`. -/
lemma leave (s : Tui V) : CtxStep s none s.leave none := by
  unfold Tui.leave
  split
  · exact fun _ _ h => h
  rename_i old hold
  intro i m ⟨d, hd, hle⟩
  simp only [hold, Option.some.injEq, reduceCtorEq, if_false, Nat.add_zero] at hle
  have h₁ := openAfter_exit hd old "completed" fun h => by simp only [h, if_true] at hle; omega
  refine ⟨_, by simpa [Tui.emit] using h₁, ?_⟩
  simp only [Tui.emit, reduceCtorEq, if_false, Nat.zero_add]
  split_ifs at hle ⊢ <;> omega

end CtxStep

/-- `make_view_for_controller` past its `make_ui` coroutine, the stage built or not: the
task stops building it. -/
lemma buildView_ctx (j : Nat) (r : Except Exc (Shown V)) (s : Tui V) :
    CtxStep s (some j) (buildView j r s).1 none := by
  rcases r with (_ | _ | _) | x
  · exact CtxStep.skipped s j
  · exact CtxStep.release s j
  · exact CtxStep.release s j
  · exact CtxStep.settle s j

lemma afterBuild_ctx (curIndex : Int) (b : Tui V × Except Exc (Shown V)) (q : Option Nat) :
    CtxStep b.1 q (afterBuild curIndex b).1 q := by
  rcases b with ⟨s, e | x⟩
  · by_cases he : e.isException <;> simp only [afterBuild, he, if_true, if_false]
    exacts [CtxStep.index s _ q, fun _ _ h => h]
  · exact fun _ _ h => h

/-! ### The loop and the steps -/

/-- Where the loop of `_move_screen` leaves the calls, and the stage whose coroutine the
task then awaits. -/
def scanEnd : (Tui V × Except Exc (Option (Shown V))) ⊕ (Nat × Tui V) → Tui V × Option Nat
  | .inl (s, _) => (s, none)
  | .inr (j, s) => (s, some j)

/-- **The loop keeps the open enters.** -/
lemma scanA_ctx (c : Setup) (ui : Nat → MakeUi V) (increment curIndex : Int) :
    ∀ (fuel : Nat) (s : Tui V) {x}, scanA c ui increment curIndex fuel s = some x →
      CtxStep s none (scanEnd x).1 (scanEnd x).2
  | 0, _, _, h => by cases h
  | fuel + 1, s, x, h => by
    have hi := CtxStep.index s (s.index + increment) none
    have he := hi.trans (CtxStep.enter _ (s.index + increment).toNat)
    simp only [scanA] at h
    split_ifs at h
    · cases h
      exact hi.trans (CtxStep.index _ _ _)
    · cases h
      exact hi.trans (CtxStep.appExit _ _)
    · exact (he.trans (CtxStep.release _ _)).trans (scanA_ctx c ui increment curIndex fuel _ h)
    split at h
    · cases h
      exact he
    generalize hb : buildView _ _ _ = b at h
    have hb' := he.trans (hb ▸ buildView_ctx _ _ _)
    rcases b with ⟨s', (_ | _ | _) | _⟩
    · exact hb'.trans (scanA_ctx c ui increment curIndex fuel s' h)
    all_goals
      cases h
      exact hb'.trans (afterBuild_ctx curIndex _ none)

section Steps

variable (c : Setup)

lemma settleMove_ctx (r : Except Exc (Option (Shown V))) (st : Sys V) (t : MoveTask V) :
    CtxStep st.tui none (settleMove r st t).1.tui (settleMove r st t).2.pc.stage := by
  unfold settleMove
  split
  · exact CtxStep.display st.tui r none
  · exact fun _ _ h => h

lemma continueMove_ctx {curIndex : Int} {st : Sys V} {t : MoveTask V} {p : Sys V × MoveTask V}
    (h : continueMove c curIndex st t = some p) : CtxStep st.tui none p.1.tui p.2.pc.stage := by
  obtain ⟨x, hx, rfl⟩ := Option.map_eq_some'.mp h
  have hs := scanA_ctx c _ _ _ _ _ hx
  rcases x with ⟨tui, r⟩ | ⟨j, tui⟩
  · exact hs.trans (settleMove_ctx r { st with tui } t)
  · exact hs

lemma moveBody_ctx {st : Sys V} {t : MoveTask V} {p : Sys V × MoveTask V}
    (h : moveBody c st t = some p) : CtxStep st.tui none p.1.tui p.2.pc.stage :=
  (CtxStep.leave st.tui).trans (continueMove_ctx c h)

lemma resumeMove_ctx {j : Nat} {curIndex : Int} {r : Except Exc (Shown V)} {st : Sys V}
    {t : MoveTask V} {p : Sys V × MoveTask V} (h : resumeMove c j curIndex r st t = some p) :
    CtxStep st.tui (some j) p.1.tui p.2.pc.stage := by
  have hb := buildView_ctx j r st.tui
  unfold resumeMove at h
  split at h
  · rename_i tui heq
    rw [heq] at hb
    exact hb.trans (continueMove_ctx c h)
  · cases h
    have ha := afterBuild_ctx curIndex (buildView j r st.tui) none
    exact (hb.trans ha).trans (settleMove_ctx _ { st with tui := (afterBuild curIndex _).1 } t)

/-- **One step**: it only moves the clock, or it runs one task, from `t` to `t'`, as a
`CtxStep` from the stage `t` builds to the stage `t'` builds. -/
lemma moveStep_ctx {st st' : Sys V} {a : MoveAct V} (h : moveStep c st a = some st') :
    st'.tui = st.tui ∧ st'.tasks = st.tasks ∨
      ∃ k t t', st.tasks[k]? = some t ∧ st'.tasks = st.tasks.set k t' ∧
        CtxStep st.tui t.pc.stage st'.tui t'.pc.stage := by
  have run {k : Nat} {f : MoveTask V → Option (Sys V × MoveTask V)} (hk : st.runTask k f = some st')
      (hf : ∀ t ∈ st.tasks, ∀ p, f t = some p → CtxStep st.tui t.pc.stage p.1.tui p.2.pc.stage) :=
    Sys.runTask_rel (fun t s t' => CtxStep st.tui t.pc.stage s.tui t'.pc.stage)
      (fun _ _ _ _ h => h) hk hf
  cases a with
  | advance d =>
    cases h
    exact .inl ⟨rfl, rfl⟩
  | start k =>
    refine .inr (run h fun t _ p hp => ?_)
    split at hp <;> rename_i hpc _
    · simpa only [hpc, MovePc.stage] using moveBody_ctx c hp
    · cases hp
      simp only [hpc, MovePc.stage]
      exact fun _ _ h => h
    · cases hp
  | resumeCoro k =>
    refine .inr (run h fun t _ p hp => ?_)
    split at hp <;> rename_i hpc _
    · cases hp
      simpa only [hpc, MovePc.stage] using settleMove_ctx _ _ t
    · simpa only [hpc, MovePc.stage] using moveBody_ctx c hp
    · cases hp
  | resumeUi k r =>
    refine .inr (run h fun t _ p hp => ?_)
    split at hp <;> rename_i hpc
    · simpa only [hpc, MovePc.stage] using resumeMove_ctx c hp
    · cases hp
  | cancel k =>
    refine .inr (run h fun t _ p hp => ?_)
    split at hp <;> rename_i hpc
    · cases hp
      simp only [hpc, MovePc.stage]
      exact fun _ _ h => h
    · cases hp
      simpa only [hpc, MovePc.stage] using settleMove_ctx _ _ t
    · simpa only [hpc, MovePc.stage] using resumeMove_ctx c hp
    · cases hp
      simp only [hpc, MovePc.stage]
      exact fun _ _ h => h
    · cases hp
  | startShow k | wakeShow k | showReturns k | startMin k | wakeMin k =>
    obtain ⟨t, -, hk, -, -, rfl⟩ := Sys.helperStep_eq_some h
    exact .inr ⟨k, t, _, hk, rfl, fun _ _ h => h⟩
  | resumeMin k =>
    refine .inr (run h fun t _ p hp => ?_)
    split at hp <;> cases hp
    simpa only [MovePc.stage, *] using CtxStep.display _ _ none

end Steps

/-! ### Every run -/

/-- How many tasks are building the stage at `j`. -/
def building (j : Nat) (tasks : List (MoveTask V)) : Nat :=
  tasks.countP fun t => t.pc.stage = some j

/-- Replacing task `k`, `t`, by `t'` trades the count of `t` for that of `t'`. -/
lemma building_set {tasks : List (MoveTask V)} {k : Nat} {t : MoveTask V} (hk : tasks[k]? = some t)
    (t' : MoveTask V) (j : Nat) : ∃ m, building j tasks = m + (if t.pc.stage = some j then 1 else 0) ∧
      building j (tasks.set k t') = m + (if t'.pc.stage = some j then 1 else 0) := by
  obtain ⟨hlt, hget⟩ := List.getElem?_eq_some_iff.mp hk
  have hle : (if t.pc.stage = some j then 1 else 0) ≤ building j tasks := by
    split_ifs with h
    · exact List.countP_pos_iff.mpr ⟨t, List.getElem?_mem hk, by simpa using h⟩
    · exact Nat.zero_le _
  refine ⟨building j tasks - if t.pc.stage = some j then 1 else 0, by omega, ?_⟩
  simp only [building, List.countP_set _ _ _ _ hlt, hget, decide_eq_true_eq]

/-- **The invariant**: for every context, every exit has closed an earlier enter, and the
enters still open cover the current screen and each task building the stage. -/
def CtxInv (st : Sys V) : Prop := ∀ j, CtxOpen j st.tui (building j st.tasks)

lemma CtxInv.init (now : Nat) (b : Bool) (reqs : List (Request V)) :
    CtxInv ⟨Tui.init, now, b, reqs.map MoveTask.init⟩ := fun _ =>
  ⟨0, rfl, by simp [building, Tui.init, MoveTask.init, MovePc.stage]⟩

/-- **Each step keeps the invariant.** -/
lemma CtxInv.step (c : Setup) {st st' : Sys V} {a : MoveAct V} (hi : CtxInv st)
    (h : moveStep c st a = some st') : CtxInv st' := by
  rcases moveStep_ctx c h with ⟨htui, ht⟩ | ⟨k, t, t', hk, ht, hs⟩
  · intro j
    rw [htui, ht]
    exact hi j
  · intro j
    obtain ⟨m, h₁, h₂⟩ := building_set hk t' j
    rw [ht, h₂]
    exact hs j m (h₁ ▸ hi j)

/-- **Every run keeps the invariant.** -/
lemma CtxInv.run (c : Setup) : ∀ (acts : List (MoveAct V)) {st st' : Sys V}, CtxInv st →
    moveRun c st acts = some st' → CtxInv st'
  | [], _, _, hi, h => by cases h; exact hi
  | a :: acts, _, _, hi, h => by
    obtain ⟨st₁, h₁, h₂⟩ := Option.bind_eq_some.mp h
    exact CtxInv.run c acts (hi.step c h₁) h₂

/-- **Concurrent moves never exit a context they did not enter.** Whatever the
requests, the interleaving of their tasks and the cancellations, from the start: every
`context.exit` on a stage closes an earlier `context.enter` of it not closed yet, and the
enters still open are at least one for `cur_screen` and one for each request suspended in
the stage's `make_ui` coroutine. -/
theorem concurrent_exits_closed (c : Setup) (now : Nat) (b : Bool) (reqs : List (Request V))
    (acts : List (MoveAct V)) (st : Sys V)
    (hr : moveRun c ⟨Tui.init, now, b, reqs.map MoveTask.init⟩ acts = some st) (j : Nat) :
    ∃ d, openAfter 0 (ctxCalls j st.tui.events) = some d ∧
      (if st.tui.curScreen = some j then 1 else 0) +
        st.tasks.countP (fun t => t.pc.stage = some j) ≤ d :=
  (CtxInv.init now b reqs).run c acts hr j

/-- Two forward requests from the start, the first suspended in the first stage's
coroutine while the second shows the second stage: each context has the one enter open
that the current screen or the suspended request holds. -/
theorem concurrent_exits_closed_overtaken :
    ∃ st, moveRun ⟨["a", "b"], []⟩ ⟨(Tui.init : Tui Nat), 0, false,
        [Request.next none (fun j => if j = 0 then .async else .sync (.ok (.view 1))),
          Request.next none fun _ => .sync (.ok (.view 2))].map MoveTask.init⟩
        [.start 0, .start 1] = some st ∧
      st.tui.curScreen = some 1 ∧
      ∃ d, openAfter 0 (ctxCalls 0 st.tui.events) = some d ∧
        (if st.tui.curScreen = some 0 then 1 else 0) +
          st.tasks.countP (fun t => t.pc.stage = some 0) ≤ d :=
  ⟨_, rfl, rfl, concurrent_exits_closed ⟨["a", "b"], []⟩ 0 false
    [Request.next none (fun j => if j = 0 then .async else .sync (.ok (.view 1))),
      Request.next none fun _ => .sync (.ok (.view 2))] [.start 0, .start 1] _ rfl 0⟩

end Subiquity
