import Subiquity.Concurrent.Basic
import Subiquity.Navigation.Cursor

/-!
Concurrent requests are serialisable when no move suspends inside its critical section:
if no `make_ui()` returns a coroutine, no `show_task` wakes and no task is cancelled,
then after any interleaving the screen is the one the finished requests leave when
their calls run one after the other, in the order they finished.

* `Request.toCall`: a request whose `make_ui()`s all return at once, as a call of the
  sequential model.
* `moveBody_of_sync`: such a move runs from past its `coro` to its end in one step of
  the event loop, and leaves the screen its call leaves.
* `Serial`, `Serial.step`, `Serial.run`: the invariant of calm runs, kept by each step.
* `concurrent_moves_serialize`: two requests run from one state end in the state of one
  of the two sequential orders.
* `concurrent_moves_shown_interleave`, `concurrent_moves_interleave`: neither condition
  can be dropped. A move that waits out its progress indication displays its view after
  the other move has finished; a move suspended in a stage's `make_ui` coroutine is
  overtaken. Either way the state is that of neither order.
-/

namespace Subiquity

variable {V : Type}

/-- What a `make_ui()` that returns or raises at once gives. A coroutine, which the
requests below never return, reads as `CancelledError`. -/
def MakeUi.result : MakeUi V → Except Exc (Shown V)
  | .sync r => r
  | .async => .error .cancelled

lemma MakeUi.eq_sync_result {m : MakeUi V} (h : m ≠ .async) : m = .sync m.result := by
  cases m <;> simp_all [MakeUi.result]

namespace Request

/-- No `make_ui()` of the request's move returns a coroutine. -/
def Sync (req : Request V) : Prop := ∀ j, req.ui j ≠ .async

/-- The request as a call of the sequential model. -/
def toCall : Request V → Call V
  | next coro ui => .next coro fun j => (ui j).result
  | prev ui => .prev fun j => (ui j).result

@[simp] lemma toCall_increment (req : Request V) : req.toCall.increment = req.increment := by
  cases req <;> rfl

@[simp] lemma toCall_coro (req : Request V) : req.toCall.coro = req.coro := by
  cases req <;> rfl

lemma ui_eq_sync {req : Request V} (h : req.Sync) : req.ui = fun j => .sync (req.toCall.ui j) := by
  funext j
  cases req <;> exact MakeUi.eq_sync_result (h j)

end Request

/-- Whether the task's `move_screen` has returned or raised. -/
def MovePc.isDone : MovePc V → Bool
  | .done _ => true
  | _ => false

/-- A task about to run, awaiting its `coro`, or done: not suspended in a stage's
coroutine, nor waiting out its indicator. -/
def MovePc.Quiet : MovePc V → Prop
  | .start | .coro | .done _ => True
  | _ => False

/-- A step other than a `show_task` waking or a cancellation. -/
def MoveAct.Calm : MoveAct V → Prop
  | .wakeShow _ | .cancel _ => False
  | _ => True

section Serial

variable (c : Setup)

lemma settleMove_of_none {r : Except Exc (Option (Shown V))} {st : Sys V} {t : MoveTask V}
    (hm : t.minShow = .none) : settleMove r st t =
      ({ st with tui := (st.tui.display r).1, blockInput := false },
        { t with showTask := t.showTask.cancel, pc := .done (st.tui.display r).2 }) := by
  simp [settleMove, Helpers.leave, hm]

/-- **A move without coroutines has no suspension past its `coro`**: the rest of it
runs to its end at once, and leaves the screen its call leaves. -/
lemma moveBody_of_sync {st st' : Sys V} {t t' : MoveTask V} (hs : t.req.Sync)
    (hm : t.minShow = .none) (hco : ∀ e, t.req.coro ≠ some (.error e))
    (h : moveBody c st t = some (st', t')) :
    st'.tui = t.req.toCall.apply c st.tui ∧ t'.req = t.req ∧ t'.minShow = .none ∧
      t'.pc.isDone := by
  have hco' : ∀ e, t.req.toCall.coro ≠ some (.error e) := by simpa using hco
  simp only [moveBody, continueMove, Request.ui_eq_sync hs, scanA_sync, Option.map_map] at h
  simp only [Call.apply, moveScreen, _moveScreen_of_ne_error c _ _ hco', Request.toCall_increment]
  rcases hsc : scan c t.req.toCall.ui t.req.increment st.tui.index (c.n + 1) st.tui.leave
    with _ | ⟨tui, r⟩ <;> simp only [hsc, Option.map_none', Option.map_some'] at h ⊢
  · cases h
  · simp only [Function.comp_apply, settleMove_of_none hm, Option.some.injEq] at h
    cases h
    exact ⟨rfl, rfl, hm, rfl⟩

/-- What a calm step does to the task it runs, from screen `s` to `s'`: the task keeps
its request, stays quiet and makes no `min_show_task`; the step leaves the screen and
whether the task is done alone, or finishes the task's move with the screen its call
leaves. -/
def TaskStep (s : Tui V) (t : MoveTask V) (s' : Tui V) (t' : MoveTask V) : Prop :=
  t'.req = t.req ∧ t'.pc.Quiet ∧ t'.minShow = .none ∧
    (s' = s ∧ t'.pc.isDone = t.pc.isDone ∨
      t.pc.isDone = false ∧ t'.pc.isDone ∧ s' = t.req.toCall.apply c s)

lemma TaskStep.of_moveBody {st st' : Sys V} {t t' : MoveTask V} (hs : t.req.Sync)
    (hm : t.minShow = .none) (hco : ∀ e, t.req.coro ≠ some (.error e))
    (hd : t.pc.isDone = false) (h : moveBody c st t = some (st', t')) :
    TaskStep c st.tui t st'.tui t' := by
  obtain ⟨htui, hreq, hm', hdone⟩ := moveBody_of_sync c hs hm hco h
  refine ⟨hreq, ?_, hm', .inr ⟨hd, hdone, htui⟩⟩
  revert hdone; cases t'.pc <;> simp [MovePc.isDone, MovePc.Quiet]

lemma TaskStep.same {s : Tui V} {t : MoveTask V} (hq : t.pc.Quiet) (hm : t.minShow = .none)
    (t' : MoveTask V) (hreq : t'.req = t.req) (hpc : t'.pc = t.pc) (hm' : t'.minShow = t.minShow) :
    TaskStep c s t s t' :=
  ⟨hreq, hpc ▸ hq, hm' ▸ hm, .inl ⟨rfl, by rw [hpc]⟩⟩

/-- A step that runs one task through `f` is as `TaskStep` says when `f` is, on each task
of the state. -/
lemma taskStep_of_runTask {st st' : Sys V} {k : Nat} {f : MoveTask V → Option (Sys V × MoveTask V)}
    (h : st.runTask k f = some st')
    (hf : ∀ t ∈ st.tasks, ∀ s₁ t₁, f t = some (s₁, t₁) → TaskStep c st.tui t s₁.tui t₁) :
    ∃ k t t', st.tasks[k]? = some t ∧ st'.tasks = st.tasks.set k t' ∧
      TaskStep c st.tui t st'.tui t' := by
  obtain ⟨t, ⟨s₁, t₁⟩, hk, hft, rfl⟩ := Sys.runTask_eq_some h
  exact ⟨k, t, t₁, hk, rfl, hf t (List.getElem?_mem hk) s₁ t₁ hft⟩

/-- **One calm step**, from a state whose tasks are quiet, have made no `min_show_task`
and have requests without coroutines: it only moves the clock, or it runs one task as
`TaskStep` says. -/
lemma moveStep_calm {st st' : Sys V} {a : MoveAct V} (ha : a.Calm)
    (hi : ∀ t ∈ st.tasks, t.req.Sync ∧ t.pc.Quiet ∧ t.minShow = .none)
    (h : moveStep c st a = some st') :
    st'.tui = st.tui ∧ st'.tasks = st.tasks ∨
      ∃ k t t', st.tasks[k]? = some t ∧ st'.tasks = st.tasks.set k t' ∧
        TaskStep c st.tui t st'.tui t' := by
  cases a with
  | advance d =>
    cases h
    exact .inl ⟨rfl, rfl⟩
  | wakeShow k | cancel k => exact ha.elim
  | start k =>
    refine .inr (taskStep_of_runTask c h fun t ht s₁ t₁ hf => ?_)
    obtain ⟨hs, -, hm⟩ := hi t ht
    split at hf
    · exact (TaskStep.of_moveBody c hs hm (by simp [*]) (by simp [*, MovePc.isDone]) hf :)
    · cases hf
      exact ⟨rfl, trivial, hm, .inl ⟨rfl, by simp [*, MovePc.isDone]⟩⟩
    · cases hf
  | resumeCoro k =>
    refine .inr (taskStep_of_runTask c h fun t ht s₁ t₁ hf => ?_)
    obtain ⟨hs, -, hm⟩ := hi t ht
    split at hf
    · rename_i e _ hco
      simp only [settleMove_of_none hm, Option.some.injEq, Prod.mk.injEq] at hf
      obtain ⟨rfl, rfl⟩ := hf
      refine ⟨rfl, trivial, hm, .inr ⟨by simp [*, MovePc.isDone], rfl, ?_⟩⟩
      exact (Call.apply_of_coro_error (by simpa using hco) _).symm
    · exact TaskStep.of_moveBody c hs hm (by simpa [*]) (by simp [*, MovePc.isDone]) hf
    · cases hf
  | startShow k | showReturns k | startMin k | wakeMin k =>
    obtain ⟨t, h', hk, -, hh, rfl⟩ := Sys.helperStep_eq_some h
    obtain ⟨-, hq, hm⟩ := hi t (List.getElem?_mem hk)
    refine .inr ⟨k, t, _, hk, rfl, TaskStep.same c hq hm _ rfl rfl ?_⟩
    rcases Helpers.step_minShow hh with hm' | ⟨-, -, hw⟩
    exacts [hm', absurd (hw hm) nofun]
  | resumeUi k _ | resumeMin k =>
    refine .inr (taskStep_of_runTask c h fun t ht s₁ t₁ hf => ?_)
    obtain ⟨-, hq, hm⟩ := hi t ht
    split at hf <;> simp_all [MovePc.Quiet]

lemma isDone_at_set {l : List (MoveTask V)} {k : Nat} {t t' : MoveTask V} (hk : l[k]? = some t)
    (n : Nat) : (∃ u, (l.set k t')[n]? = some u ∧ u.pc.isDone) ↔
      if n = k then t'.pc.isDone = true else ∃ u, l[n]? = some u ∧ u.pc.isDone := by
  by_cases hn : n = k
  · subst hn
    simp [List.getElem?_set_self (List.getElem?_eq_some_iff.mp hk).1]
  · simp [hn, List.getElem?_set_ne (Ne.symm hn)]

variable (reqs : List (Request V)) (tui0 : Tui V)

/-- **The invariant of calm runs** of the tasks of `reqs` from the screen `tui0`: each
task is its own request's, is quiet and has made no `min_show_task`, and the screen is
the one the finished requests leave when their calls run one after the other, in the
order `ks` in which they finished. -/
structure Serial (st : Sys V) : Prop where
  req : st.tasks.map MoveTask.req = reqs
  quiet : ∀ t ∈ st.tasks, t.pc.Quiet ∧ t.minShow = .none
  order : ∃ ks : List Nat, ks.Nodup ∧
    (∀ k, k ∈ ks ↔ ∃ t, st.tasks[k]? = some t ∧ t.pc.isDone) ∧
    st.tui = (ks.filterMap fun k => reqs[k]?).foldl (fun s r => r.toCall.apply c s) tui0

/-- The tasks `run_bg_task` made for `reqs`, none of them run yet. -/
lemma Serial.init (now : Nat) (b : Bool) :
    Serial c reqs tui0 ⟨tui0, now, b, reqs.map MoveTask.init⟩ where
  req := by simp [Function.comp_def, MoveTask.init]
  quiet := by simp [MoveTask.init, MovePc.Quiet]
  order := ⟨[], List.nodup_nil, fun k => by simp [MoveTask.init, MovePc.isDone], rfl⟩

variable {c reqs tui0}

/-- **Each calm step keeps the invariant.** A task that finishes its move joins the
end of the order. -/
lemma Serial.step (hs : ∀ r ∈ reqs, r.Sync) {st st' : Sys V} {a : MoveAct V} (ha : a.Calm)
    (hi : Serial c reqs tui0 st) (h : moveStep c st a = some st') : Serial c reqs tui0 st' := by
  have hsync : ∀ t ∈ st.tasks, t.req.Sync ∧ t.pc.Quiet ∧ t.minShow = .none := fun t ht =>
    ⟨hs _ (hi.req ▸ List.mem_map_of_mem _ ht), hi.quiet t ht⟩
  obtain ⟨ks, hnd, hks, htui⟩ := hi.order
  rcases moveStep_calm c ha hsync h with ⟨htui', htasks⟩ | ⟨k, t, t', hk, htasks, hreq, hq, hm, hstep⟩
  · exact ⟨htasks ▸ hi.req, htasks ▸ hi.quiet, ks, hnd, htasks ▸ hks, htui'.trans htui⟩
  have hreqk : reqs[k]? = some t.req := by rw [← hi.req, List.getElem?_map, hk]; rfl
  refine ⟨?_, ?_, ?_⟩
  · rw [htasks, List.map_set, hi.req, hreq]
    exact List.ext_getElem? fun n => by
      by_cases hn : k = n
      · subst hn; simp [List.getElem?_set_self (List.getElem?_eq_some_iff.mp hreqk).1, hreqk]
      · simp [List.getElem?_set_ne hn]
  · intro u hu
    rw [htasks] at hu
    rcases List.mem_or_eq_of_mem_set hu with hu | rfl
    exacts [hi.quiet u hu, ⟨hq, hm⟩]
  · simp only [htasks, isDone_at_set hk]
    rcases hstep with ⟨htui', hd⟩ | ⟨hd, hd', htui'⟩
    · refine ⟨ks, hnd, fun n => ?_, htui'.trans htui⟩
      rw [hks]
      split_ifs with hn
      · subst hn; simp [hk, hd]
      · rfl
    · have hk' : k ∉ ks := by simp [hks, hk, hd]
      refine ⟨ks ++ [k], hnd.append (List.nodup_singleton k) (by simpa using hk'), fun n => ?_, ?_⟩
      · rw [List.mem_append, hks, List.mem_singleton]
        split_ifs with hn <;> simp [hn, hd']
      · rw [htui', htui, List.filterMap_append, List.foldl_append]
        simp [hreqk]

/-- **Every calm run keeps the invariant.** -/
lemma Serial.run (hs : ∀ r ∈ reqs, r.Sync) : ∀ (acts : List (MoveAct V)) {st st' : Sys V},
    (∀ a ∈ acts, a.Calm) → Serial c reqs tui0 st → moveRun c st acts = some st' →
      Serial c reqs tui0 st'
  | [], _, _, _, hi, h => by cases h; exact hi
  | a :: acts, _, _, ha, hi, h => by
    obtain ⟨st₁, h₁, h₂⟩ := Option.bind_eq_some.mp h
    exact Serial.run hs acts (fun b hb => ha b (.tail _ hb)) (hi.step hs (ha a (.head _)) h₁) h₂

lemma eq_of_nodup_of_mem_iff_lt_two {ks : List Nat} (hnd : ks.Nodup) (h : ∀ k, k ∈ ks ↔ k < 2) :
    ks = [0, 1] ∨ ks = [1, 0] := by
  have h0 := (h 0).mpr (by omega)
  have h1 := (h 1).mpr (by omega)
  rcases ks with _ | ⟨a, _ | ⟨b, _ | ⟨d, l⟩⟩⟩
  · simp at h0
  · simp at h0 h1; omega
  · simp at hnd h0 h1 ⊢; omega
  · have ha := (h a).mp (by simp)
    have hb := (h b).mp (by simp)
    have hd := (h d).mp (by simp)
    simp at hnd; omega

end Serial

/-- **Two calm requests serialise.** Two requests none of whose stages' `make_ui`
coroutines suspends (a `make_ui()` that returns, raises, or gives a coroutine that
completes without suspending, all `MakeUi.sync`), run as tasks from one state through
any interleaving with no `show_task` waking and no cancellation, end, once both are
done, in the state of their calls run one after the other, in one order or the other. -/
theorem concurrent_moves_serialize (c : Setup) (tui : Tui V) (now : Nat) (b : Bool)
    (r₀ r₁ : Request V) (h₀ : r₀.Sync) (h₁ : r₁.Sync) (acts : List (MoveAct V))
    (hacts : ∀ a ∈ acts, a.Calm) (st : Sys V)
    (hr : moveRun c ⟨tui, now, b, [.init r₀, .init r₁]⟩ acts = some st)
    (hdone : ∀ t ∈ st.tasks, t.pc.isDone) :
    st.tui = r₁.toCall.apply c (r₀.toCall.apply c tui) ∨
      st.tui = r₀.toCall.apply c (r₁.toCall.apply c tui) := by
  have hi := Serial.run (by simp [h₀, h₁]) acts hacts (Serial.init c [r₀, r₁] tui now b) hr
  obtain ⟨ks, hnd, hks, htui⟩ := hi.order
  have hlen : st.tasks.length = 2 := by simpa using congrArg List.length hi.req
  have hmem : ∀ k, k ∈ ks ↔ k < 2 := fun k => by
    rw [hks, ← hlen]
    constructor
    · rintro ⟨t, ht, -⟩
      exact (List.getElem?_eq_some_iff.mp ht).1
    · intro hk
      exact ⟨_, List.getElem?_eq_getElem hk, hdone _ (List.getElem_mem _)⟩
  rcases eq_of_nodup_of_mem_iff_lt_two hnd hmem with rfl | rfl
  exacts [.inl (by simpa using htui), .inr (by simpa using htui)]

/-- The first request awaits its `coro` while the second moves forward over stages `a`
and `b`: the second finishes first. -/
theorem concurrent_moves_serialize_overtaken :
    let c : Setup := ⟨["a", "b"], []⟩
    let r₀ : Request Nat := .next (some (.ok ())) fun _ => .sync (.ok (.view 1))
    let r₁ : Request Nat := .next none fun _ => .sync (.ok (.view 2))
    ∃ st, moveRun c ⟨Tui.init, 0, false, [.init r₀, .init r₁]⟩
        [.start 0, .start 1, .resumeCoro 0] = some st ∧ (∀ t ∈ st.tasks, t.pc.isDone) ∧
      (st.tui = r₁.toCall.apply c (r₀.toCall.apply c Tui.init) ∨
        st.tui = r₀.toCall.apply c (r₁.toCall.apply c Tui.init)) :=
by
  intro c r₀ r₁
  refine ⟨_, rfl, by decide, ?_⟩
  exact concurrent_moves_serialize c Tui.init 0 false r₀ r₁ (fun _ => by simp [r₀, Request.ui])
    (fun _ => by simp [r₁, Request.ui]) [.start 0, .start 1, .resumeCoro 0]
    (by simp [MoveAct.Calm]) _ rfl (by decide)

/-- **A progress indication lets two moves interleave.** Stages `a` and `b`, whose
`make_ui()`s return their views at once. The first request's pretransition outlasts
`MAX_BLOCK_TIME`, so its `show_task` wakes; its move settles on `a` and waits out
`min_show_task`, while the second request moves on to `b` and shows `b`'s view. Then the
first displays `a`'s view over it: `cur_screen` is `b` and the view shown is `a`'s, a
state neither order of the two calls leaves. So the condition that no `show_task` wakes
cannot be dropped. -/
theorem concurrent_moves_shown_interleave :
    let c : Setup := ⟨["a", "b"], []⟩
    let r₀ : Request Nat := .next (some (.ok ())) fun j => .sync (.ok (.view j))
    let r₁ : Request Nat := .next none fun j => .sync (.ok (.view j))
    ∃ st, moveRun c ⟨Tui.init, 0, false, [.init r₀, .init r₁]⟩
        [.start 0, .startShow 0, .advance 100, .wakeShow 0, .resumeCoro 0, .start 1,
          .startMin 0, .advance 1000, .wakeMin 0, .resumeMin 0] = some st ∧
      (∀ t ∈ st.tasks, t.pc.isDone) ∧ st.tui.curScreen = some 1 ∧ st.tui.body = some 0 ∧
      st.tui ≠ r₁.toCall.apply c (r₀.toCall.apply c Tui.init) ∧
      st.tui ≠ r₀.toCall.apply c (r₁.toCall.apply c Tui.init) :=
  ⟨_, rfl, by decide, rfl, rfl, by decide, by decide⟩

/-- **Two moves interleave.** Stages `a` and `b`; two forward requests from the
start: the first suspends in `a`'s `make_ui` coroutine, the second runs to its end
on `b`, then `a`'s coroutine returns. The index ends at `b` but `cur_screen` at `a`
and the view shown is `a`'s; run one after the other, in either order, the moves
leave `cur_screen` at `b`. -/
theorem concurrent_moves_interleave :
    let c : Setup := ⟨["a", "b"], []⟩
    let st : Sys Nat := ⟨Tui.init, 0, false,
      [MoveTask.init (.next none fun j => if j = 0 then .async else .sync (.ok (.view 1))),
       MoveTask.init (.next none fun _ => .sync (.ok (.view 2)))]⟩
    (moveRun c st [.start 0, .start 1, .resumeUi 0 (.ok (.view 1))]).map
        (fun st => (st.tui.index, st.tui.curScreen, st.tui.body)) = some (1, some 0, some 1) ∧
      (let s := (Call.next none fun _ => .ok (.view 2)).apply c
          ((Call.next none fun _ => .ok (.view 1)).apply c (Tui.init : Tui Nat));
        (s.index, s.curScreen, s.body)) = (1, some 1, some 2) ∧
      (let s := (Call.next none fun _ => .ok (.view 1)).apply c
          ((Call.next none fun _ => .ok (.view 2)).apply c (Tui.init : Tui Nat));
        (s.index, s.curScreen, s.body)) = (1, some 1, some 1) := by
  decide

end Subiquity
