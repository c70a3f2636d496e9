import Subiquity.Concurrent.Serial
import Subiquity.Concurrent.Foreground

/-!
Navigation requests that do not overlap (`subiquitycore/tui.py`): each is started only
when no other is within its move, as when a caller awaits `next_screen` before asking
for the next one. Whatever the progress indication's timing and whatever the stages'
`make_ui` coroutines return, they end as the calls of the sequential model whose
`make_ui` outcomes are the requests', each coroutine giving what it returned.

* `scan_mono`, `scan_isSome`, `scan_index`: the sequential loop does not depend on its
  fuel once it has returned, returns within `n + 1` passes, and leaves an index of at
  least `-1`.
* `scanA_inl`, `scanA_inr`: the loop that suspends in a stage's coroutine is the
  sequential loop, up to the suspension.
* `Midway`, `Advances`, `moveStep_seq`: where a request within its move stands against
  its call, and what one step of the event loop does to it.
* `finishOrder`: the tasks a run finishes, in the order it finishes them, read off the
  run step by step (`finishedBy`).
* `SeqAt`, `SeqAt.step`, `SeqAt.run`: the invariant of runs of requests that do not
  overlap, kept by each step, with the requests finished so far in `finishOrder`.
* `sequential_requests_refine`: whenever no request is within its move, the screen is
  the one the finished requests' calls leave, run one after the other in `finishOrder`.
-/

namespace Subiquity

variable {V : Type} (c : Setup)

/-! ### The sequential loop -/

section Scan

variable (ui : Nat → Except Exc (Shown V)) (d curIndex : Int)

/-- **More fuel, same result.** -/
lemma scan_succ : ∀ (fuel : Nat) {s : Tui V} {x : Tui V × Except Exc (Option (Shown V))},
    scan c ui d curIndex fuel s = some x → scan c ui d curIndex (fuel + 1) s = some x
  | 0, _, _, h => by cases h
  | fuel + 1, s, x, h => by
    simp only [scan] at h ⊢
    split_ifs at h ⊢
    · exact h
    · exact h
    generalize makeViewForController c _ _ _ = r at h ⊢
    rcases r with ⟨s', (_ | _ | _) | _⟩
    · exact scan_succ fuel h
    all_goals exact h

lemma scan_mono {fuel fuel' : Nat} (hf : fuel ≤ fuel') {s : Tui V}
    {x : Tui V × Except Exc (Option (Shown V))} (h : scan c ui d curIndex fuel s = some x) :
    scan c ui d curIndex fuel' s = some x := by
  induction hf with
  | refl => exact h
  | step _ ih => exact scan_succ c ui d curIndex _ ih

lemma makeViewForController_index (j : Nat) (r : Except Exc (Shown V)) (s : Tui V) :
    (makeViewForController c j r s).1.index = s.index := by
  unfold makeViewForController
  split_ifs
  · rfl
  · rcases r with (_ | _ | _) | _ <;> rfl

/-- **The loop returns within `n + 1` passes**, from any index from `-1` on: within the
stages by `scan_eq_scanOver`, and past the last one at once, or moving back over all of
them. -/
lemma scan_isSome {d : Int} (hd : d = 1 ∨ d = -1) (s : Tui V) (hi : -1 ≤ s.index) :
    (scan c ui d curIndex (c.n + 1) s).isSome := by
  by_cases hin : s.index < c.n
  · rw [scan_eq_scanOver c ui hd curIndex _ s hi hin
      (Nat.lt_succ_of_le (length_stepsFrom_le hd hi hin))]
    rfl
  rcases hd with rfl | rfl
  · simp [scan, show ¬s.index + 1 < 0 by omega, show (c.n : Int) ≤ s.index + 1 by omega]
  by_cases hout : (c.n : Int) ≤ s.index + -1
  · simp [scan, show ¬s.index + -1 < 0 by omega, hout]
  by_cases h0 : s.index + -1 < 0
  · simp [scan, h0]
  simp only [scan, h0, hout, if_false]
  generalize hm : makeViewForController c _ _ _ = r
  rcases r with ⟨s', (_ | _ | _) | _⟩ <;> try rfl
  have hs' : s'.index = c.n - 1 := by
    have := makeViewForController_index c (s.index + -1).toNat (ui (s.index + -1).toNat)
      { s with index := s.index + -1 }
    rw [hm] at this
    simp only at this
    omega
  show (scan c ui (-1) curIndex c.n s').isSome
  rw [scan_eq_scanOver c ui (.inr rfl) curIndex _ s' (by omega) (by omega)]
  · rfl
  · simp [stepsFrom, hs']
    omega

/-- The loop leaves the index it started from, or one of at least `0`. -/
lemma scan_index : ∀ (fuel : Nat) {s s' : Tui V} {r : Except Exc (Option (Shown V))},
    scan c ui d curIndex fuel s = some (s', r) → s'.index = curIndex ∨ 0 ≤ s'.index
  | 0, _, _, _, h => by cases h
  | fuel + 1, s, s', r, h => by
    simp only [scan] at h
    split_ifs at h with h₀ h₁
    · cases h
      exact .inl rfl
    · cases h
      exact .inr (by simp only [Tui.emit_index]; omega)
    generalize hm : makeViewForController c _ _ _ = b at h
    have hidx := makeViewForController_index c (s.index + d).toNat (ui (s.index + d).toNat)
      { s with index := s.index + d }
    rw [hm] at hidx
    rcases b with ⟨s₁, (_ | _ | _) | _⟩
    · exact scan_index fuel h
    all_goals
      simp only [afterBuild, Exc.isException, if_true, if_false, Bool.false_eq_true,
        Option.some.injEq, Prod.mk.injEq] at h
      obtain ⟨rfl, -⟩ := h
      first | exact .inl rfl | exact .inr (by simp only at hidx; omega)

end Scan

@[simp] lemma Tui.display_index (s : Tui V) (r : Except Exc (Option (Shown V))) :
    (s.display r).1.index = s.index := by
  rcases r with e | (_ | (v | (e | v))) <;> rfl

/-- `_move_screen` for the call from `base`, its loop given `fuel` passes. -/
def movePhase (call : Call V) (base : Tui V) (fuel : Nat) :
    Option (Tui V × Except Exc (Option (Shown V))) :=
  match call.coro with
  | some (.error e) => some (base, .error e)
  | _ => scan c call.ui call.increment base.index fuel base.leave

lemma movePhase_mono {call : Call V} {base : Tui V} {fuel fuel' : Nat} (hf : fuel ≤ fuel')
    {x : Tui V × Except Exc (Option (Shown V))} (h : movePhase c call base fuel = some x) :
    movePhase c call base fuel' = some x := by
  unfold movePhase at h ⊢
  split
  · simpa [*] using h
  · simp only [*] at h
    exact scan_mono c _ _ _ hf h

/-- **A call is its `_move_screen` with fuel enough**, then `move_screen`'s display. -/
lemma Call.apply_of_movePhase {call : Call V} {base : Tui V} (hi : -1 ≤ base.index) {fuel : Nat}
    {x : Tui V × Except Exc (Option (Shown V))} (h : movePhase c call base fuel = some x) :
    call.apply c base = (x.1.display x.2).1 := by
  have hsome : (movePhase c call base (c.n + 1)).isSome := by
    unfold movePhase
    split
    · rfl
    · exact scan_isSome c _ _ call.increment_eq _ (by simpa using hi)
  obtain ⟨y, hy⟩ := Option.isSome_iff_exists.mp hsome
  have hxy : x = y := Option.some.inj <|
    (movePhase_mono c (le_max_left fuel (c.n + 1)) h).symm.trans
      (movePhase_mono c (le_max_right fuel (c.n + 1)) hy)
  have hm : _moveScreen c call.ui call.increment call.coro base = movePhase c call base (c.n + 1) :=
    rfl
  simp [Call.apply, moveScreen, hm, hy, hxy]

/-- A call leaves an index of at least `-1`. -/
lemma Call.apply_index {call : Call V} {s : Tui V} (hi : -1 ≤ s.index) :
    -1 ≤ (call.apply c s).index := by
  obtain ⟨x, hx⟩ := Option.isSome_iff_exists.mp (show (movePhase c call s (c.n + 1)).isSome by
    unfold movePhase
    split
    · rfl
    · exact scan_isSome c _ _ call.increment_eq _ (by simpa using hi))
  rw [Call.apply_of_movePhase c hi hx, Tui.display_index]
  unfold movePhase at hx
  split at hx
  · cases hx
    exact hi
  · rcases scan_index c _ _ _ _ hx with h | h <;> omega

/-! ### The loop that suspends -/

/-- `ui'` gives what `ui` gives at each stage whose `make_ui` returns at once. -/
def Fits (ui : Nat → MakeUi V) (ui' : Nat → Except Exc (Shown V)) : Prop :=
  ∀ j r, ui j = .sync r → ui' j = r

/-- The sequential loop from the build of the stage at `j`, whose `make_ui` gives `ui' j`,
with `fuel` passes left after it. -/
def resumeScan (ui' : Nat → Except Exc (Shown V)) (d curIndex : Int) (j : Nat) (s : Tui V)
    (fuel : Nat) : Option (Tui V × Except Exc (Option (Shown V))) :=
  match buildView j (ui' j) s with
  | (s, .error .skip) => scan c ui' d curIndex fuel s
  | b => some (afterBuild curIndex b)

section Suspend

variable {ui : Nat → MakeUi V} {ui' : Nat → Except Exc (Shown V)} (hf : Fits ui ui')
  (d curIndex : Int)
include hf

/-- **A loop that does not suspend is the sequential loop.** -/
lemma scanA_inl : ∀ (fuel : Nat) (s : Tui V) {x : Tui V × Except Exc (Option (Shown V))},
    scanA c ui d curIndex fuel s = some (.inl x) → scan c ui' d curIndex fuel s = some x
  | 0, _, _, h => by cases h
  | fuel + 1, s, x, h => by
    simp only [scanA] at h
    simp only [scan, makeViewForController]
    split_ifs at h ⊢
    · cases h; rfl
    · cases h; rfl
    · exact scanA_inl fuel _ h
    rcases hu : ui (s.index + d).toNat with r | _ <;> simp only [hu] at h
    · rw [hf _ _ hu]
      generalize buildView _ r _ = b at h ⊢
      rcases b with ⟨s', (_ | _ | _) | _⟩
      · exact scanA_inl fuel s' h
      all_goals cases h; rfl
    · cases h

/-- **A loop that suspends is the sequential loop up to the suspension**: given what the
stage's coroutine gives, the sequential loop goes on from there as the resumed move
does, with fuel to spare. -/
lemma scanA_inr : ∀ (fuel : Nat) (s : Tui V) {j : Nat} {s₁ : Tui V},
    scanA c ui d curIndex fuel s = some (.inr (j, s₁)) →
      ∀ (F : Nat) (x : Tui V × Except Exc (Option (Shown V))),
        resumeScan c ui' d curIndex j s₁ F = some x → scan c ui' d curIndex (F + fuel) s = some x
  | 0, _, _, _, h, _, _, _ => by cases h
  | fuel + 1, s, j, s₁, h, F, x, hx => by
    simp only [scanA] at h
    rw [← Nat.add_assoc]
    simp only [scan, makeViewForController]
    split_ifs at h ⊢
    · cases h
    · cases h
    · exact scanA_inr fuel _ h F x hx
    rcases hu : ui (s.index + d).toNat with r | _ <;> simp only [hu] at h
    · rw [hf _ _ hu]
      generalize buildView _ r _ = b at h ⊢
      rcases b with ⟨s', (_ | _ | _) | _⟩
      · exact scanA_inr fuel s' h F x hx
      all_goals cases h
    · cases h
      unfold resumeScan at hx
      generalize buildView _ _ _ = b at hx ⊢
      rcases b with ⟨s', (_ | _ | _) | _⟩
      · exact scan_mono c ui' d curIndex (Nat.le_add_right F fuel) hx
      all_goals exact hx

end Suspend

/-! ### A request within its move -/

namespace Request

variable (req : Request V) (ui : Nat → Except Exc (Shown V))

/-- The request as a call of the sequential model, the coroutine of each stage's
`make_ui` giving what `ui` says there. -/
def withUi : Call V :=
  match req with
  | next coro _ => .next coro ui
  | prev _ => .prev ui

@[simp] lemma withUi_increment : (req.withUi ui).increment = req.increment := by cases req <;> rfl
@[simp] lemma withUi_coro : (req.withUi ui).coro = req.coro := by cases req <;> rfl
@[simp] lemma withUi_ui : (req.withUi ui).ui = ui := by cases req <;> rfl

end Request

/-- Within its move: awaiting its `coro`, a stage's coroutine, or `min_show_task`. -/
def MovePc.isMid : MovePc V → Bool
  | .coro | .ui .. | .awaitingMin _ => true
  | _ => false

/-- Where a request within its move stands against its call, the coroutine of each
stage's `make_ui` giving `ui`, started from `base`, the shared screen being `s`: at its
`coro` with nothing done; suspended in the coroutine of the stage at `j`, the sequential
loop going on from there as the request will; or waiting out its indication with what
the call's `_move_screen` gives. -/
def Midway (req : Request V) (ui : Nat → Except Exc (Shown V)) (base s : Tui V) :
    MovePc V → Prop
  | .coro => s = base
  | .ui j curIndex => curIndex = base.index ∧ ∃ f, ∀ F x,
      resumeScan c ui req.increment curIndex j s F = some x →
        movePhase c (req.withUi ui) base (F + f) = some x
  | .awaitingMin r => ∃ f, movePhase c (req.withUi ui) base f = some (s, r)
  | _ => True

/-- After a step of a request, from `base`: within its move as `Midway` says, or done,
the screen being the one its call leaves. -/
def Advances (req : Request V) (ui : Nat → Except Exc (Shown V)) (base s : Tui V)
    (pc : MovePc V) : Prop :=
  pc.isMid ∧ Midway c req ui base s pc ∨ pc.isDone ∧ s = (req.withUi ui).apply c base

section Advance

variable {ui : Nat → Except Exc (Shown V)} {base : Tui V} (hb : -1 ≤ base.index)
include hb

lemma settleMove_adv {r : Except Exc (Option (Shown V))} {st : Sys V} {t : MoveTask V} {f : Nat}
    (hm : movePhase c (t.req.withUi ui) base f = some (st.tui, r)) :
    Advances c t.req ui base (settleMove r st t).1.tui (settleMove r st t).2.pc := by
  unfold settleMove
  split
  · exact .inr ⟨rfl, (Call.apply_of_movePhase c hb hm).symm⟩
  · exact .inl ⟨rfl, f, hm⟩

lemma continueMove_adv {curIndex : Int} {st : Sys V} {t : MoveTask V} {p : Sys V × MoveTask V}
    (hfits : Fits t.req.ui ui) (hci : curIndex = base.index)
    (hcont : ∃ f, ∀ F x, scan c ui t.req.increment curIndex F st.tui = some x →
      movePhase c (t.req.withUi ui) base (F + f) = some x)
    (h : continueMove c curIndex st t = some p) : Advances c t.req ui base p.1.tui p.2.pc := by
  obtain ⟨f, hf⟩ := hcont
  obtain ⟨x, hx, rfl⟩ := Option.map_eq_some'.mp h
  rcases x with ⟨tui, r⟩ | ⟨j, tui⟩
  · exact settleMove_adv c hb (hf _ _ (scanA_inl c hfits _ _ _ _ hx) : _)
  · refine .inl ⟨rfl, hci, c.n + 1 + f, fun F x hx' => ?_⟩
    rw [← Nat.add_assoc]
    exact hf _ _ (scanA_inr c hfits _ _ _ _ hx F x hx')

/-- A move from `base` past its `coro`. -/
lemma moveBody_adv {st : Sys V} {t : MoveTask V} {p : Sys V × MoveTask V} (hfits : Fits t.req.ui ui)
    (hbase : st.tui = base) (hco : ∀ e, t.req.coro ≠ some (.error e))
    (h : moveBody c st t = some p) : Advances c t.req ui base p.1.tui p.2.pc := by
  refine continueMove_adv c hb hfits (by rw [hbase]) ⟨0, fun F x hx => ?_⟩ h
  have hm : movePhase c (t.req.withUi ui) base F =
      scan c ui t.req.increment base.index F base.leave := by
    unfold movePhase
    split
    · simp_all
    · simp
  rw [Nat.add_zero, hm, ← hbase]
  exact hx

/-- A move resumed from the coroutine of the stage at `j`, which gave `ui j`. -/
lemma resumeMove_adv {j : Nat} {curIndex : Int} {st : Sys V} {t : MoveTask V}
    {p : Sys V × MoveTask V} (hfits : Fits t.req.ui ui)
    (hmid : Midway c t.req ui base st.tui (.ui j curIndex))
    (h : resumeMove c j curIndex (ui j) st t = some p) : Advances c t.req ui base p.1.tui p.2.pc := by
  obtain ⟨hci, f, hf⟩ := hmid
  unfold resumeMove at h
  split at h
  · rename_i tui heq
    exact continueMove_adv c hb hfits hci
      ⟨f, fun F x hx => hf F x (by simp only [resumeScan, heq]; exact hx)⟩ h
  · rename_i hne
    cases h
    refine settleMove_adv c hb (f := 0 + f) (hf 0 _ ?_)
    unfold resumeScan
    revert hne
    generalize buildView j (ui j) st.tui = b
    rcases b with ⟨s', (_ | _ | _) | _⟩ <;> simp

end Advance

lemma settleMove_req (r : Except Exc (Option (Shown V))) (st : Sys V) (t : MoveTask V) :
    (settleMove r st t).2.req = t.req := by
  unfold settleMove; split <;> rfl

lemma continueMove_req {curIndex : Int} {st : Sys V} {t : MoveTask V} {p : Sys V × MoveTask V}
    (h : continueMove c curIndex st t = some p) : p.2.req = t.req := by
  obtain ⟨x, -, rfl⟩ := Option.map_eq_some'.mp h
  rcases x with ⟨tui, r⟩ | ⟨j, tui⟩
  exacts [settleMove_req r _ t, rfl]

lemma resumeMove_req {j : Nat} {curIndex : Int} {r : Except Exc (Shown V)} {st : Sys V}
    {t : MoveTask V} {p : Sys V × MoveTask V} (h : resumeMove c j curIndex r st t = some p) :
    p.2.req = t.req := by
  unfold resumeMove at h
  split at h
  · exact continueMove_req c h
  · cases h
    exact settleMove_req _ _ t

/-! ### Requests that do not overlap -/

variable (uis : Nat → Nat → Except Exc (Shown V))

/-- What a step must do to be part of a run of requests that do not overlap: it starts a
request only when no request is within its move, cancels none, and the coroutine of the
stage at `j` gives the task `k` awaiting it `uis k j`. -/
def SeqCond (st : Sys V) : MoveAct V → Prop
  | .start _ => ∀ t ∈ st.tasks, t.pc.isMid = false
  | .resumeUi k r => ∀ t j curIndex, st.tasks[k]? = some t → t.pc = .ui j curIndex → r = uis k j
  | .cancel _ => False
  | _ => True

/-- A run each step of which meets `SeqCond`. -/
def SeqRun : Sys V → List (MoveAct V) → Prop
  | _, [] => True
  | st, a :: as => SeqCond uis st a ∧ ∀ st', moveStep c st a = some st' → SeqRun st' as

/-- What a step does to the task `k` it runs, from `t` to `t'`, the screen going from that
of `st` to `s'`, the call of `t` starting from `base`: the task was at its start, alone,
or within its move, and advances; or the step changes neither the screen nor where the
task stands. -/
def SeqStep (base : Tui V) (st : Sys V) (k : Nat) (t : MoveTask V) (s' : Tui V)
    (t' : MoveTask V) : Prop :=
  t'.req = t.req ∧
    ((t.pc.isMid ∨ ∀ u ∈ st.tasks, u.pc.isMid = false) ∧ t.pc.isDone = false ∧
        Advances c t.req (uis k) base s' t'.pc ∨
      s' = st.tui ∧ t'.pc = t.pc)

/-- **One step**: it only moves the clock, or it runs one task as `SeqStep` says. -/
lemma moveStep_seq {base : Tui V} (hb : -1 ≤ base.index) {st st' : Sys V} {a : MoveAct V}
    (hc : SeqCond uis st a) (hfits : ∀ k t, st.tasks[k]? = some t → Fits t.req.ui (uis k))
    (hmid : ∀ k t, st.tasks[k]? = some t → t.pc.isMid → Midway c t.req (uis k) base st.tui t.pc)
    (hidle : (∀ t ∈ st.tasks, t.pc.isMid = false) → st.tui = base)
    (h : moveStep c st a = some st') :
    st'.tui = st.tui ∧ st'.tasks = st.tasks ∨
      ∃ k t t', st.tasks[k]? = some t ∧ st'.tasks = st.tasks.set k t' ∧
        SeqStep c uis base st k t st'.tui t' := by
  cases a with
  | advance d =>
    cases h
    exact .inl ⟨rfl, rfl⟩
  | start k =>
    obtain ⟨t, p, hk, hf, rfl⟩ := Sys.runTask_eq_some h
    refine .inr ⟨k, t, p.2, hk, rfl, ?_⟩
    split at hf <;> rename_i hpc hco
    · exact ⟨continueMove_req c hf, .inl ⟨.inr hc, by simp [hpc, MovePc.isDone],
        moveBody_adv c hb (hfits k t hk) (by exact hidle hc) (by simp [hco]) hf⟩⟩
    · cases hf
      exact ⟨rfl, .inl ⟨.inr hc, by simp [hpc, MovePc.isDone], .inl ⟨rfl, hidle hc⟩⟩⟩
    · cases hf
  | resumeCoro k =>
    obtain ⟨t, p, hk, hf, rfl⟩ := Sys.runTask_eq_some h
    refine .inr ⟨k, t, p.2, hk, rfl, ?_⟩
    split at hf
    · rename_i e hpc hco
      cases hf
      have hm : st.tui = base := by simpa [hpc, Midway] using hmid k t hk (by simp [hpc, MovePc.isMid])
      refine ⟨settleMove_req _ _ t, .inl ⟨.inl (by simp [hpc, MovePc.isMid]),
        by simp [hpc, MovePc.isDone], settleMove_adv c hb (f := 0) ?_⟩⟩
      simp [movePhase, hco, hm]
    · rename_i hpc hne
      have hm : st.tui = base := by simpa [hpc, Midway] using hmid k t hk (by simp [hpc, MovePc.isMid])
      exact ⟨continueMove_req c hf, .inl ⟨.inl (by simp [hpc, MovePc.isMid]),
        by simp [hpc, MovePc.isDone], moveBody_adv c hb (hfits k t hk) hm (fun e he => hne e he) hf⟩⟩
    · cases hf
  | resumeUi k r =>
    obtain ⟨t, p, hk, hf, rfl⟩ := Sys.runTask_eq_some h
    refine .inr ⟨k, t, p.2, hk, rfl, ?_⟩
    split at hf
    · rename_i j curIndex hpc
      obtain rfl := hc t j curIndex hk hpc
      have hm := hmid k t hk (by simp [hpc, MovePc.isMid])
      rw [hpc] at hm
      exact ⟨resumeMove_req c hf, .inl ⟨.inl (by simp [hpc, MovePc.isMid]),
        by simp [hpc, MovePc.isDone], resumeMove_adv c hb (hfits k t hk) hm hf⟩⟩
    · cases hf
  | startShow k | wakeShow k | showReturns k | startMin k | wakeMin k =>
    obtain ⟨t, -, hk, -, -, rfl⟩ := Sys.helperStep_eq_some h
    exact .inr ⟨k, t, _, hk, rfl, rfl, .inr ⟨rfl, rfl⟩⟩
  | resumeMin k =>
    obtain ⟨t, p, hk, hf, rfl⟩ := Sys.runTask_eq_some h
    refine .inr ⟨k, t, p.2, hk, rfl, ?_⟩
    split at hf
    · rename_i r hpc _
      cases hf
      obtain ⟨f, hf'⟩ : Midway c t.req (uis k) base st.tui (.awaitingMin r) :=
        hpc ▸ hmid k t hk (by simp [hpc, MovePc.isMid])
      exact ⟨rfl, .inl ⟨.inl (by simp [hpc, MovePc.isMid]), by simp [hpc, MovePc.isDone],
        .inr ⟨rfl, (Call.apply_of_movePhase c hb hf').symm⟩⟩⟩
    · cases hf
  | cancel k => exact hc.elim

/-! ### The invariant -/

lemma set_eq_of_getElem? {α : Type} {l : List α} {k : Nat} {x : α} (h : l[k]? = some x) :
    l.set k x = l :=
  List.ext_getElem? fun n => by
    by_cases hn : k = n
    · subst hn
      simp [List.getElem?_set_self (List.getElem?_eq_some_iff.mp h).1, h]
    · simp [List.getElem?_set_ne hn]

lemma MovePc.isDone_of_isMid {pc : MovePc V} (h : pc.isMid) : pc.isDone = false := by
  cases pc <;> simp_all [isMid, isDone]

/-- Each task's request and where it stands, all the invariant reads of the tasks. -/
def progress (ts : List (MoveTask V)) : List (Request V × MovePc V) :=
  ts.map fun t => (t.req, t.pc)

lemma progress_getElem? {ts : List (MoveTask V)} {k : Nat} {t : MoveTask V} (h : ts[k]? = some t) :
    (progress ts)[k]? = some (t.req, t.pc) := by
  simp [progress, h]

/-! ### The order the requests finish in -/

/-- Whether task `k` has returned or raised. -/
def Sys.isDone (st : Sys V) (k : Nat) : Bool := st.tasks[k]?.any fun t => t.pc.isDone

/-- The tasks a step from `st` to `st'` finishes, by index. -/
def finishedBy (st st' : Sys V) : List Nat :=
  (List.range st'.tasks.length).filter fun k => st'.isDone k && !st.isDone k

/-- The tasks a run finishes, in the order it finishes them. -/
def finishOrder : Sys V → List (MoveAct V) → List Nat
  | _, [] => []
  | st, a :: as =>
    match moveStep c st a with
    | none => []
    | some st' => finishedBy st st' ++ finishOrder st' as

lemma finishedBy_of_tasks {st st' : Sys V} (h : st'.tasks = st.tasks) : finishedBy st st' = [] := by
  simp [finishedBy, Sys.isDone, h]

lemma filter_range_of_ne {n k : Nat} (hk : k < n) {p : Nat → Bool} (hp : ∀ j, j ≠ k → p j = false) :
    (List.range n).filter p = if p k then [k] else [] := by
  induction n with
  | zero => omega
  | succ n ih =>
    rw [List.range_succ, List.filter_append]
    rcases Nat.lt_or_eq_of_le (Nat.le_of_lt_succ hk) with hlt | rfl
    · simp [ih hlt, hp n (by omega)]
    · rw [List.filter_eq_nil_iff.mpr fun j hj => by simp [hp j (List.mem_range.mp hj).ne]]
      split <;> simp_all

/-- A step that runs task `k` finishes it, or finishes nothing. -/
lemma finishedBy_set {st st' : Sys V} {k : Nat} {t t' : MoveTask V} (hk : st.tasks[k]? = some t)
    (h : st'.tasks = st.tasks.set k t') :
    finishedBy st st' = if t'.pc.isDone && !t.pc.isDone then [k] else [] := by
  have hlt : k < st.tasks.length := (List.getElem?_eq_some_iff.mp hk).1
  unfold finishedBy
  rw [filter_range_of_ne (by simpa [h] using hlt) fun j hj => ?_]
  · simp [Sys.isDone, h, hk, List.getElem?_set_self hlt]
  · simp [Sys.isDone, h, List.getElem?_set_ne (Ne.symm hj)]

variable (reqs : List (Request V)) (tui0 : Tui V)

/-- The screen the requests `ks` leave when their calls run one after the other from
`tui0`, the coroutine of the stage at `j` giving the request `k` what `uis k j` says. -/
def seqBase (ks : List Nat) : Tui V :=
  (ks.filterMap fun k => reqs[k]?.map fun req => req.withUi (uis k)).foldl
    (fun s call => call.apply c s) tui0

lemma seqBase_append {ks : List Nat} {k : Nat} {req : Request V} (h : reqs[k]? = some req) :
    seqBase c uis reqs tui0 (ks ++ [k]) = (req.withUi (uis k)).apply c (seqBase c uis reqs tui0 ks) := by
  simp [seqBase, List.filterMap_append, List.foldl_append, h]

lemma foldl_apply_index (calls : List (Call V)) {s : Tui V} (hi : -1 ≤ s.index) :
    -1 ≤ (calls.foldl (fun s call => call.apply c s) s).index := by
  induction calls generalizing s with
  | nil => exact hi
  | cons call calls ih => exact ih (Call.apply_index c hi)

/-- **The invariant of runs of requests that do not overlap**, the requests `ks` having
finished, in that order, and `s` being the screen: each task is its request's; at most
one task is within its move, and it stands as `Midway` says against the screen the
finished requests leave; when none is, the screen is that one. -/
structure SeqAt (ks : List Nat) (ps : List (Request V × MovePc V)) (s : Tui V) : Prop where
  req : ps.map Prod.fst = reqs
  nodup : ks.Nodup
  done : ∀ k, k ∈ ks ↔ ∃ p, ps[k]? = some p ∧ p.2.isDone
  mid : ∀ k p, ps[k]? = some p → p.2.isMid →
    Midway c p.1 (uis k) (seqBase c uis reqs tui0 ks) s p.2
  alone : ∀ (k k' : Nat) (p p' : Request V × MovePc V), ps[k]? = some p → ps[k']? = some p' → p.2.isMid → p'.2.isMid → k = k'
  idle : (∀ p ∈ ps, p.2.isMid = false) → s = seqBase c uis reqs tui0 ks

/-- The tasks `run_bg_task` made for `reqs`, none of them run yet. -/
lemma SeqAt.init : SeqAt c uis reqs tui0 [] (progress (reqs.map MoveTask.init)) tui0 where
  req := by simp [progress, Function.comp_def, MoveTask.init]
  nodup := List.nodup_nil
  done k := by simp [progress, MoveTask.init, MovePc.isDone]
  mid k p h hm := by
    simp only [progress, List.map_map, List.getElem?_map, Option.map_eq_some'] at h
    obtain ⟨_, -, rfl⟩ := h
    cases hm
  alone k _ p _ h _ hm := by
    simp only [progress, List.map_map, List.getElem?_map, Option.map_eq_some'] at h
    obtain ⟨_, -, rfl⟩ := h
    cases hm
  idle _ := rfl

variable {c uis reqs tui0}

lemma SeqRun.cons {st st₁ : Sys V} {a : MoveAct V} {as : List (MoveAct V)} (hc : SeqCond uis st a)
    (h : moveStep c st a = some st₁) (hr : SeqRun c uis st₁ as) : SeqRun c uis st (a :: as) :=
  ⟨hc, fun _ h' => Option.some.inj (h.symm.trans h') ▸ hr⟩

/-- After a step of the task `k` from a state where it was alone within its move, or no
task was: it is the only one within its move. -/
lemma mid_set_only {ps : List (Request V × MovePc V)}
    (halone : ∀ (k k' : Nat) (p p' : Request V × MovePc V), ps[k]? = some p → ps[k']? = some p' → p.2.isMid → p'.2.isMid → k = k')
    {k : Nat} {p q : Request V × MovePc V} (hk : ps[k]? = some p)
    (hor : p.2.isMid ∨ ∀ p ∈ ps, p.2.isMid = false) (j : Nat) (r : Request V × MovePc V)
    (hj : (ps.set k q)[j]? = some r) (hr : r.2.isMid) : j = k ∧ q = r := by
  rcases getElem?_set_eq_some hj with h | ⟨hne, hj'⟩
  · exact h
  rcases hor with hp | hall
  · exact absurd (halone j k r p hj' hk hr hp) hne
  · simp [hall r (List.mem_iff_getElem?.mpr ⟨_, hj'⟩)] at hr

lemma done_set_ne {ps : List (Request V × MovePc V)} {k j : Nat} {q : Request V × MovePc V}
    (hne : j ≠ k) : (∃ p, (ps.set k q)[j]? = some p ∧ p.2.isDone) ↔
      ∃ p, ps[j]? = some p ∧ p.2.isDone := by
  rw [List.getElem?_set_ne (Ne.symm hne)]

/-- **A task's advance keeps the invariant**: within its move, against the same finished
requests, or done, after them. -/
lemma SeqAt.advance {ks : List Nat} {ps : List (Request V × MovePc V)} {s s' : Tui V} {k : Nat}
    {p : Request V × MovePc V} {pc' : MovePc V} (hi : SeqAt c uis reqs tui0 ks ps s)
    (hk : ps[k]? = some p) (hor : p.2.isMid ∨ ∀ p ∈ ps, p.2.isMid = false)
    (hnd : p.2.isDone = false) (hadv : Advances c p.1 (uis k) (seqBase c uis reqs tui0 ks) s' pc') :
    SeqAt c uis reqs tui0 (ks ++ if pc'.isDone then [k] else []) (ps.set k (p.1, pc')) s' := by
  have hkk : (ps.set k (p.1, pc'))[k]? = some (p.1, pc') :=
    List.getElem?_set_self (List.getElem?_eq_some_iff.mp hk).1
  have hreqk : reqs[k]? = some p.1 := by rw [← hi.req, List.getElem?_map, hk]; rfl
  have hreq : (ps.set k (p.1, pc')).map Prod.fst = reqs := by
    rw [List.map_set, hi.req]
    exact set_eq_of_getElem? hreqk
  have honly := mid_set_only (q := (p.1, pc')) hi.alone hk hor
  have halone : ∀ (j j' : Nat) (q q' : Request V × MovePc V), (ps.set k (p.1, pc'))[j]? = some q → (ps.set k (p.1, pc'))[j']? = some q' →
      q.2.isMid → q'.2.isMid → j = j' := fun j j' q q' hj hj' hq hq' =>
    (honly j q hj hq).1.trans (honly j' q' hj' hq').1.symm
  have hk' : k ∉ ks := fun h => by
    obtain ⟨q, hq, hd⟩ := (hi.done k).mp h
    rw [hk] at hq
    cases hq
    simp [hnd] at hd
  rcases hadv with ⟨hmid, hway⟩ | ⟨hdone, hs'⟩
  · simp only [MovePc.isDone_of_isMid hmid, Bool.false_eq_true, if_false, List.append_nil]
    refine ⟨hreq, hi.nodup, fun j => ?_, fun j q hj hq => ?_, halone, fun hall => ?_⟩
    · by_cases hj : j = k
      · subst hj
        simp [hk', hkk, MovePc.isDone_of_isMid hmid]
      · rw [done_set_ne hj, hi.done]
    · obtain ⟨rfl, rfl⟩ := honly j q hj hq
      exact hway
    · simp [hall _ (List.mem_iff_getElem?.mpr ⟨_, hkk⟩)] at hmid
  · rw [if_pos hdone]
    refine ⟨hreq, hi.nodup.append (List.nodup_singleton k) (by simpa using hk'),
      fun j => ?_, fun j q hj hq => ?_, halone, fun _ => ?_⟩
    · by_cases hj : j = k
      · subst hj
        simp [hkk, hdone]
      · rw [done_set_ne hj, List.mem_append, hi.done]
        simp [hj]
    · obtain ⟨rfl, rfl⟩ := honly j q hj hq
      simp [MovePc.isDone_of_isMid hq] at hdone
    · rw [hs', seqBase_append c uis reqs tui0 hreqk]

section Run

variable (hfit : ∀ k req, reqs[k]? = some req → Fits req.ui (uis k)) (hi0 : -1 ≤ tui0.index)
include hfit hi0

/-- **Each step of a run of requests that do not overlap keeps the invariant**, the task
it finishes, if any, joining the end of the order. -/
lemma SeqAt.step {ks : List Nat} {st st' : Sys V} {a : MoveAct V}
    (hi : SeqAt c uis reqs tui0 ks (progress st.tasks) st.tui) (hc : SeqCond uis st a)
    (h : moveStep c st a = some st') :
    SeqAt c uis reqs tui0 (ks ++ finishedBy st st') (progress st'.tasks) st'.tui := by
  have hreq : ∀ k (t : MoveTask V), st.tasks[k]? = some t → reqs[k]? = some t.req := fun k t hk => by
    rw [← hi.req, List.getElem?_map, progress_getElem? hk]; rfl
  have hb : -1 ≤ (seqBase c uis reqs tui0 ks).index := foldl_apply_index c _ hi0
  rcases moveStep_seq c uis hb hc (fun k t hk => hfit k _ (hreq k t hk))
      (fun k t hk => hi.mid k _ (progress_getElem? hk))
      (fun hall => hi.idle (by simpa [progress] using hall)) h with
    ⟨htui, htasks⟩ | ⟨k, t, t', hk, htasks, hreq', hstep⟩
  · rw [finishedBy_of_tasks htasks, List.append_nil, htui, htasks]
    exact hi
  have hps : progress st'.tasks = (progress st.tasks).set k (t.req, t'.pc) := by
    rw [htasks, progress, List.map_set, hreq']; rfl
  rw [hps, finishedBy_set hk htasks]
  rcases hstep with ⟨hor, hnd, hadv⟩ | ⟨htui, hpc⟩
  · have hfin : (t'.pc.isDone && !t.pc.isDone) = t'.pc.isDone := by simp [hnd]
    rw [hfin]
    exact hi.advance (progress_getElem? hk)
      (hor.imp_right fun hall p hp => by
        obtain ⟨u, hu, rfl⟩ := List.mem_map.mp hp
        exact hall u hu) hnd hadv
  · rw [htui, hpc, set_eq_of_getElem? (progress_getElem? hk)]
    simpa using hi

/-- **Every run of requests that do not overlap keeps the invariant**, the tasks it
finishes joining the order in the order they finish. -/
lemma SeqAt.run : ∀ (acts : List (MoveAct V)) {st st' : Sys V} {ks : List Nat},
    SeqAt c uis reqs tui0 ks (progress st.tasks) st.tui → SeqRun c uis st acts →
      moveRun c st acts = some st' →
        SeqAt c uis reqs tui0 (ks ++ finishOrder c st acts) (progress st'.tasks) st'.tui
  | [], _, _, _, hi, _, h => by cases h; simpa [finishOrder] using hi
  | a :: acts, _, _, _, hi, hs, h => by
    obtain ⟨st₁, h₁, h₂⟩ := Option.bind_eq_some.mp h
    simpa [finishOrder, h₁] using SeqAt.run acts (hi.step hfit hi0 hs.1 h₁) (hs.2 st₁ h₁) h₂

end Run

/-- **Requests that do not overlap refine the sequential calls.** Whatever the timing of
the progress indication and wherever the moves suspend in the stages' `make_ui`
coroutines: when each request is started only once no other is within its move, none is
cancelled, and the coroutine of the stage at `j` gives the request `k` what `uis k j`
says, then whenever no request is within its move, the screen is the one the calls of
the finished requests leave when run one after the other from the screen the run started
from, in the order the run finished them (`finishOrder`), each stage's `make_ui` giving
what it gave. -/
theorem sequential_requests_refine (c : Setup) (reqs : List (Request V))
    (uis : Nat → Nat → Except Exc (Shown V))
    (hfit : ∀ k req, reqs[k]? = some req → Fits req.ui (uis k)) (tui : Tui V)
    (hi : -1 ≤ tui.index) (now : Nat) (b : Bool) (acts : List (MoveAct V))
    (hs : SeqRun c uis ⟨tui, now, b, reqs.map MoveTask.init⟩ acts) (st : Sys V)
    (hr : moveRun c ⟨tui, now, b, reqs.map MoveTask.init⟩ acts = some st)
    (hd : ∀ t ∈ st.tasks, t.pc.isMid = false) :
    let ks := finishOrder c ⟨tui, now, b, reqs.map MoveTask.init⟩ acts
    ks.Nodup ∧ (∀ k, k ∈ ks ↔ ∃ t, st.tasks[k]? = some t ∧ t.pc.isDone) ∧
      st.tui = (ks.filterMap fun k => reqs[k]?.map fun req => req.withUi (uis k)).foldl
        (fun s call => call.apply c s) tui := by
  have hinv := SeqAt.run hfit hi acts (SeqAt.init c uis reqs tui) hs hr
  rw [List.nil_append] at hinv
  refine ⟨hinv.nodup, fun k => ?_, hinv.idle (by simpa [progress] using hd)⟩
  rw [hinv.done]
  simp [progress]

set_option maxRecDepth 4000 in
/-- Two forward requests from the start, the first suspended in the first stage's
coroutine long enough for its progress to show, the second started once the first has
waited out `min_show_task`: the first finishes first, and the screen is the second call's
after the first's. -/
theorem sequential_requests_refine_indicated :
    ∃ st, moveRun ⟨["a", "b"], []⟩ ⟨(Tui.init : Tui Nat), 0, false,
        [Request.next none (fun j => if j = 0 then .async else .sync (.ok (.view 1))),
          Request.next none fun _ => .sync (.ok (.view 2))].map MoveTask.init⟩
        [.start 0, .startShow 0, .advance 100, .wakeShow 0, .startMin 0,
          .resumeUi 0 (.ok (.view 1)), .advance 1000, .wakeMin 0, .resumeMin 0, .start 1] = some st ∧
      st.tui.curScreen = some 1 ∧
      finishOrder ⟨["a", "b"], []⟩ ⟨(Tui.init : Tui Nat), 0, false,
        [Request.next none (fun j => if j = 0 then .async else .sync (.ok (.view 1))),
          Request.next none fun _ => .sync (.ok (.view 2))].map MoveTask.init⟩
        [.start 0, .startShow 0, .advance 100, .wakeShow 0, .startMin 0,
          .resumeUi 0 (.ok (.view 1)), .advance 1000, .wakeMin 0, .resumeMin 0, .start 1] = [0, 1] ∧
      let ks := finishOrder ⟨["a", "b"], []⟩ ⟨(Tui.init : Tui Nat), 0, false,
        [Request.next none (fun j => if j = 0 then .async else .sync (.ok (.view 1))),
          Request.next none fun _ => .sync (.ok (.view 2))].map MoveTask.init⟩
        [.start 0, .startShow 0, .advance 100, .wakeShow 0, .startMin 0,
          .resumeUi 0 (.ok (.view 1)), .advance 1000, .wakeMin 0, .resumeMin 0, .start 1]
      ks.Nodup ∧ (∀ k, k ∈ ks ↔ ∃ t, st.tasks[k]? = some t ∧ t.pc.isDone) ∧
        st.tui = (ks.filterMap fun k =>
          [Request.next none (fun j => if j = 0 then .async else .sync (.ok (.view 1))),
            Request.next none fun _ => .sync (.ok (.view 2))][k]?.map fun req =>
              req.withUi fun _ => .ok (.view (k + 1))).foldl
          (fun s call => call.apply ⟨["a", "b"], []⟩ s) Tui.init :=
  ⟨_, rfl, rfl, rfl, sequential_requests_refine ⟨["a", "b"], []⟩
    [Request.next none (fun j => if j = 0 then .async else .sync (.ok (.view 1))),
      Request.next none fun _ => .sync (.ok (.view 2))] (fun k _ => .ok (.view (k + 1)))
    (fun k req h j r hj => by
      rcases k with _ | _ | k <;> simp at h <;> subst h <;> simp only [Request.ui] at hj
      · split_ifs at hj
        cases hj; rfl
      · cases hj; rfl)
    Tui.init (by decide) 0 false
    [.start 0, .startShow 0, .advance 100, .wakeShow 0, .startMin 0,
      .resumeUi 0 (.ok (.view 1)), .advance 1000, .wakeMin 0, .resumeMin 0, .start 1]
    (SeqRun.cons (by simp [SeqCond, MoveTask.init, MovePc.isMid]) rfl <|
      SeqRun.cons trivial rfl <| SeqRun.cons trivial rfl <| SeqRun.cons trivial rfl <|
      SeqRun.cons trivial rfl <| SeqRun.cons (fun _ _ _ _ _ => rfl) rfl <|
      SeqRun.cons trivial rfl <| SeqRun.cons trivial rfl <| SeqRun.cons trivial rfl <|
      SeqRun.cons (by simp only [SeqCond]; decide) rfl trivial) _ rfl (by decide)⟩

end Subiquity
