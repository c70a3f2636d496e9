import Subiquity.Navigation.Cursor

/-!
The calls a run makes on the stages' contexts (`context.enter("starting UI")` in
`make_view_for_controller`, `context.exit("(skipped)")` there and
`context.exit("completed")` in `_move_screen`), `subiquitycore/tui.py`.

* `ctxCalls j`: the calls on the context of the stage at `j`, in order.
* `bracketAfter`: every enter closed by one exit before the next enter, and every
  exit closing an enter; `openAfter`: every exit closing an earlier unmatched enter.
* `CtxKeeps`, `runCalls_keeps`: an invariant of the calls on the contexts that survives
  each kind of call a move makes survives every sequential run.
* `runCalls_exits_closed`: in every run, every exit closes an earlier enter.
* `runCalls_bracketed`: with no screen filter and no `make_ui` raising anything but
  `Skip`, every context is well bracketed, and open exactly while its stage is
  `cur_screen`.
* `runCalls_screened_out_reenters`: a stage that `opts.screens` leaves out is entered
  on each visit and never exited.
-/

namespace Subiquity

/-- The calls on the context of the stage at `j`: `true` for an enter, `false` for
an exit. -/
def ctxCalls (j : Nat) : List Event → List Bool :=
  List.filterMap fun
    | .enter k _ => if k = j then some true else none
    | .exit k _ => if k = j then some false else none
    | _ => none

/-- Whether a context is open after a list of calls, from closed (`b = false`) or
open: `none` once an enter finds it open or an exit finds it closed. -/
def bracketAfter : Bool → List Bool → Option Bool
  | b, [] => some b
  | false, true :: l => bracketAfter true l
  | true, false :: l => bracketAfter false l
  | _, _ => none

/-- How many enters of a context are unmatched after a list of calls, from `d`:
`none` once an exit finds none. -/
def openAfter : Nat → List Bool → Option Nat
  | d, [] => some d
  | d, true :: l => openAfter (d + 1) l
  | 0, false :: _ => none
  | d + 1, false :: l => openAfter d l

@[simp] lemma ctxCalls_append (j : Nat) (a b : List Event) :
    ctxCalls j (a ++ b) = ctxCalls j a ++ ctxCalls j b :=
  List.filterMap_append _ _ _

@[simp] lemma ctxCalls_nil (j : Nat) : ctxCalls j [] = [] := rfl

@[simp] lemma ctxCalls_cons_enter (j k : Nat) (m : String) (l : List Event) :
    ctxCalls j (.enter k m :: l) = if k = j then true :: ctxCalls j l else ctxCalls j l := by
  by_cases h : k = j <;> simp [ctxCalls, h]

@[simp] lemma ctxCalls_cons_exit (j k : Nat) (m : String) (l : List Event) :
    ctxCalls j (.exit k m :: l) = if k = j then false :: ctxCalls j l else ctxCalls j l := by
  by_cases h : k = j <;> simp [ctxCalls, h]

@[simp] lemma ctxCalls_cons_endUi (j k : Nat) (l : List Event) :
    ctxCalls j (.endUi k :: l) = ctxCalls j l := rfl

@[simp] lemma ctxCalls_cons_appExit (j : Nat) (l : List Event) :
    ctxCalls j (.appExit :: l) = ctxCalls j l := rfl

lemma openAfter_append : ∀ (d : Nat) (a b : List Bool),
    openAfter d (a ++ b) = (openAfter d a).bind (openAfter · b)
  | _, [], _ => by simp [openAfter]
  | d, true :: a, b => by simpa [openAfter] using openAfter_append (d + 1) a b
  | 0, false :: _, _ => by simp [openAfter]
  | d + 1, false :: a, b => by simpa [openAfter] using openAfter_append d a b

lemma bracketAfter_append : ∀ (x : Bool) (a b : List Bool),
    bracketAfter x (a ++ b) = (bracketAfter x a).bind (bracketAfter · b)
  | _, [], _ => by simp [bracketAfter]
  | false, true :: a, b => by simpa [bracketAfter] using bracketAfter_append true a b
  | true, false :: a, b => by simpa [bracketAfter] using bracketAfter_append false a b
  | false, false :: _, _ => by simp [bracketAfter]
  | true, true :: _, _ => by simp [bracketAfter]

/-! ### Invariants of the contexts over runs -/

section Keeps

variable {V : Type} (c : Setup) {P : Tui V → Prop}

/-- What an invariant `P` of the calls on the contexts must survive in a move:
`self.exit()`, a moved index or body, `make_view_for_controller` raising `Skip` from
`make_ui` or returning a view, and leaving the current screen. -/
structure CtxKeeps (P : Tui V → Prop) : Prop where
  appExit : ∀ s : Tui V, P s → P (s.emit .appExit)
  index : ∀ (s : Tui V) i, P s → P { s with index := i }
  body : ∀ (s : Tui V) b, P s → P { s with body := b }
  skipped : ∀ (s : Tui V) k, s.curScreen = none → P s →
    P ((s.emit (.enter k "starting UI")).emit (.exit k "(skipped)"))
  settled : ∀ (s : Tui V) k, s.curScreen = none → P s →
    P { s.emit (.enter k "starting UI") with curScreen := some k }
  leave : ∀ s : Tui V, P s → P s.leave

/-- `P` survives an enter that no exit follows, on a stage `opts.screens` leaves out or
whose `make_ui` raises something other than `Skip`. -/
def EnterKeeps (P : Tui V → Prop) (ui : Nat → Except Exc (Shown V)) : Prop :=
  ∀ k (s : Tui V), (c.screenedOut k ∨ ∃ e, ui k = .error e ∧ e ≠ .skip) →
    s.curScreen = none → P s → P (s.emit (.enter k "starting UI"))

/-- **The loop keeps the invariant.** -/
lemma scan_keeps (hP : CtxKeeps P) {ui : Nat → Except Exc (Shown V)} (he : EnterKeeps c P ui)
    {d cur : Int} : ∀ (fuel : Nat) {s s' : Tui V} {r : Except Exc (Option (Shown V))},
      scan c ui d cur fuel s = some (s', r) → s.curScreen = none → P s → P s'
  | 0, _, _, _, h, _, _ => by cases h
  | fuel + 1, s, s', r, h, hn, hs => by
    have hs₁ : P { s with index := s.index + d } := hP.index _ _ hs
    simp only [scan] at h
    split_ifs at h
    · cases h; exact hP.index _ _ hs
    · cases h; exact hP.appExit _ hs₁
    set k := (s.index + d).toNat
    by_cases hso : c.screenedOut k
    · simp only [makeViewForController, hso, if_true] at h
      exact scan_keeps hP he fuel h hn (he k { s with index := s.index + d } (.inl hso) hn hs₁)
    rcases hu : ui k with (_ | n | _) | x <;>
      simp only [makeViewForController, hso, hu, buildView, afterBuild, Exc.isException,
        if_true, if_false, Option.some.injEq, Prod.mk.injEq, Bool.false_eq_true] at h
    · exact scan_keeps hP he fuel h hn (hP.skipped { s with index := s.index + d } k hn hs₁)
    · obtain ⟨rfl, -⟩ := h
      exact hP.index _ _ (he k { s with index := s.index + d } (.inr ⟨_, hu, nofun⟩) hn hs₁)
    · obtain ⟨rfl, -⟩ := h
      exact he k { s with index := s.index + d } (.inr ⟨_, hu, nofun⟩) hn hs₁
    · obtain ⟨rfl, -⟩ := h
      exact hP.settled { s with index := s.index + d } k hn hs₁

lemma display_keeps (hP : CtxKeeps P) {s : Tui V} (r : Except Exc (Option (Shown V)))
    (hs : P s) : P (s.display r).1 := by
  rcases r with e | (_ | (v | (e | v)))
  · exact hs
  · exact hs
  · exact hP.body _ _ hs
  · exact hs
  · exact hP.body _ _ hs

/-- **A call keeps the invariant.** -/
lemma Call.apply_keeps (hP : CtxKeeps P) {call : Call V} (he : EnterKeeps c P call.ui)
    {s : Tui V} (hs : P s) : P (call.apply c s) := by
  unfold Call.apply moveScreen
  rcases hm : _moveScreen c call.ui call.increment call.coro s with _ | ⟨s', r⟩
  · exact hs
  refine display_keeps hP r ?_
  unfold _moveScreen at hm
  split at hm
  · cases hm; exact hs
  · exact scan_keeps c hP he _ hm (Tui.leave_curScreen s) (hP.leave _ hs)

/-- **Every run keeps the invariant.** -/
lemma runCalls_keeps (hP : CtxKeeps P) : ∀ (calls : List (Call V)) {s : Tui V},
    (∀ call ∈ calls, EnterKeeps c P call.ui) → P s → P (runCalls c calls s)
  | [], _, _, hs => hs
  | call :: calls, s, he, hs => by
    unfold runCalls
    split
    · exact hs
    · exact runCalls_keeps hP calls (fun d hd => he d (.tail _ hd))
        (Call.apply_keeps c hP (he call (.head _)) hs)

end Keeps

/-! ### Every exit closes an enter -/

section Exits

variable {V : Type}

/-- Every exit of the context of `j` closes an earlier enter, and the context of the
current screen is open. -/
def ExitsClosed (j : Nat) (s : Tui V) : Prop :=
  ∃ d, openAfter 0 (ctxCalls j s.events) = some d ∧ (s.curScreen = some j → 0 < d)

lemma exitsClosed_enter {j : Nat} {s : Tui V} (k : Nat) {d : Nat}
    (hd : openAfter 0 (ctxCalls j s.events) = some d) :
    openAfter 0 (ctxCalls j (s.emit (.enter k "starting UI")).events) =
      some (if k = j then d + 1 else d) := by
  by_cases hk : k = j <;> simp [hk, openAfter_append, hd, openAfter]

lemma exitsClosed_keeps (j : Nat) : CtxKeeps (ExitsClosed j : Tui V → Prop) where
  appExit _ := fun ⟨d, hd, hc⟩ => ⟨d, by simpa using hd, hc⟩
  index _ _ h := h
  body _ _ h := h
  skipped s k hn := fun ⟨d, hd, _⟩ =>
    ⟨d, by by_cases hk : k = j <;> simp [hk, openAfter_append, hd, openAfter], by simp [hn]⟩
  settled s k _ := fun ⟨d, hd, _⟩ => by
    refine ⟨_, exitsClosed_enter k hd, fun h => ?_⟩
    simp only [Option.some.injEq] at h
    simp [h]
  leave s := fun ⟨d, hd, hc⟩ => by
    unfold Tui.leave
    split
    · exact ⟨d, hd, hc⟩
    · rename_i old hold
      refine ⟨if old = j then d - 1 else d, ?_, by simp [Tui.emit]⟩
      by_cases hj : old = j
      · subst hj
        obtain ⟨d, rfl⟩ : ∃ d', d = d' + 1 := ⟨d - 1, by have := hc hold; omega⟩
        simp [openAfter_append, hd, openAfter]
      · simp [hj, hd]

lemma exitsClosed_enterKeeps (c : Setup) (j : Nat) (ui : Nat → Except Exc (Shown V)) :
    EnterKeeps c (ExitsClosed j) ui := fun k _ _ hn ⟨_, hd, _⟩ =>
  ⟨_, exitsClosed_enter k hd, by simp [hn]⟩

/-- **Every exit closes an enter.** In every sequential run, whatever the screen filter
and whatever each `make_ui` does, every `context.exit` on a stage closes an earlier
`context.enter` of that stage not closed yet. -/
theorem runCalls_exits_closed (c : Setup) (calls : List (Call V)) (j : Nat) :
    (openAfter 0 (ctxCalls j (runCalls c calls Tui.init).events)).isSome := by
  obtain ⟨d, hd, -⟩ := runCalls_keeps c (exitsClosed_keeps j) calls
    (fun _ _ => exitsClosed_enterKeeps c j _) (⟨0, rfl, by simp [Tui.init]⟩ : ExitsClosed j Tui.init)
  simp [hd]

end Exits

/-! ### Without the filter and failures, contexts are bracketed -/

section Bracketed

variable {V : Type}

/-- The context of `j` is well bracketed, and open exactly while `j` is the current
screen. -/
def Bracketed (j : Nat) (s : Tui V) : Prop :=
  bracketAfter false (ctxCalls j s.events) = some (decide (s.curScreen = some j))

lemma bracketed_keeps (j : Nat) : CtxKeeps (Bracketed j : Tui V → Prop) where
  appExit _ h := by simpa [Bracketed] using h
  index _ _ h := h
  body _ _ h := h
  skipped s k hn h := by
    simp only [Bracketed, hn] at h ⊢
    by_cases hk : k = j <;> simp [hk, bracketAfter_append, h, bracketAfter, hn]
  settled s k hn h := by
    simp only [Bracketed, hn] at h ⊢
    by_cases hk : k = j <;> simp [hk, bracketAfter_append, h, bracketAfter]
  leave s h := by
    unfold Tui.leave
    split
    · exact h
    · rename_i old hold
      simp only [Bracketed, hold] at h ⊢
      by_cases hj : old = j
      · subst hj
        simp [bracketAfter_append, h, bracketAfter]
      · simpa [hj, Ne.symm hj] using h

/-- **Without the screen filter and failing constructions, contexts are bracketed.**
In a sequential run with no `opts.screens` filter, in which no `make_ui` raises
anything but `Skip` (a view factory may raise), the calls on each stage's context
alternate enter and exit, starting with an enter, and the context is open exactly
while the stage is `cur_screen`. -/
theorem runCalls_bracketed (c : Setup) (hc : c.screens = []) (calls : List (Call V))
    (hok : ∀ call ∈ calls, ∀ k e, call.ui k = .error e → e = .skip) (j : Nat) :
    bracketAfter false (ctxCalls j (runCalls c calls Tui.init).events) =
      some (decide ((runCalls c calls Tui.init).curScreen = some j)) := by
  refine runCalls_keeps c (bracketed_keeps j) calls (fun call hcall k _ hk => ?_)
    (by simp [Bracketed, Tui.init, bracketAfter, ctxCalls])
  rcases hk with hk | ⟨e, he, hne⟩
  · simp [Setup.screenedOut, hc] at hk
  · exact absurd (hok call hcall k e he) hne

/-- Stages `a` and `b`, no filter; `a`'s `make_ui` raises `Skip` on the way forward:
after `next_screen` and `prev_screen`, the context of `b` is closed, as `b` is no longer
the current screen. -/
theorem runCalls_bracketed_back :
    let calls : List (Call Nat) :=
      [.next none fun k => if k = 0 then .error .skip else .ok (.view 1), .prev fun _ => .ok (.view 2)]
    bracketAfter false (ctxCalls 1 (runCalls ⟨["a", "b"], []⟩ calls Tui.init).events) =
      some (decide ((runCalls ⟨["a", "b"], []⟩ calls Tui.init).curScreen = some 1)) := by
  intro calls
  refine runCalls_bracketed _ rfl calls ?_ 1
  simp only [calls, List.mem_cons, List.mem_singleton, List.not_mem_nil, or_false]
  rintro _ (rfl | rfl) k e he <;> simp only [Call.ui] at he
  · split at he <;> simp_all
  · cases he

end Bracketed

/-! ### A screened-out stage -/

/-- **The screen filter leaves a context open.** Stage `a` is not in
`opts.screens`, stage `b` is: after `next_screen` and `prev_screen` the context of
`a` has been entered twice and never exited. -/
theorem runCalls_screened_out_reenters :
    let c : Setup := ⟨["a", "b"], ["b"]⟩
    let calls : List (Call Nat) := [.next none fun _ => .ok (.view 1), .prev fun _ => .ok (.view 1)]
    ctxCalls 0 (runCalls c calls Tui.init).events = [true, true] ∧
    bracketAfter false (ctxCalls 0 (runCalls c calls Tui.init).events) = none := by
  decide

end Subiquity
