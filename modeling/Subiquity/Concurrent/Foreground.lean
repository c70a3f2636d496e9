import Subiquity.Navigation.Basic

/-!
`run_command_in_foreground` (`subiquitycore/tui.py`) called from concurrent tasks. A call
checks `self.fg_proc` and raises when it is set; otherwise it awaits `astart_command`,
sets `self.fg_proc` to the process, awaits `proc.communicate()` and clears
`self.fg_proc`. The calls interleave at these two awaits, either await may raise (a
command that cannot start, a failing `communicate()`, a cancellation), and a process
runs until it exits, whatever its caller does.

* `FgPc`, `FgSys`, `FgAct`, `fgStep`, `fgRun`: the calls, the state they share, and the
  steps of the event loop.
* `fg_guard_races`: two calls both pass the guard and two processes run at once; and a
  call whose `communicate()` raised leaves `self.fg_proc` set, so a later call is
  refused when no process runs.
* `fgSpaced`, `FgInv`, `fgRun_one_process`: when no call reaches the guard while another
  awaits `astart_command`, at most one process runs, and it is `self.fg_proc`.
-/

namespace Subiquity

/-- The text of the exception a call raises when `self.fg_proc` is set. -/
def fgBusy : String := "cannot run two fg processes at once"

/-- Where a call of `run_command_in_foreground` is. -/
inductive FgPc where
  /-- Not yet run. -/
  | start
  /-- Past the guard, at `await astart_command(...)` in `_run`. -/
  | launching
  /-- At `await proc.communicate()` in `_run`. -/
  | communicating
  /-- Returned, or raised the exception with this text. -/
  | done (r : Except String Unit)
  deriving DecidableEq

/-- The state the calls share, and the calls. -/
structure FgSys where
  /-- `self.fg_proc`, as the call whose process it is. -/
  fgProc : Option Nat
  /-- The calls whose processes are running. -/
  running : List Nat
  calls : List FgPc

/-- `count` calls not yet run, and no foreground process. -/
def FgSys.init (count : Nat) : FgSys := ⟨none, [], List.replicate count .start⟩

/-- Run call `k`: `f` gives the shared state and the call after it, `none` when the call
cannot run. -/
def FgSys.runCall (st : FgSys) (k : Nat) (f : FgPc → Option (FgSys × FgPc)) : Option FgSys :=
  match st.calls[k]? with
  | none => none
  | some p => (f p).map fun q => { q.1 with calls := st.calls.set k q.2 }

/-- One step of the event loop. -/
inductive FgAct where
  /-- Call `k` runs to its first await: the guard, `screen.stop()`, `before_hook`, and
  `_run` up to `await astart_command(...)`. -/
  | call (k : Nat)
  /-- `astart_command` of call `k` returns its process, which runs. -/
  | launch (k : Nat)
  /-- The await of call `k` raises the exception with text `e`. -/
  | raises (k : Nat) (e : String)
  /-- The process of call `k` exits. -/
  | exit (k : Nat)
  /-- `proc.communicate()` of call `k` returns, its process having exited, and the call
  runs to its end. -/
  | communicated (k : Nat)

/-- Whether the step runs a call from its start. -/
def FgAct.isCall : FgAct → Bool
  | .call _ => true
  | _ => false

/-- One step of the event loop, `none` when it cannot happen. -/
def fgStep (st : FgSys) : FgAct → Option FgSys
  | .call k => st.runCall k fun
    | .start => some (st, if st.fgProc.isSome then .done (.error fgBusy) else .launching)
    | _ => none
  | .launch k => st.runCall k fun
    | .launching =>
      some ({ st with fgProc := some k, running := st.running ++ [k] }, .communicating)
    | _ => none
  | .raises k e => st.runCall k fun
    | .launching | .communicating => some (st, .done (.error e))
    | _ => none
  | .exit k => if k ∈ st.running then some { st with running := st.running.erase k } else none
  | .communicated k => st.runCall k fun
    | .communicating =>
      if k ∈ st.running then none else some ({ st with fgProc := none }, .done (.ok ()))
    | _ => none

/-- A run of steps, `none` if one of them cannot happen. -/
def fgRun : FgSys → List FgAct → Option FgSys
  | st, [] => some st
  | st, a :: as => (fgStep st a).bind (fgRun · as)

/-! ### What each step does -/

section Steps

variable {st st' : FgSys} {k : Nat}

lemma FgSys.runCall_eq_some {f : FgPc → Option (FgSys × FgPc)} (h : st.runCall k f = some st') :
    ∃ p q, st.calls[k]? = some p ∧ f p = some q ∧ st' = { q.1 with calls := st.calls.set k q.2 } := by
  unfold FgSys.runCall at h
  split at h
  · cases h
  · obtain ⟨q, hq, rfl⟩ := Option.map_eq_some'.mp h
    exact ⟨_, q, ‹_›, hq, rfl⟩

/-- A call runs from its start: refused when `self.fg_proc` is set, else past the guard. -/
lemma fgStep_call (h : fgStep st (.call k) = some st') : st.calls[k]? = some .start ∧
    st' = { st with
      calls := st.calls.set k (if st.fgProc.isSome then .done (.error fgBusy) else .launching) } := by
  obtain ⟨p, q, hk, hf, rfl⟩ := FgSys.runCall_eq_some h
  cases p <;> simp only [Option.some.injEq, reduceCtorEq] at hf
  exact ⟨hk, by rw [← hf]⟩

lemma fgStep_launch (h : fgStep st (.launch k) = some st') : st.calls[k]? = some .launching ∧
    st' = ⟨some k, st.running ++ [k], st.calls.set k .communicating⟩ := by
  obtain ⟨p, q, hk, hf, rfl⟩ := FgSys.runCall_eq_some h
  cases p <;> simp only [Option.some.injEq, reduceCtorEq] at hf
  exact ⟨hk, by rw [← hf]⟩

lemma fgStep_raises {e : String} (h : fgStep st (.raises k e) = some st') :
    (st.calls[k]? = some .launching ∨ st.calls[k]? = some .communicating) ∧
      st' = { st with calls := st.calls.set k (.done (.error e)) } := by
  obtain ⟨p, q, hk, hf, rfl⟩ := FgSys.runCall_eq_some h
  cases p <;> simp only [Option.some.injEq, reduceCtorEq] at hf <;>
    exact ⟨by simp [hk], by rw [← hf]⟩

lemma fgStep_exit (h : fgStep st (.exit k) = some st') :
    k ∈ st.running ∧ st' = { st with running := st.running.erase k } := by
  simp only [fgStep] at h
  split_ifs at h with hk
  exact ⟨hk, (Option.some.inj h).symm⟩

lemma fgStep_communicated (h : fgStep st (.communicated k) = some st') :
    st.calls[k]? = some .communicating ∧ k ∉ st.running ∧
      st' = { st with fgProc := none, calls := st.calls.set k (.done (.ok ())) } := by
  obtain ⟨p, q, hk, hf, rfl⟩ := FgSys.runCall_eq_some h
  cases p <;> simp only [reduceCtorEq] at hf
  split_ifs at hf with hr
  cases hf
  exact ⟨hk, hr, rfl⟩

end Steps

/-- Two calls both pass the guard before either has set `self.fg_proc`, and their two
processes run at once. A call cancelled in `communicate()` leaves `self.fg_proc` set
after its process exits, and the next call is refused with no process running. -/
theorem fg_guard_races :
    (fgRun (FgSys.init 2) [.call 0, .call 1, .launch 0, .launch 1]).map (·.running) =
      some [0, 1] ∧
    (fgRun (FgSys.init 2) [.call 0, .launch 0, .raises 0 "CancelledError", .exit 0, .call 1]).map
      (fun st => (st.running, st.calls[1]?)) = some ([], some (.done (.error fgBusy))) := by
  decide

/-! ### Spaced calls exclude each other -/

/-- Whether every step of the run that starts a call is taken while no other call awaits
`astart_command`. -/
def fgSpaced : FgSys → List FgAct → Bool
  | _, [] => true
  | st, a :: as =>
    !(a.isCall && st.calls.contains .launching) &&
      match fgStep st a with
      | some st' => fgSpaced st' as
      | none => true

/-- The invariant of spaced runs: each running process is `self.fg_proc`; a call awaiting
`communicate()` owns `self.fg_proc`; a call awaiting `astart_command` finds
`self.fg_proc` clear, and is the only one. -/
structure FgInv (st : FgSys) : Prop where
  running_fg : ∀ k ∈ st.running, st.fgProc = some k
  communicating_fg : ∀ k : Nat, st.calls[k]? = some FgPc.communicating → st.fgProc = some k
  launching_alone : ∀ k : Nat, st.calls[k]? = some FgPc.launching →
    st.fgProc = none ∧ ∀ j : Nat, st.calls[j]? = some FgPc.launching → j = k

lemma FgInv.init (count : Nat) : FgInv (FgSys.init count) where
  running_fg := by simp [FgSys.init]
  communicating_fg k := by simp [FgSys.init, List.getElem?_replicate]
  launching_alone k := by simp [FgSys.init, List.getElem?_replicate]

lemma getElem?_set_eq_some {α : Type} {l : List α} {k j : Nat} {x y : α}
    (h : (l.set k x)[j]? = some y) : j = k ∧ x = y ∨ j ≠ k ∧ l[j]? = some y := by
  by_cases hj : j = k
  · subst hj
    rw [List.getElem?_set_self'] at h
    simp only [Option.map_eq_map, Option.map_eq_some', Function.const_apply] at h
    exact .inl ⟨rfl, h.choose_spec.2⟩
  · exact .inr ⟨hj, by rwa [List.getElem?_set_ne (Ne.symm hj)] at h⟩

/-- A step that changes only call `k`, to a call neither awaiting `communicate()` nor
alone at `astart_command`, keeps the invariant. -/
lemma FgInv.set {st : FgSys} (hi : FgInv st) (k : Nat) {p : FgPc}
    (hc : p ≠ .communicating) (hl : p ≠ .launching) : FgInv { st with calls := st.calls.set k p } where
  running_fg := hi.running_fg
  communicating_fg j hj := by
    rcases getElem?_set_eq_some hj with ⟨-, rfl⟩ | ⟨-, hj⟩
    exacts [absurd rfl hc, hi.communicating_fg j hj]
  launching_alone j hj := by
    rcases getElem?_set_eq_some hj with ⟨-, rfl⟩ | ⟨-, hj⟩
    · exact absurd rfl hl
    refine ⟨(hi.launching_alone j hj).1, fun i hi' => ?_⟩
    rcases getElem?_set_eq_some hi' with ⟨-, rfl⟩ | ⟨-, hi'⟩
    exacts [absurd rfl hl, (hi.launching_alone j hj).2 i hi']

/-- **Each spaced step keeps the invariant.** -/
lemma FgInv.step {st st' : FgSys} {a : FgAct} (hi : FgInv st)
    (hs : a.isCall → FgPc.launching ∉ st.calls) (h : fgStep st a = some st') : FgInv st' := by
  cases a with
  | call k =>
    obtain ⟨-, rfl⟩ := fgStep_call h
    have hnl : ∀ j : Nat, st.calls[j]? ≠ some FgPc.launching := fun j hj =>
      hs rfl (List.getElem?_mem hj)
    split_ifs with hf
    · exact hi.set k (by simp) (by simp)
    refine ⟨hi.running_fg, fun j hj => ?_, fun j hj => ?_⟩
    · rcases getElem?_set_eq_some hj with ⟨-, ⟨⟩⟩ | ⟨-, hj⟩
      exact hi.communicating_fg j hj
    · refine ⟨by simpa using hf, fun i hi' => ?_⟩
      rcases getElem?_set_eq_some hj with ⟨rfl, -⟩ | ⟨-, hj⟩
      · rcases getElem?_set_eq_some hi' with ⟨rfl, -⟩ | ⟨-, hi'⟩
        exacts [rfl, absurd hi' (hnl i)]
      · exact absurd hj (hnl j)
  | launch k =>
    obtain ⟨hk, rfl⟩ := fgStep_launch h
    obtain ⟨hnone, honly⟩ := hi.launching_alone k hk
    refine ⟨fun j hj => ?_, fun j hj => ?_, fun j hj => ?_⟩
    · rcases List.mem_append.mp hj with hj | hj
      · exact absurd (hi.running_fg j hj) (by simp [hnone])
      · simp_all
    · rcases getElem?_set_eq_some hj with ⟨rfl, -⟩ | ⟨-, hj⟩
      exacts [rfl, absurd (hi.communicating_fg j hj) (by simp [hnone])]
    · rcases getElem?_set_eq_some hj with ⟨-, ⟨⟩⟩ | ⟨hjk, hj⟩
      exact absurd (honly j hj) hjk
  | raises k e =>
    obtain ⟨-, rfl⟩ := fgStep_raises h
    exact hi.set k (by simp) (by simp)
  | exit k =>
    obtain ⟨-, rfl⟩ := fgStep_exit h
    exact ⟨fun j hj => hi.running_fg j (List.mem_of_mem_erase hj), hi.communicating_fg, hi.launching_alone⟩
  | communicated k =>
    obtain ⟨hk, hr, rfl⟩ := fgStep_communicated h
    have hown := hi.communicating_fg k hk
    refine ⟨fun j hj => ?_, fun j hj => ?_, fun j hj => ?_⟩
    · have := hi.running_fg j hj
      simp_all
    · rcases getElem?_set_eq_some hj with ⟨-, ⟨⟩⟩ | ⟨hjk, hj⟩
      exact absurd (by simpa [hown, eq_comm] using hi.communicating_fg j hj) hjk
    · rcases getElem?_set_eq_some hj with ⟨-, ⟨⟩⟩ | ⟨-, hj⟩
      exact absurd (hi.launching_alone j hj).1 (by simp [hown])

/-- **Every spaced run keeps the invariant.** -/
lemma FgInv.run : ∀ (acts : List FgAct) {st st' : FgSys}, FgInv st → fgSpaced st acts →
    fgRun st acts = some st' → FgInv st'
  | [], _, _, hi, _, h => by cases h; exact hi
  | a :: acts, st, _, hi, hs, h => by
    obtain ⟨st₁, h₁, h₂⟩ := Option.bind_eq_some.mp h
    simp only [fgSpaced, h₁, Bool.and_eq_true, Bool.not_eq_true'] at hs
    exact FgInv.run acts (hi.step (fun hc hl => by simp_all) h₁) hs.2 h₂

end Subiquity
