import Subiquity.Concurrent.Foreground

/-!
The screen of the urwid loop around foreground processes (`subiquitycore/tui.py`).
`run_command_in_foreground` stops the screen once past its guard, before `before_hook`
and `_run`, and `_run` starts it again once `proc.communicate()` has returned;
`redraw_screen` draws only when there is a loop and its screen is started. The screen is
a layer over the foreground calls: each step of it is a step of `fgStep`.

* `redrawScreen`, `FgScreen`, `screenAfter`, `fgScreenStep`, `fgScreenRun`: the redraw,
  the calls with the screen, and their steps and runs; `fgScreenRun_fg`: the calls run
  as `fgRun` runs them.
* `ScreenInv`: in spaced runs the screen is stopped while a call is past its guard, and
  while a process runs; `redraw_never_over_process`: so `redraw_screen` never draws over
  a foreground process.
* `Jammed`, `communicate_raise_jams`: a call whose `communicate()` raises leaves
  `self.fg_proc` set and the screen stopped for good: whatever happens next, every later
  call is refused and no redraw draws.
* `stopped_run`, `launch_raise_stops_screen`: a call whose `astart_command` raises leaves
  `self.fg_proc` clear but the screen stopped, until some call's `communicate()` returns.
-/

namespace Subiquity

/-- `redraw_screen()`: whether it calls `draw_screen()`. `urwidLoop` is `self.urwid_loop`,
given by whether its screen is started, `none` before `start_urwid` made it. -/
def redrawScreen : Option Bool → Bool
  | none => false
  | some started => started

/-- The calls of `run_command_in_foreground`, and whether the screen of the urwid loop is
started. -/
structure FgScreen where
  fg : FgSys
  started : Bool

/-- `count` calls not yet run, and the screen `start_urwid` started. -/
def FgScreen.init (count : Nat) : FgScreen := ⟨FgSys.init count, true⟩

/-- The screen after a step of the calls from `st`: a call past the guard runs
`screen.stop()`, and a call whose `communicate()` returned runs `screen.start()`. -/
def screenAfter (st : FgSys) (started : Bool) : FgAct → Bool
  | .call _ => if st.fgProc.isSome then started else false
  | .communicated _ => true
  | _ => started

/-- One step of the event loop, `none` when it cannot happen. -/
def fgScreenStep (sc : FgScreen) (a : FgAct) : Option FgScreen :=
  (fgStep sc.fg a).map fun fg => ⟨fg, screenAfter sc.fg sc.started a⟩

/-- A run of steps, `none` if one of them cannot happen. -/
def fgScreenRun : FgScreen → List FgAct → Option FgScreen
  | sc, [] => some sc
  | sc, a :: as => (fgScreenStep sc a).bind (fgScreenRun · as)

/-- Past the guard and not done: awaiting `astart_command` or `communicate()`. -/
def FgPc.pastGuard : FgPc → Bool
  | .launching | .communicating => true
  | _ => false

lemma fgScreenStep_eq_some {sc sc' : FgScreen} {a : FgAct} (h : fgScreenStep sc a = some sc') :
    fgStep sc.fg a = some sc'.fg ∧ sc'.started = screenAfter sc.fg sc.started a := by
  obtain ⟨fg, hfg, rfl⟩ := Option.map_eq_some'.mp h
  exact ⟨hfg, rfl⟩

/-- The calls of a run of the layer are those of the run of `fgRun`. -/
lemma fgScreenRun_fg : ∀ {sc sc' : FgScreen} {acts : List FgAct},
    fgScreenRun sc acts = some sc' → fgRun sc.fg acts = some sc'.fg
  | _, _, [], h => by cases h; rfl
  | _, _, a :: acts, h => by
    obtain ⟨sc₁, h₁, h₂⟩ := Option.bind_eq_some.mp h
    exact Option.bind_eq_some.mpr ⟨sc₁.fg, (fgScreenStep_eq_some h₁).1, fgScreenRun_fg h₂⟩

/-- The spacing of a run is read off its calls. -/
lemma fgSpaced_of_cons {st st' : FgSys} {a : FgAct} {acts : List FgAct}
    (hs : fgSpaced st (a :: acts)) (h : fgStep st a = some st') :
    (a.isCall → FgPc.launching ∉ st.calls) ∧ fgSpaced st' acts := by
  simp only [fgSpaced, h, Bool.and_eq_true, Bool.not_eq_true'] at hs
  exact ⟨fun hc hl => by simp_all, hs.2⟩

/-! ### No redraw over a process -/

/-- **The invariant of spaced runs**: the calls keep `FgInv`, the screen is stopped while a
call is past its guard, and a started screen has no process under it. -/
structure ScreenInv (sc : FgScreen) : Prop where
  fg : FgInv sc.fg
  past_guard : ∀ (k : Nat) (p : FgPc), sc.fg.calls[k]? = some p → p.pastGuard → sc.started = false
  started_idle : sc.started = true → sc.fg.running = []

lemma ScreenInv.init (count : Nat) : ScreenInv (FgScreen.init count) where
  fg := FgInv.init count
  past_guard k p hp := by
    simp only [FgScreen.init, FgSys.init, List.getElem?_replicate] at hp
    split_ifs at hp
    cases hp
    exact fun h => nomatch h
  started_idle _ := rfl

/-- A call whose `communicate()` returns is the only call past its guard, and its process
is the only one that can run. -/
lemma FgInv.communicated_alone {st : FgSys} (hi : FgInv st) {k : Nat}
    (hk : st.calls[k]? = some .communicating) :
    (∀ j p, st.calls[j]? = some p → p.pastGuard → j = k) ∧ ∀ j ∈ st.running, j = k := by
  have hown := hi.communicating_fg k hk
  refine ⟨fun j p hj hp => ?_, fun j hj => Option.some.inj ((hi.running_fg j hj).symm.trans hown)⟩
  cases p <;> simp only [FgPc.pastGuard, reduceCtorEq] at hp
  · simp [(hi.launching_alone j hj).1] at hown
  · exact Option.some.inj ((hi.communicating_fg j hj).symm.trans hown)

/-- **Each spaced step keeps the invariant.** A step stops the screen, or runs a call past
its guard, under a stopped screen; a refused call and an exiting process leave the screen
as it was; and a call whose `communicate()` returns starts it when it is the only call past
its guard and no process runs. -/
lemma ScreenInv.step {sc sc' : FgScreen} {a : FgAct} (hi : ScreenInv sc)
    (hs : a.isCall → FgPc.launching ∉ sc.fg.calls) (h : fgScreenStep sc a = some sc') :
    ScreenInv sc' := by
  obtain ⟨hfg, hst⟩ := fgScreenStep_eq_some h
  have hinv := hi.fg.step hs hfg
  have stopped (hb : sc'.started = false) : ScreenInv sc' :=
    ⟨hinv, fun _ _ _ _ => hb, fun h => by simp [hb] at h⟩
  cases a with
  | call k =>
    obtain ⟨-, hfg'⟩ := fgStep_call hfg
    by_cases hp : sc.fg.fgProc.isSome
    · simp only [screenAfter, hp, if_true] at hst
      refine ⟨hinv, fun j p hj hpg => hst ▸ hi.past_guard j p ?_ hpg,
        fun hb => hfg' ▸ hi.started_idle (hst ▸ hb)⟩
      rw [hfg', if_pos hp] at hj
      rcases getElem?_set_eq_some hj with ⟨-, rfl⟩ | ⟨-, hj⟩
      exacts [absurd hpg (by simp [FgPc.pastGuard]), hj]
    · exact stopped (by simpa [screenAfter, hp] using hst)
  | launch k => exact stopped (hst.trans (hi.past_guard k _ (fgStep_launch hfg).1 rfl))
  | raises k e =>
    rcases (fgStep_raises hfg).1 with hk | hk <;> exact stopped (hst.trans (hi.past_guard k _ hk rfl))
  | exit k =>
    obtain ⟨-, hfg'⟩ := fgStep_exit hfg
    simp only [screenAfter] at hst
    refine ⟨hinv, fun j p hj hpg => hst ▸ hi.past_guard j p (by rwa [hfg'] at hj) hpg, fun hb => ?_⟩
    rw [hfg', hi.started_idle (hst ▸ hb)]
    rfl
  | communicated k =>
    obtain ⟨hk, hr, hfg'⟩ := fgStep_communicated hfg
    obtain ⟨halone, hrun⟩ := hi.fg.communicated_alone hk
    refine ⟨hinv, fun j p hj hpg => ?_, fun _ => ?_⟩
    · rw [hfg'] at hj
      rcases getElem?_set_eq_some hj with ⟨-, rfl⟩ | ⟨hjk, hj⟩
      exacts [absurd hpg (by simp [FgPc.pastGuard]), absurd (halone j p hj hpg) hjk]
    · rw [hfg']
      exact List.eq_nil_iff_forall_not_mem.mpr fun j hj => hr (hrun j hj ▸ hj)

/-- **Every spaced run keeps the invariant.** -/
lemma ScreenInv.run : ∀ (acts : List FgAct) {sc sc' : FgScreen}, ScreenInv sc →
    fgSpaced sc.fg acts → fgScreenRun sc acts = some sc' → ScreenInv sc'
  | [], _, _, hi, _, h => by cases h; exact hi
  | a :: acts, _, _, hi, hs, h => by
    obtain ⟨sc₁, h₁, h₂⟩ := Option.bind_eq_some.mp h
    have hsp := fgSpaced_of_cons hs (fgScreenStep_eq_some h₁).1
    exact ScreenInv.run acts (hi.step hsp.1 h₁) hsp.2 h₂

/-- **No redraw over a foreground process.** In every run of `count` calls in which no
call reaches the guard while another awaits `astart_command`, whatever the commands and
the cancellations do: when `redraw_screen` draws, no foreground process runs and no call
is between its guard and its end. -/
theorem redraw_never_over_process (count : Nat) (acts : List FgAct) (sc : FgScreen)
    (hs : fgSpaced (FgSys.init count) acts) (h : fgScreenRun (FgScreen.init count) acts = some sc)
    (hd : redrawScreen (some sc.started)) :
    sc.fg.running = [] ∧ ∀ (k : Nat) (p : FgPc), sc.fg.calls[k]? = some p → p.pastGuard = false := by
  have hi := (ScreenInv.init count).run acts hs h
  refine ⟨hi.started_idle hd, fun k p hk => Bool.eq_false_iff.mpr fun hp => ?_⟩
  simp [hi.past_guard k p hk hp, redrawScreen] at hd

/-- Two calls, the second refused while the first's process runs: the redraw after the
first has returned draws, with no process left. -/
theorem redraw_never_over_process_after_exit :
    fgSpaced (FgSys.init 2) [.call 0, .launch 0, .call 1, .exit 0, .communicated 0] ∧
    ∃ sc, fgScreenRun (FgScreen.init 2) [.call 0, .launch 0, .call 1, .exit 0, .communicated 0] =
      some sc ∧ redrawScreen (some sc.started) ∧
      (sc.fg.running = [] ∧ ∀ (k : Nat) (p : FgPc), sc.fg.calls[k]? = some p → p.pastGuard = false) :=
  ⟨by decide, _, rfl, rfl, redraw_never_over_process 2
    [.call 0, .launch 0, .call 1, .exit 0, .communicated 0] _ (by decide) rfl rfl⟩

/-! ### A raising `communicate()` jams the calls -/

/-- Call `k` owns `self.fg_proc`, no call is past its guard, and the screen is stopped:
what a raising `communicate()` of `k` leaves. -/
structure Jammed (k : Nat) (sc : FgScreen) : Prop where
  fg_proc : sc.fg.fgProc = some k
  stopped : sc.started = false
  idle : ∀ (j : Nat) (p : FgPc), sc.fg.calls[j]? = some p → p.pastGuard = false

/-- From `sc` to `sc'`, each call is as it was, or was not yet run and has been refused. -/
def Refused (sc sc' : FgScreen) : Prop :=
  ∀ j : Nat, sc'.fg.calls[j]? = sc.fg.calls[j]? ∨
    sc.fg.calls[j]? = some .start ∧ sc'.fg.calls[j]? = some (.done (.error fgBusy))

lemma Refused.trans {sc₁ sc₂ sc₃ : FgScreen} (h₁ : Refused sc₁ sc₂) (h₂ : Refused sc₂ sc₃) :
    Refused sc₁ sc₃ := fun j => by
  rcases h₁ j with h₁ | ⟨hs, hb⟩ <;> rcases h₂ j with h₂ | ⟨hs', hb'⟩
  · exact .inl (h₂.trans h₁)
  · exact .inr ⟨h₁ ▸ hs', hb'⟩
  · exact .inr ⟨hs, h₂.trans hb⟩
  · simp [hb] at hs'

/-- **Each step keeps a jam**, spaced or not: only a call not yet run, which is refused,
or an exiting process can step. -/
lemma Jammed.step {k : Nat} {sc sc' : FgScreen} {a : FgAct} (hj : Jammed k sc)
    (h : fgScreenStep sc a = some sc') : Jammed k sc' ∧ Refused sc sc' := by
  obtain ⟨hfg, hst⟩ := fgScreenStep_eq_some h
  have busy (i : Nat) (p : FgPc) (hi : sc.fg.calls[i]? = some p) (hp : p.pastGuard) : False := by
    simp [hj.idle i p hi] at hp
  cases a with
  | call i =>
    obtain ⟨hi, hfg'⟩ := fgStep_call hfg
    simp only [screenAfter, hj.fg_proc, Option.isSome_some, if_true] at hst hfg'
    refine ⟨⟨by rw [hfg'], hst.trans hj.stopped, fun j p hp => ?_⟩, fun j => ?_⟩
    · rw [hfg'] at hp
      rcases getElem?_set_eq_some hp with ⟨-, rfl⟩ | ⟨-, hp⟩
      exacts [rfl, hj.idle j p hp]
    · rw [hfg']
      by_cases hji : i = j
      · subst hji
        exact .inr ⟨hi, by simp [List.getElem?_set_self (List.getElem?_eq_some_iff.mp hi).1]⟩
      · exact .inl (List.getElem?_set_ne hji)
  | launch i => exact (busy i _ (fgStep_launch hfg).1 rfl).elim
  | raises i e => rcases (fgStep_raises hfg).1 with hi | hi <;> exact (busy i _ hi rfl).elim
  | exit i =>
    obtain ⟨-, hfg'⟩ := fgStep_exit hfg
    exact ⟨⟨by rw [hfg', hj.fg_proc], hst.trans hj.stopped, fun j p hp => hj.idle j p (by rwa [hfg'] at hp)⟩,
      fun j => .inl (by rw [hfg'])⟩
  | communicated i => exact (busy i _ (fgStep_communicated hfg).1 rfl).elim

/-- **Every run keeps a jam.** -/
lemma Jammed.run {k : Nat} : ∀ (acts : List FgAct) {sc sc' : FgScreen}, Jammed k sc →
    fgScreenRun sc acts = some sc' → Jammed k sc' ∧ Refused sc sc'
  | [], _, _, hj, h => by cases h; exact ⟨hj, fun _ => .inl rfl⟩
  | a :: acts, _, _, hj, h => by
    obtain ⟨sc₁, h₁, h₂⟩ := Option.bind_eq_some.mp h
    obtain ⟨hj₁, hr₁⟩ := hj.step h₁
    obtain ⟨hj', hr'⟩ := Jammed.run acts hj₁ h₂
    exact ⟨hj', hr₁.trans hr'⟩

/-- **A raising `communicate()` jams the foreground for good.** In a spaced run, let the
`communicate()` of a call raise (a cancellation, say). Then whatever happens next, spaced or
not: `self.fg_proc` stays that call's, the screen stays stopped so that no
`redraw_screen` draws, and every call not yet run is refused when it runs. -/
theorem communicate_raise_jams (count : Nat) (acts : List FgAct) (sc : FgScreen)
    (hs : fgSpaced (FgSys.init count) acts) (h : fgScreenRun (FgScreen.init count) acts = some sc)
    (k : Nat) (hk : sc.fg.calls[k]? = some .communicating) (e : String) (acts' : List FgAct)
    (sc' : FgScreen) (h' : fgScreenRun sc (.raises k e :: acts') = some sc') :
    sc'.fg.fgProc = some k ∧ redrawScreen (some sc'.started) = false ∧
      ∀ j : Nat, sc.fg.calls[j]? = some .start →
        sc'.fg.calls[j]? = some .start ∨ sc'.fg.calls[j]? = some (.done (.error fgBusy)) := by
  have hi := (ScreenInv.init count).run acts hs h
  obtain ⟨sc₁, h₁, h₂⟩ := Option.bind_eq_some.mp h'
  obtain ⟨hfg, hst⟩ := fgScreenStep_eq_some h₁
  obtain ⟨-, hfg'⟩ := fgStep_raises hfg
  have hjam : Jammed k sc₁ := by
    refine ⟨by rw [hfg']; exact hi.fg.communicating_fg k hk,
      hst.trans (hi.past_guard k _ hk rfl), fun j p hj => ?_⟩
    rw [hfg'] at hj
    rcases getElem?_set_eq_some hj with ⟨-, rfl⟩ | ⟨hjk, hj⟩
    · rfl
    · exact Bool.eq_false_iff.mpr fun hp => hjk ((hi.fg.communicated_alone hk).1 j p hj hp)
  obtain ⟨hj', hr⟩ := hjam.run acts' h₂
  refine ⟨hj'.fg_proc, hj'.stopped, fun j hj => ?_⟩
  have hjk : k ≠ j := by rintro rfl; simp [hk] at hj
  have hj₁ : sc₁.fg.calls[j]? = some .start := by rw [hfg', List.getElem?_set_ne hjk, hj]
  rcases hr j with heq | ⟨-, hb⟩
  exacts [.inl (heq.trans hj₁), .inr hb]

/-- A call cancelled while its process runs: after its process exits, the screen is still
stopped and the next call is refused. -/
theorem communicate_raise_jams_cancelled :
    fgSpaced (FgSys.init 2) [.call 0, .launch 0] ∧
    ∃ sc sc', fgScreenRun (FgScreen.init 2) [.call 0, .launch 0] = some sc ∧
      sc.fg.calls[0]? = some .communicating ∧
      fgScreenRun sc [.raises 0 "CancelledError", .exit 0, .call 1] = some sc' ∧
      (sc'.fg.fgProc = some 0 ∧ redrawScreen (some sc'.started) = false ∧
        ∀ j : Nat, sc.fg.calls[j]? = some .start →
          sc'.fg.calls[j]? = some .start ∨ sc'.fg.calls[j]? = some (.done (.error fgBusy))) :=
  ⟨by decide, _, _, rfl, rfl, rfl, communicate_raise_jams 2 [.call 0, .launch 0] _ (by decide) rfl 0
    rfl _ [.exit 0, .call 1] _ rfl⟩

/-! ### A raising `astart_command` leaves the screen stopped -/

/-- Only a call whose `communicate()` returns starts the screen. -/
lemma stopped_run : ∀ (acts : List FgAct) {sc sc' : FgScreen}, sc.started = false →
    (∀ j, FgAct.communicated j ∉ acts) → fgScreenRun sc acts = some sc' → sc'.started = false
  | [], _, _, hs, _, h => by cases h; exact hs
  | a :: acts, _, _, hs, hc, h => by
    obtain ⟨sc₁, h₁, h₂⟩ := Option.bind_eq_some.mp h
    refine stopped_run acts ?_ (fun j hj => hc j (.tail _ hj)) h₂
    rw [(fgScreenStep_eq_some h₁).2]
    cases a with
    | call k => simp [screenAfter, hs]
    | communicated k => exact absurd (.head _) (hc k)
    | _ => exact hs

/-- **A raising `astart_command` leaves the screen stopped.** In a spaced run, let the
`astart_command` of a call raise (its command cannot be started, say). Then
`self.fg_proc` is still clear, so later calls get past the guard; but the screen that
call stopped stays stopped, so that no `redraw_screen` draws, through every later step,
spaced or not, until some call's `communicate()` returns. -/
theorem launch_raise_stops_screen (count : Nat) (acts : List FgAct) (sc : FgScreen)
    (hs : fgSpaced (FgSys.init count) acts) (h : fgScreenRun (FgScreen.init count) acts = some sc)
    (k : Nat) (hk : sc.fg.calls[k]? = some .launching) (e : String) (acts' : List FgAct)
    (sc' : FgScreen) (h' : fgScreenRun sc (.raises k e :: acts') = some sc')
    (hc : ∀ j, FgAct.communicated j ∉ acts') :
    (∃ sc₁, fgScreenStep sc (.raises k e) = some sc₁ ∧ sc₁.fg.fgProc = none) ∧
      redrawScreen (some sc'.started) = false := by
  have hi := (ScreenInv.init count).run acts hs h
  obtain ⟨sc₁, h₁, h₂⟩ := Option.bind_eq_some.mp h'
  obtain ⟨hfg, hst⟩ := fgScreenStep_eq_some h₁
  obtain ⟨-, hfg'⟩ := fgStep_raises hfg
  refine ⟨⟨sc₁, h₁, by rw [hfg']; exact (hi.fg.launching_alone k hk).1⟩, ?_⟩
  exact stopped_run acts' (hst.trans (hi.past_guard k _ hk rfl)) hc h₂

/-- A command that cannot be started: the next call gets past the guard, and the screen
is still stopped. -/
theorem launch_raise_stops_screen_next_call :
    fgSpaced (FgSys.init 2) [.call 0] ∧
    ∃ sc sc', fgScreenRun (FgScreen.init 2) [.call 0] = some sc ∧
      sc.fg.calls[0]? = some .launching ∧
      fgScreenRun sc [.raises 0 "FileNotFoundError", .call 1] = some sc' ∧
      sc'.fg.calls[1]? = some .launching ∧
      ((∃ sc₁, fgScreenStep sc (.raises 0 "FileNotFoundError") = some sc₁ ∧ sc₁.fg.fgProc = none) ∧
        redrawScreen (some sc'.started) = false) :=
  ⟨by decide, _, _, rfl, rfl, rfl, rfl, launch_raise_stops_screen 2 [.call 0] _ (by decide) rfl 0
    rfl _ [.call 1] _ rfl (by simp)⟩

end Subiquity
