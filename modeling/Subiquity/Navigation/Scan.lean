import Mathlib.Data.List.Nodup
import Subiquity.Navigation.Basic

/-!
The skip scan of `_move_screen` (`subiquitycore/tui.py`) for a step `d = ±1`, over
any stage list, start index and pattern of skips and failures.

* `stepsFrom n i d`: the positions `i+d, i+2d, …` inside `[0, n)`, nearest first,
  and `stepsFrom_cons`, the step the loop takes through them.
* `scanOver`: the loop over that list, structurally: `scan_eq_scanOver` shows the
  fuelled loop of the source computes it, one pass per position and one more.
* `scanOver_*`: what the scan leaves: the stages it enters, the first one that does
  not skip, the index, `cur_screen` and the call of `self.exit()`.
-/

namespace Subiquity

variable {V : Type} (c : Setup) (ui : Nat → Except Exc (Shown V))

/-! ### The positions a move visits -/

/-- The positions `i+d, i+2d, …` that lie in `[0, n)`, nearest first, for a step
`d = ±1` from `-1 ≤ i < n`. -/
def stepsFrom (n : Nat) (i d : Int) : List Nat :=
  (List.range (if d = 1 then (n - 1 - i).toNat else i.toNat)).map
    fun t : Nat => (i + ((t : Int) + 1) * d).toNat

lemma stepsFrom_cons {n : Nat} {i d : Int} (hd : d = 1 ∨ d = -1) (h0 : 0 ≤ i + d)
    (hn : i + d < n) : stepsFrom n i d = (i + d).toNat :: stepsFrom n (i + d) d := by
  rcases hd with rfl | rfl
  · have hcount : (n - 1 - i).toNat = (n - 1 - (i + 1)).toNat + 1 := by omega
    simp only [stepsFrom, if_true, hcount, List.range_succ_eq_map, List.map_cons, List.map_map]
    congr 2
    funext t
    simp only [Function.comp, Nat.succ_eq_add_one, Int.natCast_add, Int.Nat.cast_ofNat_Int]
    omega
  · have hcount : i.toNat = (i + -1).toNat + 1 := by omega
    simp only [stepsFrom, show (-1 : Int) ≠ 1 by decide, if_false, hcount,
      List.range_succ_eq_map, List.map_cons, List.map_map]
    congr 2
    funext t
    simp only [Function.comp, Nat.succ_eq_add_one, Int.natCast_add, Int.Nat.cast_ofNat_Int]
    omega

lemma lt_of_mem_stepsFrom {n : Nat} {i d : Int} (hd : d = 1 ∨ d = -1) (hi : -1 ≤ i) (hin : i < n)
    {j : Nat}
    (hj : j ∈ stepsFrom n i d) : j < n := by
  simp only [stepsFrom, List.mem_map, List.mem_range] at hj
  obtain ⟨t, ht, rfl⟩ := hj
  rcases hd with rfl | rfl <;> simp at ht ⊢ <;> omega

lemma stepsFrom_nodup {n : Nat} {i d : Int} (hd : d = 1 ∨ d = -1) (hi : -1 ≤ i) :
    (stepsFrom n i d).Nodup := by
  refine List.Nodup.map_on (fun t ht u hu h => ?_) (List.nodup_range _)
  simp only [List.mem_range] at ht hu
  rcases hd with rfl | rfl <;> simp at ht hu h <;> omega

lemma length_stepsFrom_le {n : Nat} {i d : Int} (hd : d = 1 ∨ d = -1) (hi : -1 ≤ i)
    (hin : i < n) : (stepsFrom n i d).length ≤ n := by
  rcases hd with rfl | rfl <;> simp [stepsFrom] <;> omega

lemma stepsFrom_nil {n : Nat} {i d : Int} (hd : d = 1 ∨ d = -1) (hi : -1 ≤ i) (hin : i < n)
    (h : i + d < 0 ∨ n ≤ i + d) : stepsFrom n i d = [] := by
  rcases hd with rfl | rfl <;> simp [stepsFrom] <;> omega

/-! ### The scan over the visited positions -/

/-- Whether a `make_ui` outcome is raising `Skip`. -/
def raisesSkip : Except Exc (Shown V) → Bool
  | .error .skip => true
  | _ => false

/-- Whether `make_view_for_controller` raises `Skip` for the stage at `j`: it is
screened out, or its `make_ui` raises `Skip`. -/
def skips (j : Nat) : Bool := c.screenedOut j || raisesSkip (ui j)

/-- The calls `make_view_for_controller` makes on a stage that skips. -/
def skipEvents (j : Nat) : List Event :=
  if c.screenedOut j then [.enter j "starting UI"]
  else [.enter j "starting UI", .exit j "(skipped)"]

lemma makeViewForController_of_skips {j : Nat} (h : skips c ui j) (s : Tui V) :
    makeViewForController c j (ui j) s =
      ({ s with events := s.events ++ skipEvents c j }, .error .skip) := by
  unfold skips at h
  unfold makeViewForController skipEvents
  by_cases hs : c.screenedOut j
  · simp [hs, Tui.emit]
  · simp only [hs, Bool.false_or] at h
    rcases hr : ui j with e | x
    · cases e <;> simp_all [raisesSkip, Tui.emit, buildView]
    · simp_all [raisesSkip]

lemma makeViewForController_ne_skip {j : Nat} (h : skips c ui j = false) (s : Tui V) :
    (makeViewForController c j (ui j) s).2 ≠ .error .skip := by
  unfold skips at h
  simp only [Bool.or_eq_false_iff] at h
  unfold makeViewForController
  rcases hr : ui j with (_ | _ | _) | x <;> simp_all [raisesSkip, buildView]

/-- The end of the scan at the first stage `j` that does not skip: its view, or
its exception after `except Exception` restored the index. -/
def settle (curIndex : Int) (j : Nat) (s : Tui V) : Tui V × Except Exc (Option (Shown V)) :=
  afterBuild curIndex (makeViewForController c j (ui j) { s with index := j })

/-- The `while True` loop of `_move_screen` over the positions it visits. -/
def scanOver (d curIndex : Int) : List Nat → Tui V → Tui V × Except Exc (Option (Shown V))
  | [], s =>
    if d = 1 then ({ s with index := c.n }.emit .appExit, .ok none)
    else ({ s with index := curIndex }, .ok none)
  | j :: js, s =>
    if skips c ui j then
      scanOver d curIndex js { s with index := j, events := s.events ++ skipEvents c j }
    else settle c ui curIndex j s

/-- **The loop computes the scan.** From an index in `[-1, n)`, the fuelled loop of
the source, given a pass for each position and one more, ends as `scanOver` over
the positions `stepsFrom` lists. -/
theorem scan_eq_scanOver {d : Int} (hd : d = 1 ∨ d = -1) (curIndex : Int) :
    ∀ (fuel : Nat) (s : Tui V), -1 ≤ s.index → s.index < c.n →
      (stepsFrom c.n s.index d).length < fuel →
      scan c ui d curIndex fuel s = some (scanOver c ui d curIndex (stepsFrom c.n s.index d) s)
  | 0, _, _, _, hf => absurd hf (Nat.not_lt_zero _)
  | fuel + 1, s, hi, hn, hf => by
    by_cases hlo : s.index + d < 0
    · rw [stepsFrom_nil hd hi hn (.inl hlo)]
      have hd1 : d ≠ 1 := by rintro rfl; omega
      simp [scan, scanOver, hlo, hd1]
    by_cases hhi : (c.n : Int) ≤ s.index + d
    · rw [stepsFrom_nil hd hi hn (.inr hhi)]
      have hd1 : d = 1 := by rcases hd with rfl | rfl <;> omega
      subst hd1
      simp only [scan, hlo, hhi, if_false, if_true, scanOver]
      congr 4; omega
    rw [stepsFrom_cons hd (by omega) (by omega)] at hf ⊢
    simp only [scan, hlo, hhi, if_false, scanOver]
    have hj : ((s.index + d).toNat : Int) = s.index + d := by omega
    by_cases hsk : skips c ui (s.index + d).toNat
    · rw [if_pos hsk, makeViewForController_of_skips c ui hsk]
      simp only
      rw [← hj]
      exact scan_eq_scanOver hd curIndex fuel _ (by dsimp only; omega) (by dsimp only; omega)
        (by simp only [List.length_cons] at hf; simpa [hj] using hf)
    · rw [if_neg hsk, settle, hj]
      have hne := makeViewForController_ne_skip c ui (by simpa using hsk) { s with index := s.index + d }
      revert hne
      generalize makeViewForController c (s.index + d).toNat (ui (s.index + d).toNat)
        { s with index := s.index + d } = r
      rcases r with ⟨s', (_ | _ | _) | x⟩ <;> simp


/-! ### What the scan leaves -/

/-- The scan in closed form: the calls on the stages that skip, then the end at the
first stage that does not, or past the last position. -/
def scanResult (d curIndex : Int) (L : List Nat) (s : Tui V) :
    Tui V × Except Exc (Option (Shown V)) :=
  let s' := { s with events := s.events ++ (L.takeWhile (skips c ui)).flatMap (skipEvents c) }
  match L.find? (fun j => !skips c ui j) with
  | some j => settle c ui curIndex j s'
  | none =>
    if d = 1 then ({ s' with index := c.n }.emit .appExit, .ok none)
    else ({ s' with index := curIndex }, .ok none)

lemma scanOver_eq_scanResult (d curIndex : Int) :
    ∀ (L : List Nat) (s : Tui V), scanOver c ui d curIndex L s = scanResult c ui d curIndex L s
  | [], s => by simp [scanOver, scanResult]
  | j :: L, s => by
    by_cases h : skips c ui j
    · simp only [scanOver, h, if_true, scanOver_eq_scanResult d curIndex L]
      simp [scanResult, h, settle, List.takeWhile_cons, List.find?_cons, List.append_assoc]
    · simp [scanOver, scanResult, h, List.takeWhile_cons, List.find?_cons]


lemma settle_of_ok {curIndex : Int} {j : Nat} {x : Shown V} (hs : skips c ui j = false)
    (hx : ui j = .ok x) (s : Tui V) :
    settle c ui curIndex j s =
      ({ s with index := j, curScreen := some j, events := s.events ++ [.enter j "starting UI"] },
        .ok (some x)) := by
  simp only [skips, Bool.or_eq_false_iff] at hs
  simp [settle, makeViewForController, hs, hx, afterBuild, Tui.emit, buildView]

lemma settle_of_error {curIndex : Int} {j : Nat} {e : Exc} (hs : skips c ui j = false)
    (he : ui j = .error e) (s : Tui V) :
    settle c ui curIndex j s =
      ({ s with index := if e.isException then curIndex else j,
                events := s.events ++ [.enter j "starting UI"] }, .error e) := by
  simp only [skips, Bool.or_eq_false_iff] at hs
  cases e <;> simp_all [settle, makeViewForController, afterBuild, Tui.emit, raisesSkip,
    Exc.isException, buildView]

lemma isException_of_not_skips {j : Nat} {e : Exc} (hs : skips c ui j = false)
    (he : ui j = .error e) (hc : ui j ≠ .error .cancelled) : e.isException := by
  cases e
  · simp [skips, he, raisesSkip] at hs
  · rfl
  · exact absurd he hc

/-! ### The contract of `_move_screen` -/

/-- The stages whose context a list of calls enters: one for each call of
`make_view_for_controller`. -/
def entered : List Event → List Nat :=
  List.filterMap fun | .enter j _ => some j | _ => none

@[simp] lemma entered_append (a b : List Event) : entered (a ++ b) = entered a ++ entered b :=
  List.filterMap_append _ _ _

/-- The stages a move by `d` from `i` builds, by the contract: `i+d, i+2d, …` in
order, up to and including the first that does not raise `Skip`. -/
def visits (i d : Int) : List Nat :=
  (stepsFrom c.n i d).takeWhile (skips c ui) ++
    ((stepsFrom c.n i d).find? fun j => !skips c ui j).toList

lemma takeWhile_append_find_sublist (p : Nat → Bool) :
    ∀ L : List Nat, (L.takeWhile p ++ (L.find? fun j => !p j).toList).Sublist L
  | [] => by simp
  | j :: L => by
    by_cases h : p j
    · simpa [List.takeWhile_cons, List.find?_cons, h] using
        (takeWhile_append_find_sublist p L).cons₂ j
    · simp [List.takeWhile_cons, List.find?_cons, h]

lemma entered_flatMap_skipEvents (L : List Nat) :
    entered (L.flatMap (skipEvents c)) = L := by
  induction L with
  | nil => rfl
  | cons j L ih =>
    rw [List.flatMap_cons, entered, List.filterMap_append, ← entered, ih]
    unfold skipEvents
    split <;> rfl

lemma appExit_not_mem_flatMap_skipEvents (L : List Nat) :
    Event.appExit ∉ L.flatMap (skipEvents c) := by
  simp only [List.mem_flatMap, not_exists, not_and]
  intro j _
  unfold skipEvents
  split <;> simp

/-- Past a `coro` that does not raise, `_move_screen` is its loop. -/
lemma _moveScreen_of_ne_error (d : Int) {coro : Option (Except Exc Unit)}
    (hco : ∀ e, coro ≠ some (.error e)) (s : Tui V) :
    _moveScreen c ui d coro s = scan c ui d s.index (c.n + 1) s.leave := by
  rcases coro with _ | (e | u)
  · rfl
  · exact absurd rfl (hco e)
  · rfl

lemma _moveScreen_eq_scanResult {d : Int} (hd : d = 1 ∨ d = -1) {coro : Option (Except Exc Unit)}
    (hco : ∀ e, coro ≠ some (.error e)) (s : Tui V) (hi : -1 ≤ s.index) (hin : s.index < c.n) :
    _moveScreen c ui d coro s =
      some (scanResult c ui d s.index (stepsFrom c.n s.index d) s.leave) := by
  rw [_moveScreen_of_ne_error c ui d hco, scan_eq_scanOver c ui hd _ _ _ (by simpa) (by simpa)
    (by simpa using Nat.lt_succ_of_le (length_stepsFrom_le hd hi hin)), scanOver_eq_scanResult,
    Tui.leave_index]

/-- **The contract of `_move_screen`** for a step `d = ±1` from an index in
`[-1, n)`. When awaiting `coro` raises, the call re-raises and changes nothing, no
call on the current stage included. Otherwise it returns, after the calls on the
stage it leaves, having built the stages `visits` lists (`i+d, i+2d, …` in
order, each once, all in `[0, n)`, up to the first that does not raise `Skip`), and
ends in one of four ways: that stage's view, with the index on it; that stage's
exception, with the index restored and no current screen; no such stage moving
back, with the index restored and no `self.exit()`; or no such stage moving
forward, with the index at `n` and one `self.exit()`. -/
theorem _moveScreen_contract {d : Int} (hd : d = 1 ∨ d = -1) (coro : Option (Except Exc Unit))
    (s : Tui V) (hi : -1 ≤ s.index) (hin : s.index < c.n)
    (hui : ∀ j, ui j ≠ .error .cancelled) :
    (∀ e, coro = some (.error e) → _moveScreen c ui d coro s = some (s, .error e)) ∧
    ((∀ e, coro ≠ some (.error e)) → ∃ s' r evs,
      _moveScreen c ui d coro s = some (s', r) ∧ s'.events = s.leave.events ++ evs ∧
      s'.body = s.body ∧ entered evs = visits c ui s.index d ∧
      (visits c ui s.index d).Nodup ∧ (∀ j ∈ visits c ui s.index d, j < c.n) ∧
      (∀ j, (stepsFrom c.n s.index d).find? (fun j => !skips c ui j) = some j →
        (∃ x, ui j = .ok x ∧ r = .ok (some x) ∧ s'.index = j ∧ s'.curScreen = some j) ∨
        (∃ e, ui j = .error e ∧ r = .error e ∧ s'.index = s.index ∧ s'.curScreen = none)) ∧
      ((stepsFrom c.n s.index d).find? (fun j => !skips c ui j) = none →
        r = .ok none ∧ s'.curScreen = none ∧
        (d = -1 → s'.index = s.index ∧ Event.appExit ∉ evs) ∧
        (d = 1 → s'.index = c.n ∧ evs.count .appExit = 1))) := by
  refine ⟨fun e he => by subst he; rfl, fun hco => ?_⟩
  have hsub := takeWhile_append_find_sublist (skips c ui) (stepsFrom c.n s.index d)
  have hnodup := hsub.nodup (stepsFrom_nodup hd hi)
  have hlt : ∀ j ∈ visits c ui s.index d, j < c.n :=
    fun j hj => lt_of_mem_stepsFrom hd hi hin (hsub.subset hj)
  have hne := appExit_not_mem_flatMap_skipEvents c
    ((stepsFrom c.n s.index d).takeWhile (skips c ui))
  rw [_moveScreen_eq_scanResult c ui hd hco s hi hin]
  simp only [scanResult]
  rcases hf : (stepsFrom c.n s.index d).find? (fun j => !skips c ui j) with _ | j
  · simp only [visits, hf, Option.toList_none, List.append_nil] at hnodup hlt ⊢
    rcases hd with rfl | rfl
    · refine ⟨_, _, ((stepsFrom c.n s.index 1).takeWhile (skips c ui)).flatMap (skipEvents c) ++
        [.appExit], rfl, by simp, by simp, ?_, hnodup, hlt, by simp,
        fun _ => ⟨rfl, by simp, by simp, fun _ => ⟨rfl, ?_⟩⟩⟩
      · rw [entered_append, entered_flatMap_skipEvents]; exact List.append_nil _
      · simp [List.count_append, List.count_eq_zero_of_not_mem hne]
    · refine ⟨_, _, ((stepsFrom c.n s.index (-1)).takeWhile (skips c ui)).flatMap (skipEvents c),
        rfl, by simp, by simp, entered_flatMap_skipEvents c _, hnodup, hlt, by simp,
        fun _ => ⟨rfl, by simp, fun _ => ⟨rfl, hne⟩, by simp⟩⟩
  · have hj : skips c ui j = false := by simpa using List.find?_some hf
    simp only [visits, hf, Option.toList_some] at hnodup hlt ⊢
    have hent : entered (((stepsFrom c.n s.index d).takeWhile (skips c ui)).flatMap (skipEvents c)
        ++ [.enter j "starting UI"]) = (stepsFrom c.n s.index d).takeWhile (skips c ui) ++ [j] := by
      rw [entered_append, entered_flatMap_skipEvents]; rfl
    rcases hx : ui j with e | x
    · have he := isException_of_not_skips c ui hj hx (hui j)
      rw [settle_of_error c ui hj hx]
      refine ⟨_, _, _, rfl, by simp, by simp, hent, hnodup, hlt, fun j' hj' => .inr ?_, by simp⟩
      obtain rfl : j = j' := Option.some.inj hj'
      simp [hx, he]
    · rw [settle_of_ok c ui hj hx]
      refine ⟨_, _, _, rfl, by simp, by simp, hent, hnodup, hlt, fun j' hj' => .inl ?_, by simp⟩
      obtain rfl : j = j' := Option.some.inj hj'
      simp [hx]

/-- The contract where the first of two stages skips: moving forward from the start
builds both and settles on the second. -/
theorem _moveScreen_contract_skip_first :
    ∃ s', _moveScreen ⟨["a", "b"], []⟩ (fun j => if j = 0 then .error .skip else .ok (.view 7))
      1 none (Tui.init : Tui Nat) = some (s', .ok (some (.view 7))) ∧
      entered s'.events = [0, 1] ∧ s'.index = 1 := by
  obtain ⟨-, h⟩ := _moveScreen_contract ⟨["a", "b"], []⟩
    (fun j => if j = 0 then .error .skip else .ok (.view (7 : Nat))) (.inl rfl) none Tui.init
    (by decide) (by decide) (fun j => by dsimp only; split <;> simp)
  obtain ⟨s', r, evs, hm, hev, -, hent, -, -, hsome, -⟩ := h (fun e => by simp)
  obtain ⟨x, hx, rfl, hidx, -⟩ | ⟨e, he, -⟩ := hsome 1 (by decide)
  · obtain rfl : Shown.view 7 = x := by simpa using hx
    refine ⟨s', hm, ?_, hidx⟩
    rw [hev, entered_append, hent]
    decide
  · simp at he

end Subiquity
