import RealTimeTransfer.Systems.Tolerance

/-!
# The reported delay

The user function is told how long the iteration has waited for the send before.  In the trace of a
run the iteration is what follows the last tick.

* `sleeps`, `polls`   the sleeps of the present iteration, and the answers of `is_send_done`;
* `Iterating`         the counter of the tolerance loop, and the answers that led to the present
                      point;
* `delay_iff`         the delay reported is the time slept, in whole milliseconds, if and only if
                      the loop did not sleep or the call is a skipped one;
* `delay_doubled`     a normal call after two sleeps.
-/

namespace RealTimeTransfer
open Machines Words

namespace SystemEvent

/-- the start of an iteration -/
def opens : SystemEvent → Bool
  | .startTimer _ | .tick _ => true
  | _ => false

def isSleep : SystemEvent → Bool
  | .sleepUs _ => true
  | _ => false

def asPoll : SystemEvent → Option Bool
  | .isSendDone b => some b
  | _ => none

end SystemEvent

/-- the events of the present iteration -/
def iteration (es : List SystemEvent) : List SystemEvent := es.rtakeWhile fun e => !e.opens

/-- the sleeps of the present iteration -/
def sleeps (es : List SystemEvent) : Nat := (iteration es).countP SystemEvent.isSleep

/-- the answers of `is_send_done` in the present iteration -/
def polls (es : List SystemEvent) : List Bool := (iteration es).filterMap SystemEvent.asPoll

/-- `get_delayed_time_ms` -/
def RealTimeInfo.getDelayedTimeMs (A : FastInts) (i : RealTimeInfo) : Nat := toU A.w32 i.delayedMs

section
variable {es : List SystemEvent} {e : SystemEvent}

theorem iteration_opens (he : e.opens = true) : iteration (es ++ [e]) = [] :=
  List.rtakeWhile_concat_neg _ _ _ (by rw [he]; nofun)

theorem iteration_snoc (he : e.opens = false) : iteration (es ++ [e]) = iteration es ++ [e] :=
  List.rtakeWhile_concat_pos _ _ _ (by rw [he]; rfl)

theorem sleeps_snoc (he : e.opens = false) (hs : e.isSleep = false) :
    sleeps (es ++ [e]) = sleeps es := by
  unfold sleeps
  rw [iteration_snoc he, List.countP_append, List.countP_singleton, hs]
  rfl

theorem sleeps_sleep (n : Nat) : sleeps (es ++ [.sleepUs n]) = sleeps es + 1 := by
  unfold sleeps
  rw [iteration_snoc rfl, List.countP_append]
  rfl

theorem polls_snoc (he : e.opens = false) : polls (es ++ [e]) = polls es ++ e.asPoll.toList := by
  unfold polls
  rw [iteration_snoc he, List.filterMap_append]
  cases e <;> rfl

theorem opened (h : iteration es = []) : sleeps (es ++ [.tau]) = 0 ∧ polls (es ++ [.tau]) = [] := by
  rw [sleeps_snoc rfl rfl, polls_snoc rfl]
  simp [sleeps, polls, h, SystemEvent.asPoll]

end

/-! ## The tolerance loop -/

/-- the answers `l` of a tolerance loop that has ended after `j` sleeps, at the tolerance `m` -/
inductive Waited (m j : Nat) : List Bool → Prop where
  | timeUsed : j = 2 * m → Waited m j (List.replicate j false)
  | done : j < 2 * m → Waited m j (List.replicate j false ++ [true])

/-- the trace of an iteration at the point of `s`, before its user call -/
def Iterating (es : List SystemEvent) (s : RealTimeSystem) : Prop :=
  match s.pc with
  | .loopTop => iteration es = []
  | .toleranceTest =>
    s.usedToleratedTime = sleeps es ∧ sleeps es ≤ 2 * s.msTolerance ∧
      polls es = List.replicate (sleeps es) false
  | .toleranceSleep =>
    s.usedToleratedTime = sleeps es ∧ sleeps es < 2 * s.msTolerance ∧
      polls es = List.replicate (sleeps es + 1) false
  | .doneTest =>
    s.usedToleratedTime = sleeps es ∧ Waited s.msTolerance (sleeps es) (polls es)
  | .skipTest =>
    s.usedToleratedTime = sleeps es ∧
      ∃ l b, Waited s.msTolerance (sleeps es) l ∧ polls es = l ++ [b]
  | .skipCall =>
    s.usedToleratedTime = sleeps es ∧ s.allowSkipMode = true ∧
      ∃ l b, Waited s.msTolerance (sleeps es) l ∧ polls es = l ++ [b, false]
  | .normalCall =>
    s.usedToleratedTime = sleeps es ∧
      ∃ l b b', Waited s.msTolerance (sleeps es) l ∧ polls es = l ++ [b, b'] ∧
        (b' = true ∨ s.allowSkipMode = false)
  | _ => True

section
variable {k : TimerClass} {A : FastInts} {s t : RealTimeSystem} {e : SystemEvent}
  {es : List SystemEvent} {j m : Nat} {l : List Bool}

theorem loop_test (hm : m ≤ 1000) (hj : j ≤ 2 * m) :
    toU (RealTimeSystem.wide A) (j : Int) < toU (RealTimeSystem.wide A) (m * 2 : Nat) ↔
      j < 2 * m := by
  have hwide : ∀ n : Nat, n ≤ 2000 → toU (RealTimeSystem.wide A) (n : Int) = n := fun n hn =>
    toU_of_lt (lt_of_lt_of_le (by omega : n < 2^32)
      (Nat.pow_le_pow_right (by decide) (le_max_right _ _)))
  rw [hwide j (by omega), hwide (m * 2) (by omega), Nat.mul_comm m 2]

theorem RealTimeSystem.step_toleranceTest (hs : s.step A e = some t) (hpc : s.pc = .toleranceTest)
    (hm : s.msTolerance ≤ 1000) (hj : s.usedToleratedTime = (j : Int))
    (hle : j ≤ 2 * s.msTolerance) :
    (j < 2 * s.msTolerance ∧ ∃ b, e = .isSendDone b ∧
        t = s.goto (if b then .doneTest else .toleranceSleep)) ∨
      (j = 2 * s.msTolerance ∧ e = .tau ∧ t = s.goto .doneTest) := by
  have htest := loop_test (A := A) hm hle
  unfold RealTimeSystem.step at hs
  rw [hpc] at hs
  cases e <;> try cases hs
  case tau =>
    obtain ⟨hn, he⟩ := Option.ite_none_left_eq_some.mp hs
    rw [hj, htest] at hn
    exact .inr ⟨by omega, rfl, (Option.some.inj he).symm⟩
  case isSendDone b =>
    obtain ⟨hlt, he⟩ := Option.ite_some_none_eq_some.mp hs
    rw [hj, htest] at hlt
    exact .inl ⟨hlt, b, rfl, he.symm⟩

theorem RealTimeSystem.step_toleranceSleep (hs : s.step A e = some t)
    (hpc : s.pc = .toleranceSleep) :
    e = .sleepUs 500 ∧ t = { s with
      usedToleratedTime := toS 32 (s.usedToleratedTime + 1), pc := .toleranceTest } := by
  unfold RealTimeSystem.step at hs
  rw [hpc] at hs
  cases e <;> try cases hs
  obtain ⟨rfl, he⟩ := Option.ite_some_none_eq_some.mp hs
  exact ⟨rfl, he.symm⟩

theorem counter_succ (hj : j < 2000) : toS 32 ((j : Int) + 1) = ((j + 1 : Nat) : Int) := by
  rw [toS_of_range (by decide) (by omega) (by omega)]
  rfl

theorem iterating_of (hd : s.pc.deciding = false) (hl : s.pc ≠ .loopTop) : Iterating es s := by
  unfold Iterating
  cases hpc : s.pc
  case loopTop => exact absurd hpc hl
  case toleranceTest | toleranceSleep | doneTest | skipTest | skipCall | normalCall =>
    rw [hpc] at hd
    cases hd
  all_goals trivial

/-- **Every step of the loop keeps the trace of the iteration.** -/
theorem Iterating.step (h : Iterating es s) (hm : s.msTolerance ≤ 1000) (hs : s.step A e = some t)
    (ht : t.pc.inLoop = true) : Iterating (es ++ [e]) t := by
  have moves := RealTimeSystem.moves_of_inLoop hs ht
  unfold Iterating at h
  cases moves
  case started => exact iteration_opens rfl
  case ticked => exact iteration_opens rfl
  case iterated hpc _ =>
    rw [hpc] at h
    obtain ⟨hsl, hpo⟩ := opened h
    refine ⟨?_, ?_, ?_⟩
    · rw [hsl]
      rfl
    · rw [hsl]
      exact Nat.zero_le _
    · rw [hsl, hpo]
      rfl
  case toleranceOver hpc =>
    rw [hpc] at h
    obtain ⟨hused, hle, hpolls⟩ := h
    rcases RealTimeSystem.step_toleranceTest hs hpc hm hused hle with ⟨-, b, he, -⟩ | ⟨hj, -, -⟩
    · cases he
    · refine ⟨?_, ?_⟩
      · rw [sleeps_snoc rfl rfl]
        exact hused
      · rw [sleeps_snoc rfl rfl, polls_snoc rfl, hpolls]
        show Waited _ _ (_ ++ [])
        rw [List.append_nil]
        exact .timeUsed hj
  case tolerated b hpc =>
    rw [hpc] at h
    obtain ⟨hused, hle, hpolls⟩ := h
    rcases RealTimeSystem.step_toleranceTest hs hpc hm hused hle with ⟨hj, -⟩ | ⟨-, he, -⟩
    · cases b with
      | true =>
        refine ⟨?_, ?_⟩
        · rw [sleeps_snoc rfl rfl]
          exact hused
        · rw [sleeps_snoc rfl rfl, polls_snoc rfl, hpolls]
          exact .done hj
      | false =>
        refine ⟨?_, ?_, ?_⟩
        · rw [sleeps_snoc rfl rfl]
          exact hused
        · rw [sleeps_snoc rfl rfl]
          exact hj
        · rw [sleeps_snoc rfl rfl, polls_snoc rfl, hpolls]
          exact List.replicate_succ'.symm
    · cases he
  case slept n hpc =>
    rw [hpc] at h
    obtain ⟨hused, hlt, hpolls⟩ := h
    obtain ⟨-, he⟩ := RealTimeSystem.step_toleranceSleep hs hpc
    have hn : n = ((sleeps es + 1 : Nat) : Int) := by
      have hcount := congrArg RealTimeSystem.usedToleratedTime he
      rw [← counter_succ (by omega), ← hused]
      exact hcount
    refine ⟨?_, ?_, ?_⟩
    · rw [sleeps_sleep]
      exact hn
    · rw [sleeps_sleep]
      exact hlt
    · rw [sleeps_sleep, polls_snoc rfl, hpolls]
      exact List.append_nil _
  case tested b hpc _ =>
    rw [hpc] at h
    obtain ⟨hused, hwait⟩ := h
    refine ⟨?_, polls es, b, ?_, polls_snoc rfl⟩
    · rw [sleeps_snoc rfl rfl]
      exact hused
    · rw [sleeps_snoc rfl rfl]
      exact hwait
  case skipping hpc ha =>
    rw [hpc] at h
    obtain ⟨hused, l, b, hwait, hpolls⟩ := h
    refine ⟨?_, ha, l, b, ?_, ?_⟩
    · rw [sleeps_snoc rfl rfl]
      exact hused
    · rw [sleeps_snoc rfl rfl]
      exact hwait
    · rw [polls_snoc rfl, hpolls, List.append_assoc]
      rfl
  case keeping b' hpc hb =>
    rw [hpc] at h
    obtain ⟨hused, l, b, hwait, hpolls⟩ := h
    refine ⟨?_, l, b, b', ?_, ?_, hb⟩
    · rw [sleeps_snoc rfl rfl]
      exact hused
    · rw [sleeps_snoc rfl rfl]
      exact hwait
    · rw [polls_snoc rfl, hpolls, List.append_assoc]
      rfl
  case called c _ _ =>
    refine iterating_of ?_ ?_
    · show (if c.stop then SystemPc.ending true else .send).deciding = false
      cases c.stop <;> rfl
    · show (if c.stop then SystemPc.ending true else .send) ≠ .loopTop
      cases c.stop <;> nofun
  case polled b _ =>
    cases b <;> cases ht
  all_goals trivial

/-- **The trace of the iteration, in every reachable state.** -/
theorem iterating_of_runs (hr : (system A).Runs (UsesTimer k) {} es s) :
    s.Settled ∧ Iterating es s := by
  refine hr.follows (fun l v => v.Settled ∧ Iterating l v)
    ⟨RealTimeSystem.settled_start, trivial⟩ ?_
  rintro l v e v' ⟨hset, hv⟩ ho hs
  refine ⟨hset.step ho hs, ?_⟩
  cases hin : v'.pc.inLoop with
  | true =>
    have hm := (hset.tolerance_le (RealTimeSystem.inside_of_inLoop hs hin)).2
    exact hv.step hm hs hin
  | false =>
    refine iterating_of ?_ ?_
    · cases hp : v'.pc <;> rw [hp] at hin <;> first | rfl | cases hin
    · intro hp
      rw [hp] at hin
      cases hin

/-! ## The delay -/

theorem Waited.le (h : Waited m j l) : j ≤ 2 * m := by
  cases h <;> omega

theorem Waited.zero_iff (h : Waited m j l) (l' : List Bool) :
    j = 0 ↔ m = 0 ∨ (l ++ l').head? = some true := by
  cases h with
  | timeUsed hj =>
    cases j with
    | zero => exact ⟨fun _ => .inl (by omega), fun _ => rfl⟩
    | succ n =>
      refine ⟨nofun, ?_⟩
      rintro (hm | hhead)
      · omega
      · cases hhead
  | done hj =>
    cases j with
    | zero => exact ⟨fun _ => .inr rfl, fun _ => rfl⟩
    | succ n =>
      refine ⟨nofun, ?_⟩
      rintro (hm | hhead)
      · omega
      · cases hhead

theorem iterating_of_call {c : UserCall} (h : Iterating es s)
    (hs : s.step A (.userCall c) = some t) :
    s.usedToleratedTime = sleeps es ∧ c.info = s.info A c.isSkipped ∧
      ∃ l b b', Waited s.msTolerance (sleeps es) l ∧ polls es = l ++ [b, b'] ∧
        (c.isSkipped = true ↔ b' = false ∧ s.allowSkipMode = true) := by
  have hpc := RealTimeSystem.inside_of_step hs rfl
  have moves := RealTimeSystem.step_moves hpc hs
  unfold Iterating at h
  have skipped : s.pc = .skipCall → c.info = s.info A true →
      s.usedToleratedTime = sleeps es ∧ c.info = s.info A c.isSkipped ∧
      ∃ l b b', Waited s.msTolerance (sleeps es) l ∧ polls es = l ++ [b, b'] ∧
        (c.isSkipped = true ↔ b' = false ∧ s.allowSkipMode = true) := by
    intro hpc hi
    have hk : c.isSkipped = true := congrArg RealTimeInfo.skipNextData hi
    rw [hpc] at h
    obtain ⟨hused, ha, l, b, hwait, hpolls⟩ := h
    exact ⟨hused, by rw [hk]; exact hi, l, b, false, hwait, hpolls, fun _ => ⟨rfl, ha⟩, fun _ => hk⟩
  cases moves
  case skipStopped hpc hi _ => exact skipped hpc hi
  case skipped hpc hi _ => exact skipped hpc hi
  case called hpc hi =>
    have hk : c.isSkipped = false := congrArg RealTimeInfo.skipNextData hi
    rw [hpc] at h
    obtain ⟨hused, l, b, b', hwait, hpolls, hb⟩ := h
    refine ⟨hused, by rw [hk]; exact hi, l, b, b', hwait, hpolls, fun h => ?_, fun ⟨h1, h2⟩ => ?_⟩
    · exact absurd (hk.symm.trans h) nofun
    · rcases hb with hb | hb
      · exact absurd (h1.symm.trans hb) nofun
      · exact absurd (hb.symm.trans h2) nofun

/-- **The delay reported.**  Of every call of the user function `get_delayed_time_ms` is the time
that the iteration slept, in whole milliseconds, and at most the tolerance, if and only if the
tolerance is 0, the first answer of `is_send_done` was true, or the call is a skipped one. -/
theorem delay_iff {c : UserCall} (hr : (system A).Runs (UsesTimer k) {} es s)
    (hs : s.step A (.userCall c) = some t) :
    (c.info.getDelayedTimeMs A = sleeps es / 2 ∧ c.info.getDelayedTimeMs A ≤ s.msTolerance) ↔
      s.msTolerance = 0 ∨ (polls es).head? = some true ∨
        ((polls es).getLast? = some false ∧ s.allowSkipMode = true) := by
  obtain ⟨hset, hiter⟩ := iterating_of_runs hr
  have hpc := RealTimeSystem.inside_of_step hs rfl
  have hm := (hset.tolerance_le hpc).2
  obtain ⟨hused, hi, l, b, b', hwait, hpolls, hskip⟩ := iterating_of_call hiter hs
  have hj := hwait.le
  have hlast : (polls es).getLast? = some b' := by rw [hpolls]; simp
  have hsmall : ∀ n : Nat, n ≤ 2000 → toU A.w32 ((toU A.w16 (n : Int) : Nat) : Int) = n := by
    intro n hn
    rw [toU_of_lt (A.lt16 (by omega)), toU_of_lt (A.lt32 (by omega))]
  rw [hlast]
  cases hk : c.isSkipped with
  | true =>
    obtain ⟨rfl, ha⟩ := hskip.mp hk
    have hd : c.info.getDelayedTimeMs A = sleeps es / 2 := by
      have hdiv : s.usedToleratedTime / 2 = ((sleeps es / 2 : Nat) : Int) := by rw [hused]; rfl
      rw [hi, hk]
      show toU A.w32 ((toU A.w16 (s.usedToleratedTime / 2) : Nat) : Int) = _
      rw [hdiv]
      exact hsmall _ (by omega)
    exact ⟨fun _ => .inr (.inr ⟨rfl, ha⟩), fun _ => ⟨hd, by omega⟩⟩
  | false =>
    have hd : c.info.getDelayedTimeMs A = sleeps es := by
      rw [hi, hk]
      show toU A.w32 ((toU A.w16 s.usedToleratedTime : Nat) : Int) = _
      rw [hused]
      exact hsmall _ (by omega)
    have hno : ¬ (some b' = some false ∧ s.allowSkipMode = true) := by
      rintro ⟨h1, h2⟩
      exact absurd (hk.symm.trans (hskip.mpr ⟨Option.some.inj h1, h2⟩)) nofun
    have hzero := hwait.zero_iff [b, b']
    rw [← hpolls] at hzero
    rw [hd]
    constructor
    · rintro ⟨heq, -⟩
      rcases hzero.mp (by omega) with h | h
      · exact .inl h
      · exact .inr (.inl h)
    · intro h
      have h0 : sleeps es = 0 := by
        rcases h with h | h | h
        · exact hzero.mpr (.inl h)
        · exact hzero.mpr (.inr h)
        · exact absurd h hno
      rw [h0]
      exact ⟨rfl, Nat.zero_le _⟩

end

/-- `run` with a tolerance of 100 ms, up to the tolerance loop of the first iteration -/
def entered : List SystemEvent :=
  request ++ [.setFrequency 5, .callInitialize answersOk, .run, .startTimer none, .tau]

/-- skipping allowed and a tolerance of 1 ms, all of it waited for a `send` that does not end -/
def waitedInVain : List SystemEvent :=
  [.setTimer 1, .setSender 2, .setUserDataFn 3, .setMsTolerance 1, .setFrequency 5, .skipMode true,
    .callInitialize answersOk, .run, .startTimer none, .tau, .isSendDone false, .sleepUs 500,
    .isSendDone false, .sleepUs 500, .tau, .isSendDone false, .isSendDone false]

/-- the skipped call after the two sleeps is told 1 ms -/
theorem delay_iff_skipped :
    ∃ s t, (system FastInts.lp64).run {} waitedInVain = some s ∧
      (system FastInts.lp64).step s (.userCall ⟨⟨0, true, 1⟩, [], false⟩) = some t ∧
      sleeps waitedInVain = 2 ∧
      (RealTimeInfo.getDelayedTimeMs FastInts.lp64 ⟨0, true, 1⟩ = sleeps waitedInVain / 2 ∧
        RealTimeInfo.getDelayedTimeMs FastInts.lp64 ⟨0, true, 1⟩ ≤ s.msTolerance) := by
  have hrun : ((((system FastInts.lp64).restrict (UsesTimer .freeWait)).run {} waitedInVain).bind
      fun s => ((system FastInts.lp64).step s (.userCall ⟨⟨0, true, 1⟩, [], false⟩)).map fun _ =>
        s.allowSkipMode) = some true := by decide
  obtain ⟨s, hs, hst⟩ := Option.bind_eq_some_iff.mp hrun
  obtain ⟨t, ht, hskip⟩ := Option.map_eq_some_iff.mp hst
  have hruns := Machine.Runs.of_restrict hs
  exact ⟨s, t, hruns.run_eq, ht, by decide,
    (delay_iff hruns ht).mpr (.inr (.inr ⟨by decide, hskip⟩))⟩

/-- two sleeps, a wait of 1 ms, are reported as 2 ms to a normal call -/
theorem delay_doubled :
    ∃ es s t, (system FastInts.lp64).Runs (UsesTimer .freeWait) {} es s ∧
      (system FastInts.lp64).step s (.userCall ⟨⟨0, false, 2⟩, [], false⟩) = some t ∧
      sleeps es = 2 ∧ RealTimeInfo.getDelayedTimeMs FastInts.lp64 ⟨0, false, 2⟩ = 2 ∧
      RealTimeInfo.getDelayedTimeMs FastInts.lp64 ⟨0, false, 2⟩ ≠ sleeps es / 2 := by
  let es := entered ++ [.isSendDone false, .sleepUs 500, .isSendDone false, .sleepUs 500,
    .isSendDone true, .isSendDone true, .isSendDone true]
  have hrun : (((system FastInts.lp64).restrict (UsesTimer .freeWait)).run {} es).bind
      ((system FastInts.lp64).step · (.userCall ⟨⟨0, false, 2⟩, [], false⟩)) |>.isSome := by
    decide
  obtain ⟨t, ht⟩ := Option.isSome_iff_exists.mp hrun
  obtain ⟨s, hs, hst⟩ := Option.bind_eq_some_iff.mp ht
  exact ⟨es, s, t, Machine.Runs.of_restrict hs, hst, by decide, by decide, by decide⟩

end RealTimeTransfer
