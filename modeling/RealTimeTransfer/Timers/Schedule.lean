import RealTimeTransfer.Timers.Timer
import RealTimeTransfer.Lib.Machine

/-!
# The tick schedule

`tickMachine k A` makes the calls of `sleep_to_next_tick` one after the other; an event is the
result of the call.  After `set_frequency(f)` and `start_timer()` at the reading `s`, the state
after `n` successes is `OnSchedule f s n`: it depends on `f`, `s` and `n` only, whatever the class
of the timer, the failed calls in between and the lateness of every wake-up.

* `targetNs f k`   the `k`-th target after the origin, `floor(floor(10^12/f) * k / 1000) + 1`;
* `origin f s n`   the origin after `n` ticks: it moves once every `2^23` ticks, to the target
                   reached last;
* `sleepToNextTick_step`   one call keeps the schedule, `run_onSchedule` so does a run of calls;
* `tick_schedule`  the schedule in closed form, with no wrap-around, and the refused calls.
-/

namespace RealTimeTransfer
open Words Machines

/-- ns from the origin to the `k`-th target -/
def targetNs (f k : Nat) : Nat := 10^12 / f * k / 1000 + 1

/-- the origin of the schedule, in ns, after `n` ticks -/
def origin (f s n : Nat) : Nat := s + n / 2^23 * targetNs f (2^23)

theorem period_mul_le (f k : Nat) (hk : k ≤ 2^23) : 10^12 / f * k ≤ 10^12 * 2^23 :=
  Nat.mul_le_mul (Nat.div_le_self _ _) hk

theorem targetNs_lt (f k : Nat) (hk : k ≤ 2^23) : targetNs f k < 2^63 := by
  have h := period_mul_le f k hk
  unfold targetNs
  omega

theorem nextSleepTimeNs_eq (f k : Nat) (hk : k ≤ 2^23) :
    Timer.nextSleepTimeNs (10^12 / f) k = targetNs f k := by
  have h := period_mul_le f k hk
  have h1 : toU 64 ((10^12 / f * k : Nat) : Int) = 10^12 / f * k := toU_of_lt (by omega)
  unfold Timer.nextSleepTimeNs
  rw [h1, psToNs_eq]
  exact toU_of_lt (by omega)

theorem origin_zero (f s : Nat) : origin f s 0 = s := by simp [origin]

theorem origin_succ (f s n : Nat) : origin f s (n + 1)
    = if n % 2^23 + 1 = 2^23 then origin f s n + targetNs f (2^23) else origin f s n := by
  unfold origin
  by_cases h : n % 2^23 + 1 = 2^23
  · have e : (n + 1) / 2^23 = n / 2^23 + 1 := by omega
    rw [if_pos h, e, Nat.succ_mul, Nat.add_assoc]
  · have e : (n + 1) / 2^23 = n / 2^23 := by omega
    rw [if_neg h, e]

/-- the state of a timer of frequency `f` started at `s`, after `n` ticks, with the clock `c` -/
structure OnSchedule (f s n : Nat) (t : Timer) (c : List Nat) : Prop where
  ps : t.originalSleepTimePs = 10^12 / f
  counter : t.sleepCounter = n % 2^23 + 1
  ns : t.sleepTimeNs = targetNs f t.sleepCounter
  start : t.startTime = ofNs (origin f s n)
  after : After (origin f s n) c

/-- the four fields alone -/
structure Scheduled (f s n : Nat) (t : Timer) : Prop where
  ps : t.originalSleepTimePs = 10^12 / f
  counter : t.sleepCounter = n % 2^23 + 1
  ns : t.sleepTimeNs = targetNs f t.sleepCounter
  start : t.startTime = ofNs (origin f s n)

section
variable {A : FastInts} {f s n : Nat} {t : Timer} {c : List Nat}

theorem OnSchedule.scheduled (h : OnSchedule f s n t c) : Scheduled f s n t :=
  ⟨h.ps, h.counter, h.ns, h.start⟩

theorem Scheduled.counter_le (h : Scheduled f s n t) : t.sleepCounter ≤ 2^23 := by
  rw [h.counter]
  omega

theorem Scheduled.ns_lt (h : Scheduled f s n t) : t.sleepTimeNs < 2^63 := by
  rw [h.ns]
  exact targetNs_lt f _ h.counter_le

theorem OnSchedule.counter_le (h : OnSchedule f s n t c) : t.sleepCounter ≤ 2^23 :=
  h.scheduled.counter_le

theorem OnSchedule.ns_lt (h : OnSchedule f s n t c) : t.sleepTimeNs < 2^63 :=
  h.scheduled.ns_lt

/-- a successful call leaves the count at `k` and the origin at `start` -/
structure Advanced (t u : Timer) (k : Nat) (start : Timespec) : Prop where
  ps : u.originalSleepTimePs = t.originalSleepTimePs
  counter : u.sleepCounter = k
  ns : u.sleepTimeNs = Timer.nextSleepTimeNs t.originalSleepTimePs k
  start : u.startTime = start

theorem Timer.advanced_reset (hr : t.sleepCounter = 2^23) :
    Advanced t (t.advance A) 1 (addNsToTimespec t.startTime t.sleepTimeNs) := by
  have hb : t.rebase = { t with
      startTime := addNsToTimespec t.startTime t.sleepTimeNs, sleepCounter := 0 } := if_pos hr
  have hk : toU A.w32 ((t.rebase.sleepCounter + 1 : Nat) : Int) = 1 := by
    rw [hb]
    exact toU_of_lt (A.lt32 (n := 1) (by decide))
  refine ⟨?_, hk, ?_, ?_⟩
  · show t.rebase.originalSleepTimePs = _
    rw [hb]
  · show Timer.nextSleepTimeNs _ (toU A.w32 ((t.rebase.sleepCounter + 1 : Nat) : Int)) = _
    rw [hk]
  · show t.rebase.startTime = _
    rw [hb]

theorem Timer.advanced_count (hlt : t.sleepCounter < 2^23) :
    Advanced t (t.advance A) (t.sleepCounter + 1) t.startTime := by
  have hb : t.rebase = t := if_neg (Nat.ne_of_lt hlt)
  have hk : toU A.w32 ((t.rebase.sleepCounter + 1 : Nat) : Int) = t.sleepCounter + 1 := by
    rw [hb]
    exact toU_of_lt (A.lt32 (by omega))
  refine ⟨?_, hk, ?_, ?_⟩
  · show t.rebase.originalSleepTimePs = _
    rw [hb]
  · show Timer.nextSleepTimeNs _ (toU A.w32 ((t.rebase.sleepCounter + 1 : Nat) : Int)) = _
    rw [hk]
  · show t.rebase.startTime = _
    rw [hb]

/-- **The end of a successful call**, while the target is a representable time: the schedule is that
of the next tick, whatever the clock read. -/
theorem Scheduled.advance (h : Scheduled f s n t)
    (hfit : (ofNs (origin f s n)).Fits t.sleepTimeNs) : Scheduled f s (n + 1) (t.advance A) := by
  have hcnt := h.counter
  by_cases hr : t.sleepCounter = 2^23
  · obtain ⟨h1, h2, h3, h4⟩ := Timer.advanced_reset (A := A) hr
    refine ⟨h1.trans h.ps, ?_, ?_, ?_⟩
    · rw [h2]
      omega
    · rw [h3, h2, h.ps]
      exact nextSleepTimeNs_eq f 1 (by decide)
    · rw [h4, origin_succ, if_pos (by omega), ← hr, ← h.ns, h.start]
      exact addNs_ofNs hfit
  · have hlt : t.sleepCounter < 2^23 := lt_of_le_of_ne h.counter_le hr
    obtain ⟨h1, h2, h3, h4⟩ := Timer.advanced_count (A := A) hlt
    refine ⟨h1.trans h.ps, ?_, ?_, ?_⟩
    · rw [h2]
      omega
    · rw [h3, h2, h.ps]
      exact nextSleepTimeNs_eq f _ hlt
    · rw [h4, origin_succ, if_neg (by omega)]
      exact h.start

theorem Scheduled.origin_le (h : Scheduled f s n t) :
    origin f s (n + 1) ≤ origin f s n + t.sleepTimeNs := by
  rw [origin_succ, h.ns, h.counter]
  by_cases hr : n % 2^23 + 1 = 2^23
  · rw [if_pos hr, hr]
  · rw [if_neg hr]
    exact Nat.le_add_right _ _

/-- the end of a successful call, at a reading `l` at or after the target -/
theorem OnSchedule.advance (h : OnSchedule f s n t c) {l : Nat} {c' : List Nat}
    (hl : origin f s n + t.sleepTimeNs ≤ l) (hc : After l c') :
    OnSchedule f s (n + 1) (t.advance A) c' := by
  have hlt := hc.lt
  have hfit : (ofNs (origin f s n)).Fits t.sleepTimeNs := by
    apply fits_ofNs.mpr
    constructor <;> omega
  obtain ⟨h1, h2, h3, h4⟩ := h.scheduled.advance (A := A) hfit
  exact ⟨h1, h2, h3, h4, hc.mono (le_trans h.scheduled.origin_le hl)⟩

theorem refused_iff (k : TimerClass) (h : OnSchedule f s n t c) {e : Nat} {c' : List Nat}
    (hc : c = e :: c') :
    (∃ x, k.sleepToNextTick A t c = some x ∧ x.ok = false) ↔ origin f s n + t.sleepTimeNs < e := by
  subst hc
  have hd : timespecDiffNs t.startTime (ofNs e) = e - origin f s n := by
    rw [h.start, timespecDiffNs_ofNs h.after.1 h.after.2.lt]
  have hle := h.after.1
  rw [k.sleepToNextTick_eq]
  show (∃ x, (if t.sleepTimeNs < timespecDiffNs t.startTime (ofNs e) then
      some (⟨false, { t with errorHandler := t.errorHandler.setError Timer.tickedError }, [],
        c'⟩ : Tick)
    else (k.wait t (ofNs e) c').map fun y => ⟨true, t.advance A, y.1, y.2⟩) = some x
      ∧ x.ok = false) ↔ _
  rw [hd]
  by_cases hlt : t.sleepTimeNs < e - origin f s n
  · rw [if_pos hlt]
    exact ⟨fun _ => by omega, fun _ => ⟨_, rfl, rfl⟩⟩
  · rw [if_neg hlt]
    constructor
    · rintro ⟨x, hx, hok⟩
      obtain ⟨y, _, rfl⟩ := Option.map_eq_some_iff.mp hx
      cases hok
    · intro hgt
      omega

theorem sleepToNextTick_timer (k : TimerClass) {x : Tick}
    (hx : k.sleepToNextTick A t c = some x) :
    (x.ok = true → x.timer = t.advance A) ∧
      (x.ok = false → x.timer = { t with errorHandler := x.timer.errorHandler }) := by
  rw [k.sleepToNextTick_eq] at hx
  obtain ⟨r, _, hx⟩ := Option.bind_eq_some_iff.mp hx
  by_cases hlt : t.sleepTimeNs < timespecDiffNs t.startTime r.1
  · rw [if_pos hlt] at hx
    cases hx
    exact ⟨nofun, fun _ => rfl⟩
  · rw [if_neg hlt] at hx
    obtain ⟨y, _, rfl⟩ := Option.map_eq_some_iff.mp hx
    exact ⟨fun _ => rfl, nofun⟩

/-- **One call of any of the three timers keeps the schedule.** -/
theorem sleepToNextTick_step (k : TimerClass) (h : OnSchedule f s n t c) {x : Tick}
    (hx : k.sleepToNextTick A t c = some x) :
    OnSchedule f s (n + if x.ok then 1 else 0) x.timer x.clock ∧
      (x.ok = false → x.timer = { t with errorHandler := x.timer.errorHandler }) := by
  refine ⟨?_, (sleepToNextTick_timer k hx).2⟩
  rw [k.sleepToNextTick_eq] at hx
  obtain ⟨y, hy, hx⟩ := Option.bind_eq_some_iff.mp hx
  cases c with
  | nil => cases hy
  | cons e c =>
    cases hy
    have hd : timespecDiffNs t.startTime (ofNs e) = e - origin f s n := by
      rw [h.start, timespecDiffNs_ofNs h.after.1 h.after.2.lt]
    rw [hd] at hx
    by_cases hlt : t.sleepTimeNs < e - origin f s n
    · rw [if_pos hlt] at hx
      cases hx
      exact ⟨h.ps, h.counter, h.ns, h.start, h.after.2.mono h.after.1⟩
    · rw [if_neg hlt] at hx
      obtain ⟨y, hy, rfl⟩ := Option.map_eq_some_iff.mp hx
      have hns := h.ns_lt
      obtain ⟨l, hl, hal⟩ := k.wait_spec h.start h.after.1 (by omega) (by omega) h.after.2 hy
      exact h.advance hl hal

end

/-- the calls of `sleep_to_next_tick`; an event is the result of a call -/
def tickMachine (k : TimerClass) (A : FastInts) : Machine (Timer × List Nat) Bool where
  step s b := (k.sleepToNextTick A s.1 s.2).bind fun x =>
    if x.ok = b then some (x.timer, x.clock) else none

/-- **A run of calls keeps the schedule**: `n` is the number of successes. -/
theorem run_onSchedule (k : TimerClass) {A : FastInts} {f s : Nat} {u v : Timer × List Nat}
    {bs : List Bool} (h0 : OnSchedule f s 0 u.1 u.2)
    (h : (tickMachine k A).run u bs = some v) : OnSchedule f s (bs.count true) v.1 v.2 := by
  refine (Machine.runs_of_run h).follows
    (fun l (w : Timer × List Nat) => OnSchedule f s (l.count true) w.1 w.2) h0 ?_
  intro l w b w' hw _ hs
  obtain ⟨x, hx, hs⟩ := Option.bind_eq_some_iff.mp hs
  by_cases hb : x.ok = b
  · rw [if_pos hb] at hs
    cases hs
    have h1 := (sleepToNextTick_step k hw hx).1
    have e : (l ++ [b]).count true = l.count true + if x.ok then 1 else 0 := by
      rw [List.count_append, hb]
      cases b <;> rfl
    rw [e]
    exact h1
  · rw [if_neg hb] at hs
    cases hs

/-- `set_frequency(f)` and `start_timer()`, both successful -/
def arm (k : TimerClass) (f : Nat) (t : Timer) (c : List Nat) : Option (Timer × List Nat) :=
  (k.setFrequency f t).bind fun x =>
    if x.1 then
      (k.startTimer x.2 c).bind fun y => if y.1 then some y.2 else none
    else none

/-- the timer `t` set to the frequency `f` and started at the reading `s` -/
def Timer.armed (f s : Nat) (t : Timer) : Timer :=
  { t with
    frequency := f, originalSleepTimePs := 10^12 / f, startTime := ofNs s, timerStarted := true,
    sleepCounter := 1, sleepTimeNs := Timer.nextSleepTimeNs (10^12 / f) 1 }

theorem arm_cons (k : TimerClass) {f : Nat} (hf : 1 ≤ f) (hf' : f ≤ 100) {t : Timer}
    (ht : t.timerStarted = false) (s : Nat) (c : List Nat) :
    arm k f t (s :: c) = some (t.armed f s, c) := by
  have h1 : k.setFrequency f t
      = some (true, { t with frequency := f, originalSleepTimePs := 10^12 / f }) := by
    rw [k.setFrequency_eq]
    unfold Timer.setFrequency
    rw [if_neg (by show ¬ 100 < f; omega), if_neg (by omega), secToPs_one]
  have h2 : k.startTimer { t with frequency := f, originalSleepTimePs := 10^12 / f } (s :: c)
      = some (true, t.armed f s, c) := by
    rw [k.startTimer_eq]
    unfold Timer.startTimer
    rw [if_neg (by show ¬ t.timerStarted = true; rw [ht]; decide)]
    rfl
  unfold arm
  rw [h1]
  show (k.startTimer { t with frequency := f, originalSleepTimePs := 10^12 / f } (s :: c)).bind
    (fun y => if y.1 then some y.2 else none) = _
  rw [h2]
  rfl

theorem arm_eq (k : TimerClass) {f : Nat} (hf : 1 ≤ f) (hf' : f ≤ 100) {t : Timer}
    (ht : t.timerStarted = false) (C : Clock) :
    arm k f t C.readings = some (t.armed f C.first, C.rest) :=
  arm_cons k hf hf' ht C.first C.rest

theorem armed_onSchedule (f : Nat) (t : Timer) (C : Clock) :
    OnSchedule f C.first 0 (t.armed f C.first) C.rest := by
  refine ⟨rfl, rfl, nextSleepTimeNs_eq f 1 (by omega), ?_, ?_⟩
  · rw [origin_zero]; rfl
  · rw [origin_zero]; exact C.ordered

/-- **The tick schedule.**  After any calls with `n` successes the three fields are the closed form
in `f`, `n` and the start reading, computed without wrap-around; the next call is refused exactly
if its reading is later than the target, and a refused call changes none of them. -/
theorem tick_schedule (k : TimerClass) (A : FastInts) (f : Nat) (hf : 1 ≤ f) (hf' : f ≤ 100)
    (t : Timer) (ht : t.timerStarted = false) (C : Clock) :
    ∃ u, arm k f t C.readings = some (u, C.rest) ∧
      ∀ (bs : List Bool) (v : Timer) (c : List Nat),
        (tickMachine k A).run (u, C.rest) bs = some (v, c) →
        let p := 10^12 / f
        let n := bs.count true
        let o := C.first + n / 2^23 * (p * 2^23 / 1000 + 1)
        (v.sleepCounter = n % 2^23 + 1 ∧ v.sleepTimeNs = p * v.sleepCounter / 1000 + 1 ∧
          v.startTime = ofNs o) ∧
        (v.originalSleepTimePs = p ∧ p * v.sleepCounter < 2^64 ∧
          p * v.sleepCounter / 1000 + 1 < 2^64 ∧ o % 10^9 + v.sleepTimeNs < 2^64 ∧
          o / 10^9 + (o % 10^9 + v.sleepTimeNs) / 10^9 < 2^64) ∧
        ∀ (e : Nat) (c' : List Nat), c = e :: c' →
          ((∃ x, k.sleepToNextTick A v c = some x ∧ x.ok = false) ↔ o + v.sleepTimeNs < e) ∧
          ∀ x, k.sleepToNextTick A v c = some x → x.ok = false →
            x.timer.sleepCounter = v.sleepCounter ∧ x.timer.sleepTimeNs = v.sleepTimeNs ∧
              x.timer.startTime = v.startTime := by
  refine ⟨_, arm_eq k hf hf' ht C, ?_⟩
  intro bs v c h p n o
  have hv : OnSchedule f C.first n v c := run_onSchedule k (armed_onSchedule f t C) h
  have hp := period_mul_le f v.sleepCounter hv.counter_le
  have hns := hv.ns_lt
  have ho : o < 2^63 := hv.after.lt
  refine ⟨⟨hv.counter, hv.ns, hv.start⟩, ⟨hv.ps, ?_, ?_, ?_, ?_⟩, ?_⟩
  · show 10^12 / f * v.sleepCounter < 2^64
    omega
  · show 10^12 / f * v.sleepCounter / 1000 + 1 < 2^64
    omega
  · omega
  · omega
  · intro e c' hc
    refine ⟨refused_iff k hv hc, fun x hx hok => ?_⟩
    have hx' := (sleepToNextTick_step k hv hx).2 hok
    rw [hx']
    exact ⟨rfl, rfl, rfl⟩

/-- a new `BusyWaitTimer` -/
def newBusyWaitTimer : Timer :=
  Timer.construct "BusyWaitTimer" ⟨⟨0, 0⟩, 0, 0, 0, false, 0, Error.construct ""⟩

/-- one tick at 100 Hz, started at 7 ns and reached at the second reading of the spin -/
theorem tick_schedule_first :
    ∃ u v, arm .busyWait 100 newBusyWaitTimer [7, 7, 9, 10000008] = some (u, [7, 9, 10000008]) ∧
      (tickMachine .busyWait FastInts.lp64).run (u, [7, 9, 10000008]) [true] = some (v, []) ∧
      v.sleepCounter = 2 ∧ v.sleepTimeNs = 20000001 ∧ v.startTime = ofNs 7 := by
  obtain ⟨u, hu, h⟩ := tick_schedule .busyWait FastInts.lp64 100 (by decide) (by decide)
    newBusyWaitTimer rfl ⟨7, [7, 9, 10000008], by simp [After]⟩
  have hrun : ((arm .busyWait 100 newBusyWaitTimer [7, 7, 9, 10000008]).bind fun x =>
      ((tickMachine .busyWait FastInts.lp64).run x [true]).map Prod.snd) = some [] := by decide
  obtain ⟨x, hx, hr⟩ := Option.bind_eq_some_iff.mp hrun
  obtain ⟨⟨v, c⟩, hv, rfl⟩ := Option.map_eq_some_iff.mp hr
  have hxu : x = (u, [7, 9, 10000008]) := Option.some.inj (hx.symm.trans hu)
  subst hxu
  obtain ⟨⟨h1, h2, h3⟩, -⟩ := h [true] v [] hv
  refine ⟨u, v, hu, hv, h1, ?_, h3⟩
  rw [h2, h1]
  rfl

end RealTimeTransfer
