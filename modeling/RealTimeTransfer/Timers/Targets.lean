import RealTimeTransfer.Timers.Schedule

/-!
# The absolute targets

`target f s n` is the absolute target, in ns, that a timer of frequency `f` started at `s` waits for
after `n` ticks.

* `target_succ`      consecutive targets are one period apart;
* `punctual_run`     a busy wait that reads the clock at every target ticks at every one of them;
* `drift`            what the truncations leave of `1000 * f` times the ideal time;
* `accuracy_iff`     the targets that are as accurate as the comment of the timers says;
* `drifted_target`   the ten-thousandth target at 3 Hz is not.
-/

namespace RealTimeTransfer
open Words Machines

/-- the tick that the timer waits for: `start_time_ + sleep_time_ns_` -/
def Timer.target (t : Timer) : Int := t.startTime.ns + t.sleepTimeNs

def target (f s n : Nat) : Nat := origin f s n + targetNs f (n % 2^23 + 1)

section
variable {A : FastInts} {f s n : Nat} {t : Timer} {c : List Nat}

theorem Scheduled.target_nat (h : Scheduled f s n t) :
    origin f s n + t.sleepTimeNs = target f s n := by
  unfold target
  rw [h.ns, h.counter]

theorem Scheduled.target_eq (h : Scheduled f s n t) : t.target = target f s n := by
  unfold Timer.target
  rw [h.start, ns_ofNs, ← h.target_nat, Nat.cast_add]

theorem OnSchedule.target_nat (h : OnSchedule f s n t c) :
    origin f s n + t.sleepTimeNs = target f s n :=
  h.scheduled.target_nat

theorem OnSchedule.target_eq (h : OnSchedule f s n t c) : t.target = target f s n :=
  h.scheduled.target_eq

theorem period_ns (f : Nat) : 10^12 / f / 1000 = 10^9 / f := by
  rw [Nat.div_div_eq_div_mul, Nat.mul_comm, ← Nat.div_div_eq_div_mul]
  norm_num

/-- **Consecutive targets are one period apart**, up to the nanosecond of the truncation. -/
theorem target_succ (f s n : Nat) :
    target f s (n + 1) = target f s n + 10^9 / f ∨
      target f s (n + 1) = target f s n + 10^9 / f + 1 := by
  rw [← period_ns]
  unfold target
  rw [origin_succ]
  by_cases h : n % 2^23 + 1 = 2^23
  · have hk : (n + 1) % 2^23 + 1 = 1 := by omega
    rw [if_pos h, hk, h]
    right
    unfold targetNs
    omega
  · have hk : (n + 1) % 2^23 + 1 = (n % 2^23 + 1) + 1 := by omega
    rw [if_neg h, hk]
    unfold targetNs
    rw [Nat.mul_succ]
    omega

theorem target_mono_succ (f s n : Nat) : target f s n ≤ target f s (n + 1) := by
  rcases target_succ f s n with h | h
  · rw [h]
    exact Nat.le_add_right _ _
  · rw [h, Nat.add_assoc]
    exact Nat.le_add_right _ _

/-! ## A punctual clock -/

/-- the targets of the next `m` ticks after `n` -/
def punctual (f s : Nat) : Nat → Nat → List Nat
  | _, 0 => []
  | n, m + 1 => target f s n :: punctual f s (n + 1) m

theorem after_punctual {e m : Nat} (he : e ≤ target f s n) (hm : target f s (n + m) < 2^63) :
    After e (punctual f s n m) := by
  induction m generalizing n e with
  | zero => exact lt_of_le_of_lt he hm
  | succ m ih =>
    refine ⟨he, ih (target_mono_succ f s n) ?_⟩
    rw [Nat.add_right_comm]
    exact hm

theorem OnSchedule.busyWait (h : OnSchedule f s n t (target f s n :: c)) :
    TimerClass.busyWait.sleepToNextTick A t (target f s n :: c)
      = some ⟨true, t.advance A, [], c⟩ := by
  have hd : timespecDiffNs t.startTime (ofNs (target f s n)) = t.sleepTimeNs := by
    rw [h.start, timespecDiffNs_ofNs h.after.1 h.after.2.lt, ← h.target_nat]
    omega
  have hspin : spin t.startTime t.sleepTimeNs (ofNs (target f s n)) c = some c := by
    cases c with
    | nil =>
      unfold spin
      rw [hd, if_neg (lt_irrefl _)]
    | cons r rs =>
      unfold spin
      rw [hd, if_neg (lt_irrefl _)]
  rw [TimerClass.sleepToNextTick_eq]
  show (if t.sleepTimeNs < timespecDiffNs t.startTime (ofNs (target f s n)) then _
    else ((spin t.startTime t.sleepTimeNs (ofNs (target f s n)) c).map fun c' => ([], c')).map
      fun y => (⟨true, t.advance A, y.1, y.2⟩ : Tick)) = _
  rw [hd, if_neg (lt_irrefl _), hspin]
  rfl

/-- **On a punctual clock every call of a busy wait ticks.** -/
theorem punctual_run {m : Nat} (h : OnSchedule f s n t (punctual f s n m)) :
    ∃ v, (tickMachine .busyWait A).run (t, punctual f s n m) (List.replicate m true)
      = some (v, []) := by
  induction m generalizing n t with
  | zero => exact ⟨t, rfl⟩
  | succ m ih =>
    have hx := OnSchedule.busyWait (A := A) h
    have h' := (sleepToNextTick_step .busyWait h hx).1
    obtain ⟨v, hv⟩ := ih h'
    refine ⟨v, ?_⟩
    rw [List.replicate_succ, Machine.run_cons]
    show (((TimerClass.busyWait.sleepToNextTick A t (target f s n :: _)).bind fun x =>
      if x.ok = true then some (x.timer, x.clock) else none).bind _) = _
    rw [hx]
    exact hv

end

/-! ## The accuracy -/

/-- **The drift.**  `1000 * f` times the time of the target `n + 1` misses that of the ideal one by
the truncations of the period and of the products; every origin and the target itself add 1 ns. -/
theorem drift (f s n : Nat) :
    1000 * f * target f s n + ((n + 1) * (10^12 % f) +
        f * (n / 2^23 * (10^12 / f * 2^23 % 1000) + 10^12 / f * (n % 2^23 + 1) % 1000))
      = 1000 * f * s + (n + 1) * 10^12 + 1000 * f * (n / 2^23 + 1) := by
  generalize hp : 10^12 / f = p
  have hr : f * p + 10^12 % f = 10^12 := by rw [← hp]; exact Nat.div_add_mod _ _
  have ha := Nat.div_add_mod (p * 2^23) 1000
  have hb := Nat.div_add_mod (p * (n % 2^23 + 1)) 1000
  have hn := Nat.div_add_mod n (2^23)
  unfold target origin targetNs
  rw [hp]
  generalize 10^12 % f = r at *
  generalize n / 2^23 = q at *
  generalize n % 2^23 = k at *
  generalize p * 2^23 % 1000 = a at *
  generalize p * (k + 1) % 1000 = b at *
  generalize p * 2^23 / 1000 = x at *
  generalize p * (k + 1) / 1000 = y at *
  subst hn
  have h1 : f * (q * (1000 * x + a)) = f * (q * (p * 2^23)) := by rw [ha]
  have h2 : f * (1000 * y + b) = f * (p * (k + 1)) := by rw [hb]
  have h3 : (2^23 * q + k + 1) * (f * p + r) = (2^23 * q + k + 1) * 10^12 := by rw [hr]
  nlinarith [h1, h2, h3]

/-- what the truncations take off `1000 * f` times the target `n + 1` -/
def cut (f n : Nat) : Nat :=
  (n + 1) * (10^12 % f) +
    f * (n / 2^23 * (10^12 / f * 2^23 % 1000) + 10^12 / f * (n % 2^23 + 1) % 1000)

/-- the ideal time of the tick `n` -/
def ideal (f s n : Nat) : ℚ := s + n * 10^9 / f

/-- what the comment of the timers promises of the tick `n`: 1 ns, and 1 ns for each reset -/
def Accurate (f s n : Nat) (x : Int) : Prop := |(x : ℚ) - ideal f s n| ≤ 1 + ⌈(n : ℚ) / 2^23⌉

section
variable {f : Nat}

theorem resets_eq (n : Nat) : ⌈((n + 1 : Nat) : ℚ) / 2^23⌉ = (n / 2^23 : Nat) + 1 := by
  have hn := Nat.div_add_mod n (2^23)
  have hk := Nat.mod_lt n (show 0 < 2^23 by decide)
  generalize n / 2^23 = q at *
  generalize n % 2^23 = k at *
  have h1 : (2^23 * q : ℚ) < ((n + 1 : Nat) : ℚ) := by exact_mod_cast (by omega : 2^23 * q < n + 1)
  have h2 : ((n + 1 : Nat) : ℚ) ≤ 2^23 * (q + 1 : Nat) := by
    exact_mod_cast (by omega : n + 1 ≤ 2^23 * (q + 1))
  rw [Int.ceil_eq_iff]
  push_cast at h1 h2 ⊢
  constructor
  · rw [lt_div_iff₀ (by norm_num)]
    linarith
  · rw [div_le_iff₀ (by norm_num)]
    linarith

theorem accurate_iff_cut (hf : 0 < f) (s n : Nat) :
    Accurate f s (n + 1) (target f s n) ↔ cut f n ≤ 1000 * f * (2 * (n / 2^23) + 3) := by
  have hd := drift f s n
  change 1000 * f * target f s n + cut f n = _ at hd
  unfold Accurate
  rw [resets_eq, abs_le]
  generalize n / 2^23 = q at *
  have hfq : (0 : ℚ) < 1000 * f := by positivity
  have hpos : (0 : ℚ) ≤ cut f n := Nat.cast_nonneg _
  have herr : (1000 * f : ℚ) * (((target f s n : Nat) : Int) - ideal f s (n + 1))
      = 1000 * f * (q + 1) - cut f n := by
    have hdq : (1000 * f : ℚ) * target f s n + cut f n
        = 1000 * f * s + (n + 1) * 10^12 + 1000 * f * (q + 1) := by exact_mod_cast hd
    have hid : (1000 * f : ℚ) * ideal f s (n + 1) = 1000 * f * s + (n + 1) * 10^12 := by
      unfold ideal
      push_cast
      field_simp
      ring
    rw [mul_sub, hid]
    push_cast
    linarith
  generalize (((target f s n : Nat) : Int) : ℚ) - ideal f s (n + 1) = x at *
  have hcut : cut f n ≤ 1000 * f * (2 * q + 3) ↔ (cut f n : ℚ) ≤ 1000 * f * (2 * q + 3) := by
    exact_mod_cast Iff.rfl
  rw [hcut]
  push_cast
  constructor
  · rintro ⟨h1, -⟩
    have h2 := mul_le_mul_of_nonneg_left h1 hfq.le
    linarith
  · intro h
    constructor
    · refine le_of_mul_le_mul_left ?_ hfq
      linarith
    · refine le_of_mul_le_mul_left ?_ hfq
      linarith

/-- the truncations that matter: those of the first `2^23` ticks, or none -/
theorem cut_le_iff (hf : 1 ≤ f) (hf' : f ≤ 100) (n : Nat) :
    cut f n ≤ 1000 * f * (2 * (n / 2^23) + 3) ↔
      f ∣ 10^12 ∨ (n + 1) * (10^12 % f) + f * (10^12 / f * (n + 1) % 1000) ≤ 3000 * f := by
  unfold cut
  have ha := Nat.mod_lt (10^12 / f * 2^23) (show 0 < 1000 by decide)
  have hb := Nat.mod_lt (10^12 / f * (n % 2^23 + 1)) (show 0 < 1000 by decide)
  by_cases hr : f ∣ 10^12
  · rw [Nat.mod_eq_zero_of_dvd hr, Nat.mul_zero, Nat.zero_add]
    refine ⟨fun _ => .inl hr, fun _ => ?_⟩
    generalize n / 2^23 = q at *
    generalize 10^12 / f * 2^23 % 1000 = a at *
    generalize 10^12 / f * (n % 2^23 + 1) % 1000 = b at *
    have h1 : q * a ≤ q * 1000 := Nat.mul_le_mul_left q ha.le
    calc f * (q * a + b) ≤ f * (1000 * (2 * q + 3)) := Nat.mul_le_mul_left f (by omega)
      _ = 1000 * f * (2 * q + 3) := by ring
  · have hpos : 1 ≤ 10^12 % f := Nat.pos_of_ne_zero fun h => hr (Nat.dvd_of_mod_eq_zero h)
    have hlong : n + 1 ≤ (n + 1) * (10^12 % f) := Nat.le_mul_of_pos_right _ hpos
    by_cases hq : n < 2^23
    · rw [Nat.div_eq_of_lt hq, Nat.mod_eq_of_lt hq, Nat.zero_mul, Nat.zero_add]
      constructor
      · intro h
        exact .inr (by omega)
      · rintro (h | h)
        · exact absurd h hr
        · omega
    · -- later the truncations of the period are more than any bound allows
      generalize (n + 1) * (10^12 % f) = x at *
      generalize f * (10^12 / f * (n + 1) % 1000) = y at *
      generalize f * (n / 2^23 * _ + _) = z at *
      have h1 : 1000 * f * (2 * (n / 2^23) + 3) ≤ 100000 * (2 * (n / 2^23) + 3) :=
        Nat.mul_le_mul_right _ (by omega)
      constructor
      · intro h
        omega
      · rintro (h | h)
        · exact absurd h hr
        · omega

/-- **The accuracy of the schedule.**  The `n`-th target after a start is within 1 ns and 1 ns for
each reset of the ideal time if and only if the period is a whole number of picoseconds or the
truncations have not yet added up to 3 ns. -/
theorem accuracy_iff (k : TimerClass) (A : FastInts) (hf : 1 ≤ f) (hf' : f ≤ 100) (t : Timer)
    (ht : t.timerStarted = false) (C : Clock) :
    ∃ u, arm k f t C.readings = some (u, C.rest) ∧
      ∀ (bs : List Bool) (v : Timer) (c : List Nat) (n : Nat),
        (tickMachine k A).run (u, C.rest) bs = some (v, c) → n = bs.count true + 1 →
        (Accurate f C.first n v.target ↔
          f ∣ 10^12 ∨ n * (10^12 % f) + f * (10^12 / f * n % 1000) ≤ 3000 * f) := by
  refine ⟨_, arm_eq k hf hf' ht C, ?_⟩
  rintro bs v c n h rfl
  have hv : OnSchedule f C.first (bs.count true) v c :=
    run_onSchedule k (armed_onSchedule f t C) h
  rw [hv.target_eq, accurate_iff_cut hf, cut_le_iff hf hf']

theorem always_accurate_iff (hf : 1 ≤ f) (hf' : f ≤ 100) (s : Nat) :
    (∀ n, Accurate f s (n + 1) (target f s n)) ↔ f ∣ 10^12 := by
  constructor
  · intro h
    by_contra hr
    have hpos : 1 ≤ 10^12 % f := Nat.pos_of_ne_zero fun h => hr (Nat.dvd_of_mod_eq_zero h)
    have hlong : 2^23 + 1 ≤ (2^23 + 1) * (10^12 % f) := Nat.le_mul_of_pos_right _ hpos
    have hbound := (cut_le_iff hf hf' (2^23)).mp ((accurate_iff_cut hf s _).mp (h (2^23)))
    have hle := hbound.resolve_left hr
    omega
  · exact fun h n => (accurate_iff_cut hf s n).mpr ((cut_le_iff hf hf' n).mpr (.inl h))

/-- the third target at 3 Hz, whose period is not a whole number of nanoseconds -/
theorem accuracy_truncated :
    ∃ u v, arm .busyWait 3 newBusyWaitTimer [7, 7, 9, 333333341, 333333345, 666666674]
        = some (u, [7, 9, 333333341, 333333345, 666666674]) ∧
      (tickMachine .busyWait FastInts.lp64).run (u, [7, 9, 333333341, 333333345, 666666674])
        [true, true] = some (v, []) ∧
      Accurate 3 7 3 v.target := by
  let rest := [7, 9, 333333341, 333333345, 666666674]
  obtain ⟨u, hu, h⟩ := accuracy_iff .busyWait FastInts.lp64 (f := 3) (by decide) (by decide)
    newBusyWaitTimer rfl ⟨7, rest, by simp [rest, After]⟩
  have hrun : ((arm .busyWait 3 newBusyWaitTimer (7 :: rest)).bind fun x =>
      ((tickMachine .busyWait FastInts.lp64).run x [true, true]).map Prod.snd) = some [] := by
    decide
  obtain ⟨x, hx, hr⟩ := Option.bind_eq_some_iff.mp hrun
  obtain ⟨⟨v, c⟩, hv, rfl⟩ := Option.map_eq_some_iff.mp hr
  have hxu : x = (u, rest) := Option.some.inj (hx.symm.trans hu)
  subst hxu
  exact ⟨u, v, hu, hv, (h [true, true] v [] 3 hv rfl).mpr (.inr (by decide))⟩

/-- the clock that reads 0 at the start and then the targets of 9999 ticks at 3 Hz -/
def threeHertz : Clock :=
  ⟨0, punctual 3 0 0 9999, after_punctual (Nat.zero_le _) (by decide)⟩

/-- a busy wait at 3 Hz: its target 10000 is more than 2 ns early -/
theorem drifted_target :
    ∃ u v, arm .busyWait 3 newBusyWaitTimer threeHertz.readings = some (u, threeHertz.rest) ∧
      (tickMachine .busyWait FastInts.lp64).run (u, threeHertz.rest) (List.replicate 9999 true)
        = some (v, []) ∧
      ¬ Accurate 3 0 10000 v.target := by
  have harm := arm_eq .busyWait (f := 3) (by decide) (by decide)
    (t := newBusyWaitTimer) rfl threeHertz
  have h0 : OnSchedule 3 0 0 (newBusyWaitTimer.armed 3 0) threeHertz.rest :=
    armed_onSchedule 3 newBusyWaitTimer threeHertz
  obtain ⟨v, hv⟩ := punctual_run (A := FastInts.lp64) h0
  refine ⟨_, v, harm, hv, ?_⟩
  have hend := run_onSchedule .busyWait h0 hv
  rw [List.count_replicate_self] at hend
  rw [hend.target_eq, accurate_iff_cut (by decide), cut_le_iff (by decide) (by decide)]
  decide

end
end RealTimeTransfer
