import RealTimeTransfer.Timers.Targets

/-!
# Regular ticks

The targets of a timer do not depend on its clock: as long as the last one is a representable time,
every call that ticks moves the schedule by one tick, whatever the readings were.

* `target_strictMono`   a later tick has a later target;
* `run_scheduled`       the schedule of a run over any list of readings;
* `regular_ticks`       consecutive targets are one period apart, at a reset as anywhere else.
-/

namespace RealTimeTransfer
open Words Machines

/-- the times a `timespec` can hold end here -/
def timespecEnd : Nat := 2^63 * 10^9

theorem period_pos {f : Nat} (hf : 1 ≤ f) (hf' : f ≤ 100) : 0 < 10^9 / f := by
  apply Nat.div_pos
  · omega
  · omega

theorem target_strictMono {f : Nat} (hf : 1 ≤ f) (hf' : f ≤ 100) (s : Nat) :
    StrictMono (target f s) := by
  apply strictMono_nat_of_lt_succ
  intro n
  have hp := period_pos hf hf'
  rcases target_succ f s n with h | h <;> omega

section
variable {A : FastInts} {f s n : Nat} {t : Timer} {c : List Nat}

theorem Scheduled.fits (h : Scheduled f s n t) (hn : target f s n < timespecEnd) :
    (ofNs (origin f s n)).Fits t.sleepTimeNs := by
  have hlt := h.ns_lt
  rw [← h.target_nat] at hn
  unfold timespecEnd at hn
  apply fits_ofNs.mpr
  constructor <;> omega

/-- **The schedule of a run**, over readings that need not even be ordered. -/
theorem run_scheduled (k : TimerClass) (hf : 1 ≤ f) (hf' : f ≤ 100) {u v : Timer × List Nat}
    {bs : List Bool} (h0 : Scheduled f s 0 u.1) (h : (tickMachine k A).run u bs = some v)
    (hfit : target f s (bs.count true) < timespecEnd) : Scheduled f s (bs.count true) v.1 := by
  refine (Machine.runs_of_run h).follows (fun l (w : Timer × List Nat) =>
    target f s (l.count true) < timespecEnd →
      Scheduled f s (l.count true) w.1) (fun _ => h0) ?_ hfit
  intro l w b w' ih _ hs hfit
  obtain ⟨x, hx, hs⟩ := Option.bind_eq_some_iff.mp hs
  obtain ⟨hb, hs⟩ := Option.ite_some_none_eq_some.mp hs
  subst hs
  obtain ⟨htick, hlate⟩ := sleepToNextTick_timer k hx
  rw [List.count_append] at hfit ⊢
  cases b with
  | true =>
    have hlt := target_strictMono hf hf' s (Nat.lt_succ_self (l.count true))
    have hw := ih (lt_trans hlt hfit)
    show Scheduled f s (l.count true + 1) x.timer
    rw [htick hb]
    exact hw.advance (hw.fits (lt_trans hlt hfit))
  | false =>
    obtain ⟨h1, h2, h3, h4⟩ := ih hfit
    show Scheduled f s (l.count true) x.timer
    rw [hlate hb]
    exact ⟨h1, h2, h3, h4⟩

theorem armed_scheduled (f s : Nat) (t : Timer) : Scheduled f s 0 (t.armed f s) := by
  refine ⟨rfl, rfl, nextSleepTimeNs_eq f 1 (by omega), ?_⟩
  rw [origin_zero]
  rfl

end

/-- **Regular ticks.**  Whatever the clock reads, the targets of the `n`-th and the next tick are
one period in ns apart, or one nanosecond more, also where the origin moves; so targets increase. -/
theorem regular_ticks (k : TimerClass) (A : FastInts) {f : Nat} (hf : 1 ≤ f) (hf' : f ≤ 100)
    (t : Timer) (ht : t.timerStarted = false) (s : Nat) (c : List Nat) :
    ∃ u, arm k f t (s :: c) = some (u, c) ∧
      ∀ (bs bs' : List Bool) (v v' : Timer) (d d' : List Nat) (n : Nat),
        (tickMachine k A).run (u, c) bs = some (v, d) → bs.count true + 1 = n →
        (tickMachine k A).run (u, c) bs' = some (v', d') →
        target f s (bs'.count true) < timespecEnd →
        let p : Nat := 10^12 / f
        let q : Nat := p / 1000
        (bs'.count true = n → v'.target = v.target + q ∨ v'.target = v.target + (q + 1)) ∧
          (n ≤ bs'.count true → v.target < v'.target) := by
  refine ⟨_, arm_cons k hf hf' ht s c, ?_⟩
  intro bs bs' v v' d d' n hv hn hv' hfit p q
  have h0 := armed_scheduled f s t
  have hmono := target_strictMono hf hf' s
  have hlater : Scheduled f s (bs'.count true) v' := run_scheduled k hf hf' h0 hv' hfit
  have hearlier : n ≤ bs'.count true → Scheduled f s (bs.count true) v := by
    intro hle
    exact run_scheduled k hf hf' h0 hv (lt_trans (hmono (by omega)) hfit)
  constructor
  · intro he
    rw [hlater.target_eq, (hearlier he.ge).target_eq, he, ← hn]
    have hq : q = 10^9 / f := period_ns f
    rcases target_succ f s (bs.count true) with h | h
    · left
      rw [h, hq, Nat.cast_add]
    · right
      rw [h, hq, Nat.cast_add, Nat.cast_add, ← add_assoc]
      rfl
  · intro hle
    rw [hlater.target_eq, (hearlier hle).target_eq]
    exact_mod_cast hmono (by omega : bs.count true < bs'.count true)

/-- the first two targets at 3 Hz, on a clock that runs backwards in between -/
theorem regular_ticks_backwards :
    ∃ u v, arm .busyWait 3 newBusyWaitTimer [9, 12, 333333343, 5] = some (u, [12, 333333343, 5]) ∧
      (tickMachine .busyWait FastInts.lp64).run (u, [12, 333333343, 5]) [true] = some (v, [5]) ∧
      (v.target = u.target + 333333333 ∨ v.target = u.target + 333333334) := by
  obtain ⟨u, hu, h⟩ := regular_ticks .busyWait FastInts.lp64 (f := 3) (by decide) (by decide)
    newBusyWaitTimer rfl 9 [12, 333333343, 5]
  have hrun : ((arm .busyWait 3 newBusyWaitTimer [9, 12, 333333343, 5]).bind fun x =>
      ((tickMachine .busyWait FastInts.lp64).run x [true]).map Prod.snd) = some [5] := by decide
  obtain ⟨x, hx, hr⟩ := Option.bind_eq_some_iff.mp hrun
  obtain ⟨⟨v, d⟩, hv, rfl⟩ := Option.map_eq_some_iff.mp hr
  have hxu : x = (u, [12, 333333343, 5]) := Option.some.inj (hx.symm.trans hu)
  subst hxu
  exact ⟨u, v, hu, hv, (h [] [true] u v _ [5] 1 rfl rfl hv (by decide)).1 rfl⟩

end RealTimeTransfer
