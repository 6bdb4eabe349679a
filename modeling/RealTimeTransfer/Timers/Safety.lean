import RealTimeTransfer.Timers.Call
import RealTimeTransfer.Timers.Contract

/-!
# No tick is early

What the calls of `sleep_to_next_tick` compute with: no reading is before `start_time_`, so no
elapsed time and no remaining time wraps, and a call that returns true has read a time at or after
its target.

* `TimerClass.blocks`    for how long a class blocks when `left` ns are missing;
* `TickPc.At.step`       one step of a call: what its locals and its readings are;
* `TimerObject.Since.call`  any call of the object keeps `start_time_` before the clock;
* `never_early`          the law of every call after a start.
-/

namespace RealTimeTransfer
open Words Machines TickEvent

/-- how long `nanoseconds_sleep` is asked to sleep when `left` ns are missing; `none` is no call -/
def TimerClass.blocks (left : Nat) : TimerClass → Option Nat
  | .busyWait => none
  | .worstCase w => if left < w then none else some (left - w)
  | .freeWait => some left

/-- a spin whose last reading is `b`: all others, and the entry reading `e`, were before `B` -/
def Spun (B e : Nat) (rs : List Nat) (b : Nat) : Prop :=
  (rs = [] ∧ b = e) ∨ (e < B ∧ ∃ l, rs = l ++ [b] ∧ ∀ x ∈ l, x < B)

/-- a spin that has ended at the first of its readings not before `B`, or at once -/
def SpinEnded (B e : Nat) (rs : List Nat) : Prop :=
  (rs = [] ∧ e = B) ∨ (e < B ∧ ∃ l r, rs = l ++ [r] ∧ (∀ x ∈ l, x < B) ∧ B ≤ r)

/-- the locals and the readings of a call that waits for `B`, at `p` -/
def TickPc.At (k : TimerClass) (A : FastInts) (t : Timer) (B : Nat) (es : List TickEvent) :
    TickPc → Prop
  | .entry => es = []
  | .sleeping cur ns p => ∃ e, cur = ofNs e ∧ e ≤ B ∧ k.blocks (B - e) = some ns ∧ spins es = [] ∧
      readings es = e :: SleepEvent.readings (slept es) ∧
      p.At ns (SleepEvent.readings (slept es)) ∧ p ≠ .returned
  | .spinning cur => ∃ e b, cur = ofNs b ∧ e ≤ B ∧ Spun B e (spins es) b ∧
      readings es = e :: (SleepEvent.readings (slept es) ++ spins es)
  | .returned ok u => ok = true → u = t.advance A ∧ ∃ e, e ≤ B ∧
      readings es = e :: (SleepEvent.readings (slept es) ++ spins es) ∧
      (SpinEnded B e (spins es) ∨ k = .freeWait ∧ ∃ r ∈ readings es, B ≤ r)

section
variable {k : TimerClass} {A : FastInts} {t : Timer} {base e : Nat} {p p' : TickPc}
  {es : List TickEvent} {ev : TickEvent}

theorem afterCheck_eq (hs : t.startTime = ofNs base) (ht : t.sleepTimeNs < 2^63) (hb : base ≤ e)
    (he : e < 2^63) (hle : e ≤ base + t.sleepTimeNs) :
    k.afterCheck t (ofNs e) = match k.blocks (base + t.sleepTimeNs - e) with
      | none => .spinning (ofNs e)
      | some ns => .sleeping (ofNs e) ns .entered := by
  have hleft : sub64 t.sleepTimeNs (timespecDiffNs t.startTime (ofNs e))
      = base + t.sleepTimeNs - e := by
    rw [hs, timespecDiffNs_ofNs hb he, sub64_eq (by omega) (by omega)]
    omega
  unfold TimerClass.afterCheck TimerClass.blocks
  rw [hleft]
  cases k with
  | busyWait => rfl
  | freeWait => rfl
  | worstCase w =>
    by_cases hlt : base + t.sleepTimeNs - e < w
    · simp only [if_pos hlt]
    · simp only [if_neg hlt]
      rw [sub64_eq (by omega) (by omega)]

theorem blocks_le {left ns : Nat} (h : k.blocks left = some ns) : ns ≤ left := by
  cases k with
  | busyWait => cases h
  | freeWait => exact (Option.some.inj h).ge
  | worstCase w =>
    obtain ⟨_, he⟩ := Option.ite_none_left_eq_some.mp h
    rw [← Option.some.inj he]
    exact Nat.sub_le _ _

theorem Spun.step {B b : Nat} {rs : List Nat} (h : Spun B e rs b) (hb : b < B) (r : Nat) :
    Spun B e (rs ++ [r]) r := by
  right
  rcases h with ⟨rfl, rfl⟩ | ⟨he, l, rfl, hl⟩
  · exact ⟨hb, [], rfl, nofun⟩
  · refine ⟨he, l ++ [b], rfl, ?_⟩
    rw [List.forall_mem_append]
    exact ⟨hl, List.forall_mem_singleton.mpr hb⟩

theorem Spun.ended {B b : Nat} {rs : List Nat} (h : Spun B e rs b) (he : e ≤ B) (hb : B ≤ b) :
    SpinEnded B e rs := by
  rcases h with ⟨rfl, rfl⟩ | ⟨he, l, rfl, hl⟩
  · exact .inl ⟨rfl, le_antisymm he hb⟩
  · exact .inr ⟨he, l, b, rfl, hl, hb⟩

theorem Spun.before {B b : Nat} {rs : List Nat} (h : Spun B e rs b) (hb : b < B) :
    ∀ x ∈ e :: rs, x < B := by
  rcases h with ⟨rfl, rfl⟩ | ⟨he, l, rfl, hl⟩
  · exact List.forall_mem_singleton.mpr hb
  · rw [List.forall_mem_cons, List.forall_mem_append]
    exact ⟨he, hl, List.forall_mem_singleton.mpr hb⟩

theorem Spun.mem {B b : Nat} {rs l : List Nat} (h : Spun B e rs b) : b ∈ e :: (l ++ rs) := by
  rcases h with ⟨rfl, rfl⟩ | ⟨_, m, rfl, _⟩ <;> simp

theorem Spun.between {B b : Nat} {rs l rl : List Nat} (h : Spun B e rs b)
    (hl : rl = e :: (l ++ rs)) (hc : After base rl) : base ≤ b ∧ b < 2^63 := by
  rw [hl] at hc
  exact hc.mem h.mem

theorem SpinEnded.mem {B : Nat} {rs l : List Nat} (h : SpinEnded B e rs) :
    ∃ r ∈ e :: (l ++ rs), B ≤ r := by
  rcases h with ⟨rfl, rfl⟩ | ⟨_, m, r, rfl, _, hr⟩
  · exact ⟨e, List.mem_cons_self, le_rfl⟩
  · exact ⟨r, by simp, hr⟩

theorem SleepPc.At.call {B ns : Nat} {q q' : SleepPc} {e' : SleepEvent}
    (h : q.At ns (SleepEvent.readings (slept es))) (hk : k.blocks (B - e) = some ns)
    (hread : readings es = e :: SleepEvent.readings (slept es))
    (hc : After base (readings es ++ readings [.sleep e'])) (hB : B < base + 2^64)
    (hq : (sleepMachine ns).step q e' = some q') :
    q'.At ns (SleepEvent.readings (slept es ++ [e'])) ∧
      After e (SleepEvent.readings (slept es ++ [e'])) := by
  rw [hread] at hc
  obtain ⟨hb, hc⟩ := hc
  have hle := blocks_le hk
  have hafter : After e (SleepEvent.readings (slept es ++ [e'])) := by
    rw [SleepEvent.readings_append]
    exact hc
  exact ⟨h.step (by omega) (hafter.mono (Nat.zero_le e)) hq, hafter⟩

/-- **One step of a call.** -/
theorem TickPc.At.step (hs : t.startTime = ofNs base) (ht : t.sleepTimeNs < 2^63)
    (h : p.At k A t (base + t.sleepTimeNs) es) (hc : After base (readings (es ++ [ev])))
    (hstep : (callMachine k A t).step p ev = some p') :
    p'.At k A t (base + t.sleepTimeNs) (es ++ [ev]) := by
  have hdiff : ∀ b, base ≤ b → b < 2^63 → timespecDiffNs t.startTime (ofNs b) = b - base :=
    fun b h1 h2 => by rw [hs, timespecDiffNs_ofNs h1 h2]
  rw [readings_append] at hc
  cases TickPc.step_next hstep with
  | late r _ => exact nofun
  | check r hlate =>
    cases (show es = [] from h)
    obtain ⟨hb, hlt⟩ := hc
    have hr : r < 2^63 := hlt
    rw [hdiff r hb hr] at hlate
    rw [afterCheck_eq hs ht hb hr (by omega)]
    cases hk : k.blocks (base + t.sleepTimeNs - r) with
    | none => exact ⟨r, r, rfl, by omega, .inl ⟨rfl, rfl⟩, rfl⟩
    | some ns => exact ⟨r, rfl, by omega, hk, rfl, rfl, rfl, nofun⟩
  | sleep cur ns q q' e' hq hne =>
    obtain ⟨e, rfl, he, hk, hspins, hread, hat, -⟩ := h
    obtain ⟨hat', -⟩ := hat.call hk hread hc (by omega) hq
    refine ⟨e, rfl, he, hk, ?_, ?_, ?_, hne⟩
    · rw [spins_append, hspins]
      rfl
    · rw [readings_append, slept_append, SleepEvent.readings_append, hread]
      rfl
    · rw [slept_append]
      exact hat'
  | awake cur ns q e' hq =>
    obtain ⟨e, rfl, he, hk, hspins, hread, hat, -⟩ := h
    obtain ⟨⟨a, b, hab, hns⟩, hafter⟩ := hat.call hk hread hc (by omega) hq
    have hread' : readings (es ++ [.sleep e'])
        = e :: (SleepEvent.readings (slept (es ++ [.sleep e'])) ++ spins (es ++ [.sleep e'])) := by
      rw [readings_append, slept_append, spins_append, SleepEvent.readings_append, hread, hspins]
      exact congrArg (e :: ·) (List.append_nil _).symm
    have hspins' : spins (es ++ [.sleep e']) = [] := by
      rw [spins_append, hspins]
      rfl
    cases k with
    | busyWait => cases hk
    | worstCase w => exact ⟨e, e, rfl, he, .inl ⟨hspins', rfl⟩, hread'⟩
    | freeWait =>
      -- the last reading is at least `B - e` after the first one, which is not before `e`
      obtain rfl := Option.some.inj hk
      have hea : e ≤ a := (hafter.mem (List.mem_of_head? hab.1)).1
      have hb : b ∈ SleepEvent.readings (slept es ++ [e']) := List.mem_of_getLast? hab.2
      refine fun _ => ⟨rfl, e, he, hread', .inr ⟨rfl, b, ?_, ?_⟩⟩
      · rw [hread', slept_append]
        exact List.mem_cons_of_mem _ (List.mem_append_left _ hb)
      · have hle := (hafter.span hab).1
        omega
  | spin cur r hlt =>
    obtain ⟨e, b, rfl, he, hspun, hread⟩ := h
    obtain ⟨hb, hb'⟩ := hspun.between hread hc.of_append
    rw [hdiff b hb hb'] at hlt
    refine ⟨e, r, rfl, he, ?_, ?_⟩
    · rw [spins_append]
      exact hspun.step (by omega) r
    · rw [readings_append, slept_append, spins_append, SleepEvent.readings_append, hread]
      show e :: _ ++ [r] = e :: (_ ++ [] ++ (_ ++ [r]))
      rw [List.append_nil, ← List.append_assoc]
      rfl
  | ret cur hlt =>
    obtain ⟨e, b, rfl, he, hspun, hread⟩ := h
    obtain ⟨hb, hb'⟩ := hspun.between hread hc.of_append
    rw [hdiff b hb hb'] at hlt
    refine fun _ => ⟨rfl, e, he, ?_, .inl ?_⟩
    · rw [readings_append, slept_append, spins_append, hread]
      show e :: _ ++ [] = e :: (SleepEvent.readings (_ ++ []) ++ (_ ++ []))
      rw [List.append_nil, List.append_nil, List.append_nil]
    · rw [spins_append]
      show SpinEnded _ e (spins es ++ [])
      rw [List.append_nil]
      exact hspun.ended he (by omega)

/-- **A run of a call**, returned or not. -/
theorem call_at (hs : t.startTime = ofNs base) (ht : t.sleepTimeNs < 2^63)
    (hr : (callMachine k A t).run .entry es = some p) (hc : After base (readings es)) :
    p.At k A t (base + t.sleepTimeNs) es := by
  refine (Machine.runs_of_run hr).follows (fun l w => After base (readings l) →
    TickPc.At k A t (base + t.sleepTimeNs) l w) (fun _ => rfl) ?_ hc
  intro l w ev w' hw _ hstep hc
  refine TickPc.At.step hs ht (hw ?_) hc hstep
  rw [readings_append] at hc
  exact hc.of_append

theorem reads_target (hs : t.startTime = ofNs base) (ht : t.sleepTimeNs < 2^63) {d : List Nat}
    (hc : After base d) {x : Tick} (hx : k.sleepToNextTick A t d = some x) (hok : x.ok = true) :
    ∃ used, d = used ++ x.clock ∧ ∃ r ∈ used, base + t.sleepTimeNs ≤ r := by
  obtain ⟨es, hr, -, rfl⟩ := sleepToNextTick_iff.mp hx
  obtain ⟨-, e, -, hread, hend⟩ := call_at hs ht hr hc.of_append hok
  refine ⟨readings es, rfl, ?_⟩
  rcases hend with hend | ⟨-, hmem⟩
  · rw [hread]
    exact hend.mem
  · exact hmem

end

/-! ## The calls after a start -/

/-- a timer set to some frequency and started at `base`, or moved there by a reset -/
structure Timer.Since (base : Nat) (t : Timer) : Prop where
  ps : ∃ f, t.originalSleepTimePs = 10^12 / f
  counter : t.sleepCounter ≤ 2^23
  ns : t.sleepTimeNs < 2^63
  start : t.startTime = ofNs base

/-- and no reading to come is before `start_time_` -/
structure TimerObject.Since (base : Nat) (s : TimerObject) : Prop where
  timer : s.timer.Since base
  after : After base s.clock

section
variable {k : TimerClass} {A : FastInts} {t t' : Timer} {base f : Nat} {s s' : TimerObject}
  {e : TimerCall}

theorem nextSleepTimeNs_lt {ps n : Nat} (hps : ∃ f, ps = 10^12 / f) (hn : n ≤ 2^23) :
    Timer.nextSleepTimeNs ps n < 2^63 := by
  obtain ⟨f, rfl⟩ := hps
  rw [nextSleepTimeNs_eq f n hn]
  exact targetNs_lt f n hn

theorem Timer.Since.same (h : t.Since base) (hps : ∃ f, t'.originalSleepTimePs = 10^12 / f)
    (hn : t'.sleepCounter = t.sleepCounter) (hns : t'.sleepTimeNs = t.sleepTimeNs)
    (hs : t'.startTime = t.startTime) : t'.Since base :=
  ⟨hps, hn.le.trans h.counter, hns.symm ▸ h.ns, hs.trans h.start⟩

/-- the end of a successful call: a reset moves `start_time_` to the target just reached -/
theorem Timer.Since.advance (h : t.Since base) {l : Nat} (hl : base + t.sleepTimeNs ≤ l)
    (hlt : l < 2^63) : ∃ base', base' ≤ l ∧ (t.advance A).Since base' := by
  have key : ∀ {k b start}, Advanced t (t.advance A) k start → k ≤ 2^23 → start = ofNs b →
      (t.advance A).Since b := by
    rintro k b start ⟨h1, h2, h3, h4⟩ hk hb
    refine ⟨?_, h2.le.trans hk, ?_, h4.trans hb⟩
    · rw [h1]
      exact h.ps
    · rw [h3]
      exact nextSleepTimeNs_lt h.ps hk
  by_cases hr : t.sleepCounter = 2^23
  · have hns := h.ns
    refine ⟨base + t.sleepTimeNs, hl, key (Timer.advanced_reset hr) (by decide) ?_⟩
    rw [h.start]
    apply addNs_ofNs
    apply fits_ofNs.mpr
    constructor <;> omega
  · have hcnt : t.sleepCounter < 2^23 := lt_of_le_of_ne h.counter hr
    exact ⟨base, by omega, key (Timer.advanced_count hcnt) hcnt h.start⟩

/-- **Any call keeps `start_time_` before the clock.** -/
theorem TimerObject.Since.call (h : s.Since base) (hs : s.call k A e = some s') :
    ∃ base', s'.Since base' := by
  obtain ⟨htimer, hafter⟩ := h
  cases TimerObject.call_calls hs with
  | initialized => exact ⟨base, htimer.same htimer.ps rfl rfl rfl, hafter⟩
  | refused f x _ => exact ⟨base, htimer.same htimer.ps rfl rfl rfl, hafter⟩
  | trapped => exact ⟨base, htimer, hafter⟩
  | accepted f _ _ => exact ⟨base, htimer.same ⟨f, rfl⟩ rfl rfl rfl, hafter⟩
  | running x _ => exact ⟨base, htimer.same htimer.ps rfl rfl rfl, hafter⟩
  | started r c _ hc =>
    rw [hc] at hafter
    exact ⟨r, ⟨htimer.ps, Nat.one_le_two_pow, nextSleepTimeNs_lt htimer.ps (by decide), rfl⟩,
      hafter.2⟩
  | stopped => exact ⟨base, htimer.same htimer.ps rfl rfl rfl, hafter⟩
  | late r c x hc _ =>
    rw [hc] at hafter
    exact ⟨base, htimer.same htimer.ps rfl rfl rfl, hafter.2.mono hafter.1⟩
  | ticked c _ =>
    obtain ⟨x, hx, hs⟩ := Option.bind_eq_some_iff.mp hs
    obtain ⟨hok, he⟩ := Option.ite_some_none_eq_some.mp hs
    have hclock : x.clock = c := congrArg TimerObject.clock he
    obtain ⟨used, hused, r, hr, hle⟩ := reads_target htimer.start htimer.ns hafter hx hok
    rw [hused, hclock] at hafter
    obtain ⟨base', hle', hsince⟩ := htimer.advance (A := A) hle (hafter.after_mem hr).lt
    exact ⟨base', hsince, (hafter.after_mem hr).mono hle'⟩

theorem since_of_run {raw : Timer} {c : List Nat} {es : List TimerCall} (hc : After 0 c)
    (hr : (timerObject k A).run (.new k raw c)
      (.setFrequency f (some true) :: .startTimer true :: es) = some s) :
    ∃ base, s.Since base := by
  obtain ⟨u, hu, hr⟩ := Option.bind_eq_some_iff.mp hr
  obtain ⟨v, hv, hr⟩ := Option.bind_eq_some_iff.mp hr
  change (TimerObject.new k raw c).step k A (.setFrequency f (some true)) = some u at hu
  have hset : (TimerObject.new k raw c).call k A (.setFrequency f (some true)) = some u :=
    (TimerObject.step_call hu).2
  have hrun : u.call k A (.startTimer true) = some v := (TimerObject.step_call hv).2
  have hstart : ∃ base, v.Since base := by
    cases TimerObject.call_calls hset with
    | accepted f h1 h2 =>
      cases TimerObject.call_calls hrun with
      | started r d _ hd =>
        change c = r :: d at hd
        rw [hd] at hc
        exact ⟨r, ⟨⟨f, rfl⟩, Nat.one_le_two_pow, nextSleepTimeNs_lt ⟨f, rfl⟩ (by decide), rfl⟩,
          hc.2⟩
  refine (Machine.runs_of_run hr).keeps (fun w => ∃ base, TimerObject.Since base w) hstart ?_
  rintro w e w' ⟨base, hw⟩ _ hs
  exact hw.call (TimerObject.step_call hs).2

/-- **No tick is early.**  Whatever calls follow a start, and whatever `nanosleep` did in them, the
next reading of the clock is not before `start_time_`, also after a reset; past the check of a late
call the remaining times are exact, and not negative; and a call that returns true has read a time
at or after its target. -/
theorem never_early {raw : Timer} {c : List Nat} {es : List TimerCall} (hc : After 0 c)
    (hr : (timerObject k A).run (.new k raw c)
      (.setFrequency f (some true) :: .startTimer true :: es) = some s) :
    (∀ r d, s.clock = r :: d →
      let elapsed := timespecDiffNs s.timer.startTime (ofNs r)
      let left := sub64 s.timer.sleepTimeNs elapsed
      s.timer.startTime.ns ≤ r ∧ (elapsed : Int) = r - s.timer.startTime.ns ∧
        (elapsed ≤ s.timer.sleepTimeNs →
          0 ≤ s.timer.target - r ∧ (left : Int) = s.timer.target - r ∧
          ∀ w, k = .worstCase w → ¬ left < w →
            0 ≤ s.timer.target - r - w ∧ (sub64 left w : Int) = s.timer.target - r - w)) ∧
      ∀ x, k.sleepToNextTick A s.timer s.clock = some x → x.ok = true →
        ∃ used, s.clock = used ++ x.clock ∧ ∃ r ∈ used, s.timer.target ≤ r := by
  obtain ⟨base, htimer, hafter⟩ := since_of_run hc hr
  have htarget : s.timer.target = (base + s.timer.sleepTimeNs : Nat) := by
    unfold Timer.target
    rw [htimer.start, ns_ofNs, Nat.cast_add]
  have hns := htimer.ns
  constructor
  · intro r d hd elapsed left
    rw [hd] at hafter
    have hb := hafter.1
    have helapsed : elapsed = r - base := by
      show timespecDiffNs s.timer.startTime (ofNs r) = _
      rw [htimer.start, timespecDiffNs_ofNs hb hafter.2.lt]
    rw [htarget, htimer.start, ns_ofNs]
    refine ⟨by omega, by omega, fun hle => ?_⟩
    have hleft : left = s.timer.sleepTimeNs - (r - base) := by
      show sub64 s.timer.sleepTimeNs elapsed = _
      rw [sub64_eq hle (by omega), helapsed]
    refine ⟨by omega, by omega, fun w _ hw => ?_⟩
    rw [sub64_eq (Nat.le_of_not_lt hw) (by omega)]
    omega
  · intro x hx hok
    obtain ⟨used, hused, r, hmem, hle⟩ := reads_target htimer.start hns hafter hx hok
    refine ⟨used, hused, r, hmem, ?_⟩
    rw [htarget]
    exact_mod_cast hle

end

/-- a tick at 100 Hz: it sleeps until 1 ms before the target, is interrupted, and spins -/
theorem never_early_interrupted :
    ∃ s x used, (timerObject (.worstCase 1000000) FastInts.lp64).run
        (.new (.worstCase 1000000) ⟨⟨0, 0⟩, 0, 0, 0, false, 0, Error.construct ""⟩
          [7, 9, 10, 10, 5000000, 9000010, 10000007, 10000012])
        [.setFrequency 100 (some true), .startTimer true] = some s ∧
      (TimerClass.worstCase 1000000).sleepToNextTick FastInts.lp64 s.timer s.clock = some x ∧
      s.clock = used ++ x.clock ∧ ∃ r ∈ used, s.timer.target ≤ r := by
  have hrun : ((timerObject (.worstCase 1000000) FastInts.lp64).run
      (.new (.worstCase 1000000) ⟨⟨0, 0⟩, 0, 0, 0, false, 0, Error.construct ""⟩
        [7, 9, 10, 10, 5000000, 9000010, 10000007, 10000012])
      [.setFrequency 100 (some true), .startTimer true]).bind (fun s =>
        ((TimerClass.worstCase 1000000).sleepToNextTick FastInts.lp64 s.timer s.clock).map
          fun x => x.ok) = some true := by decide
  obtain ⟨s, hs, hrun⟩ := Option.bind_eq_some_iff.mp hrun
  obtain ⟨x, hx, hok⟩ := Option.map_eq_some_iff.mp hrun
  obtain ⟨used, h1, h2⟩ := (never_early (by simp [After]) hs).2 x hx hok
  exact ⟨s, x, used, hs, hx, h1, h2⟩

end RealTimeTransfer
