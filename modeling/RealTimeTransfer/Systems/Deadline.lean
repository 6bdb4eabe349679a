import RealTimeTransfer.Systems.Delays
import RealTimeTransfer.Timers.Targets
import Mathlib.Algebra.Order.BigOperators.Group.Finset
import Mathlib.Algebra.Order.Field.Basic
import Mathlib.Data.Nat.Cast.Order.Field

/-!
# The time spent in the tolerance loop

The tolerance loop counts sleeps of 500 us and reads no clock.  In `timed A late` the sleep number
`i` of the loop is `late i` ns too long and all else takes no time.

* `timed_run`          the time at any point of the iteration is a sum over the sleeps so far;
* `refused_after`      a timer asked within a period of its last target is not refused;
* `InTime`             what the limit is for: the loop keeps it, a margin of 5 ms is left, and the
                       next tick is not refused;
* `deadline_iff`       on every clock of lateness at most `d` the iteration is in time if and only
                       if the lateness of all sleeps but one fits in the tolerance that was not
                       slept;
* `deadline_missed`    sleeps that are 1 ms late.
-/

namespace RealTimeTransfer
open Machines Words

/-- the points of an iteration -/
def SystemPc.inIteration (pc : SystemPc) : Bool := pc.deciding || pc.serving

/-- the points of the tolerance loop -/
def SystemPc.waiting : SystemPc → Bool
  | .toleranceTest | .toleranceSleep => true
  | _ => false

/-- the condition of a step inside an iteration -/
def InIteration (s : RealTimeSystem) (_ : SystemEvent) : Prop := s.pc.inIteration = true

instance (s : RealTimeSystem) (e : SystemEvent) : Decidable (InIteration s e) :=
  inferInstanceAs (Decidable (_ = _))

/-- the object, the time in ns, and the sleeps since the loop was entered -/
structure Timed where
  system : RealTimeSystem
  now : Nat
  slept : Nat := 0

/-- the time that a step takes -/
def Timed.took (late : Nat → Nat) (x : Timed) (e : SystemEvent) (t : RealTimeSystem) : Timed :=
  match e with
  | .sleepUs n => ⟨t, x.now + (1000 * n + late x.slept), x.slept + 1⟩
  | _ => { x with system := t }

def timed (A : FastInts) (late : Nat → Nat) : Machine Timed SystemEvent where
  step x e := (x.system.step A e).map (x.took late e)

/-- the sleeps that the answers `l` lead to, at the tolerance `m` -/
def sleepsOf (m : Nat) (l : List Bool) : Nat := min (l.takeWhile (!·)).length (2 * m)

/-- the target that the tick `n` waited for, and the start before the first tick -/
def lastTarget (f s : Nat) : Nat → Nat
  | 0 => s
  | n + 1 => target f s n

/-- an iteration whose loop is entered at `a`, at the time `b` behind the loop: the limit is kept
but for the lateness `d` of one sleep, so is the margin, and after an entry at the target the next
tick is not refused -/
structure InTime (k : TimerClass) (A : FastInts) (f m d a b : Nat) : Prop where
  limit : b ≤ a + (m * 10^6 + d)
  margin : (b - a : ℚ) + 5 * 10^6 ≤ 10^9 / f + d
  tick : d ≤ 5 * 10^6 → ∀ s n v c, OnSchedule f s n v (b :: c) → a = lastTarget f s n →
    ¬ ∃ x, k.sleepToNextTick A v (b :: c) = some x ∧ x.ok = false

section
variable {k : TimerClass} {A : FastInts} {s t v : RealTimeSystem} {e : SystemEvent}
  {es ls : List SystemEvent} {late : Nat → Nat} {m j d n a b f : Nat} {l : List Bool}

/-! ## The time at a point of the iteration -/

theorem RealTimeSystem.Moves.iteration (h : s.Moves A e t) (hs : s.pc.inIteration = true)
    (ht : t.pc.inIteration = true) : e.opens = false ∧
      ((e.isSleep = false ∧ (t.pc.waiting = true ∨ t.pc = .doneTest ∨ s.pc.waiting = false)) ∨
        (e = .sleepUs 500 ∧ t.pc.waiting = true)) := by
  cases h
  case toleranceOver => exact ⟨rfl, .inl ⟨rfl, .inr (.inl rfl)⟩⟩
  case tolerated b _ =>
    cases b with
    | true => exact ⟨rfl, .inl ⟨rfl, .inr (.inl rfl)⟩⟩
    | false => exact ⟨rfl, .inl ⟨rfl, .inl rfl⟩⟩
  case slept => exact ⟨rfl, .inr ⟨rfl, rfl⟩⟩
  case tested hpc _ | skipping hpc _ | keeping hpc _ | skipped hpc _ _ | called hpc _ | sent hpc =>
    exact ⟨rfl, .inl ⟨rfl, .inr (.inr (by rw [hpc]; rfl))⟩⟩
  case iterated hpc _ | polled hpc =>
    rw [hpc] at hs
    cases hs
  all_goals cases ht

theorem Timed.took_other (he : e.isSleep = false) (x : Timed) (t : RealTimeSystem) :
    x.took late e t = { x with system := t } := by
  cases e <;> first | rfl | cases he

/-- an iteration between its start and the state `v` -/
structure Passed (es : List SystemEvent) (s v : RealTimeSystem) : Prop where
  settled : v.Settled
  iterating : Iterating es v
  tolerance : v.msTolerance = s.msTolerance
  waited : v.pc.waiting = false →
    ∃ l l', polls es = l ++ l' ∧ Waited s.msTolerance (sleeps es) l

theorem SystemPc.inLoop_of_inIteration {pc : SystemPc} (h : pc.inIteration = true) :
    pc.inLoop = true := by
  cases pc <;> first | rfl | cases h

theorem waiting_of_loopTop (hpc : s.pc = .loopTop) (hs : s.step A .tau = some t)
    (ht : t.pc.inIteration = true) : t.pc.waiting = true := by
  have moves := RealTimeSystem.moves_of_inLoop hs (SystemPc.inLoop_of_inIteration ht)
  cases moves
  case iterated => rfl
  case toleranceOver hpc' => exact absurd (hpc.symm.trans hpc') nofun
  all_goals cases ht

theorem Passed.step (h : Passed es s v) (hin : v.pc.inIteration = true) (hs : v.step A e = some t)
    (ht : t.pc.inIteration = true) : Passed (es ++ [e]) s t := by
  have htl := SystemPc.inLoop_of_inIteration ht
  have hpc := RealTimeSystem.inside_of_inLoop hs htl
  have moves := RealTimeSystem.step_moves hpc hs
  have hm := (h.settled.tolerance_le hpc).2
  have hiter := h.iterating.step hm hs htl
  have htol : t.msTolerance = s.msTolerance := moves.settings.2.2.2.2.1.trans h.tolerance
  have hcall : UsesTimer .busyWait v e := by
    cases moves <;> trivial
  refine ⟨h.settled.step hcall hs, hiter, htol, fun hw => ?_⟩
  obtain ⟨ho, ⟨hns, hcase⟩ | ⟨-, hw'⟩⟩ := moves.iteration hin ht
  · rcases hcase with hw' | hdone | hv
    · exact absurd (hw.symm.trans hw') nofun
    · unfold Iterating at hiter
      rw [hdone, htol] at hiter
      exact ⟨_, [], (List.append_nil _).symm, hiter.2⟩
    · obtain ⟨l, l', hpolls, hwait⟩ := h.waited hv
      refine ⟨l, l' ++ e.asPoll.toList, ?_, ?_⟩
      · rw [polls_snoc ho, hpolls, List.append_assoc]
      · rw [sleeps_snoc ho hns]
        exact hwait
  · exact absurd (hw.symm.trans hw') nofun

/-- **The time at a point of the iteration.** -/
theorem timed_run (hp : Passed es s s) (h0 : sleeps es = 0)
    (hr : (system A).Runs InIteration s ls t) (ht : t.pc.inIteration = true) :
    Passed (es ++ ls) s t ∧ polls (es ++ ls) = polls es ++ ls.filterMap SystemEvent.asPoll ∧
      ∀ late a, (timed A late).run ⟨s, a, 0⟩ ls = some
        ⟨t, a + ∑ i ∈ Finset.range (sleeps (es ++ ls)), (500000 + late i), sleeps (es ++ ls)⟩ := by
  revert ht
  refine hr.follows (fun l v => v.pc.inIteration = true → Passed (es ++ l) s v ∧
    polls (es ++ l) = polls es ++ l.filterMap SystemEvent.asPoll ∧
    ∀ late a, (timed A late).run ⟨s, a, 0⟩ l = some
      ⟨v, a + ∑ i ∈ Finset.range (sleeps (es ++ l)), (500000 + late i), sleeps (es ++ l)⟩) ?_ ?_
  · intro _
    rw [List.append_nil]
    refine ⟨hp, by simp, fun late a => ?_⟩
    rw [h0]
    rfl
  · intro l v e v' ih hin hs ht
    obtain ⟨hpass, hpolls, hrun⟩ := ih hin
    have moves := RealTimeSystem.moves_of_inLoop hs (SystemPc.inLoop_of_inIteration ht)
    obtain ⟨ho, hcase⟩ := moves.iteration hin ht
    rw [← List.append_assoc]
    refine ⟨hpass.step hin hs ht, ?_, fun late a => ?_⟩
    · rw [polls_snoc ho, hpolls, List.filterMap_append, List.append_assoc]
      cases e <;> rfl
    refine Machine.run_snoc (hrun late a) ?_
    show (v.step A e).map _ = _
    rw [show v.step A e = some v' from hs, Option.map_some]
    congr 1
    rcases hcase with ⟨hns, -⟩ | ⟨rfl, -⟩
    · rw [Timed.took_other hns, sleeps_snoc ho hns]
    · rw [sleeps_sleep, Finset.sum_range_succ]
      simp only [Timed.took, Nat.add_assoc]

/-! ## The next tick -/

theorem target_after (f s n : Nat) : lastTarget f s n + 10^9 / f ≤ target f s n := by
  cases n with
  | zero =>
    have h : target f s 0 = s + (10^9 / f + 1) := by
      rw [← period_ns]
      simp [target, origin_zero, targetNs]
    rw [h, lastTarget]
    omega
  | succ n =>
    rw [lastTarget]
    rcases target_succ f s n with h | h <;> omega

/-- **A call made within a period of the last target is not refused.** -/
theorem refused_after {c : List Nat} {u : Timer} (h : OnSchedule f j n u (b :: c))
    (hb : b ≤ lastTarget f j n + 10^9 / f) :
    ¬ ∃ x, k.sleepToNextTick A u (b :: c) = some x ∧ x.ok = false := by
  rw [refused_iff k h rfl, h.target_nat]
  have := target_after f j n
  omega

theorem inTime_iff (hf : 1 ≤ f) (hf' : f ≤ timerMaxFrequency) (hm : m ≤ margin f) :
    InTime k A f m d a b ↔ b ≤ a + (m * 10^6 + d) := by
  refine ⟨InTime.limit, fun h => ?_⟩
  have h10 : 10 ≤ 1000 / f := (Nat.le_div_iff_mul_le hf).mpr (by change f ≤ 100 at hf'; omega)
  have hm' : m + 5 ≤ 1000 / f := by
    unfold margin at hm
    omega
  refine ⟨h, ?_, fun hd s n v c hv ha => refused_after hv ?_⟩
  · have h1 : ((m + 5 : Nat) : ℚ) ≤ 1000 / f :=
      (Nat.cast_le.mpr hm').trans (by
        simpa using (Nat.cast_div_le : ((1000 / f : Nat) : ℚ) ≤ ((1000 : Nat) : ℚ) / f))
    have h2 : (b : ℚ) ≤ a + (m * 10^6 + d) := by exact_mod_cast h
    have h3 : (10^9 : ℚ) / f = 10^6 * (1000 / f) := by ring
    push_cast at h1
    rw [h3]
    linarith
  · have h1 : (m + 5) * 10^6 ≤ 10^9 / f := by
      refine (Nat.le_div_iff_mul_le hf).mpr ?_
      calc (m + 5) * 10^6 * f ≤ 1000 / f * 10^6 * f :=
            Nat.mul_le_mul_right f (Nat.mul_le_mul_right _ hm')
        _ = 1000 / f * f * 10^6 := Nat.mul_right_comm _ _ _
        _ ≤ 1000 * 10^6 := Nat.mul_le_mul_right _ (Nat.div_mul_le_self 1000 f)
    rw [← ha]
    omega

/-! ## Every clock -/

theorem Waited.sleepsOf_eq (h : Waited m j l) (l' : List Bool) : sleepsOf m (l ++ l') = j := by
  unfold sleepsOf
  have hrep : ∀ (i : Nat) (r : List Bool),
      (List.replicate i false ++ r).takeWhile (!·) = List.replicate i false ++ r.takeWhile (!·) :=
    fun i r => List.takeWhile_append_of_pos (by simp)
  cases h with
  | timeUsed hj =>
    rw [hrep, List.length_append, List.length_replicate]
    omega
  | done hj =>
    rw [List.append_assoc, hrep]
    simp
    omega

/-- `n` late sleeps keep the limit on every clock if and only if all but one fit in what is left -/
theorem limit_iff (hn : n ≤ 2 * m) :
    (∀ late : Nat → Nat, (∀ i, late i ≤ d) →
        ∑ i ∈ Finset.range n, (500000 + late i) ≤ m * 10^6 + d) ↔
      (n - 1) * d ≤ (2 * m - n) * 500000 := by
  have hsum : n * (500000 + d) ≤ m * 10^6 + d ↔ (n - 1) * d ≤ (2 * m - n) * 500000 := by
    cases n with
    | zero => simp
    | succ i =>
      rw [Nat.add_sub_cancel, Nat.mul_add, Nat.succ_mul i d]
      generalize i * d = x
      omega
  rw [← hsum]
  constructor
  · intro h
    have hd := h (fun _ => d) fun _ => le_rfl
    rwa [Finset.sum_const, Finset.card_range, smul_eq_mul] at hd
  · intro h late hlate
    calc ∑ i ∈ Finset.range n, (500000 + late i)
        ≤ ∑ _i ∈ Finset.range n, (500000 + d) :=
          Finset.sum_le_sum fun i _ => Nat.add_le_add_left (hlate i) _
      _ = n * (500000 + d) := by rw [Finset.sum_const, Finset.card_range, smul_eq_mul]
      _ ≤ m * 10^6 + d := h

/-- **The limit of the tolerance loop.**  In every iteration of every run, and on every clock whose
sleeps are at most `d` late, the iteration is in time if and only if, with the `n` sleeps that the
answers of `is_send_done` lead to, the lateness of all but one of them fits in the half milliseconds
that were not slept. -/
theorem deadline_iff (d : Nat) {s₀ : RealTimeSystem} (hr : (system A).Runs (UsesTimer k) {} es s₀)
    (hpc : s₀.pc = .loopTop) (hs : s₀.step A .tau = some s)
    (hl : (system A).Runs InIteration s ls t) (ht : t.pc.inIteration = true)
    (hw : t.pc.waiting = false) :
    (∀ late : Nat → Nat, (∀ i, late i ≤ d) → ∀ a, ∃ b n,
        (timed A late).run ⟨s, a, 0⟩ ls = some ⟨t, b, n⟩ ∧
        InTime k A s.frequency s.msTolerance d a b) ↔
      (sleepsOf s.msTolerance (ls.filterMap SystemEvent.asPoll) - 1) * d ≤
        (2 * s.msTolerance - sleepsOf s.msTolerance (ls.filterMap SystemEvent.asPoll))
          * 500000 := by
  have hrs : (system A).Runs (UsesTimer k) {} (es ++ [.tau]) s := hr.snoc trivial hs
  obtain ⟨hset, hiter⟩ := iterating_of_runs hrs
  obtain ⟨-, htop⟩ := iterating_of_runs hr
  unfold Iterating at htop
  rw [hpc] at htop
  obtain ⟨h0, hp0⟩ := opened htop
  have hin : s.pc.inIteration = true := by
    cases ls with
    | nil =>
      cases hl.run_eq
      exact ht
    | cons e ls =>
      have hes : e :: ls = [] ++ e :: ls := rfl
      exact hl.at hes rfl
  have hpass : Passed (es ++ [.tau]) s s :=
    ⟨hset, hiter, rfl, fun hw => absurd (hw.symm.trans (waiting_of_loopTop hpc hs hin)) nofun⟩
  have hready : s.Ready := by
    refine (hset.tolerance_le fun r hr => ?_).1
    rw [hr] at hin
    cases hin
  obtain ⟨hpass', hpolls, hrun⟩ := timed_run hpass h0 hl ht
  rw [hp0, List.nil_append] at hpolls
  obtain ⟨l, l', hl', hwait⟩ := hpass'.waited hw
  have hn : sleepsOf s.msTolerance (ls.filterMap SystemEvent.asPoll)
      = sleeps (es ++ [.tau] ++ ls) := by
    rw [← hpolls, hl']
    exact hwait.sleepsOf_eq l'
  rw [hn, ← limit_iff hwait.le]
  refine forall₂_congr fun late hlate => ⟨fun h => ?_, fun h a => ⟨_, _, hrun late a, ?_⟩⟩
  · obtain ⟨b, n, hb, hin⟩ := h 0
    cases (hrun late 0).symm.trans hb
    simpa using hin.limit
  · rw [inTime_iff hready.pos hready.le hready.tolerance]
    exact Nat.add_le_add_left h a

end

/-- an object initialised at 100 Hz with all the tolerance there is, up to its first iteration -/
def hundredHertz : List SystemEvent :=
  request ++ [.setFrequency 100, .callInitialize answersOk, .run, .startTimer none]

/-- four sleeps, each at most 1 ms late: the last number that fits -/
theorem deadline_iff_four_sleeps :
    ∃ s t, (system FastInts.lp64).run {} (hundredHertz ++ [.tau]) = some s ∧
      ∀ late : Nat → Nat, (∀ i, late i ≤ 10^6) → ∀ a, ∃ b n,
        (timed FastInts.lp64 late).run ⟨s, a, 0⟩
            ((List.replicate 4 [.isSendDone false, .sleepUs 500]).flatten ++ [.isSendDone true])
          = some ⟨t, b, n⟩ ∧
        InTime .freeWait FastInts.lp64 s.frequency s.msTolerance (10^6) a b := by
  have hrun : (((system FastInts.lp64).restrict (UsesTimer .freeWait)).run {} hundredHertz).bind
      (fun s₀ => ((system FastInts.lp64).step s₀ .tau).bind fun s =>
        (((system FastInts.lp64).restrict InIteration).run s
          ((List.replicate 4 [.isSendDone false, .sleepUs 500]).flatten
            ++ [.isSendDone true])).map fun t => (s₀.pc, s.msTolerance, t.pc))
      = some (.loopTop, 5, .doneTest) := by decide
  obtain ⟨s₀, hs₀, hrest⟩ := Option.bind_eq_some_iff.mp hrun
  obtain ⟨s, hs, hrest⟩ := Option.bind_eq_some_iff.mp hrest
  obtain ⟨t, ht, he⟩ := Option.map_eq_some_iff.mp hrest
  obtain ⟨h1, h2, h3⟩ : s₀.pc = .loopTop ∧ s.msTolerance = 5 ∧ t.pc = .doneTest := by simpa using he
  have hr := Machine.Runs.of_restrict hs₀
  refine ⟨s, t, Machine.run_snoc hr.run_eq hs, ?_⟩
  have hiff := deadline_iff (10^6) hr h1 hs (Machine.Runs.of_restrict ht) (by rw [h3]; rfl)
    (by rw [h3]; rfl)
  rw [h2] at hiff ⊢
  exact hiff.mpr (by decide)

/-- ten sleeps of 1.5 ms each: the loop takes 15 ms of a period of 10 ms, at a limit of 6 ms -/
theorem deadline_missed :
    ∃ s₀ s t n, (system FastInts.lp64).Runs (UsesTimer .freeWait) {} hundredHertz s₀ ∧
      s₀.pc = .loopTop ∧ s₀.step FastInts.lp64 .tau = some s ∧ s.frequency = 100 ∧
      s.msTolerance = 5 ∧ t.pc = .doneTest ∧
      (timed FastInts.lp64 fun _ => 10^6).run ⟨s, 0, 0⟩
        ((List.replicate 10 [.isSendDone false, .sleepUs 500]).flatten ++ [.tau])
          = some ⟨t, 15000000, n⟩ ∧
      ¬ InTime .freeWait FastInts.lp64 100 5 (10^6) 0 15000000 := by
  have hrun : (((system FastInts.lp64).restrict (UsesTimer .freeWait)).run {} hundredHertz).bind
      (fun s₀ => ((system FastInts.lp64).step s₀ .tau).bind fun s =>
        ((timed FastInts.lp64 fun _ => 10^6).run ⟨s, 0, 0⟩
          ((List.replicate 10 [.isSendDone false, .sleepUs 500]).flatten ++ [.tau])).map fun x =>
            (s₀.pc, s.frequency, s.msTolerance, x.system.pc, x.now))
      = some (.loopTop, 100, 5, .doneTest, 15000000) := by decide
  obtain ⟨s₀, hs₀, hrest⟩ := Option.bind_eq_some_iff.mp hrun
  obtain ⟨s, hs, hrest⟩ := Option.bind_eq_some_iff.mp hrest
  obtain ⟨⟨t, b, n⟩, ht, he⟩ := Option.map_eq_some_iff.mp hrest
  obtain ⟨h1, h2, h3, h4, rfl⟩ : s₀.pc = .loopTop ∧ s.frequency = 100 ∧ s.msTolerance = 5 ∧
      t.pc = .doneTest ∧ b = 15000000 := by simpa using he
  refine ⟨s₀, s, t, n, Machine.Runs.of_restrict hs₀, h1, hs, h2, h3, h4, ht, fun h => ?_⟩
  exact absurd h.limit (by decide)

end RealTimeTransfer
