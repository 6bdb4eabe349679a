import RealTimeTransfer.Systems.RunTimer
import RealTimeTransfer.Timers.Regular

/-!
# The slots of a run

A run that has started its timer at the reading `s` has a slot for each of its iterations: from the
target of one tick to the target of the next.  The targets are those of `Timers/Targets.lean`, so
they depend on the frequency and on `s` only, and not on what the iterations take.

* `Paced`        one user call in each iteration;
* `slot_tick`    what a call of `sleep_to_next_tick` does to the slots, in any class;
* `Running.step` one step of the system, or one call of another timer;
* `run_slots`    a user call lies in its own slot, and a tick is refused exactly past the end of it.
-/

namespace RealTimeTransfer
open Words Machines

def RunTimerEvent.asSystem : RunTimerEvent → Option SystemEvent
  | .system e => some e
  | .user _ _ => none

/-- the steps of the system -/
def systemEvents (es : List RunTimerEvent) : List SystemEvent :=
  es.filterMap RunTimerEvent.asSystem

/-- the ticks that were not refused -/
def accepted (l : List SystemEvent) : Nat := l.count (.tick true)

/-- a step of the call under way, or a call of another timer -/
def DuringRun (x : RunTimer) (e : RunTimerEvent) : Prop :=
  LeftAlone x e ∧ (e.asSystem ≠ none → x.system.pc.isIdle = false)

instance (x : RunTimer) (e : RunTimerEvent) : Decidable (DuringRun x e) :=
  inferInstanceAs (Decidable (_ ∧ _))

section
variable {k : TimerClass} {A : FastInts} {f s n m : Nat} {l : List SystemEvent} {e : SystemEvent}

theorem accepted_tick (ok : Bool) :
    accepted (l ++ [.tick ok]) = accepted l + if ok then 1 else 0 := by
  unfold accepted
  rw [List.count_append, List.count_singleton]
  cases ok <;> rfl

theorem accepted_other (he : e.isTick = false) : accepted (l ++ [e]) = accepted l := by
  unfold accepted
  rw [List.count_append, List.count_singleton, if_neg, Nat.add_zero]
  intro h
  rw [eq_of_beq h] at he
  cases he

/-! ## One user call in each iteration -/

/-- `m` user calls after `n` ticks -/
structure Paced (n m : Nat) (s : RealTimeSystem) : Prop where
  deciding : s.pc = .loopTop ∨ s.pc.deciding = true → m = n
  serving : s.pc.serving = true → m = n + 1

theorem paced_ending {s : RealTimeSystem} {r : Bool}
    (h : s.pc = .ending r ∨ s.pc = .idle (some r)) :
    Paced n m s := by
  constructor
  all_goals rcases h with h | h <;> simp [h, SystemPc.deciding, SystemPc.serving]

/-- **A step of the loop keeps the pace.** -/
theorem Paced.turn {s t : RealTimeSystem} (h : Paced (accepted l) (calls l).length s)
    (ht : Turn A s e t) : Paced (accepted (l ++ [e])) (calls (l ++ [e])).length t := by
  cases ht with
  | iterated hpc _ hpc' =>
    rw [accepted_other rfl, calls_same _ rfl]
    refine ⟨fun _ => h.deciding (.inl hpc), ?_⟩
    rw [hpc']
    intro hs
    cases hs
  | gaveUp _ _ hpc' => exact paced_ending (.inl hpc')
  | decided hpc hq hpc' =>
    rcases hpc' with hpc' | hpc'
    · simp only [SystemEvent.quiet, Bool.and_eq_true, Option.isNone_iff_eq_none,
        Bool.not_eq_true'] at hq
      rw [accepted_other hq.2, calls_same _ hq.1.1]
      refine ⟨fun _ => h.deciding (.inr hpc), fun hs => ?_⟩
      rw [(SystemPc.not_serving_of_deciding hpc').2.2.2] at hs
      cases hs
    · exact paced_ending (.inl hpc')
  | called c hpc _ _ _ hpc' =>
    have hm : (calls l).length = accepted l := by
      refine h.deciding (.inr ?_)
      rcases hpc with hpc | hpc <;> rw [hpc] <;> rfl
    have hlen : (calls (l ++ [.userCall c])).length = accepted l + 1 := by
      rw [calls_append, List.length_append, hm]
      rfl
    rw [accepted_other rfl, hlen]
    refine ⟨?_, fun _ => rfl⟩
    rw [hpc']
    cases c.stop <;> cases c.isSkipped <;> simp [SystemPc.deciding]
  | sent r hpc hpc' =>
    rw [accepted_other rfl, calls_same _ rfl]
    refine ⟨?_, fun _ => h.serving (by rw [hpc]; rfl)⟩
    rw [hpc']
    cases r <;> simp [SystemPc.deciding]
  | ticked ok hpc hpc' =>
    have hm : (calls l).length = accepted l + 1 := by
      refine h.serving ?_
      rcases hpc with hpc | hpc <;> rw [hpc] <;> rfl
    rw [accepted_tick, calls_same _ rfl, hm]
    cases ok with
    | true =>
      refine ⟨fun _ => rfl, ?_⟩
      rw [hpc']
      intro hs
      cases hs
    | false => exact paced_ending (.inl hpc')
  | ended r _ hpc' => exact paced_ending (.inr hpc')

/-! ## The slots of a timer -/

theorem origin_le_lastTarget (f s n : Nat) : origin f s n ≤ lastTarget f s n := by
  cases n with
  | zero => exact (origin_zero f s).le
  | succ n =>
    rw [origin_succ]
    show _ ≤ target f s n
    unfold target
    by_cases h : n % 2^23 + 1 = 2^23
    · rw [if_pos h, h]
    · rw [if_neg h]
      exact Nat.le_add_right _ _

theorem Scheduled.onSchedule {t : Timer} {c : List Nat} (h : Scheduled f s n t)
    (hc : After (lastTarget f s n) c) : OnSchedule f s n t c :=
  ⟨h.ps, h.counter, h.ns, h.start, hc.mono (origin_le_lastTarget f s n)⟩

/-- **A call of `sleep_to_next_tick`**: it is refused exactly past the end of the slot, and leads to
the next slot if it is not. -/
theorem slot_tick {o o' : TimerObject} {ok : Bool} (h : Scheduled f s n o.timer)
    (hc : After (lastTarget f s n) o.clock) (hs : o.call k A (.sleepToNextTick ok) = some o') :
    Scheduled f s (n + if ok then 1 else 0) o'.timer ∧
      After (lastTarget f s (n + if ok then 1 else 0)) o'.clock ∧
      ∃ e d, o.clock = e :: d ∧ (ok = true ↔ e ≤ target f s n) := by
  have hon := h.onSchedule hc
  obtain ⟨x, hx, hs⟩ := Option.bind_eq_some_iff.mp hs
  obtain ⟨hok, rfl⟩ := Option.ite_some_none_eq_some.mp hs
  obtain ⟨e, d, hd⟩ : ∃ e d, o.clock = e :: d := by
    rw [k.sleepToNextTick_eq] at hx
    obtain ⟨y, hy, -⟩ := Option.bind_eq_some_iff.mp hx
    cases hclock : o.clock with
    | nil =>
      rw [hclock] at hy
      cases hy
    | cons e d => exact ⟨e, d, rfl⟩
  have hrefused := refused_iff (A := A) k hon hd
  rw [hon.target_nat, hx] at hrefused
  have hstep := (sleepToNextTick_step k hon hx).1.scheduled
  rw [hok] at hstep
  refine ⟨hstep, ?_, e, d, hd, ?_⟩
  · cases ok with
    | true =>
      have hns := h.ns_lt
      obtain ⟨used, hused, r, hr, hle⟩ :=
        reads_target (A := A) h.start hns (hc.mono (origin_le_lastTarget f s n)) hx hok
      rw [hused] at hc
      rw [h.target_nat] at hle
      exact (hc.after_mem hr).mono hle
    | false =>
      obtain ⟨es, -, -, hused⟩ := sleepToNextTick_iff.mp hx
      rw [hused] at hc
      exact hc.skip
  · constructor
    · intro htrue
      by_contra hlt
      obtain ⟨x', hx', hfalse⟩ := hrefused.mpr (Nat.lt_of_not_le hlt)
      cases hx'
      exact absurd (htrue.symm.trans (hok.symm.trans hfalse)) nofun
    · intro hle
      by_contra hfalse
      refine absurd (hrefused.mp ⟨x, rfl, ?_⟩) (Nat.not_lt.mpr hle)
      exact hok.trans (Bool.eq_false_iff.mpr hfalse)

end

/-! ## The whole run -/

/-- what holds in a run of the system `y`, started at the reading `s`, behind the steps `l` -/
structure InSlot (k : Ptr → TimerClass) (A : FastInts) (y : RunTimer) (s : Nat)
    (l : List SystemEvent) (x : RunTimer) : Prop where
  due : x.system.pc.inLoop = true →
    (x.timers y.system.timer).target = target y.system.frequency s (accepted l)
  passed : After (lastTarget y.system.frequency s (accepted l)) x.clock
  called : ∀ u z, (runTimer k A).step x (.system (.userCall u)) = some z →
    (calls l).length = accepted l ∧ u.info.sequenceNumber = accepted l % 2^A.w32
  ticked : ∀ ok z, (runTimer k A).step x (.system (.tick ok)) = some z →
    (calls l).length = accepted l + 1 ∧ ∃ e c, x.clock = e :: c ∧
      (ok = true ↔ e ≤ target y.system.frequency s (accepted l))
  ended : x.system.pc.isIdle = true → EndsSender l

/-- the run so far: of the system, of its timer, and of the clock -/
structure Running (A : FastInts) (v : RealTimeSystem) (s : Nat) (l : List SystemEvent)
    (x : RunTimer) : Prop where
  inv : x.Inv
  timer : x.system.timer = v.timer
  runs : (system A).Runs InRun v l x.system
  scheduled : x.system.pc.inLoop = true →
    Scheduled v.frequency s (accepted l) (x.timers x.system.timer)
  after : After (lastTarget v.frequency s (accepted l)) x.clock

/-- a run that has come to the loop -/
structure Entering (A : FastInts) (v : RealTimeSystem) : Prop where
  pc : v.pc = .loopTop
  le : v.frequency ≤ 100
  sequence : v.sequenceNumber = toU A.w32 (-1)
  skipped : v.skippedCount = 0

section
variable {k : Ptr → TimerClass} {A : FastInts} {v t : RealTimeSystem} {s : Nat}
  {l : List SystemEvent} {x x' : RunTimer} {e : SystemEvent}

theorem Entering.follows (h : Entering A v) (hr : (system A).Runs InRun v l t) :
    Followed l t ∧ Counters A v.frequency v.allowSkipMode l t :=
  run_follows h.le h.pc rfl rfl h.sequence h.skipped hr

theorem Entering.course (h : Entering A v) (hr : (system A).Runs InRun v l t) :
    Course (.startTimer none :: l) t :=
  hr.follows (fun l w => Course (.startTimer none :: l) w)
    (.looping [] nofun (by rw [h.pc]; rfl)) fun _ _ _ _ hw hrun hs => hw.step hrun hs

theorem Entering.paced (h : Entering A v) (hr : (system A).Runs InRun v l t) :
    Paced (accepted l) (calls l).length t := by
  induction hr with
  | nil => exact ⟨fun _ => rfl, fun hs => absurd (h.pc ▸ hs) nofun⟩
  | snoc hr hrun hs ih =>
    have moves := RealTimeSystem.step_moves (SystemPc.ne_idle hrun) hs
    rcases (h.follows hr).1.inLoop with hin | ⟨r, hpc⟩
    · exact ih.turn (moves.turn hin)
    · exact absurd hpc (SystemPc.ne_idle hrun r)

theorem Running.user {p : Ptr} {c : TimerCall} (h : Running A v s l x)
    (ho : LeftAlone x (.user p c))
    (hs : x.step k A (.user p c) = some x') : Running A v s l x' := by
  have hm := RunTimer.made_of_make hs
  refine ⟨h.inv.step ho hs, hm.system ▸ h.timer, hm.system ▸ h.runs, fun hpc => ?_, ?_⟩
  · rw [hm.system] at hpc ⊢
    have hp : x.system.timer ≠ p := by
      intro hp
      rw [RealTimeSystem.inLoop_of_isIdle (ho hp.symm).2] at hpc
      cases hpc
    rw [hm.other _ hp]
    exact h.scheduled hpc
  · obtain ⟨used, hu⟩ := hm.clock
    have hafter := h.after
    rw [hu] at hafter
    exact hafter.skip

/-- **A step of the run.** -/
theorem Running.system (h : Running A v s l x) (hv : Entering A v)
    (hin : x.system.pc.isIdle = false) (hs : x.step k A (.system e) = some x') :
    Running A v s (l ++ [e]) x' := by
  have hinv := h.inv.step (e := .system e) trivial hs
  obtain ⟨-, t, y, ht, hy, rfl⟩ := RunTimer.step_system hs
  have moves := RealTimeSystem.step_moves (SystemPc.ne_idle hin) ht
  have hloop : x.system.pc.inLoop = true := by
    rcases (hv.follows h.runs).1.inLoop with hin' | ⟨r, hpc⟩
    · exact hin'
    · exact absurd hpc (SystemPc.ne_idle hin r)
  have htimer : t.timer = x.system.timer := moves.settings.1
  have hruns : (RealTimeTransfer.system A).Runs InRun v (l ++ [e]) t := h.runs.snoc hin ht
  cases hy with
  | quiet _ _ htick =>
    have hacc : accepted (l ++ [e]) = accepted l := by
      apply accepted_other
      cases e <;> first | rfl | exact absurd rfl (htick _)
    refine ⟨hinv, htimer.trans h.timer, hruns, fun _ => ?_, ?_⟩
    · show Scheduled _ _ _ (x.timers t.timer)
      rw [hacc, htimer]
      exact h.scheduled hloop
    · rw [hacc]
      exact h.after
  | checked | initialized => cases moves
  | started a =>
    obtain ⟨hpc, -⟩ | ⟨-, -, ok, he⟩ | ⟨-, he, -, -⟩ := moves.consults
    · rw [hpc] at hloop
      cases hloop
    · cases he
    · exact absurd rfl (he a)
  | ticked ok hm =>
    obtain ⟨hsched, hafter, -⟩ := slot_tick (h.scheduled hloop) h.after hm.call
    rw [← accepted_tick] at hsched hafter
    refine ⟨hinv, htimer.trans h.timer, hruns, fun _ => ?_, hafter⟩
    show Scheduled _ _ _ (y.timers t.timer)
    rw [htimer]
    exact hsched

theorem Running.step {f : RunTimerEvent} (h : Running A v s l x) (hv : Entering A v)
    (ho : DuringRun x f) (hs : x.step k A f = some x') :
    Running A v s (l ++ systemEvents [f]) x' := by
  cases f with
  | user p c =>
    rw [show systemEvents [.user p c] = [] from rfl, List.append_nil]
    exact h.user ho.1 hs
  | system e => exact h.system hv (ho.2 nofun) hs

theorem Running.inSlot {y : RunTimer} (h : Running A v s l x) (hv : Entering A v)
    (htimer : v.timer = y.system.timer) (hf : v.frequency = y.system.frequency) :
    InSlot k A y s l x := by
  have paced := hv.paced h.runs
  refine ⟨fun hpc => ?_, hf ▸ h.after, fun u z hs => ?_, fun ok z hs => ?_, fun hidle => ?_⟩
  · rw [← htimer, ← hf, ← h.timer]
    exact (h.scheduled hpc).target_eq
  · obtain ⟨-, t, w, ht, -, -⟩ := RunTimer.step_system hs
    have hd := deciding_of_call ht
    have moves := RealTimeSystem.step_moves (RealTimeSystem.inside_of_step ht rfl) ht
    have hm := paced.deciding (.inr hd)
    refine ⟨hm, ?_⟩
    rw [← hm, ← ((hv.follows h.runs).2.deciding hd).1]
    have turn := moves.turn (SystemPc.inLoop_iff.mpr (.inl (.inr (.inl hd))))
    cases turn with
    | decided _ hq => cases hq
    | called _ _ hseq => exact hseq
  · obtain ⟨-, t, w, ht, hw, -⟩ := RunTimer.step_system hs
    have moves := RealTimeSystem.step_moves (RealTimeSystem.inside_of_step ht rfl) ht
    have hserving : x.system.pc.serving = true := by
      cases moves with
      | ticked hpc | late hpc => rcases hpc with hpc | hpc <;> rw [hpc] <;> rfl
    refine ⟨paced.serving hserving, ?_⟩
    cases hw with
    | quiet _ _ hne => exact absurd rfl (hne ok)
    | ticked _ hm =>
      have hloop : x.system.pc.inLoop = true :=
        SystemPc.inLoop_iff.mpr (.inl (.inr (.inr hserving)))
      rw [← hf]
      exact (slot_tick (h.scheduled hloop) h.after hm.call).2.2
  · cases hv.course h.runs with
    | looping _ _ hin =>
      rw [RealTimeSystem.inLoop_of_isIdle hidle] at hin
      cases hin
    | ended l' hl _ => exact ⟨l', rfl, hl⟩

/-- **The slots of a run.**  Let any user calls be made of the timers, and any public calls of the
system, before `run` calls `start_timer`: it does not refuse.  With `s` the reading it took, the
target of the tick under way is that of the frequency and of `s`, whatever has happened in between;
after `n` ticks no reading is before the target of tick `n`, one user call follows, with the
sequence number `n`, and the next tick is refused if and only if the clock is then past its target;
and when `run` returns it has ended the sender. -/
theorem run_slots {raw : Ptr → Timer} {r : List Nat} {es₀ : List RunTimerEvent} {y x₀ : RunTimer}
    {a : Answer} (hc : After 0 r) (h₀ : (runTimer k A).Runs LeftAlone (.new k raw r) es₀ y)
    (hs : (runTimer k A).step y (.system (.startTimer a)) = some x₀) :
    a = none ∧ 1 ≤ y.system.frequency ∧ y.system.frequency ≤ timerMaxFrequency ∧
      ∃ s, y.clock = s :: x₀.clock ∧ ∀ es x, (runTimer k A).Runs DuringRun x₀ es x →
        InSlot k A y s (systemEvents es) x := by
  have hinv := RunTimer.inv_of_runs hc h₀
  have hinv₀ := hinv.step (e := .system (.startTimer a)) trivial hs
  obtain ⟨-, t, z, ht, hz, rfl⟩ := RunTimer.step_system hs
  have moves : y.system.Moves A (.startTimer a) t :=
    RealTimeSystem.step_moves (RealTimeSystem.inside_of_step ht rfl) ht
  have prepared := hinv.prepared (.inr moves.inside)
  obtain ⟨htimer, -, -, -, -, hf⟩ := moves.settings
  cases hz with
  | quiet _ hne => exact absurd rfl (hne a)
  | started _ hy hz =>
    rename_i y'
    have hpc : y.system.pc = .startTimer := by
      cases moves <;> assumption
    obtain ⟨rfl, s, hclock, harm⟩ := prepared.start hpc hy
    have hrest := hz.rest
    have hsetTo := prepared.setTo
    have hle : y.system.frequency ≤ 100 := hsetTo.le
    refine ⟨rfl, hsetTo.pos, hsetTo.le, s, ?_, ?_⟩
    · show y.clock = s :: z.clock
      rw [hrest.2.1]
      exact hclock
    · have hv : Entering A t := by
        cases moves
        exact ⟨rfl, hle, rfl, rfl⟩
      have running : Running A t s [] { z with system := t } := by
        refine ⟨hinv₀, rfl, .nil, fun _ => ?_, ?_⟩
        · obtain ⟨g, hg⟩ := hz.timer
          show Scheduled _ _ _ (z.timers t.timer)
          rw [htimer, hf, hg, harm]
          obtain ⟨h1, h2, h3, h4⟩ := armed_scheduled y.system.frequency s
            (y.timers y.system.timer)
          exact ⟨h1, h2, h3, h4⟩
        · show After s z.clock
          have hafter := hinv.sound.clock
          rw [hclock] at hafter
          rw [hrest.2.1]
          exact hafter.2
      intro es x hx
      refine Running.inSlot ?_ hv htimer hf
      refine hx.follows (fun l w => Running A t s (systemEvents l) w) running ?_
      intro l w f w' hw ho hstep
      have hnext := hw.step hv ho hstep
      unfold systemEvents at hnext ⊢
      rw [List.filterMap_append]
      exact hnext

end

/-- the first iteration of the system, its tick, and the second iteration up to its user call -/
def secondSlot : List RunTimerEvent :=
  usedBefore.drop 9 ++
    [.tick true, .tau, .tau, .isSendDone true, .isSendDone true].map .system

/-- the start at the reading 20, and the second slot -/
theorem run_slots_second :
    ∃ y x₀ x, (runTimer (fun _ => .busyWait) FastInts.lp64).run
        (busyWaits [7, 20, 30, 10000021]) (usedBefore.take 8) = some y ∧
      (runTimer (fun _ => .busyWait) FastInts.lp64).step y (.system (.startTimer none)) = some x₀ ∧
      (runTimer (fun _ => .busyWait) FastInts.lp64).run x₀ secondSlot = some x ∧
      x.system.pc = .normalCall ∧
      InSlot (fun _ => .busyWait) FastInts.lp64 y 20 (systemEvents secondSlot) x := by
  have hrun : (((runTimer (fun _ => .busyWait) FastInts.lp64).restrict LeftAlone).run
      (busyWaits [7, 20, 30, 10000021]) (usedBefore.take 8)).bind (fun y =>
        ((runTimer (fun _ => .busyWait) FastInts.lp64).step y (.system (.startTimer none))).bind
          fun x₀ => (((runTimer (fun _ => .busyWait) FastInts.lp64).restrict DuringRun).run x₀
            secondSlot).map fun x => (y.clock, x.system.pc))
      = some ([20, 30, 10000021], .normalCall) := by decide
  obtain ⟨y, hy, hrest⟩ := Option.bind_eq_some_iff.mp hrun
  obtain ⟨x₀, hx₀, hrest⟩ := Option.bind_eq_some_iff.mp hrest
  obtain ⟨x, hx, he⟩ := Option.map_eq_some_iff.mp hrest
  obtain ⟨hclock, hpc⟩ : y.clock = [20, 30, 10000021] ∧ x.system.pc = .normalCall := by
    simpa using he
  have hr := Machine.Runs.of_restrict hy
  have hr' := Machine.Runs.of_restrict hx
  obtain ⟨-, -, -, s, hs, hslot⟩ := run_slots (by simp [After]) hr hx₀
  obtain rfl : 20 = s := (List.cons.inj (hclock.symm.trans hs)).1
  exact ⟨y, x₀, x, hr.run_eq, hx₀, hr'.run_eq, hpc, hslot _ _ hr'⟩

end RealTimeTransfer
