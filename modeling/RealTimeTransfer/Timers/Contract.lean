import RealTimeTransfer.Timers.Targets

/-!
# The contract of the timer interface

`timerObject k A` makes any calls of a timer, in any order.  `Usage` is what the caller knows of the
timer from the calls alone; `Contract` is what the interface promises of a call, in these terms.

* `Linked`              the fields of the object mean what the calls so far say;
* `contract_iff`        the calls keep the contract if and only if every one of them is `Armed`;
* `unarmed_tick`        a tick of a timer whose frequency was never set;
* `frequency_kept_iff`  the frequency of a running timer is kept if and only if no frequency within
                        the limit is asked for;
* `frequency_changed`   a running timer that takes another frequency.
-/

namespace RealTimeTransfer
open Words Machines

/-- a call with what it returned; no value is a division by zero -/
inductive TimerCall where
  | callInitialize (r : Bool)
  | setFrequency (f : Nat) (r : Option Bool)
  | startTimer (r : Bool)
  | stopTimer
  | sleepToNextTick (r : Bool)
  deriving DecidableEq, Repr

/-- a timer object and the clock it reads; `trapped` is set by a division by zero -/
structure TimerObject where
  timer : Timer
  clock : List Nat
  trapped : Bool := false

namespace TimerObject

/-- a call made of an object that has not trapped -/
def call (k : TimerClass) (A : FastInts) (s : TimerObject) : TimerCall → Option TimerObject
  | .callInitialize r =>
    let x := k.initializeTimer s.timer
    if x.1 = r then some { s with timer := x.2 } else none
  | .setFrequency f r =>
    match k.setFrequency f s.timer with
    | none => if r = none then some { s with trapped := true } else none
    | some x => if some x.1 = r then some { s with timer := x.2 } else none
  | .startTimer r =>
    (k.startTimer s.timer s.clock).bind fun x =>
      if x.1 = r then some { s with timer := x.2.1, clock := x.2.2 } else none
  | .stopTimer => some { s with timer := k.stopTimer s.timer }
  | .sleepToNextTick r =>
    (k.sleepToNextTick A s.timer s.clock).bind fun x =>
      if x.ok = r then some { s with timer := x.timer, clock := x.clock } else none

def step (k : TimerClass) (A : FastInts) (s : TimerObject) (e : TimerCall) : Option TimerObject :=
  if s.trapped then none else s.call k A e

/-- a new object; `raw` is what the memory held -/
def new (k : TimerClass) (raw : Timer) (c : List Nat) : TimerObject := ⟨k.construct raw, c, false⟩

end TimerObject

def timerObject (k : TimerClass) (A : FastInts) : Machine TimerObject TimerCall :=
  ⟨TimerObject.step k A⟩

/-! ## The interface -/

/-- the frequency accepted last since the last `initialize`, and whether the timer is started -/
structure Usage where
  frequency : Option Nat := none
  started : Bool := false
  deriving DecidableEq, Repr

def Usage.after (u : Usage) : TimerCall → Usage
  | .callInitialize _ => {}
  | .setFrequency f (some true) => { u with frequency := some f }
  | .startTimer true => { u with started := true }
  | .stopTimer => { u with started := false }
  | _ => u

/-- what is known after the calls `es` of a new object -/
def usage (es : List TimerCall) : Usage := es.foldl Usage.after {}

/-- what `timer.h` promises of a call -/
def Contract (u : Usage) : TimerCall → Prop
  | .setFrequency _ r => r ≠ none
  | .startTimer r => r = true → u.frequency.isSome = true
  | .sleepToNextTick r => r = true → u.frequency.isSome = true ∧ u.started = true
  | _ => True

/-- a tick is scheduled -/
def TimerCall.schedules : TimerCall → Bool
  | .startTimer r => r
  | .sleepToNextTick r => r
  | _ => false

/-- the next reading is past the target -/
def TimerObject.Late (s : TimerObject) : Prop :=
  ∃ r c, s.clock = r :: c ∧ s.timer.sleepTimeNs < timespecDiffNs s.timer.startTime (ofNs r)

/-- the condition of a call, in the fields that the code could have tested -/
def Armed (s : TimerObject) : TimerCall → Prop
  | .setFrequency f _ => f ≠ 0
  | .startTimer _ => s.timer.timerStarted = true ∨ s.timer.frequency ≠ timerFrequncyError
  | .sleepToNextTick _ =>
    (s.timer.frequency ≠ timerFrequncyError ∧ s.timer.timerStarted = true) ∨ s.Late
  | _ => True

instance (s : TimerObject) : Decidable s.Late :=
  match h : s.clock with
  | [] => .isFalse fun ⟨_, _, hc, _⟩ => List.cons_ne_nil _ _ (hc.symm.trans h)
  | r :: c =>
    decidable_of_iff (s.timer.sleepTimeNs < timespecDiffNs s.timer.startTime (ofNs r))
      ⟨fun hl => ⟨r, c, h, hl⟩, fun ⟨_, _, hc, hl⟩ =>
        (List.cons.inj (hc.symm.trans h)).1 ▸ hl⟩

instance (s : TimerObject) (e : TimerCall) : Decidable (Armed s e) :=
  match e with
  | .setFrequency _ _ => inferInstanceAs (Decidable (_ ≠ _))
  | .startTimer _ => inferInstanceAs (Decidable (_ ∨ _))
  | .sleepToNextTick _ => inferInstanceAs (Decidable (_ ∨ _))
  | .callInitialize _ | .stopTimer => .isTrue trivial

/-- the timer is set to the frequency `f` -/
structure Timer.SetTo (f : Nat) (t : Timer) : Prop where
  pos : 1 ≤ f
  le : f ≤ timerMaxFrequency
  frequency : t.frequency = f
  ps : t.originalSleepTimePs = 10^12 / f

/-- the fields of the object agree with what its caller knows -/
structure Usage.Linked (u : Usage) (t : Timer) : Prop where
  started : t.timerStarted = u.started
  unset : u.frequency = none → t.frequency = timerFrequncyError
  setTo : ∀ f, u.frequency = some f → t.SetTo f

section
variable {k : TimerClass} {A : FastInts} {u : Usage} {t : Timer} {s s' : TimerObject}
  {e : TimerCall} {f : Nat}

theorem Usage.Linked.set_iff (h : u.Linked t) :
    t.frequency ≠ timerFrequncyError ↔ u.frequency.isSome = true := by
  cases hf : u.frequency with
  | none => exact ⟨fun hne => absurd (h.unset hf) hne, nofun⟩
  | some f =>
    refine ⟨fun _ => rfl, fun _ heq => ?_⟩
    have hset := h.setTo f hf
    have hle : f ≤ 100 := hset.le
    rw [hset.frequency, show timerFrequncyError = 65535 from rfl] at heq
    omega

theorem Timer.setFrequency_cases (f : Nat) (t : Timer) :
    (timerMaxFrequency < f ∧ t.setFrequency f = some (false,
        { t with errorHandler := t.errorHandler.setError (frequencyError f) })) ∨
      (f = 0 ∧ t.setFrequency f = none) ∨
      (1 ≤ f ∧ f ≤ timerMaxFrequency ∧ t.setFrequency f = some (true,
        { t with frequency := f, originalSleepTimePs := 10^12 / f })) := by
  unfold Timer.setFrequency
  by_cases h1 : timerMaxFrequency < f
  · rw [if_pos h1]
    exact .inl ⟨h1, rfl⟩
  · rw [if_neg h1]
    by_cases h2 : f = 0
    · rw [if_pos h2]
      exact .inr (.inl ⟨h2, rfl⟩)
    · rw [if_neg h2, secToPs_one]
      exact .inr (.inr ⟨Nat.pos_of_ne_zero h2, Nat.not_lt.mp h1, rfl⟩)

theorem Timer.advance_keeps (A : FastInts) (t : Timer) :
    (t.advance A).frequency = t.frequency ∧
      (t.advance A).originalSleepTimePs = t.originalSleepTimePs ∧
      (t.advance A).timerStarted = t.timerStarted := by
  have h : t.rebase.frequency = t.frequency ∧
      t.rebase.originalSleepTimePs = t.originalSleepTimePs ∧
      t.rebase.timerStarted = t.timerStarted := by
    unfold Timer.rebase
    split <;> exact ⟨rfl, rfl, rfl⟩
  exact h

/-! ## The calls -/

/-- the call `e` of the object `s` leaves `s'` -/
inductive TimerObject.Calls (k : TimerClass) (A : FastInts) (s : TimerObject) :
    TimerCall → TimerObject → Prop where
  | initialized : Calls k A s (.callInitialize true)
      { s with timer := { s.timer with frequency := timerFrequncyError, timerStarted := false } }
  | refused (f : Nat) (h : Error) : timerMaxFrequency < f →
      Calls k A s (.setFrequency f (some false))
        { s with timer := { s.timer with errorHandler := h } }
  | trapped : Calls k A s (.setFrequency 0 none) { s with trapped := true }
  | accepted (f : Nat) : 1 ≤ f → f ≤ timerMaxFrequency → Calls k A s (.setFrequency f (some true))
      { s with timer := { s.timer with frequency := f, originalSleepTimePs := 10^12 / f } }
  | running (h : Error) : s.timer.timerStarted = true →
      Calls k A s (.startTimer false) { s with timer := { s.timer with errorHandler := h } }
  | started (r : Nat) (c : List Nat) : s.timer.timerStarted = false → s.clock = r :: c →
      Calls k A s (.startTimer true) { s with
        timer := { s.timer with
          startTime := ofNs r, timerStarted := true, sleepCounter := 1,
          sleepTimeNs := Timer.nextSleepTimeNs s.timer.originalSleepTimePs 1 }
        clock := c }
  | stopped : Calls k A s .stopTimer { s with timer := { s.timer with timerStarted := false } }
  | late (r : Nat) (c : List Nat) (h : Error) : s.clock = r :: c → s.Late →
      Calls k A s (.sleepToNextTick false)
        { s with timer := { s.timer with errorHandler := h }, clock := c }
  | ticked (c : List Nat) : ¬ s.Late →
      Calls k A s (.sleepToNextTick true) { s with timer := s.timer.advance A, clock := c }

theorem TimerObject.step_call (hs : s.step k A e = some s') :
    s.trapped = false ∧ s.call k A e = some s' := by
  unfold TimerObject.step at hs
  cases ht : s.trapped with
  | true =>
    rw [ht] at hs
    cases hs
  | false =>
    rw [ht] at hs
    exact ⟨rfl, hs⟩

theorem TimerObject.sleep_calls {r : Bool} (hs : s.call k A (.sleepToNextTick r) = some s') :
    s.Calls k A (.sleepToNextTick r) s' := by
  obtain ⟨x, hx, hs⟩ := Option.bind_eq_some_iff.mp hs
  obtain ⟨rfl, rfl⟩ := Option.ite_some_none_eq_some.mp hs
  rw [k.sleepToNextTick_eq] at hx
  obtain ⟨y, hy, hx⟩ := Option.bind_eq_some_iff.mp hx
  cases hc : s.clock with
  | nil =>
    rw [hc] at hy
    cases hy
  | cons r c =>
    rw [hc] at hy
    cases hy
    by_cases hlt : s.timer.sleepTimeNs < timespecDiffNs s.timer.startTime (ofNs r)
    · rw [if_pos hlt] at hx
      cases hx
      exact .late r c _ hc ⟨r, c, hc, hlt⟩
    · rw [if_neg hlt] at hx
      obtain ⟨y, -, rfl⟩ := Option.map_eq_some_iff.mp hx
      refine .ticked y.2 ?_
      rintro ⟨r', c', hc', hlt'⟩
      rw [hc] at hc'
      cases hc'
      exact hlt hlt'

/-- **Every call is one of these.** -/
theorem TimerObject.call_calls (hs : s.call k A e = some s') : s.Calls k A e s' := by
  cases e with
  | callInitialize r =>
    obtain ⟨h, rfl⟩ := Option.ite_some_none_eq_some.mp hs
    rw [k.initializeTimer_eq] at h ⊢
    cases h
    exact .initialized
  | setFrequency f r =>
    change (match k.setFrequency f s.timer with | none => _ | some x => _) = _ at hs
    rw [k.setFrequency_eq] at hs
    rcases Timer.setFrequency_cases f s.timer with ⟨hf, h⟩ | ⟨rfl, h⟩ | ⟨h1, h2, h⟩
    · rw [h] at hs
      obtain ⟨rfl, rfl⟩ := Option.ite_some_none_eq_some.mp hs
      exact .refused f _ hf
    · rw [h] at hs
      obtain ⟨rfl, rfl⟩ := Option.ite_some_none_eq_some.mp hs
      exact .trapped
    · rw [h] at hs
      obtain ⟨rfl, rfl⟩ := Option.ite_some_none_eq_some.mp hs
      exact .accepted f h1 h2
  | startTimer r =>
    obtain ⟨x, hx, hs⟩ := Option.bind_eq_some_iff.mp hs
    obtain ⟨rfl, rfl⟩ := Option.ite_some_none_eq_some.mp hs
    rw [k.startTimer_eq] at hx
    unfold Timer.startTimer at hx
    by_cases ht : s.timer.timerStarted = true
    · rw [if_pos ht] at hx
      cases hx
      exact .running _ ht
    · rw [if_neg ht] at hx
      obtain ⟨y, hy, rfl⟩ := Option.map_eq_some_iff.mp hx
      cases hc : s.clock with
      | nil =>
        rw [hc] at hy
        cases hy
      | cons r c =>
        rw [hc] at hy
        cases hy
        exact .started r c (Bool.eq_false_iff.mpr ht) hc
  | stopTimer =>
    cases hs
    rw [k.stopTimer_eq]
    exact .stopped
  | sleepToNextTick r => exact TimerObject.sleep_calls hs

theorem Usage.Linked.same {u' : Usage} {t' : Timer} (h : u.Linked t)
    (hs : t'.timerStarted = u'.started) (hu : u'.frequency = u.frequency)
    (hf : t'.frequency = t.frequency) (hp : t'.originalSleepTimePs = t.originalSleepTimePs) :
    u'.Linked t' := by
  refine ⟨hs, fun hn => hf.trans (h.unset (hu ▸ hn)), fun f hf' => ?_⟩
  have hset := h.setTo f (hu ▸ hf')
  exact ⟨hset.pos, hset.le, hf.trans hset.frequency, hp.trans hset.ps⟩

/-- **Every call keeps the link.** -/
theorem Usage.Linked.calls (h : u.Linked s.timer) (hs : s.Calls k A e s') :
    (u.after e).Linked s'.timer := by
  cases hs with
  | initialized => exact ⟨rfl, fun _ => rfl, nofun⟩
  | refused f _ _ => exact h.same h.started rfl rfl rfl
  | trapped => exact h
  | accepted f h1 h2 =>
    refine ⟨h.started, nofun, fun g hg => ?_⟩
    cases hg
    exact ⟨h1, h2, rfl, rfl⟩
  | running _ _ => exact h.same h.started rfl rfl rfl
  | started r c _ _ => exact h.same rfl rfl rfl rfl
  | stopped => exact h.same rfl rfl rfl rfl
  | late _ _ _ _ _ => exact h.same h.started rfl rfl rfl
  | ticked _ _ =>
    obtain ⟨h1, h2, h3⟩ := Timer.advance_keeps A s.timer
    exact h.same (h3.trans h.started) rfl h1 h2

/-- **A call keeps the contract if and only if it is armed.** -/
theorem Usage.Linked.armed_iff (h : u.Linked s.timer) (hs : s.Calls k A e s') :
    Contract u e ↔ Armed s e := by
  cases hs with
  | initialized => exact Iff.rfl
  | refused f _ hf =>
    refine ⟨fun _ hz => ?_, fun _ => nofun⟩
    rw [hz] at hf
    cases hf
  | trapped => exact ⟨fun hn => absurd rfl hn, fun hz => absurd rfl hz⟩
  | accepted f h1 _ => exact ⟨fun _ => Nat.ne_of_gt h1, fun _ => nofun⟩
  | running _ ht => exact ⟨fun _ => .inl ht, fun _ => nofun⟩
  | started r c ht _ =>
    refine ⟨fun hc => .inr (h.set_iff.mpr (hc rfl)), fun ha _ => ?_⟩
    rcases ha with hs | hf
    · exact absurd (ht.symm.trans hs) nofun
    · exact h.set_iff.mp hf
  | stopped => exact Iff.rfl
  | late _ _ _ _ hl => exact ⟨fun _ => .inr hl, fun _ => nofun⟩
  | ticked _ hl =>
    constructor
    · intro hc
      obtain ⟨h1, h2⟩ := hc rfl
      exact .inl ⟨h.set_iff.mpr h1, h.started.trans h2⟩
    · rintro (⟨h1, h2⟩ | h1) -
      · exact ⟨h.set_iff.mp h1, h.started.symm.trans h2⟩
      · exact absurd h1 hl

/-! ## The histories of calls -/

theorem usage_snoc (es : List TimerCall) (e : TimerCall) : usage (es ++ [e]) = (usage es).after e :=
  List.foldl_concat ..

theorem linked_of_run {raw : Timer} {c : List Nat} {es : List TimerCall}
    (hr : (timerObject k A).run (.new k raw c) es = some s) : (usage es).Linked s.timer := by
  refine (Machine.runs_of_run hr).follows (fun l v => (usage l).Linked v.timer)
    ⟨rfl, fun _ => rfl, nofun⟩ ?_
  intro l v e v' hv _ hs
  rw [usage_snoc]
  exact hv.calls (TimerObject.call_calls (TimerObject.step_call hs).2)

/-- **The contract of a timer.**  In a history of calls every call keeps what the interface
promises, and every tick is scheduled from the frequency set last, if and only if every call is
armed. -/
theorem contract_iff {raw : Timer} {c : List Nat} {es : List TimerCall} {t : TimerObject}
    (hr : (timerObject k A).run (.new k raw c) es = some t) :
    (∀ es₁ e es₂ s, es = es₁ ++ e :: es₂ → (timerObject k A).run (.new k raw c) es₁ = some s →
        Contract (usage es₁) e ∧ (e.schedules = true →
          ∃ f, (usage es₁).frequency = some f ∧ s.timer.originalSleepTimePs = 10^12 / f)) ↔
      ∀ es₁ e es₂ s, es = es₁ ++ e :: es₂ → (timerObject k A).run (.new k raw c) es₁ = some s →
        Armed s e := by
  have hcall : ∀ es₁ e es₂ s, es = es₁ ++ e :: es₂ →
      (timerObject k A).run (.new k raw c) es₁ = some s → ∃ s', s.Calls k A e s' := by
    intro es₁ e es₂ s hes hs
    rw [hes] at hr
    obtain ⟨v, s', hv, hs', -⟩ := Machine.run_cut hr
    cases hs.symm.trans hv
    exact ⟨s', TimerObject.call_calls (TimerObject.step_call hs').2⟩
  constructor
  · intro h es₁ e es₂ s hes hs
    obtain ⟨s', hs'⟩ := hcall es₁ e es₂ s hes hs
    exact ((linked_of_run hs).armed_iff hs').mp (h es₁ e es₂ s hes hs).1
  · intro h es₁ e es₂ s hes hs
    obtain ⟨s', hs'⟩ := hcall es₁ e es₂ s hes hs
    have linked := linked_of_run hs
    have contract := (linked.armed_iff hs').mpr (h es₁ e es₂ s hes hs)
    refine ⟨contract, fun hsch => ?_⟩
    have hset : (usage es₁).frequency.isSome = true := by
      cases e with
      | startTimer r => exact contract hsch
      | sleepToNextTick r => exact (contract hsch).1
      | _ => cases hsch
    obtain ⟨f, hf⟩ := Option.isSome_iff_exists.mp hset
    exact ⟨f, hf, (linked.setTo f hf).ps⟩

end

/-- a new `BusyWaitTimer` on the clock `c` -/
def newBusyWait (c : List Nat) : TimerObject :=
  .new .busyWait ⟨⟨0, 0⟩, 0, 0, 0, false, 0, Error.construct ""⟩ c

/-- a session at 100 Hz, and `initialize` again -/
def usedProperly : List TimerCall :=
  [.callInitialize true, .setFrequency 100 (some true), .startTimer true, .sleepToNextTick true,
    .stopTimer, .callInitialize true]

theorem contract_iff_session :
    ∃ t, (timerObject .busyWait FastInts.lp64).run (newBusyWait [7, 7, 10000008]) usedProperly
        = some t ∧
      ∀ es₁ e es₂ s, usedProperly = es₁ ++ e :: es₂ →
        (timerObject .busyWait FastInts.lp64).run (newBusyWait [7, 7, 10000008]) es₁ = some s →
        Contract (usage es₁) e ∧ (e.schedules = true →
          ∃ f, (usage es₁).frequency = some f ∧ s.timer.originalSleepTimePs = 10^12 / f) := by
  have hrun : (((timerObject .busyWait FastInts.lp64).restrict Armed).run
      (newBusyWait [7, 7, 10000008]) usedProperly).isSome = true := by decide
  obtain ⟨t, ht⟩ := Option.isSome_iff_exists.mp hrun
  have hruns := Machine.Runs.of_restrict ht
  exact ⟨t, hruns.run_eq, (contract_iff hruns.run_eq).mpr fun _ _ _ _ hes hs => hruns.at hes hs⟩

/-- `initialize` leaves the period of the last user and `start_timer` does not ask for another one;
and a frequency of 0 is divided by -/
theorem unarmed_tick :
    (∃ t, (timerObject .busyWait FastInts.lp64).run (newBusyWait [7, 7, 10000008])
        [.setFrequency 100 (some true), .callInitialize true, .startTimer true,
          .sleepToNextTick true] = some t ∧
      ¬ Contract (usage [.setFrequency 100 (some true), .callInitialize true]) (.startTimer true) ∧
      ¬ Contract (usage [.setFrequency 100 (some true), .callInitialize true, .startTimer true])
        (.sleepToNextTick true)) ∧
    ∃ t,
      (timerObject .busyWait FastInts.lp64).run (newBusyWait []) [.setFrequency 0 none] = some t ∧
      t.trapped = true ∧ ¬ Contract (usage []) (.setFrequency 0 none) := by
  constructor
  · have hrun : ((timerObject .busyWait FastInts.lp64).run (newBusyWait [7, 7, 10000008])
        [.setFrequency 100 (some true), .callInitialize true, .startTimer true,
          .sleepToNextTick true]).isSome = true := by decide
    obtain ⟨t, ht⟩ := Option.isSome_iff_exists.mp hrun
    refine ⟨t, ht, fun h => ?_, fun h => ?_⟩
    · exact absurd (h rfl) nofun
    · exact absurd (h rfl).1 nofun
  · exact ⟨_, rfl, rfl, fun h => h rfl⟩

/-! ## A running timer -/

/-- `set_frequency(f)` returns false and leaves all but the error handler -/
def Refuses (k : TimerClass) (f : Nat) (t : Timer) : Prop :=
  ∃ h, k.setFrequency f t = some (false, { t with errorHandler := h })

/-- a call between `start_timer` and the next `stop_timer` or `initialize` -/
def TimerCall.inside : TimerCall → Bool
  | .stopTimer | .callInitialize _ => false
  | _ => true

/-- what the call `e` of a timer running at the frequency `f` does to its schedule: only a tick
moves the target, by one period; a `set_frequency` is refused -/
def Kept (f : Nat) (s : TimerObject) (e : TimerCall) (s' : TimerObject) : Prop :=
  (∀ g r, e = .setFrequency g r →
      r = some false ∧ s'.timer = { s.timer with errorHandler := s'.timer.errorHandler }) ∧
    (e = .sleepToNextTick true → s'.timer.target = s.timer.target + (10^9 / f : Nat) ∨
      s'.timer.target = s.timer.target + (10^9 / f : Nat) + 1) ∧
    (e ≠ .sleepToNextTick true → s'.timer.target = s.timer.target)

section
variable {k : TimerClass} {A : FastInts} {s s' : TimerObject} {e : TimerCall} {f g o n : Nat}

theorem refuses_iff (k : TimerClass) (g : Nat) (t : Timer) :
    Refuses k g t ↔ timerMaxFrequency < g := by
  unfold Refuses
  rw [k.setFrequency_eq]
  rcases Timer.setFrequency_cases g t with ⟨hg, h⟩ | ⟨rfl, h⟩ | ⟨h1, h2, h⟩
  · rw [h]
    exact ⟨fun _ => hg, fun _ => ⟨_, rfl⟩⟩
  · rw [h]
    exact ⟨fun ⟨_, hx⟩ => (by cases hx), fun hx => absurd hx (Nat.not_lt_zero _)⟩
  · rw [h]
    exact ⟨fun ⟨_, hx⟩ => (by cases hx), fun hx => absurd h2 (Nat.not_le.mpr hx)⟩

/-- running at the frequency `f` since the reading `o` -/
def TimerObject.RunsAt (f o : Nat) (s : TimerObject) : Prop :=
  s.timer.timerStarted = true ∧ ∃ n, OnSchedule f o n s.timer s.clock

theorem TimerObject.RunsAt.same (h : s.RunsAt f o) {x : Error} :
    TimerObject.RunsAt f o { s with timer := { s.timer with errorHandler := x } } := by
  obtain ⟨hs, n, hn⟩ := h
  exact ⟨hs, n, hn.ps, hn.counter, hn.ns, hn.start, hn.after⟩

/-- **Every call inside that asks for no frequency within the limit keeps the schedule.** -/
theorem TimerObject.RunsAt.call (h : s.RunsAt f o) (hin : e.inside = true)
    (hg : ∀ g r, e = .setFrequency g r → timerMaxFrequency < g) (hs : s.call k A e = some s') :
    s'.RunsAt f o ∧ Kept f s e s' := by
  obtain ⟨hrun, n, hn⟩ := h
  cases TimerObject.call_calls hs with
  | initialized => cases hin
  | stopped => cases hin
  | trapped => exact absurd (hg 0 none rfl) (Nat.not_lt_zero _)
  | accepted g h1 h2 => exact absurd (hg g _ rfl) (Nat.not_lt.mpr h2)
  | refused g x _ =>
    refine ⟨TimerObject.RunsAt.same ⟨hrun, n, hn⟩, fun _ _ he => ?_, nofun, fun _ => rfl⟩
    cases he
    exact ⟨rfl, rfl⟩
  | running x _ => exact ⟨TimerObject.RunsAt.same ⟨hrun, n, hn⟩, nofun, nofun, fun _ => rfl⟩
  | started r c ht _ => exact absurd (ht.symm.trans hrun) nofun
  | late r c x hc _ =>
    have hafter := hn.after
    rw [hc] at hafter
    exact ⟨⟨hrun, n, hn.ps, hn.counter, hn.ns, hn.start, hafter.2.mono hafter.1⟩, nofun, nofun,
      fun _ => rfl⟩
  | ticked c _ =>
    obtain ⟨x, hx, hs⟩ := Option.bind_eq_some_iff.mp hs
    obtain ⟨hok, he⟩ := Option.ite_some_none_eq_some.mp hs
    have hn' := (sleepToNextTick_step k hn hx).1
    rw [if_pos hok] at hn'
    have htimer : x.timer = s.timer.advance A := congrArg TimerObject.timer he
    have hclock : x.clock = c := congrArg TimerObject.clock he
    rw [htimer, hclock] at hn'
    refine ⟨⟨(Timer.advance_keeps A s.timer).2.2.trans hrun, n + 1, hn'⟩, nofun, fun _ => ?_,
      fun hne => absurd rfl hne⟩
    show (s.timer.advance A).target = _ ∨ (s.timer.advance A).target = _
    rw [hn'.target_eq, hn.target_eq]
    rcases target_succ f o n with h | h
    · exact .inl (by rw [h, Nat.cast_add])
    · exact .inr (by rw [h, Nat.cast_add, Nat.cast_add]; rfl)

theorem runsAt_started (hset : s.timer.SetTo f) (C : Clock) (hc : s.clock = C.readings)
    (hs : s.step k A (.startTimer true) = some s') : s'.RunsAt f C.first := by
  cases TimerObject.call_calls (TimerObject.step_call hs).2 with
  | started r c _ hc' =>
    obtain ⟨rfl, rfl⟩ := List.cons.inj (hc'.symm.trans hc)
    refine ⟨rfl, 0, hset.ps, rfl, ?_, ?_, ?_⟩
    · show Timer.nextSleepTimeNs s.timer.originalSleepTimePs 1 = targetNs f 1
      rw [hset.ps]
      exact nextSleepTimeNs_eq f 1 (by omega)
    · rw [origin_zero]
    · rw [origin_zero]
      exact C.ordered

/-- **The frequency of a running timer.**  In every state of a timer, started or not,
`set_frequency` refuses exactly the frequencies above the limit.  So between a `start_timer` and the
next `stop_timer` or `initialize` the targets stay one period of the frequency set before apart, and
every `set_frequency` is refused, if and only if every frequency asked for is above the limit. -/
theorem frequency_kept_iff {raw : Timer} {c : List Nat} {es : List TimerCall}
    (hr : (timerObject k A).run (.new k raw c) es = some s) :
    (s.timer.timerStarted = true → ∀ g, Refuses k g s.timer ↔ timerMaxFrequency < g) ∧
      ∀ (f : Nat) (C : Clock) (u v : TimerObject) (es' : List TimerCall),
        (usage es).frequency = some f → s.clock = C.readings →
        (timerObject k A).step s (.startTimer true) = some u →
        (timerObject k A).run u es' = some v → (∀ e ∈ es', e.inside = true) →
        ((∀ es₁ e es₂ x y, es' = es₁ ++ e :: es₂ → (timerObject k A).run u es₁ = some x →
            (timerObject k A).step x e = some y → Kept f x e y) ↔
          ∀ g r, .setFrequency g r ∈ es' → timerMaxFrequency < g) := by
  refine ⟨fun _ g => refuses_iff k g s.timer, ?_⟩
  intro f C u v es' hf hc hu hv hin
  have hset := (linked_of_run hr).setTo f hf
  constructor
  · intro h g r hmem
    obtain ⟨es₁, es₂, hes⟩ := List.append_of_mem hmem
    have hv' := hv
    rw [hes] at hv'
    obtain ⟨x, y, hx, hy, -⟩ := Machine.run_cut hv'
    obtain ⟨hr, -⟩ := (h es₁ _ es₂ x y hes hx hy).1 g r rfl
    cases TimerObject.call_calls (TimerObject.step_call hy).2 with
    | refused g x hg => exact hg
    | trapped => cases hr
    | accepted => cases hr
  · intro h es₁ e es₂ x y hes hx hy
    have ok : ∀ e ∈ es', e.inside = true ∧ ∀ g r, e = .setFrequency g r → timerMaxFrequency < g :=
      fun e he => ⟨hin e he, fun g r heq => h g r (heq ▸ he)⟩
    have hruns : (timerObject k A).Runs (fun _ e => e.inside = true ∧
        ∀ g r, e = .setFrequency g r → timerMaxFrequency < g) u es₁ x := by
      refine Machine.Runs.of_run hx fun e' he' _ => ok e' ?_
      rw [hes]
      exact List.mem_append_left _ he'
    have hx' : x.RunsAt f C.first := by
      refine hruns.keeps (TimerObject.RunsAt f C.first) (runsAt_started hset C hc hu) ?_
      rintro w e' w' hw ⟨h1, h2⟩ hs
      exact (hw.call h1 h2 (TimerObject.step_call hs).2).1
    obtain ⟨h1, h2⟩ := ok e (by rw [hes]; exact List.mem_append_right _ List.mem_cons_self)
    exact (hx'.call h1 h2 (TimerObject.step_call hy).2).2

end

/-- a running timer refuses 200 Hz, and ticks a period later -/
theorem frequency_kept_iff_refused :
    ∃ s u v, (timerObject .busyWait FastInts.lp64).run (newBusyWait [7, 7, 10000008])
        [.setFrequency 100 (some true)] = some s ∧
      (timerObject .busyWait FastInts.lp64).step s (.startTimer true) = some u ∧
      (timerObject .busyWait FastInts.lp64).run u
        [.setFrequency 200 (some false), .sleepToNextTick true] = some v ∧
      ∀ es₁ e es₂ x y, [.setFrequency 200 (some false), .sleepToNextTick true] = es₁ ++ e :: es₂ →
        (timerObject .busyWait FastInts.lp64).run u es₁ = some x →
        (timerObject .busyWait FastInts.lp64).step x e = some y → Kept 100 x e y := by
  have hclock : ((timerObject .busyWait FastInts.lp64).run (newBusyWait [7, 7, 10000008])
      [.setFrequency 100 (some true)]).map (fun s => s.clock) = some [7, 7, 10000008] := by decide
  have hrun : ((timerObject .busyWait FastInts.lp64).run (newBusyWait [7, 7, 10000008])
      [.setFrequency 100 (some true)]).bind (fun s =>
        ((timerObject .busyWait FastInts.lp64).step s (.startTimer true)).bind fun u =>
          ((timerObject .busyWait FastInts.lp64).run u
            [.setFrequency 200 (some false), .sleepToNextTick true]).map fun v => v.trapped)
      = some false := by decide
  obtain ⟨s, hs, hrun⟩ := Option.bind_eq_some_iff.mp hrun
  obtain ⟨u, hu, hrun⟩ := Option.bind_eq_some_iff.mp hrun
  obtain ⟨v, hv, -⟩ := Option.map_eq_some_iff.mp hrun
  rw [hs] at hclock
  have hc : s.clock = [7, 7, 10000008] := Option.some.inj hclock
  refine ⟨s, u, v, hs, hu, hv, ?_⟩
  refine ((frequency_kept_iff hs).2 100 ⟨7, [7, 10000008], by simp [After]⟩ u v _ rfl hc hu hv
    (by decide)).mpr ?_
  intro g r hg
  obtain ⟨rfl, -⟩ : g = 200 ∧ r = some false := by simpa using hg
  decide

/-- a running timer takes 1 Hz, and its next target is two seconds after its start -/
theorem frequency_changed :
    ∃ u x y, (timerObject .busyWait FastInts.lp64).run (newBusyWait [7, 7, 10000008])
        [.setFrequency 100 (some true), .startTimer true] = some u ∧
      (timerObject .busyWait FastInts.lp64).step u (.setFrequency 1 (some true)) = some x ∧
      (timerObject .busyWait FastInts.lp64).step x (.sleepToNextTick true) = some y ∧
      u.timer.timerStarted = true ∧ ¬ Refuses .busyWait 1 u.timer ∧
      x.timer.target = 10000008 ∧ y.timer.target = 2000000008 ∧
      ¬ Kept 100 u (.setFrequency 1 (some true)) x ∧ ¬ Kept 100 x (.sleepToNextTick true) y := by
  have hrun : ((timerObject .busyWait FastInts.lp64).run (newBusyWait [7, 7, 10000008])
      [.setFrequency 100 (some true), .startTimer true]).bind (fun u =>
        ((timerObject .busyWait FastInts.lp64).step u (.setFrequency 1 (some true))).bind fun x =>
          ((timerObject .busyWait FastInts.lp64).step x (.sleepToNextTick true)).map fun y =>
            (u.timer.timerStarted, x.timer.target, y.timer.target))
      = some (true, 10000008, 2000000008) := by decide
  obtain ⟨u, hu, hrun⟩ := Option.bind_eq_some_iff.mp hrun
  obtain ⟨x, hx, hrun⟩ := Option.bind_eq_some_iff.mp hrun
  obtain ⟨y, hy, he⟩ := Option.map_eq_some_iff.mp hrun
  obtain ⟨h1, h2, h3⟩ : u.timer.timerStarted = true ∧ x.timer.target = 10000008 ∧
      y.timer.target = 2000000008 := by simpa using he
  refine ⟨u, x, y, hu, hx, hy, h1, ?_, h2, h3, fun h => ?_, fun h => ?_⟩
  · rw [refuses_iff]
    decide
  · exact absurd (h.1 1 _ rfl).1 nofun
  · have h4 := h.2.1 rfl
    rw [h2, h3] at h4
    rcases h4 with h4 | h4 <;> exact absurd h4 (by decide)

end RealTimeTransfer
