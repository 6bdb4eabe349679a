import RealTimeTransfer.Timers.Clock
import RealTimeTransfer.Utils.Error

/-!
# The three timers

`BusyWaitTimer`, `WorstCaseTimer` and `FreeWaitTimer` have the same fields (the second one a delay
more) and the same code but for the wait inside `sleep_to_next_tick`.  The common code is written
once, in the namespace `Timer`; each class has its own definitions, and `TimerClass` dispatches a
virtual call.

A call that divides by zero or outlasts the clock has no result (`none`).
-/

namespace RealTimeTransfer
open Words

def timerMaxFrequency : Nat := 100

/-- `TIMER_FREQUNCY_ERROR` -/
def timerFrequncyError : Nat := 2^16 - 1

/-- the fields of a timer object -/
structure Timer where
  startTime : Timespec
  frequency : Nat
  originalSleepTimePs : Nat
  sleepTimeNs : Nat
  timerStarted : Bool
  sleepCounter : Nat
  errorHandler : Error

/-- what a call of `sleep_to_next_tick` leaves: its result, the object, the requests it made to
`nanosleep`, the clock -/
structure Tick where
  ok : Bool
  timer : Timer
  requests : List Timespec
  clock : List Nat

namespace Timer

/-- a constructor: `raw` is what the memory held, for the fields it does not set -/
def construct (owner : String) (raw : Timer) : Timer :=
  { raw with
    frequency := timerFrequncyError, timerStarted := false, errorHandler := Error.construct owner }

def initializeTimer (t : Timer) : Bool × Timer :=
  (true, { t with frequency := timerFrequncyError, timerStarted := false })

def frequencyError (frequency : Nat) : String :=
  "The frequency provided is : " ++ toString (toS 32 frequency)
    ++ ", the max frequency supported is " ++ toString timerMaxFrequency

def setFrequency (frequency : Nat) (t : Timer) : Option (Bool × Timer) :=
  if timerMaxFrequency < frequency then
    some (false, { t with errorHandler := t.errorHandler.setError (frequencyError frequency) })
  else if frequency = 0 then none
  else
    some (true, { t with frequency := frequency, originalSleepTimePs := secToPs 1 / frequency })

/-- the target of the next tick: `PS_TO_NS(original_sleep_time_ps_ * sleep_counter_) + 1` -/
def nextSleepTimeNs (originalSleepTimePs sleepCounter : Nat) : Nat :=
  toU 64 (psToNs (toU 64 (originalSleepTimePs * sleepCounter : Nat)) + 1 : Nat)

def runningError : String := "You can't start the timer while it is already running"

def startTimer (t : Timer) (c : List Nat) : Option (Bool × Timer × List Nat) :=
  if t.timerStarted then
    some (false, { t with errorHandler := t.errorHandler.setError runningError }, c)
  else
    (clockGettime c).map fun x =>
      (true, { t with
        startTime := x.1, timerStarted := true, sleepCounter := 1,
        sleepTimeNs := nextSleepTimeNs t.originalSleepTimePs 1 }, x.2)

def stopTimer (t : Timer) : Timer := { t with timerStarted := false }

def tickedError : String := "The tick already ticked before calling sleep_to_next_tick."

/-- the reset that prevents overflow: at `2^23` ticks the origin moves to the tick just reached -/
def rebase (t : Timer) : Timer :=
  if t.sleepCounter = 2^23 then
    { t with startTime := addNsToTimespec t.startTime t.sleepTimeNs, sleepCounter := 0 }
  else t

/-- the end of a successful `sleep_to_next_tick` -/
def advance (A : FastInts) (t : Timer) : Timer :=
  let counter := toU A.w32 (t.rebase.sleepCounter + 1 : Nat)
  { t.rebase with
    sleepCounter := counter, sleepTimeNs := nextSleepTimeNs t.originalSleepTimePs counter }

/-- `sleep_to_next_tick` with the wait `wait` between its check and its reset -/
def sleepWith (wait : Timer → Timespec → List Nat → Option (List Timespec × List Nat))
    (A : FastInts) (t : Timer) (c : List Nat) : Option Tick :=
  (clockGettime c).bind fun x =>
    if t.sleepTimeNs < timespecDiffNs t.startTime x.1 then
      some ⟨false, { t with errorHandler := t.errorHandler.setError tickedError }, [], x.2⟩
    else (wait t x.1 x.2).map fun y => ⟨true, t.advance A, y.1, y.2⟩

end Timer

namespace BusyWaitTimer

def initializeTimer := Timer.initializeTimer
def setFrequency := Timer.setFrequency
def startTimer := Timer.startTimer
def stopTimer := Timer.stopTimer

/-- busy wait for the whole period -/
def wait (t : Timer) (current : Timespec) (c : List Nat) : Option (List Timespec × List Nat) :=
  (spin t.startTime t.sleepTimeNs current c).map fun c' => ([], c')

def sleepToNextTick := Timer.sleepWith wait

end BusyWaitTimer

namespace WorstCaseTimer

def initializeTimer := Timer.initializeTimer
def setFrequency := Timer.setFrequency
def startTimer := Timer.startTimer
def stopTimer := Timer.stopTimer

/-- block until `worst_timer_delay_ns_` before the tick, then busy wait -/
def wait (worstTimerDelayNs : Nat) (t : Timer) (current : Timespec) (c : List Nat) :
    Option (List Timespec × List Nat) :=
  let left := sub64 t.sleepTimeNs (timespecDiffNs t.startTime current)
  if left < worstTimerDelayNs then
    (spin t.startTime t.sleepTimeNs current c).map fun c' => ([], c')
  else
    (nanosecondsSleep (sub64 left worstTimerDelayNs) c).bind fun x =>
      (spin t.startTime t.sleepTimeNs current x.2).map fun c' => (x.1, c')

def sleepToNextTick (worstTimerDelayNs : Nat) := Timer.sleepWith (wait worstTimerDelayNs)

end WorstCaseTimer

namespace FreeWaitTimer

def initializeTimer := Timer.initializeTimer
def setFrequency := Timer.setFrequency
def startTimer := Timer.startTimer
def stopTimer := Timer.stopTimer

/-- block for the whole period -/
def wait (t : Timer) (current : Timespec) (c : List Nat) : Option (List Timespec × List Nat) :=
  nanosecondsSleep (sub64 t.sleepTimeNs (timespecDiffNs t.startTime current)) c

def sleepToNextTick := Timer.sleepWith wait

end FreeWaitTimer

/-- the class of a timer object; `worst_timer_delay_ns_` never changes after construction -/
inductive TimerClass where
  | busyWait
  | worstCase (worstTimerDelayNs : Nat)
  | freeWait
  deriving DecidableEq, Repr

namespace TimerClass

/-- the name that a constructor gives to `error_handler_` -/
def owner : TimerClass → String
  | .busyWait => "BusyWaitTimer"
  | .worstCase _ => "WorstCaseTimer"
  | .freeWait => "FreeWaitTimer"

def construct (k : TimerClass) : Timer → Timer := Timer.construct k.owner

def initializeTimer : TimerClass → Timer → Bool × Timer
  | .busyWait => BusyWaitTimer.initializeTimer
  | .worstCase _ => WorstCaseTimer.initializeTimer
  | .freeWait => FreeWaitTimer.initializeTimer

def stopTimer : TimerClass → Timer → Timer
  | .busyWait => BusyWaitTimer.stopTimer
  | .worstCase _ => WorstCaseTimer.stopTimer
  | .freeWait => FreeWaitTimer.stopTimer

def setFrequency : TimerClass → Nat → Timer → Option (Bool × Timer)
  | .busyWait => BusyWaitTimer.setFrequency
  | .worstCase _ => WorstCaseTimer.setFrequency
  | .freeWait => FreeWaitTimer.setFrequency

def startTimer : TimerClass → Timer → List Nat → Option (Bool × Timer × List Nat)
  | .busyWait => BusyWaitTimer.startTimer
  | .worstCase _ => WorstCaseTimer.startTimer
  | .freeWait => FreeWaitTimer.startTimer

/-- the wait of the class -/
def wait : TimerClass → Timer → Timespec → List Nat → Option (List Timespec × List Nat)
  | .busyWait => BusyWaitTimer.wait
  | .worstCase d => WorstCaseTimer.wait d
  | .freeWait => FreeWaitTimer.wait

def sleepToNextTick : TimerClass → FastInts → Timer → List Nat → Option Tick
  | .busyWait => BusyWaitTimer.sleepToNextTick
  | .worstCase d => WorstCaseTimer.sleepToNextTick d
  | .freeWait => FreeWaitTimer.sleepToNextTick

theorem initializeTimer_eq (k : TimerClass) : k.initializeTimer = Timer.initializeTimer := by
  cases k <;> rfl

theorem stopTimer_eq (k : TimerClass) : k.stopTimer = Timer.stopTimer := by
  cases k <;> rfl

theorem setFrequency_eq (k : TimerClass) : k.setFrequency = Timer.setFrequency := by
  cases k <;> rfl

theorem startTimer_eq (k : TimerClass) : k.startTimer = Timer.startTimer := by
  cases k <;> rfl

/-- the three `sleep_to_next_tick` differ in their wait only -/
theorem sleepToNextTick_eq (k : TimerClass) : k.sleepToNextTick = Timer.sleepWith k.wait := by
  cases k <;> rfl

/-- **Whatever the class, a wait that starts in time returns at a reading at or after the tick.** -/
theorem wait_spec (k : TimerClass) {t : Timer} {base e : Nat} {c c' : List Nat}
    {q : List Timespec} (hs : t.startTime = ofNs base) (hb : base ≤ e)
    (he : e - base ≤ t.sleepTimeNs) (ht : t.sleepTimeNs < 2^64) (hc : After e c)
    (h : k.wait t (ofNs e) c = some (q, c')) : ∃ l, base + t.sleepTimeNs ≤ l ∧ After l c' := by
  have hd : timespecDiffNs t.startTime (ofNs e) = e - base := by
    rw [hs, timespecDiffNs_ofNs hb hc.lt]
  have hleft : sub64 t.sleepTimeNs (timespecDiffNs t.startTime (ofNs e))
      = t.sleepTimeNs - (e - base) := by rw [hd, sub64_eq he ht]
  have hspin : ∀ c c1, After e c → spin t.startTime t.sleepTimeNs (ofNs e) c = some c1 →
      ∃ l, base + t.sleepTimeNs ≤ l ∧ After l c1 := by
    intro c c1 hc h1
    rw [hs] at h1
    obtain ⟨l, _, h2, h3⟩ := spin_spec hb hc h1
    exact ⟨l, h2, h3⟩
  cases k with
  | busyWait =>
    obtain ⟨c1, h1, h2⟩ := Option.map_eq_some_iff.mp h
    cases h2
    exact hspin _ _ hc h1
  | worstCase d =>
    change WorstCaseTimer.wait d t (ofNs e) c = some (q, c') at h
    unfold WorstCaseTimer.wait at h
    rw [hleft] at h
    by_cases hlt : t.sleepTimeNs - (e - base) < d
    · rw [if_pos hlt] at h
      obtain ⟨c1, h1, h2⟩ := Option.map_eq_some_iff.mp h
      cases h2
      exact hspin _ _ hc h1
    · rw [if_neg hlt] at h
      obtain ⟨x, hx, h⟩ := Option.bind_eq_some_iff.mp h
      obtain ⟨c1, h1, h2⟩ := Option.map_eq_some_iff.mp h
      cases h2
      obtain ⟨l, hl, hal⟩ := nanosecondsSleep_spec hc hx
      exact hspin _ _ (hal.mono (by omega)) h1
  | freeWait =>
    change nanosecondsSleep (sub64 t.sleepTimeNs (timespecDiffNs t.startTime (ofNs e))) c
      = some (q, c') at h
    rw [hleft] at h
    obtain ⟨l, hl, hal⟩ := nanosecondsSleep_spec hc h
    exact ⟨l, by omega, hal⟩

end TimerClass
end RealTimeTransfer
