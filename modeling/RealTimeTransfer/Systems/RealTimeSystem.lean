import RealTimeTransfer.Lib.Machine
import RealTimeTransfer.Senders.DataPackets
import RealTimeTransfer.Utils.Error

/-!
# RealTimeSystem

The class `RealTimeSystem`, one step for each call it makes of the timer, the sender, the user
function and the sleep functions; an event carries what that call was given and what it answered.
A public call is one event where it makes no such calls but in `initialize`, whose answers come
together.  Between two public calls the point is `idle`, with the value that the last one returned.

* `RealTimeSystem.step`    one step;
* `system A`               the machine: any sequence of public calls;
* `RealTimeSystem.Moves`   what a step inside a call can be.
-/

namespace RealTimeTransfer
open Machines Words

/-- the argument of the user function -/
structure RealTimeInfo where
  sequenceNumber : Nat
  skipNextData : Bool
  delayedMs : Nat
  deriving DecidableEq, Repr

/-- a call of the user function: its argument, the list it returned, and whether it called
`stop_system` -/
structure UserCall where
  info : RealTimeInfo
  list : DataPacketsList
  stop : Bool
  deriving DecidableEq, Repr

/-- a call that returns false leaves a text behind -/
abbrev Answer := Option String

/-- what `convert_rt_thread`, the timer and the sender answer to `initialize` -/
structure SystemAnswers where
  convertRtThread : Answer
  timerInitialize : Answer
  timerSetFrequency : Answer
  senderInitialize : Answer
  deriving DecidableEq, Repr

inductive SystemPc where
  | idle (r : Option Bool)
  | beforeSend
  | beforeLoop
  | beforeSleep (n : Nat)
  | beforePoll
  | beforeTest
  | beforeEnd
  | startTimer
  | loopTop
  | toleranceTest
  | toleranceSleep
  | doneTest
  | skipTest
  | skipCall
  | skipTick
  | normalCall
  | send
  | tick
  | ending (r : Bool)
  deriving DecidableEq, Repr

inductive SystemEvent where
  | setTimer (p : Ptr)
  | setSender (p : Ptr)
  | setUserDataFn (p : Ptr)
  | setFrequency (f : Nat)
  | setMsTolerance (n : Nat)
  | skipMode (b : Bool)
  | callInitialize (a : SystemAnswers)
  | sendBeforeRun (l : DataPacketsList) (timeLimitMs : Nat)
  | run
  /-- a step without a call -/
  | tau
  | sleepMs (n : Nat)
  | sleepUs (n : Nat)
  | startTimer (a : Answer)
  | isSendDone (b : Bool)
  | userCall (c : UserCall)
  | send (l : DataPacketsList) (a : Answer)
  | tick (ok : Bool)
  | endSender
  deriving DecidableEq, Repr

/-- the fields of the object, a pointer being NULL at 0, and the local variables of the call under
way -/
structure RealTimeSystem where
  timer : Ptr := 0
  sender : Ptr := 0
  userAppFunc : Ptr := 0
  allowSkipMode : Bool := false
  initialized : Bool := false
  msTolerance : Nat := 0
  frequency : Nat := 0
  errorHandler : Error := Error.construct "RealTimeSystem"
  pc : SystemPc := .idle none
  listOfData : DataPacketsList := []
  timeLimitMs : Nat := 0
  userPacketsList : DataPacketsList := []
  sequenceNumber : Nat := 0
  skippedCount : Nat := 0
  usedToleratedTime : Int := 0
  deriving DecidableEq, Repr

namespace RealTimeSystem

def goto (s : RealTimeSystem) (pc : SystemPc) : RealTimeSystem := { s with pc := pc }

/-- `error_handler_.set_error(msg)`, then the point `pc` -/
def fail (s : RealTimeSystem) (msg : String) (pc : SystemPc) : RealTimeSystem :=
  { s with errorHandler := s.errorHandler.setError msg, pc := pc }

/-- the setters of a pointer -/
def setPointer (s s' : RealTimeSystem) (p : Ptr) (msg : String) : RealTimeSystem :=
  let s0 := { s with initialized := false }
  if p = 0 then s0.fail msg (.idle (some false))
  else { s' with initialized := false, pc := .idle (some true) }

/-- the width of an expression in `frequency_` or `ms_tolerance_`, which are promoted -/
def wide (A : FastInts) : Nat := max A.w16 32

/-- `(1000/frequency_) - 5` -/
def toleranceLimit (A : FastInts) (frequency : Nat) : Nat :=
  toU A.w16 (((1000 / frequency : Nat) : Int) - 5)

/-- the first check or answer that fails -/
def initError (s : RealTimeSystem) (a : SystemAnswers) : Option String :=
  if s.userAppFunc = 0 then some "Null user Function provided"
  else if s.timer = 0 then some "Null Timer provided"
  else if s.sender = 0 then some "Null Sender provided"
  else if s.frequency = 0 then some "Not provided frequency"
  else a.convertRtThread <|> a.timerInitialize <|> a.timerSetFrequency <|> a.senderInitialize

def initializeSystem (A : FastInts) (s : RealTimeSystem) (a : SystemAnswers) : RealTimeSystem :=
  match s.initError a with
  | some msg => s.fail msg (.idle (some false))
  | none =>
    { s with
      msTolerance := min s.msTolerance (toleranceLimit A s.frequency),
      initialized := true, pc := .idle (some true) }

def disconnectedText : String := "The client disconnected."

def notSentText : String := "Failed to send the data in the required time"

def lateText : String :=
  "Failed to return from the sender object in the needed time - this bug related to the " ++
    "sender object not to the size of the payload"

/-- the info of a call made in the skip branch, or in the normal one -/
def info (A : FastInts) (s : RealTimeSystem) (skip : Bool) : RealTimeInfo where
  sequenceNumber := s.sequenceNumber
  skipNextData := skip
  delayedMs := toU A.w16 (if skip then s.usedToleratedTime / 2 else s.usedToleratedTime)

/-- the start of an iteration: the sequence number, then the check of the skip counter -/
def iterate (A : FastInts) (s : RealTimeSystem) : RealTimeSystem :=
  let s := { s with sequenceNumber := toU A.w32 (s.sequenceNumber + 1 : Nat) }
  if s.skippedCount = toU (wide A) (s.frequency * 3 : Nat) then
    s.fail disconnectedText (.ending false)
  else { s with usedToleratedTime := 0, pc := .toleranceTest }

/-- a public call, made between two others -/
def call (A : FastInts) (s : RealTimeSystem) : SystemEvent → Option RealTimeSystem
  | .setTimer p => some (s.setPointer { s with timer := p } p "Null Timer provided")
  | .setSender p => some (s.setPointer { s with sender := p } p "Null Sender provided")
  | .setUserDataFn p => some (s.setPointer { s with userAppFunc := p } p "Null Function provided")
  | .setFrequency f =>
    some { s with initialized := false, frequency := f, pc := .idle (some true) }
  | .setMsTolerance n =>
    some { s with initialized := false, msTolerance := n, pc := .idle none }
  | .skipMode b => some { s with initialized := false, allowSkipMode := b, pc := .idle none }
  | .callInitialize a => some (s.initializeSystem A a)
  | .sendBeforeRun l n =>
    some (if s.initialized then { s with listOfData := l, timeLimitMs := n, pc := .beforeSend }
      else s.fail "System not initialized yet" (.idle (some false)))
  | .run =>
    some (if s.initialized then { s with initialized := false, pc := .startTimer }
      else s.fail "System not initialized yet." (.idle (some false)))
  | _ => none

def step (A : FastInts) (s : RealTimeSystem) (e : SystemEvent) : Option RealTimeSystem :=
  match s.pc, e with
  | .idle _, e => s.call A e
  -- `send_before_run`; the result of `send` is not looked at
  | .beforeSend, .send l _ => if l = s.listOfData then some (s.goto .beforeLoop) else none
  | .beforeLoop, .tau =>
    if s.timeLimitMs = 0 then some (s.goto .beforeTest)
    else
      let sleepingTime := toU A.w32 (s.timeLimitMs / 2 + 1 : Nat)
      some { s with
        timeLimitMs := toU A.w32 ((s.timeLimitMs : Int) - sleepingTime),
        pc := .beforeSleep sleepingTime }
  | .beforeSleep n, .sleepMs m => if m = n then some (s.goto .beforePoll) else none
  | .beforePoll, .isSendDone b => some (s.goto (if b then .beforeTest else .beforeLoop))
  | .beforeTest, .isSendDone b => some (s.goto (if b then .idle (some true) else .beforeEnd))
  | .beforeEnd, .endSender =>
    some { s.fail "Sender couldn't send the data in the given time limit" (.idle (some false)) with
      initialized := false }
  -- `run`
  | .startTimer, .startTimer none =>
    some { s with
      userPacketsList := [], sequenceNumber := toU A.w32 (-1), skippedCount := 0, pc := .loopTop }
  | .startTimer, .startTimer (some msg) => some (s.fail msg (.idle (some false)))
  | .loopTop, .tau => some (s.iterate A)
  | .toleranceTest, .tau =>
    if toU (wide A) s.usedToleratedTime < toU (wide A) (s.msTolerance * 2 : Nat) then none
    else some (s.goto .doneTest)
  | .toleranceTest, .isSendDone b =>
    if toU (wide A) s.usedToleratedTime < toU (wide A) (s.msTolerance * 2 : Nat) then
      some (s.goto (if b then .doneTest else .toleranceSleep))
    else none
  | .toleranceSleep, .sleepUs n =>
    if n = 500 then
      some { s with usedToleratedTime := toS 32 (s.usedToleratedTime + 1), pc := .toleranceTest }
    else none
  | .doneTest, .isSendDone b =>
    some (if !b && !s.allowSkipMode then s.fail notSentText (.ending false) else s.goto .skipTest)
  | .skipTest, .isSendDone b =>
    some (s.goto (if !b && s.allowSkipMode then .skipCall else .normalCall))
  | .skipCall, .userCall c =>
    if c.info = s.info A true then
      let s := { s with userPacketsList := c.list }
      some (if c.stop then s.goto (.ending true)
        else { s with skippedCount := toU A.w32 (s.skippedCount + 1 : Nat), pc := .skipTick })
    else none
  | .skipTick, .tick ok => some (if ok then s.goto .loopTop else s.fail lateText (.ending false))
  | .normalCall, .userCall c =>
    if c.info = s.info A false then
      let s := { s with skippedCount := 0, userPacketsList := c.list }
      some (s.goto (if c.stop then .ending true else .send))
    else none
  | .send, .send l a =>
    if l = s.userPacketsList then
      some (match a with
        | none => s.goto .tick
        | some msg => s.fail msg (.ending false))
    else none
  | .tick, .tick ok => some (if ok then s.goto .loopTop else s.fail lateText (.ending false))
  | .ending r, .endSender => some (s.goto (.idle (some r)))
  | _, _ => none

end RealTimeSystem

def system (A : FastInts) : Machine RealTimeSystem SystemEvent := ⟨RealTimeSystem.step A⟩

/-! ## The steps inside a call -/

namespace RealTimeSystem

/-- a step of `send_before_run` or `run` from `s` -/
inductive Moves (A : FastInts) (s : RealTimeSystem) : SystemEvent → RealTimeSystem → Prop where
  | sendFirst (a : Answer) : s.pc = .beforeSend →
      Moves A s (.send s.listOfData a) (s.goto .beforeLoop)
  | timeUp : s.pc = .beforeLoop → Moves A s .tau (s.goto .beforeTest)
  | wait (limit n : Nat) : s.pc = .beforeLoop →
      Moves A s .tau { s with timeLimitMs := limit, pc := .beforeSleep n }
  | waited (n : Nat) : s.pc = .beforeSleep n → Moves A s (.sleepMs n) (s.goto .beforePoll)
  | polled (b : Bool) : s.pc = .beforePoll →
      Moves A s (.isSendDone b) (s.goto (if b then .beforeTest else .beforeLoop))
  | inTime : s.pc = .beforeTest → Moves A s (.isSendDone true) (s.goto (.idle (some true)))
  | tooLate : s.pc = .beforeTest → Moves A s (.isSendDone false) (s.goto .beforeEnd)
  | giveUp (h : Error) : s.pc = .beforeEnd → Moves A s .endSender
      { s with errorHandler := h, initialized := false, pc := .idle (some false) }
  | started : s.pc = .startTimer → Moves A s (.startTimer none) { s with
      userPacketsList := [], sequenceNumber := toU A.w32 (-1), skippedCount := 0, pc := .loopTop }
  | notStarted (msg : String) : s.pc = .startTimer →
      Moves A s (.startTimer (some msg)) (s.fail msg (.idle (some false)))
  | disconnected : s.pc = .loopTop → s.skippedCount = toU (wide A) (s.frequency * 3 : Nat) →
      Moves A s .tau { s with
        sequenceNumber := toU A.w32 (s.sequenceNumber + 1 : Nat),
        errorHandler := s.errorHandler.setError disconnectedText, pc := .ending false }
  | iterated : s.pc = .loopTop → s.skippedCount ≠ toU (wide A) (s.frequency * 3 : Nat) →
      Moves A s .tau { s with
        sequenceNumber := toU A.w32 (s.sequenceNumber + 1 : Nat), usedToleratedTime := 0,
        pc := .toleranceTest }
  | toleranceOver : s.pc = .toleranceTest → Moves A s .tau (s.goto .doneTest)
  | tolerated (b : Bool) : s.pc = .toleranceTest →
      Moves A s (.isSendDone b) (s.goto (if b then .doneTest else .toleranceSleep))
  | slept (n : Int) : s.pc = .toleranceSleep →
      Moves A s (.sleepUs 500) { s with usedToleratedTime := n, pc := .toleranceTest }
  | notSent : s.pc = .doneTest → s.allowSkipMode = false →
      Moves A s (.isSendDone false) (s.fail notSentText (.ending false))
  | tested (b : Bool) : s.pc = .doneTest → b = true ∨ s.allowSkipMode = true →
      Moves A s (.isSendDone b) (s.goto .skipTest)
  | skipping : s.pc = .skipTest → s.allowSkipMode = true →
      Moves A s (.isSendDone false) (s.goto .skipCall)
  | keeping (b : Bool) : s.pc = .skipTest → b = true ∨ s.allowSkipMode = false →
      Moves A s (.isSendDone b) (s.goto .normalCall)
  | skipStopped (c : UserCall) : s.pc = .skipCall → c.info = s.info A true → c.stop = true →
      Moves A s (.userCall c) { s with userPacketsList := c.list, pc := .ending true }
  | skipped (c : UserCall) : s.pc = .skipCall → c.info = s.info A true → c.stop = false →
      Moves A s (.userCall c) { s with
        userPacketsList := c.list, skippedCount := toU A.w32 (s.skippedCount + 1 : Nat),
        pc := .skipTick }
  | called (c : UserCall) : s.pc = .normalCall → c.info = s.info A false →
      Moves A s (.userCall c) { s with
        skippedCount := 0, userPacketsList := c.list,
        pc := if c.stop then .ending true else .send }
  | sent : s.pc = .send → Moves A s (.send s.userPacketsList none) (s.goto .tick)
  | notAccepted (msg : String) : s.pc = .send →
      Moves A s (.send s.userPacketsList (some msg)) (s.fail msg (.ending false))
  | ticked : s.pc = .skipTick ∨ s.pc = .tick → Moves A s (.tick true) (s.goto .loopTop)
  | late : s.pc = .skipTick ∨ s.pc = .tick →
      Moves A s (.tick false) (s.fail lateText (.ending false))
  | ended (r : Bool) : s.pc = .ending r → Moves A s .endSender (s.goto (.idle (some r)))

section
variable {A : FastInts} {s t : RealTimeSystem} {e : SystemEvent}

theorem step_idle {r : Option Bool} (hpc : s.pc = .idle r) : s.step A e = s.call A e := by
  unfold step
  rw [hpc]

theorem inside_of_step (hs : s.step A e = some t) (he : s.call A e = none) (r : Option Bool) :
    s.pc ≠ .idle r := by
  intro hpc
  rw [step_idle hpc, he] at hs
  cases hs

theorem step_startTimer (hs : s.step A e = some t) (hpc : s.pc = .startTimer) :
    (e = .startTimer none ∧ t.pc = .loopTop) ∨
      ∃ msg, e = .startTimer (some msg) ∧ t.pc = .idle (some false) := by
  unfold step at hs
  rw [hpc] at hs
  cases e <;> try cases hs
  rename_i a
  cases a with
  | none =>
    cases hs
    exact .inl ⟨rfl, rfl⟩
  | some msg =>
    cases hs
    exact .inr ⟨msg, rfl, rfl⟩

/-- **Every step inside a call is one of these.** -/
theorem step_moves (hpc : ∀ r, s.pc ≠ .idle r) (hs : s.step A e = some t) : s.Moves A e t := by
  unfold step at hs
  split at hs
  case h_1 r hpc' => exact absurd hpc' (hpc r)
  case h_2 l a hpc' =>
    obtain ⟨rfl, rfl⟩ := Option.ite_some_none_eq_some.mp hs
    exact .sendFirst a hpc'
  case h_3 hpc' =>
    by_cases h : s.timeLimitMs = 0
    · rw [if_pos h] at hs
      cases hs
      exact .timeUp hpc'
    · rw [if_neg h] at hs
      cases hs
      exact .wait _ _ hpc'
  case h_4 n m hpc' =>
    obtain ⟨rfl, rfl⟩ := Option.ite_some_none_eq_some.mp hs
    exact .waited _ hpc'
  case h_5 b hpc' => cases hs; exact .polled b hpc'
  case h_6 b hpc' =>
    cases hs
    cases b with
    | true => exact .inTime hpc'
    | false => exact .tooLate hpc'
  case h_7 hpc' => cases hs; exact .giveUp _ hpc'
  case h_8 hpc' => cases hs; exact .started hpc'
  case h_9 msg hpc' => cases hs; exact .notStarted msg hpc'
  case h_10 hpc' =>
    cases hs
    unfold iterate
    by_cases h : s.skippedCount = toU (wide A) (s.frequency * 3 : Nat)
    · rw [if_pos h]
      exact .disconnected hpc' h
    · rw [if_neg h]
      exact .iterated hpc' h
  case h_11 hpc' =>
    obtain ⟨-, he⟩ := Option.ite_none_left_eq_some.mp hs
    cases he
    exact .toleranceOver hpc'
  case h_12 b hpc' =>
    obtain ⟨-, rfl⟩ := Option.ite_some_none_eq_some.mp hs
    exact .tolerated b hpc'
  case h_13 n hpc' =>
    obtain ⟨rfl, rfl⟩ := Option.ite_some_none_eq_some.mp hs
    exact .slept _ hpc'
  case h_14 b hpc' =>
    cases hs
    cases b with
    | true => exact .tested true hpc' (.inl rfl)
    | false =>
      cases ha : s.allowSkipMode with
      | true => exact .tested false hpc' (.inr ha)
      | false => exact .notSent hpc' ha
  case h_15 b hpc' =>
    cases hs
    cases b with
    | true => exact .keeping true hpc' (.inl rfl)
    | false =>
      cases ha : s.allowSkipMode with
      | true => exact .skipping hpc' ha
      | false => exact .keeping false hpc' (.inr ha)
  case h_16 c hpc' =>
    obtain ⟨hi, rfl⟩ := Option.ite_some_none_eq_some.mp hs
    cases hc : c.stop with
    | true => exact .skipStopped c hpc' hi hc
    | false => exact .skipped c hpc' hi hc
  case h_17 ok hpc' =>
    cases hs
    cases ok with
    | true => exact .ticked (.inl hpc')
    | false => exact .late (.inl hpc')
  case h_18 c hpc' =>
    obtain ⟨hi, rfl⟩ := Option.ite_some_none_eq_some.mp hs
    exact .called c hpc' hi
  case h_19 l a hpc' =>
    obtain ⟨rfl, he⟩ := Option.ite_some_none_eq_some.mp hs
    cases a with
    | none => cases he; exact .sent hpc'
    | some msg => cases he; exact .notAccepted msg hpc'
  case h_20 ok hpc' =>
    cases hs
    cases ok with
    | true => exact .ticked (.inr hpc')
    | false => exact .late (.inr hpc')
  case h_21 r hpc' => cases hs; exact .ended r hpc'
  case h_22 => cases hs

/-- **Every step is a public call, made between two others, or a step inside one.** -/
theorem call_or_moves (hs : s.step A e = some t) :
    (∃ r, s.pc = .idle r ∧ s.call A e = some t) ∨ s.Moves A e t := by
  by_cases hidle : ∃ r, s.pc = .idle r
  · obtain ⟨r, hpc⟩ := hidle
    exact .inl ⟨r, hpc, (step_idle hpc).symm.trans hs⟩
  · exact .inr (step_moves (fun r hr => hidle ⟨r, hr⟩) hs)

theorem step_sendBeforeRun {l : DataPacketsList} {n : Nat} (hi : s.initialized = true)
    (hs : s.step A (.sendBeforeRun l n) = some t) :
    (∃ r, s.pc = .idle r) ∧
      t = { s with listOfData := l, timeLimitMs := n, pc := .beforeSend } := by
  rcases call_or_moves hs with ⟨r, hpc, hs⟩ | moves
  · change some (if s.initialized then _ else _) = some t at hs
    rw [if_pos hi] at hs
    exact ⟨⟨r, hpc⟩, (Option.some.inj hs).symm⟩
  · cases moves

theorem Moves.settings (h : s.Moves A e t) :
    t.timer = s.timer ∧ t.sender = s.sender ∧ t.userAppFunc = s.userAppFunc ∧
      t.allowSkipMode = s.allowSkipMode ∧ t.msTolerance = s.msTolerance ∧
      t.frequency = s.frequency := by
  cases h <;> exact ⟨rfl, rfl, rfl, rfl, rfl, rfl⟩

end
end RealTimeSystem
end RealTimeTransfer
