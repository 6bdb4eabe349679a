import RealTimeTransfer.Systems.Disconnect
import RealTimeTransfer.Systems.Shutdown
import RealTimeTransfer.Systems.Deadline
import RealTimeTransfer.Timers.Safety
import Mathlib.Logic.Function.Basic

/-!
# A system and its timers

`runTimer k A` makes the steps of a system whose timer answers as its class does, and the calls that
the user makes of the timers himself.  All timers read one clock; a timer is known by its pointer,
and `k` is the class of each.

* `LeftAlone`         the condition: the user does not call the timer that an initialised system, or
                      a running one, holds;
* `RunTimer.Prepared` the timer of such a system: set to its frequency, and running if its loop is;
* `RunTimer.Inv.step` one step of the whole;
* `contract_kept`     every call that a system makes of a timer keeps the contract;
* `run_slots`         the iterations of `run` lie in the slots between the targets.
-/

namespace RealTimeTransfer
open Words Machines

/-- the object, the timers, the readings to come, and the calls of the timers so far; `trapped` is
set by a division by zero -/
structure RunTimer where
  system : RealTimeSystem
  timers : Ptr → Timer
  clock : List Nat
  trapped : Bool := false
  made : List (Ptr × TimerCall) := []

inductive RunTimerEvent where
  | system (e : SystemEvent)
  | user (p : Ptr) (c : TimerCall)
  deriving DecidableEq, Repr

instance (s : RealTimeSystem) : Decidable s.Provided :=
  decidable_of_iff (s.userAppFunc ≠ 0 ∧ s.timer ≠ 0 ∧ s.sender ≠ 0 ∧ s.frequency ≠ 0)
    ⟨fun ⟨h1, h2, h3, h4⟩ => ⟨h1, h2, h3, h4⟩, fun ⟨h1, h2, h3, h4⟩ => ⟨h1, h2, h3, h4⟩⟩

/-- the calls of the timer `p` -/
def callsOf (p : Ptr) (l : List (Ptr × TimerCall)) : List TimerCall :=
  (l.filter fun x => x.1 = p).map Prod.snd

namespace RunTimer

/-- an object that is new, with new timers; `raw` is what their memory held -/
def new (k : Ptr → TimerClass) (raw : Ptr → Timer) (c : List Nat) : RunTimer :=
  ⟨{}, fun p => (k p).construct (raw p), c, false, []⟩

def object (x : RunTimer) (p : Ptr) : TimerObject := ⟨x.timers p, x.clock, x.trapped⟩

/-- the call `c` of the timer `p` -/
def make (k : Ptr → TimerClass) (A : FastInts) (x : RunTimer) (p : Ptr) (c : TimerCall) :
    Option RunTimer :=
  ((x.object p).step (k p) A c).map fun o =>
    { x with
      timers := Function.update x.timers p o.timer, clock := o.clock, trapped := o.trapped,
      made := x.made ++ [(p, c)] }

/-- `timer_->get_error()` of the timer `p`, after a call that returned false -/
def told (x : RunTimer) (p : Ptr) : Answer → Option RunTimer
  | none => some x
  | some msg =>
    let h := (x.timers p).errorHandler.take
    if h.1 = msg then
      some { x with timers := Function.update x.timers p { x.timers p with errorHandler := h.2 } }
    else none

/-- a call of `timer_` and its answer -/
def ask (k : Ptr → TimerClass) (A : FastInts) (x : RunTimer) (c : Bool → TimerCall) (a : Answer) :
    Option RunTimer :=
  (x.make k A x.system.timer (c a.isNone)).bind fun y => y.told x.system.timer a

/-- what a step of the system calls of its timer -/
def consult (k : Ptr → TimerClass) (A : FastInts) (x : RunTimer) : SystemEvent → Option RunTimer
  | .callInitialize a =>
    if x.system.Provided ∧ a.convertRtThread = none then
      (x.ask k A .callInitialize a.timerInitialize).bind fun y =>
        if a.timerInitialize = none then
          y.ask k A (fun b => .setFrequency y.system.frequency (some b)) a.timerSetFrequency
        else some y
    else some x
  | .startTimer a => x.ask k A .startTimer a
  | .tick ok => x.make k A x.system.timer (.sleepToNextTick ok)
  | _ => some x

def step (k : Ptr → TimerClass) (A : FastInts) (x : RunTimer) : RunTimerEvent → Option RunTimer
  | .system e =>
    if x.trapped then none
    else (x.system.step A e).bind fun s => (x.consult k A e).map fun y => { y with system := s }
  | .user p c => x.make k A p c

end RunTimer

def runTimer (k : Ptr → TimerClass) (A : FastInts) : Machine RunTimer RunTimerEvent :=
  ⟨RunTimer.step k A⟩

/-- the user leaves the timer of an initialised system alone, and that of a running one -/
def LeftAlone (x : RunTimer) : RunTimerEvent → Prop
  | .system _ => True
  | .user p _ => p = x.system.timer → x.system.initialized = false ∧ x.system.pc.isIdle = true

instance (x : RunTimer) (e : RunTimerEvent) : Decidable (LeftAlone x e) :=
  match e with
  | .system _ => .isTrue trivial
  | .user _ _ => inferInstanceAs (Decidable (_ → _))

/-! ## The calls of the timers -/

section
variable {k : Ptr → TimerClass} {A : FastInts} {x y z : RunTimer} {p q : Ptr} {c : TimerCall}
  {e : SystemEvent} {a : Answer} {f : Nat}

theorem callsOf_snoc_self (l : List (Ptr × TimerCall)) :
    callsOf p (l ++ [(p, c)]) = callsOf p l ++ [c] := by
  simp [callsOf]

theorem callsOf_snoc_of_ne (l : List (Ptr × TimerCall)) (h : q ≠ p) :
    callsOf p (l ++ [(q, c)]) = callsOf p l := by
  simp [callsOf, h]

theorem TimerObject.call_clock {k : TimerClass} {s s' : TimerObject} (hs : s.call k A c = some s') :
    ∃ used, s.clock = used ++ s'.clock := by
  cases TimerObject.call_calls hs with
  | started r d _ hc => exact ⟨[r], hc⟩
  | late r d _ hc _ => exact ⟨[r], hc⟩
  | ticked d _ =>
    obtain ⟨t, ht, hs⟩ := Option.bind_eq_some_iff.mp hs
    obtain ⟨-, he⟩ := Option.ite_some_none_eq_some.mp hs
    obtain ⟨es, -, -, hd⟩ := sleepToNextTick_iff.mp ht
    have hclock : t.clock = d := congrArg TimerObject.clock he
    exact ⟨TickEvent.readings es, hclock ▸ hd⟩
  | _ => exact ⟨[], rfl⟩

theorem Usage.Linked.frequency_eq {u : Usage} {t : Timer} (h : u.Linked t) (ht : t.SetTo f) :
    u.frequency = some f := by
  obtain ⟨g, hg⟩ : ∃ g, u.frequency = some g := by
    refine Option.isSome_iff_exists.mp (h.set_iff.mp fun he => ?_)
    have hle : f ≤ 100 := ht.le
    rw [ht.frequency, show timerFrequncyError = 65535 from rfl] at he
    omega
  rw [hg, ← (h.setTo g hg).frequency, ht.frequency]

namespace RunTimer

/-- the timers agree with the calls made of them, and the clock does not run backwards -/
structure Sound (x : RunTimer) : Prop where
  linked : ∀ p, (usage (callsOf p x.made)).Linked (x.timers p)
  clock : After 0 x.clock

/-- a call leaves the system and the other timers -/
structure Made (k : Ptr → TimerClass) (A : FastInts) (x : RunTimer) (p : Ptr) (c : TimerCall)
    (y : RunTimer) : Prop where
  alive : x.trapped = false
  call : (x.object p).call (k p) A c = some (y.object p)
  system : y.system = x.system
  other : ∀ q, q ≠ p → y.timers q = x.timers q
  made : y.made = x.made ++ [(p, c)]

theorem made_of_make (hs : x.make k A p c = some y) : x.Made k A p c y := by
  obtain ⟨o, ho, rfl⟩ := Option.map_eq_some_iff.mp hs
  obtain ⟨ht, hc⟩ := TimerObject.step_call ho
  refine ⟨ht, ?_, rfl, fun q hq => Function.update_of_ne hq _ _, rfl⟩
  rw [hc]
  simp [object]

theorem Made.calls (h : x.Made k A p c y) : (x.object p).Calls (k p) A c (y.object p) :=
  TimerObject.call_calls h.call

theorem Made.clock (h : x.Made k A p c y) : ∃ used, x.clock = used ++ y.clock :=
  TimerObject.call_clock h.call

theorem Made.sound (h : x.Made k A p c y) (hx : x.Sound) : y.Sound := by
  constructor
  · intro q
    rw [h.made]
    by_cases hq : p = q
    · subst hq
      rw [callsOf_snoc_self, usage_snoc]
      exact (hx.linked p).calls h.calls
    · rw [callsOf_snoc_of_ne _ hq, h.other q (Ne.symm hq)]
      exact hx.linked q
  · obtain ⟨used, hu⟩ := h.clock
    have hclock := hx.clock
    rw [hu] at hclock
    exact hclock.skip

/-- `get_error` changes the error handler of one timer -/
structure Told (x : RunTimer) (p : Ptr) (y : RunTimer) : Prop where
  timer : ∃ h, y.timers p = { x.timers p with errorHandler := h }
  other : ∀ q, q ≠ p → y.timers q = x.timers q
  rest : y.system = x.system ∧ y.clock = x.clock ∧ y.trapped = x.trapped ∧ y.made = x.made

theorem told_of (hs : x.told p a = some y) : x.Told p y := by
  cases a with
  | none =>
    cases hs
    exact ⟨⟨(x.timers p).errorHandler, rfl⟩, fun _ _ => rfl, rfl, rfl, rfl, rfl⟩
  | some msg =>
    obtain ⟨-, rfl⟩ := Option.ite_some_none_eq_some.mp hs
    exact ⟨⟨_, Function.update_self ..⟩, fun q hq => Function.update_of_ne hq _ _,
      rfl, rfl, rfl, rfl⟩

theorem Told.sound (h : x.Told p y) (hx : x.Sound) : y.Sound := by
  obtain ⟨-, hclock, -, hmade⟩ := h.rest
  refine ⟨fun q => ?_, hclock ▸ hx.clock⟩
  rw [hmade]
  by_cases hq : q = p
  · subst hq
    obtain ⟨g, hg⟩ := h.timer
    rw [hg]
    exact (hx.linked q).same (hx.linked q).started rfl rfl rfl
  · rw [h.other q hq]
    exact hx.linked q

theorem ask_cases {c : Bool → TimerCall} (hs : x.ask k A c a = some z) :
    ∃ y, x.Made k A x.system.timer (c a.isNone) y ∧ y.Told x.system.timer z := by
  obtain ⟨y, hy, hz⟩ := Option.bind_eq_some_iff.mp hs
  exact ⟨y, made_of_make hy, told_of hz⟩

/-- the calls that a step of the system makes of its timer -/
inductive Consulted (k : Ptr → TimerClass) (A : FastInts) (x : RunTimer) :
    SystemEvent → RunTimer → Prop where
  | quiet {e : SystemEvent} : (∀ a, e ≠ .callInitialize a) → (∀ a, e ≠ .startTimer a) →
      (∀ ok, e ≠ .tick ok) → Consulted k A x e x
  | checked (a : SystemAnswers) : x.system.initError a ≠ none →
      Consulted k A x (.callInitialize a) x
  | initialized (a : SystemAnswers) {y z u v : RunTimer} : x.system.Provided →
      x.Made k A x.system.timer (.callInitialize true) y → y.Told x.system.timer z →
      z.Made k A x.system.timer
        (.setFrequency x.system.frequency (some a.timerSetFrequency.isNone)) u →
      u.Told x.system.timer v → (a.timerSetFrequency ≠ none → x.system.initError a ≠ none) →
      Consulted k A x (.callInitialize a) v
  | started (a : Answer) {y z : RunTimer} : x.Made k A x.system.timer (.startTimer a.isNone) y →
      y.Told x.system.timer z → Consulted k A x (.startTimer a) z
  | ticked (ok : Bool) {y : RunTimer} : x.Made k A x.system.timer (.sleepToNextTick ok) y →
      Consulted k A x (.tick ok) y

theorem consulted_of (hs : x.consult k A e = some z) : x.Consulted k A e z := by
  cases e with
  | callInitialize a =>
    obtain ⟨h, hs⟩ | ⟨h, hs⟩ := ite_eq_iff.mp hs
    · obtain ⟨y, hy, hz⟩ := Option.bind_eq_some_iff.mp hs
      obtain ⟨u, hu, hyu⟩ := ask_cases hy
      have ht : a.timerInitialize = none := by
        have hcalls := hu.calls
        cases ha : a.timerInitialize with
        | none => rfl
        | some msg =>
          rw [ha] at hcalls
          cases hcalls
      rw [ht] at hu
      rw [if_pos ht] at hz
      obtain ⟨v, hv, hvz⟩ := ask_cases hz
      have hsys : y.system = x.system := hyu.rest.1.trans hu.system
      rw [hsys] at hv hvz
      refine .initialized a h.1 hu hyu hv hvz fun ha herr => ?_
      exact ha (RealTimeSystem.initError_none herr).2.2.2.1
    · cases hs
      refine .checked a fun herr => h ?_
      obtain ⟨hp, hok⟩ := RealTimeSystem.initError_none herr
      exact ⟨hp, hok.1⟩
  | startTimer a =>
    obtain ⟨y, hy, hz⟩ := ask_cases hs
    exact .started a hy hz
  | tick ok => exact .ticked ok (made_of_make hs)
  | _ =>
    cases hs
    exact .quiet nofun nofun nofun

theorem Consulted.sound (h : x.Consulted k A e z) (hx : x.Sound) : z.Sound := by
  cases h with
  | quiet | checked => exact hx
  | initialized _ _ hy hz hu hv _ => exact hv.sound (hu.sound (hz.sound (hy.sound hx)))
  | started _ hy hz => exact hz.sound (hy.sound hx)
  | ticked _ hy => exact hy.sound hx

/-! ## The timer of a system -/

/-- the timer of a system that is initialised, or inside a call -/
structure Prepared (x : RunTimer) : Prop where
  timer : x.system.timer ≠ 0
  setTo : (x.timers x.system.timer).SetTo x.system.frequency
  started : (x.timers x.system.timer).timerStarted = x.system.pc.inLoop

structure Inv (x : RunTimer) : Prop where
  sound : x.Sound
  entered : x.system.Entered
  prepared : x.system.initialized = true ∨ x.system.pc.isIdle = false → x.Prepared

theorem Prepared.of_eq (h : x.Prepared) (ht : y.system.timer = x.system.timer)
    (hf : y.system.frequency = x.system.frequency)
    (hy : ∃ g, y.timers x.system.timer = { x.timers x.system.timer with errorHandler := g })
    (hpc : y.system.pc.inLoop = x.system.pc.inLoop) : y.Prepared := by
  obtain ⟨g, hg⟩ := hy
  refine ⟨ht ▸ h.timer, ?_, ?_⟩
  · rw [ht, hg, hf]
    exact ⟨h.setTo.pos, h.setTo.le, h.setTo.frequency, h.setTo.ps⟩
  · rw [ht, hg, hpc]
    exact h.started

end RunTimer

namespace RealTimeSystem
variable {s t : RealTimeSystem}

theorem call_passed (hs : s.call A e = some t) (he : ∀ a, e ≠ .callInitialize a)
    (ht : t.initialized = true ∨ t.pc.isIdle = false) :
    s.initialized = true ∧ t.timer = s.timer ∧ t.frequency = s.frequency ∧
      t.pc.inLoop = false := by
  unfold call at hs
  split at hs
  case h_1 | h_2 | h_3 =>
    cases hs
    unfold setPointer at ht
    split at ht <;> rcases ht with ht | ht <;> cases ht
  case h_4 | h_5 | h_6 => cases hs; rcases ht with ht | ht <;> cases ht
  case h_7 a => exact absurd rfl (he a)
  case h_8 | h_9 =>
    cases hs
    cases hi : s.initialized with
    | true => exact ⟨rfl, rfl, rfl, rfl⟩
    | false =>
      rw [hi] at ht
      rcases ht with ht | ht
      · exact absurd (hi.symm.trans ht) nofun
      · cases ht
  case h_10 => cases hs

/-- `initialize` keeps the settings that the timer depends on -/
theorem initializeSystem_settings (s : RealTimeSystem) (b : SystemAnswers) :
    (s.initializeSystem A b).timer = s.timer ∧ (s.initializeSystem A b).frequency = s.frequency ∧
      (s.initializeSystem A b).pc.isIdle = true ∧
      (s.initError b ≠ none → (s.initializeSystem A b).initialized = s.initialized) := by
  cases herr : s.initError b with
  | none =>
    rw [initialize_succeeds herr]
    exact ⟨rfl, rfl, rfl, fun h => absurd rfl h⟩
  | some msg =>
    rw [initialize_fails herr]
    exact ⟨rfl, rfl, rfl, fun _ => rfl⟩

theorem inLoop_of_isIdle {pc : SystemPc} (h : pc.isIdle = true) : pc.inLoop = false := by
  cases pc <;> first | cases h; done | rfl

/-- the steps inside a call: the start of the timer, a tick, or a step that leaves the loop where it
is unless it returns -/
theorem Moves.consults (h : s.Moves A e t) :
    (s.pc = .startTimer ∧ ∃ a, e = .startTimer a) ∨
      (s.pc.inLoop = true ∧ t.pc.inLoop = true ∧ ∃ ok, e = .tick ok) ∨
      ((∀ a, e ≠ .callInitialize a) ∧ (∀ a, e ≠ .startTimer a) ∧ (∀ ok, e ≠ .tick ok) ∧
        (t.pc.inLoop = s.pc.inLoop ∨ s.pc.inLoop = true ∧ t.pc.isIdle = true)) := by
  cases h
  case started hpc => exact .inl ⟨hpc, _, rfl⟩
  case notStarted msg hpc => exact .inl ⟨hpc, _, rfl⟩
  case ticked hpc | late hpc =>
    refine .inr (.inl ⟨?_, rfl, _, rfl⟩)
    rcases hpc with hpc | hpc <;> rw [hpc] <;> rfl
  case ended r hpc => exact .inr (.inr ⟨by simp, by simp, by simp, .inr ⟨by rw [hpc]; rfl, rfl⟩⟩)
  case called c hpc _ =>
    refine .inr (.inr ⟨by simp, by simp, by simp, .inl ?_⟩)
    rw [hpc]
    show (if c.stop then SystemPc.ending true else .send).inLoop = true
    cases c.stop <;> rfl
  case polled b hpc | tolerated b hpc =>
    refine .inr (.inr ⟨by simp, by simp, by simp, .inl ?_⟩)
    rw [hpc]
    cases b <;> rfl
  all_goals
    rename_i hpc
    refine .inr (.inr ⟨by simp, by simp, by simp, .inl ?_⟩)
    simp [*, goto, fail, SystemPc.inLoop, SystemPc.deciding, SystemPc.serving]

end RealTimeSystem
namespace RunTimer

theorem told_after {c : TimerCall} (hy : x.Made k A p c y) (hz : y.Told p z) :
    z.system = x.system ∧ z.trapped = y.trapped ∧ z.made = x.made ++ [(p, c)] :=
  ⟨hz.rest.1.trans hy.system, hz.rest.2.2.1, hz.rest.2.2.2.trans hy.made⟩

/-- `initialize` and `set_frequency` leave a timer set to the frequency, or refuse it -/
theorem initialized_timer {o o' : TimerObject} {k : TimerClass} {g : Error} {r : Bool}
    {s : TimerObject} (m : Error) (h₁ : s.Calls k A (.callInitialize true) o)
    (h₂ : TimerObject.Calls k A { o with timer := { o.timer with errorHandler := g } }
      (.setFrequency f (some r)) o') :
    if r then ({ o'.timer with errorHandler := m } : Timer).SetTo f ∧ o'.timer.timerStarted = false
    else timerMaxFrequency < f := by
  cases h₁ with
  | initialized =>
    cases h₂ with
    | refused f h hf => exact hf
    | accepted f h1 h2 => exact ⟨⟨h1, h2, rfl, rfl⟩, rfl⟩

theorem Told.object_eq (h : x.Told p y) :
    ∃ g, y.object p =
      { x.object p with timer := { (x.object p).timer with errorHandler := g } } := by
  obtain ⟨g, hg⟩ := h.timer
  obtain ⟨-, hc, ht, -⟩ := h.rest
  refine ⟨g, ?_⟩
  simp [object, hg, hc, ht]

/-- `initialize` of the system prepares its timer, unless the timer has refused the frequency -/
theorem prepared_initialized {b : SystemAnswers} {u v : RunTimer} (hp : x.system.Provided)
    (hy : x.Made k A x.system.timer (.callInitialize true) y) (hz : y.Told x.system.timer z)
    (hu : z.Made k A x.system.timer
      (.setFrequency x.system.frequency (some b.timerSetFrequency.isNone)) u)
    (hv : u.Told x.system.timer v) :
    (b.timerSetFrequency = none →
        RunTimer.Prepared { v with system := x.system.initializeSystem A b }) ∧
      (b.timerSetFrequency ≠ none → timerMaxFrequency < x.system.frequency) := by
  obtain ⟨g, hg⟩ := hz.object_eq
  obtain ⟨g', hg'⟩ := hv.timer
  have hset := hu.calls
  rw [hg] at hset
  have htimer := initialized_timer g' hy.calls hset
  obtain ⟨h1, h2, h3, -⟩ := RealTimeSystem.initializeSystem_settings (A := A) x.system b
  refine ⟨fun hb => ?_, fun hb => ?_⟩
  · rw [hb, Option.isNone_none, if_pos rfl] at htimer
    refine ⟨h1 ▸ hp.timer, ?_, ?_⟩
    · show (v.timers (x.system.initializeSystem A b).timer).SetTo
        (x.system.initializeSystem A b).frequency
      rw [h1, h2, hg']
      exact htimer.1
    · show (v.timers (x.system.initializeSystem A b).timer).timerStarted = _
      rw [h1, hg', RealTimeSystem.inLoop_of_isIdle h3]
      exact htimer.2
  · have hb' : b.timerSetFrequency.isNone = false := by
      rw [Option.isNone_eq_false_iff]
      exact Option.isSome_iff_ne_none.mpr hb
    rw [hb', if_neg nofun] at htimer
    exact htimer

/-- **A public call keeps the timer prepared.** -/
theorem Inv.prepared_call (h : x.Inv) {t : RealTimeSystem} {r : Option Bool}
    (hpc : x.system.pc = .idle r) (hs : x.system.call A e = some t) (hz : x.Consulted k A e z)
    (ht : t.initialized = true ∨ t.pc.isIdle = false) :
    RunTimer.Prepared { z with system := t } := by
  have hidle : x.system.pc.isIdle = true := by
    rw [hpc]
    rfl
  cases hz with
  | quiet h1 =>
    obtain ⟨hi, htimer, hf, hloop⟩ := RealTimeSystem.call_passed hs h1 ht
    refine (h.prepared (.inl hi)).of_eq htimer hf ⟨_, rfl⟩ ?_
    rw [RealTimeSystem.inLoop_of_isIdle hidle]
    exact hloop
  | checked a herr =>
    obtain rfl : x.system.initializeSystem A a = t := Option.some.inj hs
    obtain ⟨htimer, hf, hidle', hinit⟩ :=
      RealTimeSystem.initializeSystem_settings (A := A) x.system a
    have hi : x.system.initialized = true := by
      rcases ht with ht | ht
      · exact (hinit herr).symm.trans ht
      · exact absurd (hidle'.symm.trans ht) nofun
    refine (h.prepared (.inl hi)).of_eq htimer hf ⟨_, rfl⟩ ?_
    rw [RealTimeSystem.inLoop_of_isIdle hidle]
    exact RealTimeSystem.inLoop_of_isIdle hidle'
  | initialized a hp hy hz hu hv herr =>
    obtain rfl : x.system.initializeSystem A a = t := Option.some.inj hs
    obtain ⟨-, -, hidle', hinit⟩ := RealTimeSystem.initializeSystem_settings (A := A) x.system a
    obtain ⟨hset, hrefused⟩ := prepared_initialized hp hy hz hu hv
    by_cases ha : a.timerSetFrequency = none
    · exact hset ha
    · have hi : x.system.initialized = true := by
        rcases ht with ht | ht
        · exact (hinit (herr ha)).symm.trans ht
        · exact absurd (hidle'.symm.trans ht) nofun
      have hle := (h.prepared (.inl hi)).setTo.le
      exact absurd (hrefused ha) (Nat.not_lt.mpr hle)
  | started a => cases hs
  | ticked ok => cases hs

theorem Prepared.start (h : x.Prepared) (hpc : x.system.pc = .startTimer)
    (hy : x.Made k A x.system.timer (.startTimer a.isNone) y) : a = none ∧
      ∃ r, x.clock = r :: y.clock ∧ y.timers x.system.timer =
        (x.timers x.system.timer).armed x.system.frequency r := by
  have hoff : (x.timers x.system.timer).timerStarted = false := by
    rw [h.started, hpc]
    rfl
  have hcalls := hy.calls
  generalize hb : a.isNone = b at hcalls
  generalize ho : y.object x.system.timer = o at hcalls
  cases hcalls with
  | running g hon => exact absurd (hoff.symm.trans hon) nofun
  | started r c _ hc =>
    refine ⟨Option.isNone_iff_eq_none.mp hb, r, ?_, ?_⟩
    · have hclock : y.clock = c := congrArg TimerObject.clock ho
      rw [hclock]
      exact hc
    · have ht : y.timers x.system.timer = _ := congrArg TimerObject.timer ho
      rw [ht]
      unfold Timer.armed
      rw [← h.setTo.ps, ← h.setTo.frequency]
      rfl

/-- **A step inside a call keeps the timer prepared.** -/
theorem Inv.prepared_moves (h : x.Inv) {t : RealTimeSystem} (hm : x.system.Moves A e t)
    (hz : x.Consulted k A e z) (ht : t.initialized = true ∨ t.pc.isIdle = false) :
    RunTimer.Prepared { z with system := t } := by
  have hp : x.Prepared := h.prepared (.inr hm.inside)
  obtain ⟨htimer, -, -, -, -, hf⟩ := hm.settings
  cases hz with
  | quiet h1 h2 h3 =>
    refine hp.of_eq htimer hf ⟨_, rfl⟩ ?_
    rcases hm.consults with ⟨-, a, he⟩ | ⟨-, -, ok, he⟩ | ⟨-, -, -, hloop⟩
    · exact absurd he (h2 a)
    · exact absurd he (h3 ok)
    · rcases hloop with hloop | ⟨hloop, hidle⟩
      · exact hloop
      · have hoff := h.entered (.inr hloop)
        rcases ht with ht | ht
        · exact absurd ((hm.initialized ht).1.symm.trans hoff) nofun
        · exact absurd (hidle.symm.trans ht) nofun
  | checked | initialized => cases hm
  | started a hy hz =>
    obtain ⟨hpc, -⟩ | ⟨-, -, ok, he⟩ | ⟨-, he, -, -⟩ := hm.consults
    · obtain ⟨rfl, r, -, harm⟩ := hp.start hpc hy
      obtain ⟨g, hg⟩ := hz.timer
      have hloop : t.pc.inLoop = true := by
        cases hm
        rfl
      rw [harm] at hg
      refine ⟨htimer ▸ hp.timer, ?_, ?_⟩
      · show (z.timers t.timer).SetTo t.frequency
        rw [htimer, hf, hg]
        exact ⟨hp.setTo.pos, hp.setTo.le, rfl, rfl⟩
      · show (z.timers t.timer).timerStarted = t.pc.inLoop
        rw [htimer, hg, hloop]
        rfl
    · cases he
    · exact absurd rfl (he a)
  | ticked ok hy =>
    obtain ⟨-, a, he⟩ | ⟨hloop, hloop', -⟩ | ⟨-, -, he, -⟩ := hm.consults
    · cases he
    · have hkept : (z.timers x.system.timer).frequency = (x.timers x.system.timer).frequency ∧
          (z.timers x.system.timer).originalSleepTimePs =
            (x.timers x.system.timer).originalSleepTimePs ∧
          (z.timers x.system.timer).timerStarted = (x.timers x.system.timer).timerStarted := by
        have hcalls := hy.calls
        generalize ho : z.object x.system.timer = o at hcalls
        have ht : z.timers x.system.timer = o.timer := congrArg TimerObject.timer ho
        rw [ht]
        cases hcalls with
        | late => exact ⟨rfl, rfl, rfl⟩
        | ticked c _ => exact Timer.advance_keeps A _
      obtain ⟨h1, h2, h3⟩ := hkept
      refine ⟨htimer ▸ hp.timer, ?_, ?_⟩
      · show (z.timers t.timer).SetTo t.frequency
        rw [htimer, hf]
        exact ⟨hp.setTo.pos, hp.setTo.le, h1.trans hp.setTo.frequency, h2.trans hp.setTo.ps⟩
      · show (z.timers t.timer).timerStarted = t.pc.inLoop
        rw [htimer, h3, hp.started, hloop, hloop']
    · exact absurd rfl (he ok)

theorem step_system (hs : x.step k A (.system e) = some z) :
    x.trapped = false ∧ ∃ t y, x.system.step A e = some t ∧ x.Consulted k A e y ∧
      z = { y with system := t } := by
  unfold step at hs
  cases ht : x.trapped with
  | true =>
    rw [ht] at hs
    cases hs
  | false =>
    rw [ht] at hs
    obtain ⟨t, h1, hs⟩ := Option.bind_eq_some_iff.mp hs
    obtain ⟨y, h2, rfl⟩ := Option.map_eq_some_iff.mp hs
    exact ⟨rfl, t, y, h1, consulted_of h2, rfl⟩

/-- **Every step keeps the invariant.** -/
theorem Inv.step {e : RunTimerEvent} (h : x.Inv) (ho : LeftAlone x e)
    (hs : x.step k A e = some z) : z.Inv := by
  cases e with
  | user p c =>
    have hz := made_of_make hs
    refine ⟨hz.sound h.sound, hz.system ▸ h.entered, fun hi => ?_⟩
    rw [hz.system] at hi
    have hp : x.system.timer ≠ p := by
      intro hp
      obtain ⟨h1, h2⟩ := ho hp.symm
      rcases hi with hi | hi
      · exact absurd (hi.symm.trans h1) nofun
      · exact absurd (hi.symm.trans h2) nofun
    refine (h.prepared hi).of_eq ?_ ?_ ⟨_, hz.other _ hp⟩ ?_ <;> rw [hz.system]
  | system e =>
    obtain ⟨-, t, y, ht, hy, rfl⟩ := step_system hs
    have hsound : y.Sound := hy.sound h.sound
    refine ⟨⟨hsound.linked, hsound.clock⟩, h.entered.step ht, fun hi => ?_⟩
    rcases RealTimeSystem.call_or_moves ht with ⟨r, hpc, hcall⟩ | moves
    · exact h.prepared_call hpc hcall hy hi
    · exact h.prepared_moves moves hy hi

theorem inv_new {raw : Ptr → Timer} {c : List Nat} (hc : After 0 c) : (new k raw c).Inv := by
  refine ⟨⟨fun p => ⟨rfl, fun _ => rfl, nofun⟩, hc⟩, ?_, ?_⟩
  · rintro (h | h) <;> cases h
  · rintro (h | h) <;> cases h

theorem inv_of_runs {raw : Ptr → Timer} {c : List Nat} {es : List RunTimerEvent} (hc : After 0 c)
    (hr : (runTimer k A).Runs LeftAlone (new k raw c) es x) : x.Inv :=
  hr.keeps RunTimer.Inv (inv_new hc) fun _ _ _ hv ho hs => hv.step ho hs

/-! ## The contract -/

/-- the call `c` of the timer `p`, behind the calls `l`, is one that a system may make -/
structure Proper (x : RunTimer) (l : List (Ptr × TimerCall)) (p : Ptr) (c : TimerCall) : Prop where
  mine : p = x.system.timer ∧ p ≠ 0
  contract : Contract (usage (callsOf p l)) c
  accepted : c ≠ .startTimer false ∧ ∀ r, c ≠ .setFrequency 0 r
  scheduled : c.schedules = true → (usage (callsOf p l)).frequency = some x.system.frequency

/-- the calls of a step, each behind those before it -/
def Propers (x : RunTimer) (l : List (Ptr × TimerCall)) : Prop :=
  ∀ l₁ p c l₂, l = l₁ ++ (p, c) :: l₂ → x.Proper (x.made ++ l₁) p c

theorem propers_nil : x.Propers [] := by
  intro l₁ p c l₂ hl
  exact absurd hl (by simp)

theorem propers_snoc {l : List (Ptr × TimerCall)} (hl : x.Propers l)
    (hc : x.Proper (x.made ++ l) p c) : x.Propers (l ++ [(p, c)]) := by
  intro l₁ q d l₂ heq
  rcases List.eq_nil_or_concat l₂ with rfl | ⟨l₃, w, rfl⟩
  · obtain ⟨rfl, h⟩ := List.append_inj' heq rfl
    obtain ⟨rfl, rfl⟩ := Prod.mk.inj (List.cons.inj h).1
    exact hc
  · have hsplit : l ++ [(p, c)] = (l₁ ++ (q, d) :: l₃) ++ [w] := by
      rw [heq, List.concat_eq_append, List.append_assoc, List.cons_append]
    exact hl l₁ q d l₃ (List.append_inj' hsplit rfl).1

theorem Inv.proper (h : x.Inv) (hp : x.Prepared) (ht : c = .startTimer true ∨
    ∃ ok, c = .sleepToNextTick ok ∧ x.system.pc.inLoop = true) :
    x.Proper (x.made ++ []) x.system.timer c := by
  rw [List.append_nil]
  have hlinked := h.sound.linked x.system.timer
  have hf := hlinked.frequency_eq hp.setTo
  rcases ht with rfl | ⟨ok, rfl, hloop⟩
  · exact ⟨⟨rfl, hp.timer⟩, fun _ => by rw [hf]; rfl, ⟨nofun, nofun⟩, fun _ => hf⟩
  · refine ⟨⟨rfl, hp.timer⟩, fun _ => ⟨by rw [hf]; rfl, ?_⟩, ⟨nofun, nofun⟩, fun _ => hf⟩
    rw [← hlinked.started, hp.started]
    exact hloop

/-- **A system keeps the contract of its timers.**  Whatever the user has done to a timer, or to
several, before they were given to a system that is initialised: every call that the system makes is
one of its own timer, never of NULL; it keeps the contract; the timer is never asked for a frequency
of 0, `start_timer` never refuses, and a tick is scheduled at the frequency of the system. -/
theorem contract_kept {raw : Ptr → Timer} {r : List Nat} {es : List RunTimerEvent}
    (hc : After 0 r) (hr : (runTimer k A).Runs LeftAlone (new k raw r) es x)
    (hs : (runTimer k A).step x (.system e) = some y) :
    ∃ l, y.made = x.made ++ l ∧ x.Propers l := by
  have h := inv_of_runs hc hr
  obtain ⟨-, t, z, ht, hz, rfl⟩ := step_system hs
  show ∃ l, z.made = x.made ++ l ∧ _
  cases hz with
  | quiet | checked => exact ⟨[], (List.append_nil _).symm, propers_nil⟩
  | initialized a hp hy hz hu hv _ =>
    obtain ⟨-, -, hmade⟩ := told_after hy hz
    obtain ⟨-, -, hmade'⟩ := told_after hu hv
    refine ⟨[] ++ [(x.system.timer, .callInitialize true)] ++ [(x.system.timer,
      .setFrequency x.system.frequency (some a.timerSetFrequency.isNone))], ?_,
      propers_snoc (propers_snoc propers_nil ?_) ?_⟩
    · rw [hmade', hmade, List.append_assoc]
      rfl
    · exact ⟨⟨rfl, hp.timer⟩, trivial, ⟨nofun, nofun⟩, nofun⟩
    · refine ⟨⟨rfl, hp.timer⟩, nofun, ⟨nofun, fun r hr => ?_⟩, nofun⟩
      exact hp.frequency (TimerCall.setFrequency.inj hr).1
  | started a hy hz =>
    have moves : x.system.Moves A (.startTimer a) t :=
      RealTimeSystem.step_moves (RealTimeSystem.inside_of_step ht rfl) ht
    obtain ⟨hpc, -⟩ | ⟨-, -, ok, he⟩ | ⟨-, he, -, -⟩ := moves.consults
    · have hp := h.prepared (.inr moves.inside)
      obtain ⟨rfl, -⟩ := hp.start hpc hy
      obtain ⟨-, -, hmade⟩ := told_after hy hz
      exact ⟨[] ++ [(x.system.timer, _)], hmade,
        propers_snoc propers_nil (h.proper hp (.inl rfl))⟩
    · cases he
    · exact absurd rfl (he a)
  | ticked ok hy =>
    have moves : x.system.Moves A (.tick ok) t :=
      RealTimeSystem.step_moves (RealTimeSystem.inside_of_step ht rfl) ht
    obtain ⟨-, a, he⟩ | ⟨hloop, -, -⟩ | ⟨-, -, he, -⟩ := moves.consults
    · cases he
    · have hp := h.prepared (.inr moves.inside)
      exact ⟨[] ++ [(x.system.timer, _)], hy.made,
        propers_snoc propers_nil (h.proper hp (.inr ⟨ok, rfl, hloop⟩))⟩
    · exact absurd rfl (he ok)

end RunTimer
end

/-- the timers of a process, busy waits all -/
def busyWaits (c : List Nat) : RunTimer :=
  .new (fun _ => .busyWait) (fun _ => ⟨⟨0, 0⟩, 0, 0, 0, false, 0, Error.construct ""⟩) c

/-- a timer that its user has left running at 50 Hz is given to a system at 100 Hz, which runs up to
its first tick -/
def usedBefore : List RunTimerEvent :=
  [.user 1 (.setFrequency 50 (some true)), .user 1 (.startTimer true)] ++
    ([.setTimer 1, .setSender 2, .setUserDataFn 3, .setFrequency 100,
      .callInitialize answersOk, .run,
      .startTimer none, .tau, .tau, .isSendDone true, .isSendDone true,
      .userCall ⟨⟨0, false, 0⟩, [], false⟩, .send [] none].map .system)

theorem contract_kept_used :
    ∃ x y, (runTimer (fun _ => .busyWait) FastInts.lp64).run
        (busyWaits [7, 20, 30, 10000021]) usedBefore = some x ∧
      (runTimer (fun _ => .busyWait) FastInts.lp64).step x (.system (.tick true)) = some y ∧
      ∃ l, y.made = x.made ++ l ∧ x.Propers l := by
  have hrun : (((runTimer (fun _ => .busyWait) FastInts.lp64).restrict LeftAlone).run
      (busyWaits [7, 20, 30, 10000021]) usedBefore).bind (fun x =>
        ((runTimer (fun _ => .busyWait) FastInts.lp64).step x (.system (.tick true))).map
          RunTimer.clock) = some [] := by decide
  obtain ⟨x, hx, hrest⟩ := Option.bind_eq_some_iff.mp hrun
  obtain ⟨y, hy, -⟩ := Option.map_eq_some_iff.mp hrest
  have hr := Machine.Runs.of_restrict hx
  exact ⟨x, y, hr.run_eq, hy, RunTimer.contract_kept (by simp [After]) hr hy⟩

end RealTimeTransfer
