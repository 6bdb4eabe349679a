import RealTimeTransfer.Senders.Renewal
import RealTimeTransfer.Systems.Discipline
import RealTimeTransfer.Systems.RunSender

/-!
# The whole program

A `RealTimeSystem` and its `TCPSender` from their constructors on: any public calls of the system,
in any order and as often as the user likes, where `initialize`, `send_before_run` and `run` call
the sender step by step, and each worker ever created at its own pace.

* `program A a`            the machine;
* `ProgramOk`              the two conditions under which a lifetime is over when it should be;
* `Program.Stage`          where the program stands between two lifetimes of the sender;
* `program_send_alone`     every `send` of `run` finds `is_done` set;
* `inside_is_run`          inside a call the program is a system over one fresh session.
-/

namespace RealTimeTransfer
open Machines Words

/-- `get_error` has been called -/
def Lifetimes.told (s : Lifetimes) : Lifetimes :=
  { s with main := { s.main with errorHandler := s.main.errorHandler.clearError } }

/-- a call of the sender by the system -/
def SessionEvent.call : SessionEvent → Option LifetimesEvent
  | .callSend p => some (.callSend p)
  | .callEndSender => some .callEndSender
  | _ => none

structure Program where
  system : RealTimeSystem := {}
  sender : Lifetimes
  /-- what the earlier calls of `initialize` have answered, while it calls the sender -/
  opening : Option SystemAnswers := none

inductive ProgramEvent where
  | system (e : SystemEvent)
  | isSendDone (b : Bool)
  | enter
  | callInitialize (b : SystemAnswers)
  | sender (e : LifetimesEvent)

namespace Program

/-- the constructors -/
def construct (h : Heap) : Program := { sender := Lifetimes.construct false h }

/-- the sender has come to `s`; where its call has returned, the system goes on, and takes the text
of an `initialize` or a `send` of `run` that returned false -/
def finish (A : FastInts) (x : Program) (s : Lifetimes) : Option Program :=
  match s.init, s.main.pc with
  | none, .ready r =>
    let msg := s.main.errorHandler.getError
    match x.opening with
    | some b =>
      let b := { b with senderInitialize := if r = some true then none else some msg }
      (x.system.step A (.callInitialize b)).map fun y =>
        { system := y, sender := if r = some true then s else s.told }
    | none =>
      (x.system.step A (RunSender.result x.system r msg)).map fun y =>
        { system := y, sender := if x.system.pc = .send ∧ r ≠ some true then s.told else s }
  | _, _ => some { x with sender := s }

def step (A : FastInts) (a : Locals) (x : Program) : ProgramEvent → Option Program
  | .system e =>
    if e.isLocal then
      (x.system.step A e).bind fun y =>
        (x.sender.step false A (.write (a.assign x.sender.heap e))).map fun s =>
          { x with system := y, sender := s }
    else none
  | .isSendDone b =>
    if x.sender.init = none ∧ x.sender.main.pc.isReady = true ∧ b = x.sender.data.isDone then
      (x.system.step A (.isSendDone b)).map fun y => { x with system := y }
    else none
  | .enter =>
    ((x.system.pc.callee a).bind SessionEvent.call).bind fun e =>
      (x.sender.step false A e).map fun s => { x with sender := s }
  | .callInitialize b =>
    if x.sender.init = none ∧ x.sender.main.pc.isReady = true ∧ b.senderInitialize = none then
      (x.system.step A (.callInitialize b)).bind fun y =>
        -- the sender is called last
        if x.system.initError b = none then
          (x.sender.step false A .callInitialize).map fun s =>
            { x with sender := s, opening := some b }
        else some { x with system := y }
    else none
  | .sender e =>
    match e with
    | .main | .init | .server _ _ | .client _ | .thread _ =>
      (x.sender.step false A e).bind (x.finish A)
    | .earlier _ _ | .latest _ => (x.sender.step false A e).map fun s => { x with sender := s }
    | _ => none

end Program

def program (A : FastInts) (a : Locals) : Machine Program ProgramEvent := ⟨Program.step A a⟩

/-- an `initialize` of the sender that returns in this step returns true -/
def Lifetimes.Opens (A : FastInts) (s : Lifetimes) (e : LifetimesEvent) : Prop :=
  ∀ t ∈ s.step false A e, t.init = none → t.main.pc = .ready (some true)

/-- the conditions: `end_sender` does not return while the worker stands between its two writes, and
an `initialize` called while an earlier success is in force succeeds -/
def ProgramOk (A : FastInts) (x : Program) : ProgramEvent → Prop
  | .callInitialize b => x.system.initialized = true → x.system.initError b = none
  | .sender e =>
    ReturnOk x.sender e ∧
      (x.opening.isSome = true → x.system.initialized = true → x.sender.Opens A e)
  | _ => True

/-! ## Where the program stands -/

/-- a system over one session, since a successful `initialize` -/
def Reached (A : FastInts) (a : Locals) (y : RunSender) : Prop :=
  ∃ r h so err l, (runSender A a).run (RunSender.start r h so err) l = some y

namespace Program

/-- the sender has no session for the system, which is not initialised -/
structure Closed (x : Program) : Prop where
  opening : x.opening = none
  init : x.sender.init = none
  ready : x.sender.main.pc.isReady = true
  settled : Settled x.sender
  idle : x.system.pc.isIdle = true
  initialized : x.system.initialized = false

/-- the system waits in `initialize` for its sender -/
structure Waits (x : Program) (b : SystemAnswers) : Prop where
  opening : x.opening = some b
  answers : b.senderInitialize = none
  checked : x.system.initError b = none
  idle : x.system.pc.isIdle = true

/-- the program shows the run of a system over one session -/
structure InSession (A : FastInts) (a : Locals) (x : Program) (y : RunSender) : Prop where
  opening : x.opening = none
  init : x.sender.init = none
  reached : Reached A a y
  shows : Shows x.sender y.session
  system : x.system = y.system

end Program

/-- **The stages of the program.**  `initialize` ends the last session and resets the shared data,
then the new worker begins while the main thread waits for its first words. -/
inductive Program.Stage (A : FastInts) (a : Locals) (x : Program) : Prop where
  | closed : x.Closed → Program.Stage A a x
  | opening {b : SystemAnswers} {i : InitPc} : x.Waits b → x.sender.init = some i →
      i = .ending ∨ i.starting = true → Settled x.sender → Reset x.sender → Program.Stage A a x
  | begun {b : SystemAnswers} {y : RunSender} : x.Waits b →
      x.sender.init = some .waitStart ∨ x.sender.init = some .mark → Reached A a y →
      Shows x.sender y.session → y.system = x.system.initializeSystem A b → Program.Stage A a x
  | running {y : RunSender} : x.InSession A a y → Program.Stage A a x

section
variable {A : FastInts} {a : Locals} {x x' : Program} {y : RunSender}

theorem stage_start (h : Heap) : Program.Stage A a (Program.construct h) :=
  .closed ⟨rfl, rfl, rfl, settled_start h, rfl, rfl⟩

theorem Reached.step (h : Reached A a y) {e : RunSenderEvent} {y' : RunSender}
    (hs : y.step A a e = some y') : Reached A a y' := by
  obtain ⟨r, h, so, err, l, hl⟩ := h
  exact ⟨r, h, so, err, l ++ [e], Machine.run_snoc hl hs⟩

theorem RealTimeSystem.call_closed {s t : RealTimeSystem} {e : SystemEvent} (hl : e.isLocal = true)
    (hn : s.initialized = false) (hs : s.call A e = some t) :
    t.pc.isIdle = true ∧ t.initialized = false := by
  unfold call at hs
  rw [hn] at hs
  split at hs
  case h_1 | h_2 | h_3 =>
    cases hs
    unfold setPointer
    split <;> exact ⟨rfl, rfl⟩
  case h_4 | h_5 | h_6 => cases hs; exact ⟨rfl, rfl⟩
  case h_7 => cases hl
  case h_8 | h_9 => cases hs; exact ⟨rfl, hn⟩
  case h_10 => cases hs

theorem SystemPc.eq_idle {pc : SystemPc} (h : pc.isIdle = true) : ∃ r, pc = .idle r := by
  cases pc with
  | idle r => exact ⟨r, rfl⟩
  | _ => cases h

theorem RealTimeSystem.step_of_idle {s : RealTimeSystem} (h : s.pc.isIdle = true)
    (e : SystemEvent) : s.step A e = s.call A e := by
  obtain ⟨r, hr⟩ := SystemPc.eq_idle h
  exact RealTimeSystem.step_idle hr

namespace Program

theorem Waits.at {b : SystemAnswers} (h : x.Waits b) (s : Lifetimes) :
    ({ x with sender := s } : Program).Waits b :=
  ⟨h.opening, h.answers, h.checked, h.idle⟩

theorem Stage.outside (h : Stage A a x) (hi : x.sender.init = none) :
    x.Closed ∨ ∃ y, x.InSession A a y := by
  cases h with
  | closed h => exact .inl h
  | opening _ hi' => cases hi.symm.trans hi'
  | begun _ hi' => rcases hi' with hi' | hi' <;> cases hi.symm.trans hi'
  | running h => exact .inr ⟨_, h⟩

theorem Stage.session (h : Stage A a x) (hpc : x.system.pc.isIdle = false) :
    ∃ y, x.InSession A a y := by
  cases h with
  | closed h => exact absurd (h.idle.symm.trans hpc) nofun
  | opening h => exact absurd (h.idle.symm.trans hpc) nofun
  | begun h => exact absurd (h.idle.symm.trans hpc) nofun
  | running h => exact ⟨_, h⟩

end Program

/-! ## The steps -/

theorem Program.Stage.system (h : Program.Stage A a x) {e : SystemEvent}
    (hs : x.step A a (.system e) = some x') : Program.Stage A a x' := by
  obtain ⟨hl, hs⟩ := Option.ite_none_right_eq_some.mp hs
  obtain ⟨z, hz, hs⟩ := Option.bind_eq_some_iff.mp hs
  obtain ⟨s, hw, rfl⟩ := Option.map_eq_some_iff.mp hs
  obtain ⟨⟨hi, hr⟩, -⟩ := Option.ite_some_none_eq_some.mp hw
  rcases h.outside hi with h | ⟨y, h⟩
  · have hst := h.settled.step (e := .write _) trivial hw
    obtain ⟨-, rfl⟩ := Option.ite_some_none_eq_some.mp hw
    rw [RealTimeSystem.step_of_idle h.idle] at hz
    obtain ⟨hidle, hn⟩ := RealTimeSystem.call_closed hl h.initialized hz
    exact .closed ⟨h.opening, h.init, hr, hst, hidle, hn⟩
  · have hst := h.shows.settled.step (e := .write _) trivial hw
    obtain ⟨-, rfl⟩ := Option.ite_some_none_eq_some.mp hw
    rw [h.shows.main_eq (.inl hi)] at hr
    rw [h.shows.heap] at hst ⊢
    have hu : y.session.step false A (.write (a.assign y.session.heap e))
        = some { y.session with heap := a.assign y.session.heap e } := if_pos hr
    have hstep : y.step A a (.system e) = some { y with
        system := z, session := { y.session with heap := a.assign y.session.heap e } } := by
      rw [h.system] at hz
      refine (if_pos hl).trans (Option.bind_eq_some_iff.mpr ⟨z, hz, ?_⟩)
      exact Option.map_eq_some_iff.mpr ⟨_, hu, rfl⟩
    exact .running ⟨h.opening, h.init, h.reached.step hstep, h.shows.written hst hi hu, rfl⟩

theorem Program.Stage.isSendDone (h : Program.Stage A a x) {b : Bool}
    (hs : x.step A a (.isSendDone b) = some x') : Program.Stage A a x' := by
  obtain ⟨⟨hi, hr, hb⟩, hs⟩ := Option.ite_none_right_eq_some.mp hs
  obtain ⟨z, hz, rfl⟩ := Option.map_eq_some_iff.mp hs
  rcases h.outside hi with h | ⟨y, h⟩
  · rw [RealTimeSystem.step_of_idle h.idle] at hz
    cases hz
  · rw [h.shows.main_eq (.inl hi)] at hr
    rw [(h.shows.begun (by rw [hi]; nofun)).2] at hb
    have hstep : y.step A a (.isSendDone b) = some { y with system := z } := by
      rw [h.system] at hz
      refine Option.bind_eq_some_iff.mpr ⟨z, hz, ?_⟩
      exact Option.map_eq_some_iff.mpr ⟨y.session, if_pos ⟨hr, hb⟩, rfl⟩
    exact .running ⟨h.opening, h.init, h.reached.step hstep, h.shows, rfl⟩

theorem Shows.entered {s t : Lifetimes} {u : Session} (h : Shows s u) (hi : s.init = none)
    {f : SessionEvent} {g : LifetimesEvent} (hf : f.call = some g)
    (hs : s.step false A g = some t) :
    ∃ u', u.step false A f = some u' ∧ Shows t u' ∧ t.init = none := by
  have hst : Settled t := by
    refine h.settled.step ?_ hs
    cases f <;> cases hf <;> exact trivial
  cases f with
  | callSend p =>
    cases hf
    obtain ⟨-, hs⟩ := Option.ite_none_right_eq_some.mp hs
    obtain ⟨m, hm, rfl⟩ := Option.map_eq_some_iff.mp hs
    rw [h.main_eq (.inl hi)] at hm
    have hu : u.step false A (.callSend p) = some { u with main := m } :=
      Option.map_eq_some_iff.mpr ⟨m, hm, rfl⟩
    exact ⟨_, hu, h.called hst hi (.inl hi) hu, hi⟩
  | callEndSender =>
    cases hf
    obtain ⟨-, hs⟩ := Option.ite_none_right_eq_some.mp hs
    obtain ⟨m, hm, rfl⟩ := Option.map_eq_some_iff.mp hs
    rw [h.main_eq (.inl hi)] at hm
    have hu : u.step false A .callEndSender = some { u with main := m } :=
      Option.map_eq_some_iff.mpr ⟨m, hm, rfl⟩
    exact ⟨_, hu, h.called hst hi (.inl hi) hu, hi⟩
  | _ => cases hf

theorem Program.Stage.enter (h : Program.Stage A a x) (hs : x.step A a .enter = some x') :
    Program.Stage A a x' := by
  obtain ⟨f, hf, hs⟩ := Option.bind_eq_some_iff.mp hs
  obtain ⟨g, hg, hf⟩ := Option.bind_eq_some_iff.mp hf
  obtain ⟨s, hcall, rfl⟩ := Option.map_eq_some_iff.mp hs
  have hinside : x.system.pc.isIdle = false := by
    cases hpc : x.system.pc <;> first | rfl | (rw [hpc] at hg; cases hg)
  obtain ⟨y, h⟩ := h.session hinside
  rw [h.system] at hg
  obtain ⟨u', hu, hshow, hi⟩ := h.shows.entered h.init hf hcall
  have hy : y.step A a .enter = some { y with session := u' } :=
    Option.bind_eq_some_iff.mpr ⟨g, hg, Option.map_eq_some_iff.mpr ⟨u', hu, rfl⟩⟩
  exact .running ⟨h.opening, hi, h.reached.step hy, hshow, h.system⟩

theorem RealTimeSystem.step_callInitialize {s t : RealTimeSystem} {b : SystemAnswers}
    (hs : s.step A (.callInitialize b) = some t) :
    s.pc.isIdle = true ∧ t = s.initializeSystem A b := by
  rcases RealTimeSystem.call_or_moves hs with ⟨r, hpc, hs⟩ | moves
  · exact ⟨by rw [hpc]; rfl, (Option.some.inj hs).symm⟩
  · cases moves

/-- an `initialize` that fails leaves the object not initialised, if it was not -/
theorem RealTimeSystem.initialize_closed {s : RealTimeSystem} {b : SystemAnswers}
    (he : s.initError b ≠ none) (hn : s.initialized = false) :
    (s.initializeSystem A b).pc.isIdle = true ∧ (s.initializeSystem A b).initialized = false := by
  obtain ⟨msg, hmsg⟩ := Option.ne_none_iff_exists'.mp he
  rw [RealTimeSystem.initialize_fails hmsg]
  exact ⟨rfl, hn⟩

theorem Program.Stage.callInitialize (h : Program.Stage A a x) {b : SystemAnswers}
    (ho : ProgramOk A x (.callInitialize b)) (hs : x.step A a (.callInitialize b) = some x') :
    Program.Stage A a x' := by
  obtain ⟨⟨hi, hr, hb⟩, hs⟩ := Option.ite_none_right_eq_some.mp hs
  obtain ⟨z, hz, hs⟩ := Option.bind_eq_some_iff.mp hs
  obtain ⟨hidle, rfl⟩ := RealTimeSystem.step_callInitialize hz
  have hst : Settled x.sender := by
    rcases h.outside hi with h | ⟨y, h⟩
    · exact h.settled
    · exact h.shows.settled
  by_cases he : x.system.initError b = none
  · rw [if_pos he] at hs
    obtain ⟨s, hcall, rfl⟩ := Option.map_eq_some_iff.mp hs
    have hst' := hst.step (e := .callInitialize) trivial hcall
    have hreset := (Reset.of_other fun i hi' => absurd (hi.symm.trans hi') nofun).step hst hcall
    obtain ⟨-, hcall⟩ := Option.ite_none_right_eq_some.mp hcall
    obtain ⟨m, -, rfl⟩ := Option.map_eq_some_iff.mp hcall
    exact .opening ⟨rfl, hb, he, hidle⟩ rfl (.inl rfl) hst' hreset
  · rw [if_neg he] at hs
    cases hs
    have hn : x.system.initialized = false := by
      cases hi' : x.system.initialized with
      | false => rfl
      | true => exact absurd (ho hi') he
    obtain ⟨hidle', hn'⟩ := RealTimeSystem.initialize_closed he hn
    rcases h.outside hi with h | ⟨y, h⟩
    · exact .closed ⟨h.opening, hi, hr, hst, hidle', hn'⟩
    · exact .closed ⟨h.opening, hi, hr, hst, hidle', hn'⟩

/-! ## The steps of the workers -/

theorem Lifetimes.step_background {s t : Lifetimes} {e : LifetimesEvent}
    (he : (∃ k f, e = .earlier k f) ∨ ∃ f, e = .latest f) (hs : s.step false A e = some t) :
    t.init = s.init ∧ t.main = s.main := by
  rcases he with ⟨k, f, rfl⟩ | ⟨f, rfl⟩
  · obtain ⟨w, -, hs⟩ := Option.bind_eq_some_iff.mp hs
    obtain ⟨z, -, rfl⟩ := Option.map_eq_some_iff.mp hs
    exact ⟨rfl, rfl⟩
  · obtain ⟨w, -, hs⟩ := Option.bind_eq_some_iff.mp hs
    obtain ⟨z, -, rfl⟩ := Option.map_eq_some_iff.mp hs
    exact ⟨rfl, rfl⟩

theorem Reached.background (h : Reached A a y) {s t : Lifetimes} (hshow : Shows s y.session)
    {e : LifetimesEvent} (he : (∃ k f, e = .earlier k f) ∨ ∃ f, e = .latest f)
    (hs : s.step false A e = some t) :
    ∃ u', Reached A a { y with session := u' } ∧ Shows t u' := by
  have hst : Settled t := by
    refine hshow.settled.step ?_ hs
    rcases he with ⟨k, f, rfl⟩ | ⟨f, rfl⟩ <;> exact trivial
  rcases he with ⟨k, f, rfl⟩ | ⟨f, rfl⟩
  · obtain ⟨w, hw, hs⟩ := Option.bind_eq_some_iff.mp hs
    obtain ⟨⟨d, w'⟩, hw', rfl⟩ := Option.map_eq_some_iff.mp hs
    obtain rfl := Worker.step_over (hshow.settled.earlier w (List.mem_of_getElem? hw)) hw'
    exact ⟨y.session, h, hshow.other hst⟩
  · obtain ⟨w, hw, hs⟩ := Option.bind_eq_some_iff.mp hs
    obtain ⟨⟨d, w'⟩, hw', rfl⟩ := Option.map_eq_some_iff.mp hs
    rcases hshow.worked hst hw hw' with ⟨rfl, hshow'⟩ | ⟨u', hu, hshow'⟩
    · exact ⟨y.session, h, hshow'⟩
    · have hy : y.step A a (.worker f) = some { y with session := u' } :=
        Option.map_eq_some_iff.mpr ⟨u', hu, rfl⟩
      exact ⟨u', h.step hy, hshow'⟩

theorem Program.Stage.background (h : Program.Stage A a x) {e : LifetimesEvent} {s : Lifetimes}
    (he : (∃ k f, e = .earlier k f) ∨ ∃ f, e = .latest f)
    (hs : x.sender.step false A e = some s) : Program.Stage A a { x with sender := s } := by
  obtain ⟨hinit, hmain⟩ := Lifetimes.step_background he hs
  have ho : ReturnOk x.sender e := by
    rcases he with ⟨k, f, rfl⟩ | ⟨f, rfl⟩ <;> exact trivial
  cases h with
  | closed h =>
    refine .closed ⟨h.opening, hinit.trans h.init, ?_, h.settled.step ho hs, h.idle, h.initialized⟩
    show s.main.pc.isReady = true
    rw [hmain]
    exact h.ready
  | opening h hi hp hst hreset =>
    exact .opening (h.at s) (hinit.trans hi) hp
      (hst.step ho hs) (hreset.step hst hs)
  | begun h hi hr hshow hy =>
    obtain ⟨u', hr', hshow'⟩ := hr.background hshow he hs
    refine .begun (h.at _) ?_ hr' hshow' hy
    show s.init = _ ∨ s.init = _
    rw [hinit]
    exact hi
  | running h =>
    obtain ⟨u', hr', hshow'⟩ := h.reached.background h.shows he hs
    exact .running ⟨h.opening, hinit.trans h.init, hr', hshow', h.system⟩

/-! ## The steps of the main thread in the sender -/

/-- the main thread inside the sender -/
def LifetimesEvent.inside : LifetimesEvent → Bool
  | .main | .init | .server _ _ | .client _ | .thread _ => true
  | _ => false

section
variable {s t : Lifetimes} {e : LifetimesEvent}

/-- the points of such a step: inside a call, or in `initialize` -/
theorem Lifetimes.step_inside (he : e.inside = true) (hs : s.step false A e = some t) :
    (e = .main ∧ s.main.pc.isReady = false) ∨
      (e = .init ∧ ∃ i, s.init = some i ∧ s.stepInit i = some t) ∨
      s.init = some .server ∨ s.init = some .client ∨ s.init = some .thread := by
  cases e with
  | main =>
    obtain ⟨z, hz, -⟩ := Option.map_eq_some_iff.mp hs
    exact .inl ⟨rfl, (Sender.step_advance hz).not_ready⟩
  | init => exact .inr (.inl ⟨rfl, Option.bind_eq_some_iff.mp hs⟩)
  | server addrs listen =>
    exact .inr (.inr (.inl (Option.ite_none_right_eq_some.mp hs).1))
  | client fd => exact .inr (.inr (.inr (.inl (Option.ite_none_right_eq_some.mp hs).1)))
  | thread c => exact .inr (.inr (.inr (.inr (Option.ite_none_right_eq_some.mp hs).1)))
  | _ => cases he

theorem Lifetimes.step_called (he : e.inside = true) (hi : s.init = none)
    (hs : s.step false A e = some t) : e = .main ∧ s.main.pc.isReady = false := by
  rcases Lifetimes.step_inside he hs with hm | ⟨-, i, hi', -⟩ | hi' | hi' | hi'
  · exact hm
  · cases hi.symm.trans hi'
  · cases hi.symm.trans hi'
  · cases hi.symm.trans hi'
  · cases hi.symm.trans hi'

theorem Lifetimes.orRefuse_cases (s : Lifetimes) {j : InitPc} (hj : j.starting = true)
    (r : Except String Unit) :
    (∃ i, (s.orRefuse j r).init = some i ∧ (i = .ending ∨ i.starting = true)) ∨
      ((s.orRefuse j r).init = none ∧ (s.orRefuse j r).main.pc = .ready (some false)) := by
  cases r with
  | ok _ => exact .inl ⟨j, rfl, .inr hj⟩
  | error msg => exact .inr ⟨rfl, rfl⟩

/-- `initialize` up to the creation of its worker: it goes on, returns false or creates it -/
theorem Lifetimes.step_opening {i : InitPc} (hi : s.init = some i)
    (hp : i = .ending ∨ i.starting = true) (he : e.inside = true) (hs : s.step false A e = some t) :
    (∃ j, t.init = some j ∧ (j = .ending ∨ j.starting = true)) ∨
      (t.init = none ∧ t.main.pc = .ready (some false)) ∨
      ∃ c, e = .thread c ∧ c.error = none ∧ t.init = some .waitStart := by
  cases e with
  | main =>
    obtain ⟨z, -, rfl⟩ := Option.map_eq_some_iff.mp hs
    exact .inl ⟨i, hi, hp⟩
  | init =>
    obtain ⟨j, hj, hs⟩ := Option.bind_eq_some_iff.mp hs
    cases hi.symm.trans hj
    cases i with
    | ending =>
      obtain ⟨-, rfl⟩ := Option.ite_some_none_eq_some.mp hs
      exact .inl ⟨_, rfl, .inr rfl⟩
    | reset n =>
      obtain ⟨f, -, rfl⟩ := Option.map_eq_some_iff.mp hs
      refine .inl ⟨_, rfl, .inr ?_⟩
      split <;> rfl
    | closeServer => cases hs; exact .inl ⟨_, rfl, .inr rfl⟩
    | setFd => cases hs; exact .inl ⟨_, rfl, .inr rfl⟩
    | waitStart => rcases hp with hp | hp <;> cases hp
    | mark => rcases hp with hp | hp <;> cases hp
    | server => cases hs
    | client => cases hs
    | thread => cases hs
  | server addrs listen =>
    obtain ⟨-, hs⟩ := Option.ite_none_right_eq_some.mp hs
    obtain ⟨⟨so, r⟩, -, rfl⟩ := Option.map_eq_some_iff.mp hs
    rcases Lifetimes.orRefuse_cases { s with main := { s.main with sockets := so } }
        (j := .client) rfl r with hr | hr
    · exact .inl hr
    · exact .inr (.inl hr)
  | client fd =>
    obtain ⟨-, hs⟩ := Option.ite_none_right_eq_some.mp hs
    obtain ⟨⟨so, r⟩, -, rfl⟩ := Option.map_eq_some_iff.mp hs
    rcases Lifetimes.orRefuse_cases { s with main := { s.main with sockets := so } }
        (j := .closeServer) rfl r with hr | hr
    · exact .inl hr
    · exact .inr (.inl hr)
  | thread c =>
    obtain ⟨-, hs⟩ := Option.ite_none_right_eq_some.mp hs
    split at hs
    case h_1 msg hc =>
      cases hs
      exact .inr (.inl ⟨rfl, rfl⟩)
    case h_2 hc =>
      cases hs
      exact .inr (.inr ⟨c, rfl, hc, rfl⟩)
  | _ => cases he

theorem Settled.told (h : Settled s) : Settled s.told :=
  ⟨h.sane, h.earlier, h.ended, h.closing, h.flag, h.fresh, h.ready, h.returned, h.starting,
    h.prepared⟩

theorem Shows.told {u : Session} (h : Shows s u) (hi : s.init = none)
    (hr : s.main.pc.isReady = true) :
    ∃ u', u.step false A (.getError u.main.errorHandler.getError) = some u' ∧ Shows s.told u' := by
  have hm := h.main_eq (.inl hi)
  have hu : u.step false A (.getError u.main.errorHandler.getError) = some
      { u with main := { u.main with errorHandler := u.main.errorHandler.clearError } } :=
    if_pos ⟨hm ▸ hr, rfl⟩
  refine ⟨_, hu, h.settled.told, h.inv.step hu, h.heap, .inl ⟨.inl hi, ?_⟩,
    .inr (h.begun (by rw [hi]; nofun))⟩
  show { s.main with errorHandler := s.main.errorHandler.clearError } = _
  rw [hm]

end

theorem Program.finish_busy {s : Lifetimes} (h : s.init ≠ none ∨ s.main.pc.isReady = false) :
    x.finish A s = some { x with sender := s } := by
  unfold Program.finish
  split
  case h_1 r hi hpc =>
    rcases h with h | h
    · exact absurd hi h
    · rw [hpc] at h
      cases h
  case h_2 => rfl

theorem RunSender.finish_busy {u : Session} (h : u.main.pc.isReady = false) :
    y.finish A u = some { y with session := u } := by
  unfold RunSender.finish RunSender.finishOf
  split
  case h_1 r hpc =>
    rw [hpc] at h
    cases h
  case h_2 => rfl

theorem SenderPc.eq_ready {pc : SenderPc} (h : pc.isReady = true) : ∃ r, pc = .ready r := by
  cases pc with
  | ready r => exact ⟨r, rfl⟩
  | _ => cases h

theorem Program.Waits.refused {b : SystemAnswers} (h : x.Waits b) {s : Lifetimes} (hst : Settled s)
    (hi : s.init = none) (hpc : s.main.pc = .ready (some false))
    (hn : x.system.initialized = false) (hf : x.finish A s = some x') : x'.Closed := by
  unfold Program.finish at hf
  rw [hi, hpc, h.opening] at hf
  obtain ⟨z, hz, rfl⟩ := Option.map_eq_some_iff.mp hf
  obtain ⟨-, rfl⟩ := RealTimeSystem.step_callInitialize hz
  have hfail : x.system.initError
      { b with senderInitialize := some s.main.errorHandler.getError } ≠ none := by
    intro he
    cases (RealTimeSystem.initError_none he).2.2.2.2
  obtain ⟨hidle, hn'⟩ := RealTimeSystem.initialize_closed (A := A) hfail hn
  refine ⟨rfl, hi, ?_, hst.told, hidle, hn'⟩
  show s.main.pc.isReady = true
  rw [hpc]
  rfl

theorem Program.Waits.opened {b : SystemAnswers} (h : x.Waits b) {s : Lifetimes}
    (hi : s.init = none) (hpc : s.main.pc = .ready (some true)) (hf : x.finish A s = some x') :
    x' = { system := x.system.initializeSystem A b, sender := s } := by
  unfold Program.finish at hf
  rw [hi, hpc, h.opening] at hf
  obtain ⟨z, hz, rfl⟩ := Option.map_eq_some_iff.mp hf
  obtain ⟨-, rfl⟩ := RealTimeSystem.step_callInitialize hz
  rw [if_pos rfl, if_pos rfl, ← h.answers]

theorem Program.InSession.finish (h : x.InSession A a y) {s : Lifetimes} {u : Session}
    (hi : s.init = none) (hu : y.session.step false A .main = some u) (hshow : Shows s u)
    (hf : x.finish A s = some x') : ∃ y', x'.InSession A a y' := by
  have hm := hshow.main_eq (.inl hi)
  cases hr : s.main.pc.isReady with
  | false =>
    rw [Program.finish_busy (.inr hr)] at hf
    cases hf
    have hy : y.step A a .main = some { y with session := u } :=
      Option.bind_eq_some_iff.mpr ⟨u, hu, RunSender.finish_busy (hm ▸ hr)⟩
    exact ⟨_, h.opening, hi, h.reached.step hy, hshow, h.system⟩
  | true =>
    obtain ⟨r, hpc⟩ := SenderPc.eq_ready hr
    unfold Program.finish at hf
    rw [hi, hpc, h.opening, h.system] at hf
    obtain ⟨z, hz, rfl⟩ := Option.map_eq_some_iff.mp hf
    have hreturn : ∀ y', (if y.system.pc ≠ .send then some { y with system := z, session := u }
        else if r = some true then some ⟨z, u, y.returned ++ [y.system.userPacketsList]⟩
        else (u.step false A (.getError u.main.errorHandler.getError)).map
          fun u' => { y with system := z, session := u' }) = some y' → Reached A a y' := by
      intro y' hy'
      refine h.reached.step (e := .main) (Option.bind_eq_some_iff.mpr ⟨u, hu, ?_⟩)
      unfold RunSender.finishOf
      rw [← hm, hpc]
      dsimp only
      rw [hz, Option.bind_some, hm]
      exact hy'
    by_cases hsend : y.system.pc = .send
    · by_cases hv : r = some true
      · refine ⟨⟨z, u, y.returned ++ [y.system.userPacketsList]⟩, rfl, ?_, hreturn _ ?_, ?_, rfl⟩
        · rw [if_neg fun hb => hb.2 hv]
          exact hi
        · rw [if_neg (not_not.mpr hsend), if_pos hv]
        · rw [if_neg fun hb => hb.2 hv]
          exact hshow
      · obtain ⟨u', hu', hshow'⟩ := hshow.told (A := A) hi hr
        refine ⟨{ y with system := z, session := u' }, rfl, ?_, hreturn _ ?_, ?_, rfl⟩
        · rw [if_pos ⟨hsend, hv⟩]
          exact hi
        · rw [if_neg (not_not.mpr hsend), if_neg hv, hu']
          rfl
        · rw [if_pos ⟨hsend, hv⟩]
          exact hshow'
    · refine ⟨{ y with system := z, session := u }, rfl, ?_, hreturn _ (if_pos hsend), ?_, rfl⟩
      · rw [if_neg fun hb => hsend hb.1]
        exact hi
      · rw [if_neg fun hb => hsend hb.1]
        exact hshow

theorem Program.Stage.opens {b : SystemAnswers} {i : InitPc} {e : LifetimesEvent} {s : Lifetimes}
    (h : x.Waits b) (hi : x.sender.init = some i) (hp : i = .ending ∨ i.starting = true)
    (hst : Settled x.sender) (hreset : Reset x.sender) (he : e.inside = true)
    (ho : ProgramOk A x (.sender e)) (hs : x.sender.step false A e = some s)
    (hf : x.finish A s = some x') : Program.Stage A a x' := by
  have hst' := hst.step ho.1 hs
  rcases Lifetimes.step_opening hi hp he hs with ⟨j, hj, hp'⟩ | ⟨hn, hpc⟩ | ⟨c, rfl, hc, hw⟩
  · rw [Program.finish_busy (.inl (by rw [hj]; nofun))] at hf
    cases hf
    exact .opening (h.at _) hj hp' hst' (hreset.step hst hs)
  · have hni : x.system.initialized = false := by
      cases hin : x.system.initialized with
      | false => rfl
      | true =>
        have hopens := ho.2 (by rw [h.opening]; rfl) hin s hs hn
        rw [hpc] at hopens
        cases hopens
    exact .closed (h.refused hst' hn hpc hni hf)
  · rw [Program.finish_busy (.inl (by rw [hw]; nofun))] at hf
    cases hf
    have hs' : (lifetimes false A).step x.sender (.thread c) = some s := hs
    refine .begun (h.at _) (.inl hw) ?_
      (shows_created hst hreset hc trivial hs') (y := RunSender.start
        (x.system.initializeSystem A b) s.heap s.main.sockets s.main.errorHandler) ?_
    · exact ⟨_, _, _, _, [], rfl⟩
    · rw [RealTimeSystem.initialize_succeeds h.checked]
      rfl

theorem Program.Stage.begins {b : SystemAnswers} {e : LifetimesEvent} {s : Lifetimes}
    (h : x.Waits b) (hi : x.sender.init = some .waitStart ∨ x.sender.init = some .mark)
    (hr : Reached A a y) (hshow : Shows x.sender y.session)
    (hy : y.system = x.system.initializeSystem A b) (he : e.inside = true)
    (ho : ReturnOk x.sender e) (hs : x.sender.step false A e = some s)
    (hf : x.finish A s = some x') : Program.Stage A a x' := by
  have hst := hshow.settled.step ho hs
  rcases Lifetimes.step_inside he hs with ⟨rfl, hr'⟩ | ⟨rfl, i, hi', hs'⟩ | hi' | hi' | hi'
  · have hready : x.sender.main.pc.isReady = true := by
      rcases hi with hi | hi <;> exact hshow.settled.ready _ hi nofun
    exact absurd (hready.symm.trans hr') nofun
  · have hne : i ≠ .ending := by
      rintro rfl
      rcases hi with hi | hi <;> cases hi.symm.trans hi'
    have hshow' := hshow.initialized hst hi' hne hs'
    rcases hi with hi | hi
    · cases hi.symm.trans hi'
      cases hs'
      rw [Program.finish_busy (.inl (Option.some_ne_none _))] at hf
      cases hf
      refine .begun (h.at _) ?_ hr hshow' hy
      show some (if x.sender.data.threadInitialized then InitPc.mark else .waitStart) = _ ∨ _
      cases x.sender.data.threadInitialized
      · exact .inl rfl
      · exact .inr rfl
    · cases hi.symm.trans hi'
      cases hs'
      obtain rfl := h.opened rfl rfl hf
      exact .running ⟨rfl, rfl, hr, hshow', hy.symm⟩
  · rcases hi with hi | hi <;> cases hi.symm.trans hi'
  · rcases hi with hi | hi <;> cases hi.symm.trans hi'
  · rcases hi with hi | hi <;> cases hi.symm.trans hi'

theorem Program.Stage.inside (h : Program.Stage A a x) {e : LifetimesEvent} {s : Lifetimes}
    (he : e.inside = true) (ho : ProgramOk A x (.sender e))
    (hs : x.sender.step false A e = some s) (hf : x.finish A s = some x') :
    Program.Stage A a x' := by
  cases h with
  | closed h =>
    obtain ⟨-, hr⟩ := Lifetimes.step_called he h.init hs
    exact absurd (h.ready.symm.trans hr) nofun
  | opening h hi hp hst hreset => exact Program.Stage.opens h hi hp hst hreset he ho hs hf
  | begun h hi hr hshow hy => exact Program.Stage.begins h hi hr hshow hy he ho.1 hs hf
  | running h =>
    obtain ⟨rfl, -⟩ := Lifetimes.step_called he h.init hs
    have hst := h.shows.settled.step ho.1 hs
    obtain ⟨⟨d, m⟩, hm, rfl⟩ := Option.map_eq_some_iff.mp hs
    obtain ⟨u, hu, hshow⟩ := h.shows.ran (A := A) hst hm
    refine (h.finish ?_ hu hshow hf).elim fun _ hy' => .running hy'
    exact h.init

/-- **Every step of the program leads from a stage to a stage.** -/
theorem Program.Stage.step (h : Program.Stage A a x) {e : ProgramEvent} (ho : ProgramOk A x e)
    (hs : x.step A a e = some x') : Program.Stage A a x' := by
  cases e with
  | system e => exact h.system hs
  | isSendDone b => exact h.isSendDone hs
  | enter => exact h.enter hs
  | callInitialize b => exact h.callInitialize ho hs
  | sender e =>
    cases e with
    | earlier k f =>
      obtain ⟨s, hstep, rfl⟩ := Option.map_eq_some_iff.mp hs
      exact h.background (.inl ⟨k, f, rfl⟩) hstep
    | latest f =>
      obtain ⟨s, hstep, rfl⟩ := Option.map_eq_some_iff.mp hs
      exact h.background (.inr ⟨f, rfl⟩) hstep
    | callInitialize => cases hs
    | callSend p => cases hs
    | callEndSender => cases hs
    | write h' => cases hs
    | _ =>
      obtain ⟨s, hs, hf⟩ := Option.bind_eq_some_iff.mp hs
      exact h.inside rfl ho hs hf

theorem stage_of_runs {h : Heap} {es : List ProgramEvent} {p : Program}
    (hr : (program A a).Runs (ProgramOk A) (Program.construct h) es p) : Program.Stage A a p :=
  hr.keeps (Program.Stage A a) (stage_start h) fun _ _ _ hv ho hs => hv.step ho hs

/-- a `send` of `run` finds `is_done` set, in whatever lifetime of the sender -/
theorem program_send_alone {h : Heap} {es : List ProgramEvent} {p : Program}
    (hr : (program A a).Runs (ProgramOk A) (Program.construct h) es p) (hpc : p.system.pc = .send)
    (hu : p.sender.main.pc.unstored = true) : p.sender.data.isDone = true := by
  obtain ⟨y, hy⟩ := (stage_of_runs hr).session (by rw [hpc]; rfl)
  obtain ⟨r, h₀, so, err, l, hl⟩ := hy.reached
  have halone : Alone y := (Machine.runs_of_run hl).keeps Alone (alone_start r h₀ so err)
    fun _ _ _ hv _ hs => hv.step hs
  rw [hy.shows.main_eq (.inl hy.init)] at hu
  rw [(hy.shows.begun (by rw [hy.init]; nofun)).2]
  exact halone.send (hy.system ▸ hpc) hu

/-- **Inside a call the whole program is a system over one fresh session.**  Take a `RealTimeSystem`
and its `TCPSender` from their constructors on, any public calls and any interleaving with all the
workers ever created.  Whenever `send_before_run` or `run` is under way, the state is one that the
system reaches over a session just opened by a successful `initialize`, with the same object, the
same heap, the same worker and, but for the number of the worker, the same shared data: whatever the
earlier lifetimes, failed calls of `initialize` among them, have done, nothing of them is left. -/
theorem inside_is_run {h : Heap} {es : List ProgramEvent} {p : Program}
    (hr : (program A a).Runs (ProgramOk A) (Program.construct h) es p)
    (hpc : p.system.pc.isIdle = false) :
    ∃ r h₀ so err l y, (runSender A a).run (RunSender.start r h₀ so err) l = some y ∧
      p.system = y.system ∧ Shows p.sender y.session ∧ p.sender.init = none ∧
      p.sender.heap = y.session.heap ∧ p.sender.main = y.session.main ∧
      p.sender.latest = some y.session.worker ∧
      p.sender.data = y.session.data.lift p.sender.earlier.length := by
  obtain ⟨y, hy⟩ := (stage_of_runs hr).session hpc
  obtain ⟨r, h₀, so, err, l, hl⟩ := hy.reached
  have hworker := hy.shows.begun (by rw [hy.init]; nofun)
  exact ⟨r, h₀, so, err, l, y, hl, hy.system, hy.shows, hy.init, hy.shows.heap,
    hy.shows.main_eq (.inl hy.init), hworker⟩

instance (s : Lifetimes) (e : LifetimesEvent) : Decidable (s.Opens A e) :=
  inferInstanceAs
    (Decidable (∀ t ∈ s.step false A e, t.init = none → t.main.pc = .ready (some true)))

instance (x : Program) (e : ProgramEvent) : Decidable (ProgramOk A x e) :=
  match e with
  | .callInitialize _ => inferInstanceAs (Decidable (_ → _))
  | .sender _ => inferInstanceAs (Decidable (_ ∧ (_ → _ → _)))
  | .system _ | .isSendDone _ | .enter => .isTrue trivial

/-- `initialize` of the system, whose sender takes the steps `l` -/
def initializing (l : List LifetimesEvent) : List ProgramEvent :=
  .callInitialize answersOk :: (l.drop 1).map .sender

/-- the client is not accepted the first time; the second `initialize` succeeds, and `run` comes to
its first `send` -/
def secondAttempt : List ProgramEvent :=
  provide.map .system ++ initializing (initialized.take 15 ++ [.client (-1)]) ++
    initializing initialized ++
    [.system .run, .system (.startTimer none), .system .tau, .system .tau, .isSendDone true,
      .isSendDone true, .system (.userCall ⟨⟨0, false, 0⟩, [⟨.memoryLocation, 10, 1, 0⟩], false⟩),
      .enter]

theorem inside_is_run_second :
    ∃ p r h₀ so err l y, (program FastInts.lp64 ⟨1, 2⟩).run (Program.construct noMemory)
        secondAttempt = some p ∧ p.system.pc = .send ∧ p.system.errorHandler.isError = true ∧
      (runSender FastInts.lp64 ⟨1, 2⟩).run (RunSender.start r h₀ so err) l = some y ∧
      p.system = y.system ∧ p.sender.init = none ∧ p.sender.main = y.session.main ∧
      p.sender.latest = some y.session.worker := by
  have hrun : (((program FastInts.lp64 ⟨1, 2⟩).restrict (ProgramOk FastInts.lp64)).run
      (Program.construct noMemory) secondAttempt).map
        (fun p => (p.system.pc, p.system.errorHandler.isError)) = some (.send, true) := by
    decide +kernel
  obtain ⟨p, hp, he⟩ := Option.map_eq_some_iff.mp hrun
  obtain ⟨hpc, herr⟩ : p.system.pc = .send ∧ p.system.errorHandler.isError = true := by
    simpa using he
  have hr := Machine.Runs.of_restrict hp
  have hinside : p.system.pc.isIdle = false := by
    rw [hpc]
    rfl
  obtain ⟨r, h₀, so, err, l, y, hl, hsystem, -, hinit, -, hmain, hworker, -⟩ :=
    inside_is_run hr hinside
  exact ⟨p, r, h₀, so, err, l, y, hr.run_eq, hpc, herr, hl, hsystem, hinit, hmain, hworker⟩

end
end RealTimeTransfer
