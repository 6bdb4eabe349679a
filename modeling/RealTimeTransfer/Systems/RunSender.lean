import RealTimeTransfer.Senders.Copies
import RealTimeTransfer.Systems.RunTrace

/-!
# A system with a TCPSender

`RealTimeSystem` over a session of a `TCPSender`: the main thread runs the one and, inside the calls
of `send` and `end_sender`, the other; the worker goes at its own pace.  The lists that the system
hands over are local variables, so the worker finds them through the heap.

* `runSender A a`       the machine, with the addresses `a` of these variables;
* `Alone`               `run` calls `send` only with `is_done` set;
* `send_alone`          every `send` of `run` finds the worker without a list;
* `Linked`              what was accepted is what the normal calls returned;
* `copied_returned`     the worker copies these lists, if no skipped call replaces a pending one;
* `skipped_copied`      otherwise the list of a skipped call is sent.
-/

namespace RealTimeTransfer
open Machines Words

/-- the addresses of `list_of_data` and `user_packets_list` -/
structure Locals where
  listOfData : Ptr
  userPacketsList : Ptr

def Heap.assign (h : Heap) (p : Ptr) (l : DataPacketsList) : Heap :=
  { h with lists := Function.update h.lists p l }

/-- the assignments that a step of the system makes -/
def Locals.assign (a : Locals) (h : Heap) : SystemEvent → Heap
  | .sendBeforeRun l _ => h.assign a.listOfData l
  | .startTimer none => h.assign a.userPacketsList []
  | .userCall c => h.assign a.userPacketsList c.list
  | _ => h

/-- the call of the sender that is due -/
def SystemPc.callee (a : Locals) : SystemPc → Option SessionEvent
  | .beforeSend => some (.callSend a.listOfData)
  | .send => some (.callSend a.userPacketsList)
  | .beforeEnd | .ending _ => some .callEndSender
  | _ => none

/-- a step of the system without the sender -/
def SystemEvent.isLocal : SystemEvent → Bool
  | .callInitialize _ | .isSendDone _ | .send _ _ | .endSender => false
  | _ => true

structure RunSender where
  system : RealTimeSystem
  session : Session
  /-- the lists of the normal calls whose `send` returned true -/
  returned : List DataPacketsList := []

inductive RunSenderEvent where
  | system (e : SystemEvent)
  | isSendDone (b : Bool)
  | enter
  | main
  | worker (e : WorkerEvent)
  deriving DecidableEq

namespace RunSender

/-- what the call that returned `r` is to the system -/
def result (s : RealTimeSystem) (r : Option Bool) (msg : String) : SystemEvent :=
  let answer := if r = some true then none else some msg
  match s.pc with
  | .beforeSend => .send s.listOfData answer
  | .send => .send s.userPacketsList answer
  | _ => .endSender

/-- the call has come to `s`; where it has returned, the system goes on, and `run` takes the text
of a `send` that returned false -/
def finishOf (zc : Bool) (A : FastInts) (x : RunSender) (s : Session) : Option RunSender :=
  match s.main.pc with
  | .ready r =>
    let msg := s.main.errorHandler.getError
    (x.system.step A (result x.system r msg)).bind fun y =>
      if x.system.pc ≠ .send then some { x with system := y, session := s }
      else if r = some true then
        some ⟨y, s, x.returned ++ [x.system.userPacketsList]⟩
      else (s.step zc A (.getError msg)).map fun s' => { x with system := y, session := s' }
  | _ => some { x with session := s }

/-- a step of the system with a `TCPSender` or, where `zc`, a `TCPSenderZC` -/
def stepOf (zc : Bool) (A : FastInts) (a : Locals) (x : RunSender) :
    RunSenderEvent → Option RunSender
  | .system e =>
    if e.isLocal then
      (x.system.step A e).bind fun y =>
        (x.session.step zc A (.write (a.assign x.session.heap e))).map fun s =>
          { x with system := y, session := s }
    else none
  | .isSendDone b =>
    (x.system.step A (.isSendDone b)).bind fun y =>
      (x.session.step zc A (.isSendDone b)).map fun s => { x with system := y, session := s }
  | .enter =>
    (x.system.pc.callee a).bind fun e =>
      (x.session.step zc A e).map fun s => { x with session := s }
  | .main => (x.session.step zc A .main).bind (x.finishOf zc A)
  | .worker e => (x.session.step zc A (.worker e)).map fun s => { x with session := s }

def finish (A : FastInts) (x : RunSender) (s : Session) : Option RunSender :=
  x.finishOf false A s

def step (A : FastInts) (a : Locals) (x : RunSender) (e : RunSenderEvent) : Option RunSender :=
  x.stepOf false A a e

/-- `initialize` has returned true -/
def start (s : RealTimeSystem) (h : Heap) (so : Sockets) (err : Error) : RunSender :=
  { system := { s with initialized := true, pc := .idle (some true) }
    session := Session.start h so err }

/-- `run` is past its check -/
def entered (s : RealTimeSystem) (h : Heap) (so : Sockets) (err : Error) : RunSender :=
  { system := { s with initialized := false, pc := .startTimer }
    session := Session.start h so err }

end RunSender

def runSender (A : FastInts) (a : Locals) : Machine RunSender RunSenderEvent :=
  ⟨RunSender.step A a⟩

/-! ## The steps -/

section
variable {A : FastInts} {a : Locals} {s t : RealTimeSystem} {e : SystemEvent}

/-- how `run` comes to its last test of `is_send_done`, to a normal call and to a `send` -/
theorem RealTimeSystem.Moves.into (h : s.Moves A e t) :
    (t.pc = .skipTest → ∃ b, e = .isSendDone b ∧ (b = true ∨ s.allowSkipMode = true)) ∧
      (t.pc = .normalCall →
        s.pc = .skipTest ∧ ∃ b, e = .isSendDone b ∧ (b = true ∨ s.allowSkipMode = false)) ∧
      (t.pc = .send → s.pc = .normalCall ∧ ∃ c, e = .userCall c ∧ t.userPacketsList = c.list) := by
  cases h
  case polled b _ => cases b <;> exact ⟨nofun, nofun, nofun⟩
  case tolerated b _ => cases b <;> exact ⟨nofun, nofun, nofun⟩
  case tested b _ hb => exact ⟨fun _ => ⟨b, rfl, hb⟩, nofun, nofun⟩
  case keeping b hpc hb => exact ⟨nofun, fun _ => ⟨hpc, b, rfl, hb⟩, nofun⟩
  case called c hpc _ =>
    refine ⟨?_, ?_, fun _ => ⟨hpc, c, rfl, rfl⟩⟩
    · show (if c.stop then SystemPc.ending true else .send) = .skipTest → _
      cases c.stop <;> nofun
    · show (if c.stop then SystemPc.ending true else .send) = .normalCall → _
      cases c.stop <;> nofun
  all_goals exact ⟨nofun, nofun, nofun⟩

end

namespace RunSender
variable {A : FastInts} {a : Locals} {x x' : RunSender}

theorem step_system {e : SystemEvent} (hs : x.step A a (.system e) = some x') :
    e.isLocal = true ∧ ∃ y, x.system.step A e = some y ∧ x.session.main.pc.isReady = true ∧
      x.session.step false A (.write (a.assign x.session.heap e))
        = some { x.session with heap := a.assign x.session.heap e } ∧
      x' = { x with
        system := y
        session := { x.session with heap := a.assign x.session.heap e } } := by
  obtain ⟨hl, hs⟩ := Option.ite_none_right_eq_some.mp hs
  obtain ⟨y, hy, hs⟩ := Option.bind_eq_some_iff.mp hs
  obtain ⟨s, hsess, rfl⟩ := Option.map_eq_some_iff.mp hs
  obtain ⟨hr, rfl⟩ := Option.ite_some_none_eq_some.mp hsess
  exact ⟨hl, y, hy, hr, hsess, rfl⟩

theorem step_isSendDone {b : Bool} (hs : x.step A a (.isSendDone b) = some x') :
    ∃ y, x.system.step A (.isSendDone b) = some y ∧ x.session.main.pc.isReady = true ∧
      b = x.session.data.isDone ∧ x.session.step false A (.isSendDone b) = some x.session ∧
      x' = { x with system := y } := by
  obtain ⟨y, hy, hs⟩ := Option.bind_eq_some_iff.mp hs
  obtain ⟨s, hsess, rfl⟩ := Option.map_eq_some_iff.mp hs
  obtain ⟨⟨hr, hb⟩, rfl⟩ := Option.ite_some_none_eq_some.mp hsess
  exact ⟨y, hy, hr, hb, hsess, rfl⟩

theorem step_main (hs : x.step A a .main = some x') :
    ∃ d m, x.session.main.step false x.session.data = some (d, m) ∧
      x.session.step false A .main = some { x.session.noteMain with data := d, main := m } ∧
      x.finish A { x.session.noteMain with data := d, main := m } = some x' := by
  obtain ⟨s, hsess, hf⟩ := Option.bind_eq_some_iff.mp hs
  obtain ⟨⟨d, m⟩, hm, rfl⟩ := Option.map_eq_some_iff.mp hsess
  exact ⟨d, m, hm, hsess, hf⟩

theorem step_worker {e : WorkerEvent} (hs : x.step A a (.worker e) = some x') :
    ∃ d w, x.session.worker.step false A 0 x.session.heap x.session.data e = some (d, w) ∧
      x.session.step false A (.worker e)
        = some { x.session.noteWorker e with data := d, worker := w } ∧
      x' = { x with session := { x.session.noteWorker e with data := d, worker := w } } := by
  obtain ⟨s, hsess, rfl⟩ := Option.map_eq_some_iff.mp hs
  obtain ⟨⟨d, w⟩, hw, rfl⟩ := Option.map_eq_some_iff.mp hsess
  exact ⟨d, w, hw, hsess, rfl⟩

end RunSender

/-- the points of a `send` up to its stores -/
def SenderPc.unstored : SenderPc → Bool
  | .ready _ | .sendInit _ | .sendTermTest _ | .sendErrorTest | .sendErrorCode | .sendDoneTest _
  | .sendLock _ | .sendStore _ => true
  | _ => false

theorem SenderPc.unstored_of_ready {pc : SenderPc} (h : pc.isReady = true) :
    pc.unstored = true := by
  cases pc <;> first | rfl | cases h

/-- `run` keeps to itself: where it will call `send`, `is_done` is set -/
structure Alone (x : RunSender) : Prop where
  inv : x.session.Inv
  inside : x.session.main.pc.isReady = false →
    (x.session.main.pc.ending = false ∧ (x.system.pc = .send ∨ x.system.pc = .beforeSend)) ∨
      (x.session.main.pc.ending = true ∧ (x.system.pc = .beforeEnd ∨ ∃ r, x.system.pc = .ending r))
  skipTest : x.system.pc = .skipTest → x.system.allowSkipMode = false → x.session.data.isDone = true
  normalCall : x.system.pc = .normalCall → x.session.data.isDone = true
  send : x.system.pc = .send → x.session.main.pc.unstored = true → x.session.data.isDone = true

section
variable {A : FastInts} {a : Locals} {x x' : RunSender} {y : RealTimeSystem} {s : Session}

theorem Advance.ending_eq {d d' : SenderWorkerData} {pc pc' : SenderPc} (h : Advance d pc d' pc')
    (hr : pc'.isReady = false) : pc'.ending = pc.ending := by
  cases h <;> first | rfl | cases hr

theorem Advance.unstored_of {d d' : SenderWorkerData} {pc pc' : SenderPc} (h : Advance d pc d' pc')
    (hr : pc'.isReady = false) (hu : pc'.unstored = true) :
    pc.unstored = true ∧ d'.isDone = d.isDone := by
  cases h <;> first | exact ⟨rfl, rfl⟩ | (cases hr; done) | cases hu

theorem alone_start (r : RealTimeSystem) (h : Heap) (so : Sockets) (err : Error) :
    Alone (RunSender.start r h so err) :=
  ⟨Session.inv_start h so err, nofun, nofun, nofun, nofun⟩

theorem alone_entered (r : RealTimeSystem) (h : Heap) (so : Sockets) (err : Error) :
    Alone (RunSender.entered r h so err) :=
  ⟨Session.inv_start h so err, nofun, nofun, nofun, nofun⟩

theorem Alone.system (h : Alone x) {e : SystemEvent} (hs : x.system.step A e = some y)
    (hinv : s.Inv) (hr : s.main.pc.isReady = true)
    (hd : (∃ b, e = .isSendDone b) ∨ (∃ c, e = .userCall c) →
      s.data.isDone = x.session.data.isDone)
    (hread : ∀ b, e = .isSendDone b → b = x.session.data.isDone) (l : List DataPacketsList) :
    Alone ⟨y, s, l⟩ := by
  refine ⟨hinv, fun hn => ?_, fun hpc ha => ?_, fun hpc => ?_, fun hpc _ => ?_⟩
  · exact absurd (hr.symm.trans hn) nofun
  · have moves := RealTimeSystem.moves_of_inLoop hs (by rw [show y.pc = _ from hpc]; rfl)
    obtain ⟨b, rfl, hb⟩ := moves.into.1 hpc
    rw [show y.allowSkipMode = x.system.allowSkipMode from moves.settings.2.2.2.1] at ha
    rcases hb with rfl | hb
    · exact (hd (.inl ⟨true, rfl⟩)).trans (hread true rfl).symm
    · rw [ha] at hb
      cases hb
  · have moves := RealTimeSystem.moves_of_inLoop hs (by rw [show y.pc = _ from hpc]; rfl)
    obtain ⟨hpc', b, rfl, hb⟩ := moves.into.2.1 hpc
    rcases hb with rfl | hb
    · exact (hd (.inl ⟨true, rfl⟩)).trans (hread true rfl).symm
    · exact (hd (.inl ⟨b, rfl⟩)).trans (h.skipTest hpc' hb)
  · have moves := RealTimeSystem.moves_of_inLoop hs (by rw [show y.pc = _ from hpc]; rfl)
    obtain ⟨hpc', c, rfl, -⟩ := moves.into.2.2 hpc
    exact (hd (.inr ⟨c, rfl⟩)).trans (h.normalCall hpc')

/-- what the system is told is a `send` or the end of `end_sender` -/
theorem RunSender.result_cases (r : RealTimeSystem) (v : Option Bool) (msg : String) :
    (∃ l an, RunSender.result r v msg = .send l an) ∨ RunSender.result r v msg = .endSender := by
  unfold RunSender.result
  cases r.pc <;> first | exact .inl ⟨_, _, rfl⟩ | exact .inr rfl

theorem SystemPc.callee_cases {pc : SystemPc} {f : SessionEvent} (hf : pc.callee a = some f) :
    (∃ p, f = .callSend p ∧
        ((pc = .send ∧ p = a.userPacketsList) ∨ (pc = .beforeSend ∧ p = a.listOfData))) ∨
      ((pc = .beforeEnd ∨ ∃ r, pc = .ending r) ∧ f = .callEndSender) := by
  cases pc <;> cases hf
  case beforeSend => exact .inl ⟨_, rfl, .inr ⟨rfl, rfl⟩⟩
  case send => exact .inl ⟨_, rfl, .inl ⟨rfl, rfl⟩⟩
  case beforeEnd => exact .inr ⟨.inl rfl, rfl⟩
  case ending r => exact .inr ⟨.inr ⟨r, rfl⟩, rfl⟩

theorem RunSender.step_enter (hs : x.step A a .enter = some x') :
    (∃ p, ((x.system.pc = .send ∧ p = a.userPacketsList) ∨
          (x.system.pc = .beforeSend ∧ p = a.listOfData)) ∧ x.session.main.pc.isReady = true ∧
        x.session.step false A (.callSend p)
          = some { x.session with main := x.session.main.goto (.sendInit p) } ∧
        x' = { x with session := { x.session with main := x.session.main.goto (.sendInit p) } }) ∨
      ((x.system.pc = .beforeEnd ∨ ∃ r, x.system.pc = .ending r) ∧
        x.session.main.pc.isReady = true ∧ x.session.step false A .callEndSender
          = some { x.session with main := x.session.main.goto .endMark } ∧
        x' = { x with session := { x.session with main := x.session.main.goto .endMark } }) := by
  obtain ⟨f, hf, hs⟩ := Option.bind_eq_some_iff.mp hs
  obtain ⟨s, hsess, rfl⟩ := Option.map_eq_some_iff.mp hs
  rcases SystemPc.callee_cases hf with ⟨p, rfl, hp⟩ | ⟨hpc, rfl⟩
  · obtain ⟨m, hm, rfl⟩ := Option.map_eq_some_iff.mp hsess
    obtain ⟨hr, rfl⟩ := Sender.callSend_eq hm
    exact .inl ⟨p, hp, hr, hsess, rfl⟩
  · obtain ⟨m, hm, rfl⟩ := Option.map_eq_some_iff.mp hsess
    obtain ⟨hr, rfl⟩ := Sender.callEndSender_eq hm
    exact .inr ⟨hpc, hr, hsess, rfl⟩

theorem RunSender.finish_cases (hf : x.finish A s = some x') :
    (s.main.pc.isReady = false ∧ x' = { x with session := s }) ∨
      ∃ r y s', s.main.pc = .ready r ∧
        x.system.step A (RunSender.result x.system r s.main.errorHandler.getError) = some y ∧
        s'.main.pc = s.main.pc ∧ s'.accepted = s.accepted ∧
        (s' = s ∨ ∃ msg, s.step false A (.getError msg) = some s') ∧
        ((x.system.pc = .send ∧ r = some true ∧
            x' = ⟨y, s', x.returned ++ [x.system.userPacketsList]⟩) ∨
          (¬ (x.system.pc = .send ∧ r = some true) ∧ x' = ⟨y, s', x.returned⟩)) := by
  unfold RunSender.finish RunSender.finishOf at hf
  split at hf
  case h_1 r hr =>
    obtain ⟨y, hy, hf⟩ := Option.bind_eq_some_iff.mp hf
    refine .inr ?_
    by_cases hpc : x.system.pc ≠ .send
    · rw [if_pos hpc] at hf
      cases hf
      exact ⟨r, y, s, hr, hy, rfl, rfl, .inl rfl, .inr ⟨fun hb => hpc hb.1, rfl⟩⟩
    · rw [if_neg hpc] at hf
      have hpc' : x.system.pc = .send := not_not.mp hpc
      by_cases hv : r = some true
      · rw [if_pos hv] at hf
        cases hf
        exact ⟨r, y, s, hr, hy, rfl, rfl, .inl rfl, .inl ⟨hpc', hv, rfl⟩⟩
      · rw [if_neg hv] at hf
        obtain ⟨s', hs', rfl⟩ := Option.map_eq_some_iff.mp hf
        obtain ⟨-, he⟩ := Option.ite_some_none_eq_some.mp hs'
        refine ⟨r, y, s', hr, hy, ?_, ?_, .inr ⟨_, hs'⟩, .inr ⟨fun hb => hv hb.2, rfl⟩⟩
        · rw [← he]
        · rw [← he]
  case h_2 hr =>
    cases hf
    refine .inl ⟨?_, rfl⟩
    cases hp : s.main.pc with
    | ready r => exact absurd hp (hr r)
    | _ => rfl

/-- **Every step keeps `run` alone.** -/
theorem Alone.step (h : Alone x) {e : RunSenderEvent} (hs : x.step A a e = some x') : Alone x' := by
  cases e with
  | system e =>
    obtain ⟨hl, y, hy, hr, hsess, rfl⟩ := RunSender.step_system hs
    refine h.system hy (h.inv.step hsess) hr (fun _ => rfl) (fun b hb => ?_) x.returned
    rw [hb] at hl
    cases hl
  | isSendDone b =>
    obtain ⟨y, hy, hr, hb, -, rfl⟩ := RunSender.step_isSendDone hs
    refine h.system hy h.inv hr (fun _ => rfl) (fun b' hb' => ?_) x.returned
    cases hb'
    exact hb
  | enter =>
    rcases RunSender.step_enter hs with ⟨p, hp, hr, hsess, rfl⟩ | ⟨hpc, -, hsess, rfl⟩
    · have hpc : x.system.pc = .send ∨ x.system.pc = .beforeSend := hp.imp And.left And.left
      refine ⟨h.inv.step hsess, fun _ => .inl ⟨rfl, hpc⟩, h.skipTest, h.normalCall,
        fun hpc' _ => ?_⟩
      exact h.send hpc' (SenderPc.unstored_of_ready hr)
    · exact ⟨h.inv.step hsess, fun _ => .inr ⟨rfl, hpc⟩, h.skipTest, h.normalCall, nofun⟩
  | main =>
    obtain ⟨d, m, hm, hsess, hf⟩ := RunSender.step_main hs
    have hinv := h.inv.step hsess
    have adv := Sender.step_advance hm
    rcases RunSender.finish_cases hf with ⟨hr, rfl⟩ | ⟨r, y, s', hr, hy, h1, -, hget, hx⟩
    · have hin := h.inside adv.not_ready
      refine ⟨hinv, fun _ => ?_, fun hpc _ => ?_, fun hpc => ?_, fun hpc hu => ?_⟩
      · show (m.pc.ending = false ∧ _) ∨ (m.pc.ending = true ∧ _)
        rw [adv.ending_eq hr]
        exact hin
      · rw [show x.system.pc = _ from hpc] at hin
        rcases hin with ⟨-, hp | hp⟩ | ⟨-, hp | ⟨r, hp⟩⟩ <;> cases hp
      · rw [show x.system.pc = _ from hpc] at hin
        rcases hin with ⟨-, hp | hp⟩ | ⟨-, hp | ⟨r, hp⟩⟩ <;> cases hp
      · obtain ⟨hu', hd⟩ := adv.unstored_of hr hu
        exact hd.trans (h.send hpc hu')
    · have hinv' : s'.Inv := by
        rcases hget with rfl | ⟨msg, hget⟩
        · exact hinv
        · exact hinv.step hget
      have hready : s'.main.pc.isReady = true := by
        rw [h1, hr]
        rfl
      have hnone : ∀ {P : Prop} (f : SystemEvent), RunSender.result x.system r
          ({ x.session.noteMain with data := d, main := m } : Session).main.errorHandler.getError
            = f →
            (∃ b, f = .isSendDone b) ∨ (∃ c, f = .userCall c) → P := by
        rintro P f rfl hbad
        rcases RunSender.result_cases x.system r _ with ⟨l, an, hl⟩ | hl <;> rw [hl] at hbad <;>
          rcases hbad with ⟨_, hb⟩ | ⟨_, hb⟩ <;> cases hb
      rcases hx with ⟨-, -, rfl⟩ | ⟨-, rfl⟩
      · exact h.system hy hinv' hready (hnone _ rfl) (fun b hb => hnone _ rfl (.inl ⟨b, hb⟩)) _
      · exact h.system hy hinv' hready (hnone _ rfl) (fun b hb => hnone _ rfl (.inl ⟨b, hb⟩)) _
  | worker e =>
    obtain ⟨d, w, hw, hsess, rfl⟩ := RunSender.step_worker hs
    have keeps : x.session.data.isDone = true → d.isDone = true :=
      (Worker.step_handshake h.inv.sane hw).2.isDone_of
    exact ⟨h.inv.step hsess, h.inside, fun hpc ha => keeps (h.skipTest hpc ha),
      fun hpc => keeps (h.normalCall hpc), fun hpc hu => keeps (h.send hpc hu)⟩

/-- **`run` never overlaps two sends.**  Whenever `run` is about to call `send`, with or without
calls of `send_before_run` before, `is_done` is set and the worker has no list; so the test of
`send` for a send under way is passed. -/
theorem send_alone {r : RealTimeSystem} {h : Heap} {so : Sockets} {err : Error}
    {es : List RunSenderEvent} (hr : (runSender A a).run (RunSender.start r h so err) es = some x)
    (hpc : x.system.pc = .send) :
    (x.session.main.pc.isReady = true → x.session.data.isDone = true ∧
        x.session.data.packetsList = none ∧ x.session.worker.phase.inList = false) ∧
      ∀ p, x.session.main.pc = .sendDoneTest p → ∃ m,
        x.session.main.step false x.session.data = some (x.session.data, m) ∧
          m.pc = .sendLock p := by
  have hx : Alone x := (Machine.runs_of_run hr).keeps Alone (alone_start r h so err)
    fun _ _ _ hv _ hs => hv.step hs
  refine ⟨fun hready => ?_, fun p hp => ?_⟩
  · have hd := hx.send hpc (SenderPc.unstored_of_ready hready)
    exact ⟨hd, hx.inv.control.handOk.done hd⟩
  · have hd := hx.send hpc (by rw [hp]; rfl)
    refine ⟨x.session.main.goto (.sendLock p), ?_, rfl⟩
    unfold Sender.step
    rw [hp, hd]
    rfl

end

/-! ## What the worker copies -/

/-- the condition of a step of the system inside `run` -/
def RunSender.InRun (x : RunSender) : RunSenderEvent → Prop
  | .system _ => x.system.pc.isIdle = false
  | _ => True

instance (x : RunSender) (e : RunSenderEvent) : Decidable (x.InRun e) :=
  match e with
  | .system _ => inferInstanceAs (Decidable (_ = _))
  | .isSendDone _ | .enter | .main | .worker _ => .isTrue trivial

/-- one `run` with its sender, the worker until its end -/
def runLoop (A : FastInts) (a : Locals) : Machine RunSender RunSenderEvent :=
  (runSender A a).restrict RunSender.InRun

/-- the condition: a skipped call that returns while a list is pending returns that list -/
def SkipOk (a : Locals) (x : RunSender) : RunSenderEvent → Prop
  | .system (.userCall c) => x.system.pc = .skipCall → x.session.data.packetsList ≠ none →
      c.list = x.session.heap.lists a.userPacketsList
  | _ => True

instance (a : Locals) (x : RunSender) (e : RunSenderEvent) : Decidable (SkipOk a x e) :=
  match e with
  | .system (.userCall _) => inferInstanceAs (Decidable (_ → _ → _))
  | .system (.setTimer _) | .system (.setSender _) | .system (.setUserDataFn _)
  | .system (.setFrequency _) | .system (.setMsTolerance _) | .system (.skipMode _)
  | .system (.callInitialize _) | .system (.sendBeforeRun _ _) | .system .run | .system .tau
  | .system (.sleepMs _) | .system (.sleepUs _) | .system (.startTimer _) | .system (.isSendDone _)
  | .system (.send _ _) | .system (.tick _) | .system .endSender
  | .isSendDone _ | .enter | .main | .worker _ => .isTrue trivial

/-- the accepted lists of the session are those of the normal calls -/
structure Linked (a : Locals) (x : RunSender) : Prop where
  alone : Alone x
  inRun : x.system.pc.inLoop = true ∨ x.system.pc = .startTimer ∨ ∃ r, x.system.pc = .idle r
  starting : x.system.pc = .startTimer → x.session.data.packetsList = none
  argument : ∀ p, x.session.main.pc.argument = some p → p = a.userPacketsList
  list : x.system.pc = .send → x.session.heap.lists a.userPacketsList = x.system.userPacketsList
  accepted : x.session.accepted = x.returned

section
variable {A : FastInts} {a : Locals} {x x' : RunSender} {y : RealTimeSystem} {s : Session}
  {e : SystemEvent}

theorem linked_entered (r : RealTimeSystem) (h : Heap) (so : Sockets) (err : Error) :
    Linked a (RunSender.entered r h so err) :=
  ⟨alone_entered r h so err, .inr (.inl rfl), fun _ => rfl, nofun, nofun, rfl⟩

theorem Linked.inRun_step (h : Linked a x) (hs : x.system.step A e = some y)
    (hidle : ∀ r, x.system.pc ≠ .idle r) : y.pc.inLoop = true ∨ ∃ r, y.pc = .idle r := by
  rcases h.inRun with hin | hpc | ⟨r, hpc⟩
  · rcases ((RealTimeSystem.step_moves hidle hs).turn hin).inLoop with hy | ⟨r, hy⟩
    · exact .inl hy
    · exact .inr ⟨some r, hy⟩
  · rcases RealTimeSystem.step_startTimer hs hpc with ⟨-, hy⟩ | ⟨-, -, hy⟩
    · exact .inl (by rw [hy]; rfl)
    · exact .inr ⟨some false, hy⟩
  · exact absurd hpc (hidle r)

theorem Linked.pendingOk (h : Linked a x) (hs : x.system.step A e = some y)
    (hidle : ∀ r, x.system.pc ≠ .idle r) (ho : SkipOk a x (.system e)) :
    PendingOk x.session (.write (a.assign x.session.heap e)) := by
  intro p hp
  have moves := RealTimeSystem.step_moves hidle hs
  have assign : ∀ c : UserCall, e = .userCall c → x.system.pc = .skipCall →
      (x.session.heap.assign a.userPacketsList c.list).lists p = x.session.heap.lists p := by
    rintro c rfl hpc
    have heq : c.list = x.session.heap.lists a.userPacketsList := ho hpc (by rw [hp]; nofun)
    show Function.update x.session.heap.lists a.userPacketsList c.list p = _
    rw [heq, Function.update_eq_self]
  cases moves
  case started hpc =>
    rw [h.starting hpc] at hp
    cases hp
  case skipStopped c hpc _ _ => exact assign c rfl hpc
  case skipped c hpc _ _ => exact assign c rfl hpc
  case called c hpc _ =>
    have hnone := (h.alone.inv.control.handOk.done (h.alone.normalCall hpc)).1
    rw [hnone] at hp
    cases hp
  all_goals rfl

theorem Linked.system (h : Linked a x) (hs : x.system.step A e = some y)
    (hidle : ∀ r, x.system.pc ≠ .idle r) (halone : Alone ⟨y, s, x.returned⟩)
    (hm : s.main.pc = x.session.main.pc) (hacc : s.accepted = x.session.accepted)
    (hheap : ∀ c, e = .userCall c → s.heap.lists a.userPacketsList = c.list) :
    Linked a ⟨y, s, x.returned⟩ := by
  have hin := h.inRun_step hs hidle
  refine ⟨halone, ?_, fun hpc => ?_, fun p hp => h.argument p (hm ▸ hp), fun hpc => ?_,
    hacc.trans h.accepted⟩
  · rcases hin with hin | hin
    · exact .inl hin
    · exact .inr (.inr hin)
  · rw [show y.pc = _ from hpc] at hin
    rcases hin with hin | ⟨r, hr⟩
    · cases hin
    · cases hr
  · obtain ⟨-, c, he, hc⟩ := (RealTimeSystem.step_moves hidle hs).into.2.2 hpc
    exact (hheap c he).trans hc.symm

theorem Linked.not_before (h : Linked a x) : x.system.pc ≠ .beforeSend := by
  intro hb
  have hin := h.inRun
  rw [hb] at hin
  rcases hin with hp | hp | ⟨r, hp⟩ <;> cases hp

theorem Linked.returns (h : Linked a x) {d : SenderWorkerData} {m : Sender} {s' : Session}
    {r : Option Bool} (hm : x.session.main.step false x.session.data = some (d, m))
    (hr : m.pc = .ready r) {l : List DataPacketsList}
    (hacc : s'.accepted = x.session.noteMain.accepted)
    (hl : (x.system.pc = .send ∧ r = some true ∧ l = x.returned ++ [x.system.userPacketsList]) ∨
      (¬ (x.system.pc = .send ∧ r = some true) ∧ l = x.returned)) : s'.accepted = l := by
  have adv := Sender.step_advance hm
  have hin := h.alone.inside adv.not_ready
  by_cases hpc : ∃ p, x.session.main.pc = .sendUnlock p
  · obtain ⟨p, hpc⟩ := hpc
    have hp : p = a.userPacketsList := h.argument p (by rw [hpc]; rfl)
    have hsend : x.system.pc = .send := by
      rw [hpc] at hin
      rcases hin with ⟨-, hs | hs⟩ | ⟨he, -⟩
      · exact hs
      · exact absurd hs h.not_before
      · cases he
    have hv : r = some true := by
      rw [hpc] at adv
      exact SenderPc.ready.inj (hr.symm.trans adv.of_sendUnlock)
    rcases hl with ⟨-, -, rfl⟩ | ⟨hn, -⟩
    · rw [hacc, Session.noteMain_unlock hpc, hp]
      show x.session.accepted ++ [x.session.heap.lists a.userPacketsList] = _
      rw [h.list hsend, h.accepted]
    · exact absurd ⟨hsend, hv⟩ hn
  · have hne : ∀ p, x.session.main.pc ≠ .sendUnlock p := fun p hp => hpc ⟨p, hp⟩
    rw [hacc, Session.noteMain_eq hne, h.accepted]
    rcases hl with ⟨hsend, rfl, -⟩ | ⟨-, rfl⟩
    · exfalso
      rw [hr] at adv
      rcases adv.of_true with hp | hp
      · exact hpc hp
      · rw [hp, hsend] at hin
        rcases hin with ⟨he, -⟩ | ⟨-, hs | ⟨v, hs⟩⟩
        · cases he
        · cases hs
        · cases hs
    · rfl

/-- **Every step of the loop that meets the condition keeps the link.** -/
theorem Linked.step (h : Linked a x) {e : RunSenderEvent} (ho : SkipOk a x e)
    (hs : (runLoop A a).step x e = some x') : Linked a x' := by
  obtain ⟨hrun, hs⟩ := Option.ite_none_right_eq_some.mp hs
  change x.step A a e = some x' at hs
  have halone : Alone x' := h.alone.step hs
  cases e with
  | system e =>
    have hidle : ∀ r, x.system.pc ≠ .idle r := SystemPc.ne_idle hrun
    obtain ⟨-, y, hy, -, -, rfl⟩ := RunSender.step_system hs
    refine h.system hy hidle halone rfl rfl ?_
    rintro c rfl
    exact Function.update_self ..
  | isSendDone b =>
    obtain ⟨y, hy, -, -, -, rfl⟩ := RunSender.step_isSendDone hs
    exact h.system hy (RealTimeSystem.inside_of_step hy rfl) halone rfl rfl nofun
  | enter =>
    rcases RunSender.step_enter hs with ⟨p, hp, -, -, rfl⟩ | ⟨-, -, -, rfl⟩
    · obtain ⟨-, hp⟩ := hp.resolve_right fun hb => h.not_before hb.1
      refine ⟨halone, h.inRun, h.starting, fun q hq => ?_, h.list, h.accepted⟩
      exact (Option.some.inj hq).symm.trans hp
    · exact ⟨halone, h.inRun, h.starting, nofun, h.list, h.accepted⟩
  | main =>
    obtain ⟨d, m, hm, -, hf⟩ := RunSender.step_main hs
    have adv := Sender.step_advance hm
    have hin := h.alone.inside adv.not_ready
    have hpc : ∀ pc, x.system.pc = pc → pc ≠ .startTimer ∧ ∀ r, pc ≠ .idle r := by
      rintro pc rfl
      rcases hin with ⟨-, hp | hp⟩ | ⟨-, hp | ⟨r, hp⟩⟩ <;> rw [hp] <;> exact ⟨nofun, nofun⟩
    obtain ⟨hstart, hidle⟩ := hpc _ rfl
    rcases RunSender.finish_cases hf with ⟨hr, rfl⟩ | ⟨r, y, s', hr, hy, h1, hacc, -, hx⟩
    · have hne : ∀ p, x.session.main.pc ≠ .sendUnlock p := by
        intro p hp
        rw [hp] at adv
        rw [show m.pc = _ from adv.of_sendUnlock] at hr
        cases hr
      rw [Session.noteMain_eq hne]
      rw [Session.noteMain_eq hne] at halone
      exact ⟨halone, h.inRun, fun hp => absurd hp hstart,
        fun p hp => h.argument p (adv.argument_eq hp), h.list, h.accepted⟩
    · have hmain : s'.main.pc.argument = none := by
        rw [h1, hr]
        rfl
      have hy' := h.inRun_step hy hidle
      have hx' : ∃ l, x' = ⟨y, s', l⟩ ∧
          ((x.system.pc = .send ∧ r = some true ∧ l = x.returned ++ [x.system.userPacketsList]) ∨
            (¬ (x.system.pc = .send ∧ r = some true) ∧ l = x.returned)) := by
        rcases hx with ⟨hsend, hv, rfl⟩ | ⟨hn, rfl⟩
        · exact ⟨_, rfl, .inl ⟨hsend, hv, rfl⟩⟩
        · exact ⟨_, rfl, .inr ⟨hn, rfl⟩⟩
      obtain ⟨l, rfl, hl⟩ := hx'
      refine ⟨halone, ?_, fun hp => ?_, fun p hp => ?_, fun hp => ?_, h.returns hm hr hacc hl⟩
      · rcases hy' with hy' | hy'
        · exact .inl hy'
        · exact .inr (.inr hy')
      · rw [show y.pc = _ from hp] at hy'
        rcases hy' with hy' | ⟨r, hy'⟩ <;> cases hy'
      · rw [show (RunSender.mk y s' l).session.main.pc.argument = none from hmain] at hp
        cases hp
      · obtain ⟨-, c, he, -⟩ := (RealTimeSystem.step_moves hidle hy).into.2.2 hp
        rcases RunSender.result_cases x.system r _ with ⟨l, an, hl⟩ | hl
          <;> rw [hl] at he <;> cases he
  | worker e =>
    obtain ⟨d, w, hw, -, rfl⟩ := RunSender.step_worker hs
    have shake := (Worker.step_handshake h.alone.inv.sane hw).2
    exact ⟨halone, h.inRun, fun hpc => shake.packetsList_none (h.starting hpc), h.argument, h.list,
      h.accepted⟩

end

section
variable {A : FastInts} {a : Locals} {x x' : RunSender}

/-- what a caller of the session promises nothing of -/
def SessionEvent.isFree : SessionEvent → Bool
  | .callSend _ | .write _ => false
  | _ => true

/-- **A step of the system is at most two of the session**, a call of `send` and an assignment being
the ones that may need a promise. -/
theorem session_runs {ok : Session → SessionEvent → Prop} {e : RunSenderEvent}
    (hs : x.step A a e = some x') (hfree : ∀ s f, f.isFree = true → ok s f)
    (hsend : ∀ p, (x.system.pc = .send ∧ p = a.userPacketsList) ∨
      (x.system.pc = .beforeSend ∧ p = a.listOfData) → ok x.session (.callSend p))
    (hassign : ∀ f y, e = .system f → x.system.step A f = some y →
      ok x.session (.write (a.assign x.session.heap f))) :
    ∃ l, (session false A).Runs ok x.session l x'.session := by
  cases e with
  | system f =>
    obtain ⟨-, y, hy, -, hsess, rfl⟩ := RunSender.step_system hs
    exact ⟨_, .single (hassign f y rfl hy) hsess⟩
  | isSendDone b =>
    obtain ⟨y, -, -, -, hsess, rfl⟩ := RunSender.step_isSendDone hs
    exact ⟨[.isSendDone b], .single (hfree _ _ rfl) hsess⟩
  | enter =>
    rcases RunSender.step_enter hs with ⟨p, hp, -, hsess, rfl⟩ | ⟨-, -, hsess, rfl⟩
    · exact ⟨[.callSend p], .single (hsend p hp) hsess⟩
    · exact ⟨[.callEndSender], .single (hfree _ _ rfl) hsess⟩
  | main =>
    obtain ⟨d, m, -, hsess, hf⟩ := RunSender.step_main hs
    have first : (session false A).Runs ok x.session [.main]
      { x.session.noteMain with data := d, main := m } := .single (hfree _ _ rfl) hsess
    rcases RunSender.finish_cases hf with ⟨-, rfl⟩ | ⟨r, y, s', -, -, -, -, hget, hx⟩
    · exact ⟨_, first⟩
    · have hx' : x'.session = s' := by
        rcases hx with ⟨-, -, rfl⟩ | ⟨-, rfl⟩ <;> rfl
      rw [hx']
      rcases hget with rfl | ⟨msg, hget⟩
      · exact ⟨_, first⟩
      · exact ⟨[.main, .getError msg], first.append (.single (hfree _ _ rfl) hget)⟩
  | worker f =>
    obtain ⟨d, w, -, hsess, rfl⟩ := RunSender.step_worker hs
    exact ⟨[.worker f], .single (hfree _ _ rfl) hsess⟩

theorem Linked.session_step (h : Linked a x) {e : RunSenderEvent} (ho : SkipOk a x e)
    (hs : (runLoop A a).step x e = some x') :
    ∃ l, (session false A).Runs PendingOk x.session l x'.session := by
  obtain ⟨hrun, hs⟩ := Option.ite_none_right_eq_some.mp hs
  change x.step A a e = some x' at hs
  have hfree : ∀ s f, SessionEvent.isFree f = true → PendingOk s f := by
    intro s f hf
    cases f <;> trivial
  refine session_runs hs hfree (fun p _ => trivial) ?_
  rintro f y rfl hy
  exact h.pendingOk hy (SystemPc.ne_idle hrun) ho

/-- **The worker copies the lists of the normal calls.**  In a run of the loop in which no skipped
call replaces a list that is still pending, what the worker has copied is a prefix of what the
normal calls returned and `send` accepted. -/
theorem copied_returned {r : RealTimeSystem} {h : Heap} {so : Sockets} {err : Error}
    {es : List RunSenderEvent}
    (hr : (runLoop A a).Runs (SkipOk a) (RunSender.entered r h so err) es x) :
    x.session.copied <+: x.returned := by
  have linked : Linked a x := hr.keeps (Linked a) (linked_entered r h so err)
    fun _ _ _ hv ho hs => hv.step ho hs
  have simulated : ∃ l, (session false A).Runs PendingOk (Session.start h so err) l x.session :=
    hr.project RunSender.session (Linked a) (linked_entered r h so err)
      (fun _ _ _ hv ho hs => hv.step ho hs) fun _ _ _ hv ho hs => hv.session_step ho hs
  obtain ⟨l, hl⟩ := simulated
  rw [← linked.accepted]
  exact copied_accepted hl

end

/-! ## Runs -/

def senderStarted : RunSender :=
  RunSender.start oneHertz noMemory {} (Error.construct "TCPSender")

def senderEntered : RunSender :=
  RunSender.entered oneHertz noMemory {} (Error.construct "TCPSender")

/-- the first iteration of `run` up to its `send`, and that -/
def firstSend : List RunSenderEvent :=
  [.system (.startTimer none), .system .tau, .system .tau, .isSendDone true, .isSendDone true,
    .system (.userCall ⟨⟨0, false, 0⟩, [⟨.memoryLocation, 10, 1, 0⟩], false⟩), .enter] ++
  List.replicate 6 .main

/-- the next iteration is skipped, with another list -/
def thenSkip : List RunSenderEvent :=
  [.system (.tick true), .system .tau, .system .tau, .isSendDone false, .isSendDone false,
    .system (.userCall ⟨⟨1, true, 0⟩, [⟨.memoryLocation, 20, 1, 0⟩], false⟩)]

/-- the worker through its set-up and its copy of the pending list -/
def workerCopies : List RunSenderEvent :=
  List.replicate 4 (.worker (.call true)) ++ List.replicate 5 (.worker .tau)

/-- the call of `send` is due, and the worker has no list -/
theorem send_alone_first :
    ∃ x, (runSender FastInts.lp64 ⟨1, 2⟩).run senderStarted (.system .run :: firstSend.take 6)
        = some x ∧
      x.session.data.isDone = true ∧ x.session.data.packetsList = none ∧
      x.session.worker.phase.inList = false := by
  have hrun : ((runSender FastInts.lp64 ⟨1, 2⟩).run senderStarted
      (.system .run :: firstSend.take 6)).map
        (fun x => (x.system.pc, x.session.main.pc.isReady)) = some (.send, true) := by decide
  obtain ⟨x, hx, he⟩ := Option.map_eq_some_iff.mp hrun
  obtain ⟨hpc, hready⟩ : x.system.pc = .send ∧ x.session.main.pc.isReady = true := by simpa using he
  exact ⟨x, hx, (send_alone hx hpc).1 hready⟩

/-- the skipped call comes after the copy -/
theorem copied_returned_then_skip :
    ∃ x, (runLoop FastInts.lp64 ⟨1, 2⟩).run senderEntered (firstSend ++ workerCopies ++ thenSkip) =
        some x ∧ x.session.copied <+: x.returned := by
  have hrun : (((runLoop FastInts.lp64 ⟨1, 2⟩).restrict (SkipOk ⟨1, 2⟩)).run senderEntered
      (firstSend ++ workerCopies ++ thenSkip)).isSome = true := by decide
  obtain ⟨x, hx⟩ := Option.isSome_iff_exists.mp hrun
  have hruns := Machine.Runs.of_restrict hx
  exact ⟨x, hruns.run_eq, copied_returned hruns⟩

/-- the skipped call comes before the copy: the worker copies its list -/
theorem skipped_copied :
    ∃ x, (runLoop FastInts.lp64 ⟨1, 2⟩).run senderEntered (firstSend ++ thenSkip ++ workerCopies) =
        some x ∧
      x.session.copied = [[⟨.memoryLocation, 20, 1, 0⟩]] ∧
      x.returned = [[⟨.memoryLocation, 10, 1, 0⟩]] ∧ ¬ x.session.copied <+: x.returned := by
  have hrun : ((runLoop FastInts.lp64 ⟨1, 2⟩).run senderEntered
      (firstSend ++ thenSkip ++ workerCopies)).map (fun x => (x.session.copied, x.returned))
        = some ([[⟨.memoryLocation, 20, 1, 0⟩]], [[⟨.memoryLocation, 10, 1, 0⟩]]) := by decide
  obtain ⟨x, hx, he⟩ := Option.map_eq_some_iff.mp hrun
  obtain ⟨hc, hl⟩ := Prod.mk.inj he
  refine ⟨x, hx, hc, hl, ?_⟩
  show ¬ x.session.copied <+: x.returned
  rw [show x.session.copied = _ from hc, show x.returned = _ from hl]
  decide

end RealTimeTransfer
