import RealTimeTransfer.Lib.Machine
import RealTimeTransfer.Senders.Control

/-!
# A session of a sender

The main thread and the worker of one successful `initialize`, step by step and in any order.
The main thread makes any calls; between two calls it may also write to its own memory.  The last
five fields are what an observer of the run notes down; no step reads them.

* `session zc A`      the machine, of a `TCPSender` (`zc = false`) or of a `TCPSenderZC`;
* `Session.start`     the state in which `initialize` has returned true;
* `session_control`   the control invariant holds in every reachable state;
* `no_lost_wakeup`    no wake-up is lost and no mutex leaked.
-/

namespace RealTimeTransfer
open Machines Words Sync

structure Session where
  heap : Heap
  data : SenderWorkerData
  main : Sender
  worker : Worker
  /-- the bytes given to the client socket -/
  out : List UInt8 := []
  /-- the contents of the lists whose `send` returned true, and their bytes -/
  accepted : List DataPacketsList := []
  acceptedBytes : List UInt8 := []
  /-- the lists that the worker has copied -/
  copied : List DataPacketsList := []
  /-- the last list accepted, as long as it is not reported done -/
  outstanding : Option Ptr := none

inductive SessionEvent where
  | callSend (p : Ptr)
  | callEndSender
  | isSendDone (b : Bool)
  | getError (msg : String)
  | main
  | worker (e : WorkerEvent)
  | write (h : Heap)

namespace Session

/-- `initialize` has returned true: the worker is past its first two statements -/
def start (h : Heap) (s : Sockets) (e : Error) : Session :=
  { heap := h
    data := { sockFd := s.clientSockFd, threadInitialized := true, isTerminatedThread := false }
    main := ⟨.ready (some true), true, s, e⟩
    worker := { pc := .setAffinity } }

/-- the notes on a step of the main thread: a `send` that returns true has its list accepted -/
def noteMain (s : Session) : Session :=
  match s.main.pc with
  | .sendUnlock p =>
    { s with
      accepted := s.accepted ++ [s.heap.lists p],
      acceptedBytes := s.acceptedBytes ++ s.heap.listBytes (s.heap.lists p),
      outstanding := some p }
  | _ => s

/-- the notes on a step of the worker -/
def noteWorker (s : Session) (e : WorkerEvent) : Session :=
  { s with
    out := s.out ++ s.worker.output s.heap e,
    copied :=
      if s.worker.pc = .copy then
        s.copied ++ (s.data.packetsList.map s.heap.lists).toList
      else s.copied,
    outstanding := if s.worker.pc = .setDone then none else s.outstanding }

def step (zc : Bool) (A : FastInts) (s : Session) : SessionEvent → Option Session
  | .callSend p => (s.main.callSend p).map fun m => { s with main := m }
  | .callEndSender => s.main.callEndSender.map fun m => { s with main := m }
  | .isSendDone b =>
    if s.main.pc.isReady = true ∧ b = s.data.isDone then some s else none
  | .getError msg =>
    let (text, handler) := s.main.errorHandler.take
    if s.main.pc.isReady = true ∧ msg = text then
      some { s with main := { s.main with errorHandler := handler } }
    else none
  | .main =>
    (s.main.step zc s.data).map fun x => { s.noteMain with data := x.1, main := x.2 }
  | .worker e =>
    (s.worker.step zc A 0 s.heap s.data e).map fun x =>
      { s.noteWorker e with data := x.1, worker := x.2 }
  | .write h => if s.main.pc.isReady = true then some { s with heap := h } else none

end Session

def session (zc : Bool) (A : FastInts) : Machine Session SessionEvent := ⟨Session.step zc A⟩

namespace Session

/-- the control part of the invariant -/
structure Inv (s : Session) : Prop where
  sane : s.worker.Sane
  control : Control 0 s.data s.main.pc s.worker.phase

theorem inv_start (h : Heap) (s : Sockets) (e : Error) : (start h s e).Inv := by
  refine ⟨fun b hb => Option.some.inj hb, ⟨⟨rfl, nofun⟩, ⟨nofun, rfl⟩, ⟨.inl rfl, ?_, ?_, nofun⟩,
    ⟨fun _ => ⟨rfl, rfl⟩, nofun, nofun, nofun⟩⟩⟩
  · exact fun _ => rfl
  · exact fun _ => rfl

theorem holds_of_ready {pc : SenderPc} (h : pc.isReady = true) : pc.holds = false := by
  cases pc <;> first | rfl | cases h

section
variable {zc : Bool} {A : FastInts} {s t : Session} {e : SessionEvent}

@[simp] theorem noteMain_worker (s : Session) : s.noteMain.worker = s.worker := by
  unfold noteMain; split <;> rfl

@[simp] theorem noteMain_heap (s : Session) : s.noteMain.heap = s.heap := by
  unfold noteMain; split <;> rfl

theorem noteMain_eq (hpc : ∀ p, s.main.pc ≠ .sendUnlock p) : s.noteMain = s := by
  unfold noteMain
  split
  case h_1 p h => exact absurd h (hpc p)
  case h_2 => rfl

theorem noteMain_unlock {p : Ptr} (hpc : s.main.pc = .sendUnlock p) :
    s.noteMain = { s with
      accepted := s.accepted ++ [s.heap.lists p],
      acceptedBytes := s.acceptedBytes ++ s.heap.listBytes (s.heap.lists p),
      outstanding := some p } := by
  unfold noteMain
  rw [hpc]

/-- what a step of a session can be -/
inductive Does (zc : Bool) (A : FastInts) (s : Session) : SessionEvent → Session → Prop where
  | called (p : Ptr) : s.main.pc.isReady = true →
      Does zc A s (.callSend p) { s with main := s.main.goto (.sendInit p) }
  | calledEnd : s.main.pc.isReady = true →
      Does zc A s .callEndSender { s with main := s.main.goto .endMark }
  | asked : s.main.pc.isReady = true → Does zc A s (.isSendDone s.data.isDone) s
  | told (msg : String) (h : Error) : s.main.pc.isReady = true →
      Does zc A s (.getError msg) { s with main := { s.main with errorHandler := h } }
  | ran {d : SenderWorkerData} {m : Sender} : s.main.step zc s.data = some (d, m) →
      Does zc A s .main { s.noteMain with data := d, main := m }
  | worked {e : WorkerEvent} {d : SenderWorkerData} {w : Worker} :
      s.worker.step zc A 0 s.heap s.data e = some (d, w) →
      Does zc A s (.worker e) { s.noteWorker e with data := d, worker := w }
  | written (h : Heap) : s.main.pc.isReady = true → Does zc A s (.write h) { s with heap := h }

/-- **Every step of a session is one of these.** -/
theorem step_does (hs : s.step zc A e = some t) : s.Does zc A e t := by
  cases e with
  | callSend p =>
    obtain ⟨m, hm, rfl⟩ := Option.map_eq_some_iff.mp hs
    obtain ⟨hr, rfl⟩ := Sender.callSend_eq hm
    exact .called p hr
  | callEndSender =>
    obtain ⟨m, hm, rfl⟩ := Option.map_eq_some_iff.mp hs
    obtain ⟨hr, rfl⟩ := Sender.callEndSender_eq hm
    exact .calledEnd hr
  | isSendDone b =>
    obtain ⟨⟨hr, rfl⟩, rfl⟩ := Option.ite_some_none_eq_some.mp hs
    exact .asked hr
  | getError msg =>
    obtain ⟨⟨hr, -⟩, rfl⟩ := Option.ite_some_none_eq_some.mp hs
    exact .told msg _ hr
  | main =>
    obtain ⟨⟨d, m⟩, hm, rfl⟩ := Option.map_eq_some_iff.mp hs
    exact .ran hm
  | worker e =>
    obtain ⟨⟨d, w⟩, hw, rfl⟩ := Option.map_eq_some_iff.mp hs
    exact .worked hw
  | write h =>
    obtain ⟨hr, rfl⟩ := Option.ite_some_none_eq_some.mp hs
    exact .written h hr

/-- **Every step of a session keeps the control invariant.** -/
theorem Inv.step (h : s.Inv) (hs : s.step zc A e = some t) : t.Inv := by
  cases step_does hs with
  | called p hr => exact ⟨h.sane, h.control.enter (holds_of_ready hr) rfl rfl rfl⟩
  | calledEnd hr => exact ⟨h.sane, h.control.enter (holds_of_ready hr) rfl rfl rfl⟩
  | asked => exact h
  | told => exact ⟨h.sane, h.control⟩
  | @ran d m hm =>
    have hc := h.control.advance (Sender.step_advance hm)
    refine ⟨?_, ?_⟩
    · show s.noteMain.worker.Sane
      rw [noteMain_worker]
      exact h.sane
    · show Control 0 d m.pc s.noteMain.worker.phase
      rw [noteMain_worker]
      exact hc
  | worked hw =>
    obtain ⟨hsane, hshake⟩ := Worker.step_handshake h.sane hw
    exact ⟨hsane, h.control.handshake hshake⟩
  | written => exact ⟨h.sane, h.control⟩

end
end Session

/-- **The control invariant holds in every reachable state of a session.** -/
theorem session_control {zc : Bool} {A : FastInts} {h : Heap} {s : Sockets} {err : Error}
    {es : List SessionEvent} {t : Session}
    (hr : (session zc A).run (Session.start h s err) es = some t) : t.Inv :=
  (Machine.runs_of_run hr).keeps Session.Inv (Session.inv_start h s err)
    fun _ _ _ hv _ hs => hv.step hs

/-- **No lost wake-up and no leaked mutex.**  A worker blocked in the condition variable without a
pending wake-up has no list and no termination to wake up for; the mutex has one holder at most,
the side whose point says so, and a worker that has published its end is not it. -/
theorem no_lost_wakeup {zc : Bool} {A : FastInts} {h : Heap} {s : Sockets} {err : Error}
    {es : List SessionEvent} {t : Session}
    (hr : (session zc A).run (Session.start h s err) es = some t) :
    (t.worker.pc = .blocked → .worker 0 ∈ t.data.packetsCond →
        t.data.packetsList = none ∧ t.main.pc ≠ .endUnlock ∧ t.main.pc ≠ .endWait) ∧
      (t.data.isTerminatedThread = true →
        t.data.packetsMutex ≠ some (.worker 0) ∧ t.worker.isLocked = false) ∧
      (t.data.packetsMutex = some (.worker 0) ↔ t.worker.phase.holds = true) ∧
      (t.data.packetsMutex = some .main ↔ t.main.pc.holds = true) := by
  obtain ⟨hsane, hm, hf, hw, -⟩ := session_control hr
  have hold := hm.mutex
  unfold holder at hold
  refine ⟨?_, ?_, ?_, ?_⟩
  · intro hb hmem
    have asleep : Asleep t.data t.worker.phase := by
      refine .inr ⟨?_, List.ne_nil_of_mem hmem⟩
      unfold Worker.phase
      rw [hb]
    have hsig := hw.unsignalled asleep
    refine ⟨hw.idle (.inr asleep), ?_, ?_⟩ <;> intro hpc <;> rw [hpc] at hsig <;> cases hsig
  · intro hterm
    have hpub : t.worker.phase.published = true := by rw [← hf.flag]; exact hterm
    refine ⟨?_, Worker.unlocked_of_published hsane hpub⟩
    rw [hold, if_neg (by rw [Phase.not_holds_of_published hpub]; decide)]
    split <;> nofun
  · rw [hold]
    cases hp : t.worker.phase.holds with
    | true => exact ⟨fun _ => rfl, fun _ => rfl⟩
    | false => cases hq : t.main.pc.holds <;> exact ⟨nofun, nofun⟩
  · rw [hold]
    cases hp : t.worker.phase.holds with
    | true => rw [hm.apart hp]; exact ⟨nofun, nofun⟩
    | false => cases hq : t.main.pc.holds <;> simp

/-- the worker through its set-up, then to sleep without a list -/
def fallAsleep : List SessionEvent :=
  List.replicate 4 (.worker (.call true)) ++ List.replicate 5 (.worker .tau)

def noMemory : Heap := ⟨fun _ => [], fun _ _ _ => 0⟩

/-- a worker that sleeps, and a main thread that is about to send -/
theorem no_lost_wakeup_asleep :
    ∃ t, (session false FastInts.lp64).run (Session.start noMemory {} (Error.construct "TCPSender"))
        (fallAsleep ++ [.callSend 0, .main, .main]) = some t ∧
      t.worker.pc = .blocked ∧ t.data.packetsList = none ∧ t.data.packetsMutex ≠ some .main := by
  have hrun : ((session false FastInts.lp64).run
      (Session.start noMemory {} (Error.construct "TCPSender"))
      (fallAsleep ++ [.callSend 0, .main, .main])).map
        (fun t => (t.worker.pc, t.data.packetsCond, t.main.pc))
      = some (.blocked, [.worker 0], .sendDoneTest 0) := by decide
  obtain ⟨t, ht, he⟩ := Option.map_eq_some_iff.mp hrun
  obtain ⟨hpc, hcond, hmain⟩ : t.worker.pc = .blocked ∧ t.data.packetsCond = [.worker 0] ∧
      t.main.pc = .sendDoneTest 0 := by simpa using he
  obtain ⟨hsleep, -, -, hmutex⟩ := no_lost_wakeup ht
  refine ⟨t, ht, hpc, (hsleep hpc (by rw [hcond]; exact List.mem_singleton_self _)).1, ?_⟩
  intro hm
  have hh := hmutex.mp hm
  rw [hmain] at hh
  cases hh

end RealTimeTransfer
