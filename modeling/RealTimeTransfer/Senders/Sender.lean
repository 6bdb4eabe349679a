import RealTimeTransfer.Senders.Handshake
import RealTimeTransfer.Senders.Sockets

/-!
# The calls of a sender

`send`, `is_send_done` and `end_sender` as the main thread runs them, one step for each access to
the shared data.  A critical section is three steps: the lock, the stores with the signal, the
unlock.  `Sender.pc` is the point of the main thread; it is `ready` between two calls, with the
value that the last one returned.

* `Sender.step`   one step of the main thread inside a call;
* `Advance`       what such a step can do to the point of the main thread and the shared data.
-/

namespace RealTimeTransfer
open Words Sync

inductive SenderPc where
  | ready (r : Option Bool)
  | sendInit (p : Ptr)
  | sendTermTest (p : Ptr)
  | sendErrorTest
  | sendErrorCode
  | sendDoneTest (p : Ptr)
  | sendLock (p : Ptr)
  | sendStore (p : Ptr)
  | sendUnlock (p : Ptr)
  | endMark
  | endTermTest
  | endTerminate
  | endLock
  | endStore
  | endUnlock
  | endWait
  | endClose
  deriving DecidableEq, Repr

/-- between two calls -/
def SenderPc.isReady : SenderPc → Bool
  | .ready _ => true
  | _ => false

/-- the points with the mutex in hand -/
def SenderPc.holds : SenderPc → Bool
  | .sendStore _ | .sendUnlock _ | .endStore | .endUnlock => true
  | _ => false

/-- the points of `send` at which its tests are passed and its stores are still to come -/
def SenderPc.storing : SenderPc → Bool
  | .sendLock _ | .sendStore _ => true
  | _ => false

/-- the points of `end_sender` after `terminate_thread` is set and before the thread has ended -/
def SenderPc.terminating : SenderPc → Bool
  | .endLock | .endStore | .endUnlock | .endWait => true
  | _ => false

/-- the points of `end_sender` after its signal -/
def SenderPc.signalled : SenderPc → Bool
  | .endUnlock | .endWait => true
  | _ => false

/-- the points of `end_sender` -/
def SenderPc.ending : SenderPc → Bool
  | .endMark | .endTermTest | .endTerminate | .endLock | .endStore | .endUnlock | .endWait
  | .endClose => true
  | _ => false

structure Sender where
  pc : SenderPc
  initialized : Bool
  sockets : Sockets
  errorHandler : Error

/-- the text for the error code of a worker that ended in an error -/
def workerErrorText (zc : Bool) (code : Nat) : String :=
  if code = ErrorCode.cantCpuAffinity.num then "Sender worker thread can't set CPU Affinity."
  else if code = ErrorCode.cantSocketTimeout.num then
    "Sender worker thread can't set timeout on the socket."
  else if code = ErrorCode.sendingError.num then
    "Sender worker thread, error while sending the data. "
  else if code = ErrorCode.notSupportedDataType.num then
    "Sender worker thread can't send that type of packets."
  else if code = ErrorCode.cantSocketBuffers.num then
    "Can't reserve the buffers needed for the socket."
  else if zc ∧ (code = ErrorCode.zcPollError.num ∨ code = ErrorCode.zcRecvmsgError.num ∨
      code = ErrorCode.zcNotificationError.num) then
    "Error during zero-copy transmission."
  else "Unknown error in sender worker thread."

namespace Sender

def goto (s : Sender) (pc : SenderPc) : Sender := { s with pc := pc }

/-- a call that returns false, with its text -/
def refuse (s : Sender) (msg : String) : Sender :=
  { s with pc := .ready (some false), errorHandler := s.errorHandler.setError msg }

/-- the refusal of a `send` while one is going on -/
def ongoingText : String :=
  "system called send(DataPacketsList*) while on going send operation."

/-- one step of the main thread inside a call -/
def step (zc : Bool) (d : SenderWorkerData) (s : Sender) : Option (SenderWorkerData × Sender) :=
  match s.pc with
  | .ready _ => none
  | .sendInit p =>
    some (d, if s.initialized then s.goto (.sendTermTest p)
      else s.refuse "You must initialize the sender object first")
  | .sendTermTest p =>
    some (d, s.goto (if d.isTerminatedThread then .sendErrorTest else .sendDoneTest p))
  | .sendErrorTest =>
    some (d, if d.isError then s.goto .sendErrorCode
      else s.refuse "No Thread Available to execute the send operation")
  | .sendErrorCode => some (d, s.refuse (workerErrorText zc d.errorCode))
  | .sendDoneTest p =>
    some (d, if d.isDone then s.goto (.sendLock p) else s.refuse ongoingText)
  | .sendLock p =>
    (d.packetsMutex.lock .main).map fun m =>
      ({ d with packetsMutex := m }, s.goto (.sendStore p))
  | .sendStore p =>
    some ({ d with
      packetsList := some p, isDone := false, packetsCond := d.packetsCond.signal },
      s.goto (.sendUnlock p))
  | .sendUnlock _ =>
    some ({ d with packetsMutex := d.packetsMutex.unlock }, s.goto (.ready (some true)))
  | .endMark => some (d, { s with pc := .endTermTest, initialized := false })
  | .endTermTest => some (d, s.goto (if d.isTerminatedThread then .endClose else .endTerminate))
  | .endTerminate => some ({ d with terminateThread := true }, s.goto .endLock)
  | .endLock =>
    (d.packetsMutex.lock .main).map fun m => ({ d with packetsMutex := m }, s.goto .endStore)
  | .endStore =>
    some ({ d with
      packetsList := none, isDone := false, packetsCond := d.packetsCond.signal },
      s.goto .endUnlock)
  | .endUnlock => some ({ d with packetsMutex := d.packetsMutex.unlock }, s.goto .endWait)
  | .endWait => some (d, s.goto (if d.isTerminatedThread then .endClose else .endWait))
  | .endClose =>
    some (d, { s with pc := .ready (some true), sockets := s.sockets.closeSockets })

/-- the call `send(p)` -/
def callSend (s : Sender) (p : Ptr) : Option Sender :=
  match s.pc with
  | .ready _ => some (s.goto (.sendInit p))
  | _ => none

/-- the call `end_sender()` -/
def callEndSender (s : Sender) : Option Sender :=
  match s.pc with
  | .ready _ => some (s.goto .endMark)
  | _ => none

theorem callSend_eq {m m' : Sender} {p : Ptr} (h : m.callSend p = some m') :
    m.pc.isReady = true ∧ m' = m.goto (.sendInit p) := by
  unfold callSend at h
  split at h
  case h_1 r hpc => cases h; exact ⟨by rw [hpc]; rfl, rfl⟩
  case h_2 => cases h

theorem callEndSender_eq {m m' : Sender} (h : m.callEndSender = some m') :
    m.pc.isReady = true ∧ m' = m.goto .endMark := by
  unfold callEndSender at h
  split at h
  case h_1 r hpc => cases h; exact ⟨by rw [hpc]; rfl, rfl⟩
  case h_2 => cases h

end Sender

/-- what a step of the main thread inside a call does to its point and to the shared data -/
inductive Advance (d : SenderWorkerData) : SenderPc → SenderWorkerData → SenderPc → Prop where
  | initialized (p : Ptr) : Advance d (.sendInit p) d (.sendTermTest p)
  | refused {pc : SenderPc} : pc.isReady = false → pc.holds = false → pc.ending = false →
      Advance d pc d (.ready (some false))
  | alive (p : Ptr) : d.isTerminatedThread = false →
      Advance d (.sendTermTest p) d (.sendDoneTest p)
  | dead (p : Ptr) : d.isTerminatedThread = true → Advance d (.sendTermTest p) d .sendErrorTest
  | failed : Advance d .sendErrorTest d .sendErrorCode
  | done (p : Ptr) : d.isDone = true → Advance d (.sendDoneTest p) d (.sendLock p)
  | sendLock (p : Ptr) : d.packetsMutex = none →
      Advance d (.sendLock p) { d with packetsMutex := some .main } (.sendStore p)
  | sendStore (p : Ptr) : Advance d (.sendStore p) { d with
      packetsList := some p, isDone := false, packetsCond := d.packetsCond.signal } (.sendUnlock p)
  | sendUnlock (p : Ptr) :
      Advance d (.sendUnlock p) { d with packetsMutex := none } (.ready (some true))
  | mark : Advance d .endMark d .endTermTest
  | ended : d.isTerminatedThread = true → Advance d .endTermTest d .endClose
  | running : d.isTerminatedThread = false → Advance d .endTermTest d .endTerminate
  | terminate : Advance d .endTerminate { d with terminateThread := true } .endLock
  | endLock : d.packetsMutex = none →
      Advance d .endLock { d with packetsMutex := some .main } .endStore
  | endStore : Advance d .endStore { d with
      packetsList := none, isDone := false, packetsCond := d.packetsCond.signal } .endUnlock
  | endUnlock : Advance d .endUnlock { d with packetsMutex := none } .endWait
  | waited : d.isTerminatedThread = true → Advance d .endWait d .endClose
  | waiting : d.isTerminatedThread = false → Advance d .endWait d .endWait
  | close : Advance d .endClose d (.ready (some true))

/-- **Every step of the main thread inside a call is one of these.** -/
theorem Sender.step_advance {zc : Bool} {d d' : SenderWorkerData} {s s' : Sender}
    (hs : s.step zc d = some (d', s')) : Advance d s.pc d' s'.pc := by
  unfold Sender.step at hs
  split at hs
  case h_1 => cases hs
  case h_2 p hpc =>
    cases hs
    rw [hpc]
    cases s.initialized
    · exact .refused rfl rfl rfl
    · exact .initialized p
  case h_3 p hpc =>
    cases hs
    rw [hpc]
    cases ht : d.isTerminatedThread
    · exact .alive p ht
    · exact .dead p ht
  case h_4 hpc =>
    cases hs
    rw [hpc]
    cases d.isError
    · exact .refused rfl rfl rfl
    · exact .failed
  case h_5 hpc =>
    cases hs
    rw [hpc]
    exact .refused rfl rfl rfl
  case h_6 p hpc =>
    cases hs
    rw [hpc]
    cases hd : d.isDone
    · exact .refused rfl rfl rfl
    · exact .done p hd
  case h_7 p hpc =>
    obtain ⟨m, hm, he⟩ := Option.map_eq_some_iff.mp hs
    obtain ⟨hf, rfl⟩ := Mutex.lock_eq hm
    cases he
    rw [hpc]
    exact .sendLock p hf
  case h_8 p hpc => cases hs; rw [hpc]; exact .sendStore p
  case h_9 p hpc => cases hs; rw [hpc]; exact .sendUnlock p
  case h_10 hpc => cases hs; rw [hpc]; exact .mark
  case h_11 hpc =>
    cases hs
    rw [hpc]
    cases ht : d.isTerminatedThread
    · exact .running ht
    · exact .ended ht
  case h_12 hpc => cases hs; rw [hpc]; exact .terminate
  case h_13 hpc =>
    obtain ⟨m, hm, he⟩ := Option.map_eq_some_iff.mp hs
    obtain ⟨hf, rfl⟩ := Mutex.lock_eq hm
    cases he
    rw [hpc]
    exact .endLock hf
  case h_14 hpc => cases hs; rw [hpc]; exact .endStore
  case h_15 hpc => cases hs; rw [hpc]; exact .endUnlock
  case h_16 hpc =>
    cases hs
    rw [hpc]
    cases ht : d.isTerminatedThread
    · exact .waiting ht
    · exact .waited ht
  case h_17 hpc => cases hs; rw [hpc]; exact .close

/-- the list that a `send` under way was called with -/
def SenderPc.argument : SenderPc → Option Ptr
  | .sendInit p | .sendTermTest p | .sendDoneTest p | .sendLock p | .sendStore p | .sendUnlock p =>
    some p
  | _ => none

section
variable {d d' : SenderWorkerData} {pc pc' : SenderPc}

theorem Advance.argument_eq (h : Advance d pc d' pc') {p : Ptr} (hp : pc'.argument = some p) :
    pc.argument = some p := by
  cases h <;> first | exact hp | cases hp

theorem Advance.flags (h : Advance d pc d' pc') :
    d'.isTerminatedThread = d.isTerminatedThread ∧ d'.threadInitialized = d.threadInitialized := by
  cases h <;> exact ⟨rfl, rfl⟩

/-- `end_sender` goes on to close the sockets when it has seen `is_terminated_thread` -/
theorem Advance.of_endClose (h : Advance d pc d' .endClose) :
    (pc = .endTermTest ∨ pc = .endWait) ∧ d.isTerminatedThread = true := by
  cases h
  case ended ht => exact ⟨.inl rfl, ht⟩
  case waited ht => exact ⟨.inr rfl, ht⟩

/-- `send` returns true behind its unlock, `end_sender` behind its last point -/
theorem Advance.of_true (h : Advance d pc d' (.ready (some true))) :
    (∃ p, pc = .sendUnlock p) ∨ pc = .endClose := by
  cases h
  case sendUnlock p => exact .inl ⟨p, rfl⟩
  case close => exact .inr rfl

theorem Advance.of_sendUnlock {p : Ptr} (h : Advance d (.sendUnlock p) d' pc') :
    pc' = .ready (some true) := by
  cases h
  case refused _ hh _ => cases hh
  case sendUnlock => rfl

theorem Advance.not_ready (h : Advance d pc d' pc') : pc.isReady = false := by
  cases h <;> first | rfl | assumption

theorem Advance.of_ending (h : Advance d pc d' pc') (he : pc.ending = true) :
    pc'.ending = true ∨ pc = .endClose := by
  cases h
  case refused hn => rw [he] at hn; cases hn
  all_goals first | exact .inl rfl | exact .inr rfl | cases he

/-- the main thread touches the pending list and `is_done` in its two stores only -/
theorem Advance.stores (h : Advance d pc d' pc') :
    (∃ p, pc = .sendStore p ∧ pc' = .sendUnlock p ∧ d'.packetsList = some p ∧ d'.isDone = false) ∨
      (pc = .endStore ∧ pc' = .endUnlock ∧ d'.packetsList = none ∧ d'.isDone = false) ∨
      ((∀ p, pc' ≠ .sendUnlock p) ∧ d'.packetsList = d.packetsList ∧ d'.isDone = d.isDone) := by
  cases h
  case sendStore p => exact .inl ⟨p, rfl, rfl, rfl, rfl⟩
  case endStore => exact .inr (.inl ⟨rfl, rfl, rfl, rfl⟩)
  all_goals exact .inr (.inr ⟨nofun, rfl, rfl⟩)

end
end RealTimeTransfer
