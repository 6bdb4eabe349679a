import RealTimeTransfer.Senders.DataPackets

/-!
# The worker thread

`tcp_worker_function` of the two senders, one step for each access to the shared data, each call of
the kernel and each operation on the mutex.  `Worker.pc` is the point the thread stands at, and an
event carries the answer of the call made there.  The two functions differ in the zero-copy parts
only: `zc` selects them.

`END_THREAD_ERROR` is the points `exitError` to `pthreadExit`; the unwinding that `pthread_exit`
starts runs the destructors of `data_to_be_sent`, `prot_term_flag` and `prot_lock` once more
(`pthreadExit`, `unwindFlag`, `unwindLock`).

* `readNotificationZc`  the zero-copy sends that an error-queue message reports;
* `Worker.step`         one step, with what it does to the shared data;
* `Worker.output`       the bytes that the step gives to the client socket.
-/

namespace RealTimeTransfer
open Words Sync

/-- the first control message of a message, with the `sock_extended_err` it carries -/
structure Cmsg where
  cmsgLevel : Int
  cmsgType : Int
  eeOrigin : Nat
  eeInfo : Nat
  eeData : Nat
  deriving DecidableEq, Repr

def solIp : Int := 0
def ipRecverr : Int := 11
def soEeOriginZerocopy : Nat := 5

/-- `read_notification_zc`; the range is subtracted in `uint32_t` -/
def readNotificationZc : Option Cmsg → Int
  | none => -1
  | some cm =>
    if cm.cmsgLevel ≠ solIp ∧ cm.cmsgType ≠ ipRecverr then -1
    else if cm.eeOrigin ≠ soEeOriginZerocopy then -1
    else (toU 32 (cm.eeData - cm.eeInfo + 1) : Int)

inductive WorkerPc where
  | alive
  | initialized
  | setAffinity
  | setTimeout
  | setSendBuffer
  | setRecvBuffer
  | outerTest
  | lock
  | listTest
  | termTest
  | condWait
  | blocked
  | relock
  | copy
  | unlock
  | packet
  | sending
  | sent (s : Int)
  | zcTest
  | poll
  | recvmsg
  | setDone
  | exitError (flag : Bool) (code : ErrorCode)
  | exitCode (code : ErrorCode)
  | exitUnlock
  | exitFlag
  | pthreadExit
  | unwindFlag
  | unwindLock
  | dead
  deriving DecidableEq, Repr

/-- the local variables; `dataSent` is `data_sent` of a memory packet and `offset` of a file,
`isLocked` the field of `prot_lock` -/
structure Worker where
  pc : WorkerPc := .alive
  dataToBeSent : DataPacketsList := []
  i : Int := 0
  dataSent : Nat := 0
  remainingData : Nat := 0
  isLocked : Bool := false
  sendingCounter : Int := 0
  lastSendingCounter : Int := 0
  deriving DecidableEq, Repr

inductive WorkerEvent where
  /-- a step without an answer from outside -/
  | tau
  /-- the result of `pthread_setaffinity_np`, `setsockopt` or `poll` -/
  | call (ok : Bool)
  /-- the end of the wait in `pthread_cond_wait` -/
  | wake
  /-- the result of `send` or `sendfile` -/
  | sent (s : Int)
  /-- the result of `recvmsg`: failed or truncated, or a message -/
  | recv (m : Option (Option Cmsg))
  deriving DecidableEq, Repr

namespace Worker

def goto (w : Worker) (pc : WorkerPc) : Worker := { w with pc := pc }

/-- `END_THREAD_ERROR(flag, code)` -/
def endThreadError (w : Worker) (flag : Bool) (code : ErrorCode) : Worker :=
  w.goto (.exitError flag code)

/-- a call whose failure ends the thread -/
def orEnd (w : Worker) (ok : Bool) (pc : WorkerPc) (code : ErrorCode) : Worker :=
  if ok then w.goto pc else w.endThreadError true code

/-- a test of `terminate_thread` -/
def unlessTerminated (w : Worker) (d : SenderWorkerData) (w' : Worker) : Worker :=
  if d.terminateThread then w.endThreadError false .noError else w'

def current (w : Worker) : Option DataPacket := w.dataToBeSent[w.i.toNat]?

def isMemory (w : Worker) : Bool := w.current.any fun p => p.dataPtrType = .memoryLocation

/-- `prot_lock.lock_block()`, or the end of `pthread_cond_wait` -/
def acquire (k : Nat) (d : SenderWorkerData) (w : Worker) : Option (SenderWorkerData × Worker) :=
  (d.packetsMutex.lock (.worker k)).map fun m =>
    ({ d with packetsMutex := m }, { w with pc := .listTest, isLocked := true })

/-- `prot_lock.unlock()`, then the point `pc` -/
def protUnlock (d : SenderWorkerData) (w : Worker) (pc : WorkerPc) : SenderWorkerData × Worker :=
  if w.isLocked then
    ({ d with packetsMutex := d.packetsMutex.unlock }, { w with pc := pc, isLocked := false })
  else (d, w.goto pc)

/-- the loop test of the packets and the dispatch on the type of the next one -/
def nextPacket (zc : Bool) (A : FastInts) (w : Worker) : Option Worker :=
  if toU A.w32 w.i < w.dataToBeSent.length then
    w.current.map fun p =>
      if p.dataPtrType = .other then w.endThreadError true .notSupportedDataType
      else { w with pc := .sending, dataSent := p.dataOffset, remainingData := p.dataSize }
  else some (w.goto (if zc then .zcTest else .setDone))

/-- the state variables after `s` bytes; the kernel moves the offset of a file itself -/
def sentBytes (A : FastInts) (w : Worker) (s : Int) : Worker :=
  { w with
    pc := .sending,
    dataSent := if w.isMemory then toU A.w32 (w.dataSent + s) else w.dataSent + s.toNat,
    remainingData := toU A.w32 (w.remainingData - s) }

/-- a notification read: `ret` is an `int` -/
def notified (w : Worker) (m : Option Cmsg) : Worker :=
  if toS 32 (readNotificationZc m) < 1 then w.endThreadError true .zcNotificationError
  else
    { w with
      pc := .zcTest,
      lastSendingCounter := toS 32 (w.lastSendingCounter + toS 32 (readNotificationZc m)) }

/-- one step of the worker number `k` -/
def step (zc : Bool) (A : FastInts) (k : Nat) (h : Heap) (d : SenderWorkerData) (w : Worker)
    (e : WorkerEvent) : Option (SenderWorkerData × Worker) :=
  match w.pc, e with
  | .alive, .tau => some ({ d with isTerminatedThread := false }, w.goto .initialized)
  | .initialized, .tau => some ({ d with threadInitialized := true }, w.goto .setAffinity)
  | .setAffinity, .call ok => some (d, w.orEnd ok .setTimeout .cantCpuAffinity)
  | .setTimeout, .call ok => some (d, w.orEnd ok .setSendBuffer .cantSocketTimeout)
  | .setSendBuffer, .call ok => some (d, w.orEnd ok .setRecvBuffer .cantSocketBuffers)
  | .setRecvBuffer, .call ok => some (d, w.orEnd ok .outerTest .cantSocketBuffers)
  | .outerTest, .tau => some (d, w.unlessTerminated d (w.goto .lock))
  | .lock, .tau => w.acquire k d
  | .listTest, .tau => some (d, w.goto (if d.packetsList = none then .termTest else .copy))
  | .termTest, .tau => some (d, w.unlessTerminated d (w.goto .condWait))
  | .condWait, .tau =>
    some ({ d with
      packetsMutex := d.packetsMutex.unlock, packetsCond := d.packetsCond.block (.worker k) },
      w.goto .blocked)
  | .blocked, .wake =>
    some ({ d with packetsCond := d.packetsCond.leave (.worker k) }, w.goto .relock)
  | .relock, .tau => w.acquire k d
  | .copy, .tau =>
    d.packetsList.map fun p =>
      ({ d with packetsList := none }, { w with pc := .unlock, dataToBeSent := h.lists p })
  | .unlock, .tau => some (protUnlock d { w with i := 0 } .packet)
  | .packet, .tau => (w.nextPacket zc A).map fun w' => (d, w')
  | .sending, .tau =>
    if w.remainingData = 0 then some (d, { w with pc := .packet, i := toS 32 (w.i + 1) }) else none
  | .sending, .sent s =>
    if w.remainingData ≠ 0 ∧ s ≤ w.remainingData then
      some (d, { w with
        pc := .sent s,
        sendingCounter :=
          if zc && w.isMemory then toS 32 (w.sendingCounter + 1) else w.sendingCounter })
    else none
  | .sent s, .tau =>
    some (d, if s < 0 then w.endThreadError true .sendingError
      else w.unlessTerminated d (w.sentBytes A s))
  | .zcTest, .tau =>
    some (d, w.goto (if w.lastSendingCounter < w.sendingCounter then .poll else .setDone))
  | .poll, .call ok => some (d, w.orEnd ok .recvmsg .zcPollError)
  | .recvmsg, .recv none => some (d, w.endThreadError true .zcRecvmsgError)
  | .recvmsg, .recv (some m) => some (d, w.notified m)
  | .setDone, .tau => some ({ d with isDone := true }, w.goto .outerTest)
  | .exitError flag code, .tau => some ({ d with isError := flag }, w.goto (.exitCode code))
  | .exitCode code, .tau => some ({ d with errorCode := code.num }, w.goto .exitUnlock)
  | .exitUnlock, .tau => some (protUnlock d w .exitFlag)
  | .exitFlag, .tau => some ({ d with isTerminatedThread := true }, w.goto .pthreadExit)
  | .pthreadExit, .tau => some (d, { w with pc := .unwindFlag, dataToBeSent := [] })
  | .unwindFlag, .tau => some ({ d with isTerminatedThread := true }, w.goto .unwindLock)
  | .unwindLock, .tau => some (protUnlock d w .dead)
  | _, _ => none

/-- the bytes that the step `e` gives to the client socket -/
def output (h : Heap) (w : Worker) (e : WorkerEvent) : List UInt8 :=
  match w.pc, e with
  | .sending, .sent s => w.current.elim [] fun p => h.slice p w.dataSent s.toNat
  | _, _ => []

end Worker

/-- the worker function of `TCPSender` -/
def TCPSender.tcpWorkerFunction := Worker.step false

/-- the worker function of `TCPSenderZC` -/
def TCPSenderZC.tcpWorkerFunction := Worker.step true

end RealTimeTransfer
