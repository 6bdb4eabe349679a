import RealTimeTransfer.Lib.Sync
import RealTimeTransfer.Lib.Words

/-!
# Packets, lists and the data shared with the worker

`DataPacket`, `DataPacketsList` and `SenderWorkerData` of `data_packets.h`.  A pointer is an
address (`Ptr`); the memory of the caller, and the files it opened, are a `Heap`: the lists at
their addresses and the byte at each offset from a data pointer.

* `Heap.slice h p o n`   `n` bytes of the packet `p` from the offset `o`;
* `Heap.listBytes h l`   the bytes `[data_offset, data_offset + data_size)` of every packet of `l`;
* `ListOk`               fewer than `2^31` packets, and no `data_offset + data_size` wraps.
-/

namespace RealTimeTransfer
open Words Sync

abbrev Ptr := Nat

/-- `DATA_PTR_TYPE`; `other` is a value that names none of its enumerators -/
inductive DataPtrType where
  | memoryLocation
  | fileDescriptor
  | other
  deriving DecidableEq, Repr

structure DataPacket where
  dataPtrType : DataPtrType := .memoryLocation
  dataPtr : Ptr := 0
  dataSize : Nat := 0
  dataOffset : Nat := 0
  deriving DecidableEq, Repr

/-- the packets of a list; `num_packets` is the length -/
abbrev DataPacketsList := List DataPacket

/-- the caller's lists, and its bytes: of the memory at a pointer or of the file it names -/
structure Heap where
  lists : Ptr → DataPacketsList
  byte : DataPtrType → Ptr → Nat → UInt8

namespace Heap

def slice (h : Heap) (p : DataPacket) (o n : Nat) : List UInt8 :=
  (List.range n).map fun k => h.byte p.dataPtrType p.dataPtr (o + k)

def packetBytes (h : Heap) (p : DataPacket) : List UInt8 := h.slice p p.dataOffset p.dataSize

def listBytes (h : Heap) (l : DataPacketsList) : List UInt8 := l.flatMap h.packetBytes

theorem slice_add (h : Heap) (p : DataPacket) (o m n : Nat) :
    h.slice p o (m + n) = h.slice p o m ++ h.slice p (o + m) n := by
  unfold slice
  rw [List.range_add, List.map_append, List.map_map]
  congr 1
  apply List.map_congr_left
  intro k _
  show h.byte p.dataPtrType p.dataPtr (o + (m + k)) = h.byte p.dataPtrType p.dataPtr (o + m + k)
  rw [Nat.add_assoc]

/-- two heaps that agree on the bytes of the packet `p` -/
def SameBytes (h h' : Heap) (p : DataPacket) : Prop :=
  ∀ o, p.dataOffset ≤ o → o < p.dataOffset + p.dataSize →
    h'.byte p.dataPtrType p.dataPtr o = h.byte p.dataPtrType p.dataPtr o

theorem slice_same {h h' : Heap} {p : DataPacket} (hs : SameBytes h h' p) {o n : Nat}
    (ho : p.dataOffset ≤ o) (hn : o + n ≤ p.dataOffset + p.dataSize) :
    h'.slice p o n = h.slice p o n := by
  apply List.map_congr_left
  intro k hk
  have hk' : k < n := List.mem_range.mp hk
  exact hs (o + k) (by omega) (by omega)

theorem listBytes_same {h h' : Heap} {l : DataPacketsList} (hs : ∀ p ∈ l, SameBytes h h' p) :
    h'.listBytes l = h.listBytes l := by
  apply List.flatMap_congr
  intro p hp
  exact slice_same (hs p hp) le_rfl le_rfl

end Heap

/-- what a caller promises of a list: its size fits an `int`, and no packet wraps -/
def ListOk (A : FastInts) (l : DataPacketsList) : Prop :=
  l.length < 2^31 ∧ ∀ p ∈ l, p.dataOffset + p.dataSize < 2^A.w32

/-- the threads of a sender: the main thread, and its workers in the order they were created -/
inductive Thread where
  | main
  | worker (k : Nat)
  deriving DecidableEq, Repr

structure SenderWorkerData where
  packetsList : Option Ptr := none
  isDone : Bool := true
  isError : Bool := false
  sockFd : Int := -1
  terminateThread : Bool := false
  threadInitialized : Bool := false
  isTerminatedThread : Bool := true
  errorCode : Nat := 0
  packetsMutex : Mutex Thread := none
  packetsCond : Cond Thread := []
  deriving DecidableEq, Repr

/-- `TCP_SENDER_ERROR_CODES`; the last three are those of the zero-copy sender -/
inductive ErrorCode where
  | cantCpuAffinity
  | cantSocketTimeout
  | sendingError
  | notSupportedDataType
  | noError
  | cantSocketBuffers
  | zcPollError
  | zcRecvmsgError
  | zcNotificationError
  deriving DecidableEq, Repr

def ErrorCode.num : ErrorCode → Nat
  | .cantCpuAffinity => 0
  | .cantSocketTimeout => 1
  | .sendingError => 2
  | .notSupportedDataType => 3
  | .noError => 4
  | .cantSocketBuffers => 5
  | .zcPollError => 6
  | .zcRecvmsgError => 7
  | .zcNotificationError => 8

end RealTimeTransfer
