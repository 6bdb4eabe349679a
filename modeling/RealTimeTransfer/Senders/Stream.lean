import RealTimeTransfer.Senders.Session

/-!
# The byte stream of a session

What the worker still has to send of the list in its hands is `Worker.rest`, a function of its
local variables.  A step inside a list moves bytes from `rest` to the socket, or ends the thread;
so the bytes sent and the rest always make up the bytes accepted.

* `Worker.At A`            the local variables at their points of the loops;
* `Worker.step_flows`      one step inside a list;
* `Stream A`               the data part of the invariant of a session;
* `stream_exactly_once`    the socket gets a prefix of the accepted bytes, and all of them when
                           `is_done` is set.
-/

namespace RealTimeTransfer
open Machines Words Sync

namespace Worker

/-- the packets after the current one -/
def later (w : Worker) : DataPacketsList := w.dataToBeSent.drop (w.i.toNat + 1)

/-- the bytes of the list in hand that are still to be sent -/
def rest (h : Heap) (w : Worker) : List UInt8 :=
  match w.pc with
  | .unlock => h.listBytes w.dataToBeSent
  | .packet => h.listBytes (w.dataToBeSent.drop w.i.toNat)
  | .sending =>
    (w.current.elim [] fun p => h.slice p w.dataSent w.remainingData) ++ h.listBytes w.later
  | .sent s =>
    (w.current.elim [] fun p => h.slice p (w.dataSent + s.toNat) (w.remainingData - s.toNat))
      ++ h.listBytes w.later
  | _ => []

/-- the packet `p` is the current one, partly sent -/
structure Midway (w : Worker) (p : DataPacket) : Prop where
  index : 0 ≤ w.i
  current : w.current = some p
  known : p.dataPtrType ≠ .other
  offset : p.dataOffset ≤ w.dataSent
  left : w.dataSent + w.remainingData = p.dataOffset + p.dataSize

/-- the local variables at the points inside a list -/
def At (A : FastInts) (w : Worker) : Prop :=
  ListOk A w.dataToBeSent ∧
    match w.pc with
    | .packet => 0 ≤ w.i ∧ w.i ≤ w.dataToBeSent.length
    | .sending => ∃ p, w.Midway p
    | .sent s => s ≤ w.remainingData ∧ ∃ p, w.Midway p
    | _ => True

section
variable {zc : Bool} {A : FastInts} {k : Nat} {h h' : Heap} {d d' : SenderWorkerData}
  {w w' : Worker} {e : WorkerEvent} {p : DataPacket}

/-- a step inside a list: its bytes come from the front of the rest -/
def Flows (A : FastInts) (h : Heap) (w : Worker) (e : WorkerEvent) (w' : Worker) : Prop :=
  w.output h e <+: w.rest h ∧
    (w'.phase.inList = true →
      w'.At A ∧ w'.dataToBeSent = w.dataToBeSent ∧ w.output h e ++ w'.rest h = w.rest h)

theorem output_nil (hpc : w.pc ≠ .sending) : w.output h e = [] := by
  unfold output
  split
  case h_1 hs => exact absurd hs hpc
  case h_2 => rfl

theorem flows_quiet (hpc : w.pc ≠ .sending) (hat : w'.At A)
    (hd : w'.dataToBeSent = w.dataToBeSent) (hr : w'.rest h = w.rest h) : Flows A h w e w' := by
  have ho : w.output h e = [] := output_nil hpc
  refine ⟨ho ▸ List.nil_prefix, fun _ => ⟨hat, hd, ?_⟩⟩
  rw [ho, hr]
  rfl

theorem flows_out (hpc : w.pc ≠ .sending) (hp : w'.phase.inList = false) : Flows A h w e w' := by
  refine ⟨output_nil hpc ▸ List.nil_prefix, fun hin => ?_⟩
  rw [hp] at hin
  cases hin

theorem Midway.lt_length (hm : w.Midway p) : w.i.toNat < w.dataToBeSent.length :=
  (List.getElem?_eq_some_iff.mp hm.current).1

theorem Midway.mem (hm : w.Midway p) : p ∈ w.dataToBeSent := List.mem_of_getElem? hm.current

theorem Midway.bound (hm : w.Midway p) (hl : ListOk A w.dataToBeSent) :
    w.dataSent + w.remainingData < 2^A.w32 := by
  rw [hm.left]
  exact hl.2 p hm.mem

theorem listBytes_drop (hp : w.current = some p) :
    h.listBytes (w.dataToBeSent.drop w.i.toNat) = h.packetBytes p ++ h.listBytes w.later := by
  obtain ⟨hlt, hget⟩ := List.getElem?_eq_some_iff.mp hp
  rw [List.drop_eq_getElem_cons hlt, hget]
  rfl

theorem flows_packet (hpc : w.pc = .packet) (hat : w.At A)
    (hs : step zc A k h d w e = some (d', w')) : Flows A h w e w' := by
  have hne : w.pc ≠ .sending := by rw [hpc]; nofun
  obtain ⟨hl, hi⟩ := hat
  rw [hpc] at hi
  obtain ⟨h0, hle⟩ := hi
  have hrest : w.rest h = h.listBytes (w.dataToBeSent.drop w.i.toNat) := by
    unfold rest; rw [hpc]
  have hu : toU A.w32 w.i = w.i.toNat := by
    have hlt := hl.1
    have h1 : w.i = (w.i.toNat : Int) := (Int.toNat_of_nonneg h0).symm
    have h2 : toU A.w32 (w.i.toNat : Int) = w.i.toNat := toU_of_lt (A.lt32 (by omega))
    rw [← h1] at h2
    exact h2
  unfold step at hs
  rw [hpc] at hs
  cases e <;> try cases hs
  obtain ⟨v, hv, he⟩ := Option.map_eq_some_iff.mp hs
  cases he
  rcases nextPacket_cases hv with ⟨p, _, _, _, rfl⟩ | ⟨p, _, hp, ho, rfl⟩ | ⟨hge, rfl⟩
  · exact flows_out hne rfl
  · refine flows_quiet hne ⟨hl, p, h0, hp, ho, le_rfl, rfl⟩ rfl ?_
    rw [hrest, listBytes_drop hp]
    show (w.current.elim [] fun q => h.slice q p.dataOffset p.dataSize) ++ h.listBytes w.later = _
    rw [hp]
    rfl
  · rw [hu] at hge
    have hnil : w.rest h = [] := by
      rw [hrest, List.drop_eq_nil_of_le (by omega)]
      rfl
    cases zc with
    | true => exact flows_quiet hne ⟨hl, trivial⟩ rfl hnil.symm
    | false => exact flows_quiet hne ⟨hl, trivial⟩ rfl hnil.symm

/-- `send` or `sendfile` took some bytes, or the packet is finished -/
theorem flows_sending (hpc : w.pc = .sending) (hat : w.At A)
    (hs : step zc A k h d w e = some (d', w')) : Flows A h w e w' := by
  obtain ⟨hl, hm⟩ := hat
  rw [hpc] at hm
  obtain ⟨p, hm⟩ := hm
  have hrest : w.rest h = h.slice p w.dataSent w.remainingData ++ h.listBytes w.later := by
    unfold rest; rw [hpc]
    show (w.current.elim [] fun p => h.slice p w.dataSent w.remainingData) ++ _ = _
    rw [hm.current]; rfl
  unfold step at hs
  rw [hpc] at hs
  cases e with
  | tau =>
    obtain ⟨hr, he⟩ := Option.ite_some_none_eq_some.mp hs
    cases he
    have ho : w.output h .tau = [] := by unfold output; rw [hpc]
    have hlt := hm.lt_length
    have hlen := hl.1
    have h0 := hm.index
    have hi : toS 32 (w.i + 1) = w.i + 1 := toS_of_range (by decide) (by omega) (by omega)
    refine ⟨ho ▸ List.nil_prefix, fun _ => ⟨⟨hl, ?_⟩, rfl, ?_⟩⟩
    · show 0 ≤ toS 32 (w.i + 1) ∧ toS 32 (w.i + 1) ≤ w.dataToBeSent.length
      omega
    · rw [ho, hrest, hr]
      show h.listBytes (w.dataToBeSent.drop (toS 32 (w.i + 1)).toNat) = h.listBytes w.later
      rw [hi, Int.toNat_add h0 (by decide)]
      rfl
  | sent s =>
    obtain ⟨⟨hr, hle⟩, he⟩ := Option.ite_some_none_eq_some.mp hs
    cases he
    have ho : w.output h (.sent s) = h.slice p w.dataSent s.toNat := by
      unfold output
      rw [hpc]
      show (w.current.elim [] fun p => h.slice p w.dataSent s.toNat) = _
      rw [hm.current]; rfl
    have cut : h.slice p w.dataSent w.remainingData = h.slice p w.dataSent s.toNat
        ++ h.slice p (w.dataSent + s.toNat) (w.remainingData - s.toNat) := by
      rw [← Heap.slice_add]
      congr 1
      omega
    refine ⟨?_, fun _ =>
      ⟨⟨hl, hle, p, hm.index, hm.current, hm.known, hm.offset, hm.left⟩, rfl, ?_⟩⟩
    · rw [ho, hrest, cut, List.append_assoc]
      exact List.prefix_append _ _
    · rw [ho, hrest, cut, List.append_assoc]
      congr 1
      show (w.current.elim [] fun p =>
        h.slice p (w.dataSent + s.toNat) (w.remainingData - s.toNat)) ++ h.listBytes w.later = _
      rw [hm.current]; rfl
  | call ok => cases hs
  | wake => cases hs
  | recv m => cases hs

theorem flows_sent {s : Int} (hpc : w.pc = .sent s) (hat : w.At A)
    (hs : step zc A k h d w e = some (d', w')) : Flows A h w e w' := by
  have hne : w.pc ≠ .sending := by rw [hpc]; nofun
  obtain ⟨hl, hm⟩ := hat
  rw [hpc] at hm
  obtain ⟨hle, p, hm⟩ := hm
  unfold step at hs
  rw [hpc] at hs
  cases e <;> try cases hs
  by_cases hneg : s < 0
  · rw [if_pos hneg]
    exact flows_out hne rfl
  rw [if_neg hneg]
  rcases unlessTerminated_cases w d (w.sentBytes A s) with ⟨_, hu⟩ | ⟨_, hu⟩
  · rw [hu]
    exact flows_out hne rfl
  rw [hu]
  have hb := hm.bound hl
  have hs0 : s = (s.toNat : Int) := (Int.toNat_of_nonneg (by omega)).symm
  have hrem : (w.sentBytes A s).remainingData = w.remainingData - s.toNat := by
    have h1 : toU A.w32 ((w.remainingData - s.toNat : Nat) : Int) = w.remainingData - s.toNat :=
      toU_of_lt (by omega)
    have h2 : ((w.remainingData - s.toNat : Nat) : Int) = (w.remainingData : Int) - s := by omega
    rw [h2] at h1
    exact h1
  have hsent : (w.sentBytes A s).dataSent = w.dataSent + s.toNat := by
    have h1 : toU A.w32 ((w.dataSent + s.toNat : Nat) : Int) = w.dataSent + s.toNat :=
      toU_of_lt (by omega)
    have h2 : ((w.dataSent + s.toNat : Nat) : Int) = (w.dataSent : Int) + s := by omega
    rw [h2] at h1
    show (if w.isMemory then toU A.w32 (w.dataSent + s) else w.dataSent + s.toNat) = _
    cases w.isMemory
    · rfl
    · exact h1
  refine flows_quiet hne ⟨hl, p, hm.index, hm.current, hm.known, ?_, ?_⟩ rfl ?_
  · rw [hsent]
    exact le_trans hm.offset (Nat.le_add_right _ _)
  · rw [hsent, hrem, ← hm.left]
    omega
  · have hrest : w.rest h = (w.current.elim [] fun p =>
        h.slice p (w.dataSent + s.toNat) (w.remainingData - s.toNat)) ++ h.listBytes w.later := by
      unfold rest; rw [hpc]
    rw [hrest]
    show (w.current.elim [] fun p => h.slice p (w.sentBytes A s).dataSent
      (w.sentBytes A s).remainingData) ++ h.listBytes w.later = _
    rw [hsent, hrem]

theorem flows_unlock (hpc : w.pc = .unlock) (hat : w.At A)
    (hs : step zc A k h d w e = some (d', w')) : Flows A h w e w' := by
  have hne : w.pc ≠ .sending := by rw [hpc]; nofun
  have hrest : w.rest h = h.listBytes w.dataToBeSent := by unfold rest; rw [hpc]
  unfold step at hs
  rw [hpc] at hs
  cases e <;> try cases hs
  change some (protUnlock d { w with i := 0 } .packet) = some (d', w') at hs
  rw [protUnlock_eq] at hs
  cases hs
  refine flows_quiet hne ⟨hat.1, le_rfl, Int.natCast_nonneg _⟩ rfl ?_
  rw [hrest]
  rfl

theorem flows_tail (hpc : w.pc = .zcTest ∨ w.pc = .poll ∨ w.pc = .recvmsg ∨ w.pc = .setDone)
    (hat : w.At A) (hs : step zc A k h d w e = some (d', w')) : Flows A h w e w' := by
  have hl := hat.1
  have hne : w.pc ≠ .sending := by rcases hpc with hpc | hpc | hpc | hpc <;> rw [hpc] <;> nofun
  have hrest : w.rest h = [] := by
    unfold rest
    rcases hpc with hpc | hpc | hpc | hpc <;> rw [hpc]
  unfold step at hs
  rcases hpc with hpc | hpc | hpc | hpc <;> rw [hpc] at hs
  · cases e <;> try cases hs
    by_cases hc : w.lastSendingCounter < w.sendingCounter
    · rw [if_pos hc]
      exact flows_quiet hne ⟨hl, trivial⟩ rfl hrest.symm
    · rw [if_neg hc]
      exact flows_quiet hne ⟨hl, trivial⟩ rfl hrest.symm
  · cases e <;> try cases hs
    rename_i ok
    cases ok
    · exact flows_out hne rfl
    · exact flows_quiet hne ⟨hl, trivial⟩ rfl hrest.symm
  · cases e <;> try cases hs
    rename_i m
    cases m with
    | none => cases hs; exact flows_out hne rfl
    | some m =>
      cases hs
      unfold notified
      by_cases hm : toS 32 (readNotificationZc m) < 1
      · rw [if_pos hm]
        exact flows_out hne rfl
      · rw [if_neg hm]
        exact flows_quiet hne ⟨hl, trivial⟩ rfl hrest.symm
  · cases e <;> try cases hs
    exact flows_out hne rfl

/-- **One step inside a list**, of either sender. -/
theorem step_flows (hin : w.phase.inList = true) (hat : w.At A)
    (hs : step zc A k h d w e = some (d', w')) : Flows A h w e w' := by
  cases hpc : w.pc
  case unlock => exact flows_unlock hpc hat hs
  case packet => exact flows_packet hpc hat hs
  case sending => exact flows_sending hpc hat hs
  case sent s => exact flows_sent hpc hat hs
  case zcTest => exact flows_tail (.inl hpc) hat hs
  case poll => exact flows_tail (.inr (.inl hpc)) hat hs
  case recvmsg => exact flows_tail (.inr (.inr (.inl hpc))) hat hs
  case setDone => exact flows_tail (.inr (.inr (.inr hpc))) hat hs
  all_goals
    unfold phase at hin
    rw [hpc] at hin
    cases hin

theorem output_outside (hin : w.phase.inList = false) : w.output h e = [] := by
  refine output_nil fun hpc => ?_
  unfold phase at hin
  rw [hpc] at hin
  cases hin

theorem rest_same (hat : w.At A) (hsame : ∀ p ∈ w.dataToBeSent, Heap.SameBytes h h' p) :
    w.rest h' = w.rest h := by
  obtain ⟨-, hm⟩ := hat
  have hlater : h'.listBytes w.later = h.listBytes w.later :=
    Heap.listBytes_same fun p hp => hsame p (List.mem_of_mem_drop hp)
  unfold rest
  split
  case h_1 => exact Heap.listBytes_same hsame
  case h_2 => exact Heap.listBytes_same fun p hp => hsame p (List.mem_of_mem_drop hp)
  case h_3 hpc =>
    rw [hpc] at hm
    obtain ⟨p, hm⟩ := hm
    rw [hlater, hm.current]
    congr 1
    exact Heap.slice_same (hsame p hm.mem) hm.offset (le_of_eq hm.left)
  case h_4 s hpc =>
    rw [hpc] at hm
    obtain ⟨hle, p, hm⟩ := hm
    have ho := hm.offset
    have hleft := hm.left
    rw [hlater, hm.current]
    congr 1
    exact Heap.slice_same (hsame p hm.mem) (by omega) (by omega)
  case h_5 => rfl

end
end Worker

/-! ## The session -/

/-- what a caller promises: proper lists, and an accepted list and its bytes left unchanged until
it is reported done -/
def CallerOk (A : FastInts) (s : Session) : SessionEvent → Prop
  | .callSend p => ListOk A (s.heap.lists p)
  | .write h => ∀ p, s.outstanding = some p →
      h.lists p = s.heap.lists p ∧ ∀ q ∈ s.heap.lists p, Heap.SameBytes s.heap h q
  | _ => True

/-- where the accepted bytes are: sent, in the worker's hands or pending -/
structure Stream (A : FastInts) (s : Session) : Prop where
  argument : ∀ p, s.main.pc.argument = some p → ListOk A (s.heap.lists p)
  handing : ∀ p, s.main.pc = .sendUnlock p → s.data.packetsList = some p ∧
    s.data.isDone = false ∧ s.worker.phase.inList = false ∧ s.out = s.acceptedBytes
  pending : ∀ p, s.data.packetsList = some p → (∀ q, s.main.pc ≠ .sendUnlock q) →
    s.outstanding = some p ∧ ListOk A (s.heap.lists p) ∧
      s.out ++ s.heap.listBytes (s.heap.lists p) = s.acceptedBytes
  inHand : s.worker.phase.inList = true → ∃ p, s.outstanding = some p ∧
    s.heap.lists p = s.worker.dataToBeSent ∧ s.worker.At A ∧
      s.out ++ s.worker.rest s.heap = s.acceptedBytes
  done : s.data.isDone = true → s.out = s.acceptedBytes
  sofar : s.out <+: s.acceptedBytes

section
variable {zc : Bool} {A : FastInts} {s t : Session}

theorem stream_start (h : Heap) (so : Sockets) (err : Error) :
    Stream A (Session.start h so err) := by
  refine ⟨?_, ?_, ?_, ?_, fun _ => rfl, List.nil_prefix⟩
  · intro p hp
    cases hp
  · intro p hp
    cases hp
  · intro p hp
    cases hp
  · intro hin
    cases hin

theorem Stream.enter (h : Stream A s) {m : Sender} (hr : s.main.pc.isReady = true)
    (hu : ∀ q, m.pc ≠ .sendUnlock q)
    (ha : ∀ p, m.pc.argument = some p → ListOk A (s.heap.lists p)) :
    Stream A { s with main := m } := by
  have hready : ∀ q, s.main.pc ≠ .sendUnlock q := by
    intro q hq
    rw [hq] at hr
    cases hr
  exact ⟨ha, fun p hp => absurd hp (hu p), fun p hp _ => h.pending p hp hready, h.inHand, h.done,
    h.sofar⟩

theorem Stream.write (h : Stream A s) {h' : Heap} (hr : s.main.pc.isReady = true)
    (ho : CallerOk A s (.write h')) : Stream A { s with heap := h' } := by
  have harg : ∀ p, s.main.pc.argument ≠ some p := by
    intro p hp
    cases hpc : s.main.pc with
    | ready r => rw [hpc] at hp; cases hp
    | _ => rw [hpc] at hr; cases hr
  have hready : ∀ q, s.main.pc ≠ .sendUnlock q := by
    intro q hq
    rw [hq] at hr
    cases hr
  refine ⟨fun p hp => absurd hp (harg p), fun p hp => absurd hp (hready p), ?_, ?_, h.done,
    h.sofar⟩
  · intro p hp _
    obtain ⟨hout, hok, hsum⟩ := h.pending p hp hready
    obtain ⟨hl, hb⟩ := ho p hout
    refine ⟨hout, ?_, ?_⟩
    · show ListOk A (h'.lists p)
      rw [hl]
      exact hok
    · show s.out ++ h'.listBytes (h'.lists p) = s.acceptedBytes
      rw [hl, Heap.listBytes_same hb]
      exact hsum
  · intro hin
    obtain ⟨p, hout, heq, hat, hsum⟩ := h.inHand hin
    obtain ⟨hl, hb⟩ := ho p hout
    refine ⟨p, hout, hl.trans heq, hat, ?_⟩
    show s.out ++ s.worker.rest h' = s.acceptedBytes
    rw [Worker.rest_same hat (heq ▸ hb)]
    exact hsum

/-- **A step of the main thread keeps the stream.** -/
theorem Stream.advance (hi : s.Inv) (h : Stream A s) {d : SenderWorkerData} {m : Sender}
    (hs : s.main.step zc s.data = some (d, m)) :
    Stream A { s.noteMain with data := d, main := m } := by
  have adv := Sender.step_advance hs
  have harg : ∀ p, m.pc.argument = some p → ListOk A (s.heap.lists p) := fun p hp =>
    h.argument p (adv.argument_eq hp)
  rcases adv.stores with ⟨p, hpc, hpc', hl, hd⟩ | ⟨hpc, hpc', hl, hd⟩ | ⟨hu, hl, hd⟩
  · rw [Session.noteMain_eq (by rw [hpc]; nofun)]
    have hdone : s.data.isDone = true := hi.control.handOk.storing (by rw [hpc]; rfl)
    have hin := (hi.control.handOk.done hdone).2
    refine ⟨harg, ?_, ?_, ?_, ?_, h.sofar⟩
    · intro q hq
      have hqp : q = p := SenderPc.sendUnlock.inj (hq.symm.trans hpc')
      exact ⟨hqp ▸ hl, hd, hin, h.done hdone⟩
    · exact fun q _ hq => absurd hpc' (hq p)
    · intro hin'
      exact absurd (hin'.symm.trans hin) nofun
    · intro hd'
      exact absurd (hd'.symm.trans hd) nofun
  · rw [Session.noteMain_eq (by rw [hpc]; nofun)]
    refine ⟨harg, ?_, ?_, h.inHand, ?_, h.sofar⟩
    · intro q hq
      exact absurd (hq.symm.trans hpc') nofun
    · intro q hq
      exact absurd (hq.symm.trans hl) nofun
    · intro hd'
      exact absurd (hd'.symm.trans hd) nofun
  · by_cases hpc : ∃ p, s.main.pc = .sendUnlock p
    · obtain ⟨p, hpc⟩ := hpc
      obtain ⟨hp, hdone, hin, hout⟩ := h.handing p hpc
      have hok : ListOk A (s.heap.lists p) := h.argument p (by rw [hpc]; rfl)
      rw [Session.noteMain_unlock hpc]
      refine ⟨harg, fun q hq => absurd hq (hu q), ?_, ?_, ?_, ?_⟩
      · intro q hq _
        have hqp : p = q := Option.some.inj (hp.symm.trans (hl.symm.trans hq))
        subst hqp
        refine ⟨rfl, hok, ?_⟩
        show s.out ++ _ = s.acceptedBytes ++ _
        rw [hout]
      · intro hin'
        exact absurd (hin'.symm.trans hin) nofun
      · intro hd'
        exact absurd (hd'.symm.trans (hd.trans hdone)) nofun
      · exact h.sofar.trans (List.prefix_append _ _)
    · have hpc' : ∀ q, s.main.pc ≠ .sendUnlock q := fun q hq => hpc ⟨q, hq⟩
      rw [Session.noteMain_eq hpc']
      refine ⟨harg, fun q hq => absurd hq (hu q), ?_, h.inHand, ?_, h.sofar⟩
      · exact fun q hq _ => h.pending q (hl ▸ hq) hpc'
      · exact fun hd' => h.done (hd ▸ hd')

section
variable {e : WorkerEvent} {d : SenderWorkerData} {w : Worker}

theorem Stream.not_handing (h : Stream A s) (hin : s.worker.phase.inList = true) (q : Ptr) :
    s.main.pc ≠ .sendUnlock q := by
  intro hq
  have hout := (h.handing q hq).2.2.1
  rw [hin] at hout
  cases hout

theorem Stream.inside (hi : s.Inv) (h : Stream A s) (hin : s.worker.phase.inList = true)
    (hf : s.worker.phase ≠ .finishing)
    (hs : s.worker.step zc A 0 s.heap s.data e = some (d, w)) :
    Stream A { s.noteWorker e with data := d, worker := w } := by
  obtain ⟨-, shake⟩ := Worker.step_handshake hi.sane hs
  obtain ⟨p, hout, heq, hat, hsum⟩ := h.inHand hin
  obtain ⟨hpre, hflow⟩ := Worker.step_flows hin hat hs
  have hnone : d.packetsList = none := by
    rw [shake.packetsList_eq (fun ht => by rw [ht] at hin; cases hin)]
    exact hi.control.handOk.inList hin
  refine ⟨h.argument, fun q hq => absurd hq (h.not_handing hin q), ?_, ?_, ?_, ?_⟩
  · intro q hq
    exact absurd (hq.symm.trans hnone) nofun
  · intro hin'
    obtain ⟨hat', hdata, hrest⟩ := hflow hin'
    refine ⟨p, ?_, heq.trans hdata.symm, hat', ?_⟩
    · show (if s.worker.pc = .setDone then none else s.outstanding) = some p
      rw [if_neg (fun hpc => hf (Worker.phase_finishing.mpr hpc)), hout]
    · show (s.out ++ _) ++ w.rest s.heap = s.acceptedBytes
      rw [List.append_assoc, hrest, hsum]
  · intro hd
    rw [show d.isDone = s.data.isDone from shake.isDone_eq hf] at hd
    have hno := (hi.control.handOk.done hd).2
    rw [hin] at hno
    cases hno
  · show s.out ++ _ <+: s.acceptedBytes
    rw [← hsum]
    exact (List.prefix_append_right_inj _).mpr hpre

theorem Stream.finished (hi : s.Inv) (h : Stream A s) (hf : s.worker.phase = .finishing)
    (hs : s.worker.step zc A 0 s.heap s.data e = some (d, w)) :
    Stream A { s.noteWorker e with data := d, worker := w } := by
  obtain ⟨-, shake⟩ := Worker.step_handshake hi.sane hs
  have hpc := Worker.phase_finishing.mp hf
  have hin : s.worker.phase.inList = true := by rw [hf]; rfl
  obtain ⟨p, -, -, -, hsum⟩ := h.inHand hin
  have hrest : s.worker.rest s.heap = [] := by unfold Worker.rest; rw [hpc]
  rw [hrest, List.append_nil] at hsum
  have hout : s.out ++ s.worker.output s.heap e = s.acceptedBytes := by
    rw [Worker.output_nil (by rw [hpc]; nofun), List.append_nil, hsum]
  rw [hf] at shake
  obtain ⟨hfree, hd⟩ := shake.of_finishing
  have hnone : d.packetsList = none := by rw [hd]; exact hi.control.handOk.inList hin
  refine ⟨h.argument, fun q hq => absurd hq (h.not_handing hin q), ?_, ?_, fun _ => hout, ?_⟩
  · intro q hq
    exact absurd (hq.symm.trans hnone) nofun
  · intro hin'
    rw [show w.phase = .free from hfree] at hin'
    cases hin'
  · show s.out ++ _ <+: s.acceptedBytes
    rw [hout]

theorem Stream.take (hi : s.Inv) (h : Stream A s) (ht : s.worker.phase = .taking)
    (hs : s.worker.step zc A 0 s.heap s.data e = some (d, w)) :
    Stream A { s.noteWorker e with data := d, worker := w } := by
  have hpc := Worker.phase_taking.mp ht
  obtain ⟨p, hp, rfl, rfl⟩ := Worker.step_copy hpc hs
  have hfree : ∀ q, s.main.pc ≠ .sendUnlock q := by
    intro q hq
    have hno := hi.control.mutexOk.apart (by rw [ht]; rfl)
    rw [hq] at hno
    cases hno
  obtain ⟨hout, hok, hsum⟩ := h.pending p hp hfree
  have ho : s.out ++ s.worker.output s.heap e = s.out := by
    rw [Worker.output_nil (by rw [hpc]; nofun), List.append_nil]
  refine ⟨h.argument, fun q hq => absurd hq (hfree q), nofun, ?_, ?_, ?_⟩
  · intro _
    refine ⟨p, ?_, rfl, ⟨hok, trivial⟩, ?_⟩
    · show (if s.worker.pc = .setDone then none else s.outstanding) = some p
      rw [if_neg (by rw [hpc]; nofun), hout]
    · show (s.out ++ _) ++ s.heap.listBytes (s.heap.lists p) = s.acceptedBytes
      rw [ho, hsum]
  · intro hd
    exact ho.trans (h.done hd)
  · show s.out ++ _ <+: s.acceptedBytes
    rw [ho]
    exact h.sofar

theorem Stream.outside (hi : s.Inv) (h : Stream A s) (hin : s.worker.phase.inList = false)
    (ht : s.worker.phase ≠ .taking)
    (hs : s.worker.step zc A 0 s.heap s.data e = some (d, w)) :
    Stream A { s.noteWorker e with data := d, worker := w } := by
  obtain ⟨-, shake⟩ := Worker.step_handshake hi.sane hs
  have hf : s.worker.phase ≠ .finishing := by
    intro hf
    rw [hf] at hin
    cases hin
  have ho : s.out ++ s.worker.output s.heap e = s.out := by
    rw [Worker.output_outside hin, List.append_nil]
  have hl : d.packetsList = s.data.packetsList := shake.packetsList_eq ht
  have hd : d.isDone = s.data.isDone := shake.isDone_eq hf
  have hin' : w.phase.inList = false := by
    cases hw : w.phase.inList with
    | false => rfl
    | true =>
      rcases shake.inList_of hw with hw | hw
      · rw [hin] at hw; cases hw
      · exact absurd hw ht
  have hpc : s.worker.pc ≠ .setDone := fun hpc => hf (Worker.phase_finishing.mpr hpc)
  refine ⟨h.argument, ?_, ?_, ?_, ?_, ?_⟩
  · intro q hq
    obtain ⟨h1, h2, -, h4⟩ := h.handing q hq
    exact ⟨hl.trans h1, hd.trans h2, hin', ho.trans h4⟩
  · intro q hq hfree
    obtain ⟨h1, h2, h3⟩ := h.pending q (hl ▸ hq) hfree
    refine ⟨?_, h2, ?_⟩
    · show (if s.worker.pc = .setDone then none else s.outstanding) = some q
      rw [if_neg hpc, h1]
    · show (s.out ++ _) ++ _ = s.acceptedBytes
      rw [ho]
      exact h3
  · intro hw
    rw [show w.phase.inList = false from hin'] at hw
    cases hw
  · intro hd'
    exact ho.trans (h.done (hd ▸ hd'))
  · show s.out ++ _ <+: s.acceptedBytes
    rw [ho]
    exact h.sofar

/-- **A step of the worker keeps the stream.** -/
theorem Stream.work (hi : s.Inv) (h : Stream A s)
    (hs : s.worker.step zc A 0 s.heap s.data e = some (d, w)) :
    Stream A { s.noteWorker e with data := d, worker := w } := by
  by_cases hf : s.worker.phase = .finishing
  · exact h.finished hi hf hs
  by_cases ht : s.worker.phase = .taking
  · exact h.take hi ht hs
  cases hin : s.worker.phase.inList with
  | true => exact h.inside hi hin hf hs
  | false => exact h.outside hi hin ht hs

end

/-- **Every step that meets the caller's promise keeps the stream.** -/
theorem Stream.step (hi : s.Inv) (h : Stream A s) {e : SessionEvent} (ho : CallerOk A s e)
    (hs : s.step zc A e = some t) : Stream A t := by
  cases Session.step_does hs with
  | called p hr =>
    refine h.enter hr nofun ?_
    intro q hq
    exact Option.some.inj hq ▸ ho
  | calledEnd hr => exact h.enter hr nofun nofun
  | asked => exact h
  | told => exact ⟨h.argument, h.handing, h.pending, h.inHand, h.done, h.sofar⟩
  | ran hm => exact h.advance hi hm
  | worked hw => exact h.work hi hw
  | written h' hr => exact h.write hr ho

/-- **Exactly-once, in-order byte stream.**  In every state that a session reaches, the bytes given
to the client socket are the first ones of the lists accepted so far; and they are all of them
whenever `is_done` is set. -/
theorem stream_exactly_once {h : Heap} {so : Sockets} {err : Error} {es : List SessionEvent}
    (hr : (session zc A).Runs (CallerOk A) (Session.start h so err) es t) :
    t.out <+: t.acceptedBytes ∧ (t.data.isDone = true → t.out = t.acceptedBytes) := by
  have hst : t.Inv ∧ Stream A t := by
    refine hr.keeps (fun s => s.Inv ∧ Stream A s)
      ⟨Session.inv_start h so err, stream_start h so err⟩ ?_
    rintro v e v' ⟨hi, hv⟩ ho hs
    exact ⟨hi.step hs, hv.step hi ho hs⟩
  exact ⟨hst.2.sofar, hst.2.done⟩

/-- three bytes of memory and one byte of a file -/
def twoPackets : Heap :=
  ⟨fun _ => [⟨.memoryLocation, 10, 3, 1⟩, ⟨.fileDescriptor, 20, 1, 0⟩],
    fun _ p o => UInt8.ofNat (p + o)⟩

/-- the main thread hands the list over, the worker sends it in three pieces -/
def threePieces : List SessionEvent :=
  List.replicate 6 .main ++ List.replicate 4 (.worker (.call true)) ++
    List.replicate 6 (.worker .tau) ++
    [.worker (.sent 2), .worker .tau, .worker (.sent 1), .worker .tau, .worker .tau,
      .worker .tau, .worker (.sent 1), .worker .tau, .worker .tau, .worker .tau, .worker .tau]

theorem stream_three_pieces :
    ∃ t, (session false FastInts.lp64).Runs (CallerOk FastInts.lp64)
        (Session.start twoPackets {} (Error.construct "TCPSender")) (.callSend 7 :: threePieces) t ∧
      t.out = [11, 12, 13, 20] ∧ t.out = t.acceptedBytes := by
  have hrun : ((session false FastInts.lp64).run
      (Session.start twoPackets {} (Error.construct "TCPSender")) (.callSend 7 :: threePieces)).map
        (fun t => (t.out, t.data.isDone)) = some ([11, 12, 13, 20], true) := by decide
  obtain ⟨t, ht, he⟩ := Option.map_eq_some_iff.mp hrun
  obtain ⟨hout, hdone⟩ := Prod.mk.inj he
  rw [Machine.run_cons] at ht
  obtain ⟨s, hs, ht⟩ := Option.bind_eq_some_iff.mp ht
  have hcall : (session false FastInts.lp64).Runs (CallerOk FastInts.lp64)
      (Session.start twoPackets {} (Error.construct "TCPSender")) [.callSend 7] s := by
    refine Machine.Runs.single ⟨by decide, ?_⟩ hs
    simp [Session.start, twoPackets, FastInts.lp64]
  have hrest : ∀ e ∈ threePieces, ∀ v, CallerOk FastInts.lp64 v e := by
    intro e he v
    cases e with
    | callSend p => simp [threePieces] at he
    | write h => simp [threePieces] at he
    | _ => trivial
  have hall := hcall.append (Machine.Runs.of_run ht hrest)
  exact ⟨t, hall, hout, (stream_exactly_once hall).2 hdone⟩

end
end RealTimeTransfer
