import RealTimeTransfer.Senders.Copies
import RealTimeTransfer.Senders.Stream

/-!
# From the accepted lists to the socket

The worker sends its own copy of a list, so the caller may change the list again as soon as it is
copied; the bytes that its packets name have to stay until it is reported done.

* `Session.inTransit`   the last list accepted, until it is reported done;
* `SendOk`              the caller leaves a pending list alone, and the bytes in transit;
* `Delivered`           what is accepted is sent, in the worker's hands or pending;
* `Delivered.step`      one step of a session.
-/

namespace RealTimeTransfer
open Machines Words Sync

/-- the last list accepted, as long as it is not reported done -/
def Session.inTransit (s : Session) : Option DataPacketsList :=
  s.outstanding.bind fun _ => s.accepted.getLast?

/-- the bytes of the list in transit are the same in `h'` -/
def Session.BytesKept (s : Session) (h' : Heap) : Prop :=
  ∀ l ∈ s.inTransit, ∀ p ∈ l, Heap.SameBytes s.heap h' p

/-- the caller hands proper lists over, and leaves a pending one and the bytes in transit alone -/
def SendOk (A : FastInts) (s : Session) : SessionEvent → Prop
  | .callSend p => ListOk A (s.heap.lists p)
  | .write h' => PendingOk s (.write h') ∧ s.BytesKept h'
  | _ => True

/-- where the accepted bytes are, whatever has become of the list behind them -/
structure Delivered (A : FastInts) (s : Session) : Prop where
  argument : ∀ p, s.main.pc.argument = some p → ListOk A (s.heap.lists p)
  handing : ∀ p, s.main.pc = .sendUnlock p → s.data.packetsList = some p ∧
    s.data.isDone = false ∧ s.worker.phase.inList = false ∧ s.out = s.acceptedBytes
  pending : ∀ p, s.data.packetsList = some p → (∀ q, s.main.pc ≠ .sendUnlock q) →
    s.inTransit = some (s.heap.lists p) ∧ ListOk A (s.heap.lists p) ∧
      s.out ++ s.heap.listBytes (s.heap.lists p) = s.acceptedBytes
  inHand : s.worker.phase.inList = true → s.inTransit = some s.worker.dataToBeSent ∧
    s.worker.At A ∧ s.out ++ s.worker.rest s.heap = s.acceptedBytes
  done : s.data.isDone = true → s.out = s.acceptedBytes
  sofar : s.out <+: s.acceptedBytes

section
variable {zc : Bool} {A : FastInts} {s t : Session}

theorem SenderPc.not_handing {pc : SenderPc} (hr : pc.isReady = true) (q : Ptr) :
    pc ≠ .sendUnlock q := by
  rintro rfl
  cases hr

theorem SenderPc.no_argument {pc : SenderPc} (hr : pc.isReady = true) : pc.argument = none := by
  cases pc <;> first | rfl | cases hr

theorem Delivered.enter (hd : Delivered A s) {m : Sender} (hr : s.main.pc.isReady = true)
    (hu : ∀ q, m.pc ≠ .sendUnlock q)
    (ha : ∀ p, m.pc.argument = some p → ListOk A (s.heap.lists p)) :
    Delivered A { s with main := m } :=
  ⟨ha, fun p hp => absurd hp (hu p), fun p hp _ => hd.pending p hp (SenderPc.not_handing hr),
    hd.inHand, hd.done, hd.sofar⟩

/-- **Another heap**, at any point of the main thread. -/
theorem Delivered.rewrite (hd : Delivered A s) {h' : Heap}
    (harg : ∀ p, s.main.pc.argument = some p → h'.lists p = s.heap.lists p)
    (hpend : PendingOk s (.write h')) (hbytes : s.BytesKept h') :
    Delivered A { s with heap := h' } := by
  refine ⟨fun p hp => ?_, hd.handing, fun p hp hfree => ?_, fun hin => ?_, hd.done, hd.sofar⟩
  · show ListOk A (h'.lists p)
    rw [harg p hp]
    exact hd.argument p hp
  · obtain ⟨htransit, hok, hsum⟩ := hd.pending p hp hfree
    have hl : h'.lists p = s.heap.lists p := hpend p hp
    have hb : h'.listBytes (s.heap.lists p) = s.heap.listBytes (s.heap.lists p) :=
      Heap.listBytes_same (hbytes _ htransit)
    refine ⟨?_, ?_, ?_⟩
    · show s.inTransit = some (h'.lists p)
      rw [hl]
      exact htransit
    · show ListOk A (h'.lists p)
      rw [hl]
      exact hok
    · show s.out ++ h'.listBytes (h'.lists p) = s.acceptedBytes
      rw [hl, hb]
      exact hsum
  · obtain ⟨htransit, hat, hsum⟩ := hd.inHand hin
    refine ⟨htransit, hat, ?_⟩
    show s.out ++ s.worker.rest h' = s.acceptedBytes
    rw [Worker.rest_same hat (hbytes _ htransit)]
    exact hsum

/-- **A step of the main thread.** -/
theorem Delivered.advance (hi : s.Inv) (hd : Delivered A s) {d : SenderWorkerData} {m : Sender}
    (hs : s.main.step zc s.data = some (d, m)) :
    Delivered A { s.noteMain with data := d, main := m } := by
  have adv := Sender.step_advance hs
  have harg : ∀ p, m.pc.argument = some p → ListOk A (s.heap.lists p) := fun p hp =>
    hd.argument p (adv.argument_eq hp)
  rcases adv.stores with ⟨p, hpc, hpc', hl, hdone'⟩ | ⟨hpc, hpc', hl, hdone'⟩ | ⟨hu, hl, hdone'⟩
  · rw [Session.noteMain_eq (by rw [hpc]; nofun)]
    have hdone : s.data.isDone = true := hi.control.handOk.storing (by rw [hpc]; rfl)
    have hin := (hi.control.handOk.done hdone).2
    refine ⟨harg, fun q hq => ?_, fun q _ hq => absurd hpc' (hq p), hd.inHand, fun h => ?_,
      hd.sofar⟩
    · have hqp : q = p := SenderPc.sendUnlock.inj (hq.symm.trans hpc')
      exact ⟨hqp ▸ hl, hdone', hin, hd.done hdone⟩
    · exact absurd (h.symm.trans hdone') nofun
  · rw [Session.noteMain_eq (by rw [hpc]; nofun)]
    refine ⟨harg, fun q hq => ?_, fun q hq => ?_, hd.inHand, fun h => ?_, hd.sofar⟩
    · exact absurd (hq.symm.trans hpc') nofun
    · exact absurd (hq.symm.trans hl) nofun
    · exact absurd (h.symm.trans hdone') nofun
  · by_cases hpc : ∃ p, s.main.pc = .sendUnlock p
    · obtain ⟨p, hpc⟩ := hpc
      obtain ⟨hp, hdone, hin, hout⟩ := hd.handing p hpc
      have hok : ListOk A (s.heap.lists p) := hd.argument p (by rw [hpc]; rfl)
      rw [Session.noteMain_unlock hpc]
      refine ⟨harg, fun q hq => absurd hq (hu q), fun q hq _ => ?_, fun h => ?_, fun h => ?_, ?_⟩
      · have hqp : p = q := Option.some.inj (hp.symm.trans (hl.symm.trans hq))
        subst hqp
        refine ⟨List.getLast?_concat, hok, ?_⟩
        show s.out ++ _ = s.acceptedBytes ++ _
        rw [hout]
      · exact absurd (h.symm.trans hin) nofun
      · exact absurd (h.symm.trans (hdone'.trans hdone)) nofun
      · exact hd.sofar.trans (List.prefix_append _ _)
    · have hpc' : ∀ q, s.main.pc ≠ .sendUnlock q := fun q hq => hpc ⟨q, hq⟩
      rw [Session.noteMain_eq hpc']
      exact ⟨harg, fun q hq => absurd hq (hu q), fun q hq _ => hd.pending q (hl ▸ hq) hpc',
        hd.inHand, fun h => hd.done (hdone' ▸ h), hd.sofar⟩

section
variable {e : WorkerEvent} {d : SenderWorkerData} {w : Worker}

theorem Session.noteWorker_inTransit (hf : s.worker.phase ≠ .finishing) :
    (s.noteWorker e).inTransit = s.inTransit := by
  have hout : (s.noteWorker e).outstanding = s.outstanding :=
    if_neg fun hpc => hf (Worker.phase_finishing.mpr hpc)
  show (s.noteWorker e).outstanding.bind (fun _ => s.accepted.getLast?) = _
  rw [hout]
  rfl

theorem Delivered.not_handing (hd : Delivered A s) (hin : s.worker.phase.inList = true) (q : Ptr) :
    s.main.pc ≠ .sendUnlock q := by
  intro hq
  have hout := (hd.handing q hq).2.2.1
  rw [hin] at hout
  cases hout

theorem Delivered.inside (hi : s.Inv) (hd : Delivered A s) (hin : s.worker.phase.inList = true)
    (hf : s.worker.phase ≠ .finishing)
    (hs : s.worker.step zc A 0 s.heap s.data e = some (d, w)) :
    Delivered A { s.noteWorker e with data := d, worker := w } := by
  obtain ⟨-, shake⟩ := Worker.step_handshake hi.sane hs
  obtain ⟨htransit, hat, hsum⟩ := hd.inHand hin
  obtain ⟨hpre, hflow⟩ := Worker.step_flows hin hat hs
  have hnone : d.packetsList = none := by
    rw [shake.packetsList_eq (fun ht => by rw [ht] at hin; cases hin)]
    exact hi.control.handOk.inList hin
  refine ⟨hd.argument, fun q hq => absurd hq (hd.not_handing hin q), fun q hq => ?_, fun hin' => ?_,
    fun h => ?_, ?_⟩
  · exact absurd (hq.symm.trans hnone) nofun
  · obtain ⟨hat', hdata, hrest⟩ := hflow hin'
    refine ⟨?_, hat', ?_⟩
    · show (s.noteWorker e).inTransit = some w.dataToBeSent
      rw [Session.noteWorker_inTransit hf, hdata]
      exact htransit
    · show (s.out ++ _) ++ w.rest s.heap = s.acceptedBytes
      rw [List.append_assoc, hrest, hsum]
  · have hno := (hi.control.handOk.done ((shake.isDone_eq hf).symm.trans h)).2
    exact absurd (hin.symm.trans hno) nofun
  · show s.out ++ _ <+: s.acceptedBytes
    rw [← hsum]
    exact (List.prefix_append_right_inj _).mpr hpre

theorem Delivered.finished (hi : s.Inv) (hd : Delivered A s) (hf : s.worker.phase = .finishing)
    (hs : s.worker.step zc A 0 s.heap s.data e = some (d, w)) :
    Delivered A { s.noteWorker e with data := d, worker := w } := by
  obtain ⟨-, shake⟩ := Worker.step_handshake hi.sane hs
  have hpc := Worker.phase_finishing.mp hf
  have hin : s.worker.phase.inList = true := by rw [hf]; rfl
  obtain ⟨-, -, hsum⟩ := hd.inHand hin
  have hrest : s.worker.rest s.heap = [] := by unfold Worker.rest; rw [hpc]
  rw [hrest, List.append_nil] at hsum
  have hout : s.out ++ s.worker.output s.heap e = s.acceptedBytes := by
    rw [Worker.output_nil (by rw [hpc]; nofun), List.append_nil, hsum]
  rw [hf] at shake
  obtain ⟨hfree, hdata⟩ := shake.of_finishing
  have hnone : d.packetsList = none := by rw [hdata]; exact hi.control.handOk.inList hin
  refine ⟨hd.argument, fun q hq => absurd hq (hd.not_handing hin q), fun q hq => ?_, fun hin' => ?_,
    fun _ => hout, ?_⟩
  · exact absurd (hq.symm.trans hnone) nofun
  · rw [show w.phase = .free from hfree] at hin'
    cases hin'
  · show s.out ++ _ <+: s.acceptedBytes
    rw [hout]

theorem Delivered.take (hi : s.Inv) (hd : Delivered A s) (ht : s.worker.phase = .taking)
    (hs : s.worker.step zc A 0 s.heap s.data e = some (d, w)) :
    Delivered A { s.noteWorker e with data := d, worker := w } := by
  have hpc := Worker.phase_taking.mp ht
  obtain ⟨p, hp, rfl, rfl⟩ := Worker.step_copy hpc hs
  have hfree : ∀ q, s.main.pc ≠ .sendUnlock q := by
    intro q hq
    have hno := hi.control.mutexOk.apart (by rw [ht]; rfl)
    rw [hq] at hno
    cases hno
  obtain ⟨htransit, hok, hsum⟩ := hd.pending p hp hfree
  have ho : s.out ++ s.worker.output s.heap e = s.out := by
    rw [Worker.output_nil (by rw [hpc]; nofun), List.append_nil]
  refine ⟨hd.argument, fun q hq => absurd hq (hfree q), nofun, fun _ => ⟨?_, ⟨hok, trivial⟩, ?_⟩,
    fun h => ho.trans (hd.done h), ?_⟩
  · show (s.noteWorker e).inTransit = some (s.heap.lists p)
    rw [Session.noteWorker_inTransit (by rw [ht]; nofun)]
    exact htransit
  · show (s.out ++ _) ++ s.heap.listBytes (s.heap.lists p) = s.acceptedBytes
    rw [ho, hsum]
  · show s.out ++ _ <+: s.acceptedBytes
    rw [ho]
    exact hd.sofar

theorem Delivered.outside (hi : s.Inv) (hd : Delivered A s)
    (hin : s.worker.phase.inList = false) (ht : s.worker.phase ≠ .taking)
    (hs : s.worker.step zc A 0 s.heap s.data e = some (d, w)) :
    Delivered A { s.noteWorker e with data := d, worker := w } := by
  obtain ⟨-, shake⟩ := Worker.step_handshake hi.sane hs
  have hf : s.worker.phase ≠ .finishing := by
    intro hf
    rw [hf] at hin
    cases hin
  have ho : s.out ++ s.worker.output s.heap e = s.out := by
    rw [Worker.output_outside hin, List.append_nil]
  have hl : d.packetsList = s.data.packetsList := shake.packetsList_eq ht
  have hdone : d.isDone = s.data.isDone := shake.isDone_eq hf
  have hin' : w.phase.inList = false := by
    cases hw : w.phase.inList with
    | false => rfl
    | true =>
      rcases shake.inList_of hw with hw | hw
      · exact absurd (hin.symm.trans hw) nofun
      · exact absurd hw ht
  refine ⟨hd.argument, fun q hq => ?_, fun q hq hfree => ?_, fun hw => ?_, fun h => ?_, ?_⟩
  · obtain ⟨h1, h2, -, h4⟩ := hd.handing q hq
    exact ⟨hl.trans h1, hdone.trans h2, hin', ho.trans h4⟩
  · obtain ⟨h1, h2, h3⟩ := hd.pending q (hl ▸ hq) hfree
    refine ⟨?_, h2, ?_⟩
    · show (s.noteWorker e).inTransit = some (s.heap.lists q)
      rw [Session.noteWorker_inTransit hf]
      exact h1
    · show (s.out ++ _) ++ _ = s.acceptedBytes
      rw [ho]
      exact h3
  · exact absurd (hin'.symm.trans hw) nofun
  · exact ho.trans (hd.done (hdone ▸ h))
  · show s.out ++ _ <+: s.acceptedBytes
    rw [ho]
    exact hd.sofar

/-- **A step of the worker.** -/
theorem Delivered.work (hi : s.Inv) (hd : Delivered A s)
    (hs : s.worker.step zc A 0 s.heap s.data e = some (d, w)) :
    Delivered A { s.noteWorker e with data := d, worker := w } := by
  by_cases hf : s.worker.phase = .finishing
  · exact hd.finished hi hf hs
  by_cases ht : s.worker.phase = .taking
  · exact hd.take hi ht hs
  cases hin : s.worker.phase.inList with
  | true => exact hd.inside hi hin hf hs
  | false => exact hd.outside hi hin ht hs

end

/-- **Every step of a session that meets the condition.** -/
theorem Delivered.step (hi : s.Inv) (hd : Delivered A s) {e : SessionEvent} (ho : SendOk A s e)
    (hs : s.step zc A e = some t) : Delivered A t := by
  cases Session.step_does hs with
  | called p hr =>
    refine hd.enter hr nofun fun q hq => ?_
    exact Option.some.inj hq ▸ ho
  | calledEnd hr => exact hd.enter hr nofun nofun
  | asked => exact hd
  | told => exact ⟨hd.argument, hd.handing, hd.pending, hd.inHand, hd.done, hd.sofar⟩
  | ran hm => exact hd.advance hi hm
  | worked hw => exact hd.work hi hw
  | written h' hr =>
    refine hd.rewrite (fun p hp => ?_) ho.1 ho.2
    rw [SenderPc.no_argument hr] at hp
    cases hp

end
end RealTimeTransfer
