import RealTimeTransfer.Senders.Session

/-!
# The lists that a worker copies

`send` stores a pointer, and the worker copies what it finds behind it later.  As long as nobody
writes to the pending list in between, the lists copied are the first ones of the lists accepted.

* `PendingOk`       the caller leaves the pending list as it is;
* `Copies`          the last list accepted is pending, or has been copied;
* `copied_accepted` the worker copies what was accepted, in the same order.
-/

namespace RealTimeTransfer
open Machines Words Sync

/-- a write leaves the list that is pending as it is -/
def PendingOk (s : Session) : SessionEvent → Prop
  | .write h => ∀ p, s.data.packetsList = some p → h.lists p = s.heap.lists p
  | _ => True

structure Copies (s : Session) : Prop where
  handing : ∀ p, s.main.pc = .sendUnlock p → s.data.packetsList = some p ∧
    s.data.isDone = false ∧ s.worker.phase.inList = false ∧ s.copied = s.accepted
  pending : ∀ p, s.data.packetsList = some p → (∀ q, s.main.pc ≠ .sendUnlock q) →
    s.accepted = s.copied ++ [s.heap.lists p]
  inHand : s.worker.phase.inList = true → s.copied = s.accepted
  done : s.data.isDone = true → s.copied = s.accepted
  sofar : s.copied <+: s.accepted

section
variable {zc : Bool} {A : FastInts} {s t : Session}

theorem copies_start (h : Heap) (so : Sockets) (err : Error) : Copies (Session.start h so err) :=
  ⟨nofun, nofun, fun _ => rfl, fun _ => rfl, List.prefix_rfl⟩

/-- another point of the main thread, outside the critical section of `send` -/
theorem Copies.enter (h : Copies s) {m : Sender} (hr : s.main.pc.isReady = true)
    (hu : ∀ q, m.pc ≠ .sendUnlock q) : Copies { s with main := m } := by
  have hready : ∀ q, s.main.pc ≠ .sendUnlock q := by
    intro q hq
    rw [hq] at hr
    cases hr
  exact ⟨fun p hp => absurd hp (hu p), fun p hp _ => h.pending p hp hready, h.inHand, h.done,
    h.sofar⟩

theorem Copies.write (h : Copies s) {h' : Heap} (hr : s.main.pc.isReady = true)
    (ho : PendingOk s (.write h')) : Copies { s with heap := h' } := by
  have hready : ∀ q, s.main.pc ≠ .sendUnlock q := by
    intro q hq
    rw [hq] at hr
    cases hr
  refine ⟨h.handing, fun p hp _ => ?_, h.inHand, h.done, h.sofar⟩
  show s.accepted = s.copied ++ [h'.lists p]
  rw [ho p hp]
  exact h.pending p hp hready

/-- **A step of the main thread.** -/
theorem Copies.advance (hi : s.Inv) (h : Copies s) {d : SenderWorkerData} {m : Sender}
    (hs : s.main.step zc s.data = some (d, m)) :
    Copies { s.noteMain with data := d, main := m } := by
  have adv := Sender.step_advance hs
  rcases adv.stores with ⟨p, hpc, hpc', hl, hd⟩ | ⟨hpc, hpc', hl, hd⟩ | ⟨hu, hl, hd⟩
  · rw [Session.noteMain_eq (by rw [hpc]; nofun)]
    have hdone : s.data.isDone = true := hi.control.handOk.storing (by rw [hpc]; rfl)
    have hin := (hi.control.handOk.done hdone).2
    refine ⟨fun q hq => ?_, fun q _ hq => absurd hpc' (hq p), h.inHand, fun hd' => ?_, h.sofar⟩
    · have hqp : q = p := SenderPc.sendUnlock.inj (hq.symm.trans hpc')
      exact ⟨hqp ▸ hl, hd, hin, h.done hdone⟩
    · exact absurd (hd'.symm.trans hd) nofun
  · rw [Session.noteMain_eq (by rw [hpc]; nofun)]
    refine ⟨fun q hq => ?_, fun q hq => ?_, h.inHand, fun hd' => ?_, h.sofar⟩
    · exact absurd (hq.symm.trans hpc') nofun
    · exact absurd (hq.symm.trans hl) nofun
    · exact absurd (hd'.symm.trans hd) nofun
  · by_cases hpc : ∃ p, s.main.pc = .sendUnlock p
    · obtain ⟨p, hpc⟩ := hpc
      obtain ⟨hp, hdone, hin, hc⟩ := h.handing p hpc
      rw [Session.noteMain_unlock hpc]
      refine ⟨fun q hq => absurd hq (hu q), fun q hq _ => ?_, fun hin' => ?_, fun hd' => ?_, ?_⟩
      · have hqp : p = q := Option.some.inj (hp.symm.trans (hl.symm.trans hq))
        subst hqp
        show s.accepted ++ [s.heap.lists p] = s.copied ++ [s.heap.lists p]
        rw [hc]
      · exact absurd (hin'.symm.trans hin) nofun
      · exact absurd (hd'.symm.trans (hd.trans hdone)) nofun
      · exact h.sofar.trans (List.prefix_append _ _)
    · have hpc' : ∀ q, s.main.pc ≠ .sendUnlock q := fun q hq => hpc ⟨q, hq⟩
      rw [Session.noteMain_eq hpc']
      exact ⟨fun q hq => absurd hq (hu q), fun q hq _ => h.pending q (hl ▸ hq) hpc', h.inHand,
        fun hd' => h.done (hd ▸ hd'), h.sofar⟩

/-- **A step of the worker.** -/
theorem Copies.work (hi : s.Inv) (h : Copies s) {e : WorkerEvent} {d : SenderWorkerData}
    {w : Worker}
    (hs : s.worker.step zc A 0 s.heap s.data e = some (d, w)) :
    Copies { s.noteWorker e with data := d, worker := w } := by
  obtain ⟨-, shake⟩ := Worker.step_handshake hi.sane hs
  by_cases ht : s.worker.phase = .taking
  · have hpc := Worker.phase_taking.mp ht
    obtain ⟨p, hp, rfl, rfl⟩ := Worker.step_copy hpc hs
    have hfree : ∀ q, s.main.pc ≠ .sendUnlock q := by
      intro q hq
      have hno := hi.control.mutexOk.apart (by rw [ht]; rfl)
      rw [hq] at hno
      cases hno
    have hcopied : (s.noteWorker e).copied = s.accepted := by
      show (if s.worker.pc = .copy then
        s.copied ++ (s.data.packetsList.map s.heap.lists).toList else s.copied) = s.accepted
      rw [if_pos hpc, hp, h.pending p hp hfree]
      rfl
    exact ⟨fun q hq => absurd hq (hfree q), nofun, fun _ => hcopied, fun _ => hcopied,
      hcopied ▸ List.prefix_rfl⟩
  · have hl : d.packetsList = s.data.packetsList := shake.packetsList_eq ht
    have hcopied : (s.noteWorker e).copied = s.copied :=
      if_neg fun hpc => ht (Worker.phase_taking.mpr hpc)
    have hlist : w.phase.inList = true → s.worker.phase.inList = true := fun hin =>
      (shake.inList_of hin).resolve_right ht
    refine ⟨fun q hq => ?_, fun q hq hfree => ?_, fun hin => ?_, fun hd => ?_, ?_⟩
    · obtain ⟨h1, h2, h3, h4⟩ := h.handing q hq
      have hf : s.worker.phase ≠ .finishing := by
        intro hf
        rw [hf] at h3
        cases h3
      refine ⟨hl.trans h1, (shake.isDone_eq hf).trans h2, ?_, hcopied.trans h4⟩
      cases hin : w.phase.inList with
      | false => rfl
      | true => exact absurd ((hlist hin).symm.trans h3) nofun
    · show s.accepted = (s.noteWorker e).copied ++ [s.heap.lists q]
      rw [hcopied]
      exact h.pending q (hl ▸ hq) hfree
    · exact hcopied.trans (h.inHand (hlist hin))
    · refine hcopied.trans ?_
      by_cases hf : s.worker.phase = .finishing
      · exact h.inHand (by rw [hf]; rfl)
      · exact h.done ((shake.isDone_eq hf).symm.trans hd)
    · rw [hcopied]
      exact h.sofar

/-- **Every step that leaves the pending list alone.** -/
theorem Copies.step (hi : s.Inv) (h : Copies s) {e : SessionEvent} (ho : PendingOk s e)
    (hs : s.step zc A e = some t) : Copies t := by
  cases Session.step_does hs with
  | called p hr => exact h.enter hr nofun
  | calledEnd hr => exact h.enter hr nofun
  | asked => exact h
  | told => exact ⟨h.handing, h.pending, h.inHand, h.done, h.sofar⟩
  | ran hm => exact h.advance hi hm
  | worked hw => exact h.work hi hw
  | written h' hr => exact h.write hr ho

/-- **The worker copies what was accepted.** -/
theorem copied_accepted {h : Heap} {so : Sockets} {err : Error} {es : List SessionEvent}
    (hr : (session zc A).Runs PendingOk (Session.start h so err) es t) :
    t.copied <+: t.accepted := by
  have hst : t.Inv ∧ Copies t := by
    refine hr.keeps (fun s => s.Inv ∧ Copies s)
      ⟨Session.inv_start h so err, copies_start h so err⟩ ?_
    rintro v e v' ⟨hi, hv⟩ ho hs
    exact ⟨hi.step hs, hv.step hi ho hs⟩
  exact hst.2.sofar

end
end RealTimeTransfer
