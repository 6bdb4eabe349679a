import RealTimeTransfer.Senders.Delivery
import RealTimeTransfer.Systems.RunSender

/-!
# From the user function to the socket

What the client of a run receives, by the lists that the user function has returned.  The user may
write into its buffers and files at any time, from the user function or from a thread of its own.

* `runWriting A a`   the loop together with these writes;
* `WritingOk`        the condition: proper lists, no skipped call that replaces a pending one, and
                     the bytes of a list left alone from its acceptance until it is reported done;
* `Streaming`        what was accepted is what was returned, and where its bytes are;
* `run_stream`       the client gets the bytes of the accepted lists, in their order.
-/

namespace RealTimeTransfer
open Machines Words

/-- the list that a call of the user function returns -/
def RunSenderEvent.list : RunSenderEvent → DataPacketsList
  | .system (.userCall c) => c.list
  | _ => []

/-- the user function returns proper lists, and a skipped call not another one while one is
pending -/
def StreamOk (A : FastInts) (a : Locals) (x : RunSender) (e : RunSenderEvent) : Prop :=
  SkipOk a x e ∧ ListOk A e.list

/-- the bytes at the addresses and in the files of the user -/
abbrev Bytes := DataPtrType → Ptr → Nat → UInt8

/-- the user has written: its bytes are `b` -/
def RunSender.write (x : RunSender) (b : Bytes) : RunSender :=
  { x with session := { x.session with heap := { x.session.heap with byte := b } } }

inductive RunWritingEvent where
  | run (e : RunSenderEvent)
  | write (b : Bytes)

/-- the loop of `run` over a session, and the writes of the user between any two of its steps -/
def runWriting (A : FastInts) (a : Locals) : Machine RunSender RunWritingEvent where
  step x
    | .run e => (runLoop A a).step x e
    | .write b => some (x.write b)

/-- the condition on both -/
def WritingOk (A : FastInts) (a : Locals) (x : RunSender) : RunWritingEvent → Prop
  | .run e => StreamOk A a x e
  | .write b => x.session.BytesKept (x.write b).session.heap

instance (A : FastInts) (l : DataPacketsList) : Decidable (ListOk A l) :=
  inferInstanceAs (Decidable (_ ∧ ∀ p ∈ l, p.dataOffset + p.dataSize < 2^A.w32))

instance (A : FastInts) (a : Locals) (x : RunSender) (e : RunSenderEvent) :
    Decidable (StreamOk A a x e) :=
  inferInstanceAs (Decidable (_ ∧ _))

theorem Heap.sameBytes_iff (h h' : Heap) (p : DataPacket) :
    (∀ k < p.dataSize, h'.byte p.dataPtrType p.dataPtr (p.dataOffset + k)
      = h.byte p.dataPtrType p.dataPtr (p.dataOffset + k)) ↔ Heap.SameBytes h h' p := by
  refine ⟨fun hk o ho hlt => ?_, fun hs k hk => hs _ (by omega) (by omega)⟩
  have heq := hk (o - p.dataOffset) (by omega)
  rwa [Nat.add_sub_cancel' ho] at heq

instance (h h' : Heap) (p : DataPacket) : Decidable (Heap.SameBytes h h' p) :=
  decidable_of_iff _ (Heap.sameBytes_iff h h' p)

instance (s : Session) (h : Heap) : Decidable (s.BytesKept h) :=
  inferInstanceAs (Decidable (∀ l ∈ s.inTransit, ∀ p ∈ l, Heap.SameBytes s.heap h p))

instance (A : FastInts) (a : Locals) (x : RunSender) (e : RunWritingEvent) :
    Decidable (WritingOk A a x e) :=
  match e with
  | .run e => inferInstanceAs (Decidable (StreamOk A a x e))
  | .write b => inferInstanceAs (Decidable (x.session.BytesKept (x.write b).session.heap))

structure Streaming (A : FastInts) (a : Locals) (x : RunSender) : Prop where
  linked : Linked a x
  delivered : Delivered A x.session
  list : x.system.pc = .send → ListOk A x.system.userPacketsList

section
variable {A : FastInts} {a : Locals} {x x' : RunSender} {e : RunSenderEvent}

theorem Locals.assign_byte (a : Locals) (h : Heap) (e : SystemEvent) :
    (a.assign h e).byte = h.byte := by
  unfold Locals.assign
  split <;> rfl

theorem Streaming.session_step (hx : Streaming A a x) (ho : StreamOk A a x e)
    (hs : (runLoop A a).step x e = some x') :
    ∃ l, (session false A).Runs (SendOk A) x.session l x'.session := by
  obtain ⟨hrun, hs⟩ := Option.ite_none_right_eq_some.mp hs
  change x.step A a e = some x' at hs
  have hfree : ∀ s f, SessionEvent.isFree f = true → SendOk A s f := by
    intro s f hf
    cases f <;> trivial
  refine session_runs hs hfree (fun p hp => ?_) ?_
  · obtain ⟨hpc, rfl⟩ := hp.resolve_right fun hb => hx.linked.not_before hb.1
    show ListOk A (x.session.heap.lists a.userPacketsList)
    rw [hx.linked.list hpc]
    exact hx.list hpc
  · rintro f y rfl hy
    refine ⟨hx.linked.pendingOk hy (SystemPc.ne_idle hrun) ho.1, fun l _ p _ o _ _ => ?_⟩
    rw [Locals.assign_byte]

/-- the list that `run` is about to send is the last one returned -/
theorem Streaming.list_step (hx : Streaming A a x) (ho : StreamOk A a x e)
    (hs : (runLoop A a).step x e = some x') (hpc : x'.system.pc = .send) :
    ListOk A x'.system.userPacketsList := by
  obtain ⟨-, hs⟩ := Option.ite_none_right_eq_some.mp hs
  change x.step A a e = some x' at hs
  have called : ∀ {f : SystemEvent} {y : RealTimeSystem}, x.system.step A f = some y →
      y.pc = .send → ∃ c, f = .userCall c ∧ y.userPacketsList = c.list := fun hy hp =>
    ((RealTimeSystem.moves_of_inLoop hy (by rw [hp]; rfl)).into.2.2 hp).2
  cases e with
  | system e =>
    obtain ⟨-, y, hy, -, -, rfl⟩ := RunSender.step_system hs
    obtain ⟨c, rfl, hc⟩ := called hy hpc
    rw [hc]
    exact ho.2
  | isSendDone b =>
    obtain ⟨y, hy, -, -, -, rfl⟩ := RunSender.step_isSendDone hs
    obtain ⟨c, he, -⟩ := called hy hpc
    cases he
  | enter =>
    rcases RunSender.step_enter hs with ⟨p, -, -, -, rfl⟩ | ⟨-, -, -, rfl⟩ <;> exact hx.list hpc
  | main =>
    obtain ⟨d, m, -, -, hf⟩ := RunSender.step_main hs
    rcases RunSender.finish_cases hf with ⟨-, rfl⟩ | ⟨r, y, s', -, hy, -, -, -, hx'⟩
    · exact hx.list hpc
    · have hsystem : x'.system = y := by
        rcases hx' with ⟨-, -, rfl⟩ | ⟨-, rfl⟩ <;> rfl
      rw [hsystem] at hpc
      obtain ⟨c, he, -⟩ := called hy hpc
      rcases RunSender.result_cases x.system r _ with ⟨l, an, hl⟩ | hl <;> cases hl.symm.trans he
  | worker e =>
    obtain ⟨d, w, -, -, rfl⟩ := RunSender.step_worker hs
    exact hx.list hpc

/-- **A step of the loop.** -/
theorem Streaming.ran (hx : Streaming A a x) (ho : StreamOk A a x e)
    (hs : (runLoop A a).step x e = some x') : Streaming A a x' := by
  obtain ⟨l, hl⟩ := hx.session_step ho hs
  have hsession : x'.session.Inv ∧ Delivered A x'.session := by
    refine hl.keeps (fun s => s.Inv ∧ Delivered A s) ⟨hx.linked.alone.inv, hx.delivered⟩ ?_
    rintro v f v' ⟨hi, hd⟩ ho hs
    exact ⟨hi.step hs, hd.step hi ho hs⟩
  exact ⟨hx.linked.step ho.1 hs, hsession.2, hx.list_step ho hs⟩

/-- **A write of the user.** -/
theorem Streaming.written (hx : Streaming A a x) {b : Bytes}
    (ho : x.session.BytesKept (x.write b).session.heap) : Streaming A a (x.write b) := by
  have halone : Alone (x.write b) :=
    ⟨⟨hx.linked.alone.inv.sane, hx.linked.alone.inv.control⟩, hx.linked.alone.inside,
      hx.linked.alone.skipTest, hx.linked.alone.normalCall, hx.linked.alone.send⟩
  have hlinked : Linked a (x.write b) :=
    ⟨halone, hx.linked.inRun, hx.linked.starting, hx.linked.argument, hx.linked.list,
      hx.linked.accepted⟩
  exact ⟨hlinked, hx.delivered.rewrite (fun _ _ => rfl) (fun _ _ => rfl) ho, hx.list⟩

theorem Streaming.step (hx : Streaming A a x) {f : RunWritingEvent} (ho : WritingOk A a x f)
    (hs : (runWriting A a).step x f = some x') : Streaming A a x' := by
  cases f with
  | run e => exact hx.ran ho hs
  | write b =>
    cases hs
    exact hx.written ho

end

end RealTimeTransfer
