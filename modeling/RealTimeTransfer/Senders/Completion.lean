import RealTimeTransfer.Senders.Session
import Mathlib.Data.Finset.Card
import Mathlib.Order.Interval.Finset.Nat

/-!
# Zero-copy completion

A session of a `TCPSenderZC` together with the kernel's side of `MSG_ZEROCOPY`: the `k`-th
successful send has the id `k mod 2^32`, and a notification reports a range of sends that were not
reported before.  The worker compares two `int` counters to find out whether it may set `is_done`.

* `completion A`        the machine; `sends` counts the zero-copy sends, `reported` collects;
* `Worker.step_counters`   which steps touch the two counters;
* `Counts`              as long as the worker lives, the counters are `sends` and `reported`,
                        wrapped;
* `done_iff_ordered`    `is_done` is set only with every send reported, if and only if no comparison
                        of the counters is turned around by the wrap;
* `done_too_early`      after `2^31` sends it is.
-/

namespace RealTimeTransfer
open Machines Words Sync

namespace Worker

/-- the two counters -/
def counters (w : Worker) : Int × Int := (w.sendingCounter, w.lastSendingCounter)

section
variable {A : FastInts} {k : Nat} {h : Heap} {d d' : SenderWorkerData} {w w' : Worker}
  {e : WorkerEvent}

theorem orEnd_counters (ok : Bool) (pc : WorkerPc) (code : ErrorCode) :
    (w.orEnd ok pc code).counters = w.counters := by
  cases ok <;> rfl

theorem acquire_counters (hs : w.acquire k d = some (d', w')) : w'.counters = w.counters := by
  obtain ⟨m, -, he⟩ := Option.map_eq_some_iff.mp hs
  cases he
  rfl

theorem unlessTerminated_counters (hw : w'.counters = w.counters) :
    (w.unlessTerminated d w').counters = w.counters := by
  rcases unlessTerminated_cases w d w' with ⟨_, hu⟩ | ⟨_, hu⟩
  · rw [hu]; rfl
  · rw [hu]; exact hw

theorem protUnlock_counters (pc : WorkerPc) : (protUnlock d w pc).2.counters = w.counters := by
  rw [protUnlock_eq]
  rfl

theorem nextPacket_counters (hs : w.nextPacket true A = some w') : w'.counters = w.counters := by
  rcases nextPacket_cases hs with ⟨p, _, _, _, rfl⟩ | ⟨p, _, _, _, rfl⟩ | ⟨_, rfl⟩ <;> rfl

/-- **Only a send and a notification touch the counters.** -/
theorem step_counters (hs : step true A k h d w e = some (d', w')) (h1 : w.pc ≠ .sending)
    (h2 : w.pc ≠ .recvmsg) : w'.counters = w.counters := by
  unfold step at hs
  split at hs
  case h_8 => exact acquire_counters hs
  case h_13 => exact acquire_counters hs
  case h_14 =>
    obtain ⟨p, -, he⟩ := Option.map_eq_some_iff.mp hs
    cases he
    rfl
  case h_16 =>
    obtain ⟨v, hv, he⟩ := Option.map_eq_some_iff.mp hs
    cases he
    exact nextPacket_counters hv
  case h_17 hpc => exact absurd hpc h1
  case h_18 s hpc => exact absurd hpc h1
  case h_22 hpc => exact absurd hpc h2
  case h_23 m hpc => exact absurd hpc h2
  case h_19 s hpc =>
    obtain rfl := (Prod.mk.inj (Option.some.inj hs)).2
    split
    · rfl
    · exact unlessTerminated_counters rfl
  case h_32 => cases hs
  all_goals
    obtain rfl := (Prod.mk.inj (Option.some.inj hs)).2
    first
    | rfl
    | exact orEnd_counters _ _ _
    | exact protUnlock_counters _
    | exact unlessTerminated_counters rfl

/-- a worker that runs, and whose last send did not fail -/
def Live (w : Worker) : Prop := w.phase.running = true ∧ ∀ s, w.pc = .sent s → 0 ≤ s

theorem step_failed {s : Int} (hs : step true A k h d w e = some (d', w')) (hpc : w.pc = .sent s)
    (hneg : s < 0) : w'.phase.running = false := by
  unfold step at hs
  rw [hpc] at hs
  cases e <;> try cases hs
  rw [if_pos hneg]
  rfl

theorem Live.before (hw : w.Sane) (hn : w.phase ≠ .new)
    (hs : step true A k h d w e = some (d', w')) (hl : w'.Live) : w.Live := by
  refine ⟨?_, fun s hpc => ?_⟩
  · rcases (step_handshake hw hs).2.running_of hl.1 with hr | hr
    · exact hr
    · exact absurd hr hn
  · by_contra hneg
    have hr := step_failed hs hpc (by omega)
    rw [hl.1] at hr
    cases hr

theorem orEnd_ne_setDone {ok : Bool} {pc : WorkerPc} {code : ErrorCode} (hpc : pc ≠ .setDone) :
    (w.orEnd ok pc code).pc ≠ .setDone := by
  cases ok
  · nofun
  · exact hpc

theorem unlessTerminated_ne_setDone (hpc : w'.pc ≠ .setDone) :
    (w.unlessTerminated d w').pc ≠ .setDone := by
  rcases unlessTerminated_cases w d w' with ⟨_, hu⟩ | ⟨_, hu⟩
  · rw [hu]; nofun
  · rw [hu]; exact hpc

/-- **The worker goes on to set `is_done` from its comparison of the counters.** -/
theorem step_setDone (hs : step true A k h d w e = some (d', w')) (hd : w'.pc = .setDone) :
    e = .tau ∧ w.pc = .zcTest ∧ w.sendingCounter ≤ w.lastSendingCounter := by
  unfold step at hs
  split at hs
  case h_20 hpc =>
    cases hs
    refine ⟨rfl, hpc, ?_⟩
    by_contra hlt
    rw [if_pos (by omega)] at hd
    cases hd
  case h_8 =>
    obtain ⟨m, -, he⟩ := Option.map_eq_some_iff.mp hs
    cases he
    cases hd
  case h_13 =>
    obtain ⟨m, -, he⟩ := Option.map_eq_some_iff.mp hs
    cases he
    cases hd
  case h_14 =>
    obtain ⟨p, -, he⟩ := Option.map_eq_some_iff.mp hs
    cases he
    cases hd
  case h_16 =>
    obtain ⟨v, hv, he⟩ := Option.map_eq_some_iff.mp hs
    cases he
    rcases nextPacket_cases hv with ⟨p, _, _, _, rfl⟩ | ⟨p, _, _, _, rfl⟩ | ⟨_, rfl⟩ <;> cases hd
  case h_17 =>
    obtain ⟨-, he⟩ := Option.ite_some_none_eq_some.mp hs
    cases he
    cases hd
  case h_18 =>
    obtain ⟨-, he⟩ := Option.ite_some_none_eq_some.mp hs
    cases he
    cases hd
  case h_15 => rw [protUnlock_eq] at hs; cases hs; cases hd
  case h_27 => rw [protUnlock_eq] at hs; cases hs; cases hd
  case h_31 => rw [protUnlock_eq] at hs; cases hs; cases hd
  case h_32 => cases hs
  all_goals
    obtain rfl := (Prod.mk.inj (Option.some.inj hs)).2
    exfalso
  case h_9 =>
    revert hd
    unfold goto
    split <;> nofun
  case h_19 =>
    revert hd
    split
    · nofun
    · exact unlessTerminated_ne_setDone nofun
  case h_23 =>
    revert hd
    unfold notified
    split <;> nofun
  all_goals
    first
    | exact orEnd_ne_setDone (by decide) hd
    | exact unlessTerminated_ne_setDone (by simp [goto]) hd
    | cases hd

theorem step_zcTest (hpc : w.pc = .zcTest) (hle : w.sendingCounter ≤ w.lastSendingCounter) :
    step true A k h d w .tau = some (d, w.goto .setDone) := by
  unfold step
  rw [hpc]
  show some (d, w.goto (if w.lastSendingCounter < w.sendingCounter then .poll else .setDone)) = _
  rw [if_neg (by omega)]

theorem step_sent {n : Int} (hs : step true A k h d w (.sent n) = some (d', w')) :
    w.pc = .sending ∧ w' = { w with
      pc := .sent n,
      sendingCounter :=
        if w.isMemory then toS 32 (w.sendingCounter + 1) else w.sendingCounter } := by
  unfold step at hs
  cases hpc : w.pc <;> rw [hpc] at hs <;> try cases hs
  obtain ⟨-, he⟩ := Option.ite_some_none_eq_some.mp hs
  cases he
  exact ⟨rfl, rfl⟩

theorem step_sending (hpc : w.pc = .sending) (hs : step true A k h d w e = some (d', w')) :
    (∃ n, e = .sent n) ∨ w'.counters = w.counters := by
  cases e with
  | sent n => exact .inl ⟨n, rfl⟩
  | tau =>
    unfold step at hs
    rw [hpc] at hs
    obtain ⟨-, he⟩ := Option.ite_some_none_eq_some.mp hs
    cases he
    exact .inr rfl
  | call ok => unfold step at hs; rw [hpc] at hs; cases hs
  | wake => unfold step at hs; rw [hpc] at hs; cases hs
  | recv m => unfold step at hs; rw [hpc] at hs; cases hs

theorem step_recv {m : Option (Option Cmsg)} (hs : step true A k h d w (.recv m) = some (d', w')) :
    w.pc = .recvmsg ∧ (w'.phase.running = true → ∃ c, m = some c ∧
      1 ≤ toS 32 (readNotificationZc c) ∧ w'.counters = (w.sendingCounter,
        toS 32 (w.lastSendingCounter + toS 32 (readNotificationZc c)))) := by
  unfold step at hs
  cases hpc : w.pc <;> rw [hpc] at hs <;> try cases hs
  refine ⟨rfl, ?_⟩
  cases m with
  | none => cases hs; nofun
  | some c =>
    cases hs
    intro hr
    unfold notified at hr ⊢
    by_cases hc : toS 32 (readNotificationZc c) < 1
    · rw [if_pos hc] at hr
      cases hr
    · rw [if_neg hc]
      exact ⟨c, rfl, by omega, rfl⟩

end
end Worker

/-! ## The kernel's side -/

structure Completion where
  session : Session
  /-- the successful zero-copy sends so far -/
  sends : Nat := 0
  /-- the sends that a notification has reported -/
  reported : Finset Nat := ∅

/-- a notification for the `cnt` sends from `lo` on -/
def notification (lo cnt : Nat) (cmsgLevel cmsgType : Int) : Cmsg :=
  ⟨cmsgLevel, cmsgType, soEeOriginZerocopy, lo % 2^32, (lo + cnt - 1) % 2^32⟩

inductive CompletionEvent where
  | plain (e : SessionEvent)
  | report (lo cnt : Nat) (cmsgLevel cmsgType : Int)

/-- the successful zero-copy sends that the event stands for -/
def Session.zcSends (s : Session) : SessionEvent → Nat
  | .worker (.sent n) => if s.worker.isMemory = true ∧ 0 ≤ n then 1 else 0
  | _ => 0

/-- a message of the zero-copy machinery -/
def SessionEvent.isNotification : SessionEvent → Bool
  | .worker (.recv (some (some cm))) => cm.eeOrigin = soEeOriginZerocopy
  | _ => false

def Completion.step (A : FastInts) (c : Completion) : CompletionEvent → Option Completion
  | .plain e =>
    if e.isNotification then none
    else (c.session.step true A e).map fun s =>
      { c with session := s, sends := c.sends + c.session.zcSends e }
  | .report lo cnt l t =>
    if 0 < cnt ∧ lo + cnt ≤ c.sends ∧ Disjoint (Finset.Ico lo (lo + cnt)) c.reported then
      (c.session.step true A (.worker (.recv (some (some (notification lo cnt l t)))))).map fun s =>
        { c with session := s, reported := c.reported ∪ Finset.Ico lo (lo + cnt) }
    else none

/-- a session of the zero-copy sender and the notifications of its kernel -/
def completion (A : FastInts) : Machine Completion CompletionEvent := ⟨Completion.step A⟩

def CompletionEvent.isTau : CompletionEvent → Bool
  | .plain (.worker .tau) => true
  | _ => false

/-- the condition: when the counters are compared and some sends are not reported, the two numbers
are in the same order as their remainders in `[-2^31, 2^31)` -/
def Ordered (c : Completion) (e : CompletionEvent) : Prop :=
  e.isTau = true → c.session.worker.pc = .zcTest → c.reported.card < c.sends →
    (c.reported.card + 2^31) % 2^32 < (c.sends + 2^31) % 2^32

instance (c : Completion) (e : CompletionEvent) : Decidable (Ordered c e) := by
  unfold Ordered
  infer_instance

/-- the worker is about to set `is_done`, or it is set, with every send reported only -/
def Completion.Safe (c : Completion) : Prop :=
  c.session.worker.pc = .setDone ∨ c.session.data.isDone = true → ∀ i < c.sends, i ∈ c.reported

/-- the counters count, modulo `2^32` -/
structure Counts (c : Completion) : Prop where
  inv : c.session.Inv
  within : c.reported ⊆ Finset.range c.sends
  counters : c.session.worker.Live →
    c.session.worker.counters = (toS 32 c.sends, toS 32 c.reported.card)

/-- the size of a range is read back from its ends, modulo `2^32` -/
theorem readNotification_eq {lo cnt : Nat} {l t : Int} (h0 : 0 < cnt)
    (h1 : 1 ≤ toS 32 (readNotificationZc (some (notification lo cnt l t)))) :
    toS 32 (readNotificationZc (some (notification lo cnt l t))) = toS 32 cnt := by
  have hneg : toS 32 (-1) < 1 := by decide
  unfold readNotificationZc at h1 ⊢
  by_cases hl : l ≠ solIp ∧ t ≠ ipRecverr
  · have hl' : (notification lo cnt l t).cmsgLevel ≠ solIp ∧
        (notification lo cnt l t).cmsgType ≠ ipRecverr := hl
    simp only [if_pos hl'] at h1
    omega
  · have hl' : ¬ ((notification lo cnt l t).cmsgLevel ≠ solIp ∧
        (notification lo cnt l t).cmsgType ≠ ipRecverr) := hl
    have ho : ¬ (notification lo cnt l t).eeOrigin ≠ soEeOriginZerocopy := fun hn => hn rfl
    simp only [if_neg hl', if_neg ho]
    apply toS_congr
    rw [toU_cast]
    show ((((lo + cnt - 1) % 2^32 : Nat) : Int) - ((lo % 2^32 : Nat) : Int) + 1) % 2^32 % 2^32
      = (cnt : Int) % 2^32
    omega

section
variable {A : FastInts} {c c' : Completion}

/-- the state after a step of the worker -/
def Completion.worked (c : Completion) (e : WorkerEvent) (d : SenderWorkerData) (w : Worker)
    (sends : Nat) (reported : Finset Nat) : Completion :=
  ⟨{ c.session.noteWorker e with data := d, worker := w }, sends, reported⟩

theorem Completion.step_worker {e : WorkerEvent} {d : SenderWorkerData} {w : Worker}
    (hp : (SessionEvent.worker e).isNotification = false)
    (hs : c.session.worker.step true A 0 c.session.heap c.session.data e = some (d, w)) :
    (completion A).step c (.plain (.worker e))
      = some (c.worked e d w (c.sends + c.session.zcSends (.worker e)) c.reported) := by
  show (if (SessionEvent.worker e).isNotification then none
    else (c.session.step true A (.worker e)).map fun s =>
      { c with session := s, sends := c.sends + c.session.zcSends (.worker e) }) = _
  rw [hp]
  show ((c.session.worker.step true A 0 c.session.heap c.session.data e).map _).map _ = _
  rw [hs]
  rfl

theorem Counts.all_reported (h : Counts c) (hc : c.sends ≤ c.reported.card) :
    ∀ i < c.sends, i ∈ c.reported := by
  have heq : c.reported = Finset.range c.sends := by
    refine Finset.eq_of_subset_of_card_le h.within ?_
    rw [Finset.card_range]
    exact hc
  intro i hi
  rw [heq]
  exact Finset.mem_range.mpr hi

theorem Counts.not_done (h : Counts c) (hin : c.session.worker.phase.inList = true) :
    c.session.data.isDone = false := by
  cases hd : c.session.data.isDone with
  | false => rfl
  | true =>
    have hno := (h.inv.control.handOk.done hd).2
    rw [hin] at hno
    cases hno

theorem Counts.compare (h : Counts c) (hpc : c.session.worker.pc = .zcTest) :
    c.session.worker.sendingCounter ≤ c.session.worker.lastSendingCounter ↔
      (c.sends + 2^31) % 2^32 ≤ (c.reported.card + 2^31) % 2^32 := by
  have hlive : c.session.worker.Live := by
    refine ⟨?_, fun s hs => ?_⟩
    · unfold Worker.phase
      rw [hpc]
      rfl
    · rw [hpc] at hs
      cases hs
  obtain ⟨h1, h2⟩ := Prod.mk.inj (h.counters hlive)
  rw [h1, h2]
  unfold toS
  omega

/-! ## The steps of the worker -/

section
variable {e : WorkerEvent} {d : SenderWorkerData} {w : Worker}

theorem Counts.inv_work (h : Counts c)
    (hs : c.session.worker.step true A 0 c.session.heap c.session.data e = some (d, w)) :
    Session.Inv { c.session.noteWorker e with data := d, worker := w } := by
  obtain ⟨hsane, hshake⟩ := Worker.step_handshake h.inv.sane hs
  exact ⟨hsane, h.inv.control.handshake hshake⟩

theorem Counts.quiet (h : Counts c)
    (hs : c.session.worker.step true A 0 c.session.heap c.session.data e = some (d, w))
    (hc : w.Live → w.counters = c.session.worker.counters) :
    Counts (c.worked e d w c.sends c.reported) := by
  have hnew := h.inv.control.flagOk.started
  refine ⟨h.inv_work hs, h.within, fun hl => ?_⟩
  exact (hc hl).trans (h.counters (hl.before h.inv.sane hnew hs))

theorem Counts.safe_quiet (h : Counts c) (hsafe : c.Safe) (ho : Ordered c (.plain (.worker e)))
    (hs : c.session.worker.step true A 0 c.session.heap c.session.data e = some (d, w)) :
    (c.worked e d w c.sends c.reported).Safe := by
  have hshake := (Worker.step_handshake h.inv.sane hs).2
  rintro (hd | hd)
  · obtain ⟨rfl, hpc, hle⟩ := Worker.step_setDone hs hd
    refine h.all_reported ?_
    by_contra hlt
    have hord := ho rfl hpc (by omega)
    have hle' := (h.compare hpc).mp hle
    omega
  · by_cases hf : c.session.worker.phase = .finishing
    · exact hsafe (.inl (Worker.phase_finishing.mp hf))
    · exact hsafe (.inr ((hshake.isDone_eq hf).symm.trans hd))

theorem Counts.safe_busy (h : Counts c) {n : Nat} {r : Finset Nat}
    (hin : c.session.worker.phase.inList = true) (hf : c.session.worker.phase ≠ .finishing)
    (hz : c.session.worker.pc ≠ .zcTest)
    (hs : c.session.worker.step true A 0 c.session.heap c.session.data e = some (d, w)) :
    (c.worked e d w n r).Safe := by
  have hshake := (Worker.step_handshake h.inv.sane hs).2
  rintro (hd | hd)
  · exact absurd (Worker.step_setDone hs hd).2.1 hz
  · exact absurd ((hd.symm.trans (hshake.isDone_eq hf)).trans (h.not_done hin)) nofun

theorem Counts.sent (h : Counts c) {n : Int}
    (hs : c.session.worker.step true A 0 c.session.heap c.session.data (.sent n) = some (d, w)) :
    Counts (c.worked (.sent n) d w (c.sends + c.session.zcSends (.worker (.sent n)))
        c.reported) ∧
      (c.worked (.sent n) d w (c.sends + c.session.zcSends (.worker (.sent n)))
        c.reported).Safe := by
  have hnew := h.inv.control.flagOk.started
  obtain ⟨hpc, rfl⟩ := Worker.step_sent hs
  have hmore : c.reported ⊆ Finset.range (c.sends + c.session.zcSends (.worker (.sent n))) :=
    h.within.trans (Finset.range_subset_range.mpr (Nat.le_add_right _ _))
  refine ⟨⟨h.inv_work hs, hmore, ?_⟩, ?_⟩
  · intro hl
    have h0 : 0 ≤ n := hl.2 n rfl
    obtain ⟨h1, h2⟩ := Prod.mk.inj (h.counters (hl.before h.inv.sane hnew hs))
    have hcount : c.session.zcSends (.worker (.sent n))
        = if c.session.worker.isMemory then 1 else 0 := by
      show (if c.session.worker.isMemory = true ∧ 0 ≤ n then 1 else 0) = _
      simp only [h0, and_true]
    show (if c.session.worker.isMemory then toS 32 (c.session.worker.sendingCounter + 1)
      else c.session.worker.sendingCounter, c.session.worker.lastSendingCounter)
        = (toS 32 (c.sends + c.session.zcSends (.worker (.sent n)) : Nat), toS 32 c.reported.card)
    rw [hcount, h1, h2]
    cases hmem : c.session.worker.isMemory with
    | false => simp only [Bool.false_eq_true, if_false, Nat.add_zero]
    | true =>
      have hone : toS 32 1 = 1 := toS_of_range (by decide) (by decide) (by decide)
      have hstep : toS 32 (toS 32 c.sends + 1) = toS 32 ((c.sends + 1 : Nat) : Int) := by
        have hadd := toS_add 32 c.sends 1
        rw [hone] at hadd
        push_cast
        exact hadd
      simp only [if_true, hstep]
  · refine h.safe_busy ?_ ?_ ?_ hs
    · unfold Worker.phase
      rw [hpc]
      rfl
    · intro hf
      rw [Worker.phase_finishing.mp hf] at hpc
      cases hpc
    · rw [hpc]
      nofun

theorem Counts.report (h : Counts c) {lo cnt : Nat} {l t : Int}
    (h0 : 0 < cnt) (hle : lo + cnt ≤ c.sends)
    (hnew : Disjoint (Finset.Ico lo (lo + cnt)) c.reported)
    (hs : c.session.worker.step true A 0 c.session.heap c.session.data
      (.recv (some (some (notification lo cnt l t)))) = some (d, w)) :
    Counts (c.worked (.recv (some (some (notification lo cnt l t)))) d w c.sends
        (c.reported ∪ Finset.Ico lo (lo + cnt))) ∧
      (c.worked (.recv (some (some (notification lo cnt l t)))) d w c.sends
        (c.reported ∪ Finset.Ico lo (lo + cnt))).Safe := by
  obtain ⟨hpc, hrecv⟩ := Worker.step_recv hs
  have hsub : c.reported ∪ Finset.Ico lo (lo + cnt) ⊆ Finset.range c.sends := by
    refine Finset.union_subset h.within fun i hi => ?_
    rw [Finset.mem_Ico] at hi
    exact Finset.mem_range.mpr (by omega)
  have hcard : (c.reported ∪ Finset.Ico lo (lo + cnt)).card = c.reported.card + cnt := by
    rw [Finset.card_union_of_disjoint hnew.symm, Nat.card_Ico, Nat.add_sub_cancel_left]
  refine ⟨⟨h.inv_work hs, hsub, ?_⟩, ?_⟩
  · intro hl
    obtain ⟨m, hm, h1, hc⟩ := hrecv hl.1
    cases hm
    have hlive : c.session.worker.Live := hl.before h.inv.sane h.inv.control.flagOk.started hs
    obtain ⟨e1, e2⟩ := Prod.mk.inj (h.counters hlive)
    rw [readNotification_eq h0 h1, e1, e2, toS_add] at hc
    show w.counters = (toS 32 c.sends, toS 32 (c.reported ∪ Finset.Ico lo (lo + cnt)).card)
    rw [hc, hcard]
    rfl
  · refine h.safe_busy ?_ ?_ ?_ hs
    · unfold Worker.phase
      rw [hpc]
      rfl
    · intro hf
      rw [Worker.phase_finishing.mp hf] at hpc
      cases hpc
    · rw [hpc]
      nofun

theorem Counts.counters_eq
    (hs : c.session.worker.step true A 0 c.session.heap c.session.data e = some (d, w))
    (hsent : ∀ n, e ≠ .sent n) (hplain : (SessionEvent.worker e).isNotification = false)
    (hl : w.Live) : w.counters = c.session.worker.counters := by
  cases e with
  | sent n => exact absurd rfl (hsent n)
  | recv m =>
    -- a message that is no notification reads as -1
    obtain ⟨-, hrecv⟩ := Worker.step_recv hs
    obtain ⟨m', rfl, h1, -⟩ := hrecv hl.1
    have hneg : readNotificationZc m' = -1 := by
      cases m' with
      | none => rfl
      | some cm =>
        have ho : cm.eeOrigin ≠ soEeOriginZerocopy := of_decide_eq_false hplain
        unfold readNotificationZc
        simp only [if_pos ho, ite_self]
    rw [hneg] at h1
    exact absurd h1 (by decide)
  | _ =>
    by_cases hpc : c.session.worker.pc = .sending
    · rcases Worker.step_sending hpc hs with ⟨n, hn⟩ | hc
      · cases hn
      · exact hc
    by_cases hpc' : c.session.worker.pc = .recvmsg
    · unfold Worker.step at hs
      rw [hpc'] at hs
      cases hs
    exact Worker.step_counters hs hpc hpc'

end

/-! ## The runs -/

/-- what a step does: the worker sends, is notified, or leaves the counters; or the main thread
takes a step -/
theorem Completion.step_cases {e : CompletionEvent} (hs : c.step A e = some c') :
    (∃ n d w, e = .plain (.worker (.sent n)) ∧
        c.session.worker.step true A 0 c.session.heap c.session.data (.sent n) = some (d, w) ∧
        c' = c.worked (.sent n) d w (c.sends + c.session.zcSends (.worker (.sent n))) c.reported) ∨
      (∃ lo cnt l t d w, 0 < cnt ∧ lo + cnt ≤ c.sends ∧
        Disjoint (Finset.Ico lo (lo + cnt)) c.reported ∧
        c.session.worker.step true A 0 c.session.heap c.session.data
          (.recv (some (some (notification lo cnt l t)))) = some (d, w) ∧
        c' = c.worked (.recv (some (some (notification lo cnt l t)))) d w c.sends
          (c.reported ∪ Finset.Ico lo (lo + cnt))) ∨
      (∃ f d w, e = .plain (.worker f) ∧
        c.session.worker.step true A 0 c.session.heap c.session.data f = some (d, w) ∧
        (w.Live → w.counters = c.session.worker.counters) ∧
        c' = c.worked f d w c.sends c.reported) ∨
      ∃ s, c' = { c with session := s } ∧ (c.session.Inv → s.Inv) ∧
        s.worker = c.session.worker ∧
        (s.data.isDone = true → c.session.data.isDone = true) := by
  cases e with
  | report lo cnt l t =>
    obtain ⟨⟨h0, hle, hnew⟩, hs⟩ := Option.ite_none_right_eq_some.mp hs
    obtain ⟨s, hsess, rfl⟩ := Option.map_eq_some_iff.mp hs
    obtain ⟨⟨d, w⟩, hw, rfl⟩ := Option.map_eq_some_iff.mp hsess
    exact .inr (.inl ⟨lo, cnt, l, t, d, w, h0, hle, hnew, hw, rfl⟩)
  | plain e =>
    obtain ⟨hplain, hs⟩ := Option.ite_none_left_eq_some.mp hs
    obtain ⟨s, hsess, rfl⟩ := Option.map_eq_some_iff.mp hs
    have hinv : c.session.Inv → s.Inv := fun h => h.step hsess
    cases Session.step_does hsess with
    | called | calledEnd | asked | told | written =>
      exact .inr (.inr (.inr ⟨_, rfl, hinv, rfl, id⟩))
    | ran hm =>
      refine .inr (.inr (.inr ⟨_, rfl, hinv, Session.noteMain_worker _, fun hd => ?_⟩))
      rcases (Sender.step_advance hm).stores with ⟨p, _, _, _, hf⟩ | ⟨_, _, _, hf⟩ | ⟨_, _, hf⟩
      · exact absurd (hd.symm.trans hf) nofun
      · exact absurd (hd.symm.trans hf) nofun
      · exact hf ▸ hd
    | @worked e d w hw =>
      by_cases hsent : ∃ n, e = .sent n
      · obtain ⟨n, rfl⟩ := hsent
        exact .inl ⟨n, d, w, rfl, hw, rfl⟩
      · have hne : ∀ n, e ≠ .sent n := fun n he => hsent ⟨n, he⟩
        have hzero : c.session.zcSends (.worker e) = 0 := by
          cases e with
          | sent n => exact absurd rfl (hne n)
          | _ => rfl
        refine .inr (.inr (.inl ⟨e, d, w, rfl, hw,
          Counts.counters_eq hw hne (by simpa using hplain), ?_⟩))
        rw [hzero]
        rfl

/-- **Every step keeps the counts.** -/
theorem Counts.step (h : Counts c) {e : CompletionEvent} (hs : c.step A e = some c') :
    Counts c' := by
  rcases Completion.step_cases hs with ⟨n, d, w, -, hw, rfl⟩ |
    ⟨lo, cnt, l, t, d, w, h0, hle, hnew, hw, rfl⟩ | ⟨f, d, w, -, hw, hc, rfl⟩ |
    ⟨s, rfl, hinv, hwork, -⟩
  · exact (h.sent hw).1
  · exact (h.report h0 hle hnew hw).1
  · exact h.quiet hw hc
  · exact ⟨hinv h.inv, h.within, fun hl => hwork ▸ h.counters (hwork ▸ hl)⟩

/-- **Every step that meets the condition sets `is_done` with every send reported only.** -/
theorem Counts.safe_step (h : Counts c) (hsafe : c.Safe) {e : CompletionEvent} (ho : Ordered c e)
    (hs : c.step A e = some c') : c'.Safe := by
  rcases Completion.step_cases hs with ⟨n, d, w, -, hw, rfl⟩ |
    ⟨lo, cnt, l, t, d, w, h0, hle, hnew, hw, rfl⟩ | ⟨f, d, w, rfl, hw, hc, rfl⟩ |
    ⟨s, rfl, -, hwork, hd⟩
  · exact (h.sent hw).2
  · exact (h.report h0 hle hnew hw).2
  · exact h.safe_quiet hsafe ho hw
  · rintro (hpc | hdone)
    · exact hsafe (.inl (hwork ▸ hpc))
    · exact hsafe (.inr (hd hdone))

theorem Counts.not_ordered (h : Counts c) {e : CompletionEvent} (ho : ¬ Ordered c e)
    (hs : c.step A e = some c') : ¬ c'.Safe := by
  unfold Ordered at ho
  simp only [Classical.not_imp, not_lt] at ho
  obtain ⟨he, hpc, hlt, hge⟩ := ho
  have he' : e = .plain (.worker .tau) := by
    unfold CompletionEvent.isTau at he
    split at he
    case h_1 => rfl
    case h_2 => cases he
  subst he'
  have hle := (h.compare hpc).mpr hge
  have hstep : (completion A).step c (.plain (.worker .tau)) = some _ :=
    Completion.step_worker rfl (Worker.step_zcTest hpc hle)
  obtain rfl := Option.some.inj (hs.symm.trans hstep)
  intro hsafe
  have hall := hsafe (.inl rfl)
  have hsub : Finset.range c.sends ⊆ c.reported := fun i hi => hall i (Finset.mem_range.mp hi)
  have hcard := Finset.card_le_card hsub
  rw [Finset.card_range] at hcard
  omega

theorem counts_start (h : Heap) (so : Sockets) (err : Error) :
    Counts ⟨Session.start h so err, 0, ∅⟩ := by
  refine ⟨Session.inv_start h so err, Finset.empty_subset _, fun _ => ?_⟩
  have h0 : toS 32 ((0 : Nat) : Int) = 0 := toS_of_range (by decide) (by decide) (by decide)
  show ((0 : Int), (0 : Int)) = (toS 32 ((0 : Nat) : Int), toS 32 ((∅ : Finset Nat).card : Nat))
  rw [Finset.card_empty, h0]

/-- **Zero-copy completion.**  All along a run, `is_done` is set with every send reported only, if
and only if every comparison of the counters meets the condition. -/
theorem done_iff_ordered {h : Heap} {so : Sockets} {err : Error} {es : List CompletionEvent}
    (hr : (completion A).run ⟨Session.start h so err, 0, ∅⟩ es = some c) :
    (∀ es₁ es₂ v, es = es₁ ++ es₂ →
        (completion A).run ⟨Session.start h so err, 0, ∅⟩ es₁ = some v → v.Safe) ↔
      (completion A).Runs Ordered ⟨Session.start h so err, 0, ∅⟩ es c := by
  have counts : ∀ l v, (completion A).run ⟨Session.start h so err, 0, ∅⟩ l = some v → Counts v :=
    fun l v hv => (Machine.runs_of_run hv).keeps Counts (counts_start h so err)
      fun _ _ _ hc _ hs => hc.step hs
  constructor
  · intro hsafe
    refine Machine.Runs.of_splits hr fun es₁ e es₂ v hes hv => ?_
    by_contra ho
    rw [hes] at hr
    obtain ⟨u, v', hu, hs, -⟩ := Machine.run_cut hr
    cases hv.symm.trans hu
    refine (counts es₁ v hv).not_ordered ho hs (hsafe (es₁ ++ [e]) es₂ v' ?_
      (Machine.run_snoc hv hs))
    rw [hes, List.append_assoc]
    rfl
  · intro hruns es₁ es₂ v hes hv
    rw [hes] at hruns
    obtain ⟨v', h1, -⟩ := hruns.split
    obtain rfl := Option.some.inj (hv.symm.trans h1.run_eq)
    have hboth : Counts v ∧ v.Safe := by
      refine h1.keeps (fun v => Counts v ∧ v.Safe) ⟨counts_start h so err, ?_⟩ ?_
      · exact fun _ i hi => absurd hi (Nat.not_lt_zero i)
      · rintro v e v' ⟨hc, hsafe⟩ ho hs
        exact ⟨hc.step hs, hc.safe_step hsafe ho hs⟩
    exact hboth.2

/-! ## Two runs -/

/-- a list of one packet of `n` bytes of memory -/
def onePacket (n : Nat) : Heap := ⟨fun _ => [⟨.memoryLocation, 10, n, 0⟩], fun _ _ _ => 0⟩

/-- the list handed over and copied, the worker about to send -/
def handOver : List CompletionEvent :=
  let es : List SessionEvent :=
    .callSend 7 :: List.replicate 6 .main ++ List.replicate 4 (.worker (.call true)) ++
      List.replicate 6 (.worker .tau)
  es.map .plain

def zcStart (n : Nat) : Completion :=
  ⟨Session.start (onePacket n) {} (Error.construct "TCPSenderZC"), 0, ∅⟩

/-- two sends, reported together -/
def reportedTogether : List CompletionEvent :=
  handOver ++ [.plain (.worker (.sent 2)), .plain (.worker .tau), .plain (.worker (.sent 1)),
    .plain (.worker .tau), .plain (.worker .tau), .plain (.worker .tau), .plain (.worker .tau),
    .plain (.worker (.call true)), .report 0 2 solIp ipRecverr, .plain (.worker .tau)]

theorem done_iff_ordered_two :
    ∃ c, (completion FastInts.lp64).run (zcStart 3) reportedTogether = some c ∧
      c.session.worker.pc = .setDone ∧ c.sends = 2 ∧ 0 ∈ c.reported ∧ 1 ∈ c.reported := by
  have hrun : (((completion FastInts.lp64).restrict Ordered).run (zcStart 3)
      reportedTogether).map (fun c => (c.session.worker.pc, c.sends)) = some (.setDone, 2) := by
    decide
  obtain ⟨c, hc, he⟩ := Option.map_eq_some_iff.mp hrun
  obtain ⟨hpc, hsends⟩ := Prod.mk.inj he
  have hruns := Machine.Runs.of_restrict hc
  have hr := hruns.run_eq
  have hall := (done_iff_ordered hr).mpr hruns reportedTogether [] c
    (List.append_nil _).symm hr (.inl hpc)
  exact ⟨c, hr, hpc, hsends, hall 0 (by omega), hall 1 (by omega)⟩

/-- after `n` sends of one byte each, none of them reported -/
structure Flooding (n : Nat) (c : Completion) : Prop where
  pc : c.session.worker.pc = .sending
  list : c.session.worker.dataToBeSent = [⟨.memoryLocation, 10, 2^31, 0⟩]
  i : c.session.worker.i = 0
  sent : c.session.worker.dataSent = n
  left : c.session.worker.remainingData = 2^31 - n
  sending : c.session.worker.sendingCounter = toS 32 n
  last : c.session.worker.lastSendingCounter = 0
  running : c.session.data.terminateThread = false
  sends : c.sends = n
  reported : c.reported = ∅

/-- the next send of one byte -/
def oneByte : List CompletionEvent := [.plain (.worker (.sent 1)), .plain (.worker .tau)]

theorem Flooding.isMemory {n : Nat} (h : Flooding n c) : c.session.worker.isMemory = true := by
  unfold Worker.isMemory Worker.current
  rw [h.list, h.i]
  rfl

theorem Flooding.next {n : Nat} (h : Flooding n c) (hn : n < 2^31) :
    ∃ c', (completion FastInts.lp64).run c oneByte = some c' ∧ Flooding (n + 1) c' := by
  have hleft := h.left
  have hmem := h.isMemory
  have send : c.session.worker.step true FastInts.lp64 0 c.session.heap c.session.data (.sent 1)
      = some (c.session.data, { c.session.worker with
          pc := .sent 1, sendingCounter := toS 32 (c.session.worker.sendingCounter + 1) }) := by
    unfold Worker.step
    rw [h.pc]
    show (if c.session.worker.remainingData ≠ 0 ∧ (1 : Int) ≤ c.session.worker.remainingData then
      some (c.session.data, { c.session.worker with
        pc := .sent 1,
        sendingCounter := if true && c.session.worker.isMemory then
          toS 32 (c.session.worker.sendingCounter + 1) else c.session.worker.sendingCounter })
      else none) = _
    rw [if_pos ⟨by omega, by omega⟩, hmem]
    rfl
  have hzc : c.session.zcSends (.worker (.sent 1)) = 1 := by
    show (if c.session.worker.isMemory = true ∧ (0 : Int) ≤ 1 then 1 else 0) = 1
    rw [if_pos ⟨hmem, by decide⟩]
  let w : Worker := { c.session.worker with
    pc := .sent 1, sendingCounter := toS 32 (c.session.worker.sendingCounter + 1) }
  have update : ∀ heap, w.step true FastInts.lp64 0 heap c.session.data .tau
      = some (c.session.data, w.sentBytes FastInts.lp64 1) := by
    intro heap
    unfold Worker.step
    show some (c.session.data, if (1 : Int) < 0 then w.endThreadError true .sendingError
      else w.unlessTerminated c.session.data (w.sentBytes FastInts.lp64 1)) = _
    rw [if_neg (by decide)]
    unfold Worker.unlessTerminated
    rw [h.running]
    rfl
  refine ⟨(c.worked (.sent 1) c.session.data w (c.sends + 1) c.reported).worked .tau
    c.session.data (w.sentBytes FastInts.lp64 1) (c.sends + 1) c.reported, ?_, ?_⟩
  · have h1 := Completion.step_worker rfl send
    rw [hzc] at h1
    unfold oneByte
    rw [Machine.run_cons, h1]
    show ((completion FastInts.lp64).step (c.worked (.sent 1) c.session.data w (c.sends + 1)
      c.reported) (.plain (.worker .tau))).bind _ = _
    rw [Completion.step_worker rfl (update _)]
    rfl
  · have hsent : (w.sentBytes FastInts.lp64 1).dataSent = n + 1 := by
      have hw : w.isMemory = true := hmem
      have e1 : toU 64 ((n + 1 : Nat) : Int) = n + 1 := toU_of_lt (by omega)
      show (if w.isMemory then toU 64 ((c.session.worker.dataSent : Int) + 1)
        else c.session.worker.dataSent + 1) = n + 1
      rw [hw, h.sent]
      exact e1
    have hrem : (w.sentBytes FastInts.lp64 1).remainingData = 2^31 - (n + 1) := by
      have e1 : toU 64 ((2^31 - (n + 1) : Nat) : Int) = 2^31 - (n + 1) := toU_of_lt (by omega)
      have e2 : ((2^31 - (n + 1) : Nat) : Int) = (c.session.worker.remainingData : Int) - 1 := by
        omega
      rw [e2] at e1
      exact e1
    have hcount : toS 32 (c.session.worker.sendingCounter + 1) = toS 32 ((n + 1 : Nat) : Int) := by
      have e1 : toS 32 (n : Int) = n := toS_of_range (by decide) (by omega) (by omega)
      rw [h.sending, e1]
      rfl
    exact ⟨rfl, h.list, h.i, hsent, hrem, hcount, h.last, h.running,
      congrArg (· + 1) h.sends, h.reported⟩

theorem flooded (n : Nat) (hn : n ≤ 2^31) :
    ∃ es c, (completion FastInts.lp64).run (zcStart (2^31)) es = some c ∧ Flooding n c := by
  induction n with
  | zero =>
    refine ⟨handOver, _, rfl, ⟨rfl, rfl, rfl, rfl, rfl, rfl, rfl, rfl, rfl, rfl⟩⟩
  | succ n ih =>
    obtain ⟨es, c, hc, hf⟩ := ih (by omega)
    obtain ⟨c', hc', hf'⟩ := hf.next (by omega)
    refine ⟨es ++ oneByte, c', ?_, hf'⟩
    rw [Machine.run_append, hc]
    exact hc'

/-- the packet is finished, the list is at its end, the counters are compared, `is_done` is set -/
def listEnd : List CompletionEvent :=
  [.plain (.worker .tau), .plain (.worker .tau), .plain (.worker .tau), .plain (.worker .tau)]

theorem Flooding.finish (h : Flooding (2^31) c) :
    ∃ c', (completion FastInts.lp64).run c listEnd = some c' ∧
      c'.session.data.isDone = true ∧ c'.sends = 2^31 ∧ c'.reported = ∅ := by
  let d := c.session.data
  let w := c.session.worker
  have hleft : w.remainingData = 0 := h.left
  have hi : toS 32 (w.i + 1) = 1 := by rw [show w.i = 0 from h.i]; rfl
  let w1 : Worker := { w with pc := .packet, i := toS 32 (w.i + 1) }
  have packet : ∀ heap, w.step true FastInts.lp64 0 heap d .tau = some (d, w1) := by
    intro heap
    unfold Worker.step
    rw [show w.pc = .sending from h.pc]
    show (if w.remainingData = 0 then some (d, w1) else none) = _
    rw [if_pos hleft]
  have last : ∀ heap, w1.step true FastInts.lp64 0 heap d .tau = some (d, w1.goto .zcTest) := by
    intro heap
    have hnext : w1.nextPacket true FastInts.lp64 = some (w1.goto .zcTest) := by
      unfold Worker.nextPacket
      have hi1 : w1.i = 1 := hi
      have hl1 : w1.dataToBeSent.length = 1 := congrArg List.length h.list
      rw [hi1, hl1]
      exact if_neg (by decide)
    show (w1.nextPacket true FastInts.lp64).map (fun v => (d, v)) = _
    rw [hnext]
    rfl
  -- `0 < -2^31` is false
  have compare : ∀ heap, (w1.goto .zcTest).step true FastInts.lp64 0 heap d .tau
      = some (d, w1.goto .setDone) := by
    intro heap
    have hwrap : ¬ w.lastSendingCounter < w.sendingCounter := by
      rw [show w.lastSendingCounter = 0 from h.last,
        show w.sendingCounter = toS 32 ((2^31 : Nat) : Int) from h.sending]
      decide
    show some (d, (w1.goto .zcTest).goto
      (if w.lastSendingCounter < w.sendingCounter then .poll else .setDone)) = _
    rw [if_neg hwrap]
    rfl
  let c1 := c.worked .tau d w1 c.sends c.reported
  let c2 := c1.worked .tau d (w1.goto .zcTest) c.sends c.reported
  let c3 := c2.worked .tau d (w1.goto .setDone) c.sends c.reported
  let c4 := c3.worked .tau { d with isDone := true } (w1.goto .outerTest) c.sends c.reported
  have h1 : (completion FastInts.lp64).step c (.plain (.worker .tau)) = some c1 :=
    Completion.step_worker rfl (packet _)
  have h2 : (completion FastInts.lp64).step c1 (.plain (.worker .tau)) = some c2 :=
    Completion.step_worker rfl (last _)
  have h3 : (completion FastInts.lp64).step c2 (.plain (.worker .tau)) = some c3 :=
    Completion.step_worker rfl (compare _)
  have h4 : (completion FastInts.lp64).step c3 (.plain (.worker .tau)) = some c4 :=
    Completion.step_worker rfl rfl
  refine ⟨c4, ?_, rfl, h.sends, h.reported⟩
  unfold listEnd
  rw [Machine.run_cons, h1, Option.bind_some, Machine.run_cons, h2, Option.bind_some,
    Machine.run_cons, h3, Option.bind_some, Machine.run_cons, h4, Option.bind_some]
  rfl

/-- **At `2^31` sends the counter has wrapped around, and `is_done` is set with no send
reported.** -/
theorem done_too_early :
    ∃ es c, (completion FastInts.lp64).run (zcStart (2^31)) es = some c ∧
      c.session.data.isDone = true ∧ c.sends = 2^31 ∧ c.reported = ∅ := by
  obtain ⟨es, c, hc, h⟩ := flooded (2^31) le_rfl
  obtain ⟨c', hc', hdone, hsends, hrep⟩ := h.finish
  refine ⟨es ++ listEnd, c', ?_, hdone, hsends, hrep⟩
  rw [Machine.run_append, hc]
  exact hc'

end
end RealTimeTransfer
