import RealTimeTransfer.Lib.Simulation
import RealTimeTransfer.Senders.Report

/-!
# The zero-copy sender and the plain one

`TCPSenderZC` counts its zero-copy sends and waits for their notifications before it reports a list
done; for the rest its worker is that of `TCPSender`.  Without the counters and with the wait drawn
together into the point before the store of `is_done`, a run of the one is a run of the other, as
long as no wait fails.

* `Worker.plain`       the worker without what is zero-copy;
* `Smooth`             no wait fails;
* `step_plain`         a step of the zero-copy worker is one of the plain one, or none;
* `zc_refines_plain`   every run of a `TCPSenderZC` is one of a `TCPSender`.
-/

namespace RealTimeTransfer
open Machines Words Sync

def WorkerPc.plain : WorkerPc → WorkerPc
  | .zcTest | .poll | .recvmsg => .setDone
  | pc => pc

/-- the code of a worker on its way to write it -/
def WorkerPc.code : WorkerPc → Nat
  | .exitError _ c | .exitCode c => c.num
  | _ => 0

/-- the worker without its counters and its wait -/
def Worker.plain (w : Worker) : Worker :=
  { w with pc := w.pc.plain, sendingCounter := 0, lastSendingCounter := 0 }

def Session.plain (s : Session) : Session := { s with worker := s.worker.plain }

/-- no `poll` and no `recvmsg` fails, and no notification is refused -/
def Worker.Smooth (w : Worker) : WorkerEvent → Prop
  | .call ok => w.pc = .poll → ok = true
  | .recv none => False
  | .recv (some m) => 1 ≤ toS 32 (readNotificationZc m)
  | _ => True

def Session.Smooth (s : Session) : SessionEvent → Prop
  | .worker e => s.worker.Smooth e
  | _ => True

/-- what an observer sees: the calls with their answers, the steps of the main thread, and the calls
of `send` and `sendfile` with theirs -/
def SessionEvent.seen : SessionEvent → Option SessionEvent
  | .worker (.sent n) => some (.worker (.sent n))
  | .worker _ => none
  | e => some e

namespace Worker
variable {A : FastInts} {k : Nat} {h : Heap} {d d' : SenderWorkerData} {w w' : Worker}
  {e : WorkerEvent}

theorem plain_pc (hz : w.pc.zcWaiting = false) : w.plain.pc = w.pc := by
  show w.pc.plain = w.pc
  cases hpc : w.pc <;> rw [hpc] at hz <;> first | rfl | cases hz

@[simp] theorem plain_goto (pc : WorkerPc) : (w.goto pc).plain = w.plain.goto pc.plain := rfl

theorem step_waiting (hz : w.pc.zcWaiting = true) (hok : w.Smooth e)
    (hs : step true A k h d w e = some (d', w')) :
    d' = d ∧ w'.plain = w.plain ∧ ∀ n, e ≠ .sent n := by
  unfold Worker.step at hs
  split at hs
  case h_20 hpc =>
    cases hs
    refine ⟨rfl, ?_, nofun⟩
    unfold plain goto
    split <;> simp [hpc, WorkerPc.plain]
  case h_21 ok hpc =>
    cases hs
    cases ok with
    | false => exact absurd (hok hpc) nofun
    | true => exact ⟨rfl, by unfold plain; simp [orEnd, goto, hpc, WorkerPc.plain], nofun⟩
  case h_22 => exact hok.elim
  case h_23 m hpc =>
    cases hs
    have hm : 1 ≤ toS 32 (readNotificationZc m) := hok
    unfold notified
    rw [if_neg (by omega)]
    exact ⟨rfl, by unfold plain; simp [hpc, WorkerPc.plain], nofun⟩
  case h_32 => cases hs
  all_goals
    rename_i hpc
    rw [hpc] at hz
    cases hz

theorem plain_orEnd (ok : Bool) (pc : WorkerPc) (code : ErrorCode) :
    (w.orEnd ok pc code).plain = w.plain.orEnd ok pc.plain code := by
  unfold orEnd
  cases ok <;> rfl

theorem plain_unlessTerminated {v : Worker} :
    (w.unlessTerminated d v).plain = w.plain.unlessTerminated d v.plain := by
  unfold unlessTerminated
  split <;> rfl

theorem plain_acquire (hs : w.acquire k d = some (d', w')) :
    w.plain.acquire k d = some (d', w'.plain) := by
  obtain ⟨m, hm, he⟩ := Option.map_eq_some_iff.mp hs
  cases he
  exact Option.map_eq_some_iff.mpr ⟨m, hm, rfl⟩

theorem plain_nextPacket (hs : w.nextPacket true A = some w') :
    w.plain.nextPacket false A = some w'.plain := by
  unfold nextPacket at hs ⊢
  by_cases hi : toU A.w32 w.i < w.dataToBeSent.length
  · rw [if_pos hi] at hs
    obtain ⟨p, hp, rfl⟩ := Option.map_eq_some_iff.mp hs
    refine (if_pos hi).trans (Option.map_eq_some_iff.mpr ⟨p, hp, ?_⟩)
    split <;> rfl
  · rw [if_neg hi] at hs
    cases hs
    exact if_neg hi

/-- **Any other step is one of the plain worker.** -/
theorem step_plain (hz : w.pc.zcWaiting = false) (hs : step true A k h d w e = some (d', w')) :
    step false A k h d w.plain e = some (d', w'.plain) := by
  have hpc' := plain_pc hz
  unfold Worker.step at hs
  split at hs
  case h_3 ok hpc | h_4 ok hpc | h_5 ok hpc | h_6 ok hpc =>
    cases hs
    unfold Worker.step
    rw [hpc', hpc, plain_orEnd]
    rfl
  case h_7 hpc | h_10 hpc =>
    cases hs
    unfold Worker.step
    rw [hpc', hpc, plain_unlessTerminated]
    rfl
  case h_8 hpc | h_13 hpc =>
    unfold Worker.step
    rw [hpc', hpc]
    exact plain_acquire hs
  case h_9 hpc =>
    cases hs
    unfold Worker.step
    rw [hpc', hpc]
    dsimp only
    split <;> rfl
  case h_14 hpc =>
    obtain ⟨p, hp, he⟩ := Option.map_eq_some_iff.mp hs
    cases he
    unfold Worker.step
    rw [hpc', hpc]
    exact Option.map_eq_some_iff.mpr ⟨p, hp, rfl⟩
  case h_15 hpc | h_27 hpc | h_31 hpc =>
    unfold Worker.step
    rw [hpc', hpc]
    rw [protUnlock_eq] at hs
    cases hs
    dsimp only
    rw [protUnlock_eq]
    rfl
  case h_16 hpc =>
    obtain ⟨v, hv, he⟩ := Option.map_eq_some_iff.mp hs
    cases he
    unfold Worker.step
    rw [hpc', hpc]
    exact Option.map_eq_some_iff.mpr ⟨_, plain_nextPacket hv, rfl⟩
  case h_17 hpc | h_18 hpc =>
    obtain ⟨hr, he⟩ := Option.ite_none_right_eq_some.mp hs
    cases he
    unfold Worker.step
    rw [hpc', hpc]
    exact if_pos hr
  case h_19 n hpc =>
    cases hs
    unfold Worker.step
    rw [hpc', hpc]
    dsimp only
    split
    · rfl
    · rw [plain_unlessTerminated]
      rfl
  case h_20 hpc | h_21 hpc | h_22 hpc | h_23 hpc =>
    rw [hpc] at hz
    cases hz
  case h_32 => cases hs
  all_goals
    rename_i hpc
    cases hs
    unfold Worker.step
    rw [hpc', hpc]
    rfl

theorem step_code (hz : w.pc.zcWaiting = false) (hw : w.pc.code < 6) (hd : d.errorCode < 6)
    (hs : step false A k h d w e = some (d', w')) : w'.pc.code < 6 ∧ d'.errorCode < 6 := by
  unfold Worker.step at hs
  split at hs
  case h_3 | h_4 | h_5 | h_6 =>
    cases hs
    unfold orEnd
    refine ⟨?_, hd⟩
    split <;> simp [goto, endThreadError, WorkerPc.code, ErrorCode.num]
  case h_7 | h_10 =>
    cases hs
    unfold unlessTerminated
    refine ⟨?_, hd⟩
    split <;> simp [goto, endThreadError, WorkerPc.code, ErrorCode.num]
  case h_8 | h_13 =>
    obtain ⟨m, -, he⟩ := Option.map_eq_some_iff.mp hs
    cases he
    exact ⟨Nat.succ_pos 5, hd⟩
  case h_9 =>
    cases hs
    refine ⟨?_, hd⟩
    unfold goto
    dsimp only
    split <;> exact Nat.succ_pos 5
  case h_14 =>
    obtain ⟨p, -, he⟩ := Option.map_eq_some_iff.mp hs
    cases he
    exact ⟨Nat.succ_pos 5, hd⟩
  case h_15 | h_27 | h_31 =>
    rw [protUnlock_eq] at hs
    cases hs
    exact ⟨Nat.succ_pos 5, hd⟩
  case h_16 =>
    obtain ⟨v, hv, he⟩ := Option.map_eq_some_iff.mp hs
    cases he
    refine ⟨?_, hd⟩
    rcases nextPacket_cases hv with ⟨p, _, _, _, rfl⟩ | ⟨p, _, _, _, rfl⟩ | ⟨_, rfl⟩
    all_goals simp [goto, endThreadError, WorkerPc.code, ErrorCode.num]
  case h_17 | h_18 =>
    obtain ⟨-, he⟩ := Option.ite_none_right_eq_some.mp hs
    cases he
    exact ⟨Nat.succ_pos 5, hd⟩
  case h_19 =>
    cases hs
    refine ⟨?_, hd⟩
    unfold unlessTerminated sentBytes
    split
    · simp [goto, endThreadError, WorkerPc.code, ErrorCode.num]
    · split <;> simp [goto, endThreadError, WorkerPc.code, ErrorCode.num]
  case h_20 hpc | h_21 hpc | h_22 hpc | h_23 hpc =>
    rw [hpc] at hz
    cases hz
  case h_25 hpc =>
    cases hs
    rw [hpc] at hw
    exact ⟨hw, hd⟩
  case h_26 hpc =>
    cases hs
    rw [hpc] at hw
    exact ⟨Nat.succ_pos 5, hw⟩
  case h_32 => cases hs
  all_goals
    cases hs
    exact ⟨Nat.succ_pos 5, hd⟩

theorem code_plain : w.plain.pc.code = w.pc.code := by
  show w.pc.plain.code = w.pc.code
  cases w.pc <;> rfl

theorem plain_output (hz : w.pc.zcWaiting = false) : w.plain.output h e = w.output h e := by
  unfold output
  rw [plain_pc hz]
  rfl

theorem output_waiting (hz : w.pc.zcWaiting = true) : w.output h e = [] := by
  unfold output
  cases hpc : w.pc <;> rw [hpc] at hz
  all_goals first | rfl | cases hz

end Worker

theorem workerErrorText_plain {n : Nat} (hn : n < 6) :
    workerErrorText true n = workerErrorText false n := by
  unfold workerErrorText
  have h6 : n ≠ ErrorCode.zcPollError.num := by simp [ErrorCode.num]; omega
  have h7 : n ≠ ErrorCode.zcRecvmsgError.num := by simp [ErrorCode.num]; omega
  have h8 : n ≠ ErrorCode.zcNotificationError.num := by simp [ErrorCode.num]; omega
  simp [h6, h7, h8]

theorem Sender.step_plain {d : SenderWorkerData} {m : Sender} (hd : d.errorCode < 6) :
    m.step true d = m.step false d := by
  unfold Sender.step
  split
  case h_5 => rw [workerErrorText_plain hd]
  all_goals rfl

/-- no code of the zero-copy sender is about -/
structure Session.Coded (s : Session) : Prop where
  worker : s.worker.pc.code < 6
  data : s.data.errorCode < 6

section
variable {A : FastInts} {s t : Session} {e : SessionEvent}

theorem Session.plain_noteMain : s.plain.noteMain = s.noteMain.plain := by
  unfold Session.noteMain
  rw [show s.plain.main.pc = s.main.pc from rfl]
  cases s.main.pc <;> rfl

theorem Session.plain_noteWorker {x : WorkerEvent} {d : SenderWorkerData} {w : Worker}
    (hz : s.worker.pc.zcWaiting = false) :
    { s.plain.noteWorker x with data := d, worker := w.plain } =
      ({ s.noteWorker x with data := d, worker := w } : Session).plain := by
  have hpc : s.plain.worker.pc = s.worker.pc := Worker.plain_pc hz
  have hout : s.plain.worker.output s.plain.heap x = s.worker.output s.heap x :=
    Worker.plain_output hz
  unfold Session.noteWorker
  rw [hpc, hout]
  rfl

theorem Session.plain_waiting {x : WorkerEvent} {w : Worker} (hz : s.worker.pc.zcWaiting = true)
    (hw : w.plain = s.worker.plain) :
    ({ s.noteWorker x with data := s.data, worker := w } : Session).plain = s.plain := by
  have hcopy : s.worker.pc ≠ .copy := fun hc => by rw [hc] at hz; cases hz
  have hdone : s.worker.pc ≠ .setDone := fun hc => by rw [hc] at hz; cases hz
  unfold Session.noteWorker Session.plain
  rw [Worker.output_waiting hz, if_neg hcopy, if_neg hdone, List.append_nil]
  dsimp only
  rw [hw]

/-- a step of the wait -/
def Session.waits (s : Session) : SessionEvent → Bool
  | .worker _ => s.worker.pc.zcWaiting
  | _ => false

/-- **A step outside the wait.** -/
theorem Session.Coded.step_plain (h : s.Coded) (hz : s.waits e = false)
    (hs : s.step true A e = some t) : t.Coded ∧ s.plain.step false A e = some t.plain := by
  cases e with
  | callSend p =>
    obtain ⟨m, hm, rfl⟩ := Option.map_eq_some_iff.mp hs
    exact ⟨⟨h.worker, h.data⟩, Option.map_eq_some_iff.mpr ⟨m, hm, rfl⟩⟩
  | callEndSender =>
    obtain ⟨m, hm, rfl⟩ := Option.map_eq_some_iff.mp hs
    exact ⟨⟨h.worker, h.data⟩, Option.map_eq_some_iff.mpr ⟨m, hm, rfl⟩⟩
  | isSendDone b =>
    obtain ⟨hb, rfl⟩ := Option.ite_some_none_eq_some.mp hs
    exact ⟨h, if_pos hb⟩
  | getError msg =>
    obtain ⟨hm, rfl⟩ := Option.ite_some_none_eq_some.mp hs
    exact ⟨⟨h.worker, h.data⟩, if_pos hm⟩
  | write h' =>
    obtain ⟨hr, rfl⟩ := Option.ite_some_none_eq_some.mp hs
    exact ⟨⟨h.worker, h.data⟩, if_pos hr⟩
  | main =>
    obtain ⟨⟨d, m⟩, hm, rfl⟩ := Option.map_eq_some_iff.mp hs
    have hcode := (Sender.step_advance hm).report_eq.2
    rw [Sender.step_plain h.data] at hm
    refine ⟨⟨?_, ?_⟩, Option.map_eq_some_iff.mpr ⟨(d, m), hm, ?_⟩⟩
    · show s.noteMain.worker.pc.code < 6
      rw [Session.noteMain_worker]
      exact h.worker
    · exact hcode.symm ▸ h.data
    · rw [Session.plain_noteMain]
      rfl
  | worker x =>
    obtain ⟨⟨d, w⟩, hw, rfl⟩ := Option.map_eq_some_iff.mp hs
    have hw' := Worker.step_plain hz hw
    obtain ⟨hc, hd⟩ := Worker.step_code (Worker.plain_pc hz ▸ hz)
      (Worker.code_plain.symm ▸ h.worker) h.data hw'
    rw [Worker.code_plain] at hc
    refine ⟨⟨hc, hd⟩, Option.map_eq_some_iff.mpr ⟨(d, w.plain), hw', ?_⟩⟩
    exact Session.plain_noteWorker hz

/-- **A step of the wait** shows nothing. -/
theorem Session.Coded.step_waiting (h : s.Coded) (ho : s.Smooth e) (hz : s.waits e = true)
    (hs : s.step true A e = some t) : t.Coded ∧ t.plain = s.plain ∧ e.seen = none := by
  cases e with
  | worker x =>
    obtain ⟨⟨d, w⟩, hw, rfl⟩ := Option.map_eq_some_iff.mp hs
    obtain ⟨rfl, hp, hn⟩ := Worker.step_waiting hz ho hw
    refine ⟨⟨?_, h.data⟩, Session.plain_waiting hz hp, ?_⟩
    · show w.pc.code < 6
      rw [← Worker.code_plain, hp, Worker.code_plain]
      exact h.worker
    · cases x <;> first | rfl | exact absurd rfl (hn _)
  | _ => cases hz

/-- **A step of a `TCPSenderZC` is one of a `TCPSender`, or part of its wait.** -/
theorem Session.Coded.step (h : s.Coded) (ho : s.Smooth e) (hs : s.step true A e = some t) :
    t.Coded ∧ ∃ l, (session false A).run s.plain l = some t.plain ∧
      l.filterMap SessionEvent.seen = e.seen.toList := by
  cases hz : s.waits e with
  | true =>
    obtain ⟨hc, hp, hn⟩ := h.step_waiting ho hz hs
    refine ⟨hc, [], ?_, ?_⟩
    · rw [hp]
      rfl
    · rw [hn]
      rfl
  | false =>
    obtain ⟨hc, hs'⟩ := h.step_plain hz hs
    refine ⟨hc, [e], Option.bind_eq_some_iff.mpr ⟨_, hs', rfl⟩, ?_⟩
    rw [List.filterMap_cons]
    cases e.seen <;> rfl

theorem zc_simulation (A : FastInts) : Simulation (session true A) (session false A) Session.Smooth
    Machine.Always (fun s u => s.Coded ∧ u = s.plain) SessionEvent.seen SessionEvent.seen where
  step v e v' u hv ho hs := by
    obtain ⟨hc, rfl⟩ := hv
    obtain ⟨hc', l, hl, hseen⟩ := hc.step ho hs
    exact ⟨l, v'.plain, Machine.runs_of_run hl, ⟨hc', rfl⟩, hseen⟩

/-- **The zero-copy path agrees with the plain one.**  Every run of a `TCPSenderZC` in which no wait
for a notification fails is, its waits left out, a run of a `TCPSender` from the same start: the
same calls with the same answers, the same calls of `send` and `sendfile` with the same answers, the
same bytes on the socket, lists accepted and copied, sockets, error texts and shared data. -/
theorem zc_refines_plain {h : Heap} {so : Sockets} {err : Error} {es : List SessionEvent}
    (hr : (session true A).Runs Session.Smooth (Session.start h so err) es s) :
    ∃ l, (session false A).run (Session.start h so err) l = some s.plain ∧
      l.filterMap SessionEvent.seen = es.filterMap SessionEvent.seen := by
  have h0 : (Session.start h so err).Coded := ⟨Nat.succ_pos 5, Nat.succ_pos 5⟩
  obtain ⟨l, u, hl, ⟨-, rfl⟩, hseen⟩ := (zc_simulation A).run ⟨h0, rfl⟩ hr
  exact ⟨l, hl.run_eq, hseen⟩

instance (w : Worker) (e : WorkerEvent) : Decidable (w.Smooth e) :=
  match e with
  | .call _ => inferInstanceAs (Decidable (_ → _))
  | .recv none => .isFalse id
  | .recv (some m) => inferInstanceAs (Decidable (1 ≤ toS 32 (readNotificationZc m)))
  | .tau | .wake | .sent _ => .isTrue trivial

instance (s : Session) (e : SessionEvent) : Decidable (s.Smooth e) :=
  match e with
  | .worker e => inferInstanceAs (Decidable (s.worker.Smooth e))
  | .callSend _ | .callEndSender | .isSendDone _ | .getError _ | .main | .write _ => .isTrue trivial

/-- one byte goes out, and its notification comes back -/
def oneByteReported : List SessionEvent :=
  fallAsleep ++ .callSend 0 :: List.replicate 6 .main ++ .worker .wake ::
    List.replicate 5 (.worker .tau) ++ [.worker (.sent 1), .worker .tau, .worker .tau, .worker .tau,
      .worker .tau, .worker (.call true), .worker (.recv (some (some ⟨0, 11, 5, 0, 0⟩))),
      .worker .tau, .worker .tau, .isSendDone true]

theorem zc_refines_plain_reported :
    ∃ s l, (session true FastInts.lp64).run
        (Session.start oneByteList {} (Error.construct "TCPSenderZC")) oneByteReported = some s ∧
      s.worker.sendingCounter = 1 ∧
      (session false FastInts.lp64).run
        (Session.start oneByteList {} (Error.construct "TCPSenderZC")) l = some s.plain ∧
      l.filterMap SessionEvent.seen = oneByteReported.filterMap SessionEvent.seen := by
  have hrun : (((session true FastInts.lp64).restrict Session.Smooth).run
      (Session.start oneByteList {} (Error.construct "TCPSenderZC")) oneByteReported).map
        (fun s => s.worker.sendingCounter) = some 1 := by decide
  obtain ⟨s, hs, hc⟩ := Option.map_eq_some_iff.mp hrun
  have hr := Machine.Runs.of_restrict hs
  obtain ⟨l, hl, hseen⟩ := zc_refines_plain hr
  exact ⟨s, l, hr.run_eq, hc, hl, hseen⟩

end
end RealTimeTransfer
