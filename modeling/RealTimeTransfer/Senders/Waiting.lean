import RealTimeTransfer.Senders.Liveness

/-!
# A send that waits for the mutex

The worker holds the mutex while it tests the list, waits and copies, and never during a call of the
kernel.  Once the tests of `send` are passed the worker has no list, so it does not come by the
mutex again and again: `send` returns after a bounded number of steps of both threads.

* `Worker.step_holding`  with the mutex in hand a worker needs no answer from outside;
* `Worker.step_idle`     a worker without a list is on its way to the condition variable, or out;
* `send_ends`            `send` returns, and does not wait for the network.
-/

namespace RealTimeTransfer
open Machines Words Sync

/-- the points of `send` behind its tests -/
def SenderPc.handing : SenderPc → Bool
  | .sendLock _ | .sendStore _ | .sendUnlock _ => true
  | _ => false

theorem SenderPc.isReady_of_handing {pc : SenderPc} (h : pc.handing = true) :
    pc.isReady = false := by
  cases pc <;> first | rfl | cases h

/-- a call of `send`, `sendfile` or `recvmsg` by the worker -/
def SessionEvent.onNetwork : SessionEvent → Bool
  | .worker (.sent _) | .worker (.recv _) => true
  | _ => false

/-- a step while `send` is behind its tests, and no spurious wake-up -/
def Handing (s : Session) (e : SessionEvent) : Prop :=
  s.main.pc.handing = true ∧ (e = .worker .wake → .worker 0 ∉ s.data.packetsCond)

instance (s : Session) (e : SessionEvent) : Decidable (Handing s e) :=
  match e with
  | .worker .wake =>
    decidable_of_iff (s.main.pc.handing = true ∧ .worker 0 ∉ s.data.packetsCond)
      (and_congr_right fun _ => ⟨fun h _ => h, fun h => h rfl⟩)
  | .worker .tau | .worker (.call _) | .worker (.sent _) | .worker (.recv _) | .callSend _
  | .callEndSender | .isSendDone _ | .getError _ | .main | .write _ =>
    decidable_of_iff (s.main.pc.handing = true) ⟨fun h => ⟨h, nofun⟩, And.left⟩

/-- the steps of a worker without a list, until it blocks or is over -/
def WorkerPc.idleLeft (asleep : Bool) : WorkerPc → Nat
  | .unwindLock => 1
  | .unwindFlag => 2
  | .pthreadExit => 3
  | .exitFlag => 4
  | .exitUnlock => 5
  | .exitCode _ => 6
  | .exitError _ _ => 7
  | .blocked => if asleep then 1 else 11
  | .condWait => 2
  | .termTest => 8
  | .listTest => 9
  | .lock | .relock => 10
  | .outerTest => 11
  | .setRecvBuffer => 12
  | .setSendBuffer => 13
  | .setTimeout => 14
  | .setAffinity => 15
  | .initialized => 16
  | .alive => 17
  | _ => 0

/-- the steps of `send`; its signal may set the worker going again -/
def SenderPc.handLeft : SenderPc → Nat
  | .sendLock _ => 13
  | .sendStore _ => 12
  | .sendUnlock _ => 1
  | _ => 0

def SenderWorkerData.asleep (d : SenderWorkerData) (k : Nat) : Bool := .worker k ∈ d.packetsCond

namespace Worker
variable {zc : Bool} {A : FastInts} {k : Nat} {h : Heap} {d d' : SenderWorkerData} {w w' : Worker}
  {e : WorkerEvent}

/-- **A worker without a list has one step less to go after each.** -/
theorem step_idle (hin : w.phase.inList = false) (hc : w.pc ≠ .copy)
    (hl : w.pc = .listTest → d.packetsList = none) (hwake : e = .wake → d.asleep k = false)
    (hs : step zc A k h d w e = some (d', w')) :
    w'.pc.idleLeft (d'.asleep k) < w.pc.idleLeft (d.asleep k) ∧
      (SessionEvent.worker e).onNetwork = false := by
  have outside : ∀ pc, w.pc = pc → { w with pc := pc }.phase.inList ≠ true := by
    rintro pc rfl
    rw [show { w with pc := w.pc } = w from rfl, hin]
    nofun
  unfold Worker.step at hs
  split at hs
  case h_8 hpc | h_13 hpc =>
    obtain ⟨m, -, he⟩ := Option.map_eq_some_iff.mp hs
    cases he
    exact ⟨by simp [hpc, WorkerPc.idleLeft], rfl⟩
  case h_9 hpc =>
    cases hs
    rw [hpc, if_pos (hl hpc)]
    exact ⟨by simp [goto, WorkerPc.idleLeft], rfl⟩
  case h_11 hpc =>
    cases hs
    refine ⟨?_, rfl⟩
    have hmem : .worker k ∈ d.packetsCond ++ [Thread.worker k] := by simp
    simp [goto, hpc, WorkerPc.idleLeft, SenderWorkerData.asleep, Cond.block, hmem]
  case h_12 hpc =>
    cases hs
    exact ⟨by simp [goto, hpc, WorkerPc.idleLeft, hwake rfl], rfl⟩
  case h_3 hpc | h_4 hpc | h_5 hpc | h_6 hpc =>
    cases hs
    unfold orEnd
    refine ⟨?_, rfl⟩
    split <;> simp [goto, endThreadError, hpc, WorkerPc.idleLeft]
  case h_7 hpc | h_10 hpc =>
    cases hs
    unfold unlessTerminated
    refine ⟨?_, rfl⟩
    split <;> simp [goto, endThreadError, hpc, WorkerPc.idleLeft]
  case h_14 hpc => exact absurd hpc hc
  case h_27 hpc | h_31 hpc =>
    rw [protUnlock_eq] at hs
    cases hs
    exact ⟨by simp [hpc, WorkerPc.idleLeft], rfl⟩
  case h_15 hpc | h_16 hpc | h_17 hpc | h_18 hpc | h_19 hpc | h_20 hpc | h_21 hpc | h_22 hpc |
      h_23 hpc | h_24 hpc => exact absurd rfl (outside _ hpc)
  case h_32 => cases hs
  all_goals
    rename_i hpc
    cases hs
    exact ⟨by simp [goto, hpc, WorkerPc.idleLeft], rfl⟩

theorem step_holding (zc : Bool) (A : FastInts) (k : Nat) (h : Heap) (hp : w.phase.holds = true)
    (hc : w.pc = .copy → d.packetsList ≠ none) :
    ∃ x, w.step zc A k h d .tau = some x := by
  apply Option.isSome_iff_exists.mp
  unfold Worker.step
  unfold phase at hp
  cases hpc : w.pc with
  | copy =>
    obtain ⟨p, hp⟩ := Option.ne_none_iff_exists'.mp (hc hpc)
    dsimp only
    rw [hp]
    rfl
  | listTest | termTest | condWait | unlock | exitError | exitCode | exitUnlock => rfl
  | _ =>
    rw [hpc] at hp
    cases hp

end Worker

/-- `send` is behind its tests, and the worker without a list -/
structure HandingOver (s : Session) : Prop where
  inv : s.Inv
  outside : s.worker.phase.inList = false
  pending : (∃ p, s.main.pc = .sendLock p) → s.data.packetsList = none

def Session.handLeft (s : Session) : Nat :=
  s.worker.pc.idleLeft (s.data.asleep 0) + s.main.pc.handLeft

section
variable {zc : Bool} {A : FastInts} {s t : Session} {h : Heap} {so : Sockets} {err : Error}
  {es ls : List SessionEvent} {e : SessionEvent}

theorem HandingOver.away (h : HandingOver s) (hh : s.main.pc.handing = true) :
    s.worker.pc ≠ .copy ∧ (s.worker.pc = .listTest → s.data.packetsList = none) := by
  by_cases hl : ∃ p, s.main.pc = .sendLock p
  · refine ⟨fun hc => ?_, fun _ => h.pending hl⟩
    exact h.inv.control.handOk.taking (Worker.phase_taking.mpr hc) (h.pending hl)
  · have hholds : s.main.pc.holds = true := by
      cases hpc : s.main.pc <;> rw [hpc] at hh hl <;> first | rfl | (cases hh; done) | skip
      exact absurd ⟨_, rfl⟩ hl
    refine ⟨fun hc => ?_, fun hc => ?_⟩
    · exact (h.inv.control.mutexOk.away hholds).2.2 (Worker.phase_taking.mpr hc)
    · have hp : s.worker.phase.holds = true := by
        unfold Worker.phase
        rw [hc]
        rfl
      exact absurd (hholds.symm.trans (h.inv.control.mutexOk.apart hp)) nofun

theorem Sender.step_handing {d d' : SenderWorkerData} {m m' : Sender} (hh : m.pc.handing = true)
    (hs : m.step zc d = some (d', m')) :
    (∀ p, m'.pc ≠ .sendLock p) ∧
      ((m'.pc.handLeft + 1 = m.pc.handLeft ∧ d'.packetsCond = d.packetsCond) ∨
        m'.pc.handLeft + 11 = m.pc.handLeft) := by
  unfold Sender.step at hs
  split at hs
  case h_7 p hpc =>
    obtain ⟨x, -, he⟩ := Option.map_eq_some_iff.mp hs
    cases he
    exact ⟨nofun, .inl ⟨by rw [hpc]; rfl, rfl⟩⟩
  case h_8 p hpc =>
    cases hs
    exact ⟨nofun, .inr (by rw [hpc]; rfl)⟩
  case h_9 p hpc =>
    cases hs
    exact ⟨nofun, .inl ⟨by rw [hpc]; rfl, rfl⟩⟩
  all_goals
    rename_i hpc
    rw [hpc] at hh
    cases hh

theorem WorkerPc.idleLeft_le (pc : WorkerPc) (b b' : Bool) :
    pc.idleLeft b ≤ pc.idleLeft b' + 10 := by
  cases pc <;> cases b <;> cases b' <;> simp [WorkerPc.idleLeft]

/-- **A step of either thread brings the end of `send` nearer.** -/
theorem HandingOver.step (h : HandingOver s) (hc : Handing s e) (hs : s.step zc A e = some t) :
    HandingOver t ∧ t.handLeft + 1 ≤ s.handLeft ∧ e.onNetwork = false := by
  obtain ⟨hh, hwake⟩ := hc
  have hinv := h.inv.step hs
  have hready : s.main.pc.isReady ≠ true := by
    rw [SenderPc.isReady_of_handing hh]
    nofun
  cases Session.step_does hs with
  | @ran d m hm =>
    obtain ⟨hl, hle⟩ := Sender.step_handing hh hm
    have hout : s.noteMain.worker.phase.inList = false := by
      rw [Session.noteMain_worker]
      exact h.outside
    refine ⟨⟨hinv, hout, fun ⟨p, hp⟩ => absurd hp (hl p)⟩, ?_, rfl⟩
    show s.noteMain.worker.pc.idleLeft (d.asleep 0) + m.pc.handLeft + 1
      ≤ s.worker.pc.idleLeft (s.data.asleep 0) + s.main.pc.handLeft
    rw [Session.noteMain_worker]
    rcases hle with ⟨hle, hcond⟩ | hle
    · rw [show d.asleep 0 = s.data.asleep 0 by unfold SenderWorkerData.asleep; rw [hcond]]
      omega
    · have := s.worker.pc.idleLeft_le (d.asleep 0) (s.data.asleep 0)
      omega
  | @worked e d w hw =>
    obtain ⟨hcopy, hlist⟩ := h.away hh
    have awake : e = .wake → s.data.asleep 0 = false :=
      fun he => decide_eq_false (hwake (by rw [he]))
    obtain ⟨hlt, hnet⟩ := Worker.step_idle h.outside hcopy hlist awake hw
    have shake := (Worker.step_handshake h.inv.sane hw).2
    refine ⟨⟨hinv, ?_, fun hl => shake.packetsList_none (h.pending hl)⟩, ?_, hnet⟩
    · show w.phase.inList = false
      cases hin : w.phase.inList with
      | false => rfl
      | true =>
        rcases shake.inList_of hin with hin | hin
        · exact absurd (h.outside.symm.trans hin) nofun
        · exact absurd (Worker.phase_taking.mp hin) hcopy
    · unfold Session.handLeft
      show w.pc.idleLeft (d.asleep 0) + s.main.pc.handLeft + 1 ≤ _
      omega
  | called _ hr | calledEnd hr | asked hr | told _ _ hr | written _ hr => exact absurd hr hready

/-- **A `send` that has passed its tests returns.**  Whatever the order in which the two threads
take their steps, there are at most 30 of them, spurious wake-ups apart, until it returns; none is a
call of `send`, `sendfile` or `recvmsg`; and until it returns the main thread can go on, or the
worker, which holds the mutex, can without an answer from outside. -/
theorem send_ends {p : Ptr} (hr : (session zc A).run (Session.start h so err) es = some s)
    (hpc : s.main.pc = .sendLock p) (hl : (session zc A).Runs Handing s ls t) :
    ls.length ≤ 30 ∧ (∀ e ∈ ls, e.onNetwork = false) ∧
      (t.main.pc.handing = true →
        ∃ e u, (e = .main ∨ e = .worker .tau) ∧ t.step zc A e = some u) := by
  have hi := session_control hr
  have hdone : s.data.isDone = true := hi.control.handOk.storing (by rw [hpc]; rfl)
  obtain ⟨hnone, hout⟩ := hi.control.handOk.done hdone
  have h0 : HandingOver s := ⟨hi, hout, fun _ => hnone⟩
  refine ⟨?_, ?_, fun hh => ?_⟩
  · have hle := hl.countP_le (fun _ => true) HandingOver Session.handLeft h0 fun v e v' hv hc hs =>
      ⟨(hv.step hc hs).1, (hv.step hc hs).2.1⟩
    have hworker : s.worker.pc.idleLeft (s.data.asleep 0) ≤ 17 := by
      cases s.worker.pc <;> cases s.data.asleep 0 <;> simp [WorkerPc.idleLeft]
    rw [List.countP_true] at hle
    unfold Session.handLeft at hle
    rw [hpc] at hle
    change _ ≤ _ + 13 at hle
    omega
  · have hnet := hl.follows (fun l v => HandingOver v ∧ ∀ e ∈ l, e.onNetwork = false) ⟨h0, nofun⟩ ?_
    · exact hnet.2
    · rintro l v e v' ⟨hv, hl⟩ hc hs
      obtain ⟨hv', -, he⟩ := hv.step hc hs
      refine ⟨hv', fun e' he' => ?_⟩
      rcases List.mem_append.mp he' with he' | he'
      · exact hl e' he'
      · rw [List.mem_singleton.mp he']
        exact he
  · have ht : HandingOver t := hl.keeps HandingOver h0 fun v e v' hv hc hs => (hv.step hc hs).1
    have hready : t.main.pc.isReady = false := SenderPc.isReady_of_handing hh
    by_cases hm : (∃ p, t.main.pc = .sendLock p) ∨ t.main.pc = .endLock → t.data.packetsMutex = none
    · obtain ⟨x, hx⟩ := Sender.can_step zc hready hm
      exact ⟨.main, _, .inl rfl, Option.map_eq_some_iff.mpr ⟨x, hx, rfl⟩⟩
    · obtain ⟨hlock, hne⟩ := Classical.not_imp.mp hm
      have hh' : t.main.pc.holds = false := by
        rcases hlock with ⟨q, hq⟩ | hq <;> rw [hq] <;> rfl
      have hp : t.worker.phase.holds = true := by
        have hmutex := ht.inv.control.mutexOk.mutex
        unfold holder at hmutex
        cases hp : t.worker.phase.holds with
        | true => rfl
        | false =>
          rw [hp, hh'] at hmutex
          exact absurd hmutex hne
      obtain ⟨x, hx⟩ := Worker.step_holding zc A 0 t.heap hp
        fun hc => ht.inv.control.handOk.taking (Worker.phase_taking.mpr hc)
      exact ⟨.worker .tau, _, .inr rfl, Option.map_eq_some_iff.mpr ⟨x, hx, rfl⟩⟩

/-- a list for a worker that sleeps: the signal wakes it before the mutex is back -/
theorem send_ends_asleep :
    ∃ s t,
      (session false FastInts.lp64).run (Session.start noMemory {} (Error.construct "TCPSender"))
        (fallAsleep ++ [.callSend 0, .main, .main, .main]) = some s ∧
      (session false FastInts.lp64).run s [.main, .main, .worker .wake] = some t ∧
      s.main.pc = .sendLock 0 ∧ t.main.pc = .sendUnlock 0 ∧ t.worker.pc = .relock ∧
      ∃ e u, (e = .main ∨ e = .worker .tau) ∧ t.step false FastInts.lp64 e = some u := by
  have hrun : ((session false FastInts.lp64).run
      (Session.start noMemory {} (Error.construct "TCPSender"))
      (fallAsleep ++ [.callSend 0, .main, .main, .main])).bind
        (fun s => (((session false FastInts.lp64).restrict Handing).run s
          [.main, .main, .worker .wake]).map fun t => (s.main.pc, t.main.pc, t.worker.pc))
      = some (.sendLock 0, .sendUnlock 0, .relock) := by decide
  obtain ⟨s, hs, hrest⟩ := Option.bind_eq_some_iff.mp hrun
  obtain ⟨t, ht, he⟩ := Option.map_eq_some_iff.mp hrest
  obtain ⟨h1, h2, h3⟩ : s.main.pc = .sendLock 0 ∧ t.main.pc = .sendUnlock 0 ∧
      t.worker.pc = .relock := by simpa using he
  have hl := Machine.Runs.of_restrict ht
  obtain ⟨-, -, hon⟩ := send_ends hs h1 hl
  exact ⟨s, t, hs, hl.run_eq, h1, h2, h3, hon (by rw [h2]; rfl)⟩

end
end RealTimeTransfer
