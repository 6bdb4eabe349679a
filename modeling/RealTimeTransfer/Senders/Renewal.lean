import RealTimeTransfer.Lib.Simulation
import RealTimeTransfer.Senders.Lifetimes

/-!
# A renewed sender

`initialize` resets the shared data and creates a new worker.  What follows, until the next
`initialize` resets them again, is a session of a fresh sender that has the same heap, the same
sockets and the same error handler: nothing else of the past of the object is left.  The workers
differ in their numbers only.

* `SenderWorkerData.lift`   the shared data with the worker 0 called `k`;
* `Worker.step_lift`        a step of a worker does not depend on its number;
* `Reset`                   the shared data while `initialize` is under way;
* `Shows`                   a lifetime and its session;
* `lifetime_is_session`     every lifetime is a session.
-/

namespace RealTimeTransfer
open Machines Words Sync

/-- the thread `t` where the worker is the number `k` -/
def Thread.lift (k : Nat) : Thread → Thread
  | .main => .main
  | .worker _ => .worker k

def SenderWorkerData.lift (k : Nat) (d : SenderWorkerData) : SenderWorkerData :=
  { d with
    packetsMutex := d.packetsMutex.map (Thread.lift k),
    packetsCond := d.packetsCond.map (Thread.lift k) }

section
variable {zc : Bool} {A : FastInts} {k : Nat} {h : Heap} {d d' : SenderWorkerData} {w w' : Worker}
  {e : WorkerEvent} {m m' : Sender}

theorem lift_lock {t : Thread} {x : Mutex Thread}
    (hl : (d.lift k).packetsMutex.lock (t.lift k) = some x) :
    d.packetsMutex.lock t = some (some t) ∧ x = some (t.lift k) := by
  obtain ⟨hn, rfl⟩ := Mutex.lock_eq hl
  rw [Option.map_eq_none_iff.mp hn]
  exact ⟨rfl, rfl⟩

theorem lift_leave (hc : ∀ t ∈ d.packetsCond, t = .worker 0) :
    (d.packetsCond.map (Thread.lift k)).erase (.worker k)
      = (d.packetsCond.erase (.worker 0)).map (Thread.lift k) := by
  cases hl : d.packetsCond with
  | nil => rfl
  | cons t l =>
    rw [hl] at hc
    obtain rfl := hc t List.mem_cons_self
    rw [List.map_cons, show Thread.lift k (.worker 0) = .worker k from rfl, List.erase_cons_head,
      List.erase_cons_head]

theorem lift_acquire (hs : w.acquire k (d.lift k) = some (d', w')) :
    ∃ d₀, w.acquire 0 d = some (d₀, w') ∧ d' = d₀.lift k := by
  obtain ⟨x, hx, he⟩ := Option.map_eq_some_iff.mp hs
  obtain ⟨hx', rfl⟩ := lift_lock (t := .worker 0) hx
  cases he
  exact ⟨_, Option.map_eq_some_iff.mpr ⟨_, hx', rfl⟩, rfl⟩

theorem lift_protUnlock (pc : WorkerPc) :
    w.protUnlock (d.lift k) pc = ((w.protUnlock d pc).1.lift k, (w.protUnlock d pc).2) := by
  unfold Worker.protUnlock
  split <;> rfl

/-- **A step of a worker does not depend on its number.** -/
theorem Worker.step_lift (hc : ∀ t ∈ d.packetsCond, t = .worker 0)
    (hs : w.step zc A k h (d.lift k) e = some (d', w')) :
    ∃ d₀, w.step zc A 0 h d e = some (d₀, w') ∧ d' = d₀.lift k := by
  unfold Worker.step at hs
  split at hs
  case h_8 hpc | h_13 hpc =>
    obtain ⟨d₀, hd, rfl⟩ := lift_acquire hs
    exact ⟨d₀, by unfold Worker.step; rw [hpc]; exact hd, rfl⟩
  case h_11 hpc =>
    cases hs
    refine ⟨_, by unfold Worker.step; rw [hpc], ?_⟩
    unfold SenderWorkerData.lift Cond.block
    simp [Mutex.unlock, Thread.lift]
  case h_12 hpc =>
    cases hs
    refine ⟨_, by unfold Worker.step; rw [hpc], ?_⟩
    unfold SenderWorkerData.lift Cond.leave
    rw [lift_leave hc]
  case h_14 hpc =>
    obtain ⟨p, hp, he⟩ := Option.map_eq_some_iff.mp hs
    cases he
    refine ⟨{ d with packetsList := none }, ?_, rfl⟩
    unfold Worker.step
    rw [hpc]
    exact Option.map_eq_some_iff.mpr ⟨p, hp, rfl⟩
  case h_16 hpc =>
    obtain ⟨v, hv, he⟩ := Option.map_eq_some_iff.mp hs
    cases he
    refine ⟨d, ?_, rfl⟩
    unfold Worker.step
    rw [hpc]
    exact Option.map_eq_some_iff.mpr ⟨_, hv, rfl⟩
  case h_15 hpc | h_27 hpc | h_31 hpc =>
    rw [lift_protUnlock] at hs
    cases hs
    exact ⟨_, by unfold Worker.step; rw [hpc], rfl⟩
  case h_17 hpc | h_18 hpc =>
    obtain ⟨hr, he⟩ := Option.ite_none_right_eq_some.mp hs
    cases he
    exact ⟨_, by unfold Worker.step; rw [hpc]; exact if_pos hr, rfl⟩
  case h_7 hpc | h_9 hpc | h_10 hpc | h_19 hpc =>
    cases hs
    refine ⟨d, ?_, rfl⟩
    unfold Worker.step
    rw [hpc]
    rfl
  case h_32 => cases hs
  all_goals
    rename_i hpc
    cases hs
    exact ⟨_, by unfold Worker.step; rw [hpc], rfl⟩

theorem Sender.step_lift (hs : m.step zc (d.lift k) = some (d', m')) :
    ∃ d₀, m.step zc d = some (d₀, m') ∧ d' = d₀.lift k := by
  unfold Sender.step at hs
  split at hs
  case h_1 => cases hs
  case h_7 hpc | h_13 hpc =>
    obtain ⟨x, hx, he⟩ := Option.map_eq_some_iff.mp hs
    obtain ⟨hx', rfl⟩ := lift_lock (t := .main) hx
    cases he
    exact ⟨_, by unfold Sender.step; rw [hpc]; exact Option.map_eq_some_iff.mpr ⟨_, hx', rfl⟩, rfl⟩
  case h_8 hpc | h_14 hpc =>
    cases hs
    refine ⟨_, by unfold Sender.step; rw [hpc], ?_⟩
    unfold SenderWorkerData.lift Cond.signal
    simp [List.map_tail]
  case h_3 hpc | h_4 hpc | h_5 hpc | h_6 hpc | h_11 hpc | h_16 hpc =>
    cases hs
    refine ⟨d, ?_, rfl⟩
    unfold Sender.step
    rw [hpc]
    rfl
  all_goals
    rename_i hpc
    cases hs
    exact ⟨_, by unfold Sender.step; rw [hpc], rfl⟩

end

/-! ## The shared data of a new worker -/

/-- the shared data while `initialize` is under way -/
structure Reset (s : Lifetimes) : Prop where
  resetting : ∀ n, s.init = some (.reset n) →
    ∃ d, s.data = (resets.take n).foldl (fun d f => f d) d
  opening : ∀ i, s.init = some i → i ∈ [InitPc.server, .client, .closeServer, .setFd] → s.data = {}
  creating : s.init = some .thread → s.data = { sockFd := s.main.sockets.clientSockFd }

section
variable {zc : Bool} {A : FastInts} {s t : Lifetimes} {e : LifetimesEvent} {i j : InitPc}

theorem Reset.of_other (h : ∀ i, s.init = some i → i.starting = false) : Reset s := by
  refine ⟨fun n hi => absurd (h _ hi) nofun, fun i hi hm => ?_, fun hi => absurd (h _ hi) nofun⟩
  have hn := h i hi
  simp only [List.mem_cons, List.not_mem_nil, or_false] at hm
  rcases hm with rfl | rfl | rfl | rfl <;> cases hn

theorem Settled.flag_true (h : Settled s) (hi : s.init = some i) (hst : i.starting = true) :
    s.data.isTerminatedThread = true := by
  rw [h.flag]
  cases hl : s.latest with
  | none => rfl
  | some w =>
    show (w.phase.published || decide (w.phase = .new)) = true
    rw [h.ended (h.starting i hi hst) w hl]
    rfl

theorem Worker.step_over {k : Nat} {h : Heap} {d d' : SenderWorkerData} {w w' : Worker}
    {x : WorkerEvent} (ho : w.Sane ∧ w.phase = .over)
    (hs : w.step zc A k h d x = some (d', w')) : d' = d := by
  have shake := (Worker.step_handshake ho.1 hs).2
  rw [ho.2] at shake
  exact shake.of_over.1

theorem resets_all (d : SenderWorkerData) :
    resets.foldl (fun d f => f d) d = { isTerminatedThread := d.isTerminatedThread } := rfl

theorem Reset.stepInit (h : Reset s) (hst : Settled s) (hi : s.init = some i)
    (hs : s.stepInit i = some t) : Reset t := by
  cases i with
  | ending =>
    obtain ⟨-, rfl⟩ := Option.ite_some_none_eq_some.mp hs
    refine ⟨fun n hn => ?_, fun j hj hm => ?_, nofun⟩
    · cases hn
      exact ⟨s.data, rfl⟩
    · cases hj
      simp at hm
  | reset n =>
    obtain ⟨f, hf, rfl⟩ := Option.map_eq_some_iff.mp hs
    obtain ⟨d, hd⟩ := h.resetting n hi
    have hnext : f s.data = (resets.take (n + 1)).foldl (fun d f => f d) d := by
      rw [List.take_add_one, hf, List.foldl_append, hd]
      rfl
    have hlt : n < resets.length := (List.getElem?_eq_some_iff.mp hf).1
    by_cases hn : n + 1 < resets.length
    · rw [if_pos hn]
      refine ⟨fun m hm => ?_, fun j hj hm => ?_, nofun⟩
      · cases hm
        exact ⟨d, hnext⟩
      · cases hj
        simp at hm
    · rw [if_neg hn]
      refine ⟨nofun, fun _ _ _ => ?_, nofun⟩
      show f s.data = {}
      have hflag : (f s.data).isTerminatedThread = true :=
        (resets_flag (List.mem_of_getElem? hf) s.data).trans (hst.flag_true hi rfl)
      rw [hnext, List.take_of_length_le (by omega), resets_all] at hflag ⊢
      rw [show d.isTerminatedThread = true from hflag]
  | closeServer =>
    cases hs
    exact ⟨nofun, fun _ _ _ => h.opening _ hi (by simp), nofun⟩
  | setFd =>
    cases hs
    refine ⟨nofun, fun j hj hm => ?_, fun _ => ?_⟩
    · cases hj
      simp at hm
    · show { s.data with sockFd := s.main.sockets.clientSockFd } = _
      rw [h.opening _ hi (by simp)]
      rfl
  | waitStart =>
    cases hs
    refine Reset.of_other fun j hj => ?_
    change some (if s.data.threadInitialized then InitPc.mark else .waitStart) = some j at hj
    cases hj
    split <;> rfl
  | mark =>
    cases hs
    exact Reset.of_other nofun
  | server => cases hs
  | client => cases hs
  | thread => cases hs

theorem Reset.orRefuse (h : Reset s) (so : Sockets) {r : Except String Unit} (hi : s.init = some i)
    (hm : i ∈ [InitPc.server, .client, .closeServer, .setFd])
    (hj : j ∈ [InitPc.server, .client, .closeServer, .setFd]) :
    Reset ({ s with main := { s.main with sockets := so } }.orRefuse j r) := by
  cases r with
  | ok _ =>
    refine ⟨fun n hn => ?_, fun _ _ _ => h.opening i hi hm, fun ht => ?_⟩
    · cases hn
      simp at hj
    · cases ht
      simp at hj
  | error msg => exact Reset.of_other nofun

/-- **`initialize` leaves nothing of the past in the shared data.** -/
theorem Reset.step (h : Reset s) (hst : Settled s) (hs : s.step zc A e = some t) : Reset t := by
  cases e with
  | callInitialize =>
    obtain ⟨-, hs⟩ := Option.ite_none_right_eq_some.mp hs
    obtain ⟨m, -, rfl⟩ := Option.map_eq_some_iff.mp hs
    refine Reset.of_other fun i hi => ?_
    cases hi
    rfl
  | callSend p =>
    obtain ⟨hi, hs⟩ := Option.ite_none_right_eq_some.mp hs
    obtain ⟨m, -, rfl⟩ := Option.map_eq_some_iff.mp hs
    exact Reset.of_other fun i hi' => absurd (hi.symm.trans hi') nofun
  | callEndSender =>
    obtain ⟨hi, hs⟩ := Option.ite_none_right_eq_some.mp hs
    obtain ⟨m, -, rfl⟩ := Option.map_eq_some_iff.mp hs
    exact Reset.of_other fun i hi' => absurd (hi.symm.trans hi') nofun
  | main =>
    obtain ⟨⟨d, m⟩, hm, rfl⟩ := Option.map_eq_some_iff.mp hs
    refine Reset.of_other fun i hi => ?_
    by_cases hne : i = .ending
    · rw [hne]
      rfl
    · have hr := hst.ready i hi hne
      exact absurd (hr.symm.trans (Sender.step_advance hm).not_ready) nofun
  | init =>
    obtain ⟨i, hi, hs⟩ := Option.bind_eq_some_iff.mp hs
    exact h.stepInit hst hi hs
  | server addrs listen =>
    obtain ⟨hi, hs⟩ := Option.ite_none_right_eq_some.mp hs
    obtain ⟨⟨so, r⟩, -, rfl⟩ := Option.map_eq_some_iff.mp hs
    exact h.orRefuse so hi (by simp) (by simp)
  | client fd =>
    obtain ⟨hi, hs⟩ := Option.ite_none_right_eq_some.mp hs
    obtain ⟨⟨so, r⟩, -, rfl⟩ := Option.map_eq_some_iff.mp hs
    exact h.orRefuse so hi (by simp) (by simp)
  | thread a =>
    obtain ⟨hi, hs⟩ := Option.ite_none_right_eq_some.mp hs
    split at hs
    · cases hs
      exact Reset.of_other nofun
    · cases hs
      refine Reset.of_other fun i hi => ?_
      cases hi
      rfl
  | earlier k x =>
    obtain ⟨w, hw, hs⟩ := Option.bind_eq_some_iff.mp hs
    obtain ⟨⟨d, w'⟩, hw', rfl⟩ := Option.map_eq_some_iff.mp hs
    obtain rfl := Worker.step_over (hst.earlier w (List.mem_of_getElem? hw)) hw'
    exact ⟨h.resetting, h.opening, h.creating⟩
  | latest x =>
    obtain ⟨w, hw, hs⟩ := Option.bind_eq_some_iff.mp hs
    obtain ⟨⟨d, w'⟩, hw', rfl⟩ := Option.map_eq_some_iff.mp hs
    by_cases hstart : ∃ i, s.init = some i ∧ i.starting = true
    · obtain ⟨i, hi, hp⟩ := hstart
      obtain rfl := Worker.step_over ⟨hst.sane w hw, hst.ended (hst.starting i hi hp) w hw⟩ hw'
      exact ⟨h.resetting, h.opening, h.creating⟩
    · refine Reset.of_other fun i hi => ?_
      cases hp : i.starting with
      | false => rfl
      | true => exact absurd ⟨i, hi, hp⟩ hstart
  | write h' =>
    obtain ⟨-, rfl⟩ := Option.ite_some_none_eq_some.mp hs
    exact ⟨h.resetting, h.opening, h.creating⟩

theorem reset_start (h : Heap) : Reset (Lifetimes.construct zc h) := Reset.of_other nofun

theorem settled_reset {h : Heap} {es : List LifetimesEvent}
    (hr : (lifetimes zc A).Runs ReturnOk (Lifetimes.construct zc h) es s) : Settled s ∧ Reset s :=
  hr.keeps (fun v => Settled v ∧ Reset v) ⟨settled_start h, reset_start h⟩
    fun _ _ _ hv ho hs => ⟨hv.1.step ho hs, hv.2.step hv.1 hs⟩

end

/-! ## A lifetime -/

/-- the worker before its third statement -/
structure Worker.Beginning (w : Worker) (s : Lifetimes) (u : Session) : Prop where
  init : s.init = some .waitStart
  worker : w = { pc := w.pc } ∧ (w.pc = .alive ∨ w.pc = .initialized) ∧
    u.worker = { pc := .setAffinity }
  data : s.data = { u.data with
    threadInitialized := false, isTerminatedThread := decide (w.pc = .alive) }
  fresh : u.data =
    { sockFd := u.data.sockFd, threadInitialized := true, isTerminatedThread := false }

/-- a sender since the creation of its latest worker, and a session: the same heap, the same object
and, once they have begun, the same worker and the same shared data -/
structure Shows (s : Lifetimes) (u : Session) : Prop where
  settled : Settled s
  inv : u.Inv
  heap : s.heap = u.heap
  main : ((s.init = none ∨ s.init = some .ending) ∧ s.main = u.main) ∨
    ((s.init = some .waitStart ∨ s.init = some .mark) ∧
      u.main = { s.main with pc := .ready (some true), initialized := true })
  worker : (∃ w, s.latest = some w ∧ w.Beginning s u) ∨
    (s.latest = some u.worker ∧ s.data = u.data.lift s.earlier.length)

/-- the steps of a lifetime: `initialize` does not go on to reset the shared data -/
def InLifetime (s : Lifetimes) : LifetimesEvent → Prop
  | .init => s.init ≠ some .ending
  | e => ReturnOk s e

/-- what a step of the object shows: `initialize` begins with a call of `end_sender`, and the steps
of a worker without an answer from outside do not show -/
def LifetimesEvent.shown : LifetimesEvent → Option SessionEvent
  | .callInitialize | .callEndSender => some .callEndSender
  | .callSend p => some (.callSend p)
  | .main => some .main
  | .latest .tau => none
  | .latest e => some (.worker e)
  | .write h => some (.write h)
  | _ => none

def SessionEvent.shown : SessionEvent → Option SessionEvent
  | .worker .tau => none
  | e => some e

section
variable {zc : Bool} {A : FastInts} {s t : Lifetimes} {u : Session} {e : LifetimesEvent}

theorem InLifetime.returnOk (h : InLifetime s e) : ReturnOk s e := by
  cases e <;> first | exact h | trivial

theorem Shows.begun (h : Shows s u) (hi : s.init ≠ some .waitStart) :
    s.latest = some u.worker ∧ s.data = u.data.lift s.earlier.length := by
  rcases h.worker with ⟨w, -, hw⟩ | hw
  · exact absurd hw.init hi
  · exact hw

/-- outside the last part of `initialize` the object is that of the session -/
theorem Shows.main_eq (h : Shows s u) (hi : s.init = none ∨ s.init = some .ending) :
    s.main = u.main := by
  rcases h.main with ⟨-, hm⟩ | ⟨hi', -⟩
  · exact hm
  · rcases hi with hi | hi <;> rcases hi' with hi' | hi' <;> cases hi.symm.trans hi'

theorem Shows.not_starting (h : Shows s u) {i : InitPc} (hi : s.init = some i) :
    i = .ending ∨ i = .waitStart ∨ i = .mark := by
  rcases h.main with ⟨h0 | h0, -⟩ | ⟨h0 | h0, -⟩ <;> cases h0.symm.trans hi
  · exact .inl rfl
  · exact .inr (.inl rfl)
  · exact .inr (.inr rfl)

theorem Shows.called (h : Shows s u) {m : Sender} {f : SessionEvent} {i : Option InitPc}
    (hst : Settled { s with main := m, init := i }) (hi : s.init = none)
    (hi' : i = none ∨ i = some .ending) (hf : u.step zc A f = some { u with main := m }) :
    Shows { s with main := m, init := i } { u with main := m } :=
  ⟨hst, h.inv.step hf, h.heap, .inl ⟨hi', rfl⟩, .inr (h.begun (by rw [hi]; nofun))⟩

theorem Shows.ran (h : Shows s u) {d : SenderWorkerData} {m : Sender}
    (hst : Settled { s with
      data := d, main := m, ended := s.ended || decide (s.main.pc = .endClose) })
    (hm : s.main.step zc s.data = some (d, m)) :
    ∃ u', u.step zc A .main = some u' ∧ Shows { s with
      data := d, main := m, ended := s.ended || decide (s.main.pc = .endClose) } u' := by
  have hnot := (Sender.step_advance hm).not_ready
  have hi : s.init = none ∨ s.init = some .ending := by
    cases hi : s.init with
    | none => exact .inl rfl
    | some i =>
      by_cases hne : i = .ending
      · exact .inr (by rw [hne])
      · exact absurd ((h.settled.ready i hi hne).symm.trans hnot) nofun
  obtain ⟨hl, hd⟩ := h.begun (by rcases hi with hi | hi <;> rw [hi] <;> nofun)
  rw [hd, h.main_eq hi] at hm
  obtain ⟨d₀, hm', rfl⟩ := Sender.step_lift hm
  have hu : u.step zc A .main = some { u.noteMain with data := d₀, main := m } :=
    Option.map_eq_some_iff.mpr ⟨(d₀, m), hm', rfl⟩
  refine ⟨_, hu, hst, h.inv.step hu, ?_, .inl ⟨hi, rfl⟩, .inr ⟨?_, rfl⟩⟩
  · show s.heap = u.noteMain.heap
    rw [Session.noteMain_heap]
    exact h.heap
  · show s.latest = some u.noteMain.worker
    rw [Session.noteMain_worker]
    exact hl

theorem Shows.worked (h : Shows s u) {w w' : Worker} {x : WorkerEvent} {d : SenderWorkerData}
    (hst : Settled { s with data := d, latest := some w' }) (hl : s.latest = some w)
    (hw : w.step zc A s.earlier.length s.heap s.data x = some (d, w')) :
    (x = .tau ∧ Shows { s with data := d, latest := some w' } u) ∨
      ∃ u', u.step zc A (.worker x) = some u' ∧
        Shows { s with data := d, latest := some w' } u' := by
  rcases h.worker with ⟨v, hv, hb⟩ | ⟨hv, hd⟩
  · cases hl.symm.trans hv
    obtain ⟨hinit, ⟨hw0, hpc, hworker⟩, hdata, hfresh⟩ := hb
    unfold Worker.step at hw
    rcases hpc with hpc | hpc
    · rw [hpc] at hw
      cases x <;> try cases hw
      refine .inl ⟨rfl, hst, h.inv, h.heap, h.main, .inl ⟨_, rfl, hinit, ⟨?_, .inr rfl, hworker⟩,
        ?_, hfresh⟩⟩
      · rw [hw0]
        rfl
      · show { s.data with isTerminatedThread := false } = _
        rw [hdata]
        rfl
    · rw [hpc] at hw
      cases x <;> try cases hw
      refine .inl ⟨rfl, hst, h.inv, h.heap, h.main, .inr ⟨?_, ?_⟩⟩
      · show some (w.goto .setAffinity) = _
        rw [hworker, hw0]
        rfl
      · show { s.data with threadInitialized := true } = u.data.lift s.earlier.length
        rw [hdata, hpc, hfresh]
        rfl
  · cases hl.symm.trans hv
    have hcond : ∀ t ∈ u.data.packetsCond, t = .worker 0 := by
      intro t ht
      rcases h.inv.control.waitOk.cond with hc | ⟨hc, -⟩ <;> rw [hc] at ht
      · cases ht
      · exact List.mem_singleton.mp ht
    rw [hd, h.heap] at hw
    obtain ⟨d₀, hw', rfl⟩ := Worker.step_lift hcond hw
    have hu : u.step zc A (.worker x) = some { u.noteWorker x with data := d₀, worker := w' } :=
      Option.map_eq_some_iff.mpr ⟨(d₀, w'), hw', rfl⟩
    exact .inr ⟨_, hu, hst, h.inv.step hu, h.heap, h.main, .inr ⟨rfl, rfl⟩⟩

theorem Shows.other (h : Shows s u) {n : Nat} {w' : Worker}
    (hst : Settled { s with data := s.data, earlier := s.earlier.set n w' }) :
    Shows { s with data := s.data, earlier := s.earlier.set n w' } u := by
  refine ⟨hst, h.inv, h.heap, h.main, ?_⟩
  rcases h.worker with ⟨v, hv, hb⟩ | ⟨hv, hd⟩
  · exact .inl ⟨v, hv, hb.init, hb.worker, hb.data, hb.fresh⟩
  · refine .inr ⟨hv, ?_⟩
    show s.data = u.data.lift (s.earlier.set n w').length
    rw [List.length_set]
    exact hd

theorem Shows.written (h : Shows s u) {h' : Heap} (hst : Settled { s with heap := h' })
    (hi : s.init = none) (hu : u.step zc A (.write h') = some { u with heap := h' }) :
    Shows { s with heap := h' } { u with heap := h' } :=
  ⟨hst, h.inv.step hu, rfl, h.main, .inr (h.begun (by rw [hi]; nofun))⟩

theorem Shows.initialized (h : Shows s u) {i : InitPc} (hst : Settled t) (hi : s.init = some i)
    (hne : i ≠ .ending) (hs : s.stepInit i = some t) : Shows t u := by
  obtain rfl | rfl := (h.not_starting hi).resolve_left hne
  · cases hs
    have hm := (h.main.resolve_left fun hm => by
      rcases hm.1 with h0 | h0 <;> cases h0.symm.trans hi).2
    refine ⟨hst, h.inv, h.heap, .inr ⟨?_, hm⟩, ?_⟩
    · show some (if s.data.threadInitialized then InitPc.mark else .waitStart) = _ ∨ _
      cases s.data.threadInitialized
      · exact .inl rfl
      · exact .inr rfl
    · rcases h.worker with ⟨w, hw, hb⟩ | hw
      · refine .inl ⟨w, hw, ?_, hb.worker, hb.data, hb.fresh⟩
        show some (if s.data.threadInitialized then InitPc.mark else .waitStart) = _
        rw [hb.data]
        rfl
      · exact .inr hw
  · cases hs
    have hm := (h.main.resolve_left fun hm => by
      rcases hm.1 with h0 | h0 <;> cases h0.symm.trans hi).2
    exact ⟨hst, h.inv, h.heap, .inl ⟨.inl rfl, hm.symm⟩, .inr (h.begun (by rw [hi]; nofun))⟩

/-- **A step of a lifetime is one of its session.** -/
theorem lifetime_simulation (zc : Bool) (A : FastInts) : Simulation (lifetimes zc A) (session zc A)
    InLifetime Machine.Always Shows LifetimesEvent.shown SessionEvent.shown where
  step s e t u h ho hs := by
    have hst : Settled t := h.settled.step ho.returnOk hs
    have starting : ∀ i, s.init = some i → i = .server ∨ i = .client ∨ i = .thread → False := by
      intro i hi hp
      rcases h.not_starting hi with rfl | rfl | rfl <;> rcases hp with hp | hp | hp <;> cases hp
    cases e with
    | callInitialize =>
      obtain ⟨hi, hs⟩ := Option.ite_none_right_eq_some.mp hs
      obtain ⟨m, hm, rfl⟩ := Option.map_eq_some_iff.mp hs
      rw [h.main_eq (.inl hi)] at hm
      have hu : u.step zc A .callEndSender = some { u with main := m } :=
        Option.map_eq_some_iff.mpr ⟨m, hm, rfl⟩
      exact ⟨[.callEndSender], _, Machine.Runs.single trivial hu,
        h.called hst hi (.inr rfl) hu, rfl⟩
    | callSend p =>
      obtain ⟨hi, hs⟩ := Option.ite_none_right_eq_some.mp hs
      obtain ⟨m, hm, rfl⟩ := Option.map_eq_some_iff.mp hs
      rw [h.main_eq (.inl hi)] at hm
      have hu : u.step zc A (.callSend p) = some { u with main := m } :=
        Option.map_eq_some_iff.mpr ⟨m, hm, rfl⟩
      exact ⟨[.callSend p], _, Machine.Runs.single trivial hu,
        h.called hst hi (.inl hi) hu, rfl⟩
    | callEndSender =>
      obtain ⟨hi, hs⟩ := Option.ite_none_right_eq_some.mp hs
      obtain ⟨m, hm, rfl⟩ := Option.map_eq_some_iff.mp hs
      rw [h.main_eq (.inl hi)] at hm
      have hu : u.step zc A .callEndSender = some { u with main := m } :=
        Option.map_eq_some_iff.mpr ⟨m, hm, rfl⟩
      exact ⟨[.callEndSender], _, Machine.Runs.single trivial hu,
        h.called hst hi (.inl hi) hu, rfl⟩
    | main =>
      obtain ⟨⟨d, m⟩, hm, rfl⟩ := Option.map_eq_some_iff.mp hs
      obtain ⟨u', hu, hshow⟩ := h.ran (A := A) hst hm
      exact ⟨[.main], u', Machine.Runs.single trivial hu, hshow, rfl⟩
    | init =>
      obtain ⟨i, hi, hs⟩ := Option.bind_eq_some_iff.mp hs
      have hne : i ≠ .ending := by
        rintro rfl
        exact ho hi
      exact ⟨[], u, .nil, h.initialized hst hi hne hs, rfl⟩
    | server addrs listen =>
      obtain ⟨hi, -⟩ := Option.ite_none_right_eq_some.mp hs
      exact (starting _ hi (.inl rfl)).elim
    | client fd =>
      obtain ⟨hi, -⟩ := Option.ite_none_right_eq_some.mp hs
      exact (starting _ hi (.inr (.inl rfl))).elim
    | thread a =>
      obtain ⟨hi, -⟩ := Option.ite_none_right_eq_some.mp hs
      exact (starting _ hi (.inr (.inr rfl))).elim
    | earlier k x =>
      obtain ⟨w, hw, hs⟩ := Option.bind_eq_some_iff.mp hs
      obtain ⟨⟨d, w'⟩, hw', rfl⟩ := Option.map_eq_some_iff.mp hs
      obtain rfl := Worker.step_over (h.settled.earlier w (List.mem_of_getElem? hw)) hw'
      exact ⟨[], u, .nil, h.other hst, rfl⟩
    | latest x =>
      obtain ⟨w, hw, hs⟩ := Option.bind_eq_some_iff.mp hs
      obtain ⟨⟨d, w'⟩, hw', rfl⟩ := Option.map_eq_some_iff.mp hs
      rcases h.worked hst hw hw' with ⟨rfl, hshow⟩ | ⟨u', hu, hshow⟩
      · exact ⟨[], u, .nil, hshow, rfl⟩
      · exact ⟨[.worker x], u', .single trivial hu, hshow, by cases x <;> rfl⟩
    | write h' =>
      obtain ⟨⟨hi, hr⟩, rfl⟩ := Option.ite_some_none_eq_some.mp hs
      rw [h.main_eq (.inl hi)] at hr
      have hu : u.step zc A (.write h') = some { u with heap := h' } := if_pos hr
      exact ⟨[.write h'], _, Machine.Runs.single trivial hu, h.written hst hi hu, rfl⟩

theorem shows_created (h : Settled s) (hr : Reset s) {a : ThreadAnswers} (ha : a.error = none)
    (ho : ReturnOk s (.thread a)) (hs : (lifetimes zc A).step s (.thread a) = some t) :
    Shows t (Session.start t.heap t.main.sockets t.main.errorHandler) := by
  change s.step zc A (.thread a) = some t at hs
  have hst := h.step ho hs
  obtain ⟨hi, hs⟩ := Option.ite_none_right_eq_some.mp hs
  rw [ha] at hs
  cases hs
  refine ⟨hst, Session.inv_start .., rfl, .inr ⟨.inl rfl, rfl⟩, .inl ⟨{}, rfl, rfl,
    ⟨rfl, .inl rfl, rfl⟩, ?_, rfl⟩⟩
  show s.data = _
  rw [hr.creating hi]
  rfl

/-- **Every lifetime of a sender is a session of a fresh one.**  Take any calls and interleavings in
which `end_sender` does not return between the two writes of an exiting worker.  From each creation
of a worker until the next `initialize` resets the shared data, the object behaves as a session that
starts with the same heap, sockets and error handler: the same calls, the same answers of the kernel
to the worker, and at each moment the same object, the same worker and the same shared data, but for
the end of `initialize` and the first two statements of the worker (`Shows`). -/
theorem lifetime_is_session {h : Heap} {es ls : List LifetimesEvent} {a : ThreadAnswers}
    {s₁ : Lifetimes} (hr : (lifetimes zc A).Runs ReturnOk (Lifetimes.construct zc h)
      (es ++ [.thread a]) s₁)
    (ha : a.error = none) (hl : (lifetimes zc A).Runs InLifetime s₁ ls s) :
    ∃ l u, (session zc A).run
        (Session.start s₁.heap s₁.main.sockets s₁.main.errorHandler) l = some u ∧
      Shows s u ∧ l.filterMap SessionEvent.shown = ls.filterMap LifetimesEvent.shown := by
  obtain ⟨v, hv, ho, hs⟩ := hr.last
  obtain ⟨hst, hreset⟩ := settled_reset hv
  obtain ⟨l, u, hu, hrest⟩ := (lifetime_simulation zc A).run (shows_created hst hreset ha ho hs) hl
  exact ⟨l, u, hu.run_eq, hrest⟩

instance (s : Lifetimes) (e : LifetimesEvent) : Decidable (InLifetime s e) :=
  match e with
  | .init => inferInstanceAs (Decidable (¬ _))
  | .callInitialize | .callSend _ | .callEndSender | .server _ _ | .client _ | .thread _
  | .earlier _ _ | .latest _ | .write _ => .isTrue trivial
  | .main => inferInstanceAs (Decidable (_ → _))

/-- the second lifetime of a sender whose first worker has failed: its worker begins, `initialize`
returns true, and a list is accepted -/
theorem lifetime_is_session_second :
    ∃ s₁ s l u, (lifetimes false FastInts.lp64).run (Lifetimes.construct false noMemory)
        (initialized ++ failedSetUp ++ secondWrite .latest ++ endSender ++ initialized.take 18 ++
          [.thread ⟨[], 0⟩]) = some s₁ ∧
      (lifetimes false FastInts.lp64).run s₁
        (initialized.drop 19 ++ .callSend 0 :: List.replicate 6 .main) = some s ∧
      s.earlier.length = 1 ∧ (session false FastInts.lp64).run
        (Session.start s₁.heap s₁.main.sockets s₁.main.errorHandler) l = some u ∧
      u.main = s.main ∧ u.main.pc = .ready (some true) := by
  have hrun : (((lifetimes false FastInts.lp64).restrict ReturnOk).run
      (Lifetimes.construct false noMemory)
      (initialized ++ failedSetUp ++ secondWrite .latest ++ endSender ++ initialized.take 18 ++
        [.thread ⟨[], 0⟩])).bind
        (fun s₁ => (((lifetimes false FastInts.lp64).restrict InLifetime).run s₁
          (initialized.drop 19 ++ .callSend 0 :: List.replicate 6 .main)).map fun s =>
            (s.earlier.length, s.init, s.main.pc)) = some (1, none, .ready (some true)) := by
    decide +kernel
  obtain ⟨s₁, hs₁, hrest⟩ := Option.bind_eq_some_iff.mp hrun
  obtain ⟨s, hs, he⟩ := Option.map_eq_some_iff.mp hrest
  obtain ⟨hlen, hinit, hpc⟩ : s.earlier.length = 1 ∧ s.init = none ∧
      s.main.pc = .ready (some true) := by simpa using he
  have hr := Machine.Runs.of_restrict hs₁
  have hl := Machine.Runs.of_restrict hs
  obtain ⟨l, u, hu, hshow, -⟩ := lifetime_is_session hr rfl hl
  have hmain := hshow.main_eq (.inl hinit)
  exact ⟨s₁, s, l, u, hr.run_eq, hl.run_eq, hlen, hu, hmain.symm, hmain ▸ hpc⟩

end
end RealTimeTransfer
