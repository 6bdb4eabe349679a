import RealTimeTransfer.Senders.Session

/-!
# The lifetimes of a sender

Any sequence of `initialize`, `send` and `end_sender` on one object, with all the workers created
so far, each at its own pace.  `initialize` runs step by step: it calls `end_sender`, resets the
shared data field by field, opens the sockets, creates the worker and waits for its first words.

An exiting worker writes `is_terminated_thread` twice: `END_THREAD_ERROR` calls the destructor of
`prot_term_flag`, and the unwinding that `pthread_exit` starts calls it again.

* `lifetimes zc A`      the machine;
* `ReturnOk`            `end_sender` does not return while the worker stands between the two writes;
* `Settled`             the invariant under that condition;
* `ended_worker_silent` an ended worker writes nothing more, and the flag tells of the latest one;
* `stale_write`         without the condition, a worker of an earlier lifetime marks a new one dead.
-/

namespace RealTimeTransfer
open Machines Words Sync

/-- the points of `initialize`; `ending` is its call of `end_sender` -/
inductive InitPc where
  | ending
  | reset (n : Nat)
  | server
  | client
  | closeServer
  | setFd
  | thread
  | waitStart
  | mark
  deriving DecidableEq, Repr

/-- the stores that reset the shared data, in their order -/
def resets : List (SenderWorkerData → SenderWorkerData) :=
  [fun d => { d with packetsList := none }, fun d => { d with isDone := true },
    fun d => { d with isError := false }, fun d => { d with sockFd := -1 },
    fun d => { d with terminateThread := false }, fun d => { d with threadInitialized := false },
    fun d => { d with errorCode := 0 }, fun d => { d with packetsMutex := none },
    fun d => { d with packetsCond := [] }]

structure Lifetimes where
  heap : Heap
  data : SenderWorkerData := {}
  main : Sender
  /-- the point of `initialize`, if it is under way -/
  init : Option InitPc := none
  /-- the workers created before the latest one, and the latest one -/
  earlier : List Worker := []
  latest : Option Worker := none
  /-- `end_sender` has returned since the latest worker was created -/
  ended : Bool := false

inductive LifetimesEvent where
  | callInitialize
  | callSend (p : Ptr)
  | callEndSender
  /-- the main thread in `send` or `end_sender` -/
  | main
  /-- the main thread in `initialize`: a step without an answer, and the answers of the kernel -/
  | init
  | server (addrs : AddrInfo) (listen : Bool)
  | client (fd : Int)
  | thread (a : ThreadAnswers)
  | earlier (k : Nat) (e : WorkerEvent)
  | latest (e : WorkerEvent)
  | write (h : Heap)

namespace Lifetimes

/-- the constructor -/
def construct (zc : Bool) (h : Heap) : Lifetimes where
  heap := h
  main := ⟨.ready none, false, {}, Error.construct (if zc then "TCPSenderZC" else "TCPSender")⟩

def atInit (s : Lifetimes) (pc : InitPc) : Lifetimes := { s with init := some pc }

/-- `initialize` goes on at `pc`, or returns false with its text -/
def orRefuse (s : Lifetimes) (pc : InitPc) : Except String Unit → Lifetimes
  | .ok () => s.atInit pc
  | .error msg => { s with init := none, main := s.main.refuse msg }

/-- a step of `initialize` without an answer from outside -/
def stepInit (s : Lifetimes) : InitPc → Option Lifetimes
  | .ending => if s.main.pc.isReady then some (s.atInit (.reset 0)) else none
  | .reset n =>
    resets[n]?.map fun f =>
      { s with data := f s.data }.atInit
        (if n + 1 < resets.length then .reset (n + 1) else .server)
  | .closeServer =>
    some ({ s with main := { s.main with sockets := s.main.sockets.dropServer } }.atInit .setFd)
  | .setFd =>
    some ({ s with data := { s.data with sockFd := s.main.sockets.clientSockFd } }.atInit .thread)
  | .waitStart => some (s.atInit (if s.data.threadInitialized then .mark else .waitStart))
  | .mark =>
    some { s with
      init := none
      main := { s.main with pc := .ready (some true), initialized := true } }
  | _ => none

def step (zc : Bool) (A : FastInts) (s : Lifetimes) : LifetimesEvent → Option Lifetimes
  | .callInitialize =>
    if s.init = none then
      s.main.callEndSender.map fun m => { s with main := m, init := some .ending }
    else none
  | .callSend p =>
    if s.init = none then (s.main.callSend p).map fun m => { s with main := m } else none
  | .callEndSender =>
    if s.init = none then s.main.callEndSender.map fun m => { s with main := m } else none
  | .main =>
    (s.main.step zc s.data).map fun x =>
      { s with data := x.1, main := x.2, ended := s.ended || decide (s.main.pc = .endClose) }
  | .init => s.init.bind s.stepInit
  | .server addrs listen =>
    if s.init = some .server then
      (s.main.sockets.createServer zc addrs listen).map fun r =>
        { s with main := { s.main with sockets := r.1 } }.orRefuse .client r.2
    else none
  | .client fd =>
    if s.init = some .client then
      (s.main.sockets.getClient fd).map fun r =>
        { s with main := { s.main with sockets := r.1 } }.orRefuse .closeServer r.2
    else none
  | .thread a =>
    if s.init = some .thread then
      match a.error with
      | some msg => some (s.orRefuse .waitStart (.error msg))
      | none =>
        some { s with
          init := some .waitStart, earlier := s.earlier ++ s.latest.toList, latest := some {},
          ended := false }
    else none
  | .earlier k e =>
    s.earlier[k]?.bind fun w =>
      (w.step zc A k s.heap s.data e).map fun x =>
        { s with data := x.1, earlier := s.earlier.set k x.2 }
  | .latest e =>
    s.latest.bind fun w =>
      (w.step zc A s.earlier.length s.heap s.data e).map fun x =>
        { s with data := x.1, latest := some x.2 }
  | .write h => if s.init = none ∧ s.main.pc.isReady = true then some { s with heap := h } else none

end Lifetimes

def lifetimes (zc : Bool) (A : FastInts) : Machine Lifetimes LifetimesEvent :=
  ⟨Lifetimes.step zc A⟩

/-- the condition: when `end_sender` returns, the worker does not stand between its first and its
second write of `is_terminated_thread` -/
def ReturnOk (s : Lifetimes) : LifetimesEvent → Prop
  | .main => s.main.pc = .endClose → ∀ w ∈ s.latest, w.phase ≠ .unwinding
  | _ => True

/-- the points of `initialize` between its `end_sender` and the creation of the worker -/
def InitPc.starting : InitPc → Bool
  | .reset _ | .server | .client | .closeServer | .setFd | .thread => true
  | _ => false

/-- those of them behind the reset of `thread_initialized` -/
def InitPc.prepared : InitPc → Bool
  | .reset n => 5 < n
  | .server | .client | .closeServer | .setFd | .thread => true
  | _ => false

/-- every worker but the latest is over, and so is the latest once it has been ended -/
structure Settled (s : Lifetimes) : Prop where
  sane : ∀ w ∈ s.latest, w.Sane
  earlier : ∀ w ∈ s.earlier, w.Sane ∧ w.phase = .over
  ended : s.ended = true → ∀ w ∈ s.latest, w.phase = .over
  closing : s.main.pc = .endClose → ∀ w ∈ s.latest, w.phase.published = true
  flag : s.data.isTerminatedThread
    = s.latest.elim true fun w => w.phase.published || decide (w.phase = .new)
  fresh : ∀ w ∈ s.latest, w.phase = .new →
    s.init = some .waitStart ∧ s.data.threadInitialized = false
  ready : ∀ i, s.init = some i → i ≠ .ending → s.main.pc.isReady = true
  returned : s.init = some .ending → s.main.pc.ending = true ∨ s.ended = true
  starting : ∀ i, s.init = some i → i.starting = true → s.ended = true
  prepared : ∀ i, s.init = some i → i.prepared = true → s.data.threadInitialized = false

theorem Phase.over_of {ph : Phase} (h : ph.published = true) (hu : ph ≠ .unwinding) :
    ph = .over := by
  cases ph <;> first | rfl | exact absurd rfl hu | cases h

section
variable {zc : Bool} {A : FastInts} {s t : Lifetimes}

theorem settled_start (h : Heap) : Settled (Lifetimes.construct zc h) := by
  have none : ∀ {P : Worker → Prop}, ∀ w ∈ (Lifetimes.construct zc h).latest, P w := by
    intro P w hw
    cases hw
  have idle : ∀ {P : InitPc → Prop}, ∀ i, (Lifetimes.construct zc h).init = some i → P i := by
    intro P i hi
    cases hi
  refine ⟨none, ?_, fun _ => none, fun _ => none, rfl, none, idle, nofun, idle, idle⟩
  intro w hw
  cases hw

theorem Settled.latest (h : Settled s) {w w' : Worker} {e : WorkerEvent} {d : SenderWorkerData}
    (hl : s.latest = some w)
    (hs : w.step zc A s.earlier.length s.heap s.data e = some (d, w')) :
    Settled { s with data := d, latest := some w' } := by
  obtain ⟨hsane, hshake⟩ := Worker.step_handshake (h.sane w hl) hs
  have hflag := h.flag
  rw [hl] at hflag
  have silent : w.phase = .over → d = s.data ∧ w'.phase = .over := by
    intro ho
    rw [ho] at hshake
    exact hshake.of_over
  refine ⟨?_, h.earlier, ?_, ?_, hshake.flag_eq hflag, ?_, h.ready, h.returned, h.starting, ?_⟩
  · rintro v hv
    cases hv
    exact hsane
  · rintro he v hv
    cases hv
    exact (silent (h.ended he w hl)).2
  · rintro hpc v hv
    cases hv
    exact hshake.published_of (h.closing hpc w hl)
  · rintro v hv hn
    cases hv
    exact absurd hn hshake.not_new
  · intro i hi hp
    have hst : i.starting = true := by
      cases i <;> first | rfl | cases hp
    have ho := h.ended (h.starting i hi hst) w hl
    show d.threadInitialized = false
    rw [(silent ho).1]
    exact h.prepared i hi hp

theorem Settled.silent (h : Settled s) {k : Nat} {w w' : Worker} {e : WorkerEvent}
    {d : SenderWorkerData} (hk : s.earlier[k]? = some w)
    (hs : w.step zc A k s.heap s.data e = some (d, w')) :
    Settled { s with data := d, earlier := s.earlier.set k w' } := by
  obtain ⟨hsane, ho⟩ := h.earlier w (List.mem_of_getElem? hk)
  obtain ⟨hsane', hshake⟩ := Worker.step_handshake hsane hs
  rw [ho] at hshake
  obtain ⟨rfl, ho'⟩ := hshake.of_over
  refine ⟨h.sane, ?_, h.ended, h.closing, h.flag, h.fresh, h.ready, h.returned, h.starting,
    h.prepared⟩
  intro v hv
  rcases List.mem_or_eq_of_mem_set hv with hv | rfl
  · exact h.earlier v hv
  · exact ⟨hsane', ho'⟩

/-- a call, or another step that moves the point of the main thread from `ready` -/
theorem Settled.call (h : Settled s) {m : Sender} (hi : s.init = none) (hpc : m.pc ≠ .endClose) :
    Settled { s with main := m } := by
  refine ⟨h.sane, h.earlier, h.ended, fun hc => absurd hc hpc, h.flag, h.fresh, ?_, ?_, h.starting,
    h.prepared⟩
  · intro i hi'
    exact absurd (hi.symm.trans hi') nofun
  · intro hi'
    exact absurd (hi.symm.trans hi') nofun

theorem Settled.main (h : Settled s) {d : SenderWorkerData} {m : Sender} (ho : ReturnOk s .main)
    (hs : s.main.step zc s.data = some (d, m)) :
    Settled { s with
      data := d, main := m, ended := s.ended || decide (s.main.pc = .endClose) } := by
  have adv := Sender.step_advance hs
  obtain ⟨hterm, hinit⟩ := adv.flags
  have hnot := adv.not_ready
  have hending : ∀ i, s.init = some i → i = .ending := by
    intro i hi
    by_contra hne
    rw [h.ready i hi hne] at hnot
    cases hnot
  refine ⟨h.sane, h.earlier, ?_, ?_, hterm.trans h.flag, ?_, ?_, ?_, ?_, ?_⟩
  · intro he w hw
    rcases Bool.or_eq_true_iff.mp he with he | he
    · exact h.ended he w hw
    · have hpc := of_decide_eq_true he
      exact Phase.over_of (h.closing hpc w hw) (ho hpc w hw)
  · intro hpc w hw
    rw [show m.pc = .endClose from hpc] at adv
    have hf := h.flag
    rw [show s.latest = some w from hw, adv.of_endClose.2] at hf
    rcases Bool.or_eq_true_iff.mp hf.symm with hp | hn
    · exact hp
    · have hi := (h.fresh w hw (of_decide_eq_true hn)).1
      exact absurd (hending _ hi) nofun
  · intro w hw hn
    have hi := (h.fresh w hw hn).1
    exact absurd (hending _ hi) nofun
  · intro i hi hne
    exact absurd (hending i hi) hne
  · intro hi
    rcases h.returned hi with he | he
    · rcases adv.of_ending he with he' | he'
      · exact .inl he'
      · exact .inr (Bool.or_eq_true_iff.mpr (.inr (decide_eq_true he')))
    · exact .inr (Bool.or_eq_true_iff.mpr (.inl he))
  · intro i hi hst
    rw [hending i hi] at hst
    cases hst
  · intro i hi hp
    rw [hending i hi] at hp
    cases hp

theorem Settled.atInit (h : Settled s) {i j : InitPc} {d : SenderWorkerData} {m : Sender}
    (hi : s.init = some i) (hm : m.pc = s.main.pc) (hr : s.main.pc.isReady = true)
    (hd : d.isTerminatedThread = s.data.isTerminatedThread)
    (hst : i = .ending ∨ i.starting = true) (hp : j.prepared = true → d.threadInitialized = false) :
    Settled { s with data := d, main := m, init := some j } := by
  have hready : m.pc.isReady = true := hm ▸ hr
  have hclose : m.pc ≠ .endClose := by
    intro hc
    rw [hc] at hready
    cases hready
  have hended : s.ended = true := by
    rcases hst with rfl | hst
    · rcases h.returned hi with he | he
      · cases hpc : s.main.pc <;> rw [hpc] at hr he <;> first | cases hr; done | cases he
      · exact he
    · exact h.starting i hi hst
  refine ⟨h.sane, h.earlier, h.ended, fun hc => absurd hc hclose, hd.trans h.flag, ?_,
    fun _ _ _ => hready, fun _ => .inr hended, fun _ _ _ => hended, ?_⟩
  · intro w hw hn
    rw [h.ended hended w hw] at hn
    cases hn
  · intro i' hi' hp'
    cases hi'
    exact hp hp'

/-- `initialize` returns, or `pthread_create` has created its worker -/
theorem Settled.leave (h : Settled s) {m : Sender} {i : Option InitPc}
    (hi : i = none ∨ i = some .mark)
    (hr : m.pc.isReady = true) (hn : ∀ w ∈ s.latest, w.phase ≠ .new) :
    Settled { s with main := m, init := i } := by
  have hclose : m.pc ≠ .endClose := by
    intro hc
    rw [hc] at hr
    cases hr
  refine ⟨h.sane, h.earlier, h.ended, fun hc => absurd hc hclose, h.flag,
    fun w hw hnew => absurd hnew (hn w hw), fun _ _ _ => hr, ?_, ?_, ?_⟩
  · rintro rfl
    rcases hi with hi | hi <;> cases hi
  · rintro j rfl hj
    rcases hi with hi | hi <;> cases hi
    cases hj
  · rintro j rfl hj
    rcases hi with hi | hi <;> cases hi
    cases hj

theorem resets_flag {f : SenderWorkerData → SenderWorkerData} (hf : f ∈ resets)
    (d : SenderWorkerData) : (f d).isTerminatedThread = d.isTerminatedThread := by
  unfold resets at hf
  simp only [List.mem_cons, List.not_mem_nil, or_false] at hf
  rcases hf with rfl | rfl | rfl | rfl | rfl | rfl | rfl | rfl | rfl <;> rfl

theorem resets_prepared {n : Nat} {f : SenderWorkerData → SenderWorkerData}
    (hf : resets[n]? = some f) (hn : 5 ≤ n) (d : SenderWorkerData)
    (hd : 5 < n → d.threadInitialized = false) : (f d).threadInitialized = false := by
  unfold resets at hf
  rcases n with _ | _ | _ | _ | _ | _ | _ | _ | _ | n
  all_goals first | omega | (cases hf; first | rfl | exact hd (by decide)) | cases hf

theorem Settled.stepInit (h : Settled s) {i : InitPc} (hi : s.init = some i)
    (hs : s.stepInit i = some t) : Settled t := by
  have ready : i ≠ .ending → s.main.pc.isReady = true := fun hne => h.ready i hi hne
  cases i with
  | ending =>
    obtain ⟨hr, rfl⟩ := Option.ite_some_none_eq_some.mp hs
    exact h.atInit hi rfl hr rfl (.inl rfl) nofun
  | reset n =>
    obtain ⟨f, hf, rfl⟩ := Option.map_eq_some_iff.mp hs
    refine h.atInit hi rfl (ready nofun) (resets_flag (List.mem_of_getElem? hf) _) (.inr rfl) ?_
    intro hp
    have hn : 5 ≤ n := by
      by_cases hlast : n + 1 < resets.length
      · rw [if_pos hlast] at hp
        have := of_decide_eq_true hp
        omega
      · have : resets.length = 9 := rfl
        omega
    exact resets_prepared hf hn _ fun h5 => h.prepared _ hi (decide_eq_true h5)
  | closeServer =>
    cases hs
    exact h.atInit hi rfl (ready nofun) rfl (.inr rfl) fun _ => h.prepared _ hi rfl
  | setFd =>
    cases hs
    exact h.atInit hi rfl (ready nofun) rfl (.inr rfl) fun _ => h.prepared _ hi rfl
  | waitStart =>
    cases hs
    cases ht : s.data.threadInitialized with
    | false =>
      have heq : s.atInit .waitStart = s := by
        unfold Lifetimes.atInit
        rw [← hi]
      show Settled (s.atInit .waitStart)
      rw [heq]
      exact h
    | true =>
      refine h.leave (.inr rfl) (ready nofun) fun w hw hn => ?_
      have hf := (h.fresh w hw hn).2
      rw [ht] at hf
      cases hf
  | mark =>
    cases hs
    refine h.leave (.inl rfl) rfl fun w hw hn => ?_
    have hf := (h.fresh w hw hn).1
    rw [hi] at hf
    cases hf
  | server => cases hs
  | client => cases hs
  | thread => cases hs

theorem Settled.orRefuse (h : Settled s) {i j : InitPc} (so : Sockets) {r : Except String Unit}
    (hi : s.init = some i) (hne : i ≠ .ending) (hst : i.starting = true)
    (hp : i.prepared = true) :
    Settled ({ s with main := { s.main with sockets := so } }.orRefuse j r) := by
  cases r with
  | ok _ =>
    exact h.atInit hi rfl (h.ready i hi hne) rfl (.inr hst) fun _ => h.prepared i hi hp
  | error msg =>
    refine h.leave (.inl rfl) rfl fun w hw hn => ?_
    rw [h.ended (h.starting i hi hst) w hw] at hn
    cases hn

theorem Settled.create (h : Settled s) (hi : s.init = some .thread) :
    Settled { s with
      init := some .waitStart, earlier := s.earlier ++ s.latest.toList, latest := some {},
      ended := false } := by
  have hended := h.starting _ hi rfl
  have hready := h.ready _ hi nofun
  have hclose : s.main.pc ≠ .endClose := by
    intro hc
    rw [hc] at hready
    cases hready
  have hflag : s.data.isTerminatedThread = true := by
    rw [h.flag]
    cases hl : s.latest with
    | none => rfl
    | some w =>
      have hw : w.phase = .over := h.ended hended w hl
      show (w.phase.published || decide (w.phase = .new)) = true
      rw [hw]
      rfl
  refine ⟨?_, ?_, nofun, fun hc => absurd hc hclose, hflag, ?_, fun _ _ _ => hready, nofun, ?_, ?_⟩
  · rintro w hw
    cases hw
    exact fun b hb => Option.some.inj hb
  · intro w hw
    rcases List.mem_append.mp hw with hw | hw
    · exact h.earlier w hw
    · have hl := Option.mem_toList.mp hw
      exact ⟨h.sane w hl, h.ended hended w hl⟩
  · intro w _ _
    exact ⟨rfl, h.prepared _ hi rfl⟩
  · rintro j hj hst
    cases hj
    cases hst
  · rintro j hj hp
    cases hj
    cases hp

/-- **Every step that meets the condition keeps the workers settled.** -/
theorem Settled.step (h : Settled s) {e : LifetimesEvent} (ho : ReturnOk s e)
    (hs : s.step zc A e = some t) : Settled t := by
  cases e with
  | callInitialize =>
    obtain ⟨hi, hs⟩ := Option.ite_none_right_eq_some.mp hs
    obtain ⟨m, hm, rfl⟩ := Option.map_eq_some_iff.mp hs
    obtain ⟨-, rfl⟩ := Sender.callEndSender_eq hm
    refine ⟨h.sane, h.earlier, h.ended, nofun, h.flag, ?_, ?_, fun _ => .inl rfl, ?_, ?_⟩
    · intro w hw hn
      exact absurd (hi.symm.trans (h.fresh w hw hn).1) nofun
    · rintro j hj hne
      cases hj
      exact absurd rfl hne
    · rintro j hj hst
      cases hj
      cases hst
    · rintro j hj hp
      cases hj
      cases hp
  | callSend p =>
    obtain ⟨hi, hs⟩ := Option.ite_none_right_eq_some.mp hs
    obtain ⟨m, hm, rfl⟩ := Option.map_eq_some_iff.mp hs
    obtain ⟨-, rfl⟩ := Sender.callSend_eq hm
    exact h.call hi nofun
  | callEndSender =>
    obtain ⟨hi, hs⟩ := Option.ite_none_right_eq_some.mp hs
    obtain ⟨m, hm, rfl⟩ := Option.map_eq_some_iff.mp hs
    obtain ⟨-, rfl⟩ := Sender.callEndSender_eq hm
    exact h.call hi nofun
  | main =>
    obtain ⟨⟨d, m⟩, hm, rfl⟩ := Option.map_eq_some_iff.mp hs
    exact h.main ho hm
  | init =>
    obtain ⟨i, hi, hs⟩ := Option.bind_eq_some_iff.mp hs
    exact h.stepInit hi hs
  | server addrs listen =>
    obtain ⟨hi, hs⟩ := Option.ite_none_right_eq_some.mp hs
    obtain ⟨⟨so, r⟩, -, rfl⟩ := Option.map_eq_some_iff.mp hs
    exact h.orRefuse so hi nofun rfl rfl
  | client fd =>
    obtain ⟨hi, hs⟩ := Option.ite_none_right_eq_some.mp hs
    obtain ⟨⟨so, r⟩, -, rfl⟩ := Option.map_eq_some_iff.mp hs
    exact h.orRefuse so hi nofun rfl rfl
  | thread a =>
    obtain ⟨hi, hs⟩ := Option.ite_none_right_eq_some.mp hs
    split at hs
    · cases hs
      exact h.orRefuse s.main.sockets hi nofun rfl rfl
    · cases hs
      exact h.create hi
  | earlier k e =>
    obtain ⟨w, hw, hs⟩ := Option.bind_eq_some_iff.mp hs
    obtain ⟨⟨d, w'⟩, hw', rfl⟩ := Option.map_eq_some_iff.mp hs
    exact h.silent hw hw'
  | latest e =>
    obtain ⟨w, hw, hs⟩ := Option.bind_eq_some_iff.mp hs
    obtain ⟨⟨d, w'⟩, hw', rfl⟩ := Option.map_eq_some_iff.mp hs
    exact h.latest hw hw'
  | write h' =>
    obtain ⟨-, rfl⟩ := Option.ite_some_none_eq_some.mp hs
    exact ⟨h.sane, h.earlier, h.ended, h.closing, h.flag, h.fresh, h.ready, h.returned, h.starting,
      h.prepared⟩

/-- **A re-initialised sender and its previous workers.**  If `end_sender` never returns between the
two writes of an exiting worker, then an ended worker writes nothing more, and as long as the
latest worker runs `is_terminated_thread` is false: `send` finds it alive, `end_sender` waits. -/
theorem ended_worker_silent {h : Heap} {es : List LifetimesEvent}
    (hr : (lifetimes zc A).Runs ReturnOk (Lifetimes.construct zc h) es s) :
    (∀ k w e d w', s.earlier[k]? = some w ∨
        (s.ended = true ∧ k = s.earlier.length ∧ s.latest = some w) →
      w.step zc A k s.heap s.data e = some (d, w') → d = s.data) ∧
      ∀ w, s.latest = some w → w.phase.running = true →
        s.data.isTerminatedThread = false ∧
          (∀ p, s.main.pc = .sendTermTest p →
            ∃ m, s.main.step zc s.data = some (s.data, m) ∧ m.pc = .sendDoneTest p) ∧
          (s.main.pc = .endTermTest →
            ∃ m, s.main.step zc s.data = some (s.data, m) ∧ m.pc = .endTerminate) := by
  have hst : Settled s := hr.keeps Settled (settled_start h) fun _ _ _ hv ho hs => hv.step ho hs
  refine ⟨?_, ?_⟩
  · intro k w e d w' hk hs
    have hw : w.Sane ∧ w.phase = .over := by
      rcases hk with hk | ⟨he, -, hl⟩
      · exact hst.earlier w (List.mem_of_getElem? hk)
      · exact ⟨hst.sane w hl, hst.ended he w hl⟩
    obtain ⟨-, hshake⟩ := Worker.step_handshake hw.1 hs
    rw [hw.2] at hshake
    exact hshake.of_over.1
  · intro w hl hrun
    have hflag : s.data.isTerminatedThread = false := by
      rw [hst.flag, hl]
      show (w.phase.published || decide (w.phase = .new)) = false
      cases hph : w.phase <;> rw [hph] at hrun <;> first | rfl | cases hrun
    refine ⟨hflag, ?_, ?_⟩
    · intro p hpc
      refine ⟨s.main.goto (.sendDoneTest p), ?_, rfl⟩
      unfold Sender.step
      rw [hpc, hflag]
      rfl
    · intro hpc
      refine ⟨s.main.goto .endTerminate, ?_, rfl⟩
      unfold Sender.step
      rw [hpc, hflag]
      rfl

/-! ## Two runs over two lifetimes -/

instance (s : Lifetimes) (e : LifetimesEvent) : Decidable (ReturnOk s e) :=
  match e with
  | .main => inferInstanceAs (Decidable (_ → _))
  | .callInitialize | .callSend _ | .callEndSender | .init | .server _ _ | .client _ | .thread _
  | .earlier _ _ | .latest _ | .write _ => .isTrue trivial

/-- a successful `initialize` on a sender without a running worker -/
def initialized : List LifetimesEvent :=
  .callInitialize :: List.replicate 3 .main ++ List.replicate 10 .init ++
    [.server (.ok [⟨3, true, true, true⟩]) true, .client 4, .init, .init, .thread ⟨[], 0⟩,
      .latest .tau, .latest .tau, .init, .init]

/-- the worker fails in its set-up and publishes its end -/
def failedSetUp : List LifetimesEvent :=
  .latest (.call false) :: List.replicate 4 (.latest .tau)

/-- its second write -/
def secondWrite (e : WorkerEvent → LifetimesEvent) : List LifetimesEvent := [e .tau, e .tau]

def endSender : List LifetimesEvent := .callEndSender :: List.replicate 3 .main

/-- the worker of the first lifetime has made both writes before it is ended -/
theorem ended_worker_silent_twice :
    ∃ s, (lifetimes false FastInts.lp64).Runs ReturnOk (Lifetimes.construct false noMemory)
        (initialized ++ failedSetUp ++ secondWrite .latest ++ endSender ++ initialized) s ∧
      s.earlier.length = 1 ∧ s.data.isTerminatedThread = false := by
  have hrun : (((lifetimes false FastInts.lp64).restrict ReturnOk).run
      (Lifetimes.construct false noMemory)
      (initialized ++ failedSetUp ++ secondWrite .latest ++ endSender ++ initialized)).map
        (fun s => (s.earlier.length, s.latest.map (fun w => w.phase.running)))
      = some (1, some true) := by decide +kernel
  obtain ⟨s, hs, he⟩ := Option.map_eq_some_iff.mp hrun
  obtain ⟨hlen, hlatest⟩ := Prod.mk.inj he
  obtain ⟨w, hw, hphase⟩ := Option.map_eq_some_iff.mp hlatest
  have hr := Machine.Runs.of_restrict hs
  exact ⟨s, hr, hlen, ((ended_worker_silent hr).2 w hw hphase).1⟩

/-- **A stale write.**  The worker of the first lifetime is ended after its first write; its second
one comes when the worker of the second lifetime runs, and marks that one dead. -/
theorem stale_write :
    ((lifetimes false FastInts.lp64).run (Lifetimes.construct false noMemory)
      (initialized ++ failedSetUp ++ endSender ++ initialized ++ secondWrite (.earlier 0))).map
        (fun s => (s.main.initialized, s.latest.map (fun w => w.phase.running),
          s.data.isTerminatedThread))
      = some (true, some true, true) := by
  decide +kernel

end
end RealTimeTransfer
