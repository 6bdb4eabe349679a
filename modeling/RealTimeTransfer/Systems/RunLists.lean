import RealTimeTransfer.Senders.ListMemory
import RealTimeTransfer.Systems.RunSender
import RealTimeTransfer.Systems.Shutdown

/-!
# The lists of a run

`run` keeps the list of the user function in `user_packets_list` and the worker its copy in
`data_to_be_sent`.  Here the two variables are objects of the memory of the lists, and each step of
the loop makes its calls on them, an assignment being one step; the user makes calls on other
objects at any time.

* `listCalls`   the constructions, assignments and destructions of a step;
* `runMemory`   the loop over the memory;
* `ListsOk`     the two objects hold what the loop says that they hold;
* `run_lists`   so they do in every run, and nothing of them is left behind it.
-/

namespace RealTimeTransfer
open Machines Words

/-- the calls of a step, one after the other; there are none after an `exit(1)` -/
def ListRun.all (L : Layout) (s : ListRun) (cs : List ListCall) : ListRun :=
  cs.foldl (fun s c => (s.step L c).getD s) s

/-- the object that a call is about -/
def ListCall.target : ListCall → Ptr
  | .construct o _ _ | .copyConstruct o _ _ | .assign o _ _ | .destroy o | .write o _ _ => o

/-- what `malloc` promises of its answer in a call -/
def ListCall.Promise (m : ListMemory) : ListCall → Prop
  | .construct _ _ p | .copyConstruct _ _ p => m.Fresh p
  | .assign o _ p => (m.release o).Fresh p
  | .destroy _ | .write _ _ _ => True

instance (m : ListMemory) (c : ListCall) : Decidable (c.Promise m) :=
  match c with
  | .construct _ _ _ | .copyConstruct _ _ _ | .assign _ _ _ => inferInstanceAs (Decidable (_ → _))
  | .destroy _ | .write _ _ _ => .isTrue trivial

/-- the calls of a step: `w` is the address of `data_to_be_sent`, `t` that of the object that the
user function returns, and `p` the answer of `malloc` -/
def RunSender.listCalls (a : Locals) (w t p : Ptr) (x : RunSender) :
    RunSenderEvent → List ListCall
  | .system (.startTimer none) => [.construct a.userPacketsList 0 p]
  | .system (.userCall _) => [.assign a.userPacketsList t p, .destroy t]
  | .main => if x.session.main.pc = .endClose then [.destroy a.userPacketsList] else []
  | .worker _ =>
    match x.session.worker.pc with
    | .setAffinity => [.construct w 0 p]
    | .copy => x.session.data.packetsList.elim [] fun q => [.assign w q p]
    | .pthreadExit => [.destroy w]
    | _ => []
  | _ => []

structure RunMemory where
  run : RunSender
  lists : ListRun := {}

inductive RunMemoryEvent where
  | user (c : ListCall)
  | run (e : RunSenderEvent) (t p : Ptr)

def RunMemory.step (L : Layout) (A : FastInts) (a : Locals) (w : Ptr) (x : RunMemory) :
    RunMemoryEvent → Option RunMemory
  | .user c => (x.lists.step L c).map fun l => { x with lists := l }
  | .run e t p =>
    if x.lists.memory.exited || x.lists.memory.undefined then none
    else ((runLoop A a).step x.run e).map fun r => ⟨r, x.lists.all L (x.run.listCalls a w t p e)⟩

def runMemory (L : Layout) (A : FastInts) (a : Locals) (w : Ptr) :
    Machine RunMemory RunMemoryEvent :=
  ⟨RunMemory.step L A a w⟩

/-- the object at `t` is none of the loop's, and holds the list that the user function returns -/
def Returns (a : Locals) (w t : Ptr) (s : ListRun) : RunSenderEvent → Prop
  | .system (.userCall c) =>
    t ≠ a.userPacketsList ∧ t ≠ w ∧ s.values t = some (c.list.map some)
  | _ => True

instance (a : Locals) (w t : Ptr) (s : ListRun) (e : RunSenderEvent) :
    Decidable (Returns a w t s e) :=
  match e with
  | .system (.userCall _) => inferInstanceAs (Decidable (_ ∧ _ ∧ _))
  | .system (.setTimer _) | .system (.setSender _) | .system (.setUserDataFn _)
  | .system (.setFrequency _) | .system (.setMsTolerance _) | .system (.skipMode _)
  | .system (.callInitialize _) | .system (.sendBeforeRun _ _) | .system .run | .system .tau
  | .system (.sleepMs _) | .system (.sleepUs _) | .system (.startTimer _) | .system (.isSendDone _)
  | .system (.send _ _) | .system (.tick _) | .system .endSender
  | .isSendDone _ | .enter | .main | .worker _ => .isTrue trivial

instance (s : ListRun) (c : ListCall) : Decidable (ToItself s c) :=
  match c with
  | .assign _ _ _ => inferInstanceAs (Decidable (_ ∧ _ ∧ _))
  | .construct _ _ _ | .copyConstruct _ _ _ | .destroy _ | .write _ _ _ => .isFalse id

/-- the user keeps to lists of its own, and `malloc` and the user function keep their promises -/
def MemoryOk (L : Layout) (a : Locals) (w : Ptr) (x : RunMemory) : RunMemoryEvent → Prop
  | .user c => c.target ≠ a.userPacketsList ∧ c.target ≠ w ∧ CallOk L x.lists c ∧
      ¬ ToItself x.lists c
  | .run e t p => (∀ c ∈ x.run.listCalls a w t p e, c.Promise x.lists.memory) ∧
      Returns a w t x.lists e

instance (L : Layout) (a : Locals) (w : Ptr) (x : RunMemory) (e : RunMemoryEvent) :
    Decidable (MemoryOk L a w x e) :=
  match e with
  | .user _ => inferInstanceAs (Decidable (_ ∧ _ ∧ _ ∧ _))
  | .run _ _ _ => inferInstanceAs (Decidable ((∀ c ∈ _, _) ∧ _))

/-! ## The two objects -/

/-- the points of the worker at which `data_to_be_sent` lives -/
def WorkerPc.hasList : WorkerPc → Bool
  | .alive | .initialized | .setAffinity | .unwindFlag | .unwindLock | .dead => false
  | _ => true

/-- the points of the worker behind the destructor of `data_to_be_sent` -/
def WorkerPc.unwinding : WorkerPc → Bool
  | .unwindFlag | .unwindLock | .dead => true
  | _ => false

/-- the value of `data_to_be_sent` -/
def Worker.held (w : Worker) : Option Cells :=
  if w.pc.hasList then some (w.dataToBeSent.map some) else none

/-- the value of `user_packets_list` -/
def RunSender.userList (a : Locals) (x : RunSender) : Option Cells :=
  if x.system.pc.inLoop then some ((x.session.heap.lists a.userPacketsList).map some) else none

/-- what the loop keeps for the two objects -/
structure Owning (a : Locals) (x : RunSender) : Prop where
  linked : Linked a x
  born : x.session.worker.pc ≠ .alive ∧ x.session.worker.pc ≠ .initialized ∧
    (x.session.worker.pc = .setAffinity → x.session.worker.dataToBeSent = [])
  pending : ∀ p, x.session.data.packetsList = some p → p = a.userPacketsList
  gone : x.session.main.pc = .endClose → x.session.worker.phase.published = true
  returned : x.system.pc.isIdle = true →
    x.session.worker.phase.published = true ∨ x.session.data.packetsList = none

/-- the two objects hold what the loop says that they hold -/
structure ListsOk (L : Layout) (a : Locals) (w : Ptr) (x : RunMemory) : Prop where
  owning : Owning a x.run
  defined : WellDefined L x.lists.memory x.lists.values
  user : x.lists.memory.exited = false → x.lists.values a.userPacketsList = x.run.userList a
  worker : x.lists.memory.exited = false → x.lists.values w = x.run.session.worker.held

section
variable {zc : Bool} {A : FastInts} {k : Nat} {h : Heap} {d d' : SenderWorkerData}
  {w w' : Worker} {e : WorkerEvent}

theorem Worker.step_keeps (hs : w.step zc A k h d e = some (d', w'))
    (hpc : w.pc = .setAffinity ∨ w.pc.hasList = true) (hc : w.pc ≠ .copy)
    (hx : w.pc ≠ .pthreadExit) : w'.dataToBeSent = w.dataToBeSent ∧ w'.pc.hasList = true := by
  have absent : ∀ {pc : WorkerPc} {P : Prop}, w.pc = pc → pc ≠ .setAffinity → pc.hasList = false →
      P := by
    rintro pc P rfl hn hl
    rcases hpc with hp | hp
    · exact absurd hp hn
    · rw [hl] at hp
      cases hp
  have outer : ∀ {v : Worker}, v.dataToBeSent = w.dataToBeSent → v.pc.hasList = true →
      (w.unlessTerminated d v).dataToBeSent = w.dataToBeSent ∧
        (w.unlessTerminated d v).pc.hasList = true := by
    intro v hv hl
    rcases unlessTerminated_cases w d v with ⟨-, hu⟩ | ⟨-, hu⟩ <;> rw [hu]
    · exact ⟨rfl, rfl⟩
    · exact ⟨hv, hl⟩
  unfold step at hs
  split at hs
  case h_1 hp => exact absent hp nofun rfl
  case h_2 hp => exact absent hp nofun rfl
  case h_3 ok hp | h_4 ok hp | h_5 ok hp | h_6 ok hp =>
    cases hs
    cases ok <;> exact ⟨rfl, rfl⟩
  case h_7 hp | h_10 hp =>
    cases hs
    exact outer rfl rfl
  case h_8 hp | h_13 hp =>
    obtain ⟨m, -, he⟩ := Option.map_eq_some_iff.mp hs
    cases he
    exact ⟨rfl, rfl⟩
  case h_9 hp =>
    cases hs
    split <;> exact ⟨rfl, rfl⟩
  case h_14 hp => exact absurd hp hc
  case h_15 hp =>
    rw [protUnlock_eq] at hs
    cases hs
    exact ⟨rfl, rfl⟩
  case h_16 hp =>
    obtain ⟨v, hv, he⟩ := Option.map_eq_some_iff.mp hs
    cases he
    rcases nextPacket_cases hv with ⟨p, -, -, -, rfl⟩ | ⟨p, -, -, -, rfl⟩ | ⟨-, rfl⟩
    · exact ⟨rfl, rfl⟩
    · exact ⟨rfl, rfl⟩
    · cases zc <;> exact ⟨rfl, rfl⟩
  case h_17 hp | h_18 s hp =>
    obtain ⟨-, he⟩ := Option.ite_some_none_eq_some.mp hs
    cases he
    exact ⟨rfl, rfl⟩
  case h_19 s hp =>
    cases hs
    split
    · exact ⟨rfl, rfl⟩
    · exact outer rfl rfl
  case h_20 hp =>
    cases hs
    split <;> exact ⟨rfl, rfl⟩
  case h_21 ok hp =>
    cases hs
    cases ok <;> exact ⟨rfl, rfl⟩
  case h_23 m hp =>
    cases hs
    unfold notified
    split <;> exact ⟨rfl, rfl⟩
  case h_27 hp =>
    rw [protUnlock_eq] at hs
    cases hs
    exact ⟨rfl, rfl⟩
  case h_29 hp => exact absurd hp hx
  case h_30 hp => exact absent hp nofun rfl
  case h_31 hp => exact absent hp nofun rfl
  case h_32 => cases hs
  all_goals
    cases hs
    exact ⟨rfl, rfl⟩

theorem Worker.step_unwinds (hs : w.step zc A k h d e = some (d', w'))
    (hpc : w.pc = .pthreadExit ∨ w.pc.unwinding = true) : w'.pc.unwinding = true := by
  unfold step at hs
  split at hs
  case h_29 | h_30 =>
    cases hs
    rfl
  case h_31 =>
    rw [protUnlock_eq] at hs
    cases hs
    rfl
  case h_32 => cases hs
  all_goals
    rename_i hp
    rw [hp] at hpc
    rcases hpc with hpc | hpc <;> cases hpc

theorem WorkerPc.lives {pc : WorkerPc} (h : pc ≠ .alive) (h' : pc ≠ .initialized)
    (hx : ¬ (pc = .pthreadExit ∨ pc.unwinding = true)) : pc = .setAffinity ∨ pc.hasList = true := by
  cases pc <;> first
    | exact .inl rfl
    | exact .inr rfl
    | exact absurd rfl h
    | exact absurd rfl h'
    | exact absurd (.inr rfl) hx

theorem Worker.step_born (hs : w.step zc A k h d e = some (d', w'))
    (hb : w.pc ≠ .alive ∧ w.pc ≠ .initialized ∧ (w.pc = .setAffinity → w.dataToBeSent = [])) :
    w'.pc ≠ .alive ∧ w'.pc ≠ .initialized ∧ (w'.pc = .setAffinity → w'.dataToBeSent = []) := by
  have born : w'.pc.hasList = true ∨ w'.pc.unwinding = true →
      w'.pc ≠ .alive ∧ w'.pc ≠ .initialized ∧ (w'.pc = .setAffinity → w'.dataToBeSent = []) := by
    intro h
    cases hp : w'.pc <;> rw [hp] at h <;>
      first | (rcases h with h | h <;> cases h; done) | exact ⟨nofun, nofun, nofun⟩
  by_cases hx : w.pc = .pthreadExit ∨ w.pc.unwinding = true
  · exact born (.inr (step_unwinds hs hx))
  · by_cases hc : w.pc = .copy
    · obtain ⟨p, -, rfl, -⟩ := step_copy hc hs
      exact born (.inl rfl)
    · have hpc := WorkerPc.lives hb.1 hb.2.1 hx
      exact born (.inl (step_keeps hs hpc hc fun he => hx (.inl he)).2)

theorem WorkerPc.hasList_of_unwinding {pc : WorkerPc} (h : pc.unwinding = true) :
    pc.hasList = false := by
  cases pc <;> first | rfl | cases h

end

/-! ## The calls of one step -/

section
variable {L : Layout} {v : Values} {s : ListRun} {c : ListCall} {cs : List ListCall}

theorem ListRun.all_cons (s : ListRun) (c : ListCall) (cs : List ListCall) :
    s.all L (c :: cs) = ((s.step L c).getD s).all L cs := rfl

/-- **A call whose promises are kept** leaves its values in the memory. -/
theorem ListRun.step_defined (h : WellDefined L s.memory s.values) (hm : s.memory.exited = false)
    (hok : CallOk L s c) (hself : ¬ ToItself s c) :
    s.step L c = some ⟨s.memory.after L c, s.values.after c⟩ ∧
      WellDefined L (s.memory.after L c) (s.values.after c) := by
  obtain ⟨ho, hh⟩ := h.2 hm
  refine ⟨?_, (ho.after hh hm h.1 hok).2 hself⟩
  unfold ListRun.step
  rw [hm, h.1]
  rfl

theorem ListRun.all_exited (hm : s.memory.exited = true) : s.all L cs = s := by
  induction cs with
  | nil => rfl
  | cons c cs ih =>
    have hs : s.step L c = none := by
      unfold ListRun.step
      rw [hm]
      rfl
    rw [ListRun.all_cons, hs]
    exact ih

theorem ListRun.all_one (h : WellDefined L s.memory s.values) (hm : s.memory.exited = false)
    (hok : CallOk L s c) (hself : ¬ ToItself s c) :
    WellDefined L (s.all L [c]).memory (s.all L [c]).values ∧
      (s.all L [c]).values = s.values.after c := by
  obtain ⟨hs, hdef⟩ := ListRun.step_defined h hm hok hself
  rw [ListRun.all_cons, hs]
  exact ⟨hdef, rfl⟩

theorem ListRun.all_returned {o t p : Ptr} (h : WellDefined L s.memory s.values)
    (hm : s.memory.exited = false) (hok : CallOk L s (.assign o t p)) (hne : t ≠ o) :
    WellDefined L (s.all L [.assign o t p, .destroy t]).memory
        (s.all L [.assign o t p, .destroy t]).values ∧
      ((s.all L [.assign o t p, .destroy t]).memory.exited = false →
        (s.all L [.assign o t p, .destroy t]).values
          = (s.values.after (.assign o t p)).after (.destroy t)) := by
  obtain ⟨hs, hdef⟩ := ListRun.step_defined h hm hok fun hc => hne hc.1.symm
  rw [ListRun.all_cons, hs]
  simp only [Option.getD_some]
  cases hexit : (s.memory.after L (.assign o t p)).exited with
  | true =>
    rw [ListRun.all_exited hexit]
    exact ⟨hdef, fun hfalse => absurd (hexit.symm.trans hfalse) nofun⟩
  | false =>
    have hlives : (s.memory.after L (.assign o t p)).objects t ≠ none := by
      apply (hdef.2 hexit).1.object
      rw [show s.values.after (.assign o t p) t = s.values t from Function.update_of_ne hne _ _]
      exact hok.2.1
    obtain ⟨hdef', hvalues⟩ := ListRun.all_one (c := .destroy t)
      (s := ⟨s.memory.after L (.assign o t p), s.values.after (.assign o t p)⟩) hdef hexit hlives
      nofun
    exact ⟨hdef', fun _ => hvalues⟩

theorem Values.after_of_ne {o : Ptr} (ho : o ≠ c.target) : v.after c o = v o := by
  cases c <;> exact Function.update_of_ne ho _ _

end

/-! ## The loop -/

section
variable {A : FastInts} {a : Locals} {x x' : RunSender} {e : RunSenderEvent}

theorem owning_entered (r : RealTimeSystem) (h : Heap) (so : Sockets) (err : Error) :
    Owning a (RunSender.entered r h so err) :=
  ⟨linked_entered r h so err, ⟨nofun, nofun, fun _ => rfl⟩, nofun, nofun, nofun⟩

theorem RunSender.step_of_loop (hs : (runLoop A a).step x e = some x') :
    x.step A a e = some x' :=
  (Option.ite_none_right_eq_some.mp hs).2

theorem Linked.kept (h : Linked a x) (hs : (runLoop A a).step x e = some x') : Linked a x' := by
  by_cases ho : SkipOk a x e
  · exact h.step ho hs
  · cases e with
    | system f =>
      obtain ⟨hrun, hs⟩ := Option.ite_none_right_eq_some.mp hs
      change x.step A a (.system f) = some x' at hs
      have halone : Alone x' := h.alone.step hs
      obtain ⟨-, y, hy, -, -, rfl⟩ := RunSender.step_system hs
      refine h.system hy (SystemPc.ne_idle hrun) halone rfl rfl ?_
      rintro c rfl
      exact Function.update_self ..
    | isSendDone _ | enter | main | worker _ => exact absurd trivial ho

/-- the text of a refused `send` is fetched from the main thread's own fields -/
theorem Session.step_getError {s s' : Session}
    (hs : s' = s ∨ ∃ msg, s.step false A (.getError msg) = some s') :
    s'.data = s.data ∧ s'.worker = s.worker ∧ s'.heap = s.heap ∧ s'.main.pc = s.main.pc := by
  rcases hs with rfl | ⟨msg, hs⟩
  · exact ⟨rfl, rfl, rfl, rfl⟩
  · obtain ⟨-, rfl⟩ := Option.ite_some_none_eq_some.mp hs
    exact ⟨rfl, rfl, rfl, rfl⟩

/-- the main thread inside a call is inside `send` or at the end of `run` -/
theorem Linked.calling (h : Linked a x) (hr : x.session.main.pc.isReady = false) :
    (x.session.main.pc.ending = false ∧ x.system.pc = .send) ∨
      (x.session.main.pc.ending = true ∧ ∃ r, x.system.pc = .ending r) := by
  rcases h.alone.inside hr with ⟨he, hp | hp⟩ | ⟨he, hp | hp⟩
  · exact .inl ⟨he, hp⟩
  · exact absurd hp h.not_before
  · have hin := h.inRun
    rw [hp] at hin
    rcases hin with hin | hin | ⟨r, hin⟩ <;> cases hin
  · exact .inr ⟨he, hp⟩

theorem Linked.stays (h : Linked a x) {f : SystemEvent} {y : RealTimeSystem}
    (hs : x.system.step A f = some y) (hf : f ≠ .endSender) (hidle : ∀ r, x.system.pc ≠ .idle r) :
    (x.system.pc.inLoop = true ∧ y.pc.inLoop = true ∧ ∀ r, f ≠ .startTimer r) ∨
      (x.system.pc = .startTimer ∧ f = .startTimer none ∧ y.pc.inLoop = true) ∨
      (x.system.pc = .startTimer ∧ ∃ msg, f = .startTimer (some msg) ∧ y.pc.isIdle = true) := by
  rcases h.inRun with hin | hp | ⟨r, hp⟩
  · have moves := RealTimeSystem.step_moves hidle hs
    have hturn := (moves.endSender hin).resolve_left fun hb => hf hb.1
    refine .inl ⟨hin, hturn.2, ?_⟩
    rintro r rfl
    cases moves <;> rename_i hp <;> rw [hp] at hin <;> cases hin
  · rcases RealTimeSystem.step_startTimer hs hp with ⟨rfl, hy⟩ | ⟨msg, rfl, hy⟩
    · exact .inr (.inl ⟨hp, rfl, by rw [hy]; rfl⟩)
    · exact .inr (.inr ⟨hp, msg, rfl, by rw [hy]; rfl⟩)
  · exact absurd hp (hidle r)

/-- the main thread's step inside a call: `run` returns behind the last point of `end_sender` -/
theorem Owning.main_step (h : Owning a x) (hs : x.step A a .main = some x') :
    ∃ d m, Advance x.session.data x.session.main.pc d m ∧ x'.session.data = d ∧
      x'.session.main.pc = m ∧ x'.session.worker = x.session.worker ∧
      x'.session.heap = x.session.heap ∧ x.system.pc.inLoop = true ∧
      ((x.session.main.pc = .endClose ∧ x'.system.pc.isIdle = true) ∨
        (x.session.main.pc ≠ .endClose ∧ x'.system.pc.inLoop = true)) := by
  obtain ⟨d, m, hm, -, hf⟩ := RunSender.step_main hs
  have adv := Sender.step_advance hm
  have hcall := h.linked.calling adv.not_ready
  have hin : x.system.pc.inLoop = true := by
    rcases hcall with ⟨-, hp⟩ | ⟨-, r, hp⟩ <;> rw [hp] <;> rfl
  have closes : x.session.main.pc = .endClose → m.pc.isReady = true := by
    intro hp
    rw [hp] at adv
    cases hp' : m.pc <;> rw [hp'] at adv <;> first | rfl | cases adv
  rcases RunSender.finish_cases hf with ⟨hr, rfl⟩ | ⟨r, y, s', hr, hy, hpc, -, hget, hx⟩
  · refine ⟨d, m.pc, adv, rfl, rfl, Session.noteMain_worker _, Session.noteMain_heap _, hin,
      .inr ⟨fun hp => ?_, hin⟩⟩
    have hready := closes hp
    rw [show m.pc.isReady = false from hr] at hready
    cases hready
  · obtain ⟨hdata, hworker, hheap, -⟩ := Session.step_getError (hget.imp_right id)
    have hready : m.pc.isReady = true := by
      rw [show m.pc = _ from hr]
      rfl
    have hback : x'.session = s' ∧ x'.system = y := by
      rcases hx with ⟨-, -, rfl⟩ | ⟨-, rfl⟩ <;> exact ⟨rfl, rfl⟩
    obtain ⟨hsession, hsystem⟩ := hback
    rw [hsession, hsystem]
    refine ⟨d, m.pc, adv, hdata, hpc, hworker.trans (Session.noteMain_worker _),
      hheap.trans (Session.noteMain_heap _), hin, ?_⟩
    have moves := RealTimeSystem.step_moves (fun r hp => by rw [hp] at hin; cases hin) hy
    rcases hcall with ⟨he, hp⟩ | ⟨he, v, hp⟩
    · refine .inr ⟨fun hclose => (by rw [hclose] at he; cases he), ?_⟩
      rcases moves.endSender hin with ⟨hres, -⟩ | ⟨-, hy'⟩
      · unfold RunSender.result at hres
        rw [hp] at hres
        cases hres
      · exact hy'
    · refine .inl ⟨(adv.of_ending he).resolve_left fun hend => ?_, ?_⟩
      · rw [show m.pc = .ready r from hr] at hend
        cases hend
      · rcases moves.endSender hin with ⟨-, hy'⟩ | ⟨hne, -⟩
        · exact hy'
        · unfold RunSender.result at hne
          rw [hp] at hne
          exact absurd rfl hne

/-- the end of the worker is published where `end_sender` closes the sockets -/
theorem Owning.closes (h : Owning a x) {d' : SenderWorkerData}
    (adv : Advance x.session.data x.session.main.pc d' .endClose) :
    x.session.worker.phase.published = true := by
  rw [← h.linked.alone.inv.control.flagOk.flag]
  exact adv.of_endClose.2

theorem SystemPc.not_idle_of_inLoop {pc : SystemPc} (h : pc.inLoop = true) :
    ¬ pc.isIdle = true := by
  cases pc <;> first | (intro hb; cases hb; done) | cases h

/-- **Every step of the loop.** -/
theorem Owning.step (h : Owning a x) (hs : (runLoop A a).step x e = some x') : Owning a x' := by
  have hlinked : Linked a x' := h.linked.kept hs
  obtain ⟨hrun, hs⟩ := Option.ite_none_right_eq_some.mp hs
  change x.step A a e = some x' at hs
  cases e with
  | system f =>
    obtain ⟨hl, y, hy, -, -, rfl⟩ := RunSender.step_system hs
    refine ⟨hlinked, h.born, h.pending, h.gone, fun hidle => ?_⟩
    have hf : f ≠ .endSender := by
      rintro rfl
      cases hl
    rcases h.linked.stays hy hf (SystemPc.ne_idle hrun) with ⟨-, hy', -⟩ | ⟨-, -, hy'⟩ | ⟨hp, -, -⟩
    · exact absurd hidle (SystemPc.not_idle_of_inLoop hy')
    · exact absurd hidle (SystemPc.not_idle_of_inLoop hy')
    · exact .inr (h.linked.starting hp)
  | isSendDone b =>
    obtain ⟨y, hy, -, -, -, rfl⟩ := RunSender.step_isSendDone hs
    refine ⟨hlinked, h.born, h.pending, h.gone, fun hidle => ?_⟩
    rcases h.linked.stays hy nofun (RealTimeSystem.inside_of_step hy rfl) with
      ⟨-, hy', -⟩ | ⟨-, hb, -⟩ | ⟨-, msg, hb, -⟩
    · exact absurd hidle (SystemPc.not_idle_of_inLoop hy')
    · cases hb
    · cases hb
  | enter =>
    rcases RunSender.step_enter hs with ⟨p, -, -, -, rfl⟩ | ⟨-, -, -, rfl⟩ <;>
      exact ⟨hlinked, h.born, h.pending, nofun, h.returned⟩
  | main =>
    obtain ⟨d, m, adv, hd, hm, hw, -, -, hpc⟩ := h.main_step hs
    refine ⟨hlinked, hw ▸ h.born, fun p hp => ?_, fun hclose => ?_, fun hidle => ?_⟩
    · rw [hd] at hp
      rcases adv.stores with ⟨q, hq, -, hl, -⟩ | ⟨-, -, hl, -⟩ | ⟨-, hl, -⟩ <;> rw [hl] at hp
      · cases hp
        exact h.linked.argument p (by rw [hq]; rfl)
      · cases hp
      · exact h.pending p hp
    · rw [hm] at hclose
      rw [hw]
      subst hclose
      exact h.closes adv
    · rcases hpc with ⟨hclose, -⟩ | ⟨-, hin⟩
      · rw [hw]
        exact .inl (h.gone hclose)
      · exact absurd hidle (SystemPc.not_idle_of_inLoop hin)
  | worker f =>
    obtain ⟨d, w, hw, -, rfl⟩ := RunSender.step_worker hs
    have shake := (Worker.step_handshake h.linked.alone.inv.sane hw).2
    refine ⟨hlinked, ?_, fun p hp => ?_, fun hclose => shake.published_of (h.gone hclose),
      fun hidle => (h.returned hidle).imp shake.published_of shake.packetsList_none⟩
    · exact Worker.step_born hw h.born
    · by_cases ht : x.session.worker.phase = .taking
      · have hl := Worker.step_copy (Worker.phase_taking.mp ht) hw
        obtain ⟨-, -, -, rfl⟩ := hl
        cases hp
      · exact h.pending p ((shake.packetsList_eq ht).symm.trans hp)

/-- what a step of the main thread does to `user_packets_list` -/
theorem Owning.user_step (h : Owning a x) (hs : (runLoop A a).step x e = some x')
    (he : ∀ f, e ≠ .worker f) :
    x'.session.worker = x.session.worker ∧
      ((e = .system (.startTimer none) ∧ x.userList a = none ∧ x'.userList a = some []) ∨
        (∃ c, e = .system (.userCall c) ∧ x.userList a ≠ none ∧
          x'.userList a = some (c.list.map some)) ∨
        (e = .main ∧ x.session.main.pc = .endClose ∧ x.userList a ≠ none ∧
          x'.userList a = none) ∨
        ((∀ w t p, x.listCalls a w t p e = []) ∧ x'.userList a = x.userList a)) := by
  obtain ⟨hrun, hs⟩ := Option.ite_none_right_eq_some.mp hs
  change x.step A a e = some x' at hs
  cases e with
  | system f =>
    obtain ⟨hl, y, hy, -, -, rfl⟩ := RunSender.step_system hs
    refine ⟨rfl, ?_⟩
    have hf : f ≠ .endSender := by
      rintro rfl
      cases hl
    rcases h.linked.stays hy hf (SystemPc.ne_idle hrun) with
      ⟨hin, hy', hno⟩ | ⟨hp, rfl, hy'⟩ | ⟨hp, msg, rfl, hy'⟩
    · unfold RunSender.userList
      dsimp only
      rw [if_pos hin, if_pos hy']
      cases f with
      | userCall c =>
        refine .inr (.inl ⟨c, rfl, nofun, ?_⟩)
        exact congrArg (fun l : DataPacketsList => some (l.map some)) (Function.update_self ..)
      | startTimer r => exact absurd rfl (hno r)
      | sendBeforeRun l n =>
        have hidle := SystemPc.ne_idle hrun
        cases RealTimeSystem.step_moves hidle hy
      | _ => exact .inr (.inr (.inr ⟨fun _ _ _ => rfl, rfl⟩))
    · refine .inl ⟨rfl, ?_, ?_⟩
      · unfold RunSender.userList
        rw [hp]
        rfl
      · unfold RunSender.userList
        dsimp only
        have hlist : (a.assign x.session.heap (.startTimer none)).lists a.userPacketsList = [] :=
          Function.update_self ..
        rw [if_pos hy', hlist]
        rfl
    · refine .inr (.inr (.inr ⟨fun _ _ _ => rfl, ?_⟩))
      unfold RunSender.userList
      dsimp only
      rw [hp, if_neg (fun hin => SystemPc.not_idle_of_inLoop hin hy')]
      rfl
  | isSendDone b =>
    obtain ⟨y, hy, -, -, -, rfl⟩ := RunSender.step_isSendDone hs
    refine ⟨rfl, .inr (.inr (.inr ⟨fun _ _ _ => rfl, ?_⟩))⟩
    rcases h.linked.stays hy nofun (RealTimeSystem.inside_of_step hy rfl) with
      ⟨hin, hy', -⟩ | ⟨-, hb, -⟩ | ⟨-, msg, hb, -⟩
    · unfold RunSender.userList
      dsimp only
      rw [if_pos hin, if_pos hy']
    · cases hb
    · cases hb
  | enter =>
    rcases RunSender.step_enter hs with ⟨p, -, -, -, rfl⟩ | ⟨-, -, -, rfl⟩ <;>
      exact ⟨rfl, .inr (.inr (.inr ⟨fun _ _ _ => rfl, rfl⟩))⟩
  | main =>
    obtain ⟨d, m, -, -, -, hw, hheap, hin, hpc⟩ := h.main_step hs
    refine ⟨hw, ?_⟩
    rcases hpc with ⟨hclose, hidle⟩ | ⟨hopen, hin'⟩
    · refine .inr (.inr (.inl ⟨rfl, hclose, ?_, ?_⟩))
      · unfold RunSender.userList
        rw [if_pos hin]
        nofun
      · unfold RunSender.userList
        rw [if_neg fun hin' => SystemPc.not_idle_of_inLoop hin' hidle]
    · refine .inr (.inr (.inr ⟨fun _ _ _ => if_neg hopen, ?_⟩))
      unfold RunSender.userList
      rw [if_pos hin, if_pos hin', hheap]
  | worker f => exact absurd rfl (he f)

end

/-! ## The loop over the memory -/

section
variable {L : Layout} {A : FastInts} {a : Locals} {w t p : Ptr} {x x' : RunMemory}

theorem RunSender.listCalls_worker {x : RunSender} {f : WorkerEvent}
    (h1 : x.session.worker.pc ≠ .setAffinity) (h2 : x.session.worker.pc ≠ .copy)
    (h3 : x.session.worker.pc ≠ .pthreadExit) : x.listCalls a w t p (.worker f) = [] := by
  unfold RunSender.listCalls
  split
  case h_4 =>
    split
    case h_1 hp => exact absurd hp h1
    case h_2 hp => exact absurd hp h2
    case h_3 hp => exact absurd hp h3
    case h_4 => rfl
  all_goals first | rfl | simp_all

theorem Owning.userList_of_copy {x : RunSender} (h : Owning a x)
    (hpc : x.session.worker.pc = .copy) {q : Ptr} (hq : x.session.data.packetsList = some q) :
    x.userList a = some ((x.session.heap.lists a.userPacketsList).map some) := by
  have hphase : x.session.worker.phase = .taking := Worker.phase_taking.mpr hpc
  have hin : x.system.pc.inLoop = true := by
    rcases h.linked.inRun with hin | hp | ⟨r, hp⟩
    · exact hin
    · rw [h.linked.starting hp] at hq
      cases hq
    · rcases h.returned (by rw [hp]; rfl) with hpub | hnone
      · rw [hphase] at hpub
        cases hpub
      · rw [hnone] at hq
        cases hq
  unfold RunSender.userList
  rw [if_pos hin]

/-- while the worker copies, the main thread is not about to make a call on the list, but for the
assignment of a skipped call -/
theorem Owning.apart {x : RunSender} (h : Owning a x) (hpc : x.session.worker.pc = .copy) :
    x.system.pc ≠ .startTimer ∧ x.system.pc ≠ .normalCall ∧ x.session.main.pc ≠ .endClose := by
  have hphase : x.session.worker.phase = .taking := Worker.phase_taking.mpr hpc
  have hand := h.linked.alone.inv.control.handOk
  have hsome := hand.taking hphase
  refine ⟨fun hp => hsome (h.linked.starting hp), fun hp => ?_, fun hp => ?_⟩
  · exact hsome (hand.done (h.linked.alone.normalCall hp)).1
  · have hpub := h.gone hp
    rw [hphase] at hpub
    cases hpub

/-- **A step of the worker.** -/
theorem ListsOk.worker_step (h : ListsOk L a w x) (hne : a.userPacketsList ≠ w)
    (hm : x.lists.memory.exited = false) {f : WorkerEvent} {r : RunSender}
    (hpromise : ∀ c ∈ x.run.listCalls a w t p (.worker f), c.Promise x.lists.memory)
    (hs : (runLoop A a).step x.run (.worker f) = some r) :
    ListsOk L a w ⟨r, x.lists.all L (x.run.listCalls a w t p (.worker f))⟩ := by
  have howning : Owning a r := h.owning.step hs
  obtain ⟨d, v, hv, -, rfl⟩ := RunSender.step_worker (RunSender.step_of_loop hs)
  have hu := h.user hm
  have hw := h.worker hm
  obtain ⟨hb1, hb2, hborn⟩ := h.owning.born
  have hheld : x.run.session.worker.pc.hasList = true → x.lists.values w
      = some (x.run.session.worker.dataToBeSent.map some) := by
    intro hl
    rw [hw]
    exact if_pos hl
  have one : ∀ c, x.run.listCalls a w t p (.worker f) = [c] → c.target = w →
      CallOk L x.lists c → ¬ ToItself x.lists c → x.lists.values.after c w = v.held →
      ListsOk L a w ⟨{ x.run with
          session := { x.run.session.noteWorker f with data := d, worker := v } },
        x.lists.all L (x.run.listCalls a w t p (.worker f))⟩ := by
    intro c hc ht hok hself hafter
    obtain ⟨hdef, hvalues⟩ := ListRun.all_one h.defined hm hok hself
    rw [hc]
    refine ⟨howning, hdef, fun _ => ?_, fun _ => ?_⟩
    · show (x.lists.all L [c]).values _ = _
      rw [hvalues, Values.after_of_ne (ht ▸ hne), hu]
      rfl
    · show (x.lists.all L [c]).values _ = _
      rw [hvalues]
      exact hafter
  by_cases hx : x.run.session.worker.pc = .pthreadExit
  · have hc : x.run.listCalls a w t p (.worker f) = [.destroy w] := by
      unfold RunSender.listCalls
      dsimp only
      rw [hx]
    have hlives : x.lists.memory.objects w ≠ none := by
      apply (h.defined.2 hm).1.object
      rw [hheld (by rw [hx]; rfl)]
      nofun
    refine one _ hc rfl hlives nofun ?_
    show Function.update x.lists.values w none w = _
    rw [Function.update_self]
    unfold Worker.held
    rw [if_neg]
    rw [WorkerPc.hasList_of_unwinding (Worker.step_unwinds hv (.inl hx))]
    nofun
  · by_cases hcopy : x.run.session.worker.pc = .copy
    · obtain ⟨q, hq, rfl, -⟩ := Worker.step_copy hcopy hv
      cases h.owning.pending q hq
      have huser := h.owning.userList_of_copy hcopy hq
      have hc : x.run.listCalls a w t p (.worker f) = [.assign w a.userPacketsList p] := by
        unfold RunSender.listCalls
        dsimp only
        rw [hcopy, hq]
        rfl
      have hfresh : ListCall.Promise x.lists.memory (.assign w a.userPacketsList p) :=
        hpromise _ (by rw [hc]; exact List.mem_singleton_self _)
      have hok : CallOk L x.lists (.assign w a.userPacketsList p) := by
        refine ⟨?_, ?_, hfresh⟩
        · rw [hheld (by rw [hcopy]; rfl)]
          nofun
        · rw [hu, huser]
          nofun
      refine one _ hc rfl hok (fun hself => hne hself.1.symm) ?_
      show Function.update x.lists.values w (x.lists.values a.userPacketsList) w = _
      rw [Function.update_self, hu, huser]
      rfl
    · by_cases hset : x.run.session.worker.pc = .setAffinity
      · have hc : x.run.listCalls a w t p (.worker f) = [.construct w 0 p] := by
          unfold RunSender.listCalls
          dsimp only
          rw [hset]
        have hfresh : ListCall.Promise x.lists.memory (.construct w 0 p) :=
          hpromise _ (by rw [hc]; exact List.mem_singleton_self _)
        have hok : CallOk L x.lists (.construct w 0 p) := by
          refine ⟨?_, ?_, hfresh⟩
          · rw [hw]
            unfold Worker.held
            rw [hset]
            rfl
          · rw [Nat.zero_mul]
            exact Nat.two_pow_pos _
        refine one _ hc rfl hok nofun ?_
        obtain ⟨hlist, hlives⟩ := Worker.step_keeps hv (.inl hset) hcopy hx
        show Function.update x.lists.values w (some []) w = _
        rw [Function.update_self]
        unfold Worker.held
        rw [if_pos hlives, hlist, hborn hset]
        rfl
      · have hc := RunSender.listCalls_worker (a := a) (w := w) (t := t) (p := p) (f := f)
          hset hcopy hx
        rw [hc]
        refine ⟨howning, h.defined, fun _ => hu, fun _ => ?_⟩
        show x.lists.values w = _
        rw [hw]
        unfold Worker.held
        by_cases hun : x.run.session.worker.pc.unwinding = true
        · rw [WorkerPc.hasList_of_unwinding hun,
            WorkerPc.hasList_of_unwinding (Worker.step_unwinds hv (.inr hun))]
          rfl
        · have hpc := WorkerPc.lives hb1 hb2 (not_or.mpr ⟨hx, hun⟩)
          obtain ⟨hlist, hlives⟩ := Worker.step_keeps hv hpc hcopy hx
          rw [if_pos hlives, if_pos (hpc.resolve_left hset), hlist]

/-- **A step of the main thread.** -/
theorem ListsOk.main_step (h : ListsOk L a w x) (hne : a.userPacketsList ≠ w)
    (hm : x.lists.memory.exited = false) {e : RunSenderEvent} {r : RunSender}
    (ho : MemoryOk L a w x (.run e t p)) (hs : (runLoop A a).step x.run e = some r)
    (he : ∀ f, e ≠ .worker f) : ListsOk L a w ⟨r, x.lists.all L (x.run.listCalls a w t p e)⟩ := by
  have howning : Owning a r := h.owning.step hs
  obtain ⟨hpromise, hreturned⟩ := ho
  have hu := h.user hm
  have hw := h.worker hm
  obtain ⟨hworker, hcases⟩ := h.owning.user_step hs he
  rw [← hworker] at hw
  have one : ∀ c, x.run.listCalls a w t p e = [c] → c.target = a.userPacketsList →
      CallOk L x.lists c → ¬ ToItself x.lists c →
      x.lists.values.after c a.userPacketsList = r.userList a →
      ListsOk L a w ⟨r, x.lists.all L (x.run.listCalls a w t p e)⟩ := by
    intro c hc ht hok hself hafter
    obtain ⟨hdef, hvalues⟩ := ListRun.all_one h.defined hm hok hself
    rw [hc]
    refine ⟨howning, hdef, fun _ => ?_, fun _ => ?_⟩
    · show (x.lists.all L [c]).values _ = _
      rw [hvalues]
      exact hafter
    · show (x.lists.all L [c]).values _ = _
      rw [hvalues, Values.after_of_ne (ht ▸ hne.symm)]
      exact hw
  rcases hcases with ⟨rfl, hnone, hnil⟩ | ⟨c, rfl, hsome, hlist⟩ | ⟨rfl, hclose, hsome, hnone⟩ |
    ⟨hc, hsame⟩
  · refine one (.construct a.userPacketsList 0 p) rfl rfl ⟨hu.trans hnone, ?_, ?_⟩ nofun ?_
    · rw [Nat.zero_mul]
      exact Nat.two_pow_pos _
    · exact hpromise (.construct a.userPacketsList 0 p) (List.mem_singleton_self _)
    · show Function.update x.lists.values a.userPacketsList (some []) a.userPacketsList = _
      rw [Function.update_self, hnil]
  · obtain ⟨htu, htw, htemp⟩ := hreturned
    have hok : CallOk L x.lists (.assign a.userPacketsList t p) := by
      refine ⟨by rw [hu]; exact hsome, by rw [htemp]; nofun, ?_⟩
      exact hpromise (.assign a.userPacketsList t p) (List.mem_cons_self ..)
    obtain ⟨hdef, hvalues⟩ := ListRun.all_returned h.defined hm hok htu
    refine ⟨howning, hdef, fun hexit => ?_, fun hexit => ?_⟩
    · show (x.lists.all L [_, _]).values _ = _
      rw [hvalues hexit, Values.after_of_ne (c := .destroy t) (Ne.symm htu), hlist, ← htemp]
      exact Function.update_self ..
    · show (x.lists.all L [_, _]).values _ = _
      rw [hvalues hexit, Values.after_of_ne (c := .destroy t) (Ne.symm htw),
        Values.after_of_ne (c := .assign a.userPacketsList t p) hne.symm]
      exact hw
  · have hlives : x.lists.memory.objects a.userPacketsList ≠ none := by
      apply (h.defined.2 hm).1.object
      rw [hu]
      exact hsome
    refine one (.destroy a.userPacketsList) (if_pos hclose) rfl hlives nofun ?_
    rw [hnone]
    exact Function.update_self ..
  · rw [hc]
    exact ⟨howning, h.defined, fun _ => hu.trans hsame.symm, fun _ => hw⟩

/-- **Every step of the loop over the memory.** -/
theorem ListsOk.step (h : ListsOk L a w x) (hne : a.userPacketsList ≠ w) {e : RunMemoryEvent}
    (ho : MemoryOk L a w x e) (hs : (runMemory L A a w).step x e = some x') :
    ListsOk L a w x' := by
  cases e with
  | user c =>
    obtain ⟨hcu, hcw, hok, hself⟩ := ho
    obtain ⟨l, hl, rfl⟩ := Option.map_eq_some_iff.mp hs
    have hm : x.lists.memory.exited = false := by
      by_contra hexit
      unfold ListRun.step at hl
      rw [if_pos (by rw [Bool.not_eq_false] at hexit; rw [hexit]; rfl)] at hl
      cases hl
    obtain ⟨hs', hdef⟩ := ListRun.step_defined h.defined hm hok hself
    rw [hl] at hs'
    cases hs'
    refine ⟨h.owning, hdef, fun _ => ?_, fun _ => ?_⟩
    · show x.lists.values.after c _ = _
      rw [Values.after_of_ne (Ne.symm hcu)]
      exact h.user hm
    · show x.lists.values.after c _ = _
      rw [Values.after_of_ne (Ne.symm hcw)]
      exact h.worker hm
  | run e t p =>
    obtain ⟨hflags, hs⟩ := Option.ite_none_left_eq_some.mp hs
    obtain ⟨r, hr, rfl⟩ := Option.map_eq_some_iff.mp hs
    obtain ⟨hm, -⟩ := Bool.or_eq_false_iff.mp (Bool.not_eq_true _ ▸ hflags)
    by_cases he : ∃ f, e = .worker f
    · obtain ⟨f, rfl⟩ := he
      exact h.worker_step hne hm ho.1 hr
    · exact h.main_step hne hm ho hr fun f hf => he ⟨f, hf⟩

theorem listsOk_entered (r : RealTimeSystem) (h : Heap) (so : Sockets) (err : Error) :
    ListsOk L a w ⟨RunSender.entered r h so err, {}⟩ := by
  refine ⟨owning_entered r h so err, ⟨rfl, fun _ => ⟨?_, nofun⟩⟩, fun _ => rfl, fun _ => rfl⟩
  exact ⟨nofun, nofun, nofun, fun _ _ _ _ hv => absurd rfl hv, fun _ hp => absurd rfl hp⟩

/-- **The lists of a run.**  Whatever the timer, the user function, the kernel, `malloc` and the
order of the steps: no call of `run` or of its worker on a list has an undefined behaviour, the
worker sends from a block of its own that holds its list, and when `run` has returned and the worker
has destroyed `data_to_be_sent` every block that is left belongs to a list of the user.  The copy
that the worker makes can coincide with the assignment of a skipped call, but with no other call on
the list. -/
theorem run_lists {r : RealTimeSystem} {h : Heap} {so : Sockets} {err : Error}
    {es : List RunMemoryEvent} (hne : a.userPacketsList ≠ w)
    (hr : (runMemory L A a w).Runs (MemoryOk L a w) ⟨RunSender.entered r h so err, {}⟩ es x) :
    x.lists.memory.undefined = false ∧
      (x.run.session.worker.pc = .copy → x.run.system.pc ≠ .startTimer ∧
        x.run.system.pc ≠ .normalCall ∧ x.run.session.main.pc ≠ .endClose) ∧
      (x.lists.memory.exited = false →
        (x.run.session.worker.pc.hasList = true → x.lists.memory.contents w
            = some (x.run.session.worker.dataToBeSent.map some)) ∧
          (x.run.system.pc.inLoop = true → x.lists.memory.contents a.userPacketsList
            = some ((x.run.session.heap.lists a.userPacketsList).map some)) ∧
          (x.run.system.pc.isIdle = true → x.run.session.worker.pc.unwinding = true →
            ∀ q, x.lists.memory.blocks q ≠ none → ∃ o y, o ≠ a.userPacketsList ∧ o ≠ w ∧
              x.lists.memory.objects o = some y ∧ y.packets = q)) := by
  have hx : ListsOk L a w x := hr.keeps (ListsOk L a w) (listsOk_entered r h so err)
    fun _ _ _ hv ho hs => hv.step hne ho hs
  refine ⟨hx.defined.1, hx.owning.apart, fun hm => ?_⟩
  obtain ⟨howned, hholds⟩ := hx.defined.2 hm
  have hu := hx.user hm
  have hw := hx.worker hm
  refine ⟨fun hl => hholds _ _ ?_, fun hin => hholds _ _ ?_, fun hidle hun q hq => ?_⟩
  · rw [hw]
    exact if_pos hl
  · rw [hu]
    exact if_pos hin
  · obtain ⟨o, y, hv, hy, hyq⟩ := howned.none_lost q hq
    refine ⟨o, y, ?_, ?_, hy, hyq⟩
    · rintro rfl
      rw [hu] at hv
      exact hv (if_neg fun hin => SystemPc.not_idle_of_inLoop hin hidle)
    · rintro rfl
      rw [hw] at hv
      refine hv (if_neg ?_)
      rw [WorkerPc.hasList_of_unwinding hun]
      nofun

/-- the second iteration, whose user call ends the run, with `end_sender` up to its wait -/
def thenStop : List RunSenderEvent :=
  [.system (.tick true), .system .tau, .system .tau, .isSendDone true, .isSendDone true,
    .system (.userCall ⟨⟨1, false, 0⟩, [], true⟩), .enter] ++ List.replicate 6 .main

/-- the worker through its one byte, and the steps to its end and to that of `run` -/
def workerFinishes : List RunSenderEvent :=
  [.worker .tau, .worker (.sent 1)] ++ List.replicate 4 (.worker .tau)

def thenBothEnd : List RunSenderEvent :=
  List.replicate 5 (.worker .tau) ++ [.main, .main, .worker .tau]

/-- the steps with the object at `t` for what the user function returns, and the answers of `malloc`
from `n` on -/
def onMemory (t n : Ptr) (es : List RunSenderEvent) : List RunMemoryEvent :=
  (es.zipIdx n).map fun x => .run x.1 t x.2

/-- two iterations with the lists at 300 and 301, to the end -/
def memoryRun : List RunMemoryEvent :=
  [.user (.construct 300 1 700), .user (.write 300 0 ⟨.memoryLocation, 10, 1, 0⟩)] ++
    onMemory 300 1000 (firstSend ++ workerCopies ++ workerFinishes) ++
    [.user (.construct 301 0 701)] ++ onMemory 301 2000 (thenStop ++ thenBothEnd)

theorem run_lists_stopped :
    ∃ x, (runMemory ⟨32, 64, by decide⟩ FastInts.lp64 ⟨1, 2⟩ 3).run ⟨senderEntered, {}⟩ memoryRun
        = some x ∧ x.run.system.pc = .idle (some true) ∧
      ∀ q, x.lists.memory.blocks q ≠ none → ∃ o y, o ≠ 2 ∧ o ≠ 3 ∧
        x.lists.memory.objects o = some y ∧ y.packets = q := by
  have hrun : (((runMemory ⟨32, 64, by decide⟩ FastInts.lp64 ⟨1, 2⟩ 3).restrict
      (MemoryOk ⟨32, 64, by decide⟩ ⟨1, 2⟩ 3)).run ⟨senderEntered, {}⟩ memoryRun).map
        (fun x => (x.run.system.pc, x.run.session.worker.pc, x.lists.memory.exited))
      = some (.idle (some true), .unwindFlag, false) := by decide +kernel
  obtain ⟨x, hx, he⟩ := Option.map_eq_some_iff.mp hrun
  obtain ⟨hpc, hw, hexit⟩ : x.run.system.pc = .idle (some true) ∧
      x.run.session.worker.pc = .unwindFlag ∧ x.lists.memory.exited = false := by simpa using he
  have hr := Machine.Runs.of_restrict hx
  obtain ⟨-, -, hleft⟩ := (run_lists (by decide) hr).2.2 hexit
  exact ⟨x, hr.run_eq, hpc, hleft (by rw [hpc]; rfl) (by rw [hw]; rfl)⟩

end
end RealTimeTransfer
