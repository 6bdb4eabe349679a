import RealTimeTransfer.Senders.Stream
import RealTimeTransfer.Systems.Discipline
import RealTimeTransfer.Systems.RunSender

/-!
# What send_before_run reports

`send_before_run` hands its list over, does not look at what `send` returned, and then asks
`is_send_done` only.  The flag is set before the first list and keeps its value when the worker
dies.

* `Told`              the session invariants behind the report, `Told.step` one step;
* `Before`            a system that is initialised, up to its first `run`;
* `Stage`             the points of a call that finds its worker alive, and of one that does not;
* `Honest`            what the value returned should mean;
* `success_iff`       the call is honest if and only if the worker lives when `send` looks for it;
* `sent_nothing`      the worker fails in its set-up, and the call returns true.
-/

namespace RealTimeTransfer
open Machines Words

/-! ## The session -/

/-- the session invariants; the bytes are told of only if `Q` makes the caller's promise -/
structure Told (A : FastInts) (Q : Prop) (s : Session) : Prop where
  inv : s.Inv
  copies : Copies s
  reported : s.data.isDone = true → s.outstanding = none
  stream : Q → Stream A s

/-- the condition of a step of the session -/
def TellOk (A : FastInts) (Q : Prop) (s : Session) (e : SessionEvent) : Prop :=
  PendingOk s e ∧ (Q → CallerOk A s e)

section
variable {A : FastInts} {Q : Prop} {zc : Bool} {s t : Session} {e : SessionEvent}

theorem told_start (h : Heap) (so : Sockets) (err : Error) : Told A Q (Session.start h so err) :=
  ⟨Session.inv_start h so err, copies_start h so err, fun _ => rfl, fun _ => stream_start h so err⟩

theorem Told.reported_step (h : Told A Q s) (hs : s.step zc A e = some t)
    (hd : t.data.isDone = true) : t.outstanding = none := by
  cases Session.step_does hs with
  | called | calledEnd | asked | told | written => exact h.reported hd
  | @ran d m hm =>
    change d.isDone = true at hd
    rcases (Sender.step_advance hm).stores with ⟨p, -, -, -, hf⟩ | ⟨-, -, -, hf⟩ | ⟨-, -, heq⟩
    · exact absurd (hd.symm.trans hf) nofun
    · exact absurd (hd.symm.trans hf) nofun
    · have hne : ∀ p, s.main.pc ≠ .sendUnlock p := fun p hp =>
        absurd ((heq.symm.trans hd).symm.trans (h.copies.handing p hp).2.1) nofun
      rw [Session.noteMain_eq hne]
      exact h.reported (heq.symm.trans hd)
  | @worked e d w hw =>
    obtain ⟨-, shake⟩ := Worker.step_handshake h.inv.sane hw
    show (if s.worker.pc = .setDone then none else s.outstanding) = none
    by_cases hpc : s.worker.pc = .setDone
    · rw [if_pos hpc]
    · rw [if_neg hpc]
      exact h.reported
        ((shake.isDone_eq fun hf => hpc (Worker.phase_finishing.mp hf)).symm.trans hd)

/-- **A step of the session.** -/
theorem Told.step (h : Told A Q s) (ho : TellOk A Q s e) (hs : s.step zc A e = some t) :
    Told A Q t :=
  ⟨h.inv.step hs, h.copies.step h.inv ho.1 hs, h.reported_step hs,
    fun hq => (h.stream hq).step h.inv (ho.2 hq) hs⟩

end

/-! ## The steps of the call -/

/-- the caller's promise for a list given to `send_before_run` -/
def RunSenderEvent.Proper (A : FastInts) : RunSenderEvent → Prop
  | .system (.sendBeforeRun l _) => ListOk A l
  | _ => True

/-- the points of `send_before_run` between its two calls of the sender -/
def SystemPc.polling : SystemPc → Bool
  | .beforeLoop | .beforeSleep _ | .beforePoll | .beforeTest => true
  | _ => false

/-- the points inside `send_before_run` -/
def SystemPc.inBefore (pc : SystemPc) : Prop :=
  pc = .beforeSend ∨ pc.polling = true ∨ pc = .beforeEnd

/-- a step of `send_before_run` -/
inductive Polls (s : RealTimeSystem) : SystemEvent → RealTimeSystem → Prop where
  | sent (an : Answer) : s.pc = .beforeSend → Polls s (.send s.listOfData an) (s.goto .beforeLoop)
  | waits {e : SystemEvent} {t : RealTimeSystem} : e = .tau ∨ (∃ n, e = .sleepMs n) →
      s.pc.polling = true → t.pc.polling = true → t.initialized = s.initialized → Polls s e t
  | polled (b : Bool) {t : RealTimeSystem} : s.pc.polling = true → t.pc.polling = true →
      t.initialized = s.initialized → Polls s (.isSendDone b) t
  | inTime : s.pc = .beforeTest → Polls s (.isSendDone true) (s.goto (.idle (some true)))
  | tooLate : s.pc = .beforeTest → Polls s (.isSendDone false) (s.goto .beforeEnd)
  | gaveUp {t : RealTimeSystem} : s.pc = .beforeEnd → t.pc = .idle (some false) →
      t.initialized = false → Polls s .endSender t

section
variable {A : FastInts} {s t : RealTimeSystem} {e : SystemEvent}

/-- **Every step of `send_before_run` is one of these.** -/
theorem RealTimeSystem.step_polls (hs : s.step A e = some t) (hp : s.pc.inBefore) :
    Polls s e t := by
  have hidle : ∀ r, s.pc ≠ .idle r := by
    intro r hr
    rw [hr] at hp
    rcases hp with hp | hp | hp <;> cases hp
  cases RealTimeSystem.step_moves hidle hs
  case sendFirst an hpc => exact .sent an hpc
  case timeUp hpc => exact .waits (.inl rfl) (by rw [hpc]; rfl) rfl rfl
  case wait hpc => exact .waits (.inl rfl) (by rw [hpc]; rfl) rfl rfl
  case waited n hpc => exact .waits (.inr ⟨n, rfl⟩) (by rw [hpc]; rfl) rfl rfl
  case polled b hpc =>
    refine .polled b (by rw [hpc]; rfl) ?_ rfl
    show (if b then SystemPc.beforeTest else .beforeLoop).polling = true
    cases b <;> rfl
  case inTime hpc => exact .inTime hpc
  case tooLate hpc => exact .tooLate hpc
  case giveUp hpc => exact .gaveUp hpc rfl rfl
  case ticked hpc | late hpc =>
    rcases hpc with hpc | hpc <;> simp [SystemPc.inBefore, SystemPc.polling, hpc] at hp
  all_goals simp_all [SystemPc.inBefore, SystemPc.polling]

theorem RealTimeSystem.step_sent {l : DataPacketsList} {an : Answer}
    (hs : s.step A (.send l an) = some t) (hpc : s.pc = .beforeSend) : t = s.goto .beforeLoop := by
  cases step_polls hs (.inl hpc)
  case sent => rfl
  case waits hp he _ _ =>
    rw [hpc] at hp
    cases hp

theorem RealTimeSystem.step_gaveUp (hs : s.step A .endSender = some t) (hpc : s.pc = .beforeEnd) :
    t.pc = .idle (some false) ∧ t.initialized = false := by
  cases step_polls hs (.inr (.inr hpc))
  case waits hp he _ _ =>
    rw [hpc] at hp
    cases hp
  case gaveUp h1 h2 => exact ⟨h1, h2⟩

/-- an object that is initialised behind a step, that is not `initialize`, was so before it -/
theorem RealTimeSystem.step_initialized (hs : s.step A e = some t)
    (he : ∀ a, e ≠ .callInitialize a) (ht : t.initialized = true) : s.initialized = true := by
  rcases call_or_moves hs with ⟨r, hpc, hs⟩ | moves
  · rcases call_initialized hs ht with ⟨a, rfl, -⟩ | ⟨-, -, -, hi, -⟩
    · exact absurd rfl (he a)
    · exact hi
  · exact (moves.initialized ht).1

end

/-! ## Up to the first run -/

/-- an object that is initialised, with a sender that no `run` has used yet -/
structure Before (A : FastInts) (a : Locals) (Q : Prop) (x : RunSender) : Prop where
  told : Told A Q x.session
  place : x.system.pc.isIdle = true ∨ x.system.pc.inBefore
  ready : x.system.pc.isIdle = true ∨ x.system.pc.polling = true →
    x.session.main.pc.isReady = true
  alive : x.system.pc ≠ .beforeEnd → x.session.main.initialized = true
  done : x.system.pc.isIdle = true ∨ x.system.pc = .beforeSend →
    x.session.main.pc.unstored = true → x.session.data.isDone = true
  sending : x.system.pc = .beforeSend → x.session.main.pc.ending = false ∧
    x.session.heap.lists a.listOfData = x.system.listOfData ∧
    (∀ p, x.session.main.pc.argument = some p → p = a.listOfData) ∧
    (Q → ListOk A x.system.listOfData)

section
variable {A : FastInts} {a : Locals} {Q : Prop} {x x' : RunSender}

theorem before_start (r : RealTimeSystem) (h : Heap) (so : Sockets) (err : Error) :
    Before A a Q (RunSender.start r h so err) :=
  ⟨told_start h so err, .inl rfl, fun _ => rfl, fun _ => rfl, fun _ _ => rfl, nofun⟩

theorem SystemPc.eq_of_idle {pc : SystemPc} (h : pc.isIdle = true) : ∃ r, pc = .idle r := by
  cases pc <;> first | exact ⟨_, rfl⟩ | cases h

theorem SenderPc.eq_of_ready {pc : SenderPc} (h : pc.isReady = true) : ∃ r, pc = .ready r := by
  cases pc <;> first | exact ⟨_, rfl⟩ | cases h

theorem Before.system (h : Before A a Q x) {e : SystemEvent} {y : RealTimeSystem} {s : Session}
    (hs : x.system.step A e = some y) (hc : ∀ b, e ≠ .callInitialize b) (hi : y.initialized = true)
    (ho : ∀ l n, e = .sendBeforeRun l n → Q → ListOk A l) (htold : Told A Q s)
    (hr : s.main.pc.isReady = true) (hm : s.main.initialized = x.session.main.initialized)
    (hd : s.data.isDone = x.session.data.isDone)
    (hread : ∀ b, e = .isSendDone b → b = s.data.isDone)
    (hl : ∀ l n, e = .sendBeforeRun l n → x.session.main.pc.isReady = true ∧
      s.heap.lists a.listOfData = l) : Before A a Q { x with system := y, session := s } := by
  have polls : y.pc.polling = true → x.session.main.initialized = true →
      Before A a Q { x with system := y, session := s } := by
    intro hp hv
    have hne : ∀ pc, y.pc = pc → pc.polling = true := fun pc hpc => hpc ▸ hp
    refine ⟨htold, .inr (.inr (.inl hp)), fun _ => hr, fun _ => hm.trans hv,
      fun hb => ?_, fun hb => ?_⟩
    · rcases hb with hb | hb
      · cases hq : y.pc <;> rw [hq] at hp <;>
          first | (cases hp; done) | (rw [show y.pc = _ from hq] at hb; cases hb)
      · cases hne _ hb
    · cases hne _ hb
  rcases h.place with hidle | hin
  · obtain ⟨r, hpc⟩ := SystemPc.eq_of_idle hidle
    rw [RealTimeSystem.step_idle hpc] at hs
    rcases RealTimeSystem.call_initialized hs hi with ⟨b, rfl, -⟩ | ⟨l, n, rfl, -, rfl⟩
    · exact absurd rfl (hc b)
    obtain ⟨hready, hlist⟩ := hl l n rfl
    refine ⟨htold, .inr (.inl rfl), nofun, fun _ => ?_, fun _ _ => ?_, fun _ => ⟨?_, hlist, ?_, ?_⟩⟩
    · exact hm.trans (h.alive (by rw [hpc]; nofun))
    · exact hd.trans (h.done (.inl hidle) (SenderPc.unstored_of_ready hready))
    · obtain ⟨v, hv⟩ := SenderPc.eq_of_ready hr
      show s.main.pc.ending = false
      rw [hv]
      rfl
    · obtain ⟨v, hv⟩ := SenderPc.eq_of_ready hr
      intro p hp
      rw [show s.main.pc.argument = none by rw [hv]; rfl] at hp
      cases hp
    · exact ho l n rfl
  · cases RealTimeSystem.step_polls hs hin
    case sent an hpc => exact polls rfl (h.alive (by rw [hpc]; nofun))
    case waits hp _ hp' _ => exact polls hp' (h.alive (by intro hb; rw [hb] at hp; cases hp))
    case polled _ hp hp' _ => exact polls hp' (h.alive (by intro hb; rw [hb] at hp; cases hp))
    case inTime hpc =>
      refine ⟨htold, .inl rfl, fun _ => hr, fun _ => ?_, fun _ _ => (hread true rfl).symm, nofun⟩
      exact hm.trans (h.alive (by rw [hpc]; nofun))
    case tooLate hpc =>
      refine ⟨htold, .inr (.inr (.inr rfl)), fun _ => hr, fun hn => absurd rfl hn, ?_, nofun⟩
      rintro (hb | hb) <;> cases hb
    case gaveUp hf => cases hf.symm.trans hi

theorem Sender.step_initialized {zc : Bool} {d d' : SenderWorkerData} {m m' : Sender}
    (hs : m.step zc d = some (d', m')) (he : m.pc.ending = false) :
    m'.initialized = m.initialized := by
  unfold Sender.step at hs
  split at hs
  case h_1 => cases hs
  case h_7 =>
    obtain ⟨l, -, heq⟩ := Option.map_eq_some_iff.mp hs
    cases heq
    rfl
  case h_10 hpc | h_11 hpc | h_12 hpc | h_13 hpc | h_14 hpc | h_15 hpc | h_16 hpc | h_17 hpc =>
    rw [hpc] at he
    cases he
  all_goals
    obtain rfl := (Prod.mk.inj (Option.some.inj hs)).2
    first
    | rfl
    | split <;> rfl

theorem Before.inside (h : Before A a Q x) (hr : x.session.main.pc.isReady = false) :
    x.system.pc = .beforeSend ∨ x.system.pc = .beforeEnd := by
  have hno : ¬ (x.system.pc.isIdle = true ∨ x.system.pc.polling = true) := fun hp =>
    absurd ((h.ready hp).symm.trans hr) nofun
  rcases h.place with hp | hp | hp | hp
  · exact absurd (.inl hp) hno
  · exact .inl hp
  · exact absurd (.inr hp) hno
  · exact .inr hp

theorem RunSender.returned_before {y : RunSender} {t : Session} {r : Option Bool}
    (hf : x.finish A t = some y) (hr : t.main.pc = .ready r) (hpc : x.system.pc ≠ .send) :
    x.system.step A (RunSender.result x.system r t.main.errorHandler.getError) = some y.system ∧
      y = { x with system := y.system, session := t } := by
  unfold RunSender.finish RunSender.finishOf at hf
  rw [hr] at hf
  obtain ⟨z, hz, hf⟩ := Option.bind_eq_some_iff.mp hf
  rw [if_pos hpc] at hf
  cases hf
  exact ⟨hz, rfl⟩

theorem RunSender.going_on {y : RunSender} {t : Session} (hf : x.finish A t = some y)
    (hr : t.main.pc.isReady = false) : y = { x with session := t } := by
  rcases RunSender.finish_cases hf with ⟨-, hy⟩ | ⟨r, -, -, hv, -⟩
  · exact hy
  · rw [hv] at hr
    cases hr

theorem Before.not_send (h : Before A a Q x) : x.system.pc ≠ .send := by
  intro hb
  rcases h.place with hp | hp | hp | hp <;> rw [hb] at hp <;> cases hp

theorem Before.not_ending (h : Before A a Q x) : ¬ ∃ r, x.system.pc = .ending r := by
  rintro ⟨r, hb⟩
  rcases h.place with hp | hp | hp | hp <;> rw [hb] at hp <;> cases hp

theorem Before.main (h : Before A a Q x) (hs : x.step A a .main = some x')
    (hi : x'.system.initialized = true) : Before A a Q x' := by
  obtain ⟨d, m, hm, hsess, hf⟩ := RunSender.step_main hs
  have hok : TellOk A Q x.session .main := ⟨trivial, fun _ => trivial⟩
  have htold := h.told.step hok hsess
  have adv := Sender.step_advance hm
  have hin := h.inside adv.not_ready
  have hkeep : x.system.pc = .beforeSend → m.initialized = x.session.main.initialized := fun hp =>
    Sender.step_initialized hm (h.sending hp).1
  cases hr : m.pc.isReady with
  | false =>
    obtain rfl := RunSender.going_on hf hr
    have hnot : ¬ (x.system.pc.isIdle = true ∨ x.system.pc.polling = true) := by
      rcases hin with hp | hp <;> rw [hp] <;> rintro (hb | hb) <;> cases hb
    refine ⟨htold, h.place, fun hp => absurd hp hnot, fun hp => ?_, fun hp hu => ?_, fun hp => ?_⟩
    · exact (hkeep (hin.resolve_right hp)).trans (h.alive hp)
    · obtain ⟨hu', hd⟩ := adv.unstored_of hr hu
      exact hd.trans (h.done hp hu')
    · obtain ⟨he, hlist, harg, hok⟩ := h.sending hp
      refine ⟨(adv.ending_eq hr).trans he, ?_, fun p hp => harg p (adv.argument_eq hp), hok⟩
      show x.session.noteMain.heap.lists a.listOfData = _
      rw [Session.noteMain_heap]
      exact hlist
  | true =>
    obtain ⟨r, hv⟩ := SenderPc.eq_of_ready hr
    obtain ⟨hy, hx⟩ := RunSender.returned_before hf hv h.not_send
    unfold RunSender.result at hy
    rcases hin with hp | hp
    · rw [hp] at hy
      have hdone : d.isDone = x.session.data.isDone := by
        rcases adv.stores with ⟨p, -, hpc, -⟩ | ⟨-, hpc, -⟩ | ⟨-, -, hd⟩
        · cases hv.symm.trans hpc
        · cases hv.symm.trans hpc
        · exact hd
      rw [hx]
      exact h.system hy nofun hi nofun htold hr (hkeep hp) hdone nofun nofun
    · rw [hp] at hy
      exact absurd ((RealTimeSystem.step_gaveUp hy hp).2.symm.trans hi) nofun

/-- the assignment of a list to `list_of_data`, the only one, finds the worker with no list -/
theorem Before.assign (h : Before A a Q x) {e : SystemEvent} {y : RealTimeSystem}
    (hs : x.system.step A e = some y) (hc : ∀ b, e ≠ .callInitialize b) (hi : y.initialized = true)
    (hr : x.session.main.pc.isReady = true) :
    TellOk A Q x.session (.write (a.assign x.session.heap e)) := by
  rcases h.place with hidle | hin
  · obtain ⟨r, hpc⟩ := SystemPc.eq_of_idle hidle
    have hdone := h.done (.inl hidle) (SenderPc.unstored_of_ready hr)
    refine ⟨fun p hp => ?_, fun _ p hp => ?_⟩
    · have hnone := (h.told.inv.control.handOk.done hdone).1
      cases hp.symm.trans hnone
    · cases hp.symm.trans (h.told.reported hdone)
  · have heap : a.assign x.session.heap e = x.session.heap := by
      cases RealTimeSystem.step_polls hs hin
      case waits _ he _ _ =>
        rcases he with rfl | ⟨n, rfl⟩ <;> rfl
      all_goals rfl
    rw [heap]
    exact ⟨fun _ _ => rfl, fun _ _ _ => ⟨rfl, fun _ _ _ _ _ => rfl⟩⟩

/-- **Every step of an initialised object.** -/
theorem Before.step (h : Before A a Q x) {e : RunSenderEvent} (ho : Q → e.Proper A)
    (hs : x.step A a e = some x') (hi : x'.system.initialized = true) : Before A a Q x' := by
  cases e with
  | system e =>
    obtain ⟨hl, y, hy, hr, hsess, rfl⟩ := RunSender.step_system hs
    have hc : ∀ b, e ≠ .callInitialize b := by
      rintro b rfl
      cases hl
    have htold := h.told.step (h.assign hy hc hi hr) hsess
    refine h.system hy hc hi ?_ htold hr rfl rfl ?_ ?_
    · rintro l n rfl hq
      exact ho hq
    · rintro b rfl
      cases hl
    · rintro l n rfl
      exact ⟨hr, Function.update_self ..⟩
  | isSendDone b =>
    obtain ⟨y, hy, hr, hb, -, rfl⟩ := RunSender.step_isSendDone hs
    refine h.system hy nofun hi nofun h.told hr rfl rfl (fun b' hb' => ?_) nofun
    cases hb'
    exact hb
  | enter =>
    rcases RunSender.step_enter hs with ⟨p, hp, hr, hsess, rfl⟩ | ⟨hp, hr, hsess, rfl⟩
    · obtain ⟨hpc, rfl⟩ := hp.resolve_left fun hb => h.not_send hb.1
      obtain ⟨-, hlist, -, hlok⟩ := h.sending hpc
      have hok : TellOk A Q x.session (.callSend a.listOfData) :=
        ⟨trivial, fun hq => show ListOk A (x.session.heap.lists a.listOfData) from by
          rw [hlist]; exact hlok hq⟩
      refine ⟨h.told.step hok hsess, h.place, fun hp => ?_, h.alive, fun hp _ => ?_,
        fun _ => ⟨rfl, hlist, ?_, hlok⟩⟩
      · change x.system.pc.isIdle = true ∨ x.system.pc.polling = true at hp
        rw [hpc] at hp
        rcases hp with hp | hp <;> cases hp
      · exact h.done hp (SenderPc.unstored_of_ready hr)
      · intro p hp
        exact (Option.some.inj hp).symm
    · have hpc : x.system.pc = .beforeEnd := hp.resolve_right fun hb => h.not_ending hb
      have hok : TellOk A Q x.session .callEndSender := ⟨trivial, fun _ => trivial⟩
      refine ⟨h.told.step hok hsess, h.place, fun hp => ?_, h.alive, nofun, fun hp => ?_⟩
      · change x.system.pc.isIdle = true ∨ x.system.pc.polling = true at hp
        rw [hpc] at hp
        rcases hp with hp | hp <;> cases hp
      · cases hpc.symm.trans hp
  | main => exact h.main hs hi
  | worker e =>
    obtain ⟨d, w, hw, hsess, rfl⟩ := RunSender.step_worker hs
    have hok : TellOk A Q x.session (.worker e) := ⟨trivial, fun _ => trivial⟩
    have htold := h.told.step hok hsess
    have keeps : x.session.data.isDone = true → d.isDone = true :=
      (Worker.step_handshake h.told.inv.sane hw).2.isDone_of
    exact ⟨htold, h.place, h.ready, h.alive, fun hp hu => keeps (h.done hp hu), h.sending⟩

/-- what a step of the whole is to the system; an answer of `is_send_done` is the flag -/
theorem RunSender.system_step {e : RunSenderEvent} (hs : x.step A a e = some x') :
    x'.system = x.system ∨ ∃ f, ((∀ b, f ≠ .callInitialize b) ∧
      ∀ b, f = .isSendDone b → b = x'.session.data.isDone) ∧
        x.system.step A f = some x'.system := by
  cases e with
  | system e =>
    obtain ⟨hl, y, hy, -, -, rfl⟩ := step_system hs
    refine .inr ⟨e, ⟨?_, ?_⟩, hy⟩
    · rintro b rfl
      cases hl
    · rintro b rfl
      cases hl
  | isSendDone b =>
    obtain ⟨y, hy, -, hb, -, rfl⟩ := step_isSendDone hs
    refine .inr ⟨.isSendDone b, ⟨nofun, fun b' hb' => ?_⟩, hy⟩
    exact (SystemEvent.isSendDone.inj hb').symm.trans hb
  | enter =>
    rcases step_enter hs with ⟨-, -, -, -, rfl⟩ | ⟨-, -, -, rfl⟩ <;> exact .inl rfl
  | main =>
    obtain ⟨d, m, -, -, hf⟩ := step_main hs
    rcases RunSender.finish_cases hf with ⟨-, rfl⟩ | ⟨r, y, s', -, hy, -, -, -, hx⟩
    · exact .inl rfl
    · have hy' : x'.system = y := by
        rcases hx with ⟨-, -, rfl⟩ | ⟨-, rfl⟩ <;> rfl
      refine .inr ⟨_, ⟨fun b hb => ?_, fun b hb => ?_⟩, hy'.symm ▸ hy⟩
      · rcases RunSender.result_cases x.system r _ with ⟨l, an, hl⟩ | hl <;> cases hl.symm.trans hb
      · rcases RunSender.result_cases x.system r _ with ⟨l, an, hl⟩ | hl <;> cases hl.symm.trans hb
  | worker e =>
    obtain ⟨-, -, -, -, rfl⟩ := step_worker hs
    exact .inl rfl

theorem RunSender.step_initialized {e : RunSenderEvent} (hs : x.step A a e = some x')
    (hi : x'.system.initialized = true) : x.system.initialized = true := by
  rcases RunSender.system_step hs with heq | ⟨f, ⟨hf, -⟩, hstep⟩
  · rw [← heq]
    exact hi
  · exact RealTimeSystem.step_initialized hstep hf hi

/-- **The object as `initialize` has left it**, after any steps that leave it initialised. -/
theorem before_run {r : RealTimeSystem} {h : Heap} {so : Sockets} {err : Error}
    {es : List RunSenderEvent} (hr : (runSender A a).run (RunSender.start r h so err) es = some x)
    (hq : Q → ∀ e ∈ es, e.Proper A) (hi : x.system.initialized = true) : Before A a Q x := by
  have runs : (runSender A a).Runs (fun _ e => Q → e.Proper A) (RunSender.start r h so err) es x :=
    Machine.Runs.of_run hr fun e he _ q => hq q e he
  have inv : x.system.initialized = true → Before A a Q x :=
    runs.keeps (fun v => v.system.initialized = true → Before A a Q v)
      (fun _ => before_start r h so err) fun v e v' hv ho hs hi' =>
        (hv (RunSender.step_initialized hs hi')).step ho hs hi'
  exact inv hi

end
/-! ## One call -/

/-- the points of `send` behind a test that has found the worker gone -/
def SenderPc.failing : SenderPc → Bool
  | .sendErrorTest | .sendErrorCode => true
  | _ => false

theorem SenderPc.unstored_of_failing {pc : SenderPc} (h : pc.failing = true) :
    pc.unstored = true := by
  cases pc <;> first | rfl | cases h

/-- the point of `send` at which it tests `is_terminated_thread` -/
def SenderPc.testing : SenderPc → Bool
  | .sendTermTest _ => true
  | _ => false

theorem SenderPc.not_testing_of_ending {pc : SenderPc} (h : pc.ending = true) :
    pc.testing = false := by
  cases pc <;> first | rfl | cases h

/-- where `send` tests `is_terminated_thread`, the worker has not terminated -/
def AliveAt (x : RunSender) (e : RunSenderEvent) : Prop :=
  e = .main → x.session.main.pc.testing = true → x.session.data.isTerminatedThread = false

instance (x : RunSender) (e : RunSenderEvent) : Decidable (AliveAt x e) :=
  inferInstanceAs (Decidable (_ → _ → _))

/-- `end_sender` is due or under way -/
structure Leaving (s : Session) : Prop where
  place : s.main.pc.isReady = true ∨ s.main.pc.ending = true
  marked : s.main.pc.ending = true → s.main.pc ≠ .endMark → s.main.initialized = false
  gone : s.main.pc = .endClose → s.data.isTerminatedThread = true

/-- the sender has been ended -/
structure Ended (s : Session) : Prop where
  initialized : s.main.initialized = false
  server : s.main.sockets.serverSockFd = -1
  client : s.main.sockets.clientSockFd = -1
  gone : s.data.isTerminatedThread = true

/-- a call for the list `l`, with the lists `acc` accepted before it; `true` as long as its `send`
has not found the worker gone -/
inductive Stage (acc : List DataPacketsList) (l : DataPacketsList) (x : RunSender) :
    Bool → Prop where
  | sending : x.system.pc = .beforeSend → x.system.listOfData = l → x.session.accepted = acc →
      x.session.main.pc.failing = false → Stage acc l x true
  | refused : x.system.pc = .beforeSend → x.session.accepted = acc →
      x.session.main.pc.failing = true → Stage acc l x false
  | polling : x.system.pc.polling = true → x.session.accepted = acc ++ [l] → Stage acc l x true
  | fooled : x.system.pc.polling = true → x.session.accepted = acc →
      x.session.data.isDone = true → Stage acc l x false
  | ending : x.system.pc = .beforeEnd → x.session.accepted = acc ++ [l] → Leaving x.session →
      Stage acc l x true
  | sent : x.system.pc = .idle (some true) → x.session.accepted = acc ++ [l] →
      x.session.data.isDone = true → Stage acc l x true
  | lied : x.system.pc = .idle (some true) → x.session.accepted = acc → Stage acc l x false
  | ended : x.system.pc = .idle (some false) → x.system.initialized = false → Ended x.session →
      Stage acc l x true

section
variable {zc : Bool} {A : FastInts} {a : Locals} {Q : Prop} {x x' : RunSender} {s : Session}
  {d d' : SenderWorkerData} {m m' : Sender} {pc pc' : SenderPc} {acc : List DataPacketsList}
  {l : DataPacketsList} {live : Bool}

/-- `send` comes to its refusal behind its test of `is_terminated_thread` only -/
theorem Advance.failing_iff (h : Advance d pc d' pc') (hf : pc.failing = false)
    (hr : pc'.isReady = false) :
    pc'.failing = true ↔ pc.testing = true ∧ d.isTerminatedThread = true := by
  cases h
  case refused => cases hr
  case dead p ht => exact ⟨fun _ => ⟨rfl, ht⟩, fun _ => rfl⟩
  case alive p ht => exact ⟨nofun, fun h => absurd (ht.symm.trans h.2) nofun⟩
  case failed => cases hf
  all_goals exact ⟨nofun, fun h => absurd h.1 nofun⟩

theorem Advance.of_failing (h : Advance d pc d' pc') (hf : pc.failing = true) :
    d' = d ∧ (pc'.failing = true ∨ pc' = .ready (some false)) := by
  cases h
  case refused => exact ⟨rfl, .inr rfl⟩
  case failed => exact ⟨rfl, .inl rfl⟩
  all_goals cases hf

theorem Sender.step_refused (hs : m.step zc d = some (d', m')) (hr : m'.pc = .ready (some false)) :
    m.pc.failing = true ∨ (∃ p, m.pc = .sendInit p ∧ m.initialized = false) ∨
      ∃ p, m.pc = .sendDoneTest p ∧ d.isDone = false := by
  unfold Sender.step at hs
  split at hs
  case h_2 p hpc =>
    cases hi : m.initialized
    · exact .inr (.inl ⟨p, hpc, rfl⟩)
    · rw [hi, if_pos rfl] at hs
      cases hs
      cases hr
  case h_6 p hpc =>
    cases hd : d.isDone
    · exact .inr (.inr ⟨p, hpc, rfl⟩)
    · rw [hd, if_pos rfl] at hs
      cases hs
      cases hr
  case h_4 hpc | h_5 hpc => exact .inl (by rw [hpc]; rfl)
  case h_1 => cases hs
  case h_7 =>
    obtain ⟨l, -, heq⟩ := Option.map_eq_some_iff.mp hs
    cases heq
    cases hr
  case h_13 =>
    obtain ⟨l, -, heq⟩ := Option.map_eq_some_iff.mp hs
    cases heq
    cases hr
  all_goals
    cases hs
    first
    | cases hr
    | (split at hr <;> cases hr)

theorem Sockets.closeSockets_fds (s : Sockets) :
    s.closeSockets.serverSockFd = -1 ∧ s.closeSockets.clientSockFd = -1 := by
  unfold Sockets.closeSockets Sockets.dropServer Sockets.dropClient Sockets.closeServer
    Sockets.closeClient
  by_cases h1 : s.serverSockFd = -1 <;> by_cases h2 : s.clientSockFd = -1 <;> simp [h1, h2]

/-- `end_sender` clears `initialized_` first and the sockets last -/
theorem Sender.step_ending (hs : m.step zc d = some (d', m')) (he : m.pc.ending = true) :
    (m.pc ≠ .endMark → m'.initialized = m.initialized) ∧
      (m.pc = .endMark → m'.initialized = false) ∧
      (m.pc = .endClose → d' = d ∧ m'.sockets = m.sockets.closeSockets) := by
  unfold Sender.step at hs
  split at hs
  case h_10 hpc => cases hs; exact ⟨fun hn => absurd hpc hn, fun _ => rfl, by rw [hpc]; nofun⟩
  case h_17 hpc => cases hs; exact ⟨fun _ => rfl, by rw [hpc]; nofun, fun _ => ⟨rfl, rfl⟩⟩
  case h_13 hpc =>
    obtain ⟨l, -, heq⟩ := Option.map_eq_some_iff.mp hs
    cases heq
    exact ⟨fun _ => rfl, by rw [hpc]; nofun, by rw [hpc]; nofun⟩
  case h_11 hpc | h_12 hpc | h_14 hpc | h_15 hpc | h_16 hpc =>
    cases hs
    exact ⟨fun _ => rfl, by rw [hpc]; nofun, by rw [hpc]; nofun⟩
  all_goals
    rename_i hpc
    rw [hpc] at he
    cases he

theorem Leaving.main (h : Leaving s) (hs : s.main.step zc s.data = some (d, m)) :
    (m.pc.isReady = false → Leaving { s.noteMain with data := d, main := m }) ∧
      (m.pc.isReady = true → Ended { s.noteMain with data := d, main := m }) := by
  have adv := Sender.step_advance hs
  have he : s.main.pc.ending = true :=
    h.place.resolve_left fun hr => absurd (hr.symm.trans adv.not_ready) nofun
  obtain ⟨keep, mark, close⟩ := Sender.step_ending hs he
  have hinit : m.initialized = false := by
    by_cases hp : s.main.pc = .endMark
    · exact mark hp
    · exact (keep hp).trans (h.marked he hp)
  refine ⟨fun hr => ⟨.inr ((adv.ending_eq hr).trans he), fun _ _ => hinit, fun hp => ?_⟩,
    fun hr => ?_⟩
  · change m.pc = .endClose at hp
    have hflag := adv.flags.1
    rw [hp] at adv
    exact hflag.trans adv.of_endClose.2
  · have hclose : s.main.pc = .endClose := by
      rcases adv.of_ending he with he' | hp
      · obtain ⟨r, hv⟩ := SenderPc.eq_of_ready hr
        rw [hv] at he'
        cases he'
      · exact hp
    obtain ⟨hd, hsock⟩ := close hclose
    obtain ⟨h1, h2⟩ := Sockets.closeSockets_fds s.main.sockets
    refine ⟨hinit, ?_, ?_, ?_⟩
    · show m.sockets.serverSockFd = -1
      rw [hsock, h1]
    · show m.sockets.clientSockFd = -1
      rw [hsock, h2]
    · show d.isTerminatedThread = true
      rw [hd]
      exact h.gone hclose

theorem Advance.of_ready {r : Option Bool} (h : Advance d pc d' (.ready r)) :
    (∃ p, pc = .sendUnlock p) ∨ pc = .endClose ∨ r = some false := by
  cases h
  case refused => exact .inr (.inr rfl)
  case sendUnlock p => exact .inl ⟨p, rfl⟩
  case close => exact .inr (.inl rfl)

theorem Stage.of_sending (h : Stage acc l x live) (hpc : x.system.pc = .beforeSend) :
    x.session.accepted = acc ∧
      ((live = true ∧ x.system.listOfData = l ∧ x.session.main.pc.failing = false) ∨
        (live = false ∧ x.session.main.pc.failing = true)) := by
  cases h
  case sending _ hl hacc hf => exact ⟨hacc, .inl ⟨rfl, hl, hf⟩⟩
  case refused _ hacc hf => exact ⟨hacc, .inr ⟨rfl, hf⟩⟩
  case polling hp _ | fooled hp _ _ =>
    rw [hpc] at hp
    cases hp
  case ending hp _ _ | sent hp _ _ | lied hp _ | ended hp _ _ => cases hpc.symm.trans hp

theorem Stage.of_polling (h : Stage acc l x live) (hpc : x.system.pc.polling = true) :
    (live = true ∧ x.session.accepted = acc ++ [l]) ∨
      (live = false ∧ x.session.accepted = acc ∧ x.session.data.isDone = true) := by
  cases h
  case polling _ hacc => exact .inl ⟨rfl, hacc⟩
  case fooled _ hacc hd => exact .inr ⟨rfl, hacc, hd⟩
  case sending hp _ _ _ | refused hp _ _ | ending hp _ _ | sent hp _ _ | lied hp _ | ended hp _ _ =>
    rw [hp] at hpc
    cases hpc

theorem Stage.of_ending (h : Stage acc l x live) (hpc : x.system.pc = .beforeEnd) :
    live = true ∧ x.session.accepted = acc ++ [l] ∧ Leaving x.session := by
  cases h
  case ending _ hacc hl => exact ⟨rfl, hacc, hl⟩
  case polling hp _ | fooled hp _ _ =>
    rw [hpc] at hp
    cases hp
  case sending hp _ _ _ | refused hp _ _ | sent hp _ _ | lied hp _ | ended hp _ _ =>
    cases hpc.symm.trans hp

theorem Stage.system (h : Stage acc l x live) {e : SystemEvent} {y : RealTimeSystem}
    (hin : x.system.pc.inBefore) (hs : x.system.step A e = some y)
    (hacc : s.accepted = x.session.accepted) (hd : s.data.isDone = x.session.data.isDone)
    (hr : s.main.pc.isReady = true) (hread : ∀ b, e = .isSendDone b → b = s.data.isDone)
    (he : (∀ l an, e ≠ .send l an) ∧ e ≠ .endSender) :
    Stage acc l { x with system := y, session := s } live := by
  have polls : x.system.pc.polling = true → y.pc.polling = true →
      Stage acc l { x with system := y, session := s } live := by
    intro hp hp'
    rcases h.of_polling hp with ⟨rfl, h1⟩ | ⟨rfl, h1, h2⟩
    · exact .polling hp' (hacc.trans h1)
    · exact .fooled hp' (hacc.trans h1) (hd.trans h2)
  cases RealTimeSystem.step_polls hs hin
  case sent an hpc => exact absurd rfl (he.1 _ an)
  case gaveUp => exact absurd rfl he.2
  case waits hp _ hp' _ => exact polls hp hp'
  case polled _ hp hp' _ => exact polls hp hp'
  case inTime hpc =>
    rcases h.of_polling (by rw [hpc]; rfl) with ⟨rfl, h1⟩ | ⟨rfl, h1, -⟩
    · exact .sent rfl (hacc.trans h1) (hread true rfl).symm
    · exact .lied rfl (hacc.trans h1)
  case tooLate hpc =>
    rcases h.of_polling (by rw [hpc]; rfl) with ⟨rfl, h1⟩ | ⟨rfl, -, h2⟩
    · refine .ending rfl (hacc.trans h1) ⟨.inl hr, fun hn => ?_, fun hn => ?_⟩
      · obtain ⟨v, hv⟩ := SenderPc.eq_of_ready hr
        rw [show s.main.pc = _ from hv] at hn
        cases hn
      · rw [show s.main.pc = _ from hn] at hr
        cases hr
    · exact absurd ((hread false rfl).trans (hd.trans h2)) nofun

/-- `send` with the flag set and the worker there accepts its list -/
theorem Before.accepts (h : Before A a Q x) (hpc : x.system.pc = .beforeSend)
    (hf : x.session.main.pc.failing = false) {r : Option Bool}
    (hm : x.session.main.step zc x.session.data = some (d, m)) (hr : m.pc = .ready r) :
    x.session.main.pc = .sendUnlock a.listOfData := by
  obtain ⟨he, -, harg, -⟩ := h.sending hpc
  have adv := Sender.step_advance hm
  rw [hr] at adv
  rcases adv.of_ready with ⟨p, hp⟩ | hp | rfl
  · rw [hp, harg p (by rw [hp]; rfl)]
  · rw [hp] at he
    cases he
  · exfalso
    rcases Sender.step_refused hm hr with hp | ⟨p, hp, hi⟩ | ⟨p, hp, hd⟩
    · exact absurd (hf.symm.trans hp) nofun
    · exact absurd (hi.symm.trans (h.alive (by rw [hpc]; nofun))) nofun
    · exact absurd (hd.symm.trans (h.done (.inr hpc) (by rw [hp]; rfl))) nofun

theorem Stage.send_main (h : Stage acc l x live) (hb : Before A a Q x)
    (hpc : x.system.pc = .beforeSend)
    (hs : x.step A a .main = some x') :
    ∃ live', Stage acc l x' live' ∧ (live' = true ↔ live = true ∧ AliveAt x .main) := by
  obtain ⟨d, m, hm, -, hf⟩ := RunSender.step_main hs
  have adv := Sender.step_advance hm
  obtain ⟨hacc, hstage⟩ := h.of_sending hpc
  cases hr : m.pc.isReady with
  | false =>
    have hx := RunSender.going_on hf hr
    have hne : ∀ p, x.session.main.pc ≠ .sendUnlock p := by
      intro p hp
      rw [hp] at adv
      rw [adv.of_sendUnlock] at hr
      cases hr
    rw [Session.noteMain_eq hne] at hx
    subst hx
    rcases hstage with ⟨rfl, hl, hfail⟩ | ⟨rfl, hfail⟩
    · have hiff := adv.failing_iff hfail hr
      cases hfail' : m.pc.failing with
      | true =>
        obtain ⟨hp, ht⟩ := hiff.mp hfail'
        refine ⟨false, .refused hpc hacc hfail', nofun, fun hn => ?_⟩
        exact absurd (ht.symm.trans (hn.2 rfl hp)) nofun
      | false =>
        refine ⟨true, .sending hpc hl hacc hfail', fun _ => ⟨rfl, fun _ hp => ?_⟩, fun _ => rfl⟩
        cases ht : x.session.data.isTerminatedThread with
        | false => rfl
        | true => exact absurd (hfail'.symm.trans (hiff.mpr ⟨hp, ht⟩)) nofun
    · rcases (adv.of_failing hfail).2 with hfail' | hv
      · exact ⟨false, .refused hpc hacc hfail', nofun, fun hn => absurd hn.1 nofun⟩
      · rw [hv] at hr
        cases hr
  | true =>
    obtain ⟨r, hv⟩ := SenderPc.eq_of_ready hr
    obtain ⟨hy, hx⟩ := RunSender.returned_before hf hv (by rw [hpc]; nofun)
    have hplace : x'.system.pc.polling = true := by
      unfold RunSender.result at hy
      rw [hpc] at hy
      rw [RealTimeSystem.step_sent hy hpc]
      rfl
    rw [hx]
    rcases hstage with ⟨rfl, hl, hfail⟩ | ⟨rfl, hfail⟩
    · have hp := hb.accepts hpc hfail hm hv
      refine ⟨true, .polling hplace ?_, fun _ => ⟨rfl, fun _ hp' => ?_⟩, fun _ => rfl⟩
      · show x.session.noteMain.accepted = acc ++ [l]
        rw [Session.noteMain_unlock hp]
        show x.session.accepted ++ [x.session.heap.lists a.listOfData] = acc ++ [l]
        rw [hacc, (hb.sending hpc).2.1, hl]
      · rw [hp] at hp'
        cases hp'
    · have hne : ∀ p, x.session.main.pc ≠ .sendUnlock p := by
        intro p hp
        rw [hp] at hfail
        cases hfail
      refine ⟨false, .fooled hplace ?_ ?_, nofun, fun hn => absurd hn.1 nofun⟩
      · show x.session.noteMain.accepted = acc
        rw [Session.noteMain_eq hne, hacc]
      · show d.isDone = true
        rw [(adv.of_failing hfail).1]
        exact hb.done (.inr hpc) (SenderPc.unstored_of_failing hfail)

theorem Stage.end_main (h : Stage acc l x live) (hpc : x.system.pc = .beforeEnd)
    (hs : x.step A a .main = some x') : live = true ∧ Stage acc l x' true ∧ AliveAt x .main := by
  obtain ⟨d, m, hm, -, hf⟩ := RunSender.step_main hs
  obtain ⟨rfl, hacc, leaving⟩ := h.of_ending hpc
  obtain ⟨hgo, hend⟩ := leaving.main hm
  have he : x.session.main.pc.ending = true :=
    leaving.place.resolve_left fun hr =>
      absurd (hr.symm.trans (Sender.step_advance hm).not_ready) nofun
  have hne : ∀ p, x.session.main.pc ≠ .sendUnlock p := by
    intro p hp
    rw [hp] at he
    cases he
  refine ⟨rfl, ?_, fun _ hp => absurd (hp.symm.trans (SenderPc.not_testing_of_ending he)) nofun⟩
  cases hr : m.pc.isReady with
  | false =>
    obtain rfl := RunSender.going_on hf hr
    refine .ending hpc ?_ (hgo hr)
    show x.session.noteMain.accepted = acc ++ [l]
    rw [Session.noteMain_eq hne, hacc]
  | true =>
    obtain ⟨r, hv⟩ := SenderPc.eq_of_ready hr
    obtain ⟨hy, hx⟩ := RunSender.returned_before hf hv (by rw [hpc]; nofun)
    unfold RunSender.result at hy
    rw [hpc] at hy
    rw [hx]
    obtain ⟨hidle, hi⟩ := RealTimeSystem.step_gaveUp hy hpc
    exact .ended hidle hi (hend hr)

/-- **A step of the call.** -/
theorem Stage.step (h : Stage acc l x live) (hb : Before A a Q x) (hin : x.system.pc.isIdle = false)
    {e : RunSenderEvent} (hs : x.step A a e = some x') :
    ∃ live', Stage acc l x' live' ∧ (live' = true ↔ live = true ∧ AliveAt x e) := by
  have hplace := hb.place.resolve_left fun hi => absurd (hi.symm.trans hin) nofun
  have same : e ≠ .main → Stage acc l x' live →
      ∃ live', Stage acc l x' live' ∧ (live' = true ↔ live = true ∧ AliveAt x e) :=
    fun he hst => ⟨live, hst, fun hl => ⟨hl, fun hm => absurd hm he⟩, fun hl => hl.1⟩
  cases e with
  | system e =>
    refine same nofun ?_
    obtain ⟨hl, y, hy, hr, -, rfl⟩ := RunSender.step_system hs
    refine h.system hplace hy rfl rfl hr ?_ ⟨?_, ?_⟩
    · rintro b rfl
      cases hl
    · rintro l an rfl
      cases hl
    · rintro rfl
      cases hl
  | isSendDone b =>
    refine same nofun ?_
    obtain ⟨y, hy, hr, hread, -, rfl⟩ := RunSender.step_isSendDone hs
    refine h.system hplace hy rfl rfl hr ?_ ⟨nofun, nofun⟩
    rintro b' hb'
    cases hb'
    exact hread
  | enter =>
    refine same nofun ?_
    rcases RunSender.step_enter hs with ⟨p, hp, hr, -, rfl⟩ | ⟨hp, -, -, rfl⟩
    · obtain ⟨hpc, -⟩ := hp.resolve_left fun hn => hb.not_send hn.1
      obtain ⟨v, hv⟩ := SenderPc.eq_of_ready hr
      obtain ⟨hacc, ⟨rfl, hl, -⟩ | ⟨-, hf⟩⟩ := h.of_sending hpc
      · exact .sending hpc hl hacc rfl
      · rw [hv] at hf
        cases hf
    · have hpc : x.system.pc = .beforeEnd := hp.resolve_right fun hn => hb.not_ending hn
      obtain ⟨rfl, hacc, -⟩ := h.of_ending hpc
      exact .ending hpc hacc ⟨.inr rfl, fun _ hn => absurd rfl hn, nofun⟩
  | main =>
    obtain ⟨d, m, hm, -, -⟩ := RunSender.step_main hs
    rcases hb.inside (Sender.step_advance hm).not_ready with hpc | hpc
    · exact h.send_main hb hpc hs
    · obtain ⟨rfl, hst, ha⟩ := h.end_main hpc hs
      exact ⟨true, hst, fun _ => ⟨rfl, ha⟩, fun _ => rfl⟩
  | worker e =>
    refine same nofun ?_
    obtain ⟨d, w, hw, -, rfl⟩ := RunSender.step_worker hs
    have shake := (Worker.step_handshake hb.told.inv.sane hw).2
    rcases hplace with hpc | hpc | hpc
    · obtain ⟨hacc, ⟨rfl, hl, hf⟩ | ⟨rfl, hf⟩⟩ := h.of_sending hpc
      · exact .sending hpc hl hacc hf
      · exact .refused hpc hacc hf
    · rcases h.of_polling hpc with ⟨rfl, h1⟩ | ⟨rfl, h1, h2⟩
      · exact .polling hpc h1
      · exact .fooled hpc h1 (shake.isDone_of h2)
    · obtain ⟨rfl, hacc, hl⟩ := h.of_ending hpc
      refine .ending hpc hacc ⟨hl.place, hl.marked, fun hp => ?_⟩
      have hpub : x.session.worker.phase.published = true :=
        hb.told.inv.control.flagOk.flag.symm.trans (hl.gone hp)
      exact (hb.told.inv.control.handshake shake).flagOk.flag.trans (shake.published_of hpub)

end

/-! ## What the call reports -/

/-- what the value `b` that the call returned means, the lists `acc` being accepted before it; the
bytes are told of only under the caller's promise `Q` -/
structure Honest (Q : Prop) (acc : List DataPacketsList) (l : DataPacketsList) (b : Bool)
    (x : RunSender) : Prop where
  sent : b = true → x.session.accepted = acc ++ [l] ∧ x.session.copied = x.session.accepted ∧
    x.session.outstanding = none ∧ (Q → x.session.out = x.session.acceptedBytes)
  ended : b = false → Ended x.session ∧ x.system.initialized = false

/-- proper lists, in the calls so far and in this one -/
def Promised (A : FastInts) (es : List RunSenderEvent) (l : DataPacketsList) : Prop :=
  (∀ e ∈ es, e.Proper A) ∧ ListOk A l

/-- the call has not returned -/
def InCall (x : RunSender) (_ : RunSenderEvent) : Prop := x.system.pc.isIdle = false

instance (x : RunSender) (e : RunSenderEvent) : Decidable (InCall x e) :=
  inferInstanceAs (Decidable (_ = _))

/-- a call that started in `x₁`, behind the events `es` -/
structure Report (A : FastInts) (a : Locals) (Q : Prop) (acc : List DataPacketsList)
    (l : DataPacketsList) (x₁ : RunSender) (es : List RunSenderEvent) (x : RunSender) : Prop where
  run : (runSender A a).run x₁ es = some x
  place : (x.system.initialized = true ∧ Before A a Q x) ∨ x.system.pc = .idle (some false)
  stage : ∃ live, Stage acc l x live ∧ (live = true ↔ (runSender A a).Runs AliveAt x₁ es x)

section
variable {A : FastInts} {a : Locals} {Q : Prop} {x₀ x₁ x x' : RunSender}
  {acc : List DataPacketsList} {l : DataPacketsList} {es : List RunSenderEvent}

theorem RunSender.step_sendBeforeRun {n : Nat}
    (hs : x₀.step A a (.system (.sendBeforeRun l n)) = some x₁)
    (hi : x₀.system.initialized = true) :
    x₀.system.pc.isIdle = true ∧ x₁.system.pc = .beforeSend ∧ x₁.system.listOfData = l ∧
      x₁.system.initialized = true ∧ x₁.session.main.pc = x₀.session.main.pc ∧
      x₁.session.accepted = x₀.session.accepted := by
  obtain ⟨-, y, hy, -, -, rfl⟩ := RunSender.step_system hs
  obtain ⟨⟨r, hpc⟩, rfl⟩ := RealTimeSystem.step_sendBeforeRun hi hy
  exact ⟨by rw [hpc]; rfl, rfl, rfl, hi, rfl, rfl⟩

theorem Before.inCall (h : Before A a Q x) (hin : x.system.pc.isIdle = false) {e : RunSenderEvent}
    (hs : x.step A a e = some x') : e.Proper A ∧
      (x'.system.initialized = x.system.initialized ∨ x'.system.pc = .idle (some false)) := by
  have hplace := h.place.resolve_left fun hi => absurd (hi.symm.trans hin) nofun
  refine ⟨?_, ?_⟩
  · cases e
    case system f =>
      obtain ⟨-, y, hy, -, -, -⟩ := RunSender.step_system hs
      cases RealTimeSystem.step_polls hy hplace
      case waits _ he _ _ => rcases he with rfl | ⟨n, rfl⟩ <;> trivial
      all_goals trivial
    all_goals trivial
  · rcases RunSender.system_step hs with heq | ⟨f, -, hstep⟩
    · exact .inl (congrArg RealTimeSystem.initialized heq)
    · generalize x'.system = t at hstep
      cases RealTimeSystem.step_polls hstep hplace
      case sent => exact .inl rfl
      case waits _ _ _ hi => exact .inl hi
      case polled _ _ _ hi => exact .inl hi
      case inTime => exact .inl rfl
      case tooLate => exact .inl rfl
      case gaveUp hpc _ => exact .inr hpc

theorem Report.step (h : Report A a Q acc l x₁ es x) (hin : x.system.pc.isIdle = false)
    {e : RunSenderEvent} (hs : x.step A a e = some x') : Report A a Q acc l x₁ (es ++ [e]) x' := by
  obtain ⟨hi, hb⟩ : x.system.initialized = true ∧ Before A a Q x := by
    rcases h.place with hp | hp
    · exact hp
    · rw [hp] at hin
      cases hin
  obtain ⟨proper, hplace⟩ := hb.inCall hin hs
  obtain ⟨live, hst, hlive⟩ := h.stage
  obtain ⟨live', hst', hlive'⟩ := hst.step hb hin hs
  refine ⟨Machine.run_snoc h.run hs, ?_, live', hst', ?_⟩
  · rcases hplace with hp | hp
    · have hi' := hp.trans hi
      exact .inl ⟨hi', hb.step (fun _ => proper) hs hi'⟩
    · exact .inr hp
  · rw [hlive', hlive]
    exact (Machine.Runs.snoc_iff h.run hs).symm

/-- **The value that `send_before_run` returns.**  In every call on an object that `initialize` has
left initialised, behind any earlier calls: it means what it should if and only if `send` has found
the worker alive. -/
theorem success_iff {r : RealTimeSystem} {h : Heap} {so : Sockets} {err : Error}
    {es₀ : List RunSenderEvent} {n : Nat} {b : Bool}
    (h₀ : (runSender A a).run (RunSender.start r h so err) es₀ = some x₀)
    (hi : x₀.system.initialized = true)
    (hc : (runSender A a).step x₀ (.system (.sendBeforeRun l n)) = some x₁)
    (hr : (runSender A a).Runs InCall x₁ es x) (hret : x.system.pc = .idle (some b)) :
    Honest (Promised A es₀ l) x₀.session.accepted l b x ↔ (runSender A a).Runs AliveAt x₁ es x := by
  have before : Before A a (Promised A es₀ l) x₀ := before_run h₀ (fun hq => hq.1) hi
  obtain ⟨hidle, hpc, hl, hi₁, hmain, hacc⟩ := RunSender.step_sendBeforeRun hc hi
  have start : Report A a (Promised A es₀ l) x₀.session.accepted l x₁ [] x₁ := by
    obtain ⟨v, hv⟩ := SenderPc.eq_of_ready (before.ready (.inl hidle))
    have proper : Promised A es₀ l → RunSenderEvent.Proper A (.system (.sendBeforeRun l n)) :=
      fun hq => hq.2
    refine ⟨rfl, .inl ⟨hi₁, before.step proper hc hi₁⟩, true,
      .sending hpc hl hacc ?_, fun _ => .nil, fun _ => rfl⟩
    rw [hmain, hv]
    rfl
  have report : Report A a (Promised A es₀ l) x₀.session.accepted l x₁ es x :=
    hr.follows _ start fun _ _ _ _ hv hin hs => hv.step hin hs
  obtain ⟨live, hst, hlive⟩ := report.stage
  rw [← hlive]
  cases hst
  case sending hp _ _ _ | refused hp _ _ | ending hp _ _ => cases hret.symm.trans hp
  case polling hp _ | fooled hp _ _ =>
    rw [hret] at hp
    cases hp
  case sent hp hacc hd =>
    cases hret.symm.trans hp
    have told : Told A (Promised A es₀ l) x.session := by
      rcases report.place with ⟨-, hb⟩ | hn
      · exact hb.told
      · cases hn.symm.trans hp
    exact ⟨fun _ => rfl, fun _ => ⟨fun _ => ⟨hacc, told.copies.done hd, told.reported hd,
      fun hq => (told.stream hq).done hd⟩, nofun⟩⟩
  case lied hp hacc =>
    cases hret.symm.trans hp
    refine ⟨fun hh => ?_, nofun⟩
    have hlen := congrArg List.length ((hh.sent rfl).1.symm.trans hacc)
    simp at hlen
  case ended hp hf he =>
    cases hret.symm.trans hp
    exact ⟨fun _ => rfl, fun _ => ⟨nofun, fun _ => ⟨he, hf⟩⟩⟩

/-- one byte -/
def greeting : DataPacketsList := [⟨.memoryLocation, 10, 1, 0⟩]

/-- `send` accepts the list, the worker sends it and sets the flag -/
def greeted : List RunSenderEvent :=
  .enter :: List.replicate 6 .main ++ workerCopies ++
    [.worker .tau, .worker (.sent 1), .worker .tau, .worker .tau, .worker .tau, .worker .tau,
      .system .tau, .isSendDone true]

theorem success_iff_greeted :
    ∃ x₀ x₁ x, (runSender FastInts.lp64 ⟨1, 2⟩).run senderStarted [] = some x₀ ∧
      (runSender FastInts.lp64 ⟨1, 2⟩).step x₀ (.system (.sendBeforeRun greeting 0)) = some x₁ ∧
      (runSender FastInts.lp64 ⟨1, 2⟩).run x₁ greeted = some x ∧
      x.system.pc = .idle (some true) ∧ x.session.accepted = [greeting] ∧
      x.session.out = x.session.acceptedBytes := by
  have hrun : (((runSender FastInts.lp64 ⟨1, 2⟩).step senderStarted
      (.system (.sendBeforeRun greeting 0))).bind fun x₁ =>
        (((runSender FastInts.lp64 ⟨1, 2⟩).restrict fun x e => InCall x e ∧ AliveAt x e).run x₁
          greeted).map fun x => x.system.pc) = some (.idle (some true)) := by decide
  obtain ⟨x₁, h₁, hrun⟩ := Option.bind_eq_some_iff.mp hrun
  obtain ⟨x, hx, hpc⟩ := Option.map_eq_some_iff.mp hrun
  have runs := Machine.Runs.of_restrict hx
  have h₀ : (runSender FastInts.lp64 ⟨1, 2⟩).run senderStarted [] = some senderStarted := rfl
  have honest := (success_iff h₀ rfl h₁ (runs.weaken fun _ _ h => h.1) hpc).mpr
    (runs.weaken fun _ _ h => h.2)
  have promised : Promised FastInts.lp64 [] greeting := by
    refine ⟨nofun, by decide, ?_⟩
    simp [greeting, FastInts.lp64]
  obtain ⟨hacc, -, -, hout⟩ := honest.sent rfl
  exact ⟨senderStarted, x₁, x, h₀, h₁, runs.run_eq, hpc, hacc, hout promised⟩

/-- the worker fails in its set-up, before the call -/
def failedWorker : List RunSenderEvent :=
  .worker (.call false) :: List.replicate 4 (.worker .tau)

/-- `send` refuses the list, and the flag is still set -/
def refusedCall : List RunSenderEvent :=
  .enter :: List.replicate 4 .main ++ [.system .tau, .isSendDone true]

/-- the call returns true, and the sender has not accepted the list -/
theorem sent_nothing :
    ∃ x₀ x₁ x, (runSender FastInts.lp64 ⟨1, 2⟩).run senderStarted failedWorker = some x₀ ∧
      x₀.system.initialized = true ∧
      (runSender FastInts.lp64 ⟨1, 2⟩).step x₀ (.system (.sendBeforeRun greeting 0)) = some x₁ ∧
      (runSender FastInts.lp64 ⟨1, 2⟩).Runs InCall x₁ refusedCall x ∧
      x.system.pc = .idle (some true) ∧
      x.session.accepted = [] ∧ x.session.out = [] := by
  have hrun : ((runSender FastInts.lp64 ⟨1, 2⟩).run senderStarted failedWorker).bind (fun x₀ =>
      ((runSender FastInts.lp64 ⟨1, 2⟩).step x₀
        (.system (.sendBeforeRun greeting 0))).bind fun x₁ =>
        (((runSender FastInts.lp64 ⟨1, 2⟩).restrict InCall).run x₁ refusedCall).map fun x =>
          (x₀.system.initialized, x.system.pc, x.session.accepted, x.session.out))
      = some (true, .idle (some true), [], []) := by decide
  obtain ⟨x₀, h₀, hrun⟩ := Option.bind_eq_some_iff.mp hrun
  obtain ⟨x₁, h₁, hrun⟩ := Option.bind_eq_some_iff.mp hrun
  obtain ⟨x, hx, he⟩ := Option.map_eq_some_iff.mp hrun
  simp only [Prod.mk.injEq] at he
  obtain ⟨hi, hpc, ha, ho⟩ := he
  exact ⟨x₀, x₁, x, h₀, hi, h₁, .of_restrict hx, hpc, ha, ho⟩

end
end RealTimeTransfer
