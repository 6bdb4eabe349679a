import RealTimeTransfer.Senders.Worker

/-!
# The handshake of a worker with the main thread

What the rest of a sender sees of its worker is a `Phase`: whether it holds the mutex, is blocked
in the condition variable, has a list in hand, is on its way out or over.  `Handshake` lists what a
step can do to the phase and to the shared data together; it knows nothing of packets, sockets or
counters.

* `Worker.Sane`     the field `is_locked_` of `prot_lock` agrees with the point of the thread;
* `step_handshake`  every step of the code, of either sender, is a step of the handshake.
-/

namespace RealTimeTransfer
open Words Sync

inductive Phase where
  /-- before its first statement -/
  | new
  /-- without mutex and without list -/
  | free
  /-- with the mutex, before it tests the list -/
  | looking
  /-- with the mutex, the list found NULL -/
  | empty
  /-- with the mutex, no termination seen, about to block -/
  | parking
  /-- in the condition variable -/
  | blocked
  /-- with the mutex, a list found -/
  | taking
  /-- with a list in hand, `true` as long as it still holds the mutex -/
  | busy (locked : Bool)
  /-- the list in hand is finished, about to say so -/
  | finishing
  /-- in `END_THREAD_ERROR`, before it publishes its end, `true` while it still holds the mutex -/
  | closing (locked : Bool)
  /-- its end is published, one more write to come -/
  | unwinding
  /-- it writes nothing more -/
  | over
  deriving DecidableEq, Repr

/-- the phases with the mutex in hand -/
def Phase.holds : Phase → Bool
  | .looking | .empty | .parking | .taking => true
  | .busy b | .closing b => b
  | _ => false

/-- the phases with a list in hand -/
def Phase.inList : Phase → Bool
  | .busy _ | .finishing => true
  | _ => false

/-- the phases after the end has been published -/
def Phase.published : Phase → Bool
  | .unwinding | .over => true
  | _ => false

/-- the phases from the second statement on and before the exit -/
def Phase.running : Phase → Bool
  | .new | .closing _ | .unwinding | .over => false
  | _ => true

theorem Phase.not_holds_of_published {ph : Phase} (h : ph.published = true) : ph.holds = false := by
  cases ph <;> first | rfl | cases h

/-- what a step of the worker number `k` does to its phase and to the shared data -/
inductive Handshake (k : Nat) (d : SenderWorkerData) : Phase → SenderWorkerData → Phase → Prop where
  | start : Handshake k d .new { d with isTerminatedThread := false } .free
  | alive : Handshake k d .free { d with threadInitialized := true } .free
  | idle : Handshake k d .free d .free
  | quit : Handshake k d .free d (.closing false)
  | acquire : d.packetsMutex = none →
      Handshake k d .free { d with packetsMutex := some (.worker k) } .looking
  | missing : d.packetsList = none → Handshake k d .looking d .empty
  | found : d.packetsList ≠ none → Handshake k d .looking d .taking
  | stop : d.terminateThread = true → Handshake k d .empty d (.closing true)
  | stay : d.terminateThread = false → Handshake k d .empty d .parking
  | park : Handshake k d .parking { d with
      packetsMutex := none, packetsCond := d.packetsCond.block (.worker k) } .blocked
  | wake : Handshake k d .blocked { d with
      packetsCond := d.packetsCond.leave (.worker k) } .free
  | take : d.packetsList ≠ none →
      Handshake k d .taking { d with packetsList := none } (.busy true)
  | release : Handshake k d (.busy true) { d with packetsMutex := none } (.busy false)
  | work : Handshake k d (.busy false) d (.busy false)
  | abort : Handshake k d (.busy false) d (.closing false)
  | complete : Handshake k d (.busy false) d .finishing
  | finish : Handshake k d .finishing { d with isDone := true } .free
  | report (b : Bool) (f : Bool) : Handshake k d (.closing b) { d with isError := f } (.closing b)
  | code (b : Bool) (n : Nat) : Handshake k d (.closing b) { d with errorCode := n } (.closing b)
  | drop : Handshake k d (.closing true) { d with packetsMutex := none } (.closing false)
  | pass : Handshake k d (.closing false) d (.closing false)
  | publish : Handshake k d (.closing false) { d with isTerminatedThread := true } .unwinding
  | unwind : Handshake k d .unwinding d .unwinding
  | again : Handshake k d .unwinding { d with isTerminatedThread := true } .over
  | gone : Handshake k d .over d .over

section
variable {k : Nat} {d d' : SenderWorkerData} {ph ph' : Phase}

theorem Handshake.inList_of (h : Handshake k d ph d' ph') (hin : ph'.inList = true) :
    ph.inList = true ∨ ph = .taking := by
  cases h <;> first | exact .inl rfl | exact .inr rfl | cases hin

theorem Handshake.packetsList_eq (h : Handshake k d ph d' ph') (ht : ph ≠ .taking) :
    d'.packetsList = d.packetsList := by
  cases h <;> first | rfl | exact absurd rfl ht

theorem Handshake.packetsList_none (h : Handshake k d ph d' ph') (hl : d.packetsList = none) :
    d'.packetsList = none := by
  cases h <;> first | exact hl | rfl

theorem Handshake.isDone_eq (h : Handshake k d ph d' ph') (hf : ph ≠ .finishing) :
    d'.isDone = d.isDone := by
  cases h <;> first | rfl | exact absurd rfl hf

theorem Handshake.isDone_false_iff (h : Handshake k d ph d' ph') :
    d'.isDone = false ↔ d.isDone = false ∧ ph ≠ .finishing := by
  cases h <;> simp

theorem Handshake.isDone_of (h : Handshake k d ph d' ph') (hd : d.isDone = true) :
    d'.isDone = true := by
  cases h <;> first | exact hd | rfl

theorem Handshake.terminateThread_eq (h : Handshake k d ph d' ph') :
    d'.terminateThread = d.terminateThread := by
  cases h <;> rfl

theorem Handshake.running_of (h : Handshake k d ph d' ph') (hr : ph'.running = true) :
    ph.running = true ∨ ph = .new := by
  cases h <;> first | exact .inl rfl | exact .inr rfl | cases hr

theorem Handshake.of_over (h : Handshake k d .over d' ph') : d' = d ∧ ph' = .over := by
  cases h
  exact ⟨rfl, rfl⟩

/-- what a worker has published, or has not yet taken back, is in `is_terminated_thread` -/
theorem Handshake.flag_eq (h : Handshake k d ph d' ph')
    (hd : d.isTerminatedThread = (ph.published || decide (ph = .new))) :
    d'.isTerminatedThread = (ph'.published || decide (ph' = .new)) := by
  cases h <;> first | exact hd | rfl

theorem Handshake.published_of (h : Handshake k d ph d' ph') (hp : ph.published = true) :
    ph'.published = true := by
  cases h <;> first | rfl | cases hp

theorem Handshake.not_new (h : Handshake k d ph d' ph') : ph' ≠ .new := by
  cases h <;> nofun

theorem Handshake.of_finishing (h : Handshake k d .finishing d' ph') :
    ph' = .free ∧ d' = { d with isDone := true } := by
  cases h
  exact ⟨rfl, rfl⟩

end

namespace Worker

/-- the field `is_locked_` of `prot_lock` at a point of the thread, where the point decides it -/
def lockAt : WorkerPc → Option Bool
  | .listTest | .termTest | .condWait | .blocked | .relock | .copy | .unlock => some true
  | .exitError _ _ | .exitCode _ | .exitUnlock => none
  | _ => some false

def Sane (w : Worker) : Prop := ∀ b, lockAt w.pc = some b → w.isLocked = b

def phase (w : Worker) : Phase :=
  match w.pc with
  | .alive => .new
  | .listTest => .looking
  | .termTest => .empty
  | .condWait => .parking
  | .blocked => .blocked
  | .copy => .taking
  | .unlock => .busy true
  | .packet | .sending | .sent _ | .zcTest | .poll | .recvmsg => .busy false
  | .setDone => .finishing
  | .exitError _ _ | .exitCode _ | .exitUnlock => .closing w.isLocked
  | .exitFlag => .closing false
  | .pthreadExit | .unwindFlag => .unwinding
  | .unwindLock | .dead => .over
  | _ => .free

theorem sane_goto {w : Worker} {pc : WorkerPc} {b : Bool} (hl : w.isLocked = b)
    (hp : lockAt pc = some b ∨ lockAt pc = none) : (w.goto pc).Sane := by
  intro b' hb'
  show w.isLocked = b'
  rw [hl]
  rcases hp with hp | hp
  · exact Option.some.inj (hp.symm.trans hb')
  · exact absurd (hp.symm.trans hb') (by simp)

theorem sane_end (w : Worker) (flag : Bool) (code : ErrorCode) :
    (w.endThreadError flag code).Sane := by
  intro b hb
  cases hb

theorem phase_end (w : Worker) (flag : Bool) (code : ErrorCode) :
    (w.endThreadError flag code).phase = .closing w.isLocked := rfl

theorem phase_taking {w : Worker} : w.phase = .taking ↔ w.pc = .copy := by
  unfold phase
  cases w.pc <;> simp

theorem phase_finishing {w : Worker} : w.phase = .finishing ↔ w.pc = .setDone := by
  unfold phase
  cases w.pc <;> simp

section
variable {zc : Bool} {A : FastInts} {k : Nat} {h : Heap} {d d' : SenderWorkerData} {w w' : Worker}
  {e : WorkerEvent}

/-- what a step keeps and does -/
def Shakes (k : Nat) (d : SenderWorkerData) (w : Worker) (d' : SenderWorkerData) (w' : Worker) :
    Prop :=
  w'.Sane ∧ Handshake k d w.phase d' w'.phase

theorem shakes_goto {pc pc' : WorkerPc} {b : Bool} (hw : w.Sane) (hpc : w.pc = pc)
    (hb : lockAt pc = some b) (hb' : lockAt pc' = some b ∨ lockAt pc' = none)
    (hs : Handshake k d { w with pc := pc }.phase d' (w.goto pc').phase) :
    Shakes k d w d' (w.goto pc') := by
  have hl : w.isLocked = b := hw b (hpc ▸ hb)
  refine ⟨sane_goto hl hb', ?_⟩
  have hphase : w.phase = { w with pc := pc }.phase := by rw [← hpc]
  rw [hphase]
  exact hs

theorem shakes_setUp {ok : Bool} {pc : WorkerPc} {code : ErrorCode} (hl : w.isLocked = false)
    (hw : w.phase = .free) (hpc : lockAt pc = some false) (hp : (w.goto pc).phase = .free) :
    Shakes k d w d (w.orEnd ok pc code) := by
  unfold orEnd
  cases ok with
  | true =>
    refine ⟨sane_goto hl (.inl hpc), ?_⟩
    show Handshake k d w.phase d (w.goto pc).phase
    rw [hw, hp]
    exact .idle
  | false =>
    refine ⟨sane_end w _ _, ?_⟩
    show Handshake k d w.phase d (.closing w.isLocked)
    rw [hw, hl]
    exact .quit

theorem shakes_busy (hw : w.phase = .busy false) (hs : w'.Sane)
    (hp : w'.phase = .busy false ∨ w'.phase = .finishing ∨ w'.phase = .closing false) :
    Shakes k d w d w' := by
  refine ⟨hs, ?_⟩
  rw [hw]
  rcases hp with hp | hp | hp
  · rw [hp]; exact .work
  · rw [hp]; exact .complete
  · rw [hp]; exact .abort

theorem shakes_acquire (hw : w.phase = .free) (hs : w.acquire k d = some (d', w')) :
    Shakes k d w d' w' := by
  obtain ⟨m, hm, he⟩ := Option.map_eq_some_iff.mp hs
  obtain ⟨hf, rfl⟩ := Mutex.lock_eq hm
  cases he
  refine ⟨fun b hb => Option.some.inj hb, ?_⟩
  rw [hw]
  exact .acquire hf

theorem protUnlock_eq (d : SenderWorkerData) (w : Worker) (pc : WorkerPc) :
    protUnlock d w pc
      = ({ d with packetsMutex := if w.isLocked then none else d.packetsMutex },
          { w with pc := pc, isLocked := false }) := by
  unfold protUnlock
  cases hl : w.isLocked with
  | true => rfl
  | false =>
    obtain ⟨pc', l, i, ds, rd, lk, sc, lc⟩ := w
    cases hl
    rfl

theorem nextPacket_cases (hs : w.nextPacket zc A = some w') :
    (∃ p, toU A.w32 w.i < w.dataToBeSent.length ∧ w.current = some p ∧ p.dataPtrType = .other ∧
        w' = w.endThreadError true .notSupportedDataType) ∨
      (∃ p, toU A.w32 w.i < w.dataToBeSent.length ∧ w.current = some p ∧ p.dataPtrType ≠ .other ∧
        w' = { w with pc := .sending, dataSent := p.dataOffset, remainingData := p.dataSize }) ∨
      (¬ toU A.w32 w.i < w.dataToBeSent.length ∧
        w' = w.goto (if zc then .zcTest else .setDone)) := by
  unfold nextPacket at hs
  by_cases hi : toU A.w32 w.i < w.dataToBeSent.length
  · rw [if_pos hi] at hs
    obtain ⟨p, hp, he⟩ := Option.map_eq_some_iff.mp hs
    by_cases ho : p.dataPtrType = .other
    · rw [if_pos ho] at he
      exact .inl ⟨p, hi, hp, ho, he.symm⟩
    · rw [if_neg ho] at he
      exact .inr (.inl ⟨p, hi, hp, ho, he.symm⟩)
  · rw [if_neg hi] at hs
    exact .inr (.inr ⟨hi, (Option.some.inj hs).symm⟩)

theorem unlessTerminated_cases (w : Worker) (d : SenderWorkerData) (w' : Worker) :
    (d.terminateThread = true ∧ w.unlessTerminated d w' = w.endThreadError false .noError) ∨
      (d.terminateThread = false ∧ w.unlessTerminated d w' = w') := by
  unfold unlessTerminated
  cases d.terminateThread
  · exact .inr ⟨rfl, rfl⟩
  · exact .inl ⟨rfl, rfl⟩

theorem sane_of_false {pc : WorkerPc} (hpc : w.pc = pc) (hl : w.isLocked = false)
    (hp : lockAt pc ≠ some true) : w.Sane := by
  intro b hb
  rw [hpc] at hb
  cases b with
  | true => exact absurd hb hp
  | false => exact hl

theorem step_copy (hpc : w.pc = .copy) (hs : step zc A k h d w e = some (d', w')) :
    ∃ p, d.packetsList = some p ∧ w' = { w with pc := .unlock, dataToBeSent := h.lists p } ∧
      d' = { d with packetsList := none } := by
  unfold step at hs
  rw [hpc] at hs
  cases e <;> try cases hs
  obtain ⟨p, hp, he⟩ := Option.map_eq_some_iff.mp hs
  cases he
  exact ⟨p, hp, rfl, rfl⟩

theorem unlocked_of_published (hw : w.Sane) (h : w.phase.published = true) :
    w.isLocked = false := by
  apply hw
  unfold phase at h
  cases hpc : w.pc <;> rw [hpc] at h <;> first | rfl | cases h

/-- **Every step of the worker function, of either sender, is a step of the handshake.** -/
theorem step_handshake (hw : w.Sane) (hs : step zc A k h d w e = some (d', w')) :
    Shakes k d w d' w' := by
  have unlocked : lockAt w.pc = some false → w.isLocked = false := fun hp => hw false hp
  have locked : lockAt w.pc = some true → w.isLocked = true := fun hp => hw true hp
  have phaseAt : ∀ pc, w.pc = pc → w.phase = { w with pc := pc }.phase := by
    intro pc hpc; rw [← hpc]
  unfold step at hs
  split at hs
  case h_1 hpc =>
    cases hs
    exact shakes_goto hw hpc rfl (.inl rfl) .start
  case h_2 hpc =>
    cases hs
    exact shakes_goto hw hpc rfl (.inl rfl) .alive
  case h_3 hpc =>
    cases hs
    exact shakes_setUp (unlocked (by rw [hpc]; rfl)) (phaseAt _ hpc) rfl rfl
  case h_4 hpc =>
    cases hs
    exact shakes_setUp (unlocked (by rw [hpc]; rfl)) (phaseAt _ hpc) rfl rfl
  case h_5 hpc =>
    cases hs
    exact shakes_setUp (unlocked (by rw [hpc]; rfl)) (phaseAt _ hpc) rfl rfl
  case h_6 hpc =>
    cases hs
    exact shakes_setUp (unlocked (by rw [hpc]; rfl)) (phaseAt _ hpc) rfl rfl
  case h_7 hpc =>
    cases hs
    have hl := unlocked (by rw [hpc]; rfl)
    have hp := phaseAt _ hpc
    rcases unlessTerminated_cases w d (w.goto .lock) with ⟨_, hu⟩ | ⟨_, hu⟩
    · rw [hu]
      refine ⟨sane_end w _ _, ?_⟩
      rw [hp, phase_end, hl]
      exact .quit
    · rw [hu]
      exact shakes_goto hw hpc rfl (.inl rfl) .idle
  case h_8 hpc => exact shakes_acquire (phaseAt _ hpc) hs
  case h_9 hpc =>
    cases hs
    by_cases hn : d.packetsList = none
    · rw [if_pos hn]
      exact shakes_goto hw hpc rfl (.inl rfl) (.missing hn)
    · rw [if_neg hn]
      exact shakes_goto hw hpc rfl (.inl rfl) (.found hn)
  case h_10 hpc =>
    cases hs
    have hl := locked (by rw [hpc]; rfl)
    rcases unlessTerminated_cases w d (w.goto .condWait) with ⟨ht, hu⟩ | ⟨ht, hu⟩
    · rw [hu]
      refine ⟨sane_end w _ _, ?_⟩
      rw [phaseAt _ hpc, phase_end, hl]
      exact .stop ht
    · rw [hu]
      exact shakes_goto hw hpc rfl (.inl rfl) (.stay ht)
  case h_11 hpc =>
    cases hs
    exact shakes_goto hw hpc rfl (.inl rfl) .park
  case h_12 hpc =>
    cases hs
    exact shakes_goto hw hpc rfl (.inl rfl) .wake
  case h_13 hpc => exact shakes_acquire (phaseAt _ hpc) hs
  case h_14 hpc =>
    obtain ⟨p, hp, he⟩ := Option.map_eq_some_iff.mp hs
    cases he
    have hl := locked (by rw [hpc]; rfl)
    refine ⟨fun b hb => hl.trans (Option.some.inj hb), ?_⟩
    rw [phaseAt _ hpc]
    exact .take (by rw [hp]; simp)
  case h_15 hpc =>
    rw [protUnlock_eq] at hs
    cases hs
    have hl := locked (by rw [hpc]; rfl)
    refine ⟨sane_of_false rfl rfl nofun, ?_⟩
    rw [phaseAt _ hpc]
    show Handshake k d (.busy true)
      { d with packetsMutex := if w.isLocked then none else d.packetsMutex } (.busy false)
    rw [if_pos hl]
    exact .release
  case h_16 hpc =>
    obtain ⟨v, hv, he⟩ := Option.map_eq_some_iff.mp hs
    cases he
    have hl := unlocked (by rw [hpc]; rfl)
    have hp : w.phase = .busy false := phaseAt _ hpc
    rcases nextPacket_cases hv with ⟨p, _, _, _, rfl⟩ | ⟨p, _, _, _, rfl⟩ | ⟨_, rfl⟩
    · exact shakes_busy hp (sane_end w _ _) (.inr (.inr (by rw [phase_end, hl])))
    · exact shakes_busy hp (sane_of_false rfl hl nofun) (.inl rfl)
    · cases zc with
      | true => exact shakes_busy hp (sane_goto hl (.inl rfl)) (.inl rfl)
      | false => exact shakes_busy hp (sane_goto hl (.inl rfl)) (.inr (.inl rfl))
  case h_17 hpc =>
    have hl := unlocked (by rw [hpc]; rfl)
    have hp : w.phase = .busy false := phaseAt _ hpc
    by_cases hr : w.remainingData = 0
    · rw [if_pos hr] at hs
      cases hs
      exact shakes_busy hp (sane_of_false rfl hl nofun) (.inl rfl)
    · rw [if_neg hr] at hs
      cases hs
  case h_18 s hpc =>
    have hl := unlocked (by rw [hpc]; rfl)
    have hp : w.phase = .busy false := phaseAt _ hpc
    by_cases hr : w.remainingData ≠ 0 ∧ s ≤ w.remainingData
    · rw [if_pos hr] at hs
      cases hs
      exact shakes_busy hp (sane_of_false rfl hl nofun) (.inl rfl)
    · rw [if_neg hr] at hs
      cases hs
  case h_19 s hpc =>
    cases hs
    have hl := unlocked (by rw [hpc]; rfl)
    have hp : w.phase = .busy false := phaseAt _ hpc
    by_cases hneg : s < 0
    · rw [if_pos hneg]
      exact shakes_busy hp (sane_end w _ _) (.inr (.inr (by rw [phase_end, hl])))
    · rw [if_neg hneg]
      rcases unlessTerminated_cases w d (w.sentBytes A s) with ⟨_, hu⟩ | ⟨_, hu⟩
      · rw [hu]
        exact shakes_busy hp (sane_end w _ _) (.inr (.inr (by rw [phase_end, hl])))
      · rw [hu]
        exact shakes_busy hp (sane_of_false rfl hl nofun) (.inl rfl)
  case h_20 hpc =>
    cases hs
    have hl := unlocked (by rw [hpc]; rfl)
    have hp : w.phase = .busy false := phaseAt _ hpc
    by_cases hc : w.lastSendingCounter < w.sendingCounter
    · rw [if_pos hc]
      exact shakes_busy hp (sane_goto hl (.inl rfl)) (.inl rfl)
    · rw [if_neg hc]
      exact shakes_busy hp (sane_goto hl (.inl rfl)) (.inr (.inl rfl))
  case h_21 ok hpc =>
    cases hs
    have hl := unlocked (by rw [hpc]; rfl)
    have hp : w.phase = .busy false := phaseAt _ hpc
    cases ok with
    | true => exact shakes_busy hp (sane_goto hl (.inl rfl)) (.inl rfl)
    | false => exact shakes_busy hp (sane_end w _ _) (.inr (.inr (congrArg Phase.closing hl)))
  case h_22 hpc =>
    cases hs
    have hl := unlocked (by rw [hpc]; rfl)
    exact shakes_busy (phaseAt _ hpc) (sane_end w _ _) (.inr (.inr (by rw [phase_end, hl])))
  case h_23 m hpc =>
    cases hs
    have hl := unlocked (by rw [hpc]; rfl)
    have hp : w.phase = .busy false := phaseAt _ hpc
    unfold notified
    by_cases hm : toS 32 (readNotificationZc m) < 1
    · rw [if_pos hm]
      exact shakes_busy hp (sane_end w _ _) (.inr (.inr (by rw [phase_end, hl])))
    · rw [if_neg hm]
      exact shakes_busy hp (sane_of_false rfl hl nofun) (.inl rfl)
  case h_24 hpc =>
    cases hs
    exact shakes_goto hw hpc rfl (.inl rfl) .finish
  case h_25 flag code hpc =>
    cases hs
    refine ⟨nofun, ?_⟩
    rw [phaseAt _ hpc]
    exact .report _ _
  case h_26 code hpc =>
    cases hs
    refine ⟨nofun, ?_⟩
    rw [phaseAt _ hpc]
    exact .code _ _
  case h_27 hpc =>
    rw [protUnlock_eq] at hs
    cases hs
    refine ⟨sane_of_false rfl rfl nofun, ?_⟩
    rw [phaseAt _ hpc]
    show Handshake k d (.closing w.isLocked)
      { d with packetsMutex := if w.isLocked then none else d.packetsMutex } (.closing false)
    cases w.isLocked
    · exact .pass
    · exact .drop
  case h_28 hpc =>
    cases hs
    exact shakes_goto hw hpc rfl (.inl rfl) .publish
  case h_29 hpc =>
    cases hs
    refine ⟨sane_of_false rfl (unlocked (by rw [hpc]; rfl)) nofun, ?_⟩
    rw [phaseAt _ hpc]
    exact .unwind
  case h_30 hpc =>
    cases hs
    exact shakes_goto hw hpc rfl (.inl rfl) .again
  case h_31 hpc =>
    -- the second destructor of `prot_lock` finds `is_locked_` cleared
    rw [protUnlock_eq] at hs
    cases hs
    have hl := unlocked (by rw [hpc]; rfl)
    refine ⟨sane_of_false rfl rfl nofun, ?_⟩
    rw [phaseAt _ hpc]
    show Handshake k d .over
      { d with packetsMutex := if w.isLocked then none else d.packetsMutex } .over
    rw [if_neg (by rw [hl]; decide)]
    exact .gone
  case h_32 => cases hs

end
end Worker
end RealTimeTransfer
