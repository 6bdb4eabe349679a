import RealTimeTransfer.Senders.Session

/-!
# The refusals of a sender

A worker that fails writes `is_error` and `error_code`, and then `is_terminated_thread`; `send`
reads them in the opposite order and turns the code into a text.  So what `send` says of a dead
worker is the complaint about the one call that failed, however the threads interleave.

* `Worker.complaint`   what there is to say of a step of the worker that fails;
* `Worker.Reports`     a worker on its way out will have that said, or has;
* `Worker.Departs`     what a step can do to a report;
* `refusal_justified`  the three reasons for which `send` refuses.
-/

namespace RealTimeTransfer
open Machines Words Sync

/-- the points of a worker on its way out -/
def WorkerPc.leaving : WorkerPc → Bool
  | .exitError _ _ | .exitCode _ | .exitUnlock | .exitFlag | .pthreadExit | .unwindFlag
  | .unwindLock | .dead => true
  | _ => false

/-- the points of the wait for notifications -/
def WorkerPc.zcWaiting : WorkerPc → Bool
  | .zcTest | .poll | .recvmsg => true
  | _ => false

/-- the points of `send` behind its first test -/
def SenderPc.admitted : SenderPc → Bool
  | .sendTermTest _ | .sendErrorTest | .sendErrorCode | .sendDoneTest _ | .sendLock _ | .sendStore _
  | .sendUnlock _ => true
  | _ => false

namespace Worker

/-- the complaint about a step that fails -/
def complaint (A : FastInts) (w : Worker) (e : WorkerEvent) : Option String :=
  match w.pc, e with
  | .setAffinity, .call false => some "Sender worker thread can't set CPU Affinity."
  | .setTimeout, .call false => some "Sender worker thread can't set timeout on the socket."
  | .setSendBuffer, .call false | .setRecvBuffer, .call false =>
    some "Can't reserve the buffers needed for the socket."
  | .packet, .tau =>
    if toU A.w32 w.i < w.dataToBeSent.length ∧
      w.current.any (fun p => p.dataPtrType = .other) = true
    then some "Sender worker thread can't send that type of packets." else none
  | .sent s, .tau =>
    if s < 0 then some "Sender worker thread, error while sending the data. " else none
  | .poll, .call false | .recvmsg, .recv none => some "Error during zero-copy transmission."
  | .recvmsg, .recv (some m) =>
    if toS 32 (readNotificationZc m) < 1 then some "Error during zero-copy transmission." else none
  | _, _ => none

/-- the code that a worker on its way out is to publish, or has published -/
def Publishes (d : SenderWorkerData) (w : Worker) (code : ErrorCode) : Prop :=
  match w.pc with
  | .exitError flag c => flag = true ∧ c = code
  | .exitCode c => d.isError = true ∧ c = code
  | .exitUnlock | .exitFlag | .pthreadExit | .unwindFlag | .unwindLock | .dead =>
    d.isError = true ∧ d.errorCode = code.num
  | _ => False

/-- `send` will say `msg` of this worker -/
def Reports (zc : Bool) (d : SenderWorkerData) (w : Worker) (msg : String) : Prop :=
  ∃ code, w.Publishes d code ∧ workerErrorText zc code.num = msg

/-- what a step can do to a report -/
inductive Departs (zc : Bool) (A : FastInts) (d : SenderWorkerData) (w : Worker) (e : WorkerEvent)
    (d' : SenderWorkerData) (w' : Worker) : Prop where
  | stays : w.pc.leaving = false → w'.pc.leaving = false → w.complaint A e = none →
      Departs zc A d w e d' w'
  | fails (msg : String) : w'.pc.leaving = true → w.complaint A e = some msg →
      w'.Reports zc d' msg → Departs zc A d w e d' w'
  | told : w.pc.leaving = false → w.complaint A e = none → d.terminateThread = true →
      Departs zc A d w e d' w'
  | leaves : w.pc.leaving = true → w'.pc.leaving = true → w.complaint A e = none →
      (∀ msg, w.Reports zc d msg → w'.Reports zc d' msg) → Departs zc A d w e d' w'

section
variable {zc : Bool} {A : FastInts} {k : Nat} {h : Heap} {d d' : SenderWorkerData} {w w' : Worker}
  {e : WorkerEvent}

theorem Publishes.leaving {code : ErrorCode} (hp : w.Publishes d code) : w.pc.leaving = true := by
  unfold Publishes at hp
  cases hpc : w.pc <;> rw [hpc] at hp <;> first | rfl | cases hp

theorem departs_end {code : ErrorCode} {msg : String} (hc : w.complaint A e = some msg)
    (ht : workerErrorText zc code.num = msg) :
    Departs zc A d w e d (w.endThreadError true code) :=
  .fails msg rfl hc ⟨code, ⟨rfl, rfl⟩, ht⟩

theorem departs_unless {v : Worker} (hl : w.pc.leaving = false) (hc : w.complaint A e = none)
    (hv : v.pc.leaving = false) : Departs zc A d w e d (w.unlessTerminated d v) := by
  rcases unlessTerminated_cases w d v with ⟨ht, hu⟩ | ⟨-, hu⟩
  · rw [hu]
    exact .told hl hc ht
  · rw [hu]
    exact .stays hl hv hc

theorem Publishes.unique {code code' : ErrorCode} (hp : w.Publishes d code)
    (hp' : w.Publishes d code') : code.num = code'.num := by
  unfold Publishes at hp hp'
  cases hpc : w.pc <;> rw [hpc] at hp hp' <;> first
    | exact congrArg ErrorCode.num (hp.2.symm.trans hp'.2)
    | exact hp.2.symm.trans hp'.2
    | cases hp

theorem Publishes.of_published {code : ErrorCode} (hp : w.Publishes d code)
    (hw : w.phase.published = true) : d.isError = true ∧ d.errorCode = code.num := by
  unfold Publishes at hp
  unfold phase at hw
  cases hpc : w.pc <;> rw [hpc] at hp hw <;> first | exact hp | cases hw

theorem leaving_of_published (hw : w.phase.published = true) : w.pc.leaving = true := by
  unfold phase at hw
  cases hpc : w.pc <;> rw [hpc] at hw <;> first | rfl | cases hw

theorem Reports.unique {msg msg' : String} (hr : w.Reports zc d msg) (hr' : w.Reports zc d msg') :
    msg = msg' := by
  obtain ⟨code, hp, rfl⟩ := hr
  obtain ⟨code', hp', rfl⟩ := hr'
  rw [hp.unique hp']

theorem Reports.of_eq {msg : String} (hr : w.Reports zc d msg) (he : d'.isError = d.isError)
    (hc : d'.errorCode = d.errorCode) : w.Reports zc d' msg := by
  obtain ⟨code, hp, ht⟩ := hr
  refine ⟨code, ?_, ht⟩
  unfold Publishes at hp ⊢
  rw [he, hc]
  exact hp

theorem complaint_of_leaving (hl : w.pc.leaving = true) : w.complaint A e = none := by
  unfold complaint
  cases hpc : w.pc <;> rw [hpc] at hl <;> first | rfl | cases hl

theorem departs_leaving (hl : w.pc.leaving = true) (hl' : w'.pc.leaving = true)
    (hp : ∀ code, w.Publishes d code → w'.Publishes d' code) : Departs zc A d w e d' w' :=
  .leaves hl hl' (complaint_of_leaving hl) fun _ ⟨code, hc, ht⟩ => ⟨code, hp code hc, ht⟩

theorem step_zcWaiting (hz : w.pc.zcWaiting = false)
    (hs : step false A k h d w e = some (d', w')) : w'.pc.zcWaiting = false := by
  unfold Worker.step at hs
  split at hs
  case h_3 | h_4 | h_5 | h_6 =>
    cases hs
    unfold orEnd
    split <;> rfl
  case h_7 | h_10 =>
    cases hs
    unfold unlessTerminated
    split <;> rfl
  case h_8 | h_13 =>
    obtain ⟨m, -, he⟩ := Option.map_eq_some_iff.mp hs
    cases he
    rfl
  case h_9 =>
    cases hs
    unfold goto
    dsimp only
    split <;> rfl
  case h_14 =>
    obtain ⟨p, -, he⟩ := Option.map_eq_some_iff.mp hs
    cases he
    rfl
  case h_15 | h_27 | h_31 =>
    rw [protUnlock_eq] at hs
    cases hs
    rfl
  case h_16 =>
    obtain ⟨v, hv, he⟩ := Option.map_eq_some_iff.mp hs
    cases he
    rcases nextPacket_cases hv with ⟨p, _, _, _, rfl⟩ | ⟨p, _, _, _, rfl⟩ | ⟨_, rfl⟩ <;> rfl
  case h_17 | h_18 =>
    obtain ⟨-, he⟩ := Option.ite_none_right_eq_some.mp hs
    cases he
    rfl
  case h_19 =>
    cases hs
    unfold unlessTerminated
    split
    · rfl
    · split <;> rfl
  case h_20 hpc | h_21 hpc | h_22 hpc | h_23 hpc =>
    rw [hpc] at hz
    cases hz
  case h_32 => cases hs
  all_goals
    cases hs
    rfl

/-- **Every step of the worker function is one of these.** -/
theorem step_departs (hz : zc = false → w.pc.zcWaiting = false)
    (hs : step zc A k h d w e = some (d', w')) : Departs zc A d w e d' w' := by
  have at' : ∀ pc, w.pc = pc → w.complaint A e = { w with pc := pc }.complaint A e := by
    rintro pc rfl
    rfl
  have inside : ∀ {pc}, w.pc = pc → pc.leaving = false → w.pc.leaving = false := by
    rintro pc rfl hl
    exact hl
  have waits : w.pc.zcWaiting = true → zc = true := by
    intro hw
    cases zc with
    | true => rfl
    | false => exact absurd (hw.symm.trans (hz rfl)) nofun
  unfold Worker.step at hs
  split at hs
  case h_3 ok hpc | h_4 ok hpc | h_5 ok hpc | h_6 ok hpc =>
    cases hs
    have hc := at' _ hpc
    cases ok with
    | true => exact .stays (inside hpc rfl) rfl hc
    | false => exact departs_end hc rfl
  case h_7 hpc | h_10 hpc =>
    cases hs
    exact departs_unless (inside hpc rfl) (at' _ hpc) rfl
  case h_8 hpc | h_13 hpc =>
    obtain ⟨m, -, he⟩ := Option.map_eq_some_iff.mp hs
    cases he
    exact .stays (inside hpc rfl) rfl (at' _ hpc)
  case h_9 hpc =>
    cases hs
    refine .stays (inside hpc rfl) ?_ (at' _ hpc)
    unfold goto
    dsimp only
    split <;> rfl
  case h_14 hpc =>
    obtain ⟨p, -, he⟩ := Option.map_eq_some_iff.mp hs
    cases he
    exact .stays (inside hpc rfl) rfl (at' _ hpc)
  case h_15 hpc =>
    rw [protUnlock_eq] at hs
    cases hs
    exact .stays (inside hpc rfl) rfl (at' _ hpc)
  case h_16 hpc =>
    obtain ⟨v, hv, he⟩ := Option.map_eq_some_iff.mp hs
    cases he
    rcases nextPacket_cases hv with ⟨p, hi, hp, ho, rfl⟩ | ⟨p, hi, hp, ho, rfl⟩ | ⟨hi, rfl⟩
    · refine departs_end ((at' _ hpc).trans (if_pos ⟨hi, ?_⟩)) rfl
      show w.current.any _ = true
      rw [hp]
      exact decide_eq_true ho
    · refine .stays (inside hpc rfl) rfl ((at' _ hpc).trans (if_neg fun hn => ?_))
      have hany : w.current.any _ = true := hn.2
      rw [hp] at hany
      exact ho (of_decide_eq_true hany)
    · refine .stays (inside hpc rfl) ?_ ((at' _ hpc).trans (if_neg fun hn => hi hn.1))
      cases zc <;> rfl
  case h_17 hpc | h_18 hpc =>
    obtain ⟨-, he⟩ := Option.ite_none_right_eq_some.mp hs
    cases he
    exact .stays (inside hpc rfl) rfl (at' _ hpc)
  case h_19 n hpc =>
    cases hs
    by_cases hn : n < 0
    · rw [if_pos hn]
      exact departs_end ((at' _ hpc).trans (if_pos hn)) rfl
    · rw [if_neg hn]
      exact departs_unless (inside hpc rfl) ((at' _ hpc).trans (if_neg hn)) rfl
  case h_20 hpc =>
    cases hs
    refine .stays (inside hpc rfl) ?_ (at' _ hpc)
    unfold goto
    dsimp only
    split <;> rfl
  case h_21 ok hpc =>
    cases hs
    obtain rfl := waits (by rw [hpc]; rfl)
    have hc := at' _ hpc
    cases ok with
    | true => exact .stays (inside hpc rfl) rfl hc
    | false => exact departs_end hc rfl
  case h_22 hpc =>
    cases hs
    obtain rfl := waits (by rw [hpc]; rfl)
    exact departs_end (at' _ hpc) rfl
  case h_23 m hpc =>
    cases hs
    obtain rfl := waits (by rw [hpc]; rfl)
    unfold notified
    by_cases hm : toS 32 (readNotificationZc m) < 1
    · rw [if_pos hm]
      exact departs_end ((at' _ hpc).trans (if_pos hm)) rfl
    · rw [if_neg hm]
      exact .stays (inside hpc rfl) rfl ((at' _ hpc).trans (if_neg hm))
  case h_25 flag c hpc | h_26 c hpc =>
    cases hs
    refine departs_leaving (by rw [hpc]; rfl) rfl fun code hp => ?_
    unfold Publishes at hp
    rw [hpc] at hp
    exact ⟨hp.1, by first | exact hp.2 | rw [hp.2]⟩
  case h_27 hpc | h_31 hpc =>
    rw [protUnlock_eq] at hs
    cases hs
    refine departs_leaving (by rw [hpc]; rfl) rfl fun code hp => ?_
    unfold Publishes at hp
    rw [hpc] at hp
    exact hp
  case h_28 hpc | h_29 hpc | h_30 hpc =>
    cases hs
    refine departs_leaving (by rw [hpc]; rfl) rfl fun code hp => ?_
    unfold Publishes at hp
    rw [hpc] at hp
    exact hp
  case h_32 => cases hs
  all_goals
    rename_i hpc
    cases hs
    exact .stays (inside hpc rfl) rfl (at' _ hpc)

end
end Worker

/-! ## The session -/

def Session.complaint (A : FastInts) (s : Session) : SessionEvent → Option String
  | .worker e => s.worker.complaint A e
  | _ => none

/-- a step of the worker has failed in the run `es`, with the complaint `msg` -/
def Failed (zc : Bool) (A : FastInts) (s₀ : Session) (es : List SessionEvent) (msg : String) :
    Prop :=
  (session zc A).Happened (fun v e => v.complaint A e = some msg) s₀ es

/-- the calls: what the points of the main thread say of `initialized_` and `terminate_thread` -/
structure Called (es : List SessionEvent) (s : Session) : Prop where
  told : s.data.terminateThread = true → s.main.initialized = false
  ending : s.main.pc.ending = true → s.main.pc ≠ .endMark → s.main.initialized = false
  admitted : s.main.pc.admitted = true → s.main.initialized = true
  ended : s.main.initialized = false ∨ s.main.pc = .endMark → .callEndSender ∈ es

/-- the worker: what it reports is what has failed -/
structure Reported (zc : Bool) (A : FastInts) (s₀ : Session) (es : List SessionEvent)
    (s : Session) :
    Prop where
  plain : zc = false → s.worker.pc.zcWaiting = false
  reports : ∀ msg, Failed zc A s₀ es msg → s.worker.Reports zc s.data msg
  left : s.worker.pc.leaving = true →
    s.data.terminateThread = true ∨ ∃ msg, Failed zc A s₀ es msg
  seen : s.main.pc = .sendErrorTest ∨ s.main.pc = .sendErrorCode →
    s.data.isTerminatedThread = true

section
variable {zc : Bool} {A : FastInts} {s₀ s t : Session} {es : List SessionEvent} {e : SessionEvent}
  {d d' : SenderWorkerData} {pc pc' : SenderPc} {h : Heap} {so : Sockets} {err : Error}

theorem failed_quiet (hr : (session zc A).run s₀ es = some s) (he : s.complaint A e = none)
    {msg : String} : Failed zc A s₀ (es ++ [e]) msg ↔ Failed zc A s₀ es msg := by
  unfold Failed
  rw [Machine.happened_snoc hr]
  exact or_iff_left fun hc => absurd (he.symm.trans hc) nofun

/-! ### The calls -/

theorem Sender.step_admitted {m m' : Sender} (hs : m.step zc d = some (d', m')) :
    (m.pc ≠ .endMark → m'.initialized = m.initialized) ∧
      (m.pc = .endMark → m'.initialized = false) ∧
      (m'.pc.admitted = true → m.initialized = true ∨ m.pc.admitted = true) := by
  unfold Sender.step at hs
  split at hs
  case h_1 => cases hs
  case h_2 p hpc =>
    cases hs
    cases hi : m.initialized with
    | true => exact ⟨fun _ => hi, fun hm => absurd (hpc.symm.trans hm) nofun, fun _ => .inl rfl⟩
    | false => exact ⟨fun _ => hi, fun hm => absurd (hpc.symm.trans hm) nofun, nofun⟩
  case h_7 hpc | h_13 hpc =>
    obtain ⟨x, -, he⟩ := Option.map_eq_some_iff.mp hs
    cases he
    exact ⟨fun _ => rfl, fun hm => absurd (hpc.symm.trans hm) nofun,
      by first | exact fun _ => .inr (by rw [hpc]; rfl) | nofun⟩
  case h_10 hpc =>
    cases hs
    exact ⟨fun hn => absurd hpc hn, fun _ => rfl, nofun⟩
  case h_4 hpc | h_6 hpc =>
    cases hs
    refine ⟨fun _ => ?_, fun hm => absurd (hpc.symm.trans hm) nofun,
      fun _ => .inr (by rw [hpc]; rfl)⟩
    split <;> rfl
  case h_11 hpc | h_16 hpc =>
    cases hs
    refine ⟨fun _ => rfl, fun hm => absurd (hpc.symm.trans hm) nofun, ?_⟩
    unfold Sender.goto
    dsimp only
    split <;> nofun
  all_goals
    rename_i hpc
    cases hs
    exact ⟨fun _ => rfl, fun hm => absurd (hpc.symm.trans hm) nofun,
      by first | exact fun _ => .inr (by rw [hpc]; rfl) | nofun⟩

theorem Advance.ending_of (h : Advance d pc d' pc') (he : pc'.ending = true) :
    pc.ending = true ∧ pc' ≠ .endMark := by
  cases h <;> first | exact ⟨rfl, nofun⟩ | cases he

theorem Advance.of_endMark (h : Advance d .endMark d' pc') : pc' = .endTermTest := by
  cases h
  case refused hn => cases hn
  case mark => rfl

theorem Advance.not_endMark (h : Advance d pc d' pc') : pc' ≠ .endMark := by
  cases h <;> nofun

theorem Advance.told (h : Advance d pc d' pc') (ht : d'.terminateThread = true) :
    d.terminateThread = true ∨ pc = .endTerminate := by
  cases h <;> first | exact .inl ht | exact .inr rfl

theorem Advance.terminateThread_of (h : Advance d pc d' pc') (ht : d.terminateThread = true) :
    d'.terminateThread = true := by
  cases h <;> first | exact ht | rfl

theorem Advance.report_eq (h : Advance d pc d' pc') :
    d'.isError = d.isError ∧ d'.errorCode = d.errorCode := by
  cases h <;> exact ⟨rfl, rfl⟩

/-- `send` looks at the report of a worker that it has seen dead -/
theorem Advance.seen (h : Advance d pc d' pc') (hp : pc' = .sendErrorTest ∨ pc' = .sendErrorCode) :
    d'.isTerminatedThread = true ∨
      (pc = .sendErrorTest ∧ d'.isTerminatedThread = d.isTerminatedThread) := by
  cases h
  case dead ht => exact .inl ht
  case failed => exact .inr ⟨rfl, rfl⟩
  all_goals rcases hp with hp | hp <;> cases hp

theorem called_start (h : Heap) (so : Sockets) (err : Error) : Called [] (Session.start h so err) :=
  ⟨nofun, nofun, nofun, by rintro (h | h) <;> cases h⟩

theorem Called.step (h : Called es s) (hi : s.Inv) (hs : s.step zc A e = some t) :
    Called (es ++ [e]) t := by
  have mem : SessionEvent.callEndSender ∈ es → .callEndSender ∈ es ++ [e] :=
    fun hin => List.mem_append_left _ hin
  have ready : s.main.pc.isReady = true → s.main.pc ≠ .endMark := by
    intro hr hpc
    rw [hpc] at hr
    cases hr
  cases Session.step_does hs with
  | called p hr =>
    refine ⟨h.told, nofun, ?_, ?_⟩
    · nofun
    · rintro (hn | hn)
      · exact mem (h.ended (.inl hn))
      · cases hn
  | calledEnd hr =>
    exact ⟨h.told, fun _ hn => absurd rfl hn, nofun,
      fun _ => List.mem_append_right _ (List.mem_singleton_self _)⟩
  | @ran d m hm =>
    have adv := Sender.step_advance hm
    obtain ⟨hsame, hmark, hadm⟩ := Sender.step_admitted hm
    have down : s.main.initialized = false → m.initialized = false := by
      intro hn
      by_cases hpc : s.main.pc = .endMark
      · exact hmark hpc
      · exact (hsame hpc).trans hn
    refine ⟨fun ht => ?_, fun he _ => ?_, fun ha => ?_, ?_⟩
    · rcases adv.told ht with ht | hpc
      · exact down (h.told ht)
      · exact down (h.ending (by rw [hpc]; rfl) (by rw [hpc]; nofun))
    · by_cases hpc : s.main.pc = .endMark
      · exact hmark hpc
      · exact down (h.ending (adv.ending_of he).1 hpc)
    · have hinit : s.main.initialized = true := by
        rcases hadm ha with hi | ha
        · exact hi
        · exact h.admitted ha
      refine (hsame fun hpc => ?_).trans hinit
      rw [hpc] at adv
      rw [adv.of_endMark] at ha
      cases ha
    · rintro (hn | hn)
      · by_cases hpc : s.main.pc = .endMark
        · exact mem (h.ended (.inr hpc))
        · exact mem (h.ended (.inl ((hsame hpc).symm.trans hn)))
      · exact absurd hn adv.not_endMark
  | worked hw =>
    have ht := (Worker.step_handshake hi.sane hw).2.terminateThread_eq
    exact ⟨fun hd => h.told (ht.symm.trans hd), h.ending, h.admitted, fun hn => mem (h.ended hn)⟩
  | asked | told | written =>
    exact ⟨h.told, h.ending, h.admitted, fun hn => mem (h.ended hn)⟩

/-! ### The reports -/

theorem reported_start (h : Heap) (so : Sockets) (err : Error) :
    Reported zc A (Session.start h so err) [] (Session.start h so err) := by
  refine ⟨fun _ => rfl, fun msg hf => absurd hf Machine.not_happened_nil, nofun, ?_⟩
  rintro (h | h) <;> cases h

theorem Reported.other (h : Reported zc A s₀ es s) (hr : (session zc A).run s₀ es = some s)
    (he : s.complaint A e = none) (hw : t.worker = s.worker)
    (hd : t.data.isError = s.data.isError ∧ t.data.errorCode = s.data.errorCode)
    (hterm : s.data.terminateThread = true → t.data.terminateThread = true)
    (hseen : t.main.pc = .sendErrorTest ∨ t.main.pc = .sendErrorCode →
      t.data.isTerminatedThread = true) : Reported zc A s₀ (es ++ [e]) t := by
  refine ⟨hw ▸ h.plain, fun msg hf => ?_, fun hl => ?_, hseen⟩
  · rw [hw]
    exact (h.reports msg ((failed_quiet hr he).mp hf)).of_eq hd.1 hd.2
  · rw [hw] at hl
    rcases h.left hl with ht | ⟨msg, hf⟩
    · exact .inl (hterm ht)
    · exact .inr ⟨msg, (failed_quiet hr he).mpr hf⟩

/-- **A step of the worker that fails is reported, and no other is.** -/
theorem Reported.work (h : Reported zc A s₀ es s) (hi : s.Inv)
    (hr : (session zc A).run s₀ es = some s) {x : WorkerEvent} {w : Worker}
    (hw : s.worker.step zc A 0 s.heap s.data x = some (d, w)) :
    Reported zc A s₀ (es ++ [.worker x]) { s.noteWorker x with data := d, worker := w } := by
  have shake := (Worker.step_handshake hi.sane hw).2
  have hplain : zc = false → w.pc.zcWaiting = false := by
    rintro rfl
    exact Worker.step_zcWaiting (h.plain rfl) hw
  have hseen : s.main.pc = .sendErrorTest ∨ s.main.pc = .sendErrorCode →
      d.isTerminatedThread = true := by
    intro hpc
    have hpub := hi.control.flagOk.flag.symm.trans (h.seen hpc)
    exact (hi.control.handshake shake).flagOk.flag.trans (shake.published_of hpub)
  have hterm := shake.terminateThread_eq
  cases Worker.step_departs h.plain hw with
  | stays hl hl' hc =>
    refine ⟨hplain, fun msg hf => ?_, fun hn => absurd (hl'.symm.trans hn) nofun, hseen⟩
    obtain ⟨code, hp, -⟩ := h.reports msg ((failed_quiet (e := .worker x) hr hc).mp hf)
    exact absurd (hl.symm.trans hp.leaving) nofun
  | fails msg hl hc hrep =>
    refine ⟨hplain, fun msg' hf => ?_,
      fun _ => .inr ⟨msg, (Machine.happened_snoc hr).mpr (.inr hc)⟩, hseen⟩
    rcases (Machine.happened_snoc hr).mp hf with hf | hc'
    · obtain ⟨code, hp, -⟩ := h.reports msg' hf
      exact absurd (hc.symm.trans (Worker.complaint_of_leaving hp.leaving)) nofun
    · cases hc.symm.trans hc'
      exact hrep
  | told hl hc ht =>
    refine ⟨hplain, fun msg hf => ?_, fun _ => .inl (hterm.trans ht), hseen⟩
    obtain ⟨code, hp, -⟩ := h.reports msg ((failed_quiet (e := .worker x) hr hc).mp hf)
    exact absurd (hl.symm.trans hp.leaving) nofun
  | leaves hl hl' hc hkeep =>
    refine ⟨hplain,
      fun msg hf => hkeep msg (h.reports msg ((failed_quiet (e := .worker x) hr hc).mp hf)),
      fun _ => ?_, hseen⟩
    rcases h.left hl with ht | ⟨msg, hf⟩
    · exact .inl (hterm.trans ht)
    · exact .inr ⟨msg, (failed_quiet (e := .worker x) hr hc).mpr hf⟩

theorem Reported.step (h : Reported zc A s₀ es s) (hi : s.Inv)
    (hr : (session zc A).run s₀ es = some s) (hs : s.step zc A e = some t) :
    Reported zc A s₀ (es ++ [e]) t := by
  cases Session.step_does hs with
  | called p _ => exact h.other hr rfl rfl ⟨rfl, rfl⟩ id (by rintro (hp | hp) <;> cases hp)
  | calledEnd _ => exact h.other hr rfl rfl ⟨rfl, rfl⟩ id (by rintro (hp | hp) <;> cases hp)
  | asked | told | written => exact h.other hr rfl rfl ⟨rfl, rfl⟩ id h.seen
  | @ran d m hm =>
    have adv := Sender.step_advance hm
    refine h.other hr rfl (Session.noteMain_worker s) adv.report_eq ?_ ?_
    · exact adv.terminateThread_of
    · intro hpc
      rcases adv.seen hpc with ht | ⟨hp, ht⟩
      · exact ht
      · exact ht.trans (h.seen (.inl hp))
  | worked hw => exact h.work hi hr hw

/-! ### The outstanding list -/

/-- a list that is accepted and not reported done is noted -/
def Noted (s : Session) : Prop :=
  s.main.initialized = true → (∀ p, s.main.pc ≠ .sendUnlock p) → s.data.isDone = false →
    ∃ p, s.outstanding = some p

theorem Noted.step (h : Noted s) (hc : Called es s) (hi : s.Inv) (hs : s.step zc A e = some t) :
    Noted t := by
  cases Session.step_does hs with
  | called p hr | calledEnd hr =>
    intro hinit _ hd
    refine h hinit (fun p hpc => ?_) hd
    rw [hpc] at hr
    cases hr
  | asked | told | written => exact h
  | @ran d m hm =>
    intro hinit hpc hd
    have adv := Sender.step_advance hm
    obtain ⟨hsame, hmark, -⟩ := Sender.step_admitted hm
    have hmark' : s.main.pc ≠ .endMark := fun hp => absurd (hinit.symm.trans (hmark hp)) nofun
    have hinit' : s.main.initialized = true := (hsame hmark').symm.trans hinit
    by_cases hp : ∃ p, s.main.pc = .sendUnlock p
    · obtain ⟨p, hp⟩ := hp
      exact ⟨p, by rw [Session.noteMain_unlock hp]⟩
    · rw [Session.noteMain_eq fun p hq => hp ⟨p, hq⟩]
      rcases adv.stores with ⟨p, -, hp', -⟩ | ⟨hp', -⟩ | ⟨-, -, hd'⟩
      · exact absurd hp' (hpc p)
      · have hn := hc.ending (by rw [hp']; rfl) (by rw [hp']; nofun)
        exact absurd (hinit'.symm.trans hn) nofun
      · exact h hinit' (fun p hq => hp ⟨p, hq⟩) (hd'.symm.trans hd)
  | @worked x d w hw =>
    intro hinit hpc hd
    have shake := (Worker.step_handshake hi.sane hw).2
    obtain ⟨hd', hf⟩ := shake.isDone_false_iff.mp hd
    obtain ⟨p, hp⟩ := h hinit hpc hd'
    refine ⟨p, ?_⟩
    show (if s.worker.pc = .setDone then none else s.outstanding) = some p
    rw [if_neg fun hpc => hf (Worker.phase_finishing.mpr hpc)]
    exact hp

/-! ### The refusals -/

/-- a worker that `send` has seen dead has failed, as `initialized_` is still set -/
theorem Reported.failed (h : Reported zc A s₀ es s) (hc : Called es s) (hi : s.Inv)
    (hp : s.main.pc = .sendErrorTest ∨ s.main.pc = .sendErrorCode) :
    s.data.isError = true ∧
      ∀ msg, Failed zc A s₀ es msg ↔ msg = workerErrorText zc s.data.errorCode := by
  have hpub := hi.control.flagOk.flag.symm.trans (h.seen hp)
  have hinit : s.main.initialized = true :=
    hc.admitted (by rcases hp with hp | hp <;> rw [hp] <;> rfl)
  have said : ∀ msg, Failed zc A s₀ es msg →
      s.data.isError = true ∧ msg = workerErrorText zc s.data.errorCode := by
    intro msg hf
    obtain ⟨code, hcode, ht⟩ := h.reports msg hf
    obtain ⟨herr, hnum⟩ := hcode.of_published hpub
    exact ⟨herr, by rw [hnum, ht]⟩
  rcases h.left (Worker.leaving_of_published hpub) with ht | ⟨msg, hf⟩
  · exact absurd (hinit.symm.trans (hc.told ht)) nofun
  · refine ⟨(said msg hf).1, fun msg' => ⟨fun hf' => (said msg' hf').2, ?_⟩⟩
    rintro rfl
    rw [← (said msg hf).2]
    exact hf

theorem Reported.refused (h : Reported zc A s₀ es s) (hi : s.Inv) (hc : Called es s) (hn : Noted s)
    {m : Sender} (hm : s.main.step zc s.data = some (d, m)) (hpc : m.pc = .ready (some false)) :
    d = s.data ∧ m.sockets = s.main.sockets ∧ m.errorHandler.isError = true ∧
      ((m.errorHandler.errorMsg = "You must initialize the sender object first" ∧
          s.main.initialized = false) ∨
        (m.errorHandler.errorMsg = Sender.ongoingText ∧ s.data.isDone = false ∧
          ∃ p, s.outstanding = some p) ∨
        (s.data.isTerminatedThread = true ∧
          ∀ msg, Failed zc A s₀ es msg ↔ msg = m.errorHandler.errorMsg)) := by
  unfold Sender.step at hm
  split at hm
  case h_1 => cases hm
  case h_2 p hp =>
    cases hinit : s.main.initialized with
    | true =>
      rw [hinit] at hm
      cases hm
      cases hpc
    | false =>
      rw [hinit] at hm
      cases hm
      exact ⟨rfl, rfl, rfl, .inl ⟨rfl, rfl⟩⟩
  case h_4 hp =>
    rw [(h.failed hc hi (.inl hp)).1] at hm
    cases hm
    cases hpc
  case h_5 hp =>
    cases hm
    exact ⟨rfl, rfl, rfl, .inr (.inr ⟨h.seen (.inr hp), (h.failed hc hi (.inr hp)).2⟩)⟩
  case h_6 p hp =>
    cases hd : s.data.isDone with
    | true =>
      rw [hd] at hm
      cases hm
      cases hpc
    | false =>
      rw [hd] at hm
      cases hm
      have hinit := hc.admitted (by rw [hp]; rfl)
      exact ⟨rfl, rfl, rfl, .inr (.inl ⟨rfl, rfl, hn hinit (by rw [hp]; nofun) hd⟩)⟩
  case h_7 | h_13 =>
    obtain ⟨x, -, he⟩ := Option.map_eq_some_iff.mp hm
    cases he
    cases hpc
  case h_3 | h_11 | h_16 =>
    cases hm
    unfold Sender.goto at hpc
    dsimp only at hpc
    split at hpc <;> cases hpc
  all_goals
    cases hm
    cases hpc

theorem reported_run (hr : (session zc A).run (Session.start h so err) es = some s) :
    s.Inv ∧ Called es s ∧ Noted s ∧ Reported zc A (Session.start h so err) es s := by
  refine ((Machine.runs_of_run hr).follows (fun l v => (session zc A).run _ l = some v ∧
    v.Inv ∧ Called l v ∧ Noted v ∧ Reported zc A (Session.start h so err) l v)
    ⟨rfl, Session.inv_start h so err, called_start h so err, nofun, reported_start h so err⟩ ?_).2
  rintro l v e v' ⟨hl, hi, hc, hn, hrep⟩ - hs
  exact ⟨Machine.run_snoc hl hs, hi.step hs, hc.step hi hs, hn.step hc hi hs, hrep.step hi hl hs⟩

/-- **`send` refuses for a reason.**  In every order of the steps of the two threads, a `send` that
returns false has touched nothing, and its text is one of three: the object is not initialised, and
then `end_sender` has been called; a list is accepted and not reported done; or a step of the worker
has failed, and the text is the complaint about that step, as about any that has failed. -/
theorem refusal_justified
    (hr : (session zc A).run (Session.start h so err) es = some s)
    (hs : s.step zc A .main = some t) (hpc : t.main.pc = .ready (some false)) :
    t.data = s.data ∧ t.main.sockets = s.main.sockets ∧ t.main.errorHandler.isError = true ∧
      ((t.main.errorHandler.errorMsg = "You must initialize the sender object first" ∧
          .callEndSender ∈ es) ∨
        (t.main.errorHandler.errorMsg = Sender.ongoingText ∧ ∃ p, s.outstanding = some p) ∨
        (s.data.isTerminatedThread = true ∧ ∀ msg, Failed zc A (Session.start h so err) es msg ↔
          msg = t.main.errorHandler.errorMsg)) := by
  obtain ⟨hi, hc, hn, hrep⟩ := reported_run hr
  cases Session.step_does hs with
  | ran hm =>
    obtain ⟨hd, hsock, herr, hwhy⟩ := hrep.refused hi hc hn hm hpc
    refine ⟨hd, hsock, herr, ?_⟩
    rcases hwhy with ⟨ht, hinit⟩ | ⟨ht, -, hp⟩ | hf
    · exact .inl ⟨ht, hc.ended (.inl hinit)⟩
    · exact .inr (.inl ⟨ht, hp⟩)
    · exact .inr (.inr hf)

/-- a list with one packet of one byte -/
def oneByteList : Heap := ⟨fun _ => [⟨.memoryLocation, 10, 1, 0⟩], fun _ _ _ => 0⟩

/-- the client is gone: the worker fails in its first `send` and publishes its end -/
def connectionReset : List SessionEvent :=
  fallAsleep ++ .callSend 0 :: List.replicate 6 .main ++ .worker .wake ::
    List.replicate 5 (.worker .tau) ++ .worker (.sent (-1)) :: List.replicate 5 (.worker .tau)

/-- the next `send` says so -/
theorem refusal_justified_reset :
    ∃ s t, (session true FastInts.lp64).run
        (Session.start oneByteList {} (Error.construct "TCPSenderZC"))
        (connectionReset ++ .callSend 0 :: List.replicate 3 .main) = some s ∧
      s.step true FastInts.lp64 .main = some t ∧
      Failed true FastInts.lp64 (Session.start oneByteList {} (Error.construct "TCPSenderZC"))
        (connectionReset ++ .callSend 0 :: List.replicate 3 .main)
        "Sender worker thread, error while sending the data. " := by
  have hrun : ((session true FastInts.lp64).run
      (Session.start oneByteList {} (Error.construct "TCPSenderZC"))
      (connectionReset ++ .callSend 0 :: List.replicate 3 .main)).bind
        (fun s => (s.step true FastInts.lp64 .main).map fun t =>
          (t.main.pc, t.main.errorHandler.errorMsg))
      = some (.ready (some false), "Sender worker thread, error while sending the data. ") := by
    decide
  obtain ⟨s, hs, hrest⟩ := Option.bind_eq_some_iff.mp hrun
  obtain ⟨t, ht, he⟩ := Option.map_eq_some_iff.mp hrest
  obtain ⟨hpc, hmsg⟩ := Prod.mk.inj he
  obtain ⟨-, -, -, hwhy⟩ := refusal_justified hs ht hpc
  refine ⟨s, t, hs, ht, ?_⟩
  rw [hmsg] at hwhy
  rcases hwhy with ⟨hn, -⟩ | ⟨hn, -⟩ | ⟨-, hf⟩
  · exact absurd hn (by decide)
  · exact absurd hn (by decide)
  · exact (hf _).mpr rfl

end
end RealTimeTransfer
