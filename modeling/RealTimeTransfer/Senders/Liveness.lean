import RealTimeTransfer.Lib.Progress
import RealTimeTransfer.Senders.Session
import RealTimeTransfer.Senders.Transmission

/-!
# The end of a sender

`end_sender` waits for the worker to end.  Once `terminate_thread` is set a worker finishes or drops
the list it is at, makes one more call of `send` or `sendfile` at most, and does not wait for
another list; `Worker.left` bounds the steps it still takes.

* `Worker.Sized`             the loop variable and the counters stay within an `int`;
* `Worker.left`              the steps left to a worker that is told to end;
* `Worker.can_step`          a worker is only ever stopped by the mutex, or over;
* `Session.Inv.goes_on`      no call of the main thread is ever stuck;
* `end_sender_ends`          `end_sender` returns after a bounded number of steps, in any order.
-/

namespace RealTimeTransfer
open Machines Words Sync

/-- the number of packets of the list that is pending -/
def pendingSize (h : Heap) (d : SenderWorkerData) : Nat :=
  d.packetsList.elim 0 fun p => (h.lists p).length

/-- the steps to the end from a point of a worker that is told to end, with `n` packets pending,
`l` in hand, `r` of these still to come and `o` notifications outstanding -/
def WorkerPc.left (n l r o : Nat) : WorkerPc → Nat
  | .dead => 0
  | .unwindLock => 1
  | .unwindFlag => 2
  | .pthreadExit => 3
  | .exitFlag => 4
  | .exitUnlock => 5
  | .exitCode _ => 6
  | .exitError _ _ => 7
  | .outerTest | .termTest | .sent _ => 8
  | .setDone => 9
  | .recvmsg => 3 * o + 8
  | .poll => 3 * o + 9
  | .zcTest => 3 * o + 10
  | .sending => 3 * o + 2 * r + 10
  | .packet => 3 * o + 2 * r + 11
  | .unlock => 3 * o + 2 * l + 12
  | .copy => 3 * o + 2 * n + 13
  | .listTest => 3 * o + 2 * n + 14
  | .lock | .relock => 3 * o + 2 * n + 15
  | .blocked => 3 * o + 2 * n + 16
  | .condWait => 3 * o + 2 * n + 17
  | .setRecvBuffer => 9
  | .setSendBuffer => 10
  | .setTimeout => 11
  | .setAffinity => 12
  | .initialized => 13
  | .alive => 14

/-- the calls of `send` and `sendfile` to come -/
def WorkerPc.sendsLeft : WorkerPc → Nat
  | .sending | .packet | .unlock | .copy | .listTest | .lock | .relock | .blocked | .condWait => 1
  | _ => 0

namespace Worker

/-- the notifications outstanding -/
def unreported (w : Worker) : Nat := (w.sendingCounter - w.lastSendingCounter).toNat

def left (n : Nat) (w : Worker) : Nat :=
  w.pc.left n w.dataToBeSent.length (w.dataToBeSent.length - w.i.toNat) w.unreported

/-- no `int` of the worker has overflowed -/
structure Sized (w : Worker) : Prop where
  length : w.dataToBeSent.length < 2^31
  last : -2^31 ≤ w.lastSendingCounter
  sent : w.sendingCounter < 2^31
  packet : w.pc = .packet → 0 ≤ w.i ∧ w.i ≤ w.dataToBeSent.length
  sending : w.pc = .sending ∨ (∃ s, w.pc = .sent s) → 0 ≤ w.i ∧ w.i < w.dataToBeSent.length

/-- the list that the worker copies fits an `int`, and a notification reports no more sends than are
outstanding -/
def Orderly (h : Heap) (d : SenderWorkerData) (w : Worker) (e : WorkerEvent) : Prop :=
  (w.pc = .copy → pendingSize h d < 2^31) ∧
    ∀ m, e = .recv (some m) →
      toS 32 (readNotificationZc m) ≤ w.sendingCounter - w.lastSendingCounter

section
variable {zc : Bool} {A : FastInts} {k : Nat} {h : Heap} {d d' : SenderWorkerData} {w w' : Worker}
  {e : WorkerEvent}

theorem Sized.other (hw : w.Sized) (hl : w'.dataToBeSent = w.dataToBeSent)
    (h1 : w'.lastSendingCounter = w.lastSendingCounter) (h2 : w'.sendingCounter = w.sendingCounter)
    (hp : w'.pc ≠ .packet ∧ w'.pc ≠ .sending ∧ ∀ s, w'.pc ≠ .sent s) : w'.Sized := by
  refine ⟨hl ▸ hw.length, h1 ▸ hw.last, h2 ▸ hw.sent, fun h => absurd h hp.1, ?_⟩
  rintro (h | ⟨s, h⟩)
  · exact absurd h hp.2.1
  · exact absurd h (hp.2.2 s)

theorem toS_bounds (x : Int) : -2^31 ≤ toS 32 x ∧ toS 32 x < 2^31 := by
  unfold toS
  have h0 := Int.emod_nonneg (x + 2^(32-1)) (by norm_num : (2^32 : Int) ≠ 0)
  have h1 := Int.emod_lt_of_pos (x + 2^(32-1)) (by norm_num : (0 : Int) < 2^32)
  omega

theorem Sized.index_eq (hw : w.Sized) (hpc : w.pc = .packet) :
    toU A.w32 w.i = w.i.toNat := by
  obtain ⟨h0, h1⟩ := hw.packet hpc
  obtain ⟨n, hn⟩ := Int.eq_ofNat_of_zero_le h0
  have hlen := hw.length
  rw [hn]
  exact toU_of_lt (A.lt32 (by omega))

/-- **A step keeps the variables within an `int`.** -/
theorem Sized.step (hw : w.Sized) (ho : Orderly h d w e)
    (hs : step zc A k h d w e = some (d', w')) : w'.Sized := by
  have outer : ∀ {v : Worker}, v.dataToBeSent = w.dataToBeSent →
      v.lastSendingCounter = w.lastSendingCounter → v.sendingCounter = w.sendingCounter →
      v.pc ≠ .packet ∧ v.pc ≠ .sending ∧ (∀ s, v.pc ≠ .sent s) → v.Sized :=
    fun hl h1 h2 hp => hw.other hl h1 h2 hp
  unfold Worker.step at hs
  split at hs
  case h_8 =>
    obtain ⟨m, -, he⟩ := Option.map_eq_some_iff.mp hs
    cases he
    exact outer rfl rfl rfl ⟨nofun, nofun, nofun⟩
  case h_13 =>
    obtain ⟨m, -, he⟩ := Option.map_eq_some_iff.mp hs
    cases he
    exact outer rfl rfl rfl ⟨nofun, nofun, nofun⟩
  case h_14 hpc =>
    obtain ⟨p, hp, he⟩ := Option.map_eq_some_iff.mp hs
    cases he
    have hsize := ho.1 hpc
    unfold pendingSize at hsize
    rw [hp] at hsize
    exact ⟨hsize, hw.last, hw.sent, nofun, nofun⟩
  case h_15 hpc =>
    rw [protUnlock_eq] at hs
    cases hs
    exact ⟨hw.length, hw.last, hw.sent, fun _ => ⟨le_rfl, Int.natCast_nonneg _⟩, nofun⟩
  case h_16 hpc =>
    obtain ⟨v, hv, he⟩ := Option.map_eq_some_iff.mp hs
    cases he
    have hi := hw.packet hpc
    rcases nextPacket_cases hv with ⟨p, _, _, _, rfl⟩ | ⟨p, hlt, _, _, rfl⟩ | ⟨_, rfl⟩
    · exact outer rfl rfl rfl ⟨nofun, nofun, nofun⟩
    · rw [hw.index_eq hpc] at hlt
      refine ⟨hw.length, hw.last, hw.sent, nofun, fun _ => ⟨hi.1, ?_⟩⟩
      show w.i < w.dataToBeSent.length
      omega
    · cases zc <;> exact outer rfl rfl rfl ⟨nofun, nofun, nofun⟩
  case h_17 hpc =>
    obtain ⟨-, he⟩ := Option.ite_none_right_eq_some.mp hs
    cases he
    have hi := hw.sending (.inl hpc)
    have hlen := hw.length
    have hnext : toS 32 (w.i + 1) = w.i + 1 := toS_of_range (by decide) (by omega) (by omega)
    refine ⟨hw.length, hw.last, hw.sent, fun _ => ?_, nofun⟩
    show 0 ≤ toS 32 (w.i + 1) ∧ toS 32 (w.i + 1) ≤ w.dataToBeSent.length
    omega
  case h_18 s hpc =>
    obtain ⟨-, he⟩ := Option.ite_none_right_eq_some.mp hs
    cases he
    refine ⟨hw.length, hw.last, ?_, nofun, fun _ => hw.sending (.inl hpc)⟩
    show (if (zc && w.isMemory) = true then toS 32 (w.sendingCounter + 1) else _) < 2^31
    split
    · exact (toS_bounds _).2
    · exact hw.sent
  case h_19 s hpc =>
    cases hs
    split
    · exact outer rfl rfl rfl ⟨nofun, nofun, nofun⟩
    · rcases unlessTerminated_cases w d (w.sentBytes A s) with ⟨_, hu⟩ | ⟨_, hu⟩
      · rw [hu]
        exact outer rfl rfl rfl ⟨nofun, nofun, nofun⟩
      · rw [hu]
        exact ⟨hw.length, hw.last, hw.sent, nofun, fun _ => hw.sending (.inr ⟨s, hpc⟩)⟩
  case h_23 m hpc =>
    cases hs
    unfold notified
    split
    · exact outer rfl rfl rfl ⟨nofun, nofun, nofun⟩
    · exact ⟨hw.length, (toS_bounds _).1, hw.sent, nofun, nofun⟩
  case h_27 | h_31 =>
    rw [protUnlock_eq] at hs
    cases hs
    exact outer rfl rfl rfl ⟨nofun, nofun, nofun⟩
  case h_29 =>
    cases hs
    exact ⟨Nat.two_pow_pos 31, hw.last, hw.sent, nofun, nofun⟩
  case h_32 => cases hs
  all_goals
    obtain rfl := (Prod.mk.inj (Option.some.inj hs)).2
    clear hs
  case h_3 | h_4 | h_5 | h_6 | h_21 =>
    unfold orEnd
    split <;> exact outer rfl rfl rfl ⟨nofun, nofun, nofun⟩
  case h_7 | h_10 =>
    unfold unlessTerminated
    split <;> exact outer rfl rfl rfl ⟨nofun, nofun, nofun⟩
  case h_9 | h_20 =>
    refine outer rfl rfl rfl ?_
    unfold goto
    dsimp only
    split <;> exact ⟨nofun, nofun, nofun⟩
  all_goals exact outer rfl rfl rfl ⟨nofun, nofun, nofun⟩

instance (h : Heap) (d : SenderWorkerData) (w : Worker) (e : WorkerEvent) :
    Decidable (Orderly h d w e) :=
  match e with
  | .recv (some m) =>
    decidable_of_iff ((w.pc = .copy → pendingSize h d < 2^31) ∧
      toS 32 (readNotificationZc m) ≤ w.sendingCounter - w.lastSendingCounter)
      (and_congr Iff.rfl ⟨fun hm _ he => by cases he; exact hm, fun hm => hm m rfl⟩)
  | .recv none | .tau | .call _ | .wake | .sent _ =>
    decidable_of_iff (w.pc = .copy → pendingSize h d < 2^31) ⟨fun hc => ⟨hc, nofun⟩, And.left⟩

/-- a step that leaves fewer steps, and fewer calls of `send` and `sendfile` -/
def Lowers (n : Nat) (w : Worker) (e : WorkerEvent) (n' : Nat) (w' : Worker) : Prop :=
  w'.left n' < w.left n ∧ w'.pc.sendsLeft + (if e.isSent then 1 else 0) ≤ w.pc.sendsLeft

variable {n n' : Nat} {pc pc' : WorkerPc}

theorem left_at (hpc : w.pc = pc) : w.left n
    = pc.left n w.dataToBeSent.length (w.dataToBeSent.length - w.i.toNat) w.unreported := by
  rw [left, hpc]

theorem lowers_goto (hpc : w.pc = pc) (he : e.isSent = false)
    (hlt : ∀ l r o, pc'.left n' l r o < pc.left n l r o) (hs : pc'.sendsLeft ≤ pc.sendsLeft) :
    Lowers n w e n' (w.goto pc') := by
  unfold Lowers
  rw [left_at hpc, hpc, he]
  exact ⟨hlt _ _ _, hs⟩

theorem lowers_end (hpc : w.pc = pc) (he : e.isSent = false) (hlt : ∀ l r o, 7 < pc.left n l r o)
    (flag : Bool) (code : ErrorCode) : Lowers n w e n' (w.endThreadError flag code) :=
  lowers_goto hpc he hlt (Nat.zero_le _)

theorem lowers_orEnd {ok : Bool} {code : ErrorCode} (hpc : w.pc = pc) (he : e.isSent = false)
    (hlt : ∀ l r o, 7 < pc.left n l r o ∧ pc'.left n l r o < pc.left n l r o)
    (hs : pc'.sendsLeft ≤ pc.sendsLeft) : Lowers n w e n (w.orEnd ok pc' code) := by
  unfold orEnd
  cases ok with
  | true => exact lowers_goto hpc he (fun l r o => (hlt l r o).2) hs
  | false => exact lowers_end hpc he (fun l r o => (hlt l r o).1) true code

/-- **A worker that is told to end has one step less to go after each.** -/
theorem step_lowers (ht : d.terminateThread = true) (hw : w.Sized) (ho : Orderly h d w e)
    (hs : step zc A k h d w e = some (d', w')) :
    Lowers (pendingSize h d) w e (pendingSize h d') w' := by
  unfold Worker.step at hs
  split at hs
  case h_3 hpc | h_4 hpc | h_5 hpc | h_6 hpc | h_21 hpc =>
    cases hs
    exact lowers_orEnd hpc rfl (fun _ _ _ => by simp [WorkerPc.left]) le_rfl
  case h_7 hpc | h_10 hpc =>
    cases hs
    unfold unlessTerminated
    rw [if_pos ht]
    exact lowers_end hpc rfl (fun _ _ _ => by simp [WorkerPc.left]) false .noError
  case h_8 hpc | h_13 hpc =>
    obtain ⟨m, -, he⟩ := Option.map_eq_some_iff.mp hs
    cases he
    exact lowers_goto hpc rfl (fun _ _ _ => by simp [WorkerPc.left, pendingSize]) le_rfl
  case h_9 hpc =>
    cases hs
    split
    · exact lowers_goto hpc rfl (fun _ _ _ => by simp [WorkerPc.left]) (Nat.zero_le _)
    · exact lowers_goto hpc rfl (fun _ _ _ => by simp [WorkerPc.left]) le_rfl
  case h_14 hpc =>
    obtain ⟨p, hp, he⟩ := Option.map_eq_some_iff.mp hs
    cases he
    unfold Lowers
    rw [left_at hpc, hpc]
    simp [left, WorkerPc.left, WorkerPc.sendsLeft, pendingSize, hp, unreported, WorkerEvent.isSent]
  case h_15 hpc =>
    rw [protUnlock_eq] at hs
    cases hs
    unfold Lowers
    rw [left_at hpc, hpc]
    simp [left, WorkerPc.left, WorkerPc.sendsLeft, unreported, WorkerEvent.isSent]
  case h_16 hpc =>
    obtain ⟨v, hv, he⟩ := Option.map_eq_some_iff.mp hs
    cases he
    rcases nextPacket_cases hv with ⟨p, _, _, _, rfl⟩ | ⟨p, _, _, _, rfl⟩ | ⟨_, rfl⟩
    · exact lowers_end hpc rfl (fun _ _ _ => by simp [WorkerPc.left]) _ _
    · exact lowers_goto hpc rfl (fun _ _ _ => by simp [WorkerPc.left]) le_rfl
    · cases zc <;>
        exact lowers_goto hpc rfl (fun _ _ _ => by simp [WorkerPc.left]) (Nat.zero_le _)
  case h_17 hpc =>
    obtain ⟨-, he⟩ := Option.ite_none_right_eq_some.mp hs
    cases he
    have hi := hw.sending (.inl hpc)
    have hlen := hw.length
    have hnext : toS 32 (w.i + 1) = w.i + 1 := toS_of_range (by decide) (by omega) (by omega)
    unfold Lowers
    rw [left_at hpc, hpc]
    simp only [left, WorkerPc.left, hnext, unreported]
    exact ⟨by omega, le_rfl⟩
  case h_18 hpc =>
    obtain ⟨-, he⟩ := Option.ite_none_right_eq_some.mp hs
    cases he
    unfold Lowers
    rw [left_at hpc, hpc]
    exact ⟨by simp [left, WorkerPc.left], le_rfl⟩
  case h_19 s hpc =>
    cases hs
    unfold unlessTerminated
    rw [if_pos ht, ← apply_ite (fun f => w.endThreadError f.1 f.2) (s < 0) (true, .sendingError)
      (false, .noError)]
    exact lowers_end hpc rfl (fun _ _ _ => by simp [WorkerPc.left]) _ _
  case h_20 hpc =>
    cases hs
    split
    · exact lowers_goto hpc rfl (fun _ _ _ => by simp [WorkerPc.left]) le_rfl
    · exact lowers_goto hpc rfl (fun _ _ _ => by simp [WorkerPc.left]) le_rfl
  case h_22 hpc =>
    cases hs
    exact lowers_end hpc rfl (fun _ _ _ => by simp [WorkerPc.left]) _ _
  case h_23 m hpc =>
    cases hs
    unfold notified
    by_cases hm : toS 32 (readNotificationZc m) < 1
    · rw [if_pos hm]
      exact lowers_end hpc rfl (fun _ _ _ => by simp [WorkerPc.left]) _ _
    · rw [if_neg hm]
      have hfit := ho.2 m rfl
      have hlast := hw.last
      have hsent := hw.sent
      have hnext : toS 32 (w.lastSendingCounter + toS 32 (readNotificationZc m))
          = w.lastSendingCounter + toS 32 (readNotificationZc m) :=
        toS_of_range (by decide) (by omega) (by omega)
      unfold Lowers
      rw [left_at hpc, hpc]
      simp only [left, WorkerPc.left, hnext, unreported]
      exact ⟨by omega, le_rfl⟩
  case h_27 hpc | h_31 hpc =>
    rw [protUnlock_eq] at hs
    cases hs
    exact lowers_goto hpc rfl (fun _ _ _ => by simp [WorkerPc.left]) le_rfl
  case h_29 hpc =>
    cases hs
    unfold Lowers
    rw [left_at hpc, hpc]
    exact ⟨by simp [left, WorkerPc.left], le_rfl⟩
  case h_32 => cases hs
  all_goals
    rename_i hpc
    cases hs
    exact lowers_goto hpc rfl (fun _ _ _ => by simp [WorkerPc.left, pendingSize]) le_rfl

theorem left_mono (hn : n ≤ n') : w.left n ≤ w.left n' := by
  unfold left
  cases w.pc <;> simp only [WorkerPc.left] <;> omega

theorem left_le (n : Nat) (w : Worker) :
    w.left n ≤ 3 * w.unreported + 2 * max n w.dataToBeSent.length + 17 := by
  unfold left
  cases w.pc <;> simp only [WorkerPc.left] <;> omega

/-- **A worker is stopped by the mutex only, or over**, and with the mutex in hand it waits for
nothing outside. -/
theorem can_step (zc : Bool) (A : FastInts) (k : Nat) (h : Heap) (hw : w.Sized) (hd : w.pc ≠ .dead)
    (hm : w.pc = .lock ∨ w.pc = .relock → d.packetsMutex = none)
    (hc : w.pc = .copy → d.packetsList ≠ none) :
    ∃ e x, w.step zc A k h d e = some x ∧ (w.phase.holds = true → e = .tau) := by
  have quiet : (w.step zc A k h d .tau).isSome = true →
      ∃ e x, w.step zc A k h d e = some x ∧ (w.phase.holds = true → e = .tau) := by
    intro hx
    obtain ⟨x, hx⟩ := Option.isSome_iff_exists.mp hx
    exact ⟨.tau, x, hx, fun _ => rfl⟩
  have answer : ∀ e pc, w.pc = pc → { w with pc := pc }.phase.holds = false →
      (w.step zc A k h d e).isSome = true →
      ∃ e x, w.step zc A k h d e = some x ∧ (w.phase.holds = true → e = .tau) := by
    intro e pc hpc hp hx
    obtain ⟨x, hx⟩ := Option.isSome_iff_exists.mp hx
    refine ⟨e, x, hx, fun hh => ?_⟩
    rw [← hpc] at hp
    exact absurd (hh.symm.trans hp) nofun
  cases hpc : w.pc with
  | setAffinity | setTimeout | setSendBuffer | setRecvBuffer | poll =>
    exact answer (.call false) _ hpc rfl (by unfold Worker.step; rw [hpc]; rfl)
  | blocked => exact answer .wake _ hpc rfl (by unfold Worker.step; rw [hpc]; rfl)
  | recvmsg => exact answer (.recv none) _ hpc rfl (by unfold Worker.step; rw [hpc]; rfl)
  | lock => exact quiet (by unfold Worker.step acquire; rw [hpc, hm (.inl hpc)]; rfl)
  | relock => exact quiet (by unfold Worker.step acquire; rw [hpc, hm (.inr hpc)]; rfl)
  | copy =>
    obtain ⟨p, hp⟩ := Option.ne_none_iff_exists'.mp (hc hpc)
    exact quiet (by unfold Worker.step; rw [hpc]; dsimp only; rw [hp]; rfl)
  | packet =>
    obtain ⟨i, hi⟩ := Int.eq_ofNat_of_zero_le (hw.packet hpc).1
    have hle := (hw.packet hpc).2
    have hlen := hw.length
    obtain ⟨v, hv⟩ := nextPacket_isSome zc A hi (by omega)
    exact quiet (by unfold Worker.step; rw [hpc]; dsimp only; rw [hv]; rfl)
  | sending =>
    by_cases hr : w.remainingData = 0
    · exact quiet (by unfold Worker.step; rw [hpc]; dsimp only; rw [if_pos hr]; rfl)
    · refine answer (.sent (-1)) _ hpc rfl ?_
      unfold Worker.step
      rw [hpc]
      dsimp only
      rw [if_pos ⟨hr, by omega⟩]
      rfl
  | dead => exact absurd hpc hd
  | _ => exact quiet (by unfold Worker.step; rw [hpc]; rfl)

end
end Worker

theorem Sender.can_step (zc : Bool) {d : SenderWorkerData} {m : Sender}
    (hr : m.pc.isReady = false)
    (hm : (∃ p, m.pc = .sendLock p) ∨ m.pc = .endLock → d.packetsMutex = none) :
    ∃ x, m.step zc d = some x := by
  cases hpc : m.pc with
  | ready r =>
    rw [hpc] at hr
    cases hr
  | sendLock p =>
    exact ⟨_, by unfold Sender.step; rw [hpc]; dsimp only; rw [hm (.inl ⟨p, hpc⟩)]; rfl⟩
  | endLock => exact ⟨_, by unfold Sender.step; rw [hpc]; dsimp only; rw [hm (.inr hpc)]; rfl⟩
  | _ => exact ⟨_, by unfold Sender.step; rw [hpc]⟩

/-! ## The calls -/

namespace Session

/-- the condition on the lists and the notifications -/
def Orderly (s : Session) : SessionEvent → Prop
  | .worker e => s.worker.Orderly s.heap s.data e
  | _ => True

instance (s : Session) (e : SessionEvent) : Decidable (s.Orderly e) :=
  match e with
  | .worker e => inferInstanceAs (Decidable (s.worker.Orderly s.heap s.data e))
  | .callSend _ | .callEndSender | .isSendDone _ | .getError _ | .main | .write _ => .isTrue trivial

/-- a step of either thread while a call of the main thread is under way -/
def Calling (s : Session) (e : SessionEvent) : Prop := s.Orderly e ∧ s.main.pc.isReady = false

instance (s : Session) (e : SessionEvent) : Decidable (s.Calling e) :=
  inferInstanceAs (Decidable (_ ∧ _))

/-- every step counts but a look at `is_terminated_thread` that finds it false -/
def useful (s : Session) : SessionEvent → Nat
  | .main => if s.main.pc = .endWait ∧ s.data.isTerminatedThread = false then 0 else 1
  | _ => 1

end Session

def SessionEvent.isSent : SessionEvent → Bool
  | .worker e => e.isSent
  | _ => false

section
variable {zc : Bool} {A : FastInts} {s t : Session}

theorem sized_start (h : Heap) (so : Sockets) (err : Error) :
    (Session.start h so err).worker.Sized := by
  refine ⟨Nat.two_pow_pos 31, by norm_num [Session.start], by norm_num [Session.start], nofun, ?_⟩
  rintro (h | ⟨n, h⟩) <;> cases h

theorem Session.sized_step {e : SessionEvent} (hw : s.worker.Sized) (ho : s.Orderly e)
    (hs : s.step zc A e = some t) : t.worker.Sized := by
  cases Session.step_does hs with
  | ran hm =>
    show s.noteMain.worker.Sized
    rw [Session.noteMain_worker]
    exact hw
  | worked hw' => exact hw.step ho hw'
  | called | calledEnd | asked | told | written => exact hw

theorem Session.Inv.worker_goes_on (zc : Bool) (A : FastInts) (hi : s.Inv) (hw : s.worker.Sized)
    (hd : s.worker.pc ≠ .dead) (hh : s.main.pc.holds = false) :
    ∃ e t, s.step zc A (.worker e) = some t := by
  have hmutex := hi.control.mutexOk.mutex
  unfold holder at hmutex
  have free : s.worker.pc = .lock ∨ s.worker.pc = .relock → s.data.packetsMutex = none := by
    intro hl
    have hp : s.worker.phase = .free := by
      unfold Worker.phase
      rcases hl with hl | hl <;> rw [hl]
    rw [hmutex, hp, hh]
    rfl
  have taking : s.worker.pc = .copy → s.data.packetsList ≠ none :=
    fun hc => hi.control.handOk.taking (Worker.phase_taking.mpr hc)
  obtain ⟨e, x, hx, -⟩ := Worker.can_step zc A 0 s.heap hw hd free taking
  exact ⟨e, _, Option.map_eq_some_iff.mpr ⟨x, hx, rfl⟩⟩

/-- **A call under way is never stuck**: a step that counts is possible. -/
theorem Session.Inv.goes_on (hi : s.Inv) (hw : s.worker.Sized) (hr : s.main.pc.isReady = false) :
    ∃ e t, s.step zc A e = some t ∧ s.useful e = 1 := by
  have worker : s.worker.pc ≠ .dead → s.main.pc.holds = false →
      ∃ e t, s.step zc A e = some t ∧ s.useful e = 1 := by
    intro hd hh
    obtain ⟨e, t, ht⟩ := hi.worker_goes_on zc A hw hd hh
    exact ⟨.worker e, t, ht, rfl⟩
  by_cases hpoll : s.main.pc = .endWait ∧ s.data.isTerminatedThread = false
  · have hpub : s.worker.phase.published = false := hi.control.flagOk.flag.symm.trans hpoll.2
    refine worker (fun hd => ?_) (by rw [hpoll.1]; rfl)
    unfold Worker.phase at hpub
    rw [hd] at hpub
    cases hpub
  by_cases hm : (∃ p, s.main.pc = .sendLock p) ∨ s.main.pc = .endLock → s.data.packetsMutex = none
  · obtain ⟨x, hx⟩ := Sender.can_step zc hr hm
    refine ⟨.main, _, Option.map_eq_some_iff.mpr ⟨x, hx, rfl⟩, ?_⟩
    unfold Session.useful
    rw [if_neg hpoll]
  · obtain ⟨hl, hne⟩ := Classical.not_imp.mp hm
    have hh : s.main.pc.holds = false := by
      rcases hl with ⟨p, hl⟩ | hl <;> rw [hl] <;> rfl
    refine worker (fun hd => hne ?_) hh
    have hmutex := hi.control.mutexOk.mutex
    unfold holder at hmutex
    have hp : s.worker.phase = .over := by
      unfold Worker.phase
      rw [hd]
    rw [hmutex, hp, hh]
    rfl

end

/-! ## The end of a sender -/

/-- the steps of `end_sender` behind its store of `terminate_thread`, without its polls -/
def SenderPc.endLeft : SenderPc → Nat
  | .endLock => 5
  | .endStore => 4
  | .endUnlock => 3
  | .endWait => 2
  | .endClose => 1
  | _ => 0

/-- `end_sender` has set `terminate_thread`, and goes on or has returned -/
structure Stopping (s : Session) : Prop where
  inv : s.Inv
  sized : s.worker.Sized
  told : s.data.terminateThread = true
  place : s.main.pc.terminating = true ∨ s.main.pc = .endClose ∨ s.main.pc.isReady = true

section
variable {zc : Bool} {A : FastInts} {s t : Session} {d d' : SenderWorkerData} {pc pc' : SenderPc}
  {e : SessionEvent}

theorem Advance.stopping (h : Advance d pc d' pc') (hp : pc.terminating = true ∨ pc = .endClose) :
    (pc'.terminating = true ∨ pc' = .endClose ∨ pc'.isReady = true) ∧
      d'.terminateThread = d.terminateThread ∧
      (d'.packetsList = d.packetsList ∨ d'.packetsList = none) ∧
      pc'.endLeft + (if pc = .endWait ∧ d.isTerminatedThread = false then 0 else 1)
        ≤ pc.endLeft := by
  cases h
  case endLock => exact ⟨.inl rfl, rfl, .inl rfl, by simp [SenderPc.endLeft]⟩
  case endStore => exact ⟨.inl rfl, rfl, .inr rfl, by simp [SenderPc.endLeft]⟩
  case endUnlock => exact ⟨.inl rfl, rfl, .inl rfl, by simp [SenderPc.endLeft]⟩
  case waited ht => exact ⟨.inr (.inl rfl), rfl, .inl rfl, by simp [SenderPc.endLeft, ht]⟩
  case waiting ht => exact ⟨.inl rfl, rfl, .inl rfl, by simp [SenderPc.endLeft, ht]⟩
  case close => exact ⟨.inr (.inr rfl), rfl, .inl rfl, by simp [SenderPc.endLeft]⟩
  case refused hn =>
    rcases hp with hp | rfl
    · cases pc <;> first | cases hp; done | cases hn
    · cases hn
  all_goals rcases hp with hp | hp <;> cases hp

/-- the steps left to both threads -/
def Session.endLeft (s : Session) : Nat :=
  s.worker.left (pendingSize s.heap s.data) + s.main.pc.endLeft

/-- **A step of either thread brings the end of `end_sender` nearer.** -/
theorem Stopping.step (h : Stopping s) (hc : s.Calling e) (hs : s.step zc A e = some t) :
    Stopping t ∧ t.endLeft + s.useful e ≤ s.endLeft ∧
      t.worker.pc.sendsLeft + (if e.isSent then 1 else 0) ≤ s.worker.pc.sendsLeft := by
  obtain ⟨ho, hr⟩ := hc
  have hinv := h.inv.step hs
  have hsized := Session.sized_step h.sized ho hs
  have hplace : s.main.pc.terminating = true ∨ s.main.pc = .endClose := by
    rcases h.place with hp | hp | hp
    · exact .inl hp
    · exact .inr hp
    · exact absurd (hp.symm.trans hr) nofun
  cases Session.step_does hs with
  | @ran d m hm =>
    obtain ⟨hp, ht, hl, hle⟩ := (Sender.step_advance hm).stopping hplace
    have hsize : pendingSize s.heap d ≤ pendingSize s.heap s.data := by
      unfold pendingSize
      rcases hl with hl | hl <;> rw [hl]
      exact Nat.zero_le _
    refine ⟨⟨hinv, hsized, ht.trans h.told, hp⟩, ?_, ?_⟩
    · have hmono := Worker.left_mono (w := s.worker) hsize
      show s.noteMain.worker.left (pendingSize s.noteMain.heap d) + m.pc.endLeft
        + (if _ then 0 else 1)
        ≤ s.worker.left (pendingSize s.heap s.data) + s.main.pc.endLeft
      rw [Session.noteMain_worker, Session.noteMain_heap]
      omega
    · show s.noteMain.worker.pc.sendsLeft + 0 ≤ _
      rw [Session.noteMain_worker]
      exact le_rfl
  | @worked e d w hw =>
    obtain ⟨hlt, hsl⟩ := Worker.step_lowers h.told h.sized ho hw
    have hd : d.terminateThread = true :=
      (Worker.step_handshake h.inv.sane hw).2.terminateThread_eq.trans h.told
    refine ⟨⟨hinv, hsized, hd, h.place⟩, ?_, hsl⟩
    unfold Session.endLeft
    show w.left (pendingSize s.heap d) + s.main.pc.endLeft + 1 ≤ _
    omega
  | called _ hr' | calledEnd hr' | asked hr' | told _ _ hr' | written _ hr' =>
    exact absurd (hr'.symm.trans hr) nofun

end

section
variable {zc : Bool} {A : FastInts} {s t : Session} {h : Heap} {so : Sockets} {err : Error}
  {es ls : List SessionEvent}

theorem orderly_run (hr : (session zc A).Runs Session.Orderly (Session.start h so err) es s) :
    s.Inv ∧ s.worker.Sized := by
  refine hr.keeps (fun v => v.Inv ∧ v.worker.Sized)
    ⟨Session.inv_start h so err, sized_start h so err⟩ ?_
  rintro v e v' ⟨hi, hw⟩ ho hs
  exact ⟨hi.step hs, Session.sized_step hw ho hs⟩

/-- **`end_sender` returns.**  From the moment at which it has set `terminate_thread`, whatever the
order in which the two threads take their steps, and whatever the kernel answers: at most
`3 * notifications outstanding + 2 * packets + 22` steps are taken until it returns, looks at
`is_terminated_thread` that find it false apart; another step is possible until then; and the
worker calls `send` or `sendfile` once more at most. -/
theorem end_sender_ends
    (hr : (session zc A).Runs Session.Orderly (Session.start h so err) es s)
    (hpc : s.main.pc.terminating = true) (hl : (session zc A).Runs Session.Calling s ls t) :
    (session zc A).tally Session.useful s ls ≤ 3 * s.worker.unreported +
        2 * max (pendingSize s.heap s.data) s.worker.dataToBeSent.length + 22 ∧
      ls.countP SessionEvent.isSent ≤ 1 ∧
      (t.main.pc.isReady = false → ∃ e u, t.step zc A e = some u ∧ t.useful e = 1) := by
  obtain ⟨hi, hw⟩ := orderly_run hr
  have h0 : Stopping s := ⟨hi, hw, hi.control.waitOk.terminate hpc, .inl hpc⟩
  have htally := hl.tally_le Session.useful Stopping Session.endLeft h0 fun v e v' hv hc hs =>
    ⟨(hv.step hc hs).1, (hv.step hc hs).2.1⟩
  have hsent := hl.countP_le SessionEvent.isSent Stopping (fun v => v.worker.pc.sendsLeft) h0
    fun v e v' hv hc hs => ⟨(hv.step hc hs).1, (hv.step hc hs).2.2⟩
  refine ⟨?_, ?_, fun hn => ?_⟩
  · have hle := s.worker.left_le (pendingSize s.heap s.data)
    have hend : s.main.pc.endLeft ≤ 5 := by cases s.main.pc <;> simp [SenderPc.endLeft]
    unfold Session.endLeft at htally
    omega
  · have hle : s.worker.pc.sendsLeft ≤ 1 := by cases s.worker.pc <;> simp [WorkerPc.sendsLeft]
    omega
  · have ht : Stopping t := hl.keeps Stopping h0 fun v e v' hv hc hs => (hv.step hc hs).1
    exact ht.inv.goes_on ht.sized hn

/-- the worker sleeps, and is told to end -/
def toldAsleep : List SessionEvent := fallAsleep ++ [.callEndSender, .main, .main, .main]

/-- the signal wakes it, and it ends under the eyes of `end_sender` -/
theorem end_sender_ends_asleep :
    ∃ s t,
      (session false FastInts.lp64).run (Session.start noMemory {} (Error.construct "TCPSender"))
        toldAsleep = some s ∧
      (session false FastInts.lp64).run s ([.main, .main, .main, .main, .worker .wake] ++
        List.replicate 7 (.worker .tau)) = some t ∧
      (session false FastInts.lp64).tally Session.useful s
        ([.main, .main, .main, .main, .worker .wake] ++
        List.replicate 7 (.worker .tau)) ≤ 22 ∧
      ∃ e u, t.step false FastInts.lp64 e = some u ∧ t.useful e = 1 := by
  have hrun : (((session false FastInts.lp64).restrict Session.Orderly).run
      (Session.start noMemory {} (Error.construct "TCPSender")) toldAsleep).bind
        (fun s => (((session false FastInts.lp64).restrict Session.Calling).run s
          ([.main, .main, .main, .main, .worker .wake] ++
            List.replicate 7 (.worker .tau))).map fun t =>
            (s.main.pc, s.worker.unreported, s.worker.dataToBeSent.length,
              pendingSize s.heap s.data, t.main.pc))
      = some (.endLock, 0, 0, 0, .endWait) := by decide
  obtain ⟨s, hs, hrest⟩ := Option.bind_eq_some_iff.mp hrun
  obtain ⟨t, ht, he⟩ := Option.map_eq_some_iff.mp hrest
  obtain ⟨h1, h2, h3, h4, h5⟩ : s.main.pc = .endLock ∧ s.worker.unreported = 0 ∧
      s.worker.dataToBeSent.length = 0 ∧ pendingSize s.heap s.data = 0 ∧ t.main.pc = .endWait := by
    simpa using he
  have hr := Machine.Runs.of_restrict hs
  have hl := Machine.Runs.of_restrict ht
  obtain ⟨htally, -, hon⟩ := end_sender_ends hr (by rw [h1]; rfl) hl
  rw [h2, h3, h4] at htally
  exact ⟨s, t, hr.run_eq, hl.run_eq, htally, hon (by rw [h5]; rfl)⟩

end

end RealTimeTransfer
