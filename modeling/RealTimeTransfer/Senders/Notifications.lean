import RealTimeTransfer.Senders.Completion

/-!
# The notifications of a zero-copy socket

The control message of a zero-copy completion has the level and the type that the address family of
its socket gives it; `create_server` asks for `AF_UNSPEC` and binds whatever comes first.

* `Genuine fam`              the completions of a socket of the family `fam`;
* `Cmsg.ids`                 the number of ids in the range of a message;
* `judged_iff`               the messages that `read_notification_zc` judges as it should;
* `waiting`                  the wait loop of the worker, fed with the messages of a queue;
* `notifications_iff`        it accepts the completions of every socket of `AF_INET` and of no
                             other;
* `completion_refused`       a completion of an `AF_INET6` socket.
-/

namespace RealTimeTransfer
open Machines Words

/-- `ai_family` -/
inductive AddressFamily where
  | inet
  | inet6
  deriving DecidableEq, Repr

def solIpv6 : Int := 41
def ipv6Recverr : Int := 25

/-- the level and the type of an error-queue message -/
def AddressFamily.recverr : AddressFamily → Int × Int
  | .inet => (solIp, ipRecverr)
  | .inet6 => (solIpv6, ipv6Recverr)

namespace Cmsg

/-- a zero-copy completion on a socket of the family `fam` -/
def Genuine (fam : AddressFamily) (cm : Cmsg) : Prop :=
  (cm.cmsgLevel, cm.cmsgType) = fam.recverr ∧ cm.eeOrigin = soEeOriginZerocopy

instance (fam : AddressFamily) (cm : Cmsg) : Decidable (cm.Genuine fam) :=
  inferInstanceAs (Decidable (_ ∧ _))

/-- the number of ids from `ee_info` to `ee_data`, which may be behind a wrap -/
def ids (cm : Cmsg) : Nat := (((cm.eeData : Int) - cm.eeInfo) % 2^32).toNat + 1

end Cmsg

/-- what `read_notification_zc` should return -/
def judgement (fam : AddressFamily) : Option Cmsg → Int
  | none => -1
  | some cm => if cm.Genuine fam then (cm.ids % 2^32 : Nat) else -1

/-- the messages with the origin of a completion for which the test of level and type is right -/
def Judged : AddressFamily → Option Cmsg → Prop
  | _, none => True
  | .inet, some cm =>
    cm.eeOrigin = soEeOriginZerocopy → (cm.cmsgLevel = solIp ↔ cm.cmsgType = ipRecverr)
  | .inet6, some cm =>
    cm.eeOrigin = soEeOriginZerocopy → cm.cmsgLevel ≠ solIp ∧ cm.cmsgType ≠ ipRecverr ∧
      ¬ (cm.cmsgLevel = solIpv6 ∧ cm.cmsgType = ipv6Recverr)

/-- the sends that the messages of a queue report -/
def outstanding (q : List Cmsg) : Nat := (q.map Cmsg.ids).sum

/-- the wait loop of the worker `k`; `poll` finds the messages of the queue, one after the other -/
def waiting (A : FastInts) (k : Nat) (h : Heap) :
    Machine (Worker × List Cmsg) SenderWorkerData where
  step x d :=
    match x.1.pc, x.2 with
    | .zcTest, q => (x.1.step true A k h d .tau).map fun y => (y.2, q)
    | .poll, q => (x.1.step true A k h d (.call true)).map fun y => (y.2, q)
    | .recvmsg, cm :: q => (x.1.step true A k h d (.recv (some (some cm)))).map fun y => (y.2, q)
    | _, _ => none

/-- a run of the wait loop that is about to end: it is short, has not refused a message, is not
stuck, and where it ends the counters are equal and the queue is empty -/
structure Settling (A : FastInts) (k : Nat) (h : Heap) (q : List Cmsg) (es : List SenderWorkerData)
    (x : Worker × List Cmsg) : Prop where
  steps : es.length ≤ 3 * q.length + 1
  accepted : ∀ flag, x.1.pc ≠ .exitError flag .zcNotificationError
  live : x.1.pc ≠ .setDone → ∃ d y, (waiting A k h).step x d = some y
  done : x.1.pc = .setDone → x.1.lastSendingCounter = x.1.sendingCounter ∧ x.2 = []

section
variable {A : FastInts} {k : Nat} {h : Heap} {fam : AddressFamily} {cm : Cmsg} {m : Option Cmsg}
  {q q₀ : List Cmsg} {w : Worker} {es : List SenderWorkerData} {x y : Worker × List Cmsg}
  {d : SenderWorkerData}

/-! ## One message -/

theorem ids_eq (cm : Cmsg) : toU 32 (cm.eeData - cm.eeInfo + 1) = cm.ids % 2^32 := by
  unfold toU Cmsg.ids
  omega

theorem readNotificationZc_eq (cm : Cmsg) : readNotificationZc (some cm)
    = if (cm.cmsgLevel = solIp ∨ cm.cmsgType = ipRecverr) ∧ cm.eeOrigin = soEeOriginZerocopy then
        ((cm.ids % 2^32 : Nat) : Int) else -1 := by
  rw [← ids_eq]
  simp only [readNotificationZc]
  by_cases hl : cm.cmsgLevel = solIp <;> by_cases ht : cm.cmsgType = ipRecverr <;>
    by_cases ho : cm.eeOrigin = soEeOriginZerocopy <;> simp [hl, ht, ho]

theorem answer_eq_iff {P G : Prop} [Decidable P] [Decidable G] (n : Nat) :
    (if P then (n : Int) else -1) = (if G then (n : Int) else -1) ↔ (P ↔ G) := by
  have hn : (n : Int) ≠ -1 := by omega
  by_cases hp : P <;> by_cases hg : G <;> simp [hp, hg, hn, hn.symm]

/-- **The judgement of one message** is right if and only if it is one of these. -/
theorem judged_iff (fam : AddressFamily) (m : Option Cmsg) :
    readNotificationZc m = judgement fam m ↔ Judged fam m := by
  cases m with
  | none => exact ⟨fun _ => trivial, fun _ => rfl⟩
  | some cm =>
    rw [readNotificationZc_eq]
    unfold judgement
    rw [answer_eq_iff]
    unfold Cmsg.Genuine
    cases fam with
    | inet =>
      simp only [AddressFamily.recverr, Prod.mk.injEq, Judged]
      tauto
    | inet6 =>
      have hlevel : cm.cmsgLevel = solIpv6 → cm.cmsgLevel ≠ solIp := fun he => by rw [he]; decide
      have htype : cm.cmsgType = ipv6Recverr → cm.cmsgType ≠ ipRecverr :=
        fun he => by rw [he]; decide
      simp only [AddressFamily.recverr, Prod.mk.injEq, Judged]
      tauto

theorem accepted_inet (hg : cm.Genuine .inet) :
    readNotificationZc (some cm) = (cm.ids % 2^32 : Nat) := by
  obtain ⟨hrec, ho⟩ := hg
  rw [readNotificationZc_eq, if_pos ⟨.inl (Prod.mk.inj hrec).1, ho⟩]

theorem refused_inet6 (hg : cm.Genuine .inet6) : readNotificationZc (some cm) = -1 := by
  obtain ⟨hl, ht⟩ := Prod.mk.inj hg.1
  rw [readNotificationZc_eq, hl, ht]
  rfl

/-! ## The wait loop -/

theorem waiting_zcTest (hpc : w.pc = .zcTest) : (waiting A k h).step (w, q) d
    = some (w.goto (if w.lastSendingCounter < w.sendingCounter then .poll else .setDone), q) := by
  unfold waiting Worker.step
  simp only [hpc, Option.map_some]

theorem waiting_poll (hpc : w.pc = .poll) :
    (waiting A k h).step (w, q) d = some (w.goto .recvmsg, q) := by
  unfold waiting Worker.step
  simp only [hpc, Option.map_some]
  rfl

theorem waiting_recvmsg (hpc : w.pc = .recvmsg) :
    (waiting A k h).step (w, cm :: q) d = some (w.notified (some cm), q) := by
  unfold waiting Worker.step
  simp only [hpc, Option.map_some]

theorem notified_refused (hm : readNotificationZc m = -1) :
    (w.notified m).pc = .exitError true .zcNotificationError := by
  unfold Worker.notified
  rw [hm, if_pos (by decide)]
  rfl

theorem notified_accepted (hm : readNotificationZc (some cm) = (cm.ids % 2^32 : Nat))
    (hn : cm.ids < 2^31) :
    w.notified (some cm) = { w with
      pc := .zcTest, lastSendingCounter := toS 32 (w.lastSendingCounter + cm.ids) } := by
  have h1 : 1 ≤ cm.ids := Nat.le_add_left 1 _
  have hids : toS 32 (readNotificationZc (some cm)) = cm.ids := by
    rw [hm, Nat.mod_eq_of_lt (by omega)]
    exact toS_of_range (by decide) (by omega) (by omega)
  unfold Worker.notified
  rw [hids, if_neg (by omega)]

/-- the counters and the queue, and the steps so far -/
def Drains (q₀ : List Cmsg) (es : List SenderWorkerData) (x : Worker × List Cmsg) : Prop :=
  x.1.sendingCounter < 2^31 ∧ -2^31 ≤ x.1.lastSendingCounter ∧
    x.1.lastSendingCounter + outstanding x.2 = x.1.sendingCounter ∧ outstanding x.2 < 2^31 ∧
    (∀ cm ∈ x.2, readNotificationZc (some cm) = (cm.ids % 2^32 : Nat)) ∧
    match x.1.pc with
    | .zcTest => es.length + 3 * x.2.length = 3 * q₀.length
    | .poll => x.2 ≠ [] ∧ es.length + 3 * x.2.length = 3 * q₀.length + 1
    | .recvmsg => x.2 ≠ [] ∧ es.length + 3 * x.2.length = 3 * q₀.length + 2
    | .setDone => x.2 = [] ∧ es.length = 3 * q₀.length + 1
    | _ => False

theorem outstanding_cons : outstanding (cm :: q) = cm.ids + outstanding q := by
  simp [outstanding]

theorem ids_pos (cm : Cmsg) : 1 ≤ cm.ids := Nat.le_add_left 1 _

theorem outstanding_eq_zero : outstanding q = 0 ↔ q = [] := by
  cases q with
  | nil => exact ⟨fun _ => rfl, fun _ => rfl⟩
  | cons cm q =>
    have := ids_pos cm
    rw [outstanding_cons]
    exact ⟨fun h => by omega, nofun⟩

/-- **A step of the wait loop.** -/
theorem Drains.step (h0 : Drains q₀ es x) (hs : (waiting A k h).step x d = some y) :
    Drains q₀ (es ++ [d]) y := by
  obtain ⟨w, q⟩ := x
  obtain ⟨hS, hL, hsum, hn, hacc, hpc⟩ := h0
  have hlen : (es ++ [d]).length = es.length + 1 := List.length_append
  cases hp : w.pc
  case zcTest =>
    simp only [hp] at hpc
    rw [waiting_zcTest hp] at hs
    cases hs
    have hzero := outstanding_eq_zero (q := q)
    refine ⟨hS, hL, hsum, hn, hacc, ?_⟩
    change w.lastSendingCounter + (outstanding q : Int) = w.sendingCounter at hsum
    by_cases hlt : w.lastSendingCounter < w.sendingCounter
    · rw [if_pos hlt]
      refine ⟨fun hq => ?_, ?_⟩
      · have := hzero.mpr hq
        omega
      · show (es ++ [d]).length + 3 * q.length = _
        omega
    · rw [if_neg hlt]
      have hq : q = [] := hzero.mp (by omega)
      refine ⟨hq, ?_⟩
      rw [hq] at hpc
      rw [hlen, ← hpc]
      rfl
  case poll =>
    simp only [hp] at hpc
    rw [waiting_poll hp] at hs
    cases hs
    refine ⟨hS, hL, hsum, hn, hacc, hpc.1, ?_⟩
    show (es ++ [d]).length + 3 * q.length = _
    omega
  case recvmsg =>
    simp only [hp] at hpc
    cases q with
    | nil => exact absurd rfl hpc.1
    | cons cm q =>
      change w.lastSendingCounter + (outstanding (cm :: q) : Int) = w.sendingCounter at hsum
      change -2^31 ≤ w.lastSendingCounter at hL
      change w.sendingCounter < 2^31 at hS
      rw [outstanding_cons] at hsum hn
      rw [waiting_recvmsg hp, notified_accepted (hacc cm List.mem_cons_self) (by omega)] at hs
      cases hs
      have hlast : toS 32 (w.lastSendingCounter + cm.ids) = w.lastSendingCounter + cm.ids :=
        toS_of_range (by decide) (by omega) (by omega)
      refine ⟨hS, ?_, ?_, ?_, fun cm' hm => hacc cm' (List.mem_cons_of_mem _ hm), ?_⟩
      · show -2^31 ≤ toS 32 (w.lastSendingCounter + cm.ids)
        omega
      · show toS 32 (w.lastSendingCounter + cm.ids) + (outstanding q : Int) = w.sendingCounter
        omega
      · show outstanding q < 2^31
        omega
      · have hcons : (cm :: q).length = q.length + 1 := rfl
        show (es ++ [d]).length + 3 * q.length = 3 * q₀.length
        omega
  case setDone =>
    simp only [waiting, hp] at hs
    cases hs
  all_goals simp only [hp] at hpc

theorem Drains.settling (h0 : Drains q₀ es x) : Settling A k h q₀ es x := by
  obtain ⟨w, q⟩ := x
  obtain ⟨hS, hL, hsum, hn, hacc, hpc⟩ := h0
  cases hp : w.pc
  case zcTest =>
    simp only [hp] at hpc
    refine ⟨by omega, fun _ => ?_, fun _ => ⟨{}, _, waiting_zcTest hp⟩, fun hd => ?_⟩
    · rw [hp]
      nofun
    · cases hp.symm.trans hd
  case poll =>
    simp only [hp] at hpc
    have hlen := List.length_pos_iff.mpr hpc.1
    refine ⟨by omega, fun _ => ?_, fun _ => ⟨{}, _, waiting_poll hp⟩, fun hd => ?_⟩
    · rw [hp]
      nofun
    · cases hp.symm.trans hd
  case recvmsg =>
    simp only [hp] at hpc
    have hlen := List.length_pos_iff.mpr hpc.1
    refine ⟨by omega, fun _ => ?_, fun _ => ?_, fun hd => ?_⟩
    · rw [hp]
      nofun
    · cases q with
      | nil => exact absurd rfl hpc.1
      | cons cm q => exact ⟨{}, _, waiting_recvmsg hp⟩
    · cases hp.symm.trans hd
  case setDone =>
    simp only [hp] at hpc
    obtain ⟨rfl, hlen⟩ := hpc
    refine ⟨by omega, fun _ => ?_, fun hd => absurd hp hd, fun _ => ⟨?_, rfl⟩⟩
    · rw [hp]
      nofun
    · rw [← hsum]
      exact (Int.add_zero _).symm
  all_goals simp only [hp] at hpc

/-- **A run of the wait loop** whose messages are all accepted. -/
theorem settling_of_runs (hpc : w.pc = .zcTest) (hS : w.sendingCounter < 2^31)
    (hL : -2^31 ≤ w.lastSendingCounter)
    (hsum : w.lastSendingCounter + outstanding q = w.sendingCounter) (hn : outstanding q < 2^31)
    (hacc : ∀ cm ∈ q, readNotificationZc (some cm) = (cm.ids % 2^32 : Nat))
    (hr : (waiting A k h).Runs Machine.Always (w, q) es x) : Settling A k h q es x := by
  refine (hr.follows (Drains q) ?_ fun _ _ _ _ h0 _ hs => h0.step hs).settling
  refine ⟨hS, hL, hsum, hn, hacc, ?_⟩
  simp only [hpc]
  exact Nat.zero_add _

/-- **The notifications of a socket.**  `read_notification_zc` judges a message as the kernel's
format says if and only if it is `Judged`; and the wait loop, fed with completions of all the sends
that are outstanding, ends with equal counters if and only if there are none, or the socket is an
`AF_INET` one and `sending_counter` did not wrap. -/
theorem notifications_iff (fam : AddressFamily) :
    (∀ m, readNotificationZc m = judgement fam m ↔ Judged fam m) ∧
      ∀ (A : FastInts) (k : Nat) (h : Heap) (w : Worker) (q : List Cmsg), w.pc = .zcTest →
        (∀ cm ∈ q, cm.Genuine fam) → outstanding q < 2^31 → -2^31 ≤ w.lastSendingCounter →
        w.lastSendingCounter < 2^31 →
        w.sendingCounter = toS 32 (w.lastSendingCounter + outstanding q) →
        ((∀ es x, (waiting A k h).Runs Machine.Always (w, q) es x → Settling A k h q es x) ↔
          outstanding q = 0 ∨ fam = .inet ∧ w.lastSendingCounter + outstanding q < 2^31) := by
  refine ⟨judged_iff fam, fun A k h w q hpc hg hn hL hL' hS =>
    ⟨fun hall => ?_, fun hcond es x hr => ?_⟩⟩
  · by_cases h0 : outstanding q = 0
    · exact .inl h0
    · right
      have hfirst : (waiting A k h).Runs Machine.Always (w, q) [{}] _ :=
        Machine.Runs.single trivial (waiting_zcTest hpc)
      have hwrap : w.lastSendingCounter + outstanding q < 2^31 := by
        by_contra hge
        have hlt : w.sendingCounter < w.lastSendingCounter := by
          rw [hS]
          unfold toS
          omega
        rw [if_neg (by omega)] at hfirst
        have hdone := ((hall _ _ hfirst).done rfl).1
        change w.lastSendingCounter = w.sendingCounter at hdone
        omega
      refine ⟨?_, hwrap⟩
      cases fam with
      | inet => rfl
      | inet6 =>
        cases q with
        | nil => exact absurd rfl h0
        | cons cm q =>
          have hlt : w.lastSendingCounter < w.sendingCounter := by
            rw [hS, toS_of_range (by decide) (by omega) hwrap]
            omega
          rw [if_pos hlt] at hfirst
          have hthird := (hfirst.snoc (e := {}) trivial (waiting_poll rfl)).snoc (e := {}) trivial
            (waiting_recvmsg rfl)
          exact absurd (notified_refused (refused_inet6 (hg cm List.mem_cons_self)))
            ((hall _ _ hthird).accepted true)
  · have hsum : w.lastSendingCounter + outstanding q = w.sendingCounter := by
      rw [hS]
      refine (toS_of_range (by decide) ?_ ?_).symm
      · omega
      · rcases hcond with h0 | ⟨-, hlt⟩
        · omega
        · exact hlt
    refine settling_of_runs hpc ?_ hL hsum hn (fun cm hm => ?_) hr
    · rcases hcond with h0 | ⟨-, hlt⟩
      · omega
      · omega
    · rcases hcond with h0 | ⟨rfl, -⟩
      · rw [outstanding_eq_zero.mp h0] at hm
        cases hm
      · exact accepted_inet (hg cm hm)

end

/-- three sends, reported in two messages of which the first wraps -/
theorem notifications_iff_two_messages :
    ∀ es x, (waiting FastInts.lp64 0 ⟨fun _ => [], fun _ _ _ => 0⟩).Runs Machine.Always
        ({ pc := .zcTest, sendingCounter := 8, lastSendingCounter := 5 },
          [notification (2^32 - 1) 2 solIp ipRecverr, notification 1 1 solIp ipRecverr]) es x →
      Settling FastInts.lp64 0 ⟨fun _ => [], fun _ _ _ => 0⟩
        [notification (2^32 - 1) 2 solIp ipRecverr, notification 1 1 solIp ipRecverr] es x := by
  refine ((notifications_iff .inet).2 FastInts.lp64 0 _
    { pc := .zcTest, sendingCounter := 8, lastSendingCounter := 5 } _ rfl ?_ (by decide) (by decide)
    (by decide) (by decide)).mpr (.inr ⟨rfl, by decide⟩)
  intro cm hm
  rcases List.mem_cons.mp hm with rfl | hm
  · decide
  · rw [List.mem_singleton.mp hm]
    decide

/-- the completion of one send on an `AF_INET6` socket is refused, and ends the worker; on an
`AF_INET` socket a message of the type 8 is taken for one -/
theorem completion_refused :
    (notification 0 1 solIpv6 ipv6Recverr).Genuine .inet6 ∧
      readNotificationZc (some (notification 0 1 solIpv6 ipv6Recverr))
        ≠ judgement .inet6 (some (notification 0 1 solIpv6 ipv6Recverr)) ∧
      (∃ w q, (waiting FastInts.lp64 0 ⟨fun _ => [], fun _ _ _ => 0⟩).run
          ({ pc := .zcTest, sendingCounter := 1 }, [notification 0 1 solIpv6 ipv6Recverr])
          [{}, {}, {}] = some (w, q) ∧ w.pc = .exitError true .zcNotificationError) ∧
      readNotificationZc (some (notification 0 1 solIp 8))
        ≠ judgement .inet (some (notification 0 1 solIp 8)) := by
  refine ⟨by decide, by decide, ⟨_, _, rfl, by decide⟩, by decide⟩

end RealTimeTransfer
