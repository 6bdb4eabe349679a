import RealTimeTransfer.Senders.Sender

/-!
# What the main thread and a worker owe each other

The control part of the two-thread invariant: it relates the shared data, the point of the main
thread and the phase of the worker number `k`, and knows nothing of bytes.

* `MutexOk`   the mutex is held by the side whose point says so, and by one side at most;
* `FlagOk`    `is_terminated_thread` is what the worker has published;
* `WaitOk`    a worker that sleeps, or is about to, has nothing to do and no signal behind it;
* `HandOk`    a list is pending, in the worker's hands or reported done, never two of these.
-/

namespace RealTimeTransfer
open Sync

/-- the side that holds the mutex -/
def holder (k : Nat) (pc : SenderPc) (ph : Phase) : Option Thread :=
  if ph.holds then some (.worker k) else if pc.holds then some .main else none

structure MutexOk (k : Nat) (d : SenderWorkerData) (pc : SenderPc) (ph : Phase) : Prop where
  mutex : d.packetsMutex = holder k pc ph
  apart : ph.holds = true → pc.holds = false

structure FlagOk (d : SenderWorkerData) (ph : Phase) : Prop where
  started : ph ≠ .new
  flag : d.isTerminatedThread = ph.published

/-- blocked without a pending wake-up, or with nothing but the block to come -/
def Asleep (d : SenderWorkerData) (ph : Phase) : Prop :=
  ph = .parking ∨ (ph = .blocked ∧ d.packetsCond ≠ [])

structure WaitOk (k : Nat) (d : SenderWorkerData) (pc : SenderPc) (ph : Phase) : Prop where
  cond : d.packetsCond = [] ∨ (d.packetsCond = [.worker k] ∧ ph = .blocked)
  idle : ph = .empty ∨ Asleep d ph → d.packetsList = none
  unsignalled : Asleep d ph → pc.signalled = false
  terminate : pc.terminating = true → d.terminateThread = true

structure HandOk (d : SenderWorkerData) (pc : SenderPc) (ph : Phase) : Prop where
  done : d.isDone = true → d.packetsList = none ∧ ph.inList = false
  inList : ph.inList = true → d.packetsList = none
  taking : ph = .taking → d.packetsList ≠ none
  storing : pc.storing = true → d.isDone = true

structure Control (k : Nat) (d : SenderWorkerData) (pc : SenderPc) (ph : Phase) : Prop where
  mutexOk : MutexOk k d pc ph
  flagOk : FlagOk d ph
  waitOk : WaitOk k d pc ph
  handOk : HandOk d pc ph

section
variable {k : Nat} {d d' : SenderWorkerData} {pc pc' : SenderPc} {ph ph' : Phase}

/-! ## A step of the worker -/

theorem MutexOk.handshake (h : MutexOk k d pc ph) (hs : Handshake k d ph d' ph') :
    MutexOk k d' pc ph' := by
  obtain ⟨mutex, apart⟩ := h
  cases hs <;> constructor <;> simp_all [holder, Phase.holds]

theorem FlagOk.handshake (h : FlagOk d ph) (hs : Handshake k d ph d' ph') : FlagOk d' ph' := by
  obtain ⟨started, flag⟩ := h
  cases hs <;> constructor <;> simp_all [Phase.published]

theorem SenderPc.terminating_of_signalled (h : pc.signalled = true) : pc.terminating = true := by
  cases pc <;> first | rfl | cases h

theorem WaitOk.handshake (h : WaitOk k d pc ph) (hs : Handshake k d ph d' ph') :
    WaitOk k d' pc ph' := by
  obtain ⟨cond, idle, unsignalled, terminate⟩ := h
  cases hs
  case stay hstay =>
    -- no termination seen under the mutex: the signal of `end_sender` is still to come
    have before : pc.signalled = false := by
      cases hsig : pc.signalled with
      | false => rfl
      | true =>
        have ht := terminate (SenderPc.terminating_of_signalled hsig)
        rw [hstay] at ht
        cases ht
    constructor <;> simp_all [Asleep]
  all_goals constructor <;> simp_all [Asleep, Cond.block, Cond.leave]

theorem HandOk.handshake (h : HandOk d pc ph) (hs : Handshake k d ph d' ph') :
    HandOk d' pc ph' := by
  obtain ⟨done, inList, taking, storing⟩ := h
  cases hs <;> constructor <;> simp_all [Phase.inList]

/-- **A step of the worker keeps the control invariant.** -/
theorem Control.handshake (h : Control k d pc ph) (hs : Handshake k d ph d' ph') :
    Control k d' pc ph' :=
  ⟨h.mutexOk.handshake hs, h.flagOk.handshake hs, h.waitOk.handshake hs, h.handOk.handshake hs⟩

/-! ## A step of the main thread -/

theorem MutexOk.advance (h : MutexOk k d pc ph) (hs : Advance d pc d' pc') :
    MutexOk k d' pc' ph := by
  obtain ⟨mutex, apart⟩ := h
  cases hs <;> constructor <;> simp_all [holder, SenderPc.holds]

theorem FlagOk.advance (h : FlagOk d ph) (hs : Advance d pc d' pc') : FlagOk d' ph := by
  obtain ⟨started, flag⟩ := h
  cases hs <;> constructor <;> simp_all

theorem MutexOk.away (h : MutexOk k d pc ph) (hp : pc.holds = true) :
    ph ≠ .empty ∧ ph ≠ .parking ∧ ph ≠ .taking := by
  have hn : ph.holds ≠ true := fun hh => by rw [h.apart hh] at hp; cases hp
  refine ⟨?_, ?_, ?_⟩ <;> rintro rfl <;> exact hn rfl

theorem WaitOk.signal_nil (h : WaitOk k d pc ph) : d.packetsCond.signal = [] := by
  rcases h.cond with hc | ⟨hc, -⟩
  · rw [hc]; rfl
  · rw [hc]; rfl

theorem Advance.waits (h : Advance d pc d' pc') :
    (d'.packetsCond = d.packetsCond.signal ∧ pc.holds = true) ∨
      (d'.packetsCond = d.packetsCond ∧ d'.packetsList = d.packetsList ∧
        (pc'.signalled = true → pc.signalled = true)) := by
  cases h
  case sendStore p => exact .inl ⟨rfl, rfl⟩
  case endStore => exact .inl ⟨rfl, rfl⟩
  case endUnlock | waiting => exact .inr ⟨rfl, rfl, fun _ => rfl⟩
  all_goals exact .inr ⟨rfl, rfl, nofun⟩

theorem Advance.terminating_of (h : Advance d pc d' pc') (ht : pc'.terminating = true) :
    d'.terminateThread = true ∨
      (pc.terminating = true ∧ d'.terminateThread = d.terminateThread) := by
  cases h
  case terminate => exact .inl rfl
  case endLock | endStore | endUnlock | waiting => exact .inr ⟨rfl, rfl⟩
  all_goals cases ht

theorem Advance.storing_of (h : Advance d pc d' pc') (hs : pc'.storing = true) :
    d.isDone = true ∨ pc.storing = true := by
  cases h
  case done p hd => exact .inl hd
  case sendLock p _ => exact .inr rfl
  all_goals cases hs

theorem WaitOk.advance (hm : MutexOk k d pc ph) (h : WaitOk k d pc ph) (hs : Advance d pc d' pc') :
    WaitOk k d' pc' ph := by
  have term : pc'.terminating = true → d'.terminateThread = true := by
    intro ht
    rcases hs.terminating_of ht with ht' | ⟨hp, heq⟩
    · exact ht'
    · exact heq.trans (h.terminate hp)
  rcases hs.waits with ⟨hc, hh⟩ | ⟨hc, hl, hsig⟩
  · obtain ⟨he, hp, -⟩ := hm.away hh
    have hnil : d'.packetsCond = [] := hc.trans h.signal_nil
    have awake : ¬ Asleep d' ph := by
      rintro (hpark | ⟨-, hcond⟩)
      · exact hp hpark
      · exact hcond hnil
    refine ⟨.inl hnil, ?_, fun ha => absurd ha awake, term⟩
    rintro (hempty | ha)
    · exact absurd hempty he
    · exact absurd ha awake
  · have asleep : Asleep d' ph → Asleep d ph := by
      unfold Asleep
      rw [hc]
      exact id
    refine ⟨?_, fun hi => ?_, fun ha => ?_, term⟩
    · rw [hc]
      exact h.cond
    · rw [hl]
      exact h.idle (hi.imp_right asleep)
    · have hn := h.unsignalled (asleep ha)
      cases hsig' : pc'.signalled with
      | false => rfl
      | true => exact absurd (hn.symm.trans (hsig hsig')) nofun

theorem HandOk.advance (hm : MutexOk k d pc ph) (h : HandOk d pc ph) (hs : Advance d pc d' pc') :
    HandOk d' pc' ph := by
  rcases hs.stores with ⟨p, hpc, hpc', hl, hd⟩ | ⟨hpc, hpc', hl, hd⟩ | ⟨-, hl, hd⟩
  · have hin := (h.done (h.storing (by rw [hpc]; rfl))).2
    refine ⟨fun hd' => ?_, fun hin' => ?_, fun _ => ?_, fun hst => ?_⟩
    · exact absurd (hd'.symm.trans hd) nofun
    · exact absurd (hin'.symm.trans hin) nofun
    · rw [hl]
      nofun
    · rw [hpc'] at hst
      cases hst
  · obtain ⟨-, -, ht⟩ := hm.away (by rw [hpc]; rfl)
    refine ⟨fun hd' => ?_, fun _ => hl, fun htake => absurd htake ht, fun hst => ?_⟩
    · exact absurd (hd'.symm.trans hd) nofun
    · rw [hpc'] at hst
      cases hst
  · refine ⟨fun hd' => ?_, fun hin => ?_, fun ht => ?_, fun hst => ?_⟩
    · rw [hl]
      exact h.done (hd.symm.trans hd')
    · exact hl.trans (h.inList hin)
    · rw [hl]
      exact h.taking ht
    · rcases hs.storing_of hst with hdone | hst'
      · exact hd.trans hdone
      · exact hd.trans (h.storing hst')

/-- **A step of the main thread keeps the control invariant.** -/
theorem Control.advance (h : Control k d pc ph) (hs : Advance d pc d' pc') :
    Control k d' pc' ph :=
  ⟨h.mutexOk.advance hs, h.flagOk.advance hs, h.waitOk.advance h.mutexOk hs,
    h.handOk.advance h.mutexOk hs⟩

theorem Control.enter (h : Control k d pc ph) (hr : pc.holds = false) (hh : pc'.holds = false)
    (hst : pc'.storing = false) (ht : pc'.terminating = false) : Control k d pc' ph := by
  have hsig : pc'.signalled = false := by
    cases hsig : pc'.signalled with
    | false => rfl
    | true => exact absurd (SenderPc.terminating_of_signalled hsig) (by rw [ht]; decide)
  refine ⟨⟨?_, fun _ => hh⟩, h.flagOk, ⟨h.waitOk.cond, h.waitOk.idle, fun _ => hsig, ?_⟩,
    ⟨h.handOk.done, h.handOk.inList, h.handOk.taking, ?_⟩⟩
  · have hm := h.mutexOk.mutex
    unfold holder at hm ⊢
    rw [hr] at hm
    rw [hh]
    exact hm
  · rw [ht]; nofun
  · rw [hst]; nofun

end
end RealTimeTransfer
