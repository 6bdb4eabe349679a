import RealTimeTransfer.Systems.BeforeRun
import Mathlib.Data.Nat.GCD.Basic

/-!
# The clients that run gives up

`run` stops with "The client disconnected." at the start of an iteration, when the skip counter has
come to `frequency_*3`.  The counter tells what `is_send_done` answered in the iteration before: the
user call and the whole sleep of the timer lie between that answer and the check, and `run` does not
ask again.

* `LastSkip`           the points between the last answer and the check;
* `Going`              the system from `initialize` to the end of its `run`;
* `Punctual`           the condition: no completion at these points;
* `Watched.step`       one step of the whole;
* `disconnected_iff`   the send is still under way at the check if and only if the run meets it;
* `served_client`      a client that has all its bytes is given up.
-/

namespace RealTimeTransfer
open Machines Words

/-! ## The system -/

namespace RealTimeSystem

/-- the last skipped iteration, behind its last test of `is_send_done` and up to the check -/
def LastSkip (A : FastInts) (s : RealTimeSystem) : Prop :=
  (s.pc = .skipCall ∧ toU A.w32 (s.skippedCount + 1 : Nat) = s.limit A) ∨
    ((s.pc = .skipTick ∨ s.pc = .loopTop) ∧ s.skippedCount = s.limit A)

instance (A : FastInts) (s : RealTimeSystem) : Decidable (s.LastSkip A) :=
  inferInstanceAs (Decidable (_ ∨ _))

/-- `run` is still to come, or in its loop -/
def Pending (s : RealTimeSystem) : Prop :=
  s.initialized = true ∨ s.pc = .startTimer ∨ s.pc = .loopTop ∨ s.pc.deciding = true ∨
    s.pc.serving = true

/-- an object of the frequency `f` that `initialize` has left initialised, with at most one `run` -/
structure Going (f : Nat) (s : RealTimeSystem) : Prop where
  frequency : s.Pending → s.frequency = f
  once : s.pc = .startTimer ∨ s.pc.inLoop = true → s.initialized = false
  reset : s.pc = .send ∨ s.pc = .tick → s.skippedCount = 0

section
variable {A : FastInts} {f : Nat} {s t : RealTimeSystem} {e : SystemEvent}

theorem limit_ne_zero (h0 : s.frequency ≠ 0) (hw : s.frequency < 2^A.w16) : s.limit A ≠ 0 := by
  intro h
  unfold limit at h
  rw [toU_nat] at h
  have hdvd : 2 ^ wide A ∣ s.frequency * 3 := Nat.dvd_of_mod_eq_zero h
  have hcop : Nat.Coprime (2 ^ wide A) 3 := Nat.Coprime.pow_left _ (by decide)
  have hle : 2 ^ wide A ≤ s.frequency :=
    Nat.le_of_dvd (Nat.pos_of_ne_zero h0) (hcop.dvd_of_dvd_mul_right hdvd)
  have hwide : 2 ^ A.w16 ≤ 2 ^ wide A := Nat.pow_le_pow_right (by decide) (le_max_left _ _)
  omega

/-- a public call behind `initialize`: `run` is not to come, or the call has found the object
initialised -/
theorem call_going (hs : s.call A e = some t) (he : ∀ a, e ≠ .callInitialize a) :
    (t.pc.isIdle = true ∧ t.initialized = false) ∨
      (s.initialized = true ∧ t.frequency = s.frequency ∧
        (t.pc = .beforeSend ∨ (t.pc = .startTimer ∧ t.initialized = false))) := by
  unfold call at hs
  split at hs
  case h_1 | h_2 | h_3 =>
    cases hs
    refine .inl ⟨?_, setPointer_initialized _ _ _ _⟩
    unfold setPointer
    split <;> rfl
  case h_4 | h_5 | h_6 =>
    cases hs
    exact .inl ⟨rfl, rfl⟩
  case h_7 a => exact absurd rfl (he a)
  case h_8 l n =>
    cases hs
    cases hi : s.initialized with
    | true => exact .inr ⟨rfl, rfl, .inl rfl⟩
    | false => exact .inl ⟨rfl, hi⟩
  case h_9 =>
    cases hs
    cases hi : s.initialized with
    | true => exact .inr ⟨rfl, rfl, .inr ⟨rfl, rfl⟩⟩
    | false => exact .inl ⟨rfl, hi⟩
  case h_10 => cases hs

theorem Moves.inLoop_of (h : s.Moves A e t) (ht : t.pc = .startTimer ∨ t.pc.inLoop = true) :
    s.pc = .startTimer ∨ (s.pc.inLoop = true ∧ ∀ r, s.pc ≠ .ending r) := by
  cases h
  case polled b hpc =>
    cases b <;> simp [goto, SystemPc.inLoop, SystemPc.deciding, SystemPc.serving] at ht
  case called c hpc _ => simp [hpc, SystemPc.inLoop, SystemPc.deciding]
  case ticked hpc | late hpc =>
    rcases hpc with hpc | hpc <;> simp [hpc, SystemPc.inLoop, SystemPc.serving]
  all_goals simp_all [goto, fail, SystemPc.inLoop, SystemPc.deciding, SystemPc.serving]

/-- `run` has cleared `initialized_` -/
def Entered (s : RealTimeSystem) : Prop :=
  s.pc = .startTimer ∨ s.pc.inLoop = true → s.initialized = false

theorem Entered.step (h : s.Entered) (hs : s.step A e = some t) : t.Entered := by
  intro ht
  by_contra hi
  have hi' : t.initialized = true := Bool.not_eq_false _ ▸ hi
  rcases call_or_moves hs with ⟨r, hpc, hc⟩ | moves
  · rcases call_initialized hc hi' with ⟨a, -, rfl⟩ | ⟨l, n, -, -, rfl⟩
    · unfold initializeSystem at ht
      split at ht <;> rcases ht with ht | ht <;> cases ht
    · rcases ht with ht | ht <;> cases ht
  · have hs' := (moves.initialized hi').1
    exact absurd (hs'.symm.trans (h ((moves.inLoop_of ht).imp_right And.left))) nofun

theorem Moves.pending (h : s.Moves A e t) (ht : t.Pending) : s.Pending := by
  rcases ht with hi | ht
  · exact .inl (h.initialized hi).1
  · right
    have hloop : t.pc = .startTimer ∨ t.pc.inLoop = true :=
      ht.imp_right fun hp => SystemPc.inLoop_iff.mpr (.inl hp)
    rcases h.inLoop_of hloop with hs | ⟨hs, hr⟩
    · exact .inl hs
    · exact .inr ((SystemPc.inLoop_iff.mp hs).resolve_right fun ⟨r, hp⟩ => hr r hp)

/-- inside the call `initialized_` stays off, and behind a normal call the skip counter is 0 -/
theorem Moves.going (h : s.Moves A e t) (hg : s.Going f) : t.Going f := by
  refine ⟨fun hp => h.settings.2.2.2.2.2.trans (hg.frequency (h.pending hp)), fun hpc => ?_,
    fun hpc => ?_⟩
  · have hs : s.initialized = false := hg.once ((h.inLoop_of hpc).imp_right And.left)
    cases hi : t.initialized with
    | false => rfl
    | true => exact absurd ((h.initialized hi).1.symm.trans hs) nofun
  · cases h
    case called => rfl
    case sent hpc' => exact hg.reset (.inl hpc')
    case polled b _ => cases b <;> simp [goto] at hpc
    case tolerated b _ => cases b <;> simp [goto] at hpc
    all_goals simp [goto, fail] at hpc

theorem LastSkip.inLoop (h : s.LastSkip A) : s.pc.inLoop = true := by
  rcases h with ⟨hpc, -⟩ | ⟨hpc | hpc, -⟩ <;>
    simp [hpc, SystemPc.inLoop, SystemPc.deciding, SystemPc.serving]

theorem LastSkip.pending (h : s.LastSkip A) : s.Pending := by
  rcases h with ⟨hpc, -⟩ | ⟨hpc | hpc, -⟩ <;>
    simp [Pending, hpc, SystemPc.deciding, SystemPc.serving]

theorem LastSkip.inside (h : s.LastSkip A) (r : Option Bool) : s.pc ≠ .idle r := by
  rcases h with ⟨hpc, -⟩ | ⟨hpc | hpc, -⟩ <;> simp [hpc]

theorem Going.not_pending (h : s.Going f) {r : Bool} (hpc : s.pc = .ending r) : ¬ s.Pending := by
  have hi := h.once (.inr (by rw [hpc]; rfl))
  simp [Pending, hi, hpc, SystemPc.deciding, SystemPc.serving]

/-- **A step of the system.** -/
theorem Going.step (h : s.Going f) (hs : s.step A e = some t) (he : ∀ a, e ≠ .callInitialize a) :
    t.Going f ∧ (t.Pending → s.Pending) := by
  rcases call_or_moves hs with ⟨r, hpc, hs⟩ | moves
  · rcases call_going hs he with ⟨hi, hn⟩ | ⟨hi, hf, hpc'⟩
    · obtain ⟨r', hpc'⟩ := SystemPc.eq_of_idle hi
      have hno : ¬ t.Pending := by
        simp [Pending, hn, hpc', SystemPc.deciding, SystemPc.serving]
      refine ⟨⟨fun hp => absurd hp hno, fun _ => hn, ?_⟩, fun hp => absurd hp hno⟩
      simp [hpc']
    · have hfrequency : t.frequency = f := hf.trans (h.frequency (.inl hi))
      refine ⟨⟨fun _ => hfrequency, ?_, ?_⟩, fun _ => .inl hi⟩
      · rcases hpc' with hpc' | ⟨-, hn⟩
        · simp [hpc', SystemPc.inLoop, SystemPc.deciding, SystemPc.serving]
        · exact fun _ => hn
      · rcases hpc' with hpc' | ⟨hpc', -⟩ <;> simp [hpc']
  · exact ⟨moves.going h, moves.pending⟩

theorem Moves.lastSkip (h : s.Moves A e t) (hg : s.Going f) (hlimit : s.limit A ≠ 0)
    (ht : t.LastSkip A) : s.LastSkip A ∨ e = .isSendDone false := by
  unfold LastSkip at ht
  cases h
  case skipping => exact .inr rfl
  case skipped c hpc _ _ => exact .inl (.inl ⟨hpc, (ht.resolve_left nofun).2⟩)
  case started => exact absurd (ht.resolve_left nofun).2.symm hlimit
  case ticked hpc =>
    obtain ⟨-, hcount⟩ := ht.resolve_left nofun
    rcases hpc with hpc | hpc
    · exact .inl (.inr ⟨.inl hpc, hcount⟩)
    · exact absurd ((hg.reset (.inr hpc)).symm.trans hcount).symm hlimit
  case called c _ _ => cases hc : c.stop <;> simp [hc] at ht
  case polled b _ => cases b <;> simp [goto] at ht
  case tolerated b _ => cases b <;> simp [goto] at ht
  all_goals simp [goto, fail] at ht

theorem Moves.lastSkip_or (h : s.Moves A e t) (hs : s.LastSkip A) :
    t.LastSkip A ∨ ∃ r, t.pc = .ending r := by
  cases h
  case disconnected => exact .inr ⟨false, rfl⟩
  case iterated hpc hne => exact absurd (hs.resolve_left (by simp [hpc])).2 hne
  case skipStopped => exact .inr ⟨true, rfl⟩
  case skipped hpc _ _ => exact .inl (.inr ⟨.inl rfl, (hs.resolve_right (by simp [hpc])).2⟩)
  case ticked hpc =>
    refine .inl (.inr ⟨.inr rfl, (hs.resolve_left ?_).2⟩)
    rcases hpc with hpc | hpc <;> simp [hpc]
  case late => exact .inr ⟨false, rfl⟩
  all_goals simp_all [LastSkip]

theorem lastSkip_of_gaveUp (hs : s.step A .tau = some t) (ht : t.pc = .ending false) :
    s.LastSkip A := by
  cases step_moves (inside_of_step hs rfl) hs
  case disconnected hpc hcount => exact .inr ⟨.inr hpc, hcount⟩
  all_goals cases ht

end
end RealTimeSystem

/-! ## The whole -/

/-- the condition: within the last skip the worker does not come to set `is_done` -/
def Punctual (A : FastInts) (x : RunSender) : RunSenderEvent → Prop
  | .worker _ => x.system.LastSkip A → x.session.worker.pc ≠ .setDone
  | _ => True

instance (A : FastInts) (x : RunSender) (e : RunSenderEvent) : Decidable (Punctual A x e) :=
  match e with
  | .worker _ => inferInstanceAs (Decidable (_ → _))
  | .system _ | .isSendDone _ | .enter | .main => .isTrue trivial

/-- `run` has come to its check, and returns false with the text of a disconnected client -/
structure Disconnects (A : FastInts) (a : Locals) (x y : RunSender) : Prop where
  step : (runSender A a).step x (.system .tau) = some y
  returns : y.system.pc = .ending false
  text : y.system.errorHandler =
    x.system.errorHandler.setError RealTimeSystem.disconnectedText

/-- the events `es` have led from `x₀` to `x` -/
structure Watched (A : FastInts) (a : Locals) (f : Nat) (x₀ : RunSender)
    (es : List RunSenderEvent) (x : RunSender) : Prop where
  run : (runSender A a).run x₀ es = some x
  alone : Alone x
  going : x.system.Going f
  before : x.system.Pending → ¬ x.system.LastSkip A → (runSender A a).Runs (Punctual A) x₀ es x
  last : x.system.LastSkip A →
    (x.session.data.isDone = false ↔ (runSender A a).Runs (Punctual A) x₀ es x)

section
variable {A : FastInts} {a : Locals} {f : Nat} {x₀ x x' y : RunSender} {es : List RunSenderEvent}
  {e : RunSenderEvent}

/-- within the last skip the main thread is outside the sender, so only the worker touches the
flag -/
theorem Alone.lastSkip_step (h : Alone x) (hlast : x.system.LastSkip A)
    (hs : x.step A a e = some x') :
    x'.session.data.isDone = false ↔ x.session.data.isDone = false ∧ Punctual A x e := by
  cases e with
  | system e =>
    obtain ⟨-, y, -, -, -, rfl⟩ := RunSender.step_system hs
    simp [Punctual]
  | isSendDone b =>
    obtain ⟨y, -, -, -, -, rfl⟩ := RunSender.step_isSendDone hs
    simp [Punctual]
  | enter =>
    rcases RunSender.step_enter hs with ⟨p, -, -, -, rfl⟩ | ⟨-, -, -, rfl⟩ <;> simp [Punctual]
  | main =>
    obtain ⟨d, m, hm, -, -⟩ := RunSender.step_main hs
    rcases h.inside (Sender.step_advance hm).not_ready with ⟨-, hpc | hpc⟩ | ⟨-, hpc | ⟨r, hpc⟩⟩ <;>
      simp [RealTimeSystem.LastSkip, hpc] at hlast
  | worker e =>
    obtain ⟨d, w, hw, -, rfl⟩ := RunSender.step_worker hs
    have shake := (Worker.step_handshake h.inv.sane hw).2
    show d.isDone = false ↔ _
    rw [shake.isDone_false_iff]
    simp [Punctual, hlast, Worker.phase_finishing]

/-- **One step of the whole.** -/
theorem Watched.step (h : Watched A a f x₀ es x) (h0 : f ≠ 0) (hw : f < 2^A.w16)
    (hs : x.step A a e = some x') : Watched A a f x₀ (es ++ [e]) x' := by
  have hsnoc : (runSender A a).Runs (Punctual A) x₀ (es ++ [e]) x' ↔
      (runSender A a).Runs (Punctual A) x₀ es x ∧ Punctual A x e := Machine.Runs.snoc_iff h.run hs
  have hsystem := RunSender.system_step hs
  obtain ⟨going, hpending⟩ : x'.system.Going f ∧ (x'.system.Pending → x.system.Pending) := by
    rcases hsystem with heq | ⟨g, ⟨hg, -⟩, hstep⟩
    · rw [heq]
      exact ⟨h.going, id⟩
    · exact h.going.step hstep hg
  by_cases hlast : x.system.LastSkip A
  · refine ⟨Machine.run_snoc h.run hs, h.alone.step hs, going, fun hp hn => absurd ?_ hn,
      fun _ => ?_⟩
    · rcases hsystem with heq | ⟨g, -, hstep⟩
      · rw [heq]
        exact hlast
      · refine ((RealTimeSystem.step_moves hlast.inside hstep).lastSkip_or hlast).resolve_right ?_
        rintro ⟨r, hr⟩
        exact going.not_pending hr hp
    · rw [hsnoc, h.alone.lastSkip_step hlast hs, h.last hlast]
  · have punctual : Punctual A x e := by
      cases e with
      | worker e => exact fun hl => absurd hl hlast
      | _ => trivial
    have runs : x'.system.Pending → (runSender A a).Runs (Punctual A) x₀ (es ++ [e]) x' :=
      fun hp => hsnoc.mpr ⟨h.before (hpending hp) hlast, punctual⟩
    refine ⟨Machine.run_snoc h.run hs, h.alone.step hs, going, fun hp _ => runs hp, fun hl => ?_⟩
    have hdone : x'.session.data.isDone = false := by
      rcases hsystem with heq | ⟨g, ⟨-, hread⟩, hstep⟩
      · exact absurd (heq ▸ hl) hlast
      · have hlimit : x.system.limit A ≠ 0 := by
          have hf := h.going.frequency (hpending hl.pending)
          exact RealTimeSystem.limit_ne_zero (hf ▸ h0) (hf ▸ hw)
        have moves := RealTimeSystem.moves_of_inLoop hstep hl.inLoop
        have hg := (moves.lastSkip h.going hlimit hl).resolve_left hlast
        exact (hread false hg).symm
    exact ⟨fun _ => runs hl.pending, fun _ => hdone⟩

/-- **The clients that `run` gives up.**  At every frequency, whatever the timer, the user function
and the worker do: when `run` declares the client disconnected, `is_send_done` would answer false if
and only if the worker has not come to set `is_done` since its last answer. -/
theorem disconnected_iff {s : RealTimeSystem} {h : Heap} {so : Sockets} {err : Error}
    (h0 : s.frequency ≠ 0) (hw : s.frequency < 2^A.w16)
    (hr : (runSender A a).run (RunSender.start s h so err) es = some x)
    (hd : Disconnects A a x y) :
    x.session.step false A (.isSendDone false) = some x.session ↔
      (runSender A a).Runs (Punctual A) (RunSender.start s h so err) es x := by
  have start : Watched A a s.frequency (RunSender.start s h so err) []
      (RunSender.start s h so err) :=
    ⟨rfl, alone_start s h so err, ⟨fun _ => rfl, nofun, nofun⟩, fun _ _ => .nil, nofun⟩
  have watched : Watched A a s.frequency (RunSender.start s h so err) es x :=
    (Machine.runs_of_run hr).follows _ start fun _ _ _ _ hv _ hs => hv.step h0 hw hs
  have hstep : x.step A a (.system .tau) = some y := hd.step
  have hreturns := hd.returns
  obtain ⟨-, u, hu, hready, -, rfl⟩ := RunSender.step_system hstep
  rw [← watched.last (RealTimeSystem.lastSkip_of_gaveUp hu hreturns)]
  constructor
  · intro hask
    exact (Option.ite_some_none_eq_some.mp hask).1.2.symm
  · intro hdone
    exact if_pos ⟨hready, hdone.symm⟩

end

/-! ## Two clients at 1 Hz -/

/-- the iteration `k` is skipped, up to the sleep of the timer -/
def skips (k : Nat) : List RunSenderEvent :=
  [.system .tau, .system .tau, .isSendDone false, .isSendDone false,
    .system (.userCall ⟨⟨k, true, 0⟩, [], false⟩)]

/-- a list is sent, and three iterations are skipped; the timer sleeps in the last of them -/
def threeSkips : List RunSenderEvent :=
  .system .run :: firstSend ++ workerCopies ++ .system (.tick true) :: skips 1 ++
    .system (.tick true) :: skips 2 ++ .system (.tick true) :: skips 3

/-- the worker sends the byte, and sets `is_done` -/
def workerSends : List RunSenderEvent :=
  [.worker .tau, .worker (.sent 1), .worker .tau, .worker .tau, .worker .tau, .worker .tau]

/-- a client that takes nothing is given up, its send under way -/
theorem disconnected_iff_stuck :
    ∃ x y, (runSender FastInts.lp64 ⟨1, 2⟩).run senderStarted
        (threeSkips ++ [.system (.tick true)]) = some x ∧ Disconnects FastInts.lp64 ⟨1, 2⟩ x y ∧
      x.session.step false FastInts.lp64 (.isSendDone false) = some x.session := by
  have hrun : (((runSender FastInts.lp64 ⟨1, 2⟩).restrict (Punctual FastInts.lp64)).run
      senderStarted (threeSkips ++ [.system (.tick true)])).bind (fun x =>
        ((runSender FastInts.lp64 ⟨1, 2⟩).step x (.system .tau)).map fun y =>
          (y.system.pc, decide (y.system.errorHandler =
            x.system.errorHandler.setError RealTimeSystem.disconnectedText)))
      = some (.ending false, true) := by decide
  obtain ⟨x, hx, hrest⟩ := Option.bind_eq_some_iff.mp hrun
  obtain ⟨y, hy, he⟩ := Option.map_eq_some_iff.mp hrest
  obtain ⟨hpc, htext⟩ := Prod.mk.inj he
  have hruns := Machine.Runs.of_restrict hx
  have hd : Disconnects FastInts.lp64 ⟨1, 2⟩ x y := ⟨hy, hpc, of_decide_eq_true htext⟩
  exact ⟨x, y, hruns.run_eq, hd,
    (disconnected_iff (by decide) (by decide) hruns.run_eq hd).mpr hruns⟩

/-- **A client with all its bytes is given up**: the worker sets `is_done` while the timer sleeps in
the last skipped iteration. -/
theorem served_client :
    ∃ x y, (runSender FastInts.lp64 ⟨1, 2⟩).run senderStarted
        (threeSkips ++ workerSends ++ [.system (.tick true)]) = some x ∧
      Disconnects FastInts.lp64 ⟨1, 2⟩ x y ∧
      x.session.step false FastInts.lp64 (.isSendDone false) = none ∧
      (x.session.step false FastInts.lp64 (.isSendDone true)).isSome = true ∧
      x.session.out = x.session.acceptedBytes ∧ x.session.out.length = 1 := by
  have hrun : ((runSender FastInts.lp64 ⟨1, 2⟩).run senderStarted
      (threeSkips ++ workerSends ++ [.system (.tick true)])).bind (fun x =>
        ((runSender FastInts.lp64 ⟨1, 2⟩).step x (.system .tau)).map fun y =>
          ((y.system.pc, decide (y.system.errorHandler =
            x.system.errorHandler.setError RealTimeSystem.disconnectedText)),
          (x.session.step false FastInts.lp64 (.isSendDone false)).isNone,
          (x.session.step false FastInts.lp64 (.isSendDone true)).isSome,
          x.session.out, x.session.acceptedBytes))
      = some ((.ending false, true), true, true, [0], [0]) := by decide
  obtain ⟨x, hx, hrest⟩ := Option.bind_eq_some_iff.mp hrun
  obtain ⟨y, hy, he⟩ := Option.map_eq_some_iff.mp hrest
  simp only [Prod.mk.injEq] at he
  obtain ⟨⟨hpc, htext⟩, hfalse, htrue, hout, hbytes⟩ := he
  refine ⟨x, y, hx, ⟨hy, hpc, of_decide_eq_true htext⟩, ?_, htrue, hout.trans hbytes.symm, ?_⟩
  · exact Option.isNone_iff_eq_none.mp hfalse
  · rw [hout]
    rfl

end RealTimeTransfer
