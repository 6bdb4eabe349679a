import RealTimeTransfer.Senders.ZeroCopy
import RealTimeTransfer.Systems.RunStream

/-!
# A system with a TCPSenderZC

The loop of `run` over a session of a `TCPSenderZC`.  Without the waits of the worker it is the loop
over a `TCPSender`: what `run` asks and is told, what it hands over and what the client receives are
the same.

* `RunSender.stepZC`       the steps, as those over a `TCPSender`;
* `run_zc_refines_run`     every run is one over a `TCPSender`, under the same conditions.
-/

namespace RealTimeTransfer
open Machines Words

namespace RunSender

def finishZC (A : FastInts) (x : RunSender) (s : Session) : Option RunSender :=
  x.finishOf true A s

def stepZC (A : FastInts) (a : Locals) (x : RunSender) (e : RunSenderEvent) : Option RunSender :=
  x.stepOf true A a e

end RunSender

/-- one `run` with a `TCPSenderZC`, the worker until its end -/
def runLoopZC (A : FastInts) (a : Locals) : Machine RunSender RunSenderEvent :=
  Machine.restrict ⟨RunSender.stepZC A a⟩ RunSender.InRun

/-- the same, without what is zero-copy -/
def RunSender.plain (x : RunSender) : RunSender := { x with session := x.session.plain }

/-- no wait of the worker fails -/
def RunSender.Smooth (x : RunSender) : RunSenderEvent → Prop
  | .worker e => x.session.worker.Smooth e
  | _ => True

/-- a step of a wait -/
def RunSender.waits (x : RunSender) : RunSenderEvent → Bool
  | .worker _ => x.session.worker.pc.zcWaiting
  | _ => false

/-- the steps of the main thread, and the calls of `send` and `sendfile` with their answers -/
def RunSenderEvent.seen : RunSenderEvent → Option RunSenderEvent
  | .worker (.sent n) => some (.worker (.sent n))
  | .worker _ => none
  | e => some e

section
variable {A : FastInts} {a : Locals} {x x' : RunSender} {e : RunSenderEvent} {s : Session}

theorem RunSender.finish_plain (h : s.Coded) (hf : x.finishZC A s = some x') :
    x'.session.Coded ∧ x.plain.finish A s.plain = some x'.plain := by
  unfold RunSender.finishZC RunSender.finishOf at hf
  split at hf
  case h_1 r hr =>
    obtain ⟨y, hy, hf⟩ := Option.bind_eq_some_iff.mp hf
    unfold RunSender.finish RunSender.finishOf
    rw [show s.plain.main = s.main from rfl, hr]
    dsimp only
    rw [show x.plain.system = x.system from rfl, hy, Option.bind_some]
    by_cases hpc : x.system.pc ≠ .send
    · rw [if_pos hpc] at hf ⊢
      cases hf
      exact ⟨h, rfl⟩
    · rw [if_neg hpc] at hf ⊢
      by_cases hv : r = some true
      · rw [if_pos hv] at hf ⊢
        cases hf
        exact ⟨h, rfl⟩
      · rw [if_neg hv] at hf ⊢
        obtain ⟨s', hs', rfl⟩ := Option.map_eq_some_iff.mp hf
        obtain ⟨hc, hplain⟩ := h.step_plain rfl hs'
        exact ⟨hc, Option.map_eq_some_iff.mpr ⟨_, hplain, rfl⟩⟩
  case h_2 hn =>
    cases hf
    refine ⟨h, ?_⟩
    unfold RunSender.finish RunSender.finishOf
    rw [show s.plain.main = s.main from rfl]
    split
    case h_1 r hr => exact absurd hr (hn r)
    case h_2 => rfl

/-- **A step outside the waits.** -/
theorem RunSender.step_plain (h : x.session.Coded) (hz : x.waits e = false)
    (hs : x.stepZC A a e = some x') :
    x'.session.Coded ∧ x.plain.step A a e = some x'.plain := by
  cases e with
  | system f =>
    obtain ⟨hl, hs⟩ := Option.ite_none_right_eq_some.mp hs
    obtain ⟨y, hy, hs⟩ := Option.bind_eq_some_iff.mp hs
    obtain ⟨s, hsess, rfl⟩ := Option.map_eq_some_iff.mp hs
    obtain ⟨hc, hplain⟩ := h.step_plain rfl hsess
    refine ⟨hc, (if_pos hl).trans (Option.bind_eq_some_iff.mpr ⟨y, hy, ?_⟩)⟩
    exact Option.map_eq_some_iff.mpr ⟨_, hplain, rfl⟩
  | isSendDone b =>
    obtain ⟨y, hy, hs⟩ := Option.bind_eq_some_iff.mp hs
    obtain ⟨s, hsess, rfl⟩ := Option.map_eq_some_iff.mp hs
    obtain ⟨hc, hplain⟩ := h.step_plain rfl hsess
    exact ⟨hc, Option.bind_eq_some_iff.mpr
      ⟨y, hy, Option.map_eq_some_iff.mpr ⟨_, hplain, rfl⟩⟩⟩
  | enter =>
    obtain ⟨f, hf, hs⟩ := Option.bind_eq_some_iff.mp hs
    obtain ⟨s, hsess, rfl⟩ := Option.map_eq_some_iff.mp hs
    have hz' : x.session.waits f = false := by
      rcases SystemPc.callee_cases hf with ⟨p, rfl, -⟩ | ⟨-, rfl⟩ <;> rfl
    obtain ⟨hc, hplain⟩ := h.step_plain hz' hsess
    exact ⟨hc, Option.bind_eq_some_iff.mpr
      ⟨f, hf, Option.map_eq_some_iff.mpr ⟨_, hplain, rfl⟩⟩⟩
  | main =>
    obtain ⟨s, hsess, hf⟩ := Option.bind_eq_some_iff.mp hs
    obtain ⟨hc, hplain⟩ := h.step_plain rfl hsess
    obtain ⟨hc', hfinish⟩ := RunSender.finish_plain hc hf
    exact ⟨hc', Option.bind_eq_some_iff.mpr ⟨_, hplain, hfinish⟩⟩
  | worker f =>
    obtain ⟨s, hsess, rfl⟩ := Option.map_eq_some_iff.mp hs
    obtain ⟨hc, hplain⟩ := h.step_plain (e := .worker f) hz hsess
    exact ⟨hc, Option.map_eq_some_iff.mpr ⟨_, hplain, rfl⟩⟩

/-- **A step of a wait.** -/
theorem RunSender.step_waiting (h : x.session.Coded) (ho : x.Smooth e) (hz : x.waits e = true)
    (hs : x.stepZC A a e = some x') :
    x'.session.Coded ∧ x'.plain = x.plain ∧ e.seen = none := by
  cases e with
  | worker f =>
    obtain ⟨s, hsess, rfl⟩ := Option.map_eq_some_iff.mp hs
    obtain ⟨hc, hplain, hseen⟩ := h.step_waiting (e := .worker f) ho hz hsess
    refine ⟨hc, congrArg (fun s => { x with session := s }) hplain, ?_⟩
    cases f <;> first | rfl | cases hseen
  | _ => cases hz

theorem runLoop_simulation (A : FastInts) (a : Locals) (ok : RunSender → RunSenderEvent → Prop) :
    Simulation (runLoopZC A a) (runLoop A a) (fun v e => v.Smooth e ∧ ok v.plain e) ok
      (fun v u => v.session.Coded ∧ u = v.plain) RunSenderEvent.seen RunSenderEvent.seen where
  step v e v' u hv ho hs := by
    obtain ⟨hc, rfl⟩ := hv
    obtain ⟨hrun, hs⟩ := Option.ite_none_right_eq_some.mp hs
    cases hz : v.waits e with
    | true =>
      obtain ⟨hc', hplain, hseen⟩ := RunSender.step_waiting hc ho.1 hz hs
      refine ⟨[], v.plain, .nil, ⟨hc', hplain.symm⟩, ?_⟩
      rw [hseen]
      rfl
    | false =>
      obtain ⟨hc', hplain⟩ := RunSender.step_plain hc hz hs
      have hstep : (runLoop A a).step v.plain e = some v'.plain := by
        refine (if_pos ?_).trans hplain
        cases e <;> exact hrun
      refine ⟨[e], v'.plain, .single ho.2 hstep, ⟨hc', rfl⟩, ?_⟩
      rw [List.filterMap_cons]
      cases e.seen <;> rfl

/-- **The loop over a `TCPSenderZC` agrees with the loop over a `TCPSender`.**  A run in which no
wait for a notification fails is, its waits left out, a run over a `TCPSender` from the same start,
whatever conditions its steps meet: the same answers of the timer, the user function and the kernel,
the same lists returned and copied, the same bytes on the socket and the same state of the
system. -/
theorem run_zc_refines_run {ok : RunSender → RunSenderEvent → Prop} {r : RealTimeSystem} {h : Heap}
    {so : Sockets} {err : Error} {es : List RunSenderEvent}
    (hr : (runLoopZC A a).Runs (fun v e => v.Smooth e ∧ ok v.plain e)
      (RunSender.entered r h so err) es x) :
    ∃ l, (runLoop A a).Runs ok (RunSender.entered r h so err) l x.plain ∧
      l.filterMap RunSenderEvent.seen = es.filterMap RunSenderEvent.seen := by
  have h0 : (RunSender.entered r h so err).session.Coded := ⟨Nat.succ_pos 5, Nat.succ_pos 5⟩
  obtain ⟨l, u, hl, ⟨-, rfl⟩, hseen⟩ := (runLoop_simulation A a ok).run ⟨h0, rfl⟩ hr
  exact ⟨l, hl, hseen⟩

instance (x : RunSender) (e : RunSenderEvent) : Decidable (x.Smooth e) :=
  match e with
  | .worker e => inferInstanceAs (Decidable (x.session.worker.Smooth e))
  | .system _ | .isSendDone _ | .enter | .main => .isTrue trivial

/-- the worker through the one byte of the list and its notification -/
def workerReported : List RunSenderEvent :=
  [.worker .tau, .worker (.sent 1), .worker .tau, .worker .tau, .worker .tau, .worker .tau,
    .worker (.call true), .worker (.recv (some (some ⟨0, 11, 5, 0, 0⟩))), .worker .tau,
    .worker .tau]

/-- the first iteration, whose list is sent and its notification read -/
theorem run_zc_refines_run_first :
    ∃ x l, (runLoopZC FastInts.lp64 ⟨1, 2⟩).run senderEntered
        (firstSend ++ workerCopies ++ workerReported) = some x ∧
      x.session.worker.lastSendingCounter = 1 ∧ x.returned = [[⟨.memoryLocation, 10, 1, 0⟩]] ∧
      (runLoop FastInts.lp64 ⟨1, 2⟩).Runs (StreamOk FastInts.lp64 ⟨1, 2⟩) senderEntered l x.plain ∧
      l.filterMap RunSenderEvent.seen
        = (firstSend ++ workerCopies ++ workerReported).filterMap RunSenderEvent.seen := by
  have hrun : (((runLoopZC FastInts.lp64 ⟨1, 2⟩).restrict
      (fun v e => v.Smooth e ∧ StreamOk FastInts.lp64 ⟨1, 2⟩ v.plain e)).run senderEntered
        (firstSend ++ workerCopies ++ workerReported)).map
        (fun x => (x.session.worker.lastSendingCounter, x.returned))
      = some (1, [[⟨.memoryLocation, 10, 1, 0⟩]]) := by decide
  obtain ⟨x, hx, he⟩ := Option.map_eq_some_iff.mp hrun
  obtain ⟨hcount, hreturned⟩ := Prod.mk.inj he
  have hr := Machine.Runs.of_restrict hx
  obtain ⟨l, hl, hseen⟩ := run_zc_refines_run hr
  exact ⟨x, l, hr.run_eq, hcount, hreturned, hl, hseen⟩

end
end RealTimeTransfer
