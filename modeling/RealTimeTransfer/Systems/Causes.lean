import RealTimeTransfer.Senders.Report
import RealTimeTransfer.Systems.Disconnect

/-!
# Why a run fails

`run` leaves its loop with false at four places; at one of them it passes on what `send` has said.
In a system with a sender that text is the complaint about the step of the worker that failed: `run`
does not call a sender that is not initialised, and not one with a list under way.

* `Serving`         the sender is initialised as long as `run` may call `send`;
* `Moves.fails`     the four places;
* `run_cause`       the text that `run` leaves behind is true.
-/

namespace RealTimeTransfer
open Machines Words

namespace RealTimeSystem
variable {A : FastInts} {s t : RealTimeSystem} {e : SystemEvent}

/-- an object that is not initialised stays so until the next `initialize`, and refuses -/
theorem call_uninitialized (hi : s.initialized = false) (hs : s.call A e = some t)
    (he : ∀ a, e ≠ .callInitialize a) : t.initialized = false ∧ ∃ r, t.pc = .idle r := by
  have ht : t.initialized = false := by
    by_contra hn
    rcases call_initialized hs (Bool.not_eq_false _ ▸ hn) with ⟨a, ha, -⟩ | ⟨l, n, -, hi', -⟩
    · exact he a ha
    · exact absurd (hi.symm.trans hi') nofun
  refine ⟨ht, ?_⟩
  unfold call at hs
  split at hs
  case h_1 | h_2 | h_3 =>
    cases hs
    unfold setPointer
    split <;> exact ⟨_, rfl⟩
  case h_4 | h_5 | h_6 => cases hs; exact ⟨_, rfl⟩
  case h_7 a => exact absurd rfl (he a)
  case h_8 | h_9 => rw [hi] at hs; cases hs; exact ⟨_, rfl⟩
  case h_10 => cases hs

theorem step_ending (hp : s.pc = .beforeEnd ∨ ∃ r, s.pc = .ending r) (hs : s.step A e = some t) :
    e = .endSender ∧ (∃ r, t.pc = .idle r) ∧
      (t.initialized = false ∨ t.initialized = s.initialized ∧ s.pc.inLoop = true) := by
  unfold step at hs
  rcases hp with hp | ⟨r, hp⟩ <;> rw [hp] at hs <;> cases e <;> try cases hs
  · exact ⟨rfl, ⟨_, rfl⟩, .inl rfl⟩
  · exact ⟨rfl, ⟨_, rfl⟩, .inr ⟨rfl, by rw [hp]; rfl⟩⟩

/-- the text with which `run` leaves its loop, and what stands behind it -/
inductive Fails (A : FastInts) (s : RealTimeSystem) (e : SystemEvent) (t : RealTimeSystem) :
    String → Prop where
  | disconnected : t.skippedCount = toU (wide A) (t.frequency * 3 : Nat) →
      Fails A s e t disconnectedText
  | notSent : e = .isSendDone false → t.allowSkipMode = false → Fails A s e t notSentText
  | late : e = .tick false → Fails A s e t lateText
  | refused (msg : String) : s.pc = .send → e = .send s.userPacketsList (some msg) →
      Fails A s e t msg

/-- **`run` leaves its loop with false at four places.** -/
theorem Moves.fails (h : s.Moves A e t) (ht : t.pc = .ending false) :
    t.errorHandler.isError = true ∧ Fails A s e t t.errorHandler.errorMsg := by
  cases h
  case polled b _ | tolerated b _ => cases b <;> cases ht
  case called c _ _ =>
    change (if c.stop then SystemPc.ending true else .send) = _ at ht
    cases hc : c.stop <;> rw [hc] at ht <;> cases ht
  case disconnected hs => exact ⟨rfl, .disconnected hs⟩
  case notSent ha => exact ⟨rfl, .notSent rfl ha⟩
  case notAccepted msg hpc => exact ⟨rfl, .refused msg hpc rfl⟩
  case late => exact ⟨rfl, .late rfl⟩
  all_goals cases ht

end RealTimeSystem

/-! ## The system and its sender -/

def RunSender.complaint (A : FastInts) (x : RunSender) : RunSenderEvent → Option String
  | .worker e => x.session.worker.complaint A e
  | _ => none

/-- a step of the worker has failed in the run `es`, with the complaint `msg` -/
def RunSender.Failed (A : FastInts) (a : Locals) (x₀ : RunSender) (es : List RunSenderEvent)
    (msg : String) : Prop :=
  (runSender A a).Happened (fun v e => v.complaint A e = some msg) x₀ es

/-- as long as `run` may call `send` the sender is initialised -/
def Serving (x : RunSender) : Prop :=
  x.session.main.initialized = true ∨ x.system.pc = .beforeEnd ∨ (∃ r, x.system.pc = .ending r) ∨
    (x.system.initialized = false ∧ ∃ r, x.system.pc = .idle r)

/-- a step inside a call of the sender, or of the worker -/
def RunSenderEvent.inSender : RunSenderEvent → Bool
  | .enter | .main | .worker _ => true
  | .system _ | .isSendDone _ => false

/-- `e` is the last step of the system itself -/
def LastStep (e : RunSenderEvent) (es : List RunSenderEvent) : Prop :=
  ∃ l m, es = l ++ e :: m ∧ ∀ f ∈ m, f.inSender = true

/-- what stands behind a text of `run`: the count of skipped calls, its last test of `is_send_done`,
its last tick or a step of the worker -/
inductive Cause (A : FastInts) (a : Locals) (x₀ : RunSender) (es : List RunSenderEvent)
    (r : RealTimeSystem) : String → Prop where
  | disconnected : r.skippedCount = toU (RealTimeSystem.wide A) (r.frequency * 3 : Nat) →
      Cause A a x₀ es r RealTimeSystem.disconnectedText
  | notSent : LastStep (.isSendDone false) es → r.allowSkipMode = false →
      Cause A a x₀ es r RealTimeSystem.notSentText
  | late : LastStep (.system (.tick false)) es → Cause A a x₀ es r RealTimeSystem.lateText
  | failed (msg : String) : RunSender.Failed A a x₀ es msg → Cause A a x₀ es r msg

/-- the run so far is one of the sender's session, with the same failures -/
def Replayed (A : FastInts) (a : Locals) (x₀ : RunSender) (es : List RunSenderEvent) (s : Session) :
    Prop :=
  ∃ l, (session false A).run x₀.session l = some s ∧
    ∀ msg, Failed false A x₀.session l msg ↔ RunSender.Failed A a x₀ es msg

structure Caused (A : FastInts) (a : Locals) (x₀ : RunSender) (es : List RunSenderEvent)
    (x : RunSender) : Prop where
  alone : Alone x
  entered : x.system.Entered
  serving : Serving x
  replayed : Replayed A a x₀ es x.session
  cause : x.system.pc = .ending false → x.system.errorHandler.isError = true ∧
    Cause A a x₀ es x.system x.system.errorHandler.errorMsg

section
variable {A : FastInts} {a : Locals} {x₀ x x' : RunSender} {es : List RunSenderEvent}
  {e : RunSenderEvent} {r r₀ y : RealTimeSystem} {s s' : Session} {f : SessionEvent} {hp : Heap}
  {so : Sockets} {err : Error}

theorem Replayed.snoc (h : Replayed A a x₀ es x.session) (hx : (runSender A a).run x₀ es = some x)
    (hf : x.session.step false A f = some s') (hc : x.session.complaint A f = x.complaint A e) :
    Replayed A a x₀ (es ++ [e]) s' := by
  obtain ⟨l, hl, hfail⟩ := h
  refine ⟨l ++ [f], Machine.run_snoc hl hf, fun msg => ?_⟩
  unfold Failed RunSender.Failed
  rw [Machine.happened_snoc hl, Machine.happened_snoc hx, hc]
  exact or_congr_left (hfail msg)

theorem Replayed.further (h : Replayed A a x₀ es s) (hf : s.step false A f = some s')
    (hc : s.complaint A f = none) : Replayed A a x₀ es s' := by
  obtain ⟨l, hl, hfail⟩ := h
  exact ⟨l ++ [f], Machine.run_snoc hl hf, fun msg => (failed_quiet hl hc).trans (hfail msg)⟩

theorem RunSender.failed_mono (hx : (runSender A a).run x₀ es = some x) {msg : String}
    (hf : RunSender.Failed A a x₀ es msg) : RunSender.Failed A a x₀ (es ++ [e]) msg :=
  (Machine.happened_snoc hx).mpr (.inl hf)

theorem LastStep.snoc {e' : RunSenderEvent} (h : LastStep e' es) (he : e.inSender = true) :
    LastStep e' (es ++ [e]) := by
  obtain ⟨l, m, rfl, hm⟩ := h
  refine ⟨l, m ++ [e], by rw [List.append_assoc]; rfl, fun f hf => ?_⟩
  rcases List.mem_append.mp hf with hf | hf
  · exact hm f hf
  · rw [List.mem_singleton.mp hf]
    exact he

theorem LastStep.last : LastStep e (es ++ [e]) := ⟨es, [], rfl, nofun⟩

theorem Cause.snoc (hx : (runSender A a).run x₀ es = some x) (he : e.inSender = true) {msg : String}
    (h : Cause A a x₀ es r msg) : Cause A a x₀ (es ++ [e]) r msg := by
  cases h with
  | disconnected h => exact .disconnected h
  | notSent h ha => exact .notSent (h.snoc he) ha
  | late h => exact .late (h.snoc he)
  | failed _ h => exact .failed msg (RunSender.failed_mono hx h)

theorem cause_of_step {f : SystemEvent} (hs : r.step A f = some y)
    (hdone : f = .isSendDone false → e = .isSendDone false)
    (htick : f = .tick false → e = .system (.tick false))
    (hsend : ∀ msg, r.pc = .send → f = .send r.userPacketsList (some msg) →
      RunSender.Failed A a x₀ (es ++ [e]) msg)
    (hpc : y.pc = .ending false) :
    y.errorHandler.isError = true ∧ Cause A a x₀ (es ++ [e]) y y.errorHandler.errorMsg := by
  have moves := RealTimeSystem.moves_of_inLoop hs (by rw [hpc]; rfl)
  obtain ⟨herr, hfail⟩ := moves.fails hpc
  refine ⟨herr, ?_⟩
  have last : ∀ {e' : RunSenderEvent}, e = e' → LastStep e' (es ++ [e]) := by
    rintro _ rfl
    exact .last
  generalize y.errorHandler.errorMsg = text at hfail ⊢
  cases hfail with
  | disconnected hs => exact .disconnected hs
  | notSent hf ha => exact .notSent (last (hdone hf)) ha
  | late hf => exact .late (last (htick hf))
  | refused msg hp hf => exact .failed _ (hsend _ hp hf)

theorem caused_start (r : RealTimeSystem) (h : Heap) (so : Sockets) (err : Error) :
    Caused A a (RunSender.start r h so err) [] (RunSender.start r h so err) := by
  refine ⟨alone_start r h so err, ?_, .inl rfl, ⟨[], rfl, fun msg => ?_⟩, nofun⟩
  · rintro (hp | hp) <;> cases hp
  · exact iff_of_false Machine.not_happened_nil Machine.not_happened_nil

theorem Serving.system {f : SystemEvent} (h : Serving x) (hs : x.system.step A f = some y)
    (hm : s.main.initialized = x.session.main.initialized)
    (hf : f ≠ .endSender ∧ ∀ a, f ≠ .callInitialize a) (l : List DataPacketsList) :
    Serving ⟨y, s, l⟩ := by
  rcases h with h | h | ⟨v, h⟩ | ⟨hi, v, hp⟩
  · exact .inl (hm.trans h)
  · exact absurd (RealTimeSystem.step_ending (.inl h) hs).1 hf.1
  · exact absurd (RealTimeSystem.step_ending (.inr ⟨v, h⟩) hs).1 hf.1
  · rw [RealTimeSystem.step_idle hp] at hs
    exact .inr (.inr (.inr (RealTimeSystem.call_uninitialized hi hs hf.2)))

theorem Advance.of_returned {d d' : SenderWorkerData} {pc : SenderPc} {v : Option Bool}
    (h : Advance d pc d' (.ready v)) : v = some true ∨ (v = some false ∧ pc.unstored = true) := by
  generalize hp : SenderPc.ready v = pc' at h
  cases h
  case refused hr hh he =>
    cases hp
    refine .inr ⟨rfl, ?_⟩
    cases pc <;> first | rfl | (cases hr; done) | (cases hh; done) | cases he
  all_goals first | cases hp; done | (cases hp; exact .inl rfl)

/-- what `run` is told of a `send` that returned false is what has failed -/
theorem Caused.refused (h : Caused A a (RunSender.start r₀ hp so err) es x)
    {d : SenderWorkerData} {m : Sender} {v : Option Bool}
    (hm : x.session.main.step false x.session.data = some (d, m)) (hv : m.pc = .ready v)
    (hpc : x.system.pc = .send) (hne : v ≠ some true) :
    RunSender.Failed A a (RunSender.start r₀ hp so err) es m.errorHandler.errorMsg := by
  have adv := Sender.step_advance hm
  rw [hv] at adv
  obtain ⟨rfl, hun⟩ := adv.of_returned.resolve_left hne
  obtain ⟨l, hl, hfail⟩ := h.replayed
  obtain ⟨hi, hc, hn, hrep⟩ := reported_run hl
  obtain ⟨-, -, -, hwhy⟩ := hrep.refused hi hc hn hm hv
  rcases hwhy with ⟨-, hinit⟩ | ⟨-, hd, -⟩ | ⟨-, hf⟩
  · rcases h.serving with hs | hs | ⟨w, hs⟩ | ⟨-, w, hs⟩
    · exact absurd (hinit.symm.trans hs) nofun
    all_goals exact absurd (hpc.symm.trans hs) nofun
  · exact absurd (hd.symm.trans (h.alone.send hpc hun)) nofun
  · exact (hfail _).mp ((hf _).mpr rfl)

theorem Caused.initialized (h : Caused A a x₀ es x) {d : SenderWorkerData} {m : Sender}
    (hm : x.session.main.step false x.session.data = some (d, m))
    (he : x.session.main.pc.ending = false) (hp : x.system.pc = .send ∨ x.system.pc = .beforeSend) :
    m.initialized = true := by
  have hmark : x.session.main.pc ≠ .endMark := by
    intro hm'
    rw [hm'] at he
    cases he
  refine ((Sender.step_admitted hm).1 hmark).trans ?_
  rcases h.serving with hs | hs | ⟨w, hs⟩ | ⟨-, w, hs⟩
  · exact hs
  all_goals rcases hp with hp | hp <;> cases hp.symm.trans hs

theorem Caused.main (h : Caused A a (RunSender.start r₀ hp so err) es x)
    (hx : (runSender A a).run (RunSender.start r₀ hp so err) es = some x)
    (hs : x.step A a .main = some x') :
    Caused A a (RunSender.start r₀ hp so err) (es ++ [.main]) x' := by
  have halone : Alone x' := h.alone.step hs
  obtain ⟨d, m, hm, hsess, hf⟩ := RunSender.step_main hs
  have adv := Sender.step_advance hm
  have hin := h.alone.inside adv.not_ready
  have hrep := h.replayed.snoc (e := .main) hx hsess rfl
  rcases RunSender.finish_cases hf with ⟨hr, rfl⟩ | ⟨v, y, s', hv, hy, h1, -, hget, hx'⟩
  · refine ⟨halone, h.entered, ?_, hrep, fun hpc => ?_⟩
    · rcases hin with ⟨he, hp⟩ | ⟨-, hp | hp⟩
      · exact .inl (h.initialized hm he hp)
      · exact .inr (.inl hp)
      · exact .inr (.inr (.inl hp))
    · obtain ⟨herr, hcause⟩ := h.cause hpc
      exact ⟨herr, hcause.snoc hx rfl⟩
  · obtain ⟨hrep', hinit⟩ : Replayed A a (RunSender.start r₀ hp so err) (es ++ [.main]) s' ∧
        s'.main.initialized = m.initialized := by
      rcases hget with rfl | ⟨msg, hget⟩
      · exact ⟨hrep, rfl⟩
      · obtain ⟨-, he⟩ := Option.ite_some_none_eq_some.mp hget
        exact ⟨hrep.further hget rfl, by rw [← he]⟩
    have hserving : ∀ l, Serving ⟨y, s', l⟩ := by
      intro l
      rcases hin with ⟨he, hp⟩ | ⟨-, hp⟩
      · exact .inl (hinit.trans (h.initialized hm he hp))
      · obtain ⟨-, hy', hi⟩ := RealTimeSystem.step_ending hp hy
        refine .inr (.inr (.inr ⟨?_, hy'⟩))
        rcases hi with hi | ⟨hi, hin⟩
        · exact hi
        · exact hi.trans (h.entered (.inr hin))
    have hcause := @cause_of_step A a (RunSender.start r₀ hp so err) es .main _ _ _ hy ?_ ?_ ?_
    · rcases hx' with ⟨-, -, rfl⟩ | ⟨-, rfl⟩
      · exact ⟨halone, h.entered.step hy, hserving _, hrep', hcause⟩
      · exact ⟨halone, h.entered.step hy, hserving _, hrep', hcause⟩
    · intro hf
      rcases RunSender.result_cases x.system v _ with ⟨l, an, hl⟩ | hl <;> cases hl.symm.trans hf
    · intro hf
      rcases RunSender.result_cases x.system v _ with ⟨l, an, hl⟩ | hl <;> cases hl.symm.trans hf
    · intro msg hpc hf
      unfold RunSender.result at hf
      rw [hpc] at hf
      by_cases hv' : v = some true
      · rw [if_pos hv'] at hf
        cases hf
      · rw [if_neg hv'] at hf
        cases hf
        exact RunSender.failed_mono hx (h.refused hm hv hpc hv')

theorem Caused.step (h : Caused A a (RunSender.start r₀ hp so err) es x)
    (hx : (runSender A a).run (RunSender.start r₀ hp so err) es = some x)
    (hs : x.step A a e = some x') : Caused A a (RunSender.start r₀ hp so err) (es ++ [e]) x' := by
  have halone : Alone x' := h.alone.step hs
  cases e with
  | system f =>
    obtain ⟨hl, y, hy, -, hsess, rfl⟩ := RunSender.step_system hs
    refine ⟨halone, h.entered.step hy, h.serving.system hy rfl ⟨?_, ?_⟩ x.returned,
      h.replayed.snoc hx hsess rfl, cause_of_step hy ?_ ?_ ?_⟩
    · rintro rfl
      cases hl
    · rintro b rfl
      cases hl
    · rintro rfl
      cases hl
    · rintro rfl
      rfl
    · rintro msg - rfl
      cases hl
  | isSendDone b =>
    obtain ⟨y, hy, -, -, hsess, rfl⟩ := RunSender.step_isSendDone hs
    refine ⟨halone, h.entered.step hy, h.serving.system hy rfl ⟨nofun, nofun⟩ x.returned,
      h.replayed.snoc hx hsess rfl, cause_of_step hy ?_ nofun nofun⟩
    intro hb
    cases hb
    rfl
  | enter =>
    have hcause : ∀ s, x.system.pc = .ending false → _ ∧ Cause A a _ (es ++ [.enter])
        (RunSender.mk x.system s x.returned).system _ :=
      fun _ hpc => ⟨(h.cause hpc).1, (h.cause hpc).2.snoc hx rfl⟩
    rcases RunSender.step_enter hs with ⟨p, -, -, hsess, rfl⟩ | ⟨hpc, -, hsess, rfl⟩
    · exact ⟨halone, h.entered, h.serving, h.replayed.snoc hx hsess rfl, hcause _⟩
    · exact ⟨halone, h.entered, h.serving, h.replayed.snoc hx hsess rfl, hcause _⟩
  | main => exact h.main hx hs
  | worker f =>
    obtain ⟨d, w, -, hsess, rfl⟩ := RunSender.step_worker hs
    exact ⟨halone, h.entered, h.serving, h.replayed.snoc hx hsess rfl,
      fun hpc => ⟨(h.cause hpc).1, (h.cause hpc).2.snoc hx rfl⟩⟩

/-- **`run` tells the truth about its end.**  Whatever the timer, the user function and the kernel
answer, with or without calls of `send_before_run` before, and in every order of the steps: where
`run` leaves its loop with false there is an error, and its text has its cause behind it.  If the
text is none of the three of `run` itself, a step of the worker has failed and this is the complaint
about it; the texts by which a sender refuses a wrong call are never among them. -/
theorem run_cause (hr : (runSender A a).run (RunSender.start r hp so err) es = some x)
    (hpc : x.system.pc = .ending false) :
    x.system.errorHandler.isError = true ∧
      Cause A a (RunSender.start r hp so err) es x.system x.system.errorHandler.errorMsg ∧
      ∀ msg msg', RunSender.Failed A a (RunSender.start r hp so err) es msg →
        RunSender.Failed A a (RunSender.start r hp so err) es msg' → msg = msg' := by
  have h : Caused A a (RunSender.start r hp so err) es x :=
    ((Machine.runs_of_run hr).follows
      (fun l v => (runSender A a).run _ l = some v ∧ Caused A a (RunSender.start r hp so err) l v)
      ⟨rfl, caused_start r hp so err⟩ fun l v e v' hv _ hs =>
        ⟨Machine.run_snoc hv.1 hs, hv.2.step hv.1 hs⟩).2
  refine ⟨(h.cause hpc).1, (h.cause hpc).2, fun msg msg' hm hm' => ?_⟩
  obtain ⟨l, hl, hfail⟩ := h.replayed
  have hrep := (reported_run hl).2.2.2
  exact (hrep.reports msg ((hfail msg).mpr hm)).unique (hrep.reports msg' ((hfail msg').mpr hm'))

/-- the worker fails in its set-up before the first `send` of `run` -/
def noAffinity : List RunSenderEvent :=
  [.system .run] ++ firstSend.take 7 ++ .worker (.call false) :: List.replicate 5 (.worker .tau) ++
    List.replicate 4 .main

/-- `run` says so -/
theorem run_cause_affinity :
    ∃ x, (runSender FastInts.lp64 ⟨1, 2⟩).run senderStarted noAffinity = some x ∧
      RunSender.Failed FastInts.lp64 ⟨1, 2⟩ senderStarted noAffinity
        "Sender worker thread can't set CPU Affinity." := by
  have hrun : ((runSender FastInts.lp64 ⟨1, 2⟩).run senderStarted noAffinity).map
      (fun x => (x.system.pc, x.system.errorHandler.errorMsg))
      = some (.ending false, "Sender worker thread can't set CPU Affinity.") := by decide
  obtain ⟨x, hx, he⟩ := Option.map_eq_some_iff.mp hrun
  obtain ⟨hpc, hmsg⟩ := Prod.mk.inj he
  obtain ⟨-, hcause, -⟩ := run_cause hx hpc
  refine ⟨x, hx, ?_⟩
  rw [hmsg] at hcause
  generalize ht : "Sender worker thread can't set CPU Affinity." = text at hcause ⊢
  cases hcause with
  | disconnected => exact absurd ht (by decide)
  | notSent => exact absurd ht (by decide)
  | late => exact absurd ht (by decide)
  | failed _ hf => exact hf

end
end RealTimeTransfer
