import RealTimeTransfer.Systems.RealTimeSystem

/-!
# The initialisation discipline

`History` is the object together with the notes of an observer: the public calls that matter for
`initialized_`, with their results.  `Disciplined` is what the documentation asks for before `run`
and `send_before_run`.

* `Guarded`           a `run` or `send_before_run` made now gets past its check only if the notes
                      are disciplined;
* `guarded_iff`       this holds all along a history if and only if no `initialize` fails while
                      an earlier success is in force;
* `run_after_failed_initialize`   such a history.
-/

namespace RealTimeTransfer
open Machines Words

inductive Note where
  | setter
  | initialized (r : Bool)
  | run
  | sendBeforeRun (r : Bool)
  deriving DecidableEq, Repr

/-- the value that a public call has returned -/
def SystemPc.returned : SystemPc → Bool
  | .idle (some r) => r
  | _ => false

/-- the note on the step `e` from `s` to `t` -/
def note (s : RealTimeSystem) (e : SystemEvent) (t : RealTimeSystem) : List Note :=
  match s.pc, e with
  | .idle _, .callInitialize _ => [.initialized t.pc.returned]
  | .idle _, .run => [.run]
  | .idle _, .sendBeforeRun _ _ => if t.pc = .beforeSend then [] else [.sendBeforeRun false]
  | .idle _, _ => [.setter]
  | .beforeTest, .isSendDone true => [.sendBeforeRun true]
  | .beforeEnd, .endSender => [.sendBeforeRun t.pc.returned]
  | _, _ => []

structure History where
  system : RealTimeSystem := {}
  notes : List Note := []
  deriving DecidableEq, Repr

def history (A : FastInts) : Machine History SystemEvent where
  step h e := (h.system.step A e).map fun t => ⟨t, h.notes ++ note h.system e t⟩

/-- the last `initialize` returned true, and since then no setter was called, `run` was not called
and no `send_before_run` returned false -/
def Disciplined (l : List Note) : Prop :=
  ∃ a b, l = a ++ .initialized true :: b ∧ ∀ n ∈ b, n = .sendBeforeRun true

/-- `run` and `send_before_run` get past their check only on disciplined notes -/
def Guarded (A : FastInts) (h : History) : Prop :=
  ∀ e t, (e = .run ∨ ∃ l n, e = .sendBeforeRun l n) → h.system.step A e = some t →
    t.pc = .startTimer ∨ t.pc = .beforeSend → Disciplined h.notes

/-- every answer is a success -/
def SystemAnswers.Ok (a : SystemAnswers) : Prop :=
  a.convertRtThread = none ∧ a.timerInitialize = none ∧ a.timerSetFrequency = none ∧
    a.senderInitialize = none

/-- the condition: an `initialize` called while an earlier success is in force succeeds -/
def InitOk (h : History) : SystemEvent → Prop
  | .callInitialize a => h.system.initialized = true → a.Ok
  | _ => True

section
variable {A : FastInts} {l : List Note} {s t : RealTimeSystem} {h h' : History} {e : SystemEvent}

theorem Disciplined.append (hl : Disciplined l) : Disciplined (l ++ [.sendBeforeRun true]) := by
  obtain ⟨a, b, rfl, hb⟩ := hl
  refine ⟨a, b ++ [.sendBeforeRun true], by rw [List.append_assoc]; rfl, fun n hn => ?_⟩
  rcases List.mem_append.mp hn with hn | hn
  · exact hb n hn
  · exact List.mem_singleton.mp hn

theorem disciplined_initialized (l : List Note) : Disciplined (l ++ [.initialized true]) :=
  ⟨l, [], rfl, nofun⟩

theorem not_disciplined_failed (l : List Note) : ¬ Disciplined (l ++ [.initialized false]) := by
  rintro ⟨a, b, hl, hb⟩
  rcases List.eq_nil_or_concat b with rfl | ⟨b', n, rfl⟩
  · have hlast := (List.append_inj' hl rfl).2
    cases hlast
  · have hsplit : l ++ [.initialized false] = (a ++ .initialized true :: b') ++ [n] := by
      rw [hl, List.concat_eq_append, List.append_assoc, List.cons_append]
    have hlast : n = .initialized false := by
      have hn := (List.append_inj' hsplit rfl).2
      cases hn
      rfl
    have hmem : n ∈ b'.concat n := by simp
    have hn := hb n hmem
    rw [hlast] at hn
    cases hn

/-! ## The steps -/

/-- what `initialize` checks of the object -/
structure RealTimeSystem.Provided (s : RealTimeSystem) : Prop where
  userAppFunc : s.userAppFunc ≠ 0
  timer : s.timer ≠ 0
  sender : s.sender ≠ 0
  frequency : s.frequency ≠ 0

namespace RealTimeSystem

theorem initError_none {a : SystemAnswers} (hs : s.initError a = none) : s.Provided ∧ a.Ok := by
  unfold initError at hs
  by_cases h1 : s.userAppFunc = 0
  · rw [if_pos h1] at hs
    cases hs
  by_cases h2 : s.timer = 0
  · rw [if_neg h1, if_pos h2] at hs
    cases hs
  by_cases h3 : s.sender = 0
  · rw [if_neg h1, if_neg h2, if_pos h3] at hs
    cases hs
  by_cases h4 : s.frequency = 0
  · rw [if_neg h1, if_neg h2, if_neg h3, if_pos h4] at hs
    cases hs
  rw [if_neg h1, if_neg h2, if_neg h3, if_neg h4] at hs
  refine ⟨⟨h1, h2, h3, h4⟩, ?_⟩
  simpa [SystemAnswers.Ok, and_assoc] using hs

theorem initError_ok {a : SystemAnswers} (hp : s.Provided) (ha : a.Ok) : s.initError a = none := by
  obtain ⟨h1, h2, h3, h4⟩ := ha
  unfold initError
  rw [if_neg hp.userAppFunc, if_neg hp.timer, if_neg hp.sender, if_neg hp.frequency, h1, h2, h3, h4]
  rfl

/-- inside a call `initialized_` is only ever cleared, and the only note with it set is that of a
`send_before_run` which returns true -/
theorem Moves.initialized (h : s.Moves A e t) (ht : t.initialized = true) :
    s.initialized = true ∧ (note s e t = [] ∨ note s e t = [.sendBeforeRun true]) := by
  cases h
  case giveUp => cases ht
  case inTime hpc => exact ⟨ht, .inr (by unfold note; rw [hpc])⟩
  case ticked hpc => rcases hpc with hpc | hpc <;> exact ⟨ht, .inl (by simp [note, hpc])⟩
  case late hpc => rcases hpc with hpc | hpc <;> exact ⟨ht, .inl (by simp [note, hpc])⟩
  all_goals exact ⟨ht, .inl (by simp [note, *])⟩

theorem setPointer_initialized (s s' : RealTimeSystem) (p : Ptr) (msg : String) :
    (s.setPointer s' p msg).initialized = false := by
  unfold setPointer
  by_cases hp : p = 0
  · rw [if_pos hp]; rfl
  · rw [if_neg hp]

/-- `initialized_` is set behind a public call only by `initialize`, and left by a
`send_before_run` that gets past its check -/
theorem call_initialized (hs : s.call A e = some t) (ht : t.initialized = true) :
    (∃ a, e = .callInitialize a ∧ t = s.initializeSystem A a) ∨
      ∃ l n, e = .sendBeforeRun l n ∧ s.initialized = true ∧
        t = { s with listOfData := l, timeLimitMs := n, pc := .beforeSend } := by
  unfold call at hs
  split at hs
  case h_1 | h_2 | h_3 => cases hs; rw [setPointer_initialized] at ht; cases ht
  case h_4 | h_5 | h_6 => cases hs; cases ht
  case h_7 a => cases hs; exact .inl ⟨a, rfl, rfl⟩
  case h_8 l n =>
    cases hi : s.initialized with
    | true =>
      rw [hi, if_pos rfl] at hs
      cases hs
      exact .inr ⟨l, n, rfl, rfl, rfl⟩
    | false =>
      rw [hi, if_neg nofun] at hs
      cases hs
      rw [show (s.fail _ _).initialized = s.initialized from rfl, hi] at ht
      cases ht
  case h_9 =>
    cases hi : s.initialized with
    | true => rw [hi, if_pos rfl] at hs; cases hs; cases ht
    | false =>
      rw [hi, if_neg nofun] at hs
      cases hs
      rw [show (s.fail _ _).initialized = s.initialized from rfl, hi] at ht
      cases ht
  case h_10 => cases hs

theorem initialize_fails {a : SystemAnswers} {msg : String} (h : s.initError a = some msg) :
    s.initializeSystem A a = s.fail msg (.idle (some false)) := by
  unfold initializeSystem
  rw [h]

theorem initialize_succeeds {a : SystemAnswers} (h : s.initError a = none) :
    s.initializeSystem A a = { s with
      msTolerance := min s.msTolerance (toleranceLimit A s.frequency),
      initialized := true, pc := .idle (some true) } := by
  unfold initializeSystem
  rw [h]

end RealTimeSystem

/-! ## The invariant -/

/-- with `initialized_` set, everything is provided and the notes are disciplined -/
def History.Kept (h : History) : Prop :=
  h.system.initialized = true → h.system.Provided ∧ Disciplined h.notes

theorem history_step (hs : (history A).step h e = some h') :
    ∃ t, h.system.step A e = some t ∧ h' = ⟨t, h.notes ++ note h.system e t⟩ := by
  obtain ⟨t, ht, rfl⟩ := Option.map_eq_some_iff.mp hs
  exact ⟨t, ht, rfl⟩

theorem note_init {r : Option Bool} {a : SystemAnswers} (hpc : s.pc = .idle r) :
    note s (.callInitialize a) t = [.initialized t.pc.returned] := by
  unfold note
  rw [hpc]

/-- **Every step that meets the condition keeps the discipline.** -/
theorem History.Kept.step (hk : h.Kept) (ho : InitOk h e) (hs : (history A).step h e = some h') :
    h'.Kept := by
  obtain ⟨t, ht, rfl⟩ := history_step hs
  intro hi
  change t.initialized = true at hi
  show t.Provided ∧ Disciplined (h.notes ++ note h.system e t)
  rcases RealTimeSystem.call_or_moves ht with ⟨r, hpc, ht⟩ | moves
  · rcases RealTimeSystem.call_initialized ht hi with ⟨a, rfl, rfl⟩ | ⟨l, n, rfl, hi', rfl⟩
    · cases herr : h.system.initError a with
      | none =>
        obtain ⟨hp, -⟩ := RealTimeSystem.initError_none herr
        rw [RealTimeSystem.initialize_succeeds herr, note_init hpc]
        exact ⟨⟨hp.userAppFunc, hp.timer, hp.sender, hp.frequency⟩, disciplined_initialized _⟩
      | some msg =>
        -- the failure would leave `initialized_` set
        rw [RealTimeSystem.initialize_fails herr] at hi
        have hok := RealTimeSystem.initError_ok (hk hi).1 (ho hi)
        rw [herr] at hok
        cases hok
    · obtain ⟨hp, hd⟩ := hk hi'
      refine ⟨⟨hp.userAppFunc, hp.timer, hp.sender, hp.frequency⟩, ?_⟩
      have hn : note h.system (.sendBeforeRun l n)
          { h.system with listOfData := l, timeLimitMs := n, pc := .beforeSend } = [] := by
        unfold note
        rw [hpc]
        exact if_pos rfl
      rw [hn, List.append_nil]
      exact hd
  · obtain ⟨hi', hn⟩ := moves.initialized hi
    obtain ⟨h1, h2, h3, -, -, h4⟩ := moves.settings
    obtain ⟨hp, hd⟩ := hk hi'
    refine ⟨⟨h3 ▸ hp.userAppFunc, h1 ▸ hp.timer, h2 ▸ hp.sender, h4 ▸ hp.frequency⟩, ?_⟩
    rcases hn with hn | hn
    · rw [hn, List.append_nil]
      exact hd
    · rw [hn]
      exact hd.append

/-- a public call that gets past its check finds `initialized_` set -/
theorem initialized_of_passed (he : e = .run ∨ ∃ l n, e = .sendBeforeRun l n)
    (hs : s.step A e = some t) (ht : t.pc = .startTimer ∨ t.pc = .beforeSend) :
    s.initialized = true := by
  rcases RealTimeSystem.call_or_moves hs with ⟨r, hpc, hs⟩ | moves
  · by_contra hi
    have hfail : ∃ msg, t = s.fail msg (.idle (some false)) := by
      rcases he with rfl | ⟨l, n, rfl⟩
      · change some (if s.initialized then _ else _) = some t at hs
        rw [if_neg hi] at hs
        exact ⟨_, (Option.some.inj hs).symm⟩
      · change some (if s.initialized then _ else _) = some t at hs
        rw [if_neg hi] at hs
        exact ⟨_, (Option.some.inj hs).symm⟩
    obtain ⟨msg, rfl⟩ := hfail
    rcases ht with ht | ht <;> cases ht
  · rcases he with rfl | ⟨l, n, rfl⟩ <;> cases moves

theorem History.Kept.guarded (hk : h.Kept) : Guarded A h := fun _ _ he hs ht =>
  (hk (initialized_of_passed he hs ht)).2

/-- an `initialize` that fails under an earlier success opens the way to a `run` -/
theorem not_guarded_failed {a : SystemAnswers} (hi : h.system.initialized = true) (ha : ¬ a.Ok)
    (hs : (history A).step h (.callInitialize a) = some h') : ¬ Guarded A h' := by
  obtain ⟨t, ht, rfl⟩ := history_step hs
  rcases RealTimeSystem.call_or_moves ht with ⟨r, hpc, ht⟩ | moves
  · have ht' : t = h.system.initializeSystem A a := (Option.some.inj ht).symm
    cases herr : h.system.initError a with
    | none => exact absurd (RealTimeSystem.initError_none herr).2 ha
    | some msg =>
      rw [RealTimeSystem.initialize_fails herr] at ht'
      subst ht'
      rw [note_init hpc]
      intro hg
      refine not_disciplined_failed h.notes (hg .run { h.system.fail msg (.idle (some false)) with
        initialized := false, pc := .startTimer } (.inl rfl) ?_ (.inl rfl))
      show some (if h.system.initialized then _ else _) = _
      rw [hi]
      rfl
  · cases moves

end

/-- **The initialisation discipline.**  It holds all along a history of public calls if and only if
no `initialize` fails while an earlier success is in force. -/
theorem guarded_iff {A : FastInts} {es : List SystemEvent} {t : History}
    (hr : (history A).run {} es = some t) :
    (∀ es₁ es₂ h, es = es₁ ++ es₂ → (history A).run {} es₁ = some h → Guarded A h) ↔
      ∀ es₁ a es₂ h, es = es₁ ++ .callInitialize a :: es₂ → (history A).run {} es₁ = some h →
        h.system.initialized = true → a.Ok := by
  constructor
  · intro hg es₁ a es₂ h hes hh hi
    by_contra ha
    rw [hes] at hr
    obtain ⟨v, h', hv, hs, -⟩ := Machine.run_cut hr
    cases hh.symm.trans hv
    have hh' := Machine.run_snoc hh hs
    refine not_guarded_failed hi ha hs (hg (es₁ ++ [.callInitialize a]) es₂ h' ?_ hh')
    rw [hes, List.append_assoc]
    rfl
  · intro hok es₁ es₂ h hes hh
    have hruns : (history A).Runs InitOk {} es₁ h := by
      refine Machine.Runs.of_splits hh fun l e l' v hl hv => ?_
      cases e with
      | callInitialize a =>
        refine hok l a (l' ++ es₂) v ?_ hv
        rw [hes, hl, List.append_assoc]
        rfl
      | _ => trivial
    exact (hruns.keeps History.Kept nofun fun _ _ _ hv ho hs => hv.step ho hs).guarded

/-- the four settings -/
def provide : List SystemEvent := [.setTimer 1, .setSender 2, .setUserDataFn 3, .setFrequency 30]

def answersOk : SystemAnswers := ⟨none, none, none, none⟩

/-- the sender's port is in use -/
def answersSender : SystemAnswers := { answersOk with senderInitialize := some "port in use" }

/-- two successes of `initialize`, then a `run` -/
theorem guarded_iff_twice :
    ∃ t, (history FastInts.lp64).run {}
        (provide ++ [.callInitialize answersOk, .callInitialize answersOk, .run]) = some t ∧
      t.system.pc = .startTimer ∧
      ∀ es₁ es₂ h,
        provide ++ [.callInitialize answersOk, .callInitialize answersOk, .run] = es₁ ++ es₂ →
        (history FastInts.lp64).run {} es₁ = some h → Guarded FastInts.lp64 h := by
  have hrun : ((history FastInts.lp64).run {}
      (provide ++ [.callInitialize answersOk, .callInitialize answersOk, .run])).map
        (fun t => t.system.pc) = some .startTimer := by decide
  obtain ⟨t, ht, hpc⟩ := Option.map_eq_some_iff.mp hrun
  refine ⟨t, ht, hpc, (guarded_iff ht).mpr ?_⟩
  intro es₁ a es₂ h hes _ _
  have hmem : SystemEvent.callInitialize a ∈
      provide ++ [.callInitialize answersOk, .callInitialize answersOk, .run] := by
    rw [hes]
    exact List.mem_append_right _ List.mem_cons_self
  have ha : a = answersOk := by simpa [provide] using hmem
  rw [ha]
  exact ⟨rfl, rfl, rfl, rfl⟩

/-- a second `initialize` fails after a first success, and `run` still gets past its check -/
theorem run_after_failed_initialize :
    ∃ h t, (history FastInts.lp64).run {}
        (provide ++ [.callInitialize answersOk, .callInitialize answersSender]) = some h ∧
      h.system.step FastInts.lp64 .run = some t ∧ t.pc = .startTimer ∧ ¬ Disciplined h.notes := by
  have hrun : ((history FastInts.lp64).run {}
      (provide ++ [.callInitialize answersOk, .callInitialize answersSender])).map
        (fun h => h.notes)
        = some (List.replicate 4 .setter ++ [.initialized true, .initialized false]) := by decide
  have hpast : ((history FastInts.lp64).run {}
      (provide ++ [.callInitialize answersOk, .callInitialize answersSender])).bind
        (fun h => (h.system.step FastInts.lp64 .run).map fun t => t.pc) = some .startTimer := by
    decide
  obtain ⟨h, hh, hn⟩ := Option.map_eq_some_iff.mp hrun
  rw [hh] at hpast
  obtain ⟨t, ht, hpc⟩ := Option.map_eq_some_iff.mp hpast
  refine ⟨h, t, hh, ht, hpc, ?_⟩
  rw [hn]
  exact not_disciplined_failed (List.replicate 4 .setter ++ [.initialized true])

end RealTimeTransfer
