import RealTimeTransfer.Systems.Discipline
import RealTimeTransfer.Systems.RunTrace
import RealTimeTransfer.Timers.Contract

/-!
# The effective tolerance

`initialize` cuts `ms_tolerance_` down to `1000/frequency_ - 5`, in the field that held the request.
`Configured` is the object with an observer's notes of what was asked for and of the frequencies
initialised with since.

* `UsesTimer k`       the timer answers `set_frequency` as the class `k` does;
* `Ready`             the settings of an object that is initialised, or inside a call;
* `Configured.Noted`    the tolerance is the least of the request and of every limit since;
* `tolerance_iff`     it is that of the last initialisation alone if and only if no earlier limit is
                      below it;
* `tolerance_lost`    an object that has once been initialised with a higher frequency.
-/

namespace RealTimeTransfer
open Machines Words

/-- the tolerance that the frequency `f` leaves room for, in ms -/
def margin (f : Nat) : Nat := 1000 / f - 5

/-- the answer of the timer in `initialize` is that of a timer of the class `k` -/
def UsesTimer (k : TimerClass) (s : RealTimeSystem) : SystemEvent → Prop
  | .callInitialize a => ∀ t x, k.setFrequency s.frequency t = some x →
      (a.timerSetFrequency = none ↔ x.1 = true)
  | _ => True

theorem usesTimer_iff {k : TimerClass} {s : RealTimeSystem} {a : SystemAnswers} :
    UsesTimer k s (.callInitialize a) ↔
      s.frequency = 0 ∨ (a.timerSetFrequency = none ↔ s.frequency ≤ timerMaxFrequency) := by
  show (∀ t x, k.setFrequency s.frequency t = some x → _) ↔ _
  rw [k.setFrequency_eq]
  constructor
  · intro h
    rcases Timer.setFrequency_cases s.frequency newBusyWaitTimer
      with ⟨hf, hx⟩ | ⟨hf, -⟩ | ⟨-, hf, hx⟩
    · exact .inr ((h _ _ hx).trans ⟨nofun, fun hle => absurd hf (Nat.not_lt.mpr hle)⟩)
    · exact .inl hf
    · exact .inr ((h _ _ hx).trans ⟨fun _ => hf, fun _ => rfl⟩)
  · intro h t x hx
    rcases Timer.setFrequency_cases s.frequency t with ⟨hf, hx'⟩ | ⟨-, hx'⟩ | ⟨h1, hf, hx'⟩
    · cases hx.symm.trans hx'
      exact (h.resolve_left (Nat.ne_of_gt (Nat.zero_lt_of_lt hf))).trans
        ⟨fun hle => absurd hf (Nat.not_lt.mpr hle), nofun⟩
    · cases hx.symm.trans hx'
    · cases hx.symm.trans hx'
      exact (h.resolve_left (Nat.ne_of_gt h1)).trans ⟨fun _ => rfl, fun _ => hf⟩

instance (k : TimerClass) (s : RealTimeSystem) (e : SystemEvent) : Decidable (UsesTimer k s e) :=
  match e with
  | .callInitialize _ => decidable_of_iff _ usesTimer_iff.symm
  | .setTimer _ | .setSender _ | .setUserDataFn _ | .setFrequency _ | .setMsTolerance _
  | .skipMode _ | .sendBeforeRun _ _ | .run | .tau | .sleepMs _ | .sleepUs _ | .startTimer _
  | .isSendDone _ | .userCall _ | .send _ _ | .tick _ | .endSender => .isTrue trivial

/-- the settings that `initialize` leaves behind when it returns true -/
structure RealTimeSystem.Ready (s : RealTimeSystem) : Prop where
  pos : 1 ≤ s.frequency
  le : s.frequency ≤ timerMaxFrequency
  tolerance : s.msTolerance ≤ margin s.frequency

/-- an initialised object is ready, and so is one inside a call -/
def RealTimeSystem.Settled (s : RealTimeSystem) : Prop :=
  s.initialized = true ∨ s.pc.isIdle = false → s.Ready

section
variable {k : TimerClass} {A : FastInts} {s t : RealTimeSystem} {e : SystemEvent}
  {a : SystemAnswers} {f : Nat}

theorem toleranceLimit_eq (hf : 1 ≤ f) (hf' : f ≤ timerMaxFrequency) :
    RealTimeSystem.toleranceLimit A f = margin f := by
  have h1 : 10 ≤ 1000 / f := (Nat.le_div_iff_mul_le hf).mpr (by change f ≤ 100 at hf'; omega)
  have h2 : 1000 / f ≤ 1000 := Nat.div_le_self 1000 f
  unfold RealTimeSystem.toleranceLimit margin
  have h3 : ((1000 / f : Nat) : Int) - 5 = ((1000 / f - 5 : Nat) : Int) := by omega
  rw [h3]
  exact toU_of_lt (A.lt16 (by omega))

/-- an `initialize` that succeeds had a timer that took the frequency -/
theorem frequency_of_initialized (ha : UsesTimer k s (.callInitialize a))
    (herr : s.initError a = none) : 1 ≤ s.frequency ∧ s.frequency ≤ timerMaxFrequency := by
  obtain ⟨hp, hok⟩ := RealTimeSystem.initError_none herr
  have hpos : 1 ≤ s.frequency := Nat.pos_of_ne_zero hp.frequency
  refine ⟨hpos, ?_⟩
  by_contra hle
  rcases Timer.setFrequency_cases s.frequency newBusyWaitTimer with ⟨-, h⟩ | ⟨h0, -⟩ | ⟨-, h1, -⟩
  · rw [← k.setFrequency_eq] at h
    exact absurd ((ha _ _ h).mp hok.2.2.1) nofun
  · exact hp.frequency h0
  · exact hle h1

/-! ## The settings -/

/-- a call that changes a setting or clamps one -/
def SystemEvent.adjusts : SystemEvent → Bool
  | .setFrequency _ | .setMsTolerance _ | .callInitialize _ => true
  | _ => false

/-- what a step does to the frequency and to the tolerance -/
inductive RealTimeSystem.Adjusts (A : FastInts) (s : RealTimeSystem) :
    SystemEvent → RealTimeSystem → Prop where
  | frequency (f : Nat) {t : RealTimeSystem} : t.initialized = false → t.pc.isIdle = true →
      t.frequency = f → t.msTolerance = s.msTolerance → Adjusts A s (.setFrequency f) t
  | tolerance (n : Nat) {t : RealTimeSystem} : t.initialized = false → t.pc.isIdle = true →
      t.frequency = s.frequency → t.msTolerance = n → Adjusts A s (.setMsTolerance n) t
  | initialized (a : SystemAnswers) {t : RealTimeSystem} : s.initError a = none →
      t.pc = .idle (some true) → t.frequency = s.frequency →
      t.msTolerance = min s.msTolerance (toleranceLimit A s.frequency) →
      Adjusts A s (.callInitialize a) t
  | failed (a : SystemAnswers) {t : RealTimeSystem} : t.pc = .idle (some false) →
      t.initialized = s.initialized → t.frequency = s.frequency → t.msTolerance = s.msTolerance →
      Adjusts A s (.callInitialize a) t
  | other {e : SystemEvent} {t : RealTimeSystem} : e.adjusts = false →
      (t.initialized = true ∨ t.pc.isIdle = false → s.initialized = true ∨ s.pc.isIdle = false) →
      t.frequency = s.frequency → t.msTolerance = s.msTolerance → Adjusts A s e t

theorem RealTimeSystem.setPointer_adjusts {s' : RealTimeSystem} (p : Ptr) (msg : String)
    (he : e.adjusts = false) (hf : s'.frequency = s.frequency)
    (hm : s'.msTolerance = s.msTolerance) : s.Adjusts A e (s.setPointer s' p msg) := by
  unfold RealTimeSystem.setPointer
  by_cases hp : p = 0
  · rw [if_pos hp]
    exact .other he (fun h => absurd h (by rintro (h | h) <;> cases h)) rfl rfl
  · rw [if_neg hp]
    exact .other he (fun h => absurd h (by rintro (h | h) <;> cases h)) hf hm

theorem RealTimeSystem.guarded_adjusts {s' : RealTimeSystem} (msg : String) (he : e.adjusts = false)
    (hf : s'.frequency = s.frequency) (hm : s'.msTolerance = s.msTolerance) :
    s.Adjusts A e (if s.initialized then s' else s.fail msg (.idle (some false))) := by
  by_cases hi : s.initialized = true
  · rw [if_pos hi]
    exact .other he (fun _ => .inl hi) hf hm
  · rw [if_neg hi]
    exact .other he (fun h => .inl (h.resolve_right nofun)) rfl rfl

/-- **Every step is one of these.** -/
theorem RealTimeSystem.step_adjusts (hs : s.step A e = some t) : s.Adjusts A e t := by
  rcases RealTimeSystem.call_or_moves hs with ⟨r, hpc, hcall⟩ | moves
  · clear hs
    unfold RealTimeSystem.call at hcall
    split at hcall
    case h_1 | h_2 | h_3 => cases hcall; exact setPointer_adjusts _ _ rfl rfl rfl
    case h_4 => cases hcall; exact .frequency _ rfl rfl rfl rfl
    case h_5 => cases hcall; exact .tolerance _ rfl rfl rfl rfl
    case h_6 => cases hcall; exact .other rfl (by rintro (h | h) <;> cases h) rfl rfl
    case h_7 a =>
      cases hcall
      cases herr : s.initError a with
      | none =>
        rw [RealTimeSystem.initialize_succeeds herr]
        exact .initialized a herr rfl rfl rfl
      | some msg =>
        rw [RealTimeSystem.initialize_fails herr]
        exact .failed a rfl rfl rfl rfl
    case h_8 | h_9 => cases hcall; exact guarded_adjusts _ rfl rfl rfl
    case h_10 => cases hcall
  · obtain ⟨-, -, -, -, hm, hf⟩ := moves.settings
    exact .other (by cases moves <;> rfl) (fun _ => .inr moves.inside) hf hm

/-- **Every step keeps the settings of an initialised object.** -/
theorem RealTimeSystem.Settled.step (h : s.Settled) (ho : UsesTimer k s e)
    (hs : s.step A e = some t) : t.Settled := by
  intro ht
  cases RealTimeSystem.step_adjusts hs with
  | frequency f hi hp | tolerance n hi hp =>
    rcases ht with ht | ht
    · exact absurd (hi.symm.trans ht) nofun
    · exact absurd (hp.symm.trans ht) nofun
  | initialized a herr _ hf hm =>
    obtain ⟨h1, h2⟩ := frequency_of_initialized ho herr
    refine ⟨hf ▸ h1, hf ▸ h2, ?_⟩
    rw [hm, hf, toleranceLimit_eq h1 h2]
    exact min_le_right _ _
  | failed a hp hi hf hm =>
    have hs' : s.Ready := by
      refine h (.inl ?_)
      rcases ht with ht | ht
      · exact hi.symm.trans ht
      · rw [hp] at ht
        cases ht
    exact ⟨hf ▸ hs'.pos, hf ▸ hs'.le, hm ▸ hf ▸ hs'.tolerance⟩
  | other _ hi hf hm =>
    have hs' : s.Ready := h (hi ht)
    exact ⟨hf ▸ hs'.pos, hf ▸ hs'.le, hm ▸ hf ▸ hs'.tolerance⟩

theorem RealTimeSystem.settled_start : RealTimeSystem.Settled {} := by
  rintro (h | h) <;> cases h

/-- **The settings of an initialised object, in every reachable state.** -/
theorem settled_of_runs {es : List SystemEvent} (hr : (system A).Runs (UsesTimer k) {} es s) :
    s.Settled :=
  hr.keeps RealTimeSystem.Settled RealTimeSystem.settled_start fun _ _ _ hv ho hs => hv.step ho hs

theorem margin_le (f : Nat) : margin f ≤ 1000 :=
  (Nat.sub_le _ _).trans (Nat.div_le_self 1000 f)

theorem RealTimeSystem.Settled.tolerance_le (h : s.Settled) (hpc : ∀ r, s.pc ≠ .idle r) :
    s.Ready ∧ s.msTolerance ≤ 1000 := by
  have ready : s.Ready := by
    refine h (.inr ?_)
    cases hp : s.pc with
    | idle r => exact absurd hp (hpc r)
    | _ => rfl
  exact ⟨ready, ready.tolerance.trans (margin_le _)⟩

end

/-! ## The notes -/

/-- the object, the arguments of the last `set_ms_tolerance` and `set_frequency`, and the
frequencies of the initialisations that succeeded since that `set_ms_tolerance` -/
structure Configured where
  system : RealTimeSystem := {}
  requested : Nat := 0
  asked : Nat := 0
  earlier : List Nat := []

/-- the notes on a step that leaves `t` -/
def Configured.noted (c : Configured) (e : SystemEvent) (t : RealTimeSystem) : Configured :=
  match e with
  | .setMsTolerance n => ⟨t, n, c.asked, []⟩
  | .setFrequency f => ⟨t, c.requested, f, c.earlier⟩
  | .callInitialize _ =>
    if t.pc = .idle (some true) then ⟨t, c.requested, c.asked, c.earlier ++ [c.asked]⟩
    else { c with system := t }
  | _ => { c with system := t }

def configured (A : FastInts) : Machine Configured SystemEvent where
  step c e := (c.system.step A e).map (c.noted e)

/-- the fields hold what the notes say -/
structure Configured.Noted (c : Configured) : Prop where
  settled : c.system.Settled
  frequency : c.system.frequency = c.asked
  tolerance : c.system.msTolerance = (c.earlier.map margin).foldl min c.requested

section
variable {k : TimerClass} {A : FastInts} {t : RealTimeSystem} {e : SystemEvent}
  {a : SystemAnswers} {c c' : Configured}

theorem Configured.noted_system (c : Configured) (e : SystemEvent) (t : RealTimeSystem) :
    (c.noted e t).system = t := by
  cases e with
  | callInitialize a =>
    unfold Configured.noted
    by_cases hp : t.pc = .idle (some true)
    · rw [if_pos hp]
    · rw [if_neg hp]
  | _ => rfl

theorem Configured.noted_other (he : e.adjusts = false) (c : Configured) (t : RealTimeSystem) :
    c.noted e t = { c with system := t } := by
  cases e <;> first | rfl | cases he

/-- **Every step keeps the notes true.** -/
theorem Configured.Noted.step (h : c.Noted) (ho : UsesTimer k c.system e)
    (hs : (configured A).step c e = some c') : c'.Noted := by
  obtain ⟨t, ht, rfl⟩ := Option.map_eq_some_iff.mp hs
  have hset := h.settled.step ho ht
  cases RealTimeSystem.step_adjusts ht with
  | frequency f _ _ hf hm => exact ⟨hset, hf, hm.trans h.tolerance⟩
  | tolerance n _ _ hf hm => exact ⟨hset, hf.trans h.frequency, hm⟩
  | initialized a herr hp hf hm =>
    obtain ⟨h1, h2⟩ := frequency_of_initialized ho herr
    unfold Configured.noted
    rw [if_pos hp]
    refine ⟨hset, hf.trans h.frequency, ?_⟩
    show t.msTolerance = ((c.earlier ++ [c.asked]).map margin).foldl min c.requested
    rw [hm, toleranceLimit_eq h1 h2, List.map_append, List.foldl_append, ← h.tolerance, h.frequency]
    rfl
  | failed a hp _ hf hm =>
    unfold Configured.noted
    rw [if_neg (by rw [hp]; nofun)]
    exact ⟨hset, hf.trans h.frequency, hm.trans h.tolerance⟩
  | other he _ hf hm =>
    rw [Configured.noted_other he]
    exact ⟨hset, hf.trans h.frequency, hm.trans h.tolerance⟩

theorem noted_of_runs {es : List SystemEvent}
    (hr : (configured A).Runs (fun c e => UsesTimer k c.system e) {} es c) : c.Noted :=
  hr.keeps Configured.Noted ⟨RealTimeSystem.settled_start, rfl, rfl⟩ fun _ _ _ hv ho hs =>
    hv.step ho hs

/-- the least of a request and of some limits stays above `x` if they all do -/
theorem le_foldl_min_iff {T x : Nat} {l : List Nat} :
    x ≤ l.foldl min T ↔ x ≤ T ∧ ∀ y ∈ l, x ≤ y := by
  have h : (T :: l).min? = some (l.foldl min T) := rfl
  rw [List.le_min?_iff h, List.forall_mem_cons]

/-- **The effective tolerance.**  Behind an `initialize` that returns true `ms_tolerance_` is the
request, cut to what the frequency leaves room for, if and only if no initialisation since that
request had less room. -/
theorem tolerance_iff {es : List SystemEvent}
    (hr : (configured A).Runs (fun c e => UsesTimer k c.system e) {} es c)
    (ha : UsesTimer k c.system (.callInitialize a))
    (hs : (configured A).step c (.callInitialize a) = some c')
    (hret : c'.system.pc = .idle (some true)) :
    c'.system.msTolerance = min c.requested (1000 / c.asked - 5) ↔
      ∀ g ∈ c.earlier, min c.requested (1000 / c.asked - 5) ≤ 1000 / g - 5 := by
  have noted := noted_of_runs hr
  obtain ⟨t, ht, rfl⟩ := Option.map_eq_some_iff.mp hs
  rw [Configured.noted_system] at hret ⊢
  cases RealTimeSystem.step_adjusts ht with
  | failed _ hp => cases hp.symm.trans hret
  | other he => cases he
  | initialized _ herr _ _ hm =>
    obtain ⟨h1, h2⟩ := frequency_of_initialized ha herr
    rw [hm, toleranceLimit_eq h1 h2, noted.frequency, noted.tolerance]
    change min _ (margin c.asked) = min c.requested (margin c.asked) ↔
      ∀ g ∈ c.earlier, min c.requested (margin c.asked) ≤ margin g
    generalize hF : (c.earlier.map margin).foldl min c.requested = F
    have hle : F ≤ c.requested := by
      rw [← hF]
      exact (le_foldl_min_iff.mp le_rfl).1
    constructor
    · intro heq g hg
      have hmin : min c.requested (margin c.asked) ≤ F := heq ▸ min_le_left _ _
      rw [← hF] at hmin
      exact (le_foldl_min_iff.mp hmin).2 _ (List.mem_map_of_mem hg)
    · intro h
      refine le_antisymm (min_le_min_right _ hle) (le_min ?_ (min_le_right _ _))
      rw [← hF]
      refine le_foldl_min_iff.mpr ⟨min_le_left _ _, fun y hy => ?_⟩
      obtain ⟨g, hg, rfl⟩ := List.mem_map.mp hy
      exact h g hg

end

/-! ## Two histories -/

/-- the pointers and a tolerance of 100 ms -/
def request : List SystemEvent := [.setTimer 1, .setSender 2, .setUserDataFn 3, .setMsTolerance 100]

/-- from 5 Hz to 4 Hz, with the whole request both times -/
theorem tolerance_iff_lower :
    ∃ c c', (configured FastInts.lp64).run {}
        (request ++ [.setFrequency 5, .callInitialize answersOk, .setFrequency 4]) = some c ∧
      (configured FastInts.lp64).step c (.callInitialize answersOk) = some c' ∧
      c'.system.msTolerance = min 100 (1000 / 4 - 5) := by
  have hrun : (((configured FastInts.lp64).restrict fun c e =>
        UsesTimer .freeWait c.system e).run {}
      (request ++ [.setFrequency 5, .callInitialize answersOk, .setFrequency 4])).bind (fun c =>
        ((configured FastInts.lp64).step c (.callInitialize answersOk)).map fun c' =>
          (c.requested, c.asked, c.earlier, c.system.frequency, c'.system.pc))
      = some (100, 4, [5], 4, .idle (some true)) := by decide
  obtain ⟨c, hc, hrest⟩ := Option.bind_eq_some_iff.mp hrun
  obtain ⟨c', hc', he⟩ := Option.map_eq_some_iff.mp hrest
  obtain ⟨h1, h2, h3, h4, h5⟩ : c.requested = 100 ∧ c.asked = 4 ∧ c.earlier = [5] ∧
      c.system.frequency = 4 ∧ c'.system.pc = .idle (some true) := by simpa using he
  have hruns := Machine.Runs.of_restrict hc
  refine ⟨c, c', hruns.run_eq, hc', ?_⟩
  have hiff := tolerance_iff hruns (usesTimer_iff.mpr (.inr (by rw [h4]; decide))) hc' h5
  rw [h1, h2, h3] at hiff
  exact hiff.mpr (by decide)

/-- once initialised at 50 Hz, the object has 15 ms at 5 Hz as well -/
theorem tolerance_lost :
    ∃ c, (configured FastInts.lp64).Runs (fun c e => UsesTimer .freeWait c.system e) {}
        (request ++ [.setFrequency 50, .callInitialize answersOk, .setFrequency 5,
          .callInitialize answersOk]) c ∧
      c.system.pc = .idle (some true) ∧ c.requested = 100 ∧ c.asked = 5 ∧
      c.system.msTolerance = 15 ∧ c.system.msTolerance ≠ min 100 (1000 / 5 - 5) := by
  have hrun : (((configured FastInts.lp64).restrict fun c e =>
        UsesTimer .freeWait c.system e).run {}
      (request ++ [.setFrequency 50, .callInitialize answersOk, .setFrequency 5,
        .callInitialize answersOk])).map
        (fun c => (c.system.pc, c.requested, c.asked, c.system.msTolerance))
      = some (.idle (some true), 100, 5, 15) := by decide
  obtain ⟨c, hc, he⟩ := Option.map_eq_some_iff.mp hrun
  obtain ⟨h1, h2, h3, h4⟩ : c.system.pc = .idle (some true) ∧ c.requested = 100 ∧ c.asked = 5 ∧
      c.system.msTolerance = 15 := by simpa using he
  exact ⟨c, Machine.Runs.of_restrict hc, h1, h2, h3, h4, by rw [h4]; decide⟩

end RealTimeTransfer
