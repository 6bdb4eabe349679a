import RealTimeTransfer.Systems.RealTimeSystem
import Mathlib.Data.List.DropRight

/-!
# The trace of a run

The events of `run` between the start of the timer and the return, as an observer of the timer, the
sender and the user function sees them.

* `Turn`         what one step of the loop does to the trace, to the counters and to the point;
* `AfterCall`    what lies between the last user call and the present point;
* `Counters`     the sequence number and the skip counter, in the user calls so far;
* `RunLaws`      the laws of a trace;
* `run_trace`    every run obeys them.
-/

namespace RealTimeTransfer
open Machines Words

namespace SystemEvent

def asCall : SystemEvent → Option UserCall
  | .userCall c => some c
  | _ => none

def asSend : SystemEvent → Option DataPacketsList
  | .send l _ => some l
  | _ => none

def isTick : SystemEvent → Bool
  | .tick _ => true
  | _ => false

end SystemEvent

/-- the user calls of a trace, in their order -/
def calls (es : List SystemEvent) : List UserCall := es.filterMap SystemEvent.asCall

/-- the lists given to `send` -/
def sends (es : List SystemEvent) : List DataPacketsList := es.filterMap SystemEvent.asSend

/-- the calls of `sleep_to_next_tick`, with their results -/
def ticks (es : List SystemEvent) : List SystemEvent := es.filter SystemEvent.isTick

/-- `is_skipped_data` -/
def UserCall.isSkipped (c : UserCall) : Bool := c.info.skipNextData

/-- the number of skipped calls at the end -/
def trailing (l : List UserCall) : Nat := (l.rtakeWhile UserCall.isSkipped).length

section
variable {l : List UserCall} {c : UserCall}

theorem trailing_skipped (hc : c.isSkipped = true) : trailing (l ++ [c]) = trailing l + 1 := by
  unfold trailing
  rw [List.rtakeWhile_concat_pos _ _ _ hc, List.length_append]
  rfl

theorem trailing_normal (hc : c.isSkipped = false) : trailing (l ++ [c]) = 0 := by
  unfold trailing
  rw [List.rtakeWhile_concat_neg _ _ _ (by rw [hc]; nofun)]
  rfl

theorem trailing_append {m : List UserCall} (hm : ∀ c ∈ m, c.isSkipped = true) :
    trailing (l ++ m) = trailing l + m.length := by
  induction m using List.reverseRecOn with
  | nil => rw [List.append_nil]; rfl
  | append_singleton m c ih =>
    have hc := hm c (by simp)
    have hm' : ∀ c ∈ m, c.isSkipped = true := fun c hc => hm c (List.mem_append_left _ hc)
    rw [← List.append_assoc, trailing_skipped hc, ih hm', List.length_append]
    rfl

/-- at least `n` skipped calls at the end: the last `n` calls were all skipped -/
theorem le_trailing_iff (n : Nat) :
    n ≤ trailing l ↔ n ≤ l.length ∧ ∀ c ∈ l.drop (l.length - n), c.isSkipped = true := by
  constructor
  · intro hn
    have hl : l.rdropWhile UserCall.isSkipped ++ l.rtakeWhile UserCall.isSkipped = l :=
      List.rdropWhile_append_rtakeWhile
    have hlen := congrArg List.length hl
    rw [List.length_append] at hlen
    change (l.rdropWhile UserCall.isSkipped).length + trailing l = l.length at hlen
    refine ⟨by omega, fun c hc => List.mem_rtakeWhile_imp (l := l) ?_⟩
    have hd : (l.rdropWhile UserCall.isSkipped ++ l.rtakeWhile UserCall.isSkipped).drop
        (l.length - n) = (l.rtakeWhile UserCall.isSkipped).drop
          (l.length - n - (l.rdropWhile UserCall.isSkipped).length) := by
      rw [List.drop_append, List.drop_eq_nil_of_le (by omega), List.nil_append]
    rw [hl] at hd
    rw [hd] at hc
    exact List.mem_of_mem_drop hc
  · rintro ⟨hn, hall⟩
    have h := trailing_append (l := l.take (l.length - n)) hall
    rw [List.take_append_drop, List.length_drop] at h
    omega

end

/-! ## One step of the loop -/

namespace SystemPc

/-- the points of an iteration before its user call -/
def deciding : SystemPc → Bool
  | .toleranceTest | .toleranceSleep | .doneTest | .skipTest | .skipCall | .normalCall => true
  | _ => false

/-- the points of an iteration behind its user call -/
def serving : SystemPc → Bool
  | .skipTick | .send | .tick => true
  | _ => false

/-- the points of the loop and of its exits -/
def inLoop : SystemPc → Bool
  | .loopTop | .ending _ => true
  | pc => pc.deciding || pc.serving

theorem inLoop_iff {pc : SystemPc} : pc.inLoop = true ↔
    (pc = .loopTop ∨ pc.deciding = true ∨ pc.serving = true) ∨ ∃ r, pc = .ending r := by
  cases pc <;> simp [inLoop, deciding, serving]

end SystemPc

/-- a step between two calls of the timer's `sleep_to_next_tick`, the user function and `send` -/
def SystemEvent.quiet (e : SystemEvent) : Bool :=
  e.asCall.isNone && e.asSend.isNone && !e.isTick

/-- the value of `frequency_*3` -/
def RealTimeSystem.limit (A : FastInts) (s : RealTimeSystem) : Nat :=
  toU (RealTimeSystem.wide A) (s.frequency * 3 : Nat)

/-- a step of the loop -/
inductive Turn (A : FastInts) (s : RealTimeSystem) : SystemEvent → RealTimeSystem → Prop where
  | iterated {t : RealTimeSystem} : s.pc = .loopTop → s.skippedCount ≠ s.limit A →
      t.pc = .toleranceTest → t.sequenceNumber = toU A.w32 (s.sequenceNumber + 1 : Nat) →
      t.skippedCount = s.skippedCount → Turn A s .tau t
  | gaveUp {t : RealTimeSystem} : s.pc = .loopTop → s.skippedCount = s.limit A →
      t.pc = .ending false →
      t.errorHandler = s.errorHandler.setError RealTimeSystem.disconnectedText → Turn A s .tau t
  | decided {e : SystemEvent} {t : RealTimeSystem} : s.pc.deciding = true → e.quiet = true →
      t.pc.deciding = true ∨ t.pc = .ending false →
      (t.pc = .skipCall → s.allowSkipMode = true) → t.sequenceNumber = s.sequenceNumber →
      t.skippedCount = s.skippedCount → Turn A s e t
  | called (c : UserCall) {t : RealTimeSystem} : s.pc = .skipCall ∨ s.pc = .normalCall →
      c.info.sequenceNumber = s.sequenceNumber → (c.isSkipped = true ↔ s.pc = .skipCall) →
      t.userPacketsList = c.list →
      t.pc = (if c.stop then .ending true else if c.isSkipped then .skipTick else .send) →
      t.sequenceNumber = s.sequenceNumber →
      (c.stop = false → t.skippedCount =
        if c.isSkipped then toU A.w32 (s.skippedCount + 1 : Nat) else 0) →
      Turn A s (.userCall c) t
  | sent (r : Answer) {t : RealTimeSystem} : s.pc = .send →
      t.pc = (if r = none then .tick else .ending false) → t.sequenceNumber = s.sequenceNumber →
      t.skippedCount = s.skippedCount → Turn A s (.send s.userPacketsList r) t
  | ticked (ok : Bool) {t : RealTimeSystem} : s.pc = .skipTick ∨ s.pc = .tick →
      t.pc = (if ok then .loopTop else .ending false) → t.sequenceNumber = s.sequenceNumber →
      t.skippedCount = s.skippedCount → Turn A s (.tick ok) t
  | ended (r : Bool) {t : RealTimeSystem} : s.pc = .ending r → t.pc = .idle (some r) →
      Turn A s .endSender t

section
variable {A : FastInts} {s t : RealTimeSystem} {e : SystemEvent} {es : List SystemEvent}

theorem RealTimeSystem.Moves.turn (h : s.Moves A e t) (hpc : s.pc.inLoop = true) :
    Turn A s e t := by
  cases h
  case iterated hpc hne => exact .iterated hpc hne rfl rfl rfl
  case disconnected hpc heq => exact .gaveUp hpc heq rfl rfl
  case toleranceOver hpc => exact .decided (by rw [hpc]; rfl) rfl (.inl rfl) nofun rfl rfl
  case tolerated b hpc =>
    refine .decided (by rw [hpc]; rfl) rfl (.inl ?_) ?_ rfl rfl
    · cases b <;> rfl
    · cases b <;> nofun
  case slept n hpc => exact .decided (by rw [hpc]; rfl) rfl (.inl rfl) nofun rfl rfl
  case notSent hpc _ => exact .decided (by rw [hpc]; rfl) rfl (.inr rfl) nofun rfl rfl
  case tested b hpc _ => exact .decided (by rw [hpc]; rfl) rfl (.inl rfl) nofun rfl rfl
  case skipping hpc ha =>
    exact .decided (by rw [hpc]; rfl) rfl (.inl rfl) (fun _ => ha) rfl rfl
  case keeping b hpc _ => exact .decided (by rw [hpc]; rfl) rfl (.inl rfl) nofun rfl rfl
  case skipStopped c hpc hi hc =>
    have hskip : c.isSkipped = true := congrArg RealTimeInfo.skipNextData hi
    refine .called c (.inl hpc) (congrArg RealTimeInfo.sequenceNumber hi)
      ⟨fun _ => hpc, fun _ => hskip⟩
      rfl ?_ rfl ?_
    · rw [if_pos hc]
    · rw [hc]
      nofun
  case skipped c hpc hi hc =>
    have hskip : c.isSkipped = true := congrArg RealTimeInfo.skipNextData hi
    refine .called c (.inl hpc) (congrArg RealTimeInfo.sequenceNumber hi)
      ⟨fun _ => hpc, fun _ => hskip⟩
      rfl ?_ rfl fun _ => ?_
    · rw [if_neg (by rw [hc]; nofun), if_pos hskip]
    · rw [if_pos hskip]
  case called c hpc hi =>
    have hskip : c.isSkipped = false := congrArg RealTimeInfo.skipNextData hi
    refine .called c (.inr hpc) (congrArg RealTimeInfo.sequenceNumber hi) ⟨fun h => ?_, fun h => ?_⟩
      rfl ?_ rfl fun _ => ?_
    · rw [hskip] at h
      cases h
    · rw [hpc] at h
      cases h
    · rw [hskip]
      rfl
    · rw [hskip]
      rfl
  case sent hpc => exact .sent none hpc rfl rfl rfl
  case notAccepted msg hpc => exact .sent (some msg) hpc rfl rfl rfl
  case ticked hpc => exact .ticked true hpc rfl rfl rfl
  case late hpc => exact .ticked false hpc rfl rfl rfl
  case ended r hpc => exact .ended r hpc rfl
  all_goals
    rename_i hpc'
    rw [hpc'] at hpc
    cases hpc

/-! ## After a user call -/

/-- the events `b` lie between the user call `c` and the present state -/
structure AfterCall (c : UserCall) (b : List SystemEvent) (s : RealTimeSystem) : Prop where
  ending : c.stop = true →
    (s.pc = .ending true ∨ s.pc = .idle (some true)) ∧ sends b = [] ∧ ticks b = []
  going : c.stop = false → s.pc ≠ .ending true ∧ s.pc ≠ .idle (some true)
  skipped : c.isSkipped = true → s.pc ≠ .send ∧ sends b = []
  normal : c.isSkipped = false → c.stop = false →
    (s.pc = .send ∧ b = [] ∧ s.userPacketsList = c.list) ∨
      (s.pc ≠ .send ∧ ∃ r b', b = .send c.list r :: b' ∧ sends b' = [])
  serving : s.pc.serving = true → ticks b = []
  again : s.pc.deciding = true ∨ s.pc = .loopTop → ticks b = [.tick true]

section
variable {b b' : List SystemEvent} {c : UserCall}

theorem calls_append : calls (b ++ b') = calls b ++ calls b' := List.filterMap_append

theorem sends_append : sends (b ++ b') = sends b ++ sends b' := List.filterMap_append

theorem ticks_append : ticks (b ++ b') = ticks b ++ ticks b' := List.filter_append ..

theorem calls_of_asCall (he : e.asCall = none) : calls [e] = [] := by
  unfold calls
  rw [List.filterMap_cons_none he]
  rfl

theorem asCall_of_calls (he : calls [e] = []) : e.asCall = none := by
  cases hcall : e.asCall with
  | none => rfl
  | some c =>
    unfold calls at he
    rw [List.filterMap_cons_some hcall] at he
    cases he

theorem sends_quiet (he : e.quiet = true) : sends (b ++ [e]) = sends b := by
  have hs : e.asSend = none := by
    unfold SystemEvent.quiet at he
    simp only [Bool.and_eq_true, Option.isNone_iff_eq_none] at he
    exact he.1.2
  unfold sends
  rw [List.filterMap_append, List.filterMap_cons_none hs]
  exact List.append_nil _

theorem ticks_quiet (he : e.quiet = true) : ticks (b ++ [e]) = ticks b := by
  have ht : ¬ e.isTick = true := by
    unfold SystemEvent.quiet at he
    simp only [Bool.and_eq_true, Bool.not_eq_true'] at he
    rw [he.2]
    nofun
  unfold ticks
  rw [List.filter_append, List.filter_cons_of_neg ht]
  exact List.append_nil _

theorem AfterCall.not_stopped (h : AfterCall c b s)
    (hs : s.pc ≠ .ending true ∧ s.pc ≠ .idle (some true)) : c.stop = false := by
  cases hc : c.stop with
  | false => rfl
  | true =>
    rcases (h.ending hc).1 with hpc | hpc
    · exact absurd hpc hs.1
    · exact absurd hpc hs.2

theorem AfterCall.quiet (h : AfterCall c b s) (he : e.quiet = true)
    (hs : s.pc ≠ .ending true ∧ s.pc ≠ .idle (some true) ∧ s.pc ≠ .send)
    (ht : t.pc ≠ .ending true ∧ t.pc ≠ .idle (some true) ∧ t.pc.serving = false)
    (hagain : t.pc.deciding = true ∨ t.pc = .loopTop → s.pc.deciding = true ∨ s.pc = .loopTop) :
    AfterCall c (b ++ [e]) t := by
  obtain ⟨hs1, hs2, hs3⟩ := hs
  obtain ⟨ht1, ht2, ht3⟩ := ht
  have hsend : t.pc ≠ .send := by
    intro hpc
    rw [hpc] at ht3
    cases ht3
  refine ⟨fun hc => ?_, fun _ => ⟨ht1, ht2⟩, fun hc => ⟨hsend, ?_⟩, fun hk hc => ?_, fun hp => ?_,
    fun hp => ?_⟩
  · exact absurd (hc.symm.trans (h.not_stopped ⟨hs1, hs2⟩)) nofun
  · rw [sends_quiet he]
    exact (h.skipped hc).2
  · rcases h.normal hk hc with ⟨hpc, -, -⟩ | ⟨-, r, b', rfl, hb'⟩
    · exact absurd hpc hs3
    · refine .inr ⟨hsend, r, b' ++ [e], rfl, ?_⟩
      rw [sends_quiet he]
      exact hb'
  · rw [hp] at ht3
    cases ht3
  · rw [ticks_quiet he]
    exact h.again (hagain hp)

theorem SystemPc.not_serving_of_deciding {pc : SystemPc} (h : pc.deciding = true) :
    pc ≠ .ending true ∧ pc ≠ .idle (some true) ∧ pc ≠ .send ∧ pc.serving = false := by
  cases pc <;> first | cases h; done | exact ⟨nofun, nofun, nofun, rfl⟩

/-- **A step of the loop, as long as it is no user call.** -/
theorem AfterCall.turn (h : AfterCall c b s) (ht : Turn A s e t) (he : e.asCall = none) :
    AfterCall c (b ++ [e]) t := by
  cases ht with
  | iterated hpc _ hpc' =>
    refine h.quiet rfl ?_ ?_ fun _ => .inr hpc
    · rw [hpc]
      exact ⟨nofun, nofun, nofun⟩
    · rw [hpc']
      exact ⟨nofun, nofun, rfl⟩
  | gaveUp hpc _ hpc' =>
    refine h.quiet rfl ?_ ?_ fun _ => .inr hpc
    · rw [hpc]
      exact ⟨nofun, nofun, nofun⟩
    · rw [hpc']
      exact ⟨nofun, nofun, rfl⟩
  | decided hpc hq hpc' =>
    obtain ⟨h1, h2, h3, -⟩ := SystemPc.not_serving_of_deciding hpc
    refine h.quiet hq ⟨h1, h2, h3⟩ ?_ fun _ => .inl hpc
    rcases hpc' with hpc' | hpc'
    · obtain ⟨h1, h2, -, h4⟩ := SystemPc.not_serving_of_deciding hpc'
      exact ⟨h1, h2, h4⟩
    · rw [hpc']
      exact ⟨nofun, nofun, rfl⟩
  | called c' => cases he
  | sent r hpc hpc' =>
    have hkept : c.isSkipped = false := by
      cases hk : c.isSkipped with
      | false => rfl
      | true => exact absurd hpc (h.skipped hk).1
    have hgoing : c.stop = false := h.not_stopped (by rw [hpc]; exact ⟨nofun, nofun⟩)
    obtain ⟨rfl, hl⟩ : b = [] ∧ s.userPacketsList = c.list := by
      rcases h.normal hkept hgoing with ⟨-, hb, hl⟩ | ⟨hne, -⟩
      · exact ⟨hb, hl⟩
      · exact absurd hpc hne
    have hafter : t.pc ≠ .ending true ∧ t.pc ≠ .idle (some true) ∧ t.pc ≠ .send ∧
        t.pc.deciding = false ∧ t.pc ≠ .loopTop := by
      rw [hpc']
      cases r <;> exact ⟨nofun, nofun, nofun, rfl, nofun⟩
    obtain ⟨h1, h2, h3, h4, h5⟩ := hafter
    rw [hl]
    refine ⟨fun hc => ?_, fun _ => ⟨h1, h2⟩, fun hk => ?_, fun _ _ => .inr ⟨h3, r, [], rfl, rfl⟩,
      fun _ => rfl, ?_⟩
    · exact absurd (hc.symm.trans hgoing) nofun
    · exact absurd (hk.symm.trans hkept) nofun
    · rintro (hp | hp)
      · exact absurd (hp.symm.trans h4) nofun
      · exact absurd hp h5
  | ticked ok hpc hpc' =>
    have hserving : s.pc.serving = true ∧ s.pc ≠ .send ∧ s.pc ≠ .ending true ∧
        s.pc ≠ .idle (some true) := by
      rcases hpc with hpc | hpc <;> rw [hpc] <;> exact ⟨rfl, nofun, nofun, nofun⟩
    obtain ⟨hs1, hs2, hs3, hs4⟩ := hserving
    have hgoing : c.stop = false := h.not_stopped ⟨hs3, hs4⟩
    have hafter : t.pc ≠ .ending true ∧ t.pc ≠ .idle (some true) ∧ t.pc ≠ .send ∧
        t.pc.serving = false := by
      rw [hpc']
      cases ok <;> exact ⟨nofun, nofun, nofun, rfl⟩
    obtain ⟨h1, h2, h3, h4⟩ := hafter
    have hsend : sends (b ++ [.tick ok]) = sends b := by
      rw [sends_append]
      exact List.append_nil _
    refine ⟨fun hc => ?_, fun _ => ⟨h1, h2⟩, fun hk => ⟨h3, ?_⟩, fun hk hc => .inr ⟨h3, ?_⟩,
      fun hp => ?_, fun hp => ?_⟩
    · exact absurd (hc.symm.trans hgoing) nofun
    · rw [hsend]
      exact (h.skipped hk).2
    · rcases h.normal hk hc with ⟨hp, -, -⟩ | ⟨-, r, b', rfl, hb'⟩
      · exact absurd hp hs2
      · refine ⟨r, b' ++ [.tick ok], rfl, ?_⟩
        rw [sends_append, hb']
        rfl
    · exact absurd (hp.symm.trans h4) nofun
    · rw [ticks_append, h.serving hs1]
      cases ok with
      | true => rfl
      | false =>
        rw [hpc'] at hp
        rcases hp with hp | hp <;> cases hp
  | ended r hpc hpc' =>
    cases r with
    | false =>
      refine h.quiet rfl ?_ ?_ ?_
      · rw [hpc]
        exact ⟨nofun, nofun, nofun⟩
      · rw [hpc']
        exact ⟨nofun, nofun, rfl⟩
      · rw [hpc']
        nofun
    | true =>
      have hstop : c.stop = true := by
        cases hc : c.stop with
        | true => rfl
        | false => exact absurd hpc (h.going hc).1
      obtain ⟨-, hsend, htick⟩ := h.ending hstop
      refine ⟨fun _ => ⟨.inr hpc', ?_, ?_⟩, fun hc => ?_, fun _ => ⟨?_, ?_⟩, fun _ hc => ?_,
        fun hp => ?_, fun hp => ?_⟩
      · rw [sends_quiet rfl, hsend]
      · rw [ticks_quiet rfl, htick]
      · exact absurd (hstop.symm.trans hc) nofun
      · rw [hpc']
        nofun
      · rw [sends_quiet rfl, hsend]
      · exact absurd (hstop.symm.trans hc) nofun
      · rw [hpc'] at hp
        cases hp
      · rw [hpc'] at hp
        rcases hp with hp | hp <;> cases hp

theorem AfterCall.called (ht : Turn A s (.userCall c) t) : AfterCall c [] t := by
  cases ht with
  | decided _ hq => cases hq
  | called _ _ _ _ hl hpc' =>
    cases hc : c.stop with
    | true =>
      rw [hc, if_pos rfl] at hpc'
      refine ⟨fun _ => ⟨.inl hpc', rfl, rfl⟩, fun h => ?_, fun _ => ⟨?_, rfl⟩, fun _ h => ?_,
        fun hp => ?_, fun hp => ?_⟩
      · exact absurd (hc.symm.trans h) nofun
      · rw [hpc']
        nofun
      · exact absurd (hc.symm.trans h) nofun
      · rw [hpc'] at hp
        cases hp
      · rw [hpc'] at hp
        rcases hp with hp | hp <;> cases hp
    | false =>
      rw [hc, if_neg nofun] at hpc'
      have hafter : t.pc ≠ .ending true ∧ t.pc ≠ .idle (some true) ∧ t.pc.deciding = false ∧
          t.pc ≠ .loopTop := by
        rw [hpc']
        cases c.isSkipped <;> exact ⟨nofun, nofun, rfl, nofun⟩
      obtain ⟨h1, h2, h3, h4⟩ := hafter
      refine ⟨fun h => ?_, fun _ => ⟨h1, h2⟩, fun hk => ⟨?_, rfl⟩, fun hk _ => .inl ⟨?_, rfl, hl⟩,
        fun _ => rfl, ?_⟩
      · exact absurd (hc.symm.trans h) nofun
      · rw [hpc', hk]
        nofun
      · rw [hpc', hk]
        rfl
      · rintro (hp | hp)
        · exact absurd (hp.symm.trans h3) nofun
        · exact absurd hp h4

end

/-! ## The whole trace -/

/-- the calls of a trace and the present point -/
structure Followed (es : List SystemEvent) (t : RealTimeSystem) : Prop where
  inLoop : t.pc.inLoop = true ∨ ∃ r, t.pc = .idle (some r)
  after : ∀ a c b, es = a ++ .userCall c :: b → calls b = [] → AfterCall c b t
  stopped : ∀ a c b, es = a ++ .userCall c :: b → c.stop = true → calls b = []
  first : calls es = [] → t.pc ≠ .ending true ∧ t.pc ≠ .idle (some true)

/-- the counters, in the calls of a trace -/
structure Counters (A : FastInts) (f : Nat) (sk : Bool) (es : List SystemEvent)
    (t : RealTimeSystem) : Prop where
  frequency : t.frequency = f
  allowSkipMode : t.allowSkipMode = sk
  skipCall : t.pc = .skipCall → sk = true
  skipMode : ∀ c ∈ calls es, c.isSkipped = true → sk = true
  sequence : ∀ k c, (calls es)[k]? = some c → c.info.sequenceNumber = k % 2^A.w32
  deciding : t.pc.deciding = true →
    t.sequenceNumber = (calls es).length % 2^A.w32 ∧ trailing (calls es) < 3 * f
  next : t.pc = .loopTop ∨ t.pc.serving = true →
    toU A.w32 (t.sequenceNumber + 1 : Nat) = (calls es).length % 2^A.w32
  count : t.pc.deciding = true ∨ t.pc = .loopTop ∨ t.pc.serving = true →
    t.skippedCount = trailing (calls es)
  bounded : ∀ l, l <+: calls es → trailing l ≤ 3 * f

theorem snoc_cases {α : Type*} {l a b : List α} {x y : α} (h : l ++ [y] = a ++ x :: b) :
    (b = [] ∧ l = a ∧ y = x) ∨ ∃ b', b = b' ++ [y] ∧ l = a ++ x :: b' := by
  rcases List.eq_nil_or_concat b with rfl | ⟨b', z, rfl⟩
  · obtain ⟨rfl, hxy⟩ := List.append_inj' h rfl
    cases hxy
    exact .inl ⟨rfl, rfl, rfl⟩
  · rw [List.concat_eq_append, ← List.cons_append, ← List.append_assoc] at h
    obtain ⟨rfl, hyz⟩ := List.append_inj' h rfl
    cases hyz
    exact .inr ⟨b', List.concat_eq_append, rfl⟩

section
variable {f : Nat} {sk : Bool}

theorem Turn.inLoop (ht : Turn A s e t) : t.pc.inLoop = true ∨ ∃ r, t.pc = .idle (some r) := by
  cases ht with
  | iterated _ _ hpc => exact .inl (by rw [hpc]; rfl)
  | gaveUp _ _ hpc => exact .inl (by rw [hpc]; rfl)
  | decided _ _ hpc =>
    rcases hpc with hpc | hpc
    · refine .inl ?_
      cases hp : t.pc <;> rw [hp] at hpc <;> first | rfl | cases hpc
    · exact .inl (by rw [hpc]; rfl)
  | called c _ _ _ _ hpc => refine .inl ?_; rw [hpc]; cases c.stop <;> cases c.isSkipped <;> rfl
  | sent r _ hpc => refine .inl ?_; rw [hpc]; cases r <;> rfl
  | ticked ok _ hpc => refine .inl ?_; rw [hpc]; cases ok <;> rfl
  | ended r _ hpc => exact .inr ⟨r, hpc⟩

theorem Turn.not_stopped (ht : Turn A s e t) (he : e.asCall = none)
    (hs : s.pc ≠ .ending true ∧ s.pc ≠ .idle (some true)) :
    t.pc ≠ .ending true ∧ t.pc ≠ .idle (some true) := by
  cases ht with
  | iterated _ _ hpc => rw [hpc]; exact ⟨nofun, nofun⟩
  | gaveUp _ _ hpc => rw [hpc]; exact ⟨nofun, nofun⟩
  | decided _ _ hpc =>
    rcases hpc with hpc | hpc
    · obtain ⟨h1, h2, -⟩ := SystemPc.not_serving_of_deciding hpc
      exact ⟨h1, h2⟩
    · rw [hpc]
      exact ⟨nofun, nofun⟩
  | called => cases he
  | sent r _ hpc => rw [hpc]; cases r <;> exact ⟨nofun, nofun⟩
  | ticked ok _ hpc => rw [hpc]; cases ok <;> exact ⟨nofun, nofun⟩
  | ended r hpc hpc' =>
    cases r with
    | false => rw [hpc']; exact ⟨nofun, nofun⟩
    | true => exact absurd hpc hs.1

theorem AfterCall.no_call {b : List SystemEvent} {c : UserCall} (h : AfterCall c b s)
    (hc : c.stop = true)
    (ht : Turn A s e t) : e.asCall = none := by
  cases ht with
  | called c' hpc =>
    rcases (h.ending hc).1 with hp | hp <;> rw [hp] at hpc <;> rcases hpc with hpc | hpc <;>
      cases hpc
  | decided _ hq =>
    unfold SystemEvent.quiet at hq
    simp only [Bool.and_eq_true, Option.isNone_iff_eq_none] at hq
    exact hq.1.1
  | _ => rfl

/-- **Every step of the loop keeps the calls followed.** -/
theorem Followed.turn (h : Followed es s) (ht : Turn A s e t) : Followed (es ++ [e]) t := by
  refine ⟨ht.inLoop, fun a c b hes hb => ?_, fun a c b hes hc => ?_, fun hnil => ?_⟩
  · rcases snoc_cases hes with ⟨rfl, -, rfl⟩ | ⟨b', rfl, hes'⟩
    · exact AfterCall.called ht
    · rw [calls_append, List.append_eq_nil_iff] at hb
      exact (h.after a c b' hes' hb.1).turn ht (asCall_of_calls hb.2)
  · rcases snoc_cases hes with ⟨rfl, -, -⟩ | ⟨b', rfl, hes'⟩
    · rfl
    · have hb := h.stopped a c b' hes' hc
      have he := (h.after a c b' hes' hb).no_call hc ht
      rw [calls_append, hb, calls_of_asCall he]
      rfl
  · rw [calls_append, List.append_eq_nil_iff] at hnil
    exact ht.not_stopped (asCall_of_calls hnil.2) (h.first hnil.1)

/-! ## The counters -/

theorem calls_same (es : List SystemEvent) (he : e.asCall = none) :
    calls (es ++ [e]) = calls es := by
  rw [calls_append, calls_of_asCall he, List.append_nil]

theorem Counters.same (h : Counters A f sk es s) (he : e.asCall = none)
    (hset : t.frequency = s.frequency ∧ t.allowSkipMode = s.allowSkipMode)
    (hseq : t.sequenceNumber = s.sequenceNumber) (hskip : t.skippedCount = s.skippedCount)
    (hcall : t.pc = .skipCall → s.allowSkipMode = true)
    (hdec : t.pc.deciding = true → s.pc.deciding = true)
    (hnext : t.pc = .loopTop ∨ t.pc.serving = true → s.pc = .loopTop ∨ s.pc.serving = true) :
    Counters A f sk (es ++ [e]) t := by
  have hc := calls_same es he
  refine ⟨hset.1.trans h.frequency, hset.2.trans h.allowSkipMode,
    fun hp => h.allowSkipMode.symm.trans (hcall hp), ?_, ?_, ?_, ?_, ?_, ?_⟩
  · rw [hc]
    exact h.skipMode
  · rw [hc]
    exact h.sequence
  · rw [hc, hseq]
    exact fun hp => h.deciding (hdec hp)
  · rw [hc, hseq]
    exact fun hp => h.next (hnext hp)
  · rw [hc, hskip]
    rintro (hp | hp)
    · exact h.count (.inl (hdec hp))
    · exact h.count (.inr (hnext hp))
  · rw [hc]
    exact h.bounded

theorem Counters.exit (h : Counters A f sk es s) (he : e.asCall = none)
    (hset : t.frequency = s.frequency ∧ t.allowSkipMode = s.allowSkipMode)
    (hpc : (∃ r, t.pc = .ending r) ∨ ∃ r, t.pc = .idle r) : Counters A f sk (es ++ [e]) t := by
  have hc := calls_same es he
  have hout : t.pc ≠ .skipCall ∧ t.pc.deciding = false ∧ t.pc ≠ .loopTop ∧
    t.pc.serving = false := by
    rcases hpc with ⟨r, hpc⟩ | ⟨r, hpc⟩ <;> rw [hpc] <;> exact ⟨nofun, rfl, nofun, rfl⟩
  obtain ⟨h1, h2, h3, h4⟩ := hout
  refine ⟨hset.1.trans h.frequency, hset.2.trans h.allowSkipMode, fun hp => absurd hp h1, ?_, ?_,
    ?_, ?_, ?_, ?_⟩
  · rw [hc]
    exact h.skipMode
  · rw [hc]
    exact h.sequence
  · rw [h2]
    nofun
  · rw [h4]
    rintro (hp | hp)
    · exact absurd hp h3
    · cases hp
  · rw [h2, h4]
    rintro (hp | hp | hp)
    · cases hp
    · exact absurd hp h3
    · cases hp
  · rw [hc]
    exact h.bounded

theorem Counters.limit_eq (h : Counters A f sk es s) (hf : f ≤ 100) : s.limit A = 3 * f := by
  have hlt : f * 3 < 2^32 := by omega
  have hwide : 2^32 ≤ 2^(RealTimeSystem.wide A) :=
    Nat.pow_le_pow_right (by decide) (le_max_right _ _)
  unfold RealTimeSystem.limit
  rw [h.frequency, toU_of_lt (by omega), Nat.mul_comm]

theorem Counters.called (h : Counters A f sk es s) (hf : f ≤ 100) {c : UserCall}
    (hset : t.frequency = s.frequency ∧ t.allowSkipMode = s.allowSkipMode)
    (ht : Turn A s (.userCall c) t) : Counters A f sk (es ++ [.userCall c]) t := by
  have hcalls : calls (es ++ [.userCall c]) = calls es ++ [c] := calls_append
  cases ht with
  | decided _ hq => cases hq
  | called _ hpc hinfo hskipped _ hpc' hseq hcount =>
    have hdec : s.pc.deciding = true := by rcases hpc with hpc | hpc <;> rw [hpc] <;> rfl
    obtain ⟨hs, hroom⟩ := h.deciding hdec
    have hold := h.count (.inl hdec)
    have hout : t.pc ≠ .skipCall ∧ t.pc.deciding = false ∧ t.pc ≠ .loopTop ∧
        (t.pc.serving = true → c.stop = false) := by
      rw [hpc']
      cases c.stop <;> cases c.isSkipped <;> exact ⟨nofun, rfl, nofun, by decide⟩
    obtain ⟨h1, h2, h3, h4⟩ := hout
    -- the number of skipped calls at the end of the new trace
    have htrailing : trailing (calls es ++ [c])
        = if c.isSkipped then trailing (calls es) + 1 else 0 := by
      cases hk : c.isSkipped with
      | true => rw [if_pos rfl, trailing_skipped hk]
      | false => rw [if_neg nofun, trailing_normal hk]
    refine ⟨hset.1.trans h.frequency, hset.2.trans h.allowSkipMode, fun hp => absurd hp h1, ?_, ?_,
      ?_, ?_, ?_, ?_⟩
    · rw [hcalls]
      intro c' hc' hk
      rcases List.mem_append.mp hc' with hc' | hc'
      · exact h.skipMode c' hc' hk
      · rw [List.mem_singleton.mp hc'] at hk
        exact h.skipCall (hskipped.mp hk)
    · rw [hcalls]
      intro k c' hk
      rcases Nat.lt_or_ge k (calls es).length with hlt | hge
      · rw [List.getElem?_append_left hlt] at hk
        exact h.sequence k c' hk
      · rw [List.getElem?_append_right hge, List.getElem?_singleton] at hk
        obtain ⟨hz, rfl⟩ := Option.ite_some_none_eq_some.mp hk
        rw [hinfo, hs, show (calls es).length = k by omega]
    · rw [h2]
      nofun
    · intro _
      rw [hcalls, hseq, hs, toU_nat, Nat.mod_add_mod, List.length_append]
      rfl
    · rw [h2]
      rintro (hp | hp | hp)
      · cases hp
      · exact absurd hp h3
      · rw [hcalls, hcount (h4 hp), htrailing, hold]
        have hlt : trailing (calls es) + 1 < 2^32 := by omega
        rw [toU_of_lt (A.lt32 hlt)]
    · rw [hcalls]
      intro l hl
      rcases List.prefix_concat_iff.mp hl with rfl | hl
      · rw [htrailing]
        split <;> omega
      · exact h.bounded l hl

/-- **Every step of the loop keeps the counters.** -/
theorem Counters.turn (h : Counters A f sk es s) (hf : f ≤ 100)
    (hset : t.frequency = s.frequency ∧ t.allowSkipMode = s.allowSkipMode)
    (ht : Turn A s e t) : Counters A f sk (es ++ [e]) t := by
  cases ht with
  | iterated hpc hne hpc' hseq hskip =>
    have hc : calls (es ++ [.tau]) = calls es := calls_same _ rfl
    have hlimit := h.limit_eq hf
    have hcount := h.count (.inr (.inl hpc))
    have hle := h.bounded _ List.prefix_rfl
    refine ⟨hset.1.trans h.frequency, hset.2.trans h.allowSkipMode, ?_, ?_, ?_, ?_, ?_, ?_, ?_⟩
    · rw [hpc']
      nofun
    · rw [hc]
      exact h.skipMode
    · rw [hc]
      exact h.sequence
    · intro _
      rw [hc, hseq]
      exact ⟨h.next (.inl hpc), by omega⟩
    · rw [hpc']
      rintro (hp | hp) <;> cases hp
    · intro _
      rw [hc, hskip]
      exact hcount
    · rw [hc]
      exact h.bounded
  | gaveUp _ _ hpc => exact h.exit rfl hset (.inl ⟨false, hpc⟩)
  | decided hpc hq hpc' hcall hseq hskip =>
    have he : e.asCall = none := by
      unfold SystemEvent.quiet at hq
      simp only [Bool.and_eq_true, Option.isNone_iff_eq_none] at hq
      exact hq.1.1
    rcases hpc' with hpc' | hpc'
    · refine h.same he hset hseq hskip hcall (fun _ => hpc) ?_
      have hserving := (SystemPc.not_serving_of_deciding hpc').2.2.2
      rintro (hp | hp)
      · rw [hp] at hpc'
        cases hpc'
      · exact absurd (hp.symm.trans hserving) nofun
    · exact h.exit he hset (.inl ⟨false, hpc'⟩)
  | called c h1 h2 h3 h4 h5 h6 h7 => exact h.called hf hset (.called c h1 h2 h3 h4 h5 h6 h7)
  | sent r hpc hpc' hseq hskip =>
    have hserving : s.pc.serving = true := by rw [hpc]; rfl
    refine h.same rfl hset hseq hskip ?_ ?_ fun _ => .inr hserving
    · rw [hpc']
      cases r <;> nofun
    · rw [hpc']
      cases r <;> nofun
  | ticked ok hpc hpc' hseq hskip =>
    have hserving : s.pc.serving = true := by rcases hpc with hpc | hpc <;> rw [hpc] <;> rfl
    refine h.same rfl hset hseq hskip ?_ ?_ fun _ => .inr hserving
    · rw [hpc']
      cases ok <;> nofun
    · rw [hpc']
      cases ok <;> nofun
  | ended r _ hpc => exact h.exit rfl hset (.inr ⟨some r, hpc⟩)

end
end

/-! ## The laws -/

/-- the laws of the trace `es` of a run that has come to the state `t` -/
structure RunLaws (A : FastInts) (f : Nat) (sk : Bool) (es : List SystemEvent)
    (t : RealTimeSystem) : Prop where
  sequence : ∀ k c, (calls es)[k]? = some c → c.info.sequenceNumber = k % 2^A.w32
  ticked : ∀ a c b c' d, es = a ++ .userCall c :: (b ++ .userCall c' :: d) → calls b = [] →
    ticks b = [.tick true]
  sent : ∀ a c b, es = a ++ .userCall c :: b → calls b = [] → c.isSkipped = false →
    c.stop = false → b = [] ∨ ∃ r b', b = .send c.list r :: b' ∧ sends b' = []
  unsent : ∀ a c b, es = a ++ .userCall c :: b → calls b = [] → c.isSkipped = true → sends b = []
  skipMode : ∀ c ∈ calls es, c.isSkipped = true → sk = true
  stopped : ∀ a c b, es = a ++ .userCall c :: b → c.stop = true →
    calls b = [] ∧ sends b = [] ∧ ticks b = []
  returned : ∀ r, t.pc = .idle r → (r = some true ↔ ∃ c ∈ calls es, c.stop = true)
  disconnected : t.pc = .loopTop → ∀ t', t.step A .tau = some t' →
    ((t'.pc = .ending false ∧
        t'.errorHandler = t.errorHandler.setError RealTimeSystem.disconnectedText) ↔
      3 * f ≤ (calls es).length ∧
        ∀ c ∈ (calls es).drop ((calls es).length - 3 * f), c.isSkipped = true)
  bounded : ∀ a b d, calls es = a ++ b ++ d → (∀ c ∈ b, c.isSkipped = true) →
    b.length ≤ 3 * f

/-- between two public calls -/
def SystemPc.isIdle : SystemPc → Bool
  | .idle _ => true
  | _ => false

theorem SystemPc.ne_idle {pc : SystemPc} (h : pc.isIdle = false) (r : Option Bool) :
    pc ≠ .idle r := by
  rintro rfl
  cases h

/-- the condition of a step inside the call -/
def InRun (s : RealTimeSystem) (_ : SystemEvent) : Prop := s.pc.isIdle = false

instance (s : RealTimeSystem) (e : SystemEvent) : Decidable (InRun s e) :=
  inferInstanceAs (Decidable (_ = _))

section
variable {A : FastInts} {f : Nat} {sk : Bool} {s t v : RealTimeSystem} {es : List SystemEvent}

theorem RealTimeSystem.call_pc {e : SystemEvent} (hs : s.call A e = some t) :
    t.pc.isIdle = true ∨ t.pc = .beforeSend ∨ t.pc = .startTimer := by
  unfold call at hs
  split at hs
  case h_1 | h_2 | h_3 =>
    cases hs
    unfold setPointer
    split <;> exact .inl rfl
  case h_4 | h_5 | h_6 => cases hs; exact .inl rfl
  case h_7 a =>
    cases hs
    unfold initializeSystem
    split <;> exact .inl rfl
  case h_8 l n =>
    cases hs
    cases s.initialized
    · exact .inl rfl
    · exact .inr (.inl rfl)
  case h_9 =>
    cases hs
    cases s.initialized
    · exact .inl rfl
    · exact .inr (.inr rfl)
  case h_10 => cases hs

theorem RealTimeSystem.inside_of_inLoop {e : SystemEvent} (hs : s.step A e = some t)
    (ht : t.pc.inLoop = true) (r : Option Bool) : s.pc ≠ .idle r := by
  intro hpc
  rw [RealTimeSystem.step_idle hpc] at hs
  rcases RealTimeSystem.call_pc hs with h | h | h
  · cases hp : t.pc <;> rw [hp] at h ht <;> first | cases h; done | cases ht
  · rw [h] at ht
    cases ht
  · rw [h] at ht
    cases ht

theorem RealTimeSystem.Moves.inside {e : SystemEvent} (h : s.Moves A e t) :
    s.pc.isIdle = false := by
  cases h
  case ticked hpc | late hpc => rcases hpc with hpc | hpc <;> simp [hpc, SystemPc.isIdle]
  all_goals simp [*, SystemPc.isIdle]

theorem RealTimeSystem.moves_of_inLoop {e : SystemEvent} (hs : s.step A e = some t)
    (ht : t.pc.inLoop = true) : s.Moves A e t :=
  RealTimeSystem.step_moves (RealTimeSystem.inside_of_inLoop hs ht) hs

theorem run_started (hr : (system A).run s [.run, .startTimer none] = some v) :
    v.pc = .loopTop ∧ v.frequency = s.frequency ∧ v.allowSkipMode = s.allowSkipMode ∧
      v.sequenceNumber = toU A.w32 (-1) ∧ v.skippedCount = 0 := by
  rw [Machine.run_cons] at hr
  obtain ⟨u, hu, hr⟩ := Option.bind_eq_some_iff.mp hr
  rw [Machine.run_cons] at hr
  obtain ⟨v', hv, hr⟩ := Option.bind_eq_some_iff.mp hr
  cases hr
  change s.step A .run = some u at hu
  change u.step A (.startTimer none) = some v at hv
  rcases RealTimeSystem.call_or_moves hu with ⟨r, hpc, hu⟩ | moves
  · have hu' := Option.some.inj hu
    cases hi : s.initialized with
    | true =>
      rw [hi, if_pos rfl] at hu'
      subst hu'
      cases hv
      exact ⟨rfl, rfl, rfl, rfl, rfl⟩
    | false =>
      rw [hi, if_neg nofun] at hu'
      subst hu'
      cases hv
  · cases moves

theorem followed_start (hpc : v.pc = .loopTop) : Followed [] v := by
  refine ⟨.inl (by rw [hpc]; rfl), fun a c b h => ?_, fun a c b h => ?_, fun _ => ?_⟩
  · exact absurd h (by simp)
  · exact absurd h (by simp)
  · rw [hpc]
    exact ⟨nofun, nofun⟩

theorem counters_start (hpc : v.pc = .loopTop) (hf : v.frequency = f) (hsk : v.allowSkipMode = sk)
    (hseq : v.sequenceNumber = toU A.w32 (-1)) (hskip : v.skippedCount = 0) :
    Counters A f sk [] v := by
  refine ⟨hf, hsk, ?_, nofun, nofun, ?_, fun _ => ?_, fun _ => hskip, ?_⟩
  · rw [hpc]
    nofun
  · rw [hpc]
    nofun
  · have hone : toU A.w32 1 = 1 := toU_of_lt (A.lt32 (n := 1) (by decide))
    have hadd := toU_add A.w32 (-1) 1
    rw [hone] at hadd
    rw [hseq, hadd]
    exact Nat.zero_mod _
  · intro l hl
    rw [List.prefix_nil.mp hl]
    exact Nat.zero_le _

/-- **Both hold all along a run.** -/
theorem run_follows (hf : f ≤ 100) (hpc : v.pc = .loopTop) (hfr : v.frequency = f)
    (hsk : v.allowSkipMode = sk) (hseq : v.sequenceNumber = toU A.w32 (-1))
    (hskip : v.skippedCount = 0) (hr : (system A).Runs InRun v es t) :
    Followed es t ∧ Counters A f sk es t := by
  refine hr.follows (fun l v => Followed l v ∧ Counters A f sk l v)
    ⟨followed_start hpc, counters_start hpc hfr hsk hseq hskip⟩ ?_
  rintro l v e v' ⟨hfol, hcnt⟩ hrun hs
  have hidle : ∀ r, v.pc ≠ .idle r := SystemPc.ne_idle hrun
  have moves := RealTimeSystem.step_moves hidle hs
  have hin : v.pc.inLoop = true := by
    rcases hfol.inLoop with hin | ⟨r, hpc⟩
    · exact hin
    · exact absurd hpc (hidle r)
  obtain ⟨-, -, -, hset2, -, hset1⟩ := moves.settings
  have turn := moves.turn hin
  exact ⟨hfol.turn turn, hcnt.turn hf ⟨hset1, hset2⟩ turn⟩

theorem call_split {c : UserCall} (hc : c ∈ calls es) : ∃ a b, es = a ++ .userCall c :: b := by
  obtain ⟨e, he, hcall⟩ := List.mem_filterMap.mp hc
  have hec : e = .userCall c := by
    cases e with
    | userCall c' => cases hcall; rfl
    | _ => cases hcall
  obtain ⟨a, b, hes⟩ := List.append_of_mem he
  exact ⟨a, b, hec ▸ hes⟩

theorem last_call (hne : calls es ≠ []) : ∃ a c b, es = a ++ .userCall c :: b ∧ calls b = [] := by
  induction es using List.reverseRecOn with
  | nil => exact absurd rfl hne
  | append_singleton l e ih =>
    cases hcall : e.asCall with
    | none =>
      rw [calls_same _ hcall] at hne
      obtain ⟨a, c, b, rfl, hb⟩ := ih hne
      refine ⟨a, c, b ++ [e], by rw [List.append_assoc, List.cons_append], ?_⟩
      rw [calls_same _ hcall, hb]
    | some c =>
      have hec : e = .userCall c := by
        cases e with
        | userCall c' => cases hcall; rfl
        | _ => cases hcall
      exact ⟨l, c, [], by rw [hec], rfl⟩

theorem Followed.returned (h : Followed es t) {r : Option Bool} (hpc : t.pc = .idle r) :
    r = some true ↔ ∃ c ∈ calls es, c.stop = true := by
  constructor
  · rintro rfl
    have hne : calls es ≠ [] := fun hnil => (h.first hnil).2 hpc
    obtain ⟨a, c, b, rfl, hb⟩ := last_call hne
    have hafter := h.after a c b rfl hb
    refine ⟨c, ?_, ?_⟩
    · rw [calls_append]
      exact List.mem_append_right _ List.mem_cons_self
    · cases hc : c.stop with
      | true => rfl
      | false => exact absurd hpc (hafter.going hc).2
  · rintro ⟨c, hc, hstop⟩
    obtain ⟨a, b, rfl⟩ := call_split hc
    have hafter := h.after a c b rfl (h.stopped a c b rfl hstop)
    rcases (hafter.ending hstop).1 with hp | hp
    · rw [hp] at hpc
      cases hpc
    · rw [hp] at hpc
      cases hpc
      rfl

theorem Counters.disconnected (h : Counters A f sk es t) (hf : f ≤ 100) (hpc : t.pc = .loopTop)
    {t' : RealTimeSystem} (hs : t.step A .tau = some t') :
    (t'.pc = .ending false ∧
        t'.errorHandler = t.errorHandler.setError RealTimeSystem.disconnectedText) ↔
      3 * f ≤ (calls es).length ∧
        ∀ c ∈ (calls es).drop ((calls es).length - 3 * f), c.isSkipped = true := by
  have turn : Turn A t .tau t' := by
    refine (RealTimeSystem.step_moves (fun r hr => ?_) hs).turn ?_
    · rw [hpc] at hr
      cases hr
    · rw [hpc]
      rfl
  have hcount := h.count (.inr (.inl hpc))
  have hle := h.bounded _ List.prefix_rfl
  rw [← le_trailing_iff]
  cases turn with
  | iterated _ hne hpc' =>
    rw [h.limit_eq hf] at hne
    refine ⟨fun hg => ?_, fun hg => ?_⟩
    · rw [hpc'] at hg
      cases hg.1
    · omega
  | gaveUp _ heq hpc' herr =>
    rw [h.limit_eq hf] at heq
    exact ⟨fun _ => by omega, fun _ => ⟨hpc', herr⟩⟩
  | decided hdec =>
    rw [hpc] at hdec
    cases hdec

theorem deciding_of_call {c : UserCall} (hs : s.step A (.userCall c) = some t) :
    s.pc.deciding = true := by
  have moves := RealTimeSystem.step_moves (RealTimeSystem.inside_of_step hs rfl) hs
  cases moves with
  | skipStopped _ hpc => rw [hpc]; rfl
  | skipped _ hpc => rw [hpc]; rfl
  | called _ hpc => rw [hpc]; rfl

/-- **The trace of `run`.**  Whatever the timer, the sender and the user function do, the events of
a run that has started its timer obey the laws. -/
theorem run_trace (hf : s.frequency ≤ 100)
    (hstart : (system A).run s [.run, .startTimer none] = some v)
    (hr : (system A).Runs InRun v es t) : RunLaws A s.frequency s.allowSkipMode es t := by
  obtain ⟨hpc, hfr, hsk, hseq, hskip⟩ := run_started hstart
  obtain ⟨hfol, hcnt⟩ := run_follows hf hpc hfr hsk hseq hskip hr
  refine ⟨hcnt.sequence, ?_, ?_, ?_, hcnt.skipMode, ?_, fun r => hfol.returned,
    fun htop t' => hcnt.disconnected hf htop, ?_⟩
  · intro a c b c' d hes hb
    have hes' : es = (a ++ .userCall c :: b) ++ .userCall c' :: d := by
      rw [hes, List.append_assoc, List.cons_append]
    rw [hes'] at hr
    obtain ⟨u, h1, h2⟩ := hr.split
    obtain ⟨hfol', -⟩ := run_follows hf hpc hfr hsk hseq hskip h1
    obtain ⟨u', hs, -⟩ := Option.bind_eq_some_iff.mp h2.run_eq
    exact (hfol'.after a c b rfl hb).again (.inl (deciding_of_call hs))
  · intro a c b hes hb hk hc
    rcases (hfol.after a c b hes hb).normal hk hc with ⟨-, hnil, -⟩ | ⟨-, hsent⟩
    · exact .inl hnil
    · exact .inr hsent
  · exact fun a c b hes hb hk => ((hfol.after a c b hes hb).skipped hk).2
  · intro a c b hes hc
    have hb := hfol.stopped a c b hes hc
    exact ⟨hb, ((hfol.after a c b hes hb).ending hc).2⟩
  · intro a b d hcalls hall
    have hpre : a ++ b <+: calls es := hcalls ▸ List.prefix_append _ _
    have hle := hcnt.bounded _ hpre
    rw [trailing_append hall] at hle
    omega

end

/-- an initialised object at 1 Hz in skip mode -/
def oneHertz : RealTimeSystem :=
  { timer := 1, sender := 2, userAppFunc := 3, allowSkipMode := true, initialized := true,
    frequency := 1 }

/-- a call whose list is sent, then a skipped call that requests a stop -/
def keptThenSkipped : List SystemEvent :=
  [.tau, .tau, .isSendDone true, .isSendDone true, .userCall ⟨⟨0, false, 0⟩, [{}], false⟩,
    .send [{}] none, .tick true, .tau, .tau, .isSendDone false, .isSendDone false,
    .userCall ⟨⟨1, true, 0⟩, [], true⟩, .endSender]

theorem run_trace_two :
    ∃ v t, (system FastInts.lp64).run oneHertz [.run, .startTimer none] = some v ∧
      (system FastInts.lp64).Runs InRun v keptThenSkipped t ∧
      (t.pc = .idle (some true) ↔ ∃ c ∈ calls keptThenSkipped, c.stop = true) ∧
      t.pc = .idle (some true) := by
  have hrun : ((system FastInts.lp64).run oneHertz [.run, .startTimer none]).bind (fun v =>
      (((system FastInts.lp64).restrict InRun).run v keptThenSkipped).map fun t => t.pc)
        = some (.idle (some true)) := by decide
  obtain ⟨v, hv, hrest⟩ := Option.bind_eq_some_iff.mp hrun
  obtain ⟨t, ht, hpc⟩ := Option.map_eq_some_iff.mp hrest
  have hruns := Machine.Runs.of_restrict ht
  have hlaws := run_trace (by decide) hv hruns
  refine ⟨v, t, hv, hruns, ?_, hpc⟩
  rw [hpc]
  exact ⟨fun _ => (hlaws.returned _ hpc).mp rfl, fun _ => rfl⟩

end RealTimeTransfer
