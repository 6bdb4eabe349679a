import RealTimeTransfer.Timers.Sleep
import RealTimeTransfer.Timers.Timer

/-!
# `sleep_to_next_tick`, step by step

`callMachine k A t` is one call of a timer `t` of the class `k`: the entry reading, the steps of
`nanoseconds_sleep` where the class blocks, and the readings of the spin where it spins.

* `sleepToNextTick_iff`  the returned runs of the machine are the results of the function;
* `TickPc.Next`          what a step can be.
-/

namespace RealTimeTransfer
open Words Machines

/-- a point of `sleep_to_next_tick`, with its locals -/
inductive TickPc where
  | entry
  | sleeping (current : Timespec) (ns : Nat) (p : SleepPc)
  | spinning (current : Timespec)
  | returned (ok : Bool) (t : Timer)

inductive TickEvent where
  | entry (r : Nat)
  | sleep (e : SleepEvent)
  | spin (r : Nat)
  | ret

namespace TickEvent

def reading : TickEvent → Option Nat
  | .entry r => some r
  | .sleep e => e.reading
  | .spin r => some r
  | .ret => none

def inSleep : TickEvent → Option SleepEvent
  | .sleep e => some e
  | _ => none

def spun : TickEvent → Option Nat
  | .spin r => some r
  | _ => none

/-- the readings of a call, those of its spin, and what it did inside `nanoseconds_sleep` -/
def readings (es : List TickEvent) : List Nat := es.filterMap reading
def spins (es : List TickEvent) : List Nat := es.filterMap spun
def slept (es : List TickEvent) : List SleepEvent := es.filterMap inSleep

theorem readings_append (es es' : List TickEvent) :
    readings (es ++ es') = readings es ++ readings es' := List.filterMap_append

theorem spins_append (es es' : List TickEvent) : spins (es ++ es') = spins es ++ spins es' :=
  List.filterMap_append

theorem slept_append (es es' : List TickEvent) : slept (es ++ es') = slept es ++ slept es' :=
  List.filterMap_append

end TickEvent
open TickEvent

namespace TimerClass

/-- after the check: spin, or block first -/
def afterCheck (k : TimerClass) (t : Timer) (current : Timespec) : TickPc :=
  let left := sub64 t.sleepTimeNs (timespecDiffNs t.startTime current)
  match k with
  | .busyWait => .spinning current
  | .worstCase w =>
    if left < w then .spinning current else .sleeping current (sub64 left w) .entered
  | .freeWait => .sleeping current left .entered

/-- after `nanoseconds_sleep`: `current` has not been read again -/
def afterSleep (k : TimerClass) (A : FastInts) (t : Timer) (current : Timespec) : TickPc :=
  match k with
  | .freeWait => .returned true (t.advance A)
  | _ => .spinning current

end TimerClass

def TickPc.step (k : TimerClass) (A : FastInts) (t : Timer) : TickPc → TickEvent → Option TickPc
  | .entry, .entry r =>
    if t.sleepTimeNs < timespecDiffNs t.startTime (ofNs r) then
      some (.returned false { t with errorHandler := t.errorHandler.setError Timer.tickedError })
    else some (k.afterCheck t (ofNs r))
  | .sleeping current ns p, .sleep e =>
    ((sleepMachine ns).step p e).map fun p' =>
      if p' = .returned then k.afterSleep A t current else .sleeping current ns p'
  | .spinning current, .spin r =>
    if timespecDiffNs t.startTime current < t.sleepTimeNs then some (.spinning (ofNs r)) else none
  | .spinning current, .ret =>
    if timespecDiffNs t.startTime current < t.sleepTimeNs then none
    else some (.returned true (t.advance A))
  | _, _ => none

def callMachine (k : TimerClass) (A : FastInts) (t : Timer) : Machine TickPc TickEvent where
  step := TickPc.step k A t

/-- what a step can be -/
inductive TickPc.Next (k : TimerClass) (A : FastInts) (t : Timer) :
    TickPc → TickEvent → TickPc → Prop where
  | late (r : Nat) : t.sleepTimeNs < timespecDiffNs t.startTime (ofNs r) →
      Next k A t .entry (.entry r)
        (.returned false { t with errorHandler := t.errorHandler.setError Timer.tickedError })
  | check (r : Nat) : ¬ t.sleepTimeNs < timespecDiffNs t.startTime (ofNs r) →
      Next k A t .entry (.entry r) (k.afterCheck t (ofNs r))
  | sleep (current : Timespec) (ns : Nat) (p p' : SleepPc) (e : SleepEvent) :
      (sleepMachine ns).step p e = some p' → p' ≠ .returned →
      Next k A t (.sleeping current ns p) (.sleep e) (.sleeping current ns p')
  | awake (current : Timespec) (ns : Nat) (p : SleepPc) (e : SleepEvent) :
      (sleepMachine ns).step p e = some .returned →
      Next k A t (.sleeping current ns p) (.sleep e) (k.afterSleep A t current)
  | spin (current : Timespec) (r : Nat) :
      timespecDiffNs t.startTime current < t.sleepTimeNs →
      Next k A t (.spinning current) (.spin r) (.spinning (ofNs r))
  | ret (current : Timespec) : ¬ timespecDiffNs t.startTime current < t.sleepTimeNs →
      Next k A t (.spinning current) .ret (.returned true (t.advance A))

section
variable {k : TimerClass} {A : FastInts} {t : Timer}

theorem TickPc.step_next {p p' : TickPc} {e : TickEvent}
    (h : (callMachine k A t).step p e = some p') : p.Next k A t e p' := by
  change TickPc.step k A t p e = some p' at h
  unfold TickPc.step at h
  split at h
  · by_cases hlt : t.sleepTimeNs < timespecDiffNs t.startTime (ofNs ‹Nat›)
    · rw [if_pos hlt] at h
      cases h
      exact .late _ hlt
    · rw [if_neg hlt] at h
      cases h
      exact .check _ hlt
  · obtain ⟨q, hq, rfl⟩ := Option.map_eq_some_iff.mp h
    by_cases hret : q = .returned
    · rw [if_pos hret]
      exact .awake _ _ _ _ (hret ▸ hq)
    · rw [if_neg hret]
      exact .sleep _ _ _ _ _ hq hret
  · obtain ⟨hlt, he⟩ := Option.ite_some_none_eq_some.mp h
    cases he
    exact .spin _ _ hlt
  · obtain ⟨hlt, he⟩ := Option.ite_none_left_eq_some.mp h
    cases he
    exact .ret _ hlt
  · cases h

/-! ## The machine and the functions -/

variable {c : Timespec} {ns : Nat} {d d' : List Nat} {es : List TickEvent} {u : Timer} {ok : Bool}

theorem run_spin (h : timespecDiffNs t.startTime c < t.sleepTimeNs) (r : Nat)
    (es : List TickEvent) : (callMachine k A t).run (.spinning c) (.spin r :: es)
      = (callMachine k A t).run (.spinning (ofNs r)) es := by
  have h1 : (callMachine k A t).step (.spinning c) (.spin r) = some (.spinning (ofNs r)) := if_pos h
  rw [Machine.run_cons, h1]
  rfl

theorem run_spin_ret (h : ¬ timespecDiffNs t.startTime c < t.sleepTimeNs) :
    (callMachine k A t).run (.spinning c) [.ret] = some (.returned true (t.advance A)) := by
  have h1 : (callMachine k A t).step (.spinning c) .ret = some (.returned true (t.advance A)) :=
    if_neg h
  rw [Machine.run_cons, h1]
  rfl

theorem run_tick_returned {p : TickPc}
    (h : (callMachine k A t).run (.returned ok u) es = some p) :
    es = [] ∧ p = .returned ok u := by
  cases es with
  | nil =>
    cases h
    exact ⟨rfl, rfl⟩
  | cons e es =>
    obtain ⟨v, hv, -⟩ := Option.bind_eq_some_iff.mp h
    cases TickPc.step_next hv

theorem spin_runs (k : TimerClass) (A : FastInts)
    (h : spin t.startTime t.sleepTimeNs c d = some d') :
    ∃ es, (callMachine k A t).run (.spinning c) es = some (.returned true (t.advance A)) ∧
      slept es = [] ∧ d = readings es ++ d' := by
  induction d generalizing c with
  | nil =>
    unfold spin at h
    obtain ⟨hlt, he⟩ := Option.ite_none_left_eq_some.mp h
    cases he
    exact ⟨[.ret], run_spin_ret hlt, rfl, rfl⟩
  | cons r d ih =>
    unfold spin at h
    by_cases hlt : timespecDiffNs t.startTime c < t.sleepTimeNs
    · rw [if_pos hlt] at h
      obtain ⟨es, h1, h2, rfl⟩ := ih h
      exact ⟨.spin r :: es, (run_spin hlt r es).trans h1, h2, rfl⟩
    · rw [if_neg hlt] at h
      cases h
      exact ⟨[.ret], run_spin_ret hlt, rfl, rfl⟩

theorem runs_spin (d' : List Nat) (es : List TickEvent) (c : Timespec)
    (h : (callMachine k A t).run (.spinning c) es = some (.returned ok u)) :
    spin t.startTime t.sleepTimeNs c (readings es ++ d') = some d' ∧ slept es = [] ∧
      ok = true ∧ u = t.advance A := by
  induction es generalizing c with
  | nil => cases h
  | cons e es ih =>
    obtain ⟨v, hv, h⟩ := Option.bind_eq_some_iff.mp h
    cases TickPc.step_next hv with
    | spin _ r hlt =>
      obtain ⟨h1, h2, h3⟩ := ih (ofNs r) h
      refine ⟨?_, h2, h3⟩
      show spin t.startTime t.sleepTimeNs c (r :: (readings es ++ d')) = some d'
      unfold spin
      rw [if_pos hlt]
      exact h1
    | ret _ hlt =>
      obtain ⟨rfl, hu⟩ := run_tick_returned h
      cases hu
      refine ⟨?_, rfl, rfl, rfl⟩
      show spin t.startTime t.sleepTimeNs c d' = some d'
      cases d' <;> exact if_neg hlt

theorem run_sleep {p p' : SleepPc} {l : List SleepEvent} (hp : p ≠ .returned)
    (h : (sleepMachine ns).run p l = some p') :
    (callMachine k A t).run (.sleeping c ns p) (l.map .sleep)
      = some (if p' = .returned then k.afterSleep A t c else .sleeping c ns p') := by
  induction l generalizing p with
  | nil =>
    cases h
    rw [if_neg hp]
    rfl
  | cons e l ih =>
    obtain ⟨v, hv, h⟩ := Option.bind_eq_some_iff.mp h
    have h1 : (callMachine k A t).step (.sleeping c ns p) (.sleep e)
        = some (if v = .returned then k.afterSleep A t c else .sleeping c ns v) := by
      show ((sleepMachine ns).step p e).map _ = _
      rw [hv]
      rfl
    rw [List.map_cons, Machine.run_cons, h1]
    by_cases hret : v = .returned
    · subst hret
      cases run_returned h
      cases h
      rfl
    · rw [if_neg hret]
      exact ih hret h

theorem runs_sleep (es : List TickEvent) (p : SleepPc)
    (h : (callMachine k A t).run (.sleeping c ns p) es = some (.returned ok u)) :
    ∃ l es', es = l.map .sleep ++ es' ∧ (sleepMachine ns).run p l = some .returned ∧
      (callMachine k A t).run (k.afterSleep A t c) es' = some (.returned ok u) := by
  induction es generalizing p with
  | nil => cases h
  | cons e es ih =>
    obtain ⟨v, hv, h⟩ := Option.bind_eq_some_iff.mp h
    cases TickPc.step_next hv with
    | sleep _ _ _ p' e hs _ =>
      obtain ⟨l, es', rfl, h1, h2⟩ := ih p' h
      refine ⟨e :: l, es', rfl, ?_, h2⟩
      rw [Machine.run_cons, hs]
      exact h1
    | awake _ _ _ e hs =>
      refine ⟨[e], es, rfl, ?_, h⟩
      rw [Machine.run_cons, hs]
      rfl

theorem readings_sleep (l : List SleepEvent) : readings (l.map .sleep) = SleepEvent.readings l := by
  unfold readings SleepEvent.readings
  rw [List.filterMap_map]
  rfl

theorem slept_sleep (l : List SleepEvent) : slept (l.map .sleep) = l := by
  unfold slept
  rw [List.filterMap_map]
  exact List.filterMap_some

theorem spin_iff : spin t.startTime t.sleepTimeNs c d = some d' ↔
    ∃ es, (callMachine k A t).run (.spinning c) es = some (.returned true (t.advance A)) ∧
      SleepEvent.requests (slept es) = [] ∧ d = readings es ++ d' := by
  constructor
  · intro h
    obtain ⟨es, h1, h2, h3⟩ := spin_runs k A h
    exact ⟨es, h1, by rw [h2]; rfl, h3⟩
  · rintro ⟨es, h, -, rfl⟩
    exact (runs_spin _ es c h).1

theorem sleeping_iff {q : List Timespec} {ok : Bool} {u : Timer} :
    (∃ es, (callMachine k A t).run (.sleeping c ns .entered) es = some (.returned ok u) ∧
      SleepEvent.requests (slept es) = q ∧ d = readings es ++ d') ↔
    ∃ q₁ d₁ es, nanosecondsSleep ns d = some (q₁, d₁) ∧
      (callMachine k A t).run (k.afterSleep A t c) es = some (.returned ok u) ∧
      q = q₁ ++ SleepEvent.requests (slept es) ∧ d₁ = readings es ++ d' := by
  constructor
  · rintro ⟨es, h, rfl, rfl⟩
    obtain ⟨l, es', rfl, h1, h2⟩ := runs_sleep es .entered h
    refine ⟨SleepEvent.requests l, readings es' ++ d', es', ?_, h2, ?_, rfl⟩
    · apply nanosecondsSleep_iff.mpr
      refine ⟨l, h1, rfl, ?_⟩
      rw [readings_append, readings_sleep, List.append_assoc]
    · rw [slept_append, slept_sleep, SleepEvent.requests_append]
  · rintro ⟨q₁, d₁, es, h, h2, rfl, rfl⟩
    obtain ⟨l, h1, rfl, rfl⟩ := nanosecondsSleep_iff.mp h
    have h3 : (callMachine k A t).run (.sleeping c ns .entered) (l.map .sleep)
        = some (k.afterSleep A t c) := by
      rw [run_sleep SleepPc.noConfusion h1, if_pos rfl]
    refine ⟨l.map .sleep ++ es, ?_, ?_, ?_⟩
    · rw [Machine.run_append, h3]
      exact h2
    · rw [slept_append, slept_sleep, SleepEvent.requests_append]
    · rw [readings_append, readings_sleep, List.append_assoc]

/-- `nanoseconds_sleep` and then a spin from the old `current` -/
theorem block_spin_iff {q : List Timespec} (hk : k ≠ .freeWait) :
    ((nanosecondsSleep ns d).bind fun x =>
        (spin t.startTime t.sleepTimeNs c x.2).map fun c' => (x.1, c')) = some (q, d') ↔
    ∃ es, (callMachine k A t).run (.sleeping c ns .entered) es
        = some (.returned true (t.advance A)) ∧
      SleepEvent.requests (slept es) = q ∧ d = readings es ++ d' := by
  have hafter : k.afterSleep A t c = .spinning c := by
    cases k with
    | freeWait => exact absurd rfl hk
    | busyWait => rfl
    | worstCase w => rfl
  rw [sleeping_iff, hafter]
  constructor
  · intro h
    obtain ⟨⟨q₁, d₁⟩, hx, h⟩ := Option.bind_eq_some_iff.mp h
    obtain ⟨c', hc', he⟩ := Option.map_eq_some_iff.mp h
    cases he
    obtain ⟨es, h1, h2, h3⟩ := spin_iff.mp hc'
    exact ⟨q₁, d₁, es, hx, h1, by rw [h2, List.append_nil], h3⟩
  · rintro ⟨q₁, d₁, es, hx, h1, rfl, rfl⟩
    obtain ⟨h2, h3, -⟩ := runs_spin d' es c h1
    rw [hx, h3]
    show (spin t.startTime t.sleepTimeNs c (readings es ++ d')).map (fun c' => (q₁, c')) = _
    rw [h2]
    show some (q₁, d') = some (q₁ ++ [], d')
    rw [List.append_nil]

theorem afterCheck_returned {timer : Timer}
    (h : (callMachine k A t).run (k.afterCheck t c) es = some (.returned ok timer)) :
    ok = true ∧ timer = t.advance A := by
  have hspin : ∀ es, (callMachine k A t).run (.spinning c) es = some (.returned ok timer) →
      ok = true ∧ timer = t.advance A := fun es h => (runs_spin [] es c h).2.2
  have hsleep : ∀ ns, (callMachine k A t).run (.sleeping c ns .entered) es
      = some (.returned ok timer) → ok = true ∧ timer = t.advance A := by
    intro ns h
    obtain ⟨_, es', _, _, h2⟩ := runs_sleep es .entered h
    cases k with
    | busyWait => exact hspin es' h2
    | worstCase w => exact hspin es' h2
    | freeWait =>
      obtain ⟨-, he⟩ := run_tick_returned h2
      cases he
      exact ⟨rfl, rfl⟩
  unfold TimerClass.afterCheck at h
  cases k with
  | busyWait => exact hspin es h
  | worstCase w =>
    by_cases hlt : sub64 t.sleepTimeNs (timespecDiffNs t.startTime c) < w
    · simp only [if_pos hlt] at h
      exact hspin es h
    · simp only [if_neg hlt] at h
      exact hsleep _ h
  | freeWait => exact hsleep _ h

theorem wait_iff {q : List Timespec} : k.wait t c d = some (q, d') ↔
    ∃ es, (callMachine k A t).run (k.afterCheck t c) es = some (.returned true (t.advance A)) ∧
      SleepEvent.requests (slept es) = q ∧ d = readings es ++ d' := by
  have hspin : ∀ k' : TimerClass,
      (spin t.startTime t.sleepTimeNs c d).map (fun c' => (([] : List Timespec), c'))
          = some (q, d') ↔
      ∃ es, (callMachine k' A t).run (.spinning c) es = some (.returned true (t.advance A)) ∧
        SleepEvent.requests (slept es) = q ∧ d = readings es ++ d' := by
    intro k'
    constructor
    · intro h
      obtain ⟨c', hc', he⟩ := Option.map_eq_some_iff.mp h
      cases he
      exact spin_iff.mp hc'
    · rintro ⟨es, h1, rfl, rfl⟩
      obtain ⟨h2, h3, -⟩ := runs_spin d' es c h1
      rw [h2, h3]
      rfl
  cases k with
  | busyWait => exact hspin .busyWait
  | worstCase w =>
    unfold TimerClass.afterCheck
    show WorstCaseTimer.wait w t c d = _ ↔ _
    unfold WorstCaseTimer.wait
    by_cases hlt : sub64 t.sleepTimeNs (timespecDiffNs t.startTime c) < w
    · simp only [if_pos hlt]
      exact hspin (.worstCase w)
    · simp only [if_neg hlt]
      exact block_spin_iff nofun
  | freeWait =>
    show nanosecondsSleep _ d = _ ↔
      ∃ es, (callMachine .freeWait A t).run (.sleeping c _ .entered) es
      = _ ∧ _
    rw [sleeping_iff]
    constructor
    · intro h
      exact ⟨q, d', [], h, rfl, (List.append_nil q).symm, rfl⟩
    · rintro ⟨q₁, d₁, es, h, h2, rfl, rfl⟩
      obtain ⟨rfl, -⟩ := run_tick_returned h2
      rw [h]
      show some (q₁, d') = some (q₁ ++ [], d')
      rw [List.append_nil]

/-- **The returned runs of the machine are the results of the function.** -/
theorem sleepToNextTick_iff {x : Tick} : k.sleepToNextTick A t d = some x ↔
    ∃ es, (callMachine k A t).run .entry es = some (.returned x.ok x.timer) ∧
      SleepEvent.requests (slept es) = x.requests ∧ d = readings es ++ x.clock := by
  rw [k.sleepToNextTick_eq]
  constructor
  · intro h
    obtain ⟨y, hy, h⟩ := Option.bind_eq_some_iff.mp h
    match d with
    | [] => cases hy
    | r :: d =>
      cases hy
      by_cases hlt : t.sleepTimeNs < timespecDiffNs t.startTime (ofNs r)
      · rw [if_pos hlt] at h
        cases h
        refine ⟨[.entry r], ?_, rfl, rfl⟩
        show (if _ then _ else _ : Option TickPc).bind _ = _
        rw [if_pos hlt]
        rfl
      · rw [if_neg hlt] at h
        obtain ⟨y, hy, rfl⟩ := Option.map_eq_some_iff.mp h
        obtain ⟨es, h1, h2, rfl⟩ := wait_iff.mp hy
        refine ⟨.entry r :: es, ?_, h2, rfl⟩
        show (if _ then _ else _ : Option TickPc).bind _ = _
        rw [if_neg hlt]
        exact h1
  · rintro ⟨es, h, hq, hd⟩
    obtain ⟨ok, timer, q, d'⟩ := x
    change d = readings es ++ d' at hd
    change SleepEvent.requests (slept es) = q at hq
    subst hd hq
    match es with
    | [] => cases h
    | e :: es =>
      obtain ⟨v, hv, h⟩ := Option.bind_eq_some_iff.mp h
      cases TickPc.step_next hv with
      | late r hlt =>
        obtain ⟨rfl, he⟩ := run_tick_returned h
        cases he
        exact if_pos hlt
      | check r hlt =>
        obtain ⟨rfl, rfl⟩ : ok = true ∧ timer = t.advance A := afterCheck_returned h
        show (if _ then _ else (k.wait t (ofNs r) (readings es ++ d')).map _ : Option Tick) = _
        rw [if_neg hlt, wait_iff.mpr ⟨es, h, rfl, rfl⟩]
        rfl

end
end RealTimeTransfer
