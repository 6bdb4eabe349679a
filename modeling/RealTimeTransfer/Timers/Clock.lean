import RealTimeTransfer.Timers.Timespec

/-!
# The monotonic clock and the sleep functions

A program sees the clock through its readings.  `List Nat` holds the readings (in ns) still to be
made: `clockGettime` takes the first one, and a loop that outlasts the list has not returned
(`none`).  How late a wake-up is, and how early `nanosleep` returns, is what the next reading says.

`After e c` is the promise of `CLOCK_MONOTONIC`: no reading of `c` is before `e`, they never
decrease, and they stay below `2^63` ns.

* `spin_spec`              a busy wait returns at a reading at or after its target;
* `nanosecondsSleep_spec`  so does `nanoseconds_sleep`, counted from the reading before it.
-/

namespace RealTimeTransfer
open Words

/-- the readings `c` to come after the reading `e` -/
def After : Nat → List Nat → Prop
  | e, [] => e < 2^63
  | e, r :: rs => e ≤ r ∧ After r rs

theorem After.lt {e : Nat} {c : List Nat} (h : After e c) : e < 2^63 := by
  induction c generalizing e with
  | nil => exact h
  | cons r rs ih => exact lt_of_le_of_lt h.1 (ih h.2)

theorem After.mono {e e' : Nat} {c : List Nat} (h : After e c) (he : e' ≤ e) : After e' c := by
  cases c with
  | nil => exact lt_of_le_of_lt he h
  | cons r rs => exact ⟨le_trans he h.1, h.2⟩

theorem After.mem {e r : Nat} {l : List Nat} (h : After e l) (hr : r ∈ l) : e ≤ r ∧ r < 2^63 := by
  induction l generalizing e with
  | nil => cases hr
  | cons r' l ih =>
    rcases List.mem_cons.mp hr with rfl | hr
    · exact ⟨h.1, h.2.lt⟩
    · obtain ⟨h1, h2⟩ := ih h.2 hr
      exact ⟨le_trans h.1 h1, h2⟩

theorem After.of_append {e : Nat} {l l' : List Nat} (h : After e (l ++ l')) : After e l := by
  induction l generalizing e with
  | nil => exact h.lt
  | cons r l ih => exact ⟨h.1, ih h.2⟩

theorem After.skip {e : Nat} {l l' : List Nat} (h : After e (l ++ l')) : After e l' := by
  induction l generalizing e with
  | nil => exact h
  | cons r l ih => exact (ih h.2).mono h.1

theorem After.after_mem {e r : Nat} {l l' : List Nat} (h : After e (l ++ l')) (hr : r ∈ l) :
    After r l' := by
  induction l generalizing e with
  | nil => cases hr
  | cons r' l ih =>
    rcases List.mem_cons.mp hr with rfl | hr
    · exact After.skip h.2
    · exact ih h.2 hr

/-- the readings of a run: non-decreasing and below `2^63` ns -/
structure Clock where
  first : Nat
  rest : List Nat
  ordered : After first rest

def Clock.readings (C : Clock) : List Nat := C.first :: C.rest

/-- `clock_gettime(CLOCK_MONOTONIC, ..)` -/
def clockGettime : List Nat → Option (Timespec × List Nat)
  | [] => none
  | r :: rs => some (ofNs r, rs)

/-- `while(TIMESPEC_DIFF_NS(start, current) < ns) clock_gettime(CLOCK_MONOTONIC, &current);` -/
def spin (start : Timespec) (ns : Nat) : Timespec → List Nat → Option (List Nat)
  | current, [] => if timespecDiffNs start current < ns then none else some []
  | current, r :: rs =>
    if timespecDiffNs start current < ns then spin start ns (ofNs r) rs else some (r :: rs)

/-- subtraction of two `uint_fast64_t` -/
def sub64 (a b : Nat) : Nat := toU 64 ((a : Int) - b)

theorem sub64_eq {a b : Nat} (h : b ≤ a) (ha : a < 2^64) : sub64 a b = a - b := by
  unfold sub64
  rw [← Nat.cast_sub h]
  exact toU_of_lt (by omega)

/-- the timespec that `nanoseconds_sleep` passes to `nanosleep` -/
def nsSleepTime (missing : Nat) : Timespec :=
  ⟨toS 64 (nsToSec missing), toS 64 (missing % secToNs 1 : Nat)⟩

/-- the retry loop of `nanoseconds_sleep`: the requests made to `nanosleep`, and the clock left -/
def sleepLoop (start : Timespec) (ns : Nat) :
    Timespec → List Nat → Option (List Timespec × List Nat)
  | current, [] => if timespecDiffNs start current < ns then none else some ([], [])
  | current, r :: rs =>
    if timespecDiffNs start current < ns then
      (sleepLoop start ns (ofNs r) rs).map fun x =>
        (nsSleepTime (sub64 ns (timespecDiffNs start current)) :: x.1, x.2)
    else some ([], r :: rs)

/-- `nanoseconds_sleep` -/
def nanosecondsSleep (ns : Nat) (c : List Nat) : Option (List Timespec × List Nat) :=
  (clockGettime c).bind fun s => (clockGettime s.2).bind fun x => sleepLoop s.1 ns x.1 x.2

/-- **A busy wait returns at a reading at or after its target.** -/
theorem spin_spec {base ns e : Nat} {c c' : List Nat} (hb : base ≤ e) (hc : After e c)
    (h : spin (ofNs base) ns (ofNs e) c = some c') :
    ∃ l, e ≤ l ∧ base + ns ≤ l ∧ After l c' := by
  induction c generalizing e with
  | nil =>
    unfold spin at h
    rw [timespecDiffNs_ofNs hb hc.lt] at h
    by_cases hlt : e - base < ns
    · rw [if_pos hlt] at h; cases h
    · rw [if_neg hlt] at h; cases h
      exact ⟨e, le_rfl, by omega, hc⟩
  | cons r rs ih =>
    unfold spin at h
    rw [timespecDiffNs_ofNs hb hc.lt] at h
    by_cases hlt : e - base < ns
    · rw [if_pos hlt] at h
      obtain ⟨l, h1, h2, h3⟩ := ih (le_trans hb hc.1) hc.2 h
      exact ⟨l, le_trans hc.1 h1, h2, h3⟩
    · rw [if_neg hlt] at h; cases h
      exact ⟨e, le_rfl, by omega, hc⟩

theorem sleepLoop_spec {base ns e : Nat} {c c' : List Nat} {q : List Timespec} (hb : base ≤ e)
    (hc : After e c) (h : sleepLoop (ofNs base) ns (ofNs e) c = some (q, c')) :
    ∃ l, e ≤ l ∧ base + ns ≤ l ∧ After l c' := by
  induction c generalizing e q with
  | nil =>
    unfold sleepLoop at h
    rw [timespecDiffNs_ofNs hb hc.lt] at h
    by_cases hlt : e - base < ns
    · rw [if_pos hlt] at h; cases h
    · rw [if_neg hlt] at h; cases h
      exact ⟨e, le_rfl, by omega, hc⟩
  | cons r rs ih =>
    unfold sleepLoop at h
    rw [timespecDiffNs_ofNs hb hc.lt] at h
    by_cases hlt : e - base < ns
    · rw [if_pos hlt] at h
      obtain ⟨x, hx, he⟩ := Option.map_eq_some_iff.mp h
      cases he
      obtain ⟨l, h1, h2, h3⟩ := ih (le_trans hb hc.1) hc.2 hx
      exact ⟨l, le_trans hc.1 h1, h2, h3⟩
    · rw [if_neg hlt] at h; cases h
      exact ⟨e, le_rfl, by omega, hc⟩

/-- **`nanoseconds_sleep` sleeps at least as long as it is asked to.** -/
theorem nanosecondsSleep_spec {ns e : Nat} {c c' : List Nat} {q : List Timespec} (hc : After e c)
    (h : nanosecondsSleep ns c = some (q, c')) : ∃ l, e + ns ≤ l ∧ After l c' := by
  unfold nanosecondsSleep at h
  obtain ⟨s, hs, h⟩ := Option.bind_eq_some_iff.mp h
  obtain ⟨x, hx, h⟩ := Option.bind_eq_some_iff.mp h
  cases c with
  | nil => cases hs
  | cons r rs =>
    cases hs
    cases rs with
    | nil => cases hx
    | cons r' rs' =>
      cases hx
      obtain ⟨l, _, h2, h3⟩ := sleepLoop_spec hc.2.1 hc.2.2 h
      exact ⟨l, by have := hc.1; omega, h3⟩

end RealTimeTransfer
