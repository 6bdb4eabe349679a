import RealTimeTransfer.Timers.Clock
import RealTimeTransfer.Lib.Machine

/-!
# `nanoseconds_sleep`, step by step

`sleepMachine ns` is the same function as `nanosecondsSleep ns`, one call to the system at a time:
its events are the readings of the clock and the requests made to `nanosleep`, so that what holds of
a call that has not returned yet can be said too.  A `nanosleep` returns whenever the next reading
is made: early, late, or never.

* `nanosecondsSleep_iff`  the returned runs of the machine are the results of the function;
* `SleepPc.At.step`       one step keeps the locals at the first and the last reading;
* `sleep_law`             the requests, the return and the number of retries.
-/

namespace RealTimeTransfer
open Words Machines

/-- a point of `nanoseconds_sleep`, with its locals -/
inductive SleepPc where
  | entered
  | started (start : Timespec)
  | testing (start current : Timespec)
  | asleep (start current request : Timespec)
  | returned
  deriving DecidableEq

inductive SleepEvent where
  | clockGettime (r : Nat)
  | nanosleep (request : Timespec)
  | ret
  deriving DecidableEq

namespace SleepEvent

def reading : SleepEvent → Option Nat
  | .clockGettime r => some r
  | _ => none

def request : SleepEvent → Option Timespec
  | .nanosleep q => some q
  | _ => none

def readings (es : List SleepEvent) : List Nat := es.filterMap reading
def requests (es : List SleepEvent) : List Timespec := es.filterMap request

theorem readings_append (es es' : List SleepEvent) :
    readings (es ++ es') = readings es ++ readings es' := List.filterMap_append

theorem requests_append (es es' : List SleepEvent) :
    requests (es ++ es') = requests es ++ requests es' := List.filterMap_append

end SleepEvent
open SleepEvent

def SleepPc.step (ns : Nat) : SleepPc → SleepEvent → Option SleepPc
  | .entered, .clockGettime r => some (.started (ofNs r))
  | .started s, .clockGettime r => some (.testing s (ofNs r))
  | .testing s c, .nanosleep q =>
    if timespecDiffNs s c < ns ∧ q = nsSleepTime (sub64 ns (timespecDiffNs s c)) then
      some (.asleep s c q)
    else none
  | .testing s c, .ret => if timespecDiffNs s c < ns then none else some .returned
  | .asleep s _ _, .clockGettime r => some (.testing s (ofNs r))
  | _, _ => none

def sleepMachine (ns : Nat) : Machine SleepPc SleepEvent where
  step := SleepPc.step ns

/-- what a step can be -/
inductive SleepPc.Next (ns : Nat) : SleepPc → SleepEvent → SleepPc → Prop where
  | start (r : Nat) : Next ns .entered (.clockGettime r) (.started (ofNs r))
  | measure (s : Timespec) (r : Nat) : Next ns (.started s) (.clockGettime r) (.testing s (ofNs r))
  | sleep (s c q : Timespec) : timespecDiffNs s c < ns →
      q = nsSleepTime (sub64 ns (timespecDiffNs s c)) →
      Next ns (.testing s c) (.nanosleep q) (.asleep s c q)
  | wake (s c q : Timespec) (r : Nat) :
      Next ns (.asleep s c q) (.clockGettime r) (.testing s (ofNs r))
  | ret (s c : Timespec) : ¬ timespecDiffNs s c < ns → Next ns (.testing s c) .ret .returned

theorem SleepPc.step_next {ns : Nat} {p p' : SleepPc} {e : SleepEvent}
    (h : (sleepMachine ns).step p e = some p') : p.Next ns e p' := by
  change SleepPc.step ns p e = some p' at h
  unfold SleepPc.step at h
  split at h
  · cases h
    exact .start _
  · cases h
    exact .measure _ _
  · obtain ⟨⟨hlt, hq⟩, he⟩ := Option.ite_some_none_eq_some.mp h
    cases he
    exact .sleep _ _ _ hlt hq
  · obtain ⟨hlt, he⟩ := Option.ite_none_left_eq_some.mp h
    cases he
    exact .ret _ _ hlt
  · cases h
    exact .wake _ _ _ _
  · cases h

theorem SleepPc.Next.asleep {ns : Nat} {p p' : SleepPc} {q : Timespec}
    (h : p.Next ns (.nanosleep q) p') : ∃ s c, p' = .asleep s c q := by
  cases h with
  | sleep s c _ _ _ => exact ⟨s, c, rfl⟩

/-! ## The machine and the function -/

section
variable {ns : Nat} {s c : Timespec} {d d' : List Nat} {q : List Timespec} {es : List SleepEvent}

theorem run_retry (h : timespecDiffNs s c < ns) (r : Nat) (es : List SleepEvent) :
    (sleepMachine ns).run (.testing s c)
        (.nanosleep (nsSleepTime (sub64 ns (timespecDiffNs s c))) :: .clockGettime r :: es)
      = (sleepMachine ns).run (.testing s (ofNs r)) es := by
  have h1 : (sleepMachine ns).step (.testing s c)
      (.nanosleep (nsSleepTime (sub64 ns (timespecDiffNs s c)))) = some (.asleep s c _) :=
    if_pos ⟨h, rfl⟩
  rw [Machine.run_cons, h1]
  rfl

theorem run_ret (h : ¬ timespecDiffNs s c < ns) :
    (sleepMachine ns).run (.testing s c) [.ret] = some .returned := by
  have h1 : (sleepMachine ns).step (.testing s c) .ret = some .returned := if_neg h
  rw [Machine.run_cons, h1]
  rfl

theorem sleepLoop_runs (h : sleepLoop s ns c d = some (q, d')) :
    ∃ es, (sleepMachine ns).run (.testing s c) es = some .returned ∧ requests es = q ∧
      d = readings es ++ d' := by
  induction d generalizing c q with
  | nil =>
    unfold sleepLoop at h
    obtain ⟨hlt, he⟩ := Option.ite_none_left_eq_some.mp h
    cases he
    exact ⟨[.ret], run_ret hlt, rfl, rfl⟩
  | cons r d ih =>
    unfold sleepLoop at h
    by_cases hlt : timespecDiffNs s c < ns
    · rw [if_pos hlt] at h
      obtain ⟨x, hx, he⟩ := Option.map_eq_some_iff.mp h
      cases he
      obtain ⟨es, h1, h2, h3⟩ := ih hx
      refine ⟨.nanosleep (nsSleepTime (sub64 ns (timespecDiffNs s c))) :: .clockGettime r :: es,
        (run_retry hlt r es).trans h1, ?_, ?_⟩
      · rw [← h2]
        rfl
      · rw [h3]
        rfl
    · rw [if_neg hlt] at h
      cases h
      exact ⟨[.ret], run_ret hlt, rfl, rfl⟩

theorem run_returned {p : SleepPc} (h : (sleepMachine ns).run .returned es = some p) : es = [] := by
  cases es with
  | nil => rfl
  | cons e es =>
    obtain ⟨v, hv, -⟩ := Option.bind_eq_some_iff.mp h
    cases SleepPc.step_next hv

theorem runs_sleepLoop (es : List SleepEvent) (c : Timespec)
    (h : (sleepMachine ns).run (.testing s c) es = some .returned) :
    sleepLoop s ns c (readings es ++ d') = some (requests es, d') := by
  match es with
  | [] => cases h
  | e :: es =>
    obtain ⟨v, hv, h⟩ := Option.bind_eq_some_iff.mp h
    cases SleepPc.step_next hv with
    | ret _ _ hlt =>
      cases run_returned h
      show sleepLoop s ns c d' = some ([], d')
      cases d' <;> exact if_neg hlt
    | sleep _ _ q hlt hq =>
      subst hq
      match es with
      | [] => cases h
      | e :: es =>
        obtain ⟨v, hv, h⟩ := Option.bind_eq_some_iff.mp h
        cases SleepPc.step_next hv with
        | wake _ _ _ r =>
          have ih := runs_sleepLoop es (ofNs r) h
          show sleepLoop s ns c (r :: (readings es ++ d')) = _
          unfold sleepLoop
          rw [if_pos hlt, ih]
          rfl

/-- **The returned runs of the machine are the results of the function.** -/
theorem nanosecondsSleep_iff : nanosecondsSleep ns d = some (q, d') ↔
    ∃ es, (sleepMachine ns).run .entered es = some .returned ∧ requests es = q ∧
      d = readings es ++ d' := by
  constructor
  · intro h
    obtain ⟨x, hx, h⟩ := Option.bind_eq_some_iff.mp h
    obtain ⟨y, hy, h⟩ := Option.bind_eq_some_iff.mp h
    match d with
    | [] => cases hx
    | [a] =>
      cases hx
      cases hy
    | a :: b :: d =>
      cases hx
      cases hy
      obtain ⟨es, h1, h2, rfl⟩ := sleepLoop_runs h
      exact ⟨.clockGettime a :: .clockGettime b :: es, h1, h2, rfl⟩
  · rintro ⟨es, h, rfl, rfl⟩
    match es with
    | [] => cases h
    | e :: es =>
      obtain ⟨v, hv, h⟩ := Option.bind_eq_some_iff.mp h
      cases SleepPc.step_next hv with
      | start a =>
        match es with
        | [] => cases h
        | e :: es =>
          obtain ⟨v, hv, h⟩ := Option.bind_eq_some_iff.mp h
          cases SleepPc.step_next hv with
          | measure _ b => exact runs_sleepLoop es (ofNs b) h

end

/-! ## Readings in order -/

/-- `a` and `b` are the first and the last of the readings `l` -/
def Span (l : List Nat) (a b : Nat) : Prop := l.head? = some a ∧ l.getLast? = some b

theorem After.span {e a b : Nat} {l : List Nat} (h : After e l) (hs : Span l a b) :
    a ≤ b ∧ b < 2^63 := by
  cases l with
  | nil => cases hs.1
  | cons r l =>
    cases hs.1
    have hr : After a (a :: l) := ⟨le_rfl, h.2⟩
    exact hr.mem (List.mem_of_getLast? hs.2)

theorem Span.snoc {l : List Nat} {a b : Nat} (h : Span l a b) (r : Nat) : Span (l ++ [r]) a r := by
  refine ⟨?_, ?_⟩
  · rw [List.head?_append, h.1]
    rfl
  · rw [List.getLast?_concat]

theorem Span.grow {e a b a' b' : Nat} {l l' : List Nat} (h : Span l a b)
    (h' : Span (l ++ l') a' b') (hc : After e (l ++ l')) : a' = a ∧ b ≤ b' := by
  obtain ⟨ha, hb⟩ := h'
  rw [List.head?_append, h.1] at ha
  refine ⟨(Option.some.inj ha).symm, ?_⟩
  cases l' with
  | nil =>
    rw [List.append_nil, h.2] at hb
    exact (Option.some.inj hb).le
  | cons r l' =>
    rw [List.getLast?_append_cons] at hb
    exact ((hc.after_mem (List.mem_of_getLast? h.2)).mem (List.mem_of_getLast? hb)).1

/-! ## The locals of a call -/

theorem nsSleepTime_eq {m : Nat} (h : m < 2^64) : nsSleepTime m = ofNs m := by
  unfold nsSleepTime
  rw [nsToSec_eq, secToNs_one, toS_of_range (by decide) (by omega) (by omega),
    toS_of_range (by decide) (by omega) (by omega)]
  rfl

/-- the locals of a call at `p` are the first and the last of its readings `l`; a request denotes
the time still missing -/
def SleepPc.At (ns : Nat) (l : List Nat) : SleepPc → Prop
  | .entered => l = []
  | .started s => ∃ a, l = [a] ∧ s = ofNs a
  | .testing s c => ∃ a b, Span l a b ∧ s = ofNs a ∧ c = ofNs b
  | .asleep s c q => ∃ a b, Span l a b ∧ s = ofNs a ∧ c = ofNs b ∧ b - a < ns ∧
      q = ofNs (ns - (b - a))
  | .returned => ∃ a b, Span l a b ∧ ns ≤ b - a

section
variable {ns : Nat} {p p' : SleepPc} {e : SleepEvent} {es es₁ es₂ es₃ : List SleepEvent}
  {q q' : Timespec}

/-- **One step.** -/
theorem SleepPc.At.step (hns : ns < 2^64) (h : p.At ns (readings es))
    (hc : After 0 (readings (es ++ [e]))) (hs : (sleepMachine ns).step p e = some p') :
    p'.At ns (readings (es ++ [e])) := by
  rw [readings_append] at hc ⊢
  cases SleepPc.step_next hs with
  | start r =>
    rw [show readings es = [] from h]
    exact ⟨r, rfl, rfl⟩
  | measure s r =>
    obtain ⟨a, hl, hs⟩ := h
    rw [hl]
    exact ⟨a, r, ⟨rfl, rfl⟩, hs, rfl⟩
  | sleep s c q hlt hq =>
    obtain ⟨a, b, hab, rfl, rfl⟩ := h
    obtain ⟨hle, hb⟩ := hc.of_append.span hab
    rw [timespecDiffNs_ofNs hle hb] at hlt hq
    rw [sub64_eq hlt.le hns, nsSleepTime_eq (by omega)] at hq
    show SleepPc.At ns (readings es ++ []) (.asleep (ofNs a) (ofNs b) q)
    rw [List.append_nil]
    exact ⟨a, b, hab, rfl, rfl, hlt, hq⟩
  | wake s c q r =>
    obtain ⟨a, b, hab, hs, -, -, -⟩ := h
    exact ⟨a, r, hab.snoc r, hs, rfl⟩
  | ret s c hlt =>
    obtain ⟨a, b, hab, rfl, rfl⟩ := h
    obtain ⟨hle, hb⟩ := hc.of_append.span hab
    rw [timespecDiffNs_ofNs hle hb] at hlt
    show SleepPc.At ns (readings es ++ []) .returned
    rw [List.append_nil]
    exact ⟨a, b, hab, Nat.le_of_not_lt hlt⟩

theorem sleep_at (hns : ns < 2^64) (hr : (sleepMachine ns).run .entered es = some p)
    (hc : After 0 (readings es)) : p.At ns (readings es) := by
  refine (Machine.runs_of_run hr).follows
    (fun l w => After 0 (readings l) → SleepPc.At ns (readings l) w) (fun _ => rfl) ?_ hc
  intro l w e w' hw _ hs hc
  refine SleepPc.At.step hns (hw ?_) hc hs
  rw [readings_append] at hc
  exact hc.of_append

/-- **A request** is what is missing at the reading before it. -/
theorem request_eq (hns : ns < 2^64) (hr : (sleepMachine ns).run .entered es = some p)
    (hc : After 0 (readings es)) (hes : es = es₁ ++ .nanosleep q :: es₂) :
    ∃ a b, Span (readings es₁) a b ∧ a ≤ b ∧ b < 2^63 ∧ b - a < ns ∧ q = ofNs (ns - (b - a)) := by
  rw [hes] at hr hc
  obtain ⟨v, w, hv, hw, -⟩ := Machine.run_cut hr
  rw [readings_append] at hc
  have hl : readings (es₁ ++ [.nanosleep q]) = readings es₁ := by
    rw [readings_append]
    exact List.append_nil _
  have hat := (sleep_at hns hv hc.of_append).step hns (by rw [hl]; exact hc.of_append) hw
  rw [hl] at hat
  obtain ⟨s, c, rfl⟩ := (SleepPc.step_next hw).asleep
  obtain ⟨a, b, hab, -, -, hlt, hq⟩ := hat
  obtain ⟨h1, h2⟩ := hc.of_append.span hab
  exact ⟨a, b, hab, h1, h2, hlt, hq⟩

/-! ## Retries -/

/-- every `nanosleep` advances the clock -/
def Advancing : SleepPc → SleepEvent → Prop
  | .asleep _ c _, .clockGettime r => c.ns < r
  | _, _ => True

instance : (p : SleepPc) → (e : SleepEvent) → Decidable (Advancing p e)
  | .asleep _ c _, .clockGettime r => inferInstanceAs (Decidable (c.ns < r))
  | .asleep _ _ _, .nanosleep _ => .isTrue trivial
  | .asleep _ _ _, .ret => .isTrue trivial
  | .entered, _ => .isTrue trivial
  | .started _, _ => .isTrue trivial
  | .testing _ _, _ => .isTrue trivial
  | .returned, _ => .isTrue trivial

/-- the steps of a call at `p` that has made `n` requests -/
def SleepPc.steps (n : Nat) : SleepPc → Nat
  | .entered => 0
  | .started _ => 1
  | .testing _ _ => 2 * n + 2
  | .asleep _ _ _ => 2 * n + 1
  | .returned => 2 * n + 3

theorem SleepPc.steps_le (n : Nat) (p : SleepPc) : p.steps n ≤ 2 * n + 3 := by
  cases p <;> simp only [SleepPc.steps] <;> omega

/-- no request has been made before the loop -/
def SleepPc.Fresh (n : Nat) : SleepPc → Prop
  | .entered | .started _ => n = 0
  | _ => True

theorem sleep_length (hr : (sleepMachine ns).run .entered es = some p) :
    es.length = p.steps (requests es).length ∧ p.Fresh (requests es).length := by
  refine (Machine.runs_of_run hr).follows (fun l w =>
    l.length = SleepPc.steps (requests l).length w ∧ SleepPc.Fresh (requests l).length w)
    ⟨rfl, rfl⟩ ?_
  rintro l w e w' ⟨hlen, hfresh⟩ _ hs
  rw [requests_append, List.length_append, List.length_append, hlen]
  cases SleepPc.step_next hs with
  | start r => exact ⟨rfl, hfresh⟩
  | measure s r =>
    rw [show (requests l).length = 0 from hfresh]
    exact ⟨rfl, trivial⟩
  | sleep s c q _ _ => exact ⟨rfl, trivial⟩
  | wake s c q r => exact ⟨rfl, trivial⟩
  | ret s c _ => exact ⟨rfl, trivial⟩

/-- on a clock that every `nanosleep` advances, the requests made by a call at `p` -/
def SleepPc.Paced (ns n : Nat) : SleepPc → Prop
  | .testing s c => n ≤ ns ∧ s.ns + n ≤ c.ns
  | .asleep s c _ => n ≤ ns ∧ s.ns + n ≤ c.ns + 1
  | .returned => n ≤ ns
  | _ => n = 0

theorem SleepPc.At.testing_le {s c : Timespec} {l : List Nat}
    (h : (SleepPc.testing s c).At ns l) (hc : After 0 l) : s.ns ≤ c.ns := by
  obtain ⟨a, b, hab, rfl, rfl⟩ := h
  rw [ns_ofNs, ns_ofNs]
  exact_mod_cast (hc.span hab).1

theorem SleepPc.At.asleep_lt {s c q : Timespec} {l : List Nat}
    (h : (SleepPc.asleep s c q).At ns l) (hc : After 0 l) : c.ns < s.ns + ns := by
  obtain ⟨a, b, hab, rfl, rfl, hlt, -⟩ := h
  have hle := (hc.span hab).1
  rw [ns_ofNs, ns_ofNs]
  omega

theorem sleep_paced (hns : ns < 2^64) (hr : (sleepMachine ns).Runs Advancing .entered es p)
    (hc : After 0 (readings es)) : p.Paced ns (requests es).length := by
  have key := hr.follows (fun l w => After 0 (readings l) →
    SleepPc.At ns (readings l) w ∧ SleepPc.Paced ns (requests l).length w) (fun _ => ⟨rfl, rfl⟩) ?_
  · exact (key hc).2
  intro l w e w' ih hadv hs hc
  have hbefore := hc
  rw [readings_append] at hbefore
  obtain ⟨hat, hn⟩ := ih hbefore.of_append
  have hat' := hat.step hns hc hs
  refine ⟨hat', ?_⟩
  rw [requests_append, List.length_append]
  cases SleepPc.step_next hs with
  | start r => exact hn
  | measure s r =>
    have hle := hat'.testing_le hc
    show (requests l).length ≤ ns ∧ s.ns + (requests l).length ≤ (ofNs r).ns
    rw [show (requests l).length = 0 from hn]
    exact ⟨Nat.zero_le _, by omega⟩
  | sleep s c q _ _ =>
    obtain ⟨h1, h2⟩ := hn
    have hlt := hat'.asleep_lt hc
    show (requests l).length + 1 ≤ ns ∧ s.ns + ((requests l).length + 1 : Nat) ≤ c.ns + 1
    constructor <;> omega
  | wake s c q r =>
    obtain ⟨h1, h2⟩ := hn
    have hadv : c.ns < r := hadv
    show (requests l).length ≤ ns ∧ s.ns + (requests l).length ≤ (ofNs r).ns
    rw [ns_ofNs]
    exact ⟨h1, by omega⟩
  | ret s c _ => exact hn.1

theorem sleep_goes_on (hp : p ≠ .returned) (r : Nat) :
    ∃ e p', (sleepMachine ns).step p e = some p' ∧
    ∀ r', e.reading = some r' → r' = r := by
  have hread : ∀ r', (SleepEvent.clockGettime r).reading = some r' → r' = r :=
    fun r' h => (Option.some.inj h).symm
  cases p with
  | entered => exact ⟨.clockGettime r, _, rfl, hread⟩
  | started s => exact ⟨.clockGettime r, _, rfl, hread⟩
  | testing s c =>
    by_cases hlt : timespecDiffNs s c < ns
    · exact ⟨.nanosleep _, _, if_pos ⟨hlt, rfl⟩, nofun⟩
    · exact ⟨.ret, _, if_neg hlt, nofun⟩
  | asleep s c q => exact ⟨.clockGettime r, _, rfl, hread⟩
  | returned => exact absurd rfl hp

/-- **`nanoseconds_sleep` sleeps at least as long as asked, under any interruption.**  Every request
is valid and denotes the time still missing, computed without underflow, so requests never increase;
the call returns only at a reading `ns` after its first one; and if every `nanosleep` advances the
clock, it makes at most `ns` of them and returns. -/
theorem sleep_law (hns : ns < 2^64) (hr : (sleepMachine ns).run .entered es = some p)
    (hc : After 0 (readings es)) :
    (∀ es₁ q es₂, es = es₁ ++ .nanosleep q :: es₂ → ∃ a b, Span (readings es₁) a b ∧
        (timespecDiffNs (ofNs a) (ofNs b) : Int) = b - a ∧
        (sub64 ns (timespecDiffNs (ofNs a) (ofNs b)) : Int) = ns - (b - a : Int) ∧
        q.Normalised ∧ q.ns = ns - (b - a : Int)) ∧
      (∀ es₁ q es₂ q' es₃, es = es₁ ++ .nanosleep q :: (es₂ ++ .nanosleep q' :: es₃) →
        q'.ns ≤ q.ns) ∧
      (p = .returned → ∃ a b, Span (readings es) a b ∧ a + ns ≤ b) ∧
      (p = .returned ∨ ∀ r, ∃ e p', (sleepMachine ns).step p e = some p' ∧
        ∀ r', e.reading = some r' → r' = r) ∧
      ((sleepMachine ns).Runs Advancing .entered es p →
        (requests es).length ≤ ns ∧ es.length ≤ 2 * ns + 3) := by
  refine ⟨?_, ?_, ?_, ?_, ?_⟩
  · intro es₁ q es₂ hes
    obtain ⟨a, b, hab, hle, hb, hlt, rfl⟩ := request_eq hns hr hc hes
    refine ⟨a, b, hab, ?_⟩
    rw [timespecDiffNs_ofNs hle hb, sub64_eq hlt.le hns, ns_ofNs]
    exact ⟨by omega, by omega, normalised_ofNs (by omega), by omega⟩
  · intro es₁ q es₂ q' es₃ hes
    have hes' : es = (es₁ ++ .nanosleep q :: es₂) ++ .nanosleep q' :: es₃ := by
      rw [hes, List.append_assoc]
      rfl
    obtain ⟨a, b, hab, hle, hb, hlt, rfl⟩ := request_eq hns hr hc hes
    obtain ⟨a', b', hab', hle', hb', hlt', rfl⟩ := request_eq hns hr hc hes'
    rw [hes', readings_append] at hc
    rw [readings_append] at hab'
    obtain ⟨ha, hbb⟩ := hab.grow hab' (readings_append _ _ ▸ hc.of_append)
    rw [ns_ofNs, ns_ofNs]
    omega
  · rintro rfl
    obtain ⟨a, b, hab, hle⟩ := sleep_at hns hr hc
    have h := (hc.span hab).1
    exact ⟨a, b, hab, by omega⟩
  · by_cases hp : p = .returned
    · exact .inl hp
    · exact .inr (sleep_goes_on hp)
  · intro hadv
    obtain ⟨hlen, -⟩ := sleep_length hr
    have hpaced := sleep_paced hns hadv hc
    have hle : (requests es).length ≤ ns := by
      cases p with
      | entered => exact le_of_eq_of_le hpaced (Nat.zero_le _)
      | started s => exact le_of_eq_of_le hpaced (Nat.zero_le _)
      | testing s c => exact hpaced.1
      | asleep s c q => exact hpaced.1
      | returned => exact hpaced
    refine ⟨hle, ?_⟩
    have h := SleepPc.steps_le (requests es).length p
    omega

/-- a sleep of 5 ns, interrupted after 2 -/
def interruptedSleep : List SleepEvent :=
  [.clockGettime 10, .clockGettime 10, .nanosleep ⟨0, 5⟩, .clockGettime 12, .nanosleep ⟨0, 3⟩,
    .clockGettime 15, .ret]

theorem sleep_law_interrupted :
    (sleepMachine 5).run .entered interruptedSleep = some .returned ∧
      (∃ a b, Span (readings interruptedSleep) a b ∧ a + 5 ≤ b) ∧
      (requests interruptedSleep).length ≤ 5 := by
  have hadv : ((sleepMachine 5).restrict Advancing).run .entered interruptedSleep
      = some .returned := by decide
  have hruns := Machine.Runs.of_restrict hadv
  have hc : After 0 (readings interruptedSleep) := by
    show After 0 [10, 10, 12, 15]
    simp [After]
  obtain ⟨-, -, h3, -, h5⟩ := sleep_law (by decide) hruns.run_eq hc
  exact ⟨hruns.run_eq, h3 rfl, (h5 hruns).1⟩

end
end RealTimeTransfer
