import RealTimeTransfer.Timers.Safety

/-!
# Blocking costs no precision

`OnTime w` is a system whose worst delay is `w` ns: time passes only inside `nanosleep` and between
the readings of a spin, and a `nanosleep` returns at most `w` ns after the end of the duration it
was asked for, or at any time before (interrupted).

* `NoLater.step`        `nanoseconds_sleep` reads nothing after the target, retries included;
* `worst_case_precise`  a `WorstCaseTimer` returns where a `BusyWaitTimer` does.
-/

namespace RealTimeTransfer
open Words Machines TickEvent

/-- the latest time of the next reading, where the system promises one -/
def TickPc.dueBy (w : Nat) : TickPc → Option Int
  | .sleeping current _ .entered => some current.ns
  | .sleeping _ _ (.started s) => some s.ns
  | .sleeping _ _ (.asleep _ c q) => some (c.ns + q.ns + w)
  | _ => none

/-- the reading of the event `e`, made at `p`, is not late -/
def OnTime (w : Nat) (p : TickPc) (e : TickEvent) : Prop :=
  ∀ b ∈ p.dueBy w, ∀ r ∈ e.reading, (r : Int) ≤ b

instance (w : Nat) (p : TickPc) (e : TickEvent) : Decidable (OnTime w p e) :=
  inferInstanceAs (Decidable (∀ b ∈ p.dueBy w, ∀ r ∈ e.reading, (r : Int) ≤ b))

/-- nothing read inside `nanoseconds_sleep` is after `B`, and its first reading is the entry one -/
def NoLater (B : Nat) (es : List TickEvent) (p : TickPc) : Prop :=
  (∀ r ∈ SleepEvent.readings (slept es), r ≤ B) ∧
    ∀ cur ns q, p = .sleeping cur ns q →
      ∀ a, (SleepEvent.readings (slept es)).head? = some a → cur = ofNs a

section
variable {A : FastInts} {t : Timer} {w base B e ns : Nat} {p p' : TickPc} {q q' : SleepPc}
  {es : List TickEvent} {ev : TickEvent} {e' : SleepEvent}

theorem ofNs_injective {a b : Nat} (h : ofNs a = ofNs b) : a = b := by
  have h' := congrArg Timespec.ns h
  rw [ns_ofNs, ns_ofNs] at h'
  exact_mod_cast h'

theorem NoLater.inside (h : NoLater B es (.sleeping (ofNs e) ns q)) (he : e ≤ B)
    (hns : e + ns + w = B) (hat : q.At ns (SleepEvent.readings (slept es)))
    (hc : After e (SleepEvent.readings (slept es ++ [e'])))
    (hw : OnTime w (.sleeping (ofNs e) ns q) (.sleep e'))
    (hs : (sleepMachine ns).step q e' = some q') :
    (∀ r ∈ SleepEvent.readings (slept es ++ [e']), r ≤ B) ∧
      ∀ a, (SleepEvent.readings (slept es ++ [e'])).head? = some a → ofNs e = ofNs a := by
  obtain ⟨hle, hhead⟩ := h
  have hfirst := hhead _ _ _ rfl
  rw [SleepEvent.readings_append] at hc ⊢
  generalize SleepEvent.readings (slept es) = l at *
  cases SleepPc.step_next hs with
  | start r =>
    obtain rfl : l = [] := hat
    have hr : (r : Int) ≤ e := (hw _ rfl r rfl).trans_eq (ns_ofNs e)
    have her : e ≤ r := hc.1
    obtain rfl : r = e := by omega
    refine ⟨fun x hx => ?_, fun a ha => ?_⟩
    · rw [List.mem_singleton.mp hx]
      exact he
    · cases ha
      rfl
  | measure s r =>
    obtain ⟨a, rfl, rfl⟩ := hat
    have hr : (r : Int) ≤ a := (hw _ rfl r rfl).trans_eq (ns_ofNs a)
    have ha : a ≤ B := hle a List.mem_cons_self
    have hrB : r ≤ B := by omega
    refine ⟨List.forall_mem_append.mpr ⟨hle, List.forall_mem_singleton.mpr hrB⟩, fun b hb => ?_⟩
    cases hb
    exact hfirst a rfl
  | sleep s c q _ _ =>
    rw [show l ++ SleepEvent.readings [SleepEvent.nanosleep q] = l from List.append_nil l]
    exact ⟨hle, hfirst⟩
  | wake s c q r =>
    obtain ⟨a, b, hab, rfl, rfl, hlt, rfl⟩ := hat
    obtain rfl : e = a := ofNs_injective (hfirst a hab.1)
    have hr : (r : Int) ≤ (ofNs b).ns + (ofNs (ns - (b - e))).ns + w := hw _ rfl r rfl
    rw [ns_ofNs, ns_ofNs] at hr
    have hb : e ≤ b := (hc.of_append.span hab).1
    have hrB : r ≤ B := by omega
    refine ⟨List.forall_mem_append.mpr ⟨hle, List.forall_mem_singleton.mpr hrB⟩, fun x hx => ?_⟩
    rw [List.head?_append, hab.1] at hx
    cases hx
    rfl
  | ret s c _ =>
    rw [show l ++ SleepEvent.readings [SleepEvent.ret] = l from List.append_nil l]
    exact ⟨hle, hfirst⟩

/-- **One step of a `WorstCaseTimer`, on time.** -/
theorem NoLater.step (h : NoLater B es p) (hat : p.At (.worstCase w) A t B es)
    (hc : After base (readings (es ++ [ev]))) (hw : OnTime w p ev)
    (hs : (callMachine (.worstCase w) A t).step p ev = some p') : NoLater B (es ++ [ev]) p' := by
  have inside : ∀ cur ns q e' q', p = .sleeping cur ns q → ev = .sleep e' →
      (sleepMachine ns).step q e' = some q' →
      (∀ r ∈ SleepEvent.readings (slept (es ++ [ev])), r ≤ B) ∧
        ∀ a, (SleepEvent.readings (slept (es ++ [ev]))).head? = some a → cur = ofNs a := by
    rintro cur ns q e' q' rfl rfl hq
    obtain ⟨e, rfl, he, hk, -, hread, hat, -⟩ := hat
    obtain ⟨hlt, hns⟩ := Option.ite_none_left_eq_some.mp hk
    have hns := Option.some.inj hns
    have hafter : After e (SleepEvent.readings (slept es ++ [e'])) := by
      rw [readings_append, hread] at hc
      rw [SleepEvent.readings_append]
      exact hc.2
    rw [slept_append]
    exact h.inside he (by omega) hat hafter hw hq
  have outside : slept (es ++ [ev]) = slept es → (∀ cur ns q, p' ≠ .sleeping cur ns q) →
      NoLater B (es ++ [ev]) p' := by
    intro hes hp
    refine ⟨?_, fun cur ns q hq => absurd hq (hp cur ns q)⟩
    rw [hes]
    exact h.1
  cases TickPc.step_next hs with
  | late r _ => exact outside (by rw [slept_append]; exact List.append_nil _) nofun
  | check r _ =>
    obtain rfl : es = [] := hat
    exact ⟨nofun, fun _ _ _ _ => nofun⟩
  | sleep cur ns q q' e' hq _ =>
    obtain ⟨h1, h2⟩ := inside cur ns q e' q' rfl rfl hq
    refine ⟨h1, fun _ _ _ he => ?_⟩
    cases he
    exact h2
  | awake cur ns q e' hq => exact ⟨(inside cur ns q e' .returned rfl rfl hq).1, nofun⟩
  | spin cur r _ => exact outside (by rw [slept_append]; exact List.append_nil _) nofun
  | ret cur _ => exact outside (by rw [slept_append]; exact List.append_nil _) nofun

end

end RealTimeTransfer
