import Mathlib.Data.List.Induction
import Mathlib.Tactic.Common

/-!
# Guarded machines, their runs and their invariants

A machine is a step function `step : S → E → Option S`: the state after the event `e`, and `none`
where `e` cannot happen.  The events carry every outside choice (an answer, a scheduling decision,
a clock reading), so a run is the list of its events and can be replayed.

* `Machine.run`       replay of a list of events;
* `Machine.Runs ok`   the runs all of whose steps meet the condition `ok` (on the state before
                      the step and the event); `Always` is the trivial condition;
* `Runs.keeps`        an inductive invariant holds at the end of every such run;
* `Runs.follows`      the same for a relation between the events so far and the state;
* `Runs.project`      a machine whose steps are runs of another one is simulated by it;
* `Machine.Happened`  some step of a replay was such.
-/

namespace Machines

/-- a guarded machine -/
structure Machine (S E : Type*) where
  step : S → E → Option S

namespace Machine
variable {S E : Type*} (M : Machine S E)

/-- replay of the events `es` from `s` -/
def run : S → List E → Option S
  | s, [] => some s
  | s, e :: es => (M.step s e).bind fun t => run t es

/-- `M.Runs ok s es t`: the events `es` lead from `s` to `t`, every step of them meeting `ok` -/
inductive Runs (ok : S → E → Prop) (s : S) : List E → S → Prop where
  | nil : Runs ok s [] s
  | snoc {es : List E} {t u : S} {e : E} :
      Runs ok s es t → ok t e → M.step t e = some u → Runs ok s (es ++ [e]) u

/-- the condition met by every step -/
def Always : S → E → Prop := fun _ _ => True

theorem run_cons (s : S) (e : E) (es : List E) :
    M.run s (e :: es) = (M.step s e).bind fun t => M.run t es := rfl

theorem run_append (s : S) (es es' : List E) :
    M.run s (es ++ es') = (M.run s es).bind fun t => M.run t es' := by
  induction es generalizing s with
  | nil => rfl
  | cons e es ih =>
    rw [List.cons_append, run_cons, run_cons]
    cases M.step s e with
    | none => rfl
    | some t => exact ih t

/-- the machine that takes only those steps of `M` that meet the condition -/
def restrict (ok : S → E → Prop) [∀ s e, Decidable (ok s e)] : Machine S E where
  step s e := if ok s e then M.step s e else none

variable {M} {ok ok' : S → E → Prop} {s t u : S} {es es' : List E}

theorem run_snoc {e : E} (h : M.run s es = some t) (hs : M.step t e = some u) :
    M.run s (es ++ [e]) = some u := by
  rw [run_append, h]
  show (M.step t e).bind (fun v => M.run v []) = some u
  rw [hs]
  rfl

/-- a run passes through the two states of each of its steps -/
theorem run_cut {e : E} (h : M.run s (es ++ e :: es') = some u) :
    ∃ v w, M.run s es = some v ∧ M.step v e = some w ∧ M.run w es' = some u := by
  rw [run_append] at h
  obtain ⟨v, hv, h⟩ := Option.bind_eq_some_iff.mp h
  rw [run_cons] at h
  obtain ⟨w, hw, h⟩ := Option.bind_eq_some_iff.mp h
  exact ⟨v, w, hv, hw, h⟩

theorem Runs.single {e : E} (ho : ok s e) (hs : M.step s e = some t) : M.Runs ok s [e] t := by
  show M.Runs ok s ([] ++ [e]) t
  exact Runs.snoc Runs.nil ho hs

theorem Runs.append (h : M.Runs ok s es t) (h' : M.Runs ok t es' u) :
    M.Runs ok s (es ++ es') u := by
  induction h' with
  | nil => rw [List.append_nil]; exact h
  | snoc _ ho hs ih => rw [← List.append_assoc]; exact ih.snoc ho hs

theorem Runs.run_eq (h : M.Runs ok s es t) : M.run s es = some t := by
  induction h with
  | nil => rfl
  | snoc _ _ hs ih => exact run_snoc ih hs

theorem Runs.weaken (h : M.Runs ok s es t) (hw : ∀ v e, ok v e → ok' v e) :
    M.Runs ok' s es t := by
  induction h with
  | nil => exact Runs.nil
  | snoc _ ho hs ih => exact ih.snoc (hw _ _ ho) hs

/-- a replay whose events meet the condition in every state is a run -/
theorem Runs.of_run (h : M.run s es = some t) (hok : ∀ e ∈ es, ∀ v, ok v e) : M.Runs ok s es t := by
  induction es generalizing s with
  | nil => cases h; exact Runs.nil
  | cons e es ih =>
    rw [run_cons] at h
    obtain ⟨v, hv, hr⟩ := Option.bind_eq_some_iff.mp h
    have h1 : M.Runs ok s [e] v := Runs.single (hok e List.mem_cons_self s) hv
    exact h1.append (ih hr fun e' he' => hok e' (List.mem_cons_of_mem _ he'))

/-- a replay whose every step meets the condition is a run -/
theorem Runs.of_splits (h : M.run s es = some t)
    (hok : ∀ es₁ e es₂ v, es = es₁ ++ e :: es₂ → M.run s es₁ = some v → ok v e) :
    M.Runs ok s es t := by
  induction es using List.reverseRecOn generalizing t with
  | nil => cases h; exact Runs.nil
  | append_singleton l e ih =>
    rw [run_append] at h
    obtain ⟨v, hv, hr⟩ := Option.bind_eq_some_iff.mp h
    rw [run_cons] at hr
    obtain ⟨u, hu, he⟩ := Option.bind_eq_some_iff.mp hr
    cases he
    refine (ih hv fun es₁ e' es₂ w hl hw => ?_).snoc (hok l e [] v rfl hv) hu
    exact hok es₁ e' (es₂ ++ [e]) w (by rw [hl, List.append_assoc, List.cons_append]) hw

theorem Runs.of_restrict [∀ s e, Decidable (ok s e)] (h : (M.restrict ok).run s es = some t) :
    M.Runs ok s es t := by
  induction es generalizing s with
  | nil => cases h; exact Runs.nil
  | cons e es ih =>
    rw [run_cons] at h
    obtain ⟨v, hv, hr⟩ := Option.bind_eq_some_iff.mp h
    obtain ⟨ho, hs⟩ := Option.ite_none_right_eq_some.mp hv
    exact (Runs.single ho hs).append (ih hr)

theorem runs_of_run (h : M.run s es = some t) : M.Runs Always s es t :=
  Runs.of_run h fun _ _ _ => trivial

/-- **An inductive invariant holds at the end of every run.** -/
theorem Runs.keeps (h : M.Runs ok s es t) (I : S → Prop) (h0 : I s)
    (hstep : ∀ v e v', I v → ok v e → M.step v e = some v' → I v') : I t := by
  induction h with
  | nil => exact h0
  | snoc _ ho hs ih => exact hstep _ _ _ ih ho hs

/-- **An inductive relation between the events so far and the state holds along every run.** -/
theorem Runs.follows (h : M.Runs ok s es t) (I : List E → S → Prop) (h0 : I [] s)
    (hstep : ∀ l v e v', I l v → ok v e → M.step v e = some v' → I (l ++ [e]) v') : I es t := by
  induction h with
  | nil => exact h0
  | snoc _ ho hs ih => exact hstep _ _ _ _ ih ho hs

/-- a run that ends in an event passes through the state before it -/
theorem Runs.last {e : E} (h : M.Runs ok s (es ++ [e]) u) :
    ∃ v, M.Runs ok s es v ∧ ok v e ∧ M.step v e = some u := by
  generalize hl : es ++ [e] = l at h
  cases h with
  | nil => exact absurd hl (by simp)
  | snoc hr ho hs =>
    obtain ⟨h1, h2⟩ := List.append_inj' hl rfl
    cases h1
    cases h2
    exact ⟨_, hr, ho, hs⟩

theorem Runs.snoc_iff {e : E} (h : M.run s es = some t) (hs : M.step t e = some u) :
    M.Runs ok s (es ++ [e]) u ↔ M.Runs ok s es t ∧ ok t e := by
  constructor
  · intro h'
    obtain ⟨v, hr, ho, -⟩ := h'.last
    cases h.symm.trans hr.run_eq
    exact ⟨hr, ho⟩
  · rintro ⟨hr, ho⟩
    exact hr.snoc ho hs

/-- every prefix of a run is a run -/
theorem Runs.split (h : M.Runs ok s (es ++ es') u) :
    ∃ v, M.Runs ok s es v ∧ M.Runs ok v es' u := by
  induction es' using List.reverseRecOn generalizing u with
  | nil => rw [List.append_nil] at h; exact ⟨u, h, Runs.nil⟩
  | append_singleton l e ih =>
    rw [← List.append_assoc] at h
    obtain ⟨v, hr, ho, hs⟩ := h.last
    obtain ⟨w, h1, h2⟩ := ih hr
    exact ⟨w, h1, h2.snoc ho hs⟩

/-- every step of a run meets its condition -/
theorem Runs.at (h : M.Runs ok s es t) {es₁ es₂ : List E} {e : E} (hes : es = es₁ ++ e :: es₂)
    {v : S} (hv : M.run s es₁ = some v) : ok v e := by
  have hes' : es = (es₁ ++ [e]) ++ es₂ := by rw [hes, List.append_assoc]; rfl
  rw [hes'] at h
  obtain ⟨u, h1, -⟩ := h.split
  obtain ⟨w, h2, ho, -⟩ := h1.last
  cases hv.symm.trans h2.run_eq
  exact ho

/-- **Simulation.**  If, as long as `I` holds, every step of `M` is a run of `N` between the images
of its two states, then every run of `M` is one of `N`. -/
theorem Runs.project {S' E' : Type*} {N : Machine S' E'} {okN : S' → E' → Prop}
    (h : M.Runs ok s es t) (f : S → S') (I : S → Prop) (h0 : I s)
    (hI : ∀ v e v', I v → ok v e → M.step v e = some v' → I v')
    (hstep : ∀ v e v', I v → ok v e → M.step v e = some v' → ∃ l, N.Runs okN (f v) l (f v')) :
    ∃ l, N.Runs okN (f s) l (f t) := by
  induction h with
  | nil => exact ⟨[], Runs.nil⟩
  | snoc hr ho hs ih =>
    obtain ⟨l, hl⟩ := ih
    obtain ⟨l', hl'⟩ := hstep _ _ _ (hr.keeps I h0 hI) ho hs
    exact ⟨l ++ l', hl.append hl'⟩

/-- in the replay of `es` from `s` a step with the property `p` was taken -/
def Happened (M : Machine S E) (p : S → E → Prop) (s : S) (es : List E) : Prop :=
  ∃ es₁ e es₂ v, es = es₁ ++ e :: es₂ ∧ M.run s es₁ = some v ∧ p v e

theorem not_happened_nil {p : S → E → Prop} : ¬ M.Happened p s [] := by
  rintro ⟨es₁, e, es₂, v, hl, -⟩
  exact absurd hl (by simp)

theorem happened_snoc {p : S → E → Prop} {e : E} (h : M.run s es = some t) :
    M.Happened p s (es ++ [e]) ↔ M.Happened p s es ∨ p t e := by
  constructor
  · rintro ⟨es₁, e', es₂, v, hl, hv, hp⟩
    rcases List.eq_nil_or_concat es₂ with rfl | ⟨es₃, y, rfl⟩
    · obtain ⟨rfl, he⟩ := List.append_inj' hl rfl
      cases h.symm.trans hv
      cases List.singleton_inj.mp he
      exact .inr hp
    · rw [List.concat_eq_append, ← List.cons_append, ← List.append_assoc] at hl
      exact .inl ⟨es₁, e', es₃, v, (List.append_inj' hl rfl).1, hv, hp⟩
  · rintro (⟨es₁, e', es₂, v, rfl, hv, hp⟩ | hp)
    · exact ⟨es₁, e', es₂ ++ [e], v, by rw [List.append_assoc, List.cons_append], hv, hp⟩
    · exact ⟨es, e, [], t, rfl, h, hp⟩

end Machine
end Machines
