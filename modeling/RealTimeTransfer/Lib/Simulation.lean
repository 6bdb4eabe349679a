import RealTimeTransfer.Lib.Machine

/-!
# Simulation of machines

A relation between the states of two machines is a simulation if every step of the first from
related states is a run of the second, possibly an empty one, to related states, and both show the
same to an observer.

* `Simulation`       what there is to prove of a step, under a condition on either side;
* `Simulation.run`   a run of the first machine is one of the second with the same observations.
-/

namespace Machines
variable {S E S' E' V : Type*}

/-- every step of `M` that meets `ok` is a run of `N` that meets `okN` and shows the same -/
structure Simulation (M : Machine S E) (N : Machine S' E') (ok : S → E → Prop)
    (okN : S' → E' → Prop) (R : S → S' → Prop) (seen : E → Option V) (seenN : E' → Option V) :
    Prop where
  step : ∀ v e v' u, R v u → ok v e → M.step v e = some v' →
    ∃ l u', N.Runs okN u l u' ∧ R v' u' ∧ l.filterMap seenN = (seen e).toList

variable {M : Machine S E} {N : Machine S' E'} {ok : S → E → Prop} {okN : S' → E' → Prop}
  {R : S → S' → Prop} {seen : E → Option V} {seenN : E' → Option V} {s t : S} {u : S'} {es : List E}

/-- **A run of a machine is one of the machine that simulates it.** -/
theorem Simulation.run (h : Simulation M N ok okN R seen seenN) (h0 : R s u)
    (hr : M.Runs ok s es t) :
    ∃ l u', N.Runs okN u l u' ∧ R t u' ∧ l.filterMap seenN = es.filterMap seen := by
  induction hr with
  | nil => exact ⟨[], u, .nil, h0, rfl⟩
  | @snoc es v v' e _ ho hs ih =>
    obtain ⟨l, w, hl, hR, hseen⟩ := ih
    obtain ⟨l', w', hl', hR', hseen'⟩ := h.step v e v' w hR ho hs
    refine ⟨l ++ l', w', hl.append hl', hR', ?_⟩
    rw [List.filterMap_append, List.filterMap_append, hseen, hseen']
    cases he : seen e <;> simp [he]

end Machines
