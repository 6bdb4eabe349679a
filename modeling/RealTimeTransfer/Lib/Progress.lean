import RealTimeTransfer.Lib.Machine

/-!
# Progress of a machine

`M.tally c s es` adds up the weights `c` of the steps of a replay.  A rank that every step lowers by
its weight bounds the weight of a whole run; so if the run is not over as long as a step of positive
weight is possible, the machine comes to its goal under every schedule that does not take steps of
weight zero only.

* `Runs.tally_le`    the weight of a run is at most the rank at its start;
* `Runs.countP_le`   the same for a weight that depends on the event only.
-/

namespace Machines
namespace Machine
variable {S E : Type*} (M : Machine S E)

/-- the weight of a replay -/
def tally (c : S → E → Nat) : S → List E → Nat
  | _, [] => 0
  | s, e :: es => c s e + (M.step s e).elim 0 fun t => tally c t es

variable {M} {ok : S → E → Prop} {s t : S} {es : List E}

theorem tally_cons {c : S → E → Nat} {e : E} (hs : M.step s e = some t) :
    M.tally c s (e :: es) = c s e + M.tally c t es := by
  rw [tally, hs]
  rfl

theorem tally_append {c : S → E → Nat} {es' : List E} (h : M.run s es = some t) :
    M.tally c s (es ++ es') = M.tally c s es + M.tally c t es' := by
  induction es generalizing s with
  | nil =>
    cases h
    simp [tally]
  | cons e es ih =>
    rw [run_cons] at h
    obtain ⟨v, hv, h⟩ := Option.bind_eq_some_iff.mp h
    rw [List.cons_append, tally_cons hv, tally_cons hv, ih h, Nat.add_assoc]

/-- **A rank that every step lowers by its weight bounds the weight of a run.** -/
theorem Runs.tally_le (h : M.Runs ok s es t) (c : S → E → Nat) (I : S → Prop) (rank : S → Nat)
    (h0 : I s) (hstep : ∀ v e v', I v → ok v e → M.step v e = some v' →
      I v' ∧ rank v' + c v e ≤ rank v) :
    M.tally c s es + rank t ≤ rank s := by
  have hI : ∀ {l v}, M.Runs ok s l v → I v := fun hr =>
    hr.keeps I h0 fun v e v' hv ho hs => (hstep v e v' hv ho hs).1
  induction h with
  | nil => simp [tally]
  | snoc hr ho hs ih =>
    have hlow := (hstep _ _ _ (hI hr) ho hs).2
    rw [tally_append hr.run_eq, tally_cons hs]
    simp only [tally, Nat.add_zero]
    omega

theorem Runs.countP_le (h : M.Runs ok s es t) (p : E → Bool) (I : S → Prop) (rank : S → Nat)
    (h0 : I s) (hstep : ∀ v e v', I v → ok v e → M.step v e = some v' →
      I v' ∧ rank v' + (if p e then 1 else 0) ≤ rank v) :
    es.countP p + rank t ≤ rank s := by
  have hI : ∀ {l v}, M.Runs ok s l v → I v := fun hr =>
    hr.keeps I h0 fun v e v' hv ho hs => (hstep v e v' hv ho hs).1
  induction h with
  | nil => simp
  | snoc hr ho hs ih =>
    have hlow := (hstep _ _ _ (hI hr) ho hs).2
    rw [List.countP_append, List.countP_singleton]
    omega

end Machine
end Machines
