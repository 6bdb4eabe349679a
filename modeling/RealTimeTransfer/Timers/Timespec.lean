import RealTimeTransfer.Lib.Words

/-!
# Time conversions and `timespec` arithmetic

The macros of `timers_utils.h`.  Every one computes in `uint64_t`: an operand is converted
(`toU 64`), and a product or a sum wraps.  `timespec` has two signed 64-bit fields.

`ofNs n` is the normalised timespec of a clock reading of `n` nanoseconds; every normalised timespec
is one (`Timespec.Normalised.eq_ofNs`), so the laws of the macros are proved on these:
`timespecDiffNs_ofNs`, `addNs_ofNs`, and together `timespec_exact`.
-/

namespace RealTimeTransfer
open Words

structure Timespec where
  tvSec : Int
  tvNsec : Int
  deriving DecidableEq, Repr

def secToMs (s : Int) : Nat := toU 64 (toU 64 s * 1000 : Nat)
def secToUs (s : Int) : Nat := toU 64 (secToMs s * 1000 : Nat)
def secToNs (s : Int) : Nat := toU 64 (secToUs s * 1000 : Nat)
def secToPs (s : Int) : Nat := toU 64 (secToNs s * 1000 : Nat)

def nsToUs (s : Nat) : Nat := s / 1000
def nsToMs (s : Nat) : Nat := nsToUs s / 1000
def nsToSec (s : Nat) : Nat := nsToMs s / 1000
def psToNs (s : Nat) : Nat := s / 1000

/-- `TIMESPEC_DIFF_NS(t1, t2)` -/
def timespecDiffNs (t1 t2 : Timespec) : Nat :=
  toU 64 (secToNs (t2.tvSec - t1.tvSec) + toU 64 (t2.tvNsec - t1.tvNsec) : Nat)

/-- `ADD_NS_TO_TIMESPEC(t, ns)` -/
def addNsToTimespec (t : Timespec) (ns : Nat) : Timespec where
  tvSec := toS 64 (toU 64 (t.tvSec + nsToSec (toU 64 (t.tvNsec + ns))))
  tvNsec := (toU 64 (t.tvNsec + ns) % secToNs 1 : Nat)

/-- the normalised timespec of a reading of `n` nanoseconds -/
def ofNs (n : Nat) : Timespec := ⟨(n / 10^9 : Nat), (n % 10^9 : Nat)⟩

theorem secToNs_one : secToNs 1 = 10^9 := by decide

theorem secToPs_one : secToPs 1 = 10^12 := by decide

theorem nsToSec_eq (s : Nat) : nsToSec s = s / 10^9 := by
  unfold nsToSec nsToMs nsToUs
  omega

theorem psToNs_eq (s : Nat) : psToNs s = s / 1000 := rfl

theorem secToNs_eq (s : Int) : secToNs s = toU 64 (s * (10^9 : Nat)) := by
  have h1 : secToMs s = toU 64 (s * (1000 : Nat)) := toU_mul 64 s 1000
  have h2 : secToUs s = toU 64 (s * (1000 : Nat) * (1000 : Nat)) := by
    unfold secToUs; rw [h1]; exact toU_mul 64 _ 1000
  have h3 : secToNs s = toU 64 (s * (1000 : Nat) * (1000 : Nat) * (1000 : Nat)) := by
    unfold secToNs; rw [h2]; exact toU_mul 64 _ 1000
  rw [h3, mul_assoc, mul_assoc]
  rfl

/-- `TIMESPEC_DIFF_NS` is the signed difference, wrapped once -/
theorem timespecDiffNs_eq (t1 t2 : Timespec) :
    timespecDiffNs t1 t2
      = toU 64 ((t2.tvSec - t1.tvSec) * (10^9 : Nat) + (t2.tvNsec - t1.tvNsec)) := by
  unfold timespecDiffNs
  rw [secToNs_eq, toU_add]

/-! ## Normalised timespecs -/

/-- the nanoseconds of a timespec -/
def Timespec.ns (t : Timespec) : Int := t.tvSec * 10^9 + t.tvNsec

theorem ns_ofNs (n : Nat) : (ofNs n).ns = n := by
  show ((n / 10^9 : Nat) : Int) * 10^9 + ((n % 10^9 : Nat) : Int) = n
  omega

/-- a timespec of the POSIX functions: the fields are in range and the seconds fit in 63 bits -/
structure Timespec.Normalised (t : Timespec) : Prop where
  sec : 0 ≤ t.tvSec
  fits : t.tvSec < 2^63
  nsec : 0 ≤ t.tvNsec
  carried : t.tvNsec < 10^9

/-- `ADD_NS_TO_TIMESPEC(t, ns)` stays within the machine integers -/
structure Timespec.Fits (t : Timespec) (ns : Nat) : Prop where
  nsec : t.tvNsec + ns < 2^64
  sec : t.tvSec + (t.tvNsec + ns) / 10^9 < 2^63

theorem normalised_ofNs {n : Nat} (h : n / 10^9 < 2^63) : (ofNs n).Normalised := by
  refine ⟨?_, ?_, ?_, ?_⟩
  · exact Int.natCast_nonneg _
  · show ((n / 10^9 : Nat) : Int) < 2^63
    omega
  · exact Int.natCast_nonneg _
  · show ((n % 10^9 : Nat) : Int) < 10^9
    omega

theorem Timespec.Normalised.eq_ofNs {t : Timespec} (h : t.Normalised) :
    ∃ n, n / 10^9 < 2^63 ∧ t = ofNs n := by
  obtain ⟨s, r⟩ := t
  obtain ⟨h1, h2, h3, h4⟩ := h
  obtain ⟨a, rfl⟩ := Int.eq_ofNat_of_zero_le h1
  obtain ⟨b, rfl⟩ := Int.eq_ofNat_of_zero_le h3
  change (a : Int) < 2^63 at h2
  change (b : Int) < 10^9 at h4
  have hq : (a * 10^9 + b) / 10^9 = a := by omega
  have hr : (a * 10^9 + b) % 10^9 = b := by omega
  refine ⟨a * 10^9 + b, by omega, ?_⟩
  unfold ofNs
  rw [hq, hr]

theorem fits_ofNs {n ns : Nat} :
    (ofNs n).Fits ns ↔ n % 10^9 + ns < 2^64 ∧ (n + ns) / 10^9 < 2^63 := by
  have key : (ofNs n).tvSec = (n / 10^9 : Nat) ∧ (ofNs n).tvNsec = (n % 10^9 : Nat) := ⟨rfl, rfl⟩
  constructor
  · intro h
    obtain ⟨h1, h2⟩ := h
    rw [key.2] at h1 h2
    rw [key.1] at h2
    constructor <;> omega
  · intro h
    constructor
    · rw [key.2]
      omega
    · rw [key.1, key.2]
      omega

theorem timespecDiffNs_exact {a b : Nat} (h : a ≤ b) (hd : b - a < 2^64) :
    timespecDiffNs (ofNs a) (ofNs b) = b - a := by
  rw [timespecDiffNs_eq]
  have e : (((b / 10^9 : Nat) : Int) - ((a / 10^9 : Nat) : Int)) * (10^9 : Nat)
      + (((b % 10^9 : Nat) : Int) - ((a % 10^9 : Nat) : Int)) = ((b - a : Nat) : Int) := by omega
  show toU 64 ((((b / 10^9 : Nat) : Int) - ((a / 10^9 : Nat) : Int)) * (10^9 : Nat)
      + (((b % 10^9 : Nat) : Int) - ((a % 10^9 : Nat) : Int))) = b - a
  rw [e]
  exact toU_of_lt hd

/-- **On two readings of the clock, the earlier one first, `TIMESPEC_DIFF_NS` is the time between
them.** -/
theorem timespecDiffNs_ofNs {a b : Nat} (h : a ≤ b) (hb : b < 2^63) :
    timespecDiffNs (ofNs a) (ofNs b) = b - a :=
  timespecDiffNs_exact h (by omega)

/-- **While the two fields fit, `ADD_NS_TO_TIMESPEC` is the addition, and its result is
normalised.** -/
theorem addNs_ofNs {n ns : Nat} (h : (ofNs n).Fits ns) :
    addNsToTimespec (ofNs n) ns = ofNs (n + ns) := by
  obtain ⟨hn, hs⟩ := fits_ofNs.mp h
  have h1 : toU 64 ((ofNs n).tvNsec + ns) = n % 10^9 + ns := by
    show toU 64 (((n % 10^9 : Nat) : Int) + (ns : Int)) = _
    rw [← Nat.cast_add]
    exact toU_of_lt hn
  have h2 : toU 64 ((ofNs n).tvSec + nsToSec (n % 10^9 + ns)) = (n + ns) / 10^9 := by
    rw [nsToSec_eq]
    show toU 64 (((n / 10^9 : Nat) : Int) + (((n % 10^9 + ns) / 10^9 : Nat) : Int)) = _
    rw [← Nat.cast_add, toU_of_lt (by omega)]
    omega
  unfold addNsToTimespec
  rw [h1, h2, secToNs_one, toS_of_range (by decide) (by omega) (by omega)]
  unfold ofNs
  rw [Timespec.mk.injEq]
  constructor
  · rfl
  · omega

theorem Timespec.Fits.split {n a b : Nat} (h : (ofNs n).Fits (a + b)) :
    (ofNs n).Fits a ∧ (ofNs (n + a)).Fits b := by
  obtain ⟨h1, h2⟩ := fits_ofNs.mp h
  constructor
  · apply fits_ofNs.mpr
    constructor <;> omega
  · apply fits_ofNs.mpr
    constructor <;> omega

/-- **Timespec arithmetic is exact in machine integers.**  Within the 64 bits of its fields an
addition is normalised and denotes the sum, the difference undoes it, two additions make one; and
the difference of any two normalised timespecs less than `2^64` ns apart is their distance. -/
theorem timespec_exact {t : Timespec} (ht : t.Normalised) :
    (∀ ns, t.Fits ns → (addNsToTimespec t ns).Normalised ∧
        (addNsToTimespec t ns).ns = t.ns + ns ∧ timespecDiffNs t (addNsToTimespec t ns) = ns) ∧
      (∀ a b, t.Fits (a + b) → t.Fits a ∧ (addNsToTimespec t a).Fits b ∧
        addNsToTimespec (addNsToTimespec t a) b = addNsToTimespec t (a + b)) ∧
      ∀ t' : Timespec, t'.Normalised → t.ns ≤ t'.ns → t'.ns - t.ns < 2^64 →
        (timespecDiffNs t t' : Int) = t'.ns - t.ns := by
  obtain ⟨n, _, rfl⟩ := ht.eq_ofNs
  refine ⟨?_, ?_, ?_⟩
  · intro ns h
    obtain ⟨h1, h2⟩ := fits_ofNs.mp h
    rw [addNs_ofNs h, ns_ofNs, ns_ofNs, Nat.cast_add]
    refine ⟨normalised_ofNs h2, rfl, ?_⟩
    rw [timespecDiffNs_exact (Nat.le_add_right n ns) (by omega), Nat.add_sub_cancel_left]
  · intro a b h
    obtain ⟨ha, hb⟩ := h.split
    rw [addNs_ofNs ha, addNs_ofNs hb, addNs_ofNs h, Nat.add_assoc]
    exact ⟨ha, hb, rfl⟩
  · intro t' ht' hle hlt
    obtain ⟨m, _, rfl⟩ := ht'.eq_ofNs
    rw [ns_ofNs, ns_ofNs] at hle hlt ⊢
    have hnm : n ≤ m := by exact_mod_cast hle
    rw [timespecDiffNs_exact hnm (by omega)]
    exact Nat.cast_sub hnm

/-- a borrow, a carry and the largest sum -/
theorem timespec_exact_carry :
    timespecDiffNs ⟨3, 999999999⟩ ⟨5, 1⟩ = 1000000002 ∧
      addNsToTimespec ⟨3, 999999999⟩ 1000000002 = ⟨5, 1⟩ ∧
      (addNsToTimespec ⟨3, 999999999⟩ (2^64 - 10^9)).ns = 3999999999 + (2^64 - 10^9) := by
  have ht : (⟨3, 999999999⟩ : Timespec).Normalised := by constructor <;> decide
  have ht' : (⟨5, 1⟩ : Timespec).Normalised := by constructor <;> decide
  obtain ⟨h1, -, h3⟩ := timespec_exact ht
  refine ⟨?_, by decide, ?_⟩
  · have h : (timespecDiffNs ⟨3, 999999999⟩ ⟨5, 1⟩ : Int) = 1000000002 :=
      (h3 ⟨5, 1⟩ ht' (by decide) (by decide)).trans (by decide)
    exact_mod_cast h
  · exact (h1 (2^64 - 10^9) (by constructor <;> decide)).2.1

end RealTimeTransfer
