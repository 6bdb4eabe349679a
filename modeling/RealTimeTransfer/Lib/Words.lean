import Mathlib.Tactic

/-!
# Fixed-width integers as integers

The values of an unsigned type of `w` bits are the naturals below `2^w`, those of a signed one the
integers of `[-2^(w-1), 2^(w-1))`.

* `toU w x`, `toS w x`   conversion of any integer to the two types (`toS` is the two's-complement
                         wrap-around);
* `toU_of_lt`, `toS_of_range`   a value in range is unchanged;
* `FastInts`             the widths an ABI gives to `uint_fast16_t` and `uint_fast32_t`.
-/

namespace Words

/-- conversion to an unsigned type of `w` bits -/
def toU (w : Nat) (x : Int) : Nat := (x % 2^w).toNat

/-- conversion to a signed type of `w` bits -/
def toS (w : Nat) (x : Int) : Int := (x + 2^(w-1)) % 2^w - 2^(w-1)

theorem toU_nat (w n : Nat) : toU w n = n % 2^w := by
  show ((n : Int) % 2^w).toNat = _
  have h : ((n : Int) % 2^w) = ((n % 2^w : Nat) : Int) := by push_cast; rfl
  rw [h, Int.toNat_natCast]

theorem toU_of_lt {w n : Nat} (h : n < 2^w) : toU w n = n := by
  rw [toU_nat, Nat.mod_eq_of_lt h]

/-- the unsigned value is the remainder -/
theorem toU_cast (w : Nat) (x : Int) : (toU w x : Int) = x % 2^w :=
  Int.toNat_of_nonneg (Int.emod_nonneg x (by positivity))

/-- equal remainders, equal unsigned values -/
theorem toU_congr {w : Nat} {x y : Int} (h : x % 2^w = y % 2^w) : toU w x = toU w y := by
  unfold toU; rw [h]

theorem toU_add (w : Nat) (x y : Int) : toU w (toU w x + toU w y : Nat) = toU w (x + y) := by
  apply toU_congr
  push_cast
  rw [toU_cast, toU_cast, ← Int.add_emod]

theorem toU_mul (w : Nat) (x : Int) (c : Nat) : toU w (toU w x * c : Nat) = toU w (x * c) := by
  apply toU_congr
  push_cast
  rw [toU_cast, Int.mul_emod, Int.emod_emod, ← Int.mul_emod]

theorem toS_of_range {w : Nat} {x : Int} (hw : 0 < w) (h0 : -2^(w-1) ≤ x) (h : x < 2^(w-1)) :
    toS w x = x := by
  obtain ⟨v, rfl⟩ : ∃ v, w = v + 1 := ⟨w - 1, by omega⟩
  have e : (2:Int)^(v+1) = 2^v + 2^v := by rw [pow_succ]; omega
  rw [Nat.add_sub_cancel] at h0 h
  unfold toS
  rw [Nat.add_sub_cancel, Int.emod_eq_of_lt (by omega) (by omega)]
  omega

/-- the signed value has the same remainder -/
theorem toS_emod (w : Nat) (x : Int) : toS w x % 2^w = x % 2^w := by
  unfold toS
  rw [Int.sub_emod, Int.emod_emod, ← Int.sub_emod, Int.add_sub_cancel]

/-- equal remainders, equal signed values -/
theorem toS_congr {w : Nat} {x y : Int} (h : x % 2^w = y % 2^w) : toS w x = toS w y := by
  unfold toS
  rw [Int.add_emod, h, ← Int.add_emod]

theorem toS_add (w : Nat) (x y : Int) : toS w (toS w x + toS w y) = toS w (x + y) := by
  apply toS_congr
  rw [Int.add_emod, toS_emod, toS_emod, ← Int.add_emod]

/-- the widths of the fast integer types -/
structure FastInts where
  w16 : Nat
  w32 : Nat
  le16 : 16 ≤ w16
  le32 : 32 ≤ w32

/-- the fast types of a 64-bit ABI -/
def FastInts.lp64 : FastInts := ⟨64, 64, by decide, by decide⟩

theorem FastInts.lt32 (A : FastInts) {n : Nat} (h : n < 2^32) : n < 2^A.w32 :=
  lt_of_lt_of_le h (Nat.pow_le_pow_right (by decide) A.le32)

theorem FastInts.lt16 (A : FastInts) {n : Nat} (h : n < 2^16) : n < 2^A.w16 :=
  lt_of_lt_of_le h (Nat.pow_le_pow_right (by decide) A.le16)

end Words
