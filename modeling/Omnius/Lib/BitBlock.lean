/-
# Blocks: bit vectors that agree in their leading bits

A block is the set of vectors that share their first `n` bits with a given one.  Programs test
membership with a MASK, the all-ones vector shifted left; what the test decides is agreement in the
leading bits (`and_mask_eq_and_mask`), and for a vector that has no other bits set the test may
compare with the vector itself (`and_mask_eq`).

`agree_iff_div` turns agreement into an equation of quotients, on which linear arithmetic decides
whether two blocks with known leading bits can meet.
-/
import Mathlib.Algebra.Ring.Nat

namespace Omnius.Lib.BitBlock

variable {w : Nat}

/-- `a` and `b` agree in their first `n` bits. -/
def Agree (n : Nat) (a b : BitVec w) : Prop := ∀ i < n, a.getMsbD i = b.getMsbD i

/-- The mask of the first `n` bits. -/
def mask (w n : Nat) : BitVec w := if n = 0 then 0 else BitVec.allOnes w <<< (w - n)

variable {n : Nat} {a b : BitVec w}

variable (hn : n ≤ w)

include hn

theorem getLsbD_mask {i : Nat} :
    (mask w n).getLsbD i = decide (w - n ≤ i ∧ i < w) := by
  unfold mask
  split
  · rename_i h
    simp only [BitVec.ofNat_eq_ofNat, BitVec.getLsbD_zero]
    symm
    simp only [decide_eq_false_iff_not]
    omega
  · by_cases hi : i < w <;> by_cases hl : i < w - n <;> simp [hi, hl] <;> omega

theorem agree_iff_getLsbD :
    Agree n a b ↔ ∀ i, w - n ≤ i → i < w → a.getLsbD i = b.getLsbD i := by
  constructor
  · intro h i hlow hi
    have hmsb := h (w - 1 - i) (by omega)
    have hlt : w - 1 - i < w := by omega
    have hback : w - 1 - (w - 1 - i) = i := by omega
    simpa [BitVec.getMsbD, hlt, hback] using hmsb
  · intro h i hi
    have hlt : i < w := by omega
    simp only [BitVec.getMsbD, hlt, decide_true, Bool.true_and]
    exact h (w - 1 - i) (by omega) (by omega)

/-- **The mask test decides agreement in the leading bits.** -/
theorem and_mask_eq_and_mask : a &&& mask w n = b &&& mask w n ↔ Agree n a b := by
  rw [agree_iff_getLsbD hn]
  constructor
  · intro h i hlow hi
    have hbit := congrArg (fun v => v.getLsbD i) h
    simpa only [BitVec.getLsbD_and, getLsbD_mask hn, hlow, hi, and_self, decide_true,
      Bool.and_true] using hbit
  · intro h
    apply BitVec.eq_of_getLsbD_eq
    intro i hi
    simp only [BitVec.getLsbD_and, getLsbD_mask hn]
    by_cases hlow : w - n ≤ i
    · rw [h i hlow hi]
    · simp [hlow]

theorem and_mask_eq (hb : b &&& mask w n = b) : a &&& mask w n = b ↔ Agree n a b := by
  rw [← and_mask_eq_and_mask hn, hb]

theorem agree_iff_div :
    Agree n a b ↔ a.toNat / 2 ^ (w - n) = b.toNat / 2 ^ (w - n) := by
  rw [agree_iff_getLsbD hn, ← Nat.shiftRight_eq_div_pow, ← Nat.shiftRight_eq_div_pow]
  constructor
  · intro h
    apply Nat.eq_of_testBit_eq
    intro i
    simp only [Nat.testBit_shiftRight, ← BitVec.testBit_toNat] at h ⊢
    by_cases hi : w - n + i < w
    · exact h _ (by omega) hi
    · have hhigh : ∀ v : BitVec w, v.toNat.testBit (w - n + i) = false := fun v =>
        Nat.testBit_lt_two_pow (Nat.lt_of_lt_of_le v.isLt (Nat.pow_le_pow_right (by decide)
          (by omega)))
      rw [hhigh a, hhigh b]
  · intro h i hlow hi
    have hbit := congrArg (fun v => v.testBit (i - (w - n))) h
    have hback : w - n + (i - (w - n)) = i := by omega
    simpa [hback, BitVec.testBit_toNat] using hbit

end Omnius.Lib.BitBlock
