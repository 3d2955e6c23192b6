/-
# `P2PStream.Lib.SlotBits` — a set of slots kept by adding and subtracting powers of two

A word whose bit `i` says that slot `i` is taken can be updated by `+= 1 << i`
and `-= 1 << i`.  The bit `i` itself always flips and the bits below `i` never
move.  The bits above stay as they are exactly when the bit had the expected
value; otherwise a carry or a borrow runs through them.
-/
import Mathlib.Data.Nat.Bitwise

namespace P2PStream.Lib.SlotBits

open BitVec

variable {w : Nat} {x : BitVec w} {i j : Nat}

theorem getLsbD_add_twoPow_of_clear (h : x.getLsbD i = false) (j : Nat) :
    (x + twoPow w i).getLsbD j = (x.getLsbD j || decide (i < w ∧ i = j)) := by
  have hdisjoint : x &&& twoPow w i = 0#w := by
    rw [BitVec.and_twoPow, h]
    rfl
  rw [BitVec.add_eq_or_of_and_eq_zero _ _ hdisjoint, BitVec.getLsbD_or, BitVec.getLsbD_twoPow]
  simp

theorem getLsbD_sub_twoPow_of_set (h : x.getLsbD i = true) (j : Nat) :
    (x - twoPow w i).getLsbD j = (x.getLsbD j && decide (i ≠ j)) := by
  have hsub : x - twoPow w i = x &&& ~~~twoPow w i := by
    have hclear : (x &&& ~~~twoPow w i).getLsbD i = false := by
      rw [BitVec.getLsbD_and, BitVec.getLsbD_not, BitVec.getLsbD_twoPow]
      by_cases hi : i < w <;> simp [hi]
    have hadd : (x &&& ~~~twoPow w i) + twoPow w i = x := by
      refine BitVec.eq_of_getLsbD_eq fun k hk => ?_
      rw [getLsbD_add_twoPow_of_clear hclear]
      by_cases hik : i = k
      · subst hik
        simp [hk, h]
      · simp [hik, Ne.symm hik, hk]
    conv_lhs => rw [← hadd]
    exact BitVec.add_sub_cancel _ _
  rw [hsub, BitVec.getLsbD_and, BitVec.getLsbD_not, BitVec.getLsbD_twoPow]
  by_cases hj : j < w
  · by_cases hij : i = j
    · subst hij
      simp [hj]
    · simp [hj, hij]
  · simp [BitVec.getLsbD_of_ge x j (by omega)]

theorem getLsbD_add_twoPow_self (hi : i < w) (x : BitVec w) :
    (x + twoPow w i).getLsbD i = !x.getLsbD i := by
  simp only [BitVec.getLsbD, BitVec.toNat_add, BitVec.toNat_twoPow_of_lt hi,
    Nat.testBit_mod_two_pow, hi, decide_true, Bool.true_and, Nat.add_comm x.toNat,
    Nat.testBit_two_pow_add_eq]

theorem getLsbD_add_twoPow_lt (hj : j < i) (x : BitVec w) :
    (x + twoPow w i).getLsbD j = x.getLsbD j := by
  by_cases hi : i < w
  · simp only [BitVec.getLsbD, BitVec.toNat_add, BitVec.toNat_twoPow_of_lt hi,
      Nat.testBit_mod_two_pow, show j < w by omega, decide_true, Bool.true_and,
      Nat.add_comm x.toNat, Nat.testBit_two_pow_add_gt hj]
  · have hzero : twoPow w i = 0#w := BitVec.eq_of_toNat_eq (by
      rw [BitVec.toNat_twoPow_of_le (by omega)]
      rfl)
    rw [hzero, BitVec.add_zero]

theorem getLsbD_sub_twoPow_self (hi : i < w) (x : BitVec w) :
    (x - twoPow w i).getLsbD i = !x.getLsbD i := by
  have h := getLsbD_add_twoPow_self hi (x - twoPow w i)
  rw [BitVec.sub_add_cancel] at h
  rw [h, Bool.not_not]

theorem getLsbD_sub_twoPow_lt (hj : j < i) (x : BitVec w) :
    (x - twoPow w i).getLsbD j = x.getLsbD j := by
  have h := getLsbD_add_twoPow_lt hj (x - twoPow w i)
  rw [BitVec.sub_add_cancel] at h
  exact h.symm

end P2PStream.Lib.SlotBits
