/-
# `P2PStream.Lib.OnesComplement` — sums with an end-around carry

In one's complement arithmetic on words below a base `B` the carry out of a sum is added
to it again, so a sum is one modulo `B - 1`, in which `B - 1` stands for zero and 0 for
nothing at all.  A checksum adds the words up in a wider register, folds the carries at
the end and takes the complement; over the words and the checksum the one's complement
sum is then `B - 1`.

The words of a byte string are read in either order.  Swapping the bytes of every word
multiplies the sum by 256, so the order does not matter to the check.
-/
import Mathlib.Data.List.Induction
import Mathlib.Data.Nat.ModEq
import Mathlib.Tactic.Ring

namespace P2PStream.Lib

section Base

/-- The carry is added to the rest. -/
def foldCarry (B s : Nat) : Nat := s / B + s % B

/-- The sum with an end-around carry. -/
def onesSum (B : Nat) (l : List Nat) : Nat := l.foldl (fun a b => foldCarry B (a + b)) 0

variable {B s : Nat} {l : List Nat}

theorem foldCarry_modEq (hB : 0 < B) (s : Nat) : foldCarry B s ≡ s [MOD B - 1] := by
  have hs : s = (B - 1) * (s / B) + foldCarry B s := by
    have hdiv := Nat.div_add_mod s B
    have hone : B = (B - 1) + 1 := by omega
    calc s = B * (s / B) + s % B := hdiv.symm
      _ = ((B - 1) + 1) * (s / B) + s % B := by rw [← hone]
      _ = (B - 1) * (s / B) + (s / B + s % B) := by ring
  have hmod : s % (B - 1) = foldCarry B s % (B - 1) :=
    calc s % (B - 1) = ((B - 1) * (s / B) + foldCarry B s) % (B - 1) := by rw [← hs]
      _ = foldCarry B s % (B - 1) := Nat.mul_add_mod ..
  exact hmod.symm

theorem foldCarry_eq_zero : foldCarry B s = 0 ↔ s = 0 := by
  constructor
  · intro h
    obtain ⟨hdiv, hmod⟩ := Nat.add_eq_zero_iff.mp h
    rw [← Nat.div_add_mod s B, hdiv, hmod, Nat.mul_zero]
  · rintro rfl
    simp [foldCarry]

theorem foldCarry_le (hs : s < B * B) : foldCarry B s ≤ 2 * (B - 1) := by
  have hB : 0 < B := Nat.pos_of_ne_zero fun h => by simp [h] at hs
  have hdiv : s / B < B := Nat.div_lt_of_lt_mul hs
  have hmod : s % B < B := Nat.mod_lt s hB
  unfold foldCarry
  omega

theorem foldCarry_lt (hB : 1 < B) (hs : s ≤ 2 * (B - 1)) : foldCarry B s < B := by
  unfold foldCarry
  by_cases h : s < B
  · rw [Nat.div_eq_of_lt h, Nat.mod_eq_of_lt h]
    omega
  · have hrest : s - B < B := by omega
    have hdiv : s / B = 1 := by
      rw [Nat.div_eq_sub_div (by omega) (by omega), Nat.div_eq_of_lt hrest]
    have hmod : s % B = s - B := by
      rw [Nat.mod_eq_sub_mod (by omega), Nat.mod_eq_of_lt hrest]
    omega

theorem foldCarry_foldCarry_lt (hB : 1 < B) (hs : s < B * B) : foldCarry B (foldCarry B s) < B :=
  foldCarry_lt hB (foldCarry_le hs)

theorem onesSum_concat (l : List Nat) (b : Nat) :
    onesSum B (l ++ [b]) = foldCarry B (onesSum B l + b) := by
  rw [onesSum, List.foldl_append]
  rfl

theorem onesSum_lt (hB : 1 < B) (hl : ∀ a ∈ l, a < B) : onesSum B l < B := by
  induction l using List.reverseRecOn with
  | nil => exact Nat.lt_trans Nat.zero_lt_one hB
  | append_singleton l b ih =>
      have hsum := ih fun a ha => hl a (List.mem_append_left _ ha)
      have hb := hl b (by simp)
      rw [onesSum_concat]
      exact foldCarry_lt hB (by omega)

theorem onesSum_modEq (hB : 0 < B) (l : List Nat) : onesSum B l ≡ l.sum [MOD B - 1] := by
  induction l using List.reverseRecOn with
  | nil => rfl
  | append_singleton l b ih =>
      rw [onesSum_concat, List.sum_append, List.sum_singleton]
      exact (foldCarry_modEq hB _).trans (ih.add_right b)

theorem onesSum_eq_zero : onesSum B l = 0 ↔ l.sum = 0 := by
  induction l using List.reverseRecOn with
  | nil => exact Iff.rfl
  | append_singleton l b ih =>
      rw [onesSum_concat, foldCarry_eq_zero, List.sum_append, List.sum_singleton,
        Nat.add_eq_zero_iff, Nat.add_eq_zero_iff, ih]

/-- The sum is all ones where the plain sum is a multiple of `B - 1` other than 0. -/
theorem onesSum_eq_max_iff (hB : 1 < B) (hl : ∀ a ∈ l, a < B) :
    onesSum B l = B - 1 ↔ l.sum ≠ 0 ∧ B - 1 ∣ l.sum := by
  have hpos : 0 < B := by omega
  have hmod := onesSum_modEq hpos l
  have hzero : onesSum B l ≠ 0 ↔ l.sum ≠ 0 := onesSum_eq_zero.not
  rw [← hmod.dvd_iff (dvd_refl _), ← hzero]
  constructor
  · intro h
    rw [h]
    exact ⟨by omega, dvd_refl _⟩
  · rintro ⟨hne, hdvd⟩
    have hle := Nat.le_of_dvd (Nat.pos_of_ne_zero hne) hdvd
    have hlt := onesSum_lt hB hl
    omega

theorem add_complement (hB : 1 < B) (hs : s < B * B) :
    s + (B - 1 - foldCarry B (foldCarry B s)) ≠ 0 ∧
      B - 1 ∣ s + (B - 1 - foldCarry B (foldCarry B s)) := by
  have hpos : 0 < B := by omega
  have hlt := foldCarry_foldCarry_lt hB hs
  have hmod : foldCarry B (foldCarry B s) ≡ s [MOD B - 1] :=
    (foldCarry_modEq hpos _).trans (foldCarry_modEq hpos s)
  constructor
  · intro h
    have hzero : s = 0 := by omega
    have hfold : foldCarry B (foldCarry B s) = 0 := by
      rw [foldCarry_eq_zero, foldCarry_eq_zero, hzero]
    omega
  · have hall := hmod.add_right (B - 1 - foldCarry B (foldCarry B s))
    rw [Nat.add_sub_cancel' (by omega)] at hall
    exact (hall.dvd_iff (dvd_refl _)).mp (dvd_refl _)

end Base

/-! ## Words of bytes -/

/-- The words of a byte string in network order; an odd byte is followed by a zero byte. -/
def wordsBe : List UInt8 → List Nat
  | [] => []
  | [a] => [256 * a.toNat]
  | a :: b :: l => (256 * a.toNat + b.toNat) :: wordsBe l

/-- The words as a little-endian machine reads them. -/
def wordsLe : List UInt8 → List Nat
  | [] => []
  | [a] => [a.toNat]
  | a :: b :: l => (a.toNat + 256 * b.toNat) :: wordsLe l

theorem wordsBe_lt (l : List UInt8) : ∀ a ∈ wordsBe l, a < 65536 := by
  induction l using wordsBe.induct with
  | case1 => simp [wordsBe]
  | case2 a =>
      have ha := a.toNat_lt
      simp only [wordsBe, List.mem_singleton, forall_eq]
      omega
  | case3 a b l ih =>
      have ha := a.toNat_lt
      have hb := b.toNat_lt
      simp only [wordsBe, List.mem_cons, forall_eq_or_imp]
      exact ⟨by omega, ih⟩

theorem sum_wordsBe_modEq (l : List UInt8) :
    (wordsBe l).sum ≡ 256 * (wordsLe l).sum [MOD 65535] := by
  induction l using wordsBe.induct with
  | case1 => rfl
  | case2 a => rfl
  | case3 a b l ih =>
      simp only [wordsBe, wordsLe, List.sum_cons, Nat.ModEq] at ih ⊢
      omega

theorem sum_wordsBe_eq_zero (l : List UInt8) : (wordsBe l).sum = 0 ↔ (wordsLe l).sum = 0 := by
  induction l using wordsBe.induct with
  | case1 => rfl
  | case2 a =>
      simp only [wordsBe, wordsLe, List.sum_singleton]
      omega
  | case3 a b l ih =>
      simp only [wordsBe, wordsLe, List.sum_cons]
      omega

theorem sum_wordsLe_le (l : List UInt8) : (wordsLe l).sum ≤ 65535 * ((l.length + 1) / 2) := by
  induction l using wordsLe.induct with
  | case1 => simp [wordsLe]
  | case2 a =>
      have ha := a.toNat_lt
      simp only [wordsLe, List.sum_singleton, List.length_singleton]
      omega
  | case3 a b l ih =>
      have ha := a.toNat_lt
      have hb := b.toNat_lt
      simp only [wordsLe, List.sum_cons, List.length_cons]
      omega

theorem wordsLe_append {l : List UInt8} (hl : l.length % 2 = 0) (m : List UInt8) :
    wordsLe (l ++ m) = wordsLe l ++ wordsLe m := by
  induction l using wordsLe.induct with
  | case1 => rfl
  | case2 a => cases hl
  | case3 a b l ih =>
      have heven : l.length % 2 = 0 := by
        simp only [List.length_cons] at hl
        omega
      simp only [List.cons_append, wordsLe, ih heven]

/-- A byte string checks where its little-endian words sum to a multiple of 65535 other than 0. -/
theorem onesSum_wordsBe_iff (l : List UInt8) :
    onesSum 65536 (wordsBe l) = 65535 ↔ (wordsLe l).sum ≠ 0 ∧ 65535 ∣ (wordsLe l).sum := by
  have hmod := sum_wordsBe_modEq l
  have hiff : onesSum 65536 (wordsBe l) = 65536 - 1 ↔ _ :=
    onesSum_eq_max_iff (by decide) (wordsBe_lt l)
  rw [hiff, Ne, sum_wordsBe_eq_zero, (hmod.dvd_iff (dvd_refl _))]
  omega

end P2PStream.Lib
