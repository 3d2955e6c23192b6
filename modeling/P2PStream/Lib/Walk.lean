/-
# `P2PStream.Lib.Walk` — a cursor in a machine word

A parser walks over a buffer: from position `p` it leaves the loop, or it goes on
behind the header and the data of the element that stands there.  The sum is taken
in a machine word and can wrap, and the walk then goes back.  It moves forward
exactly when no element that it goes over ends behind the last word, where the
elements are laid end to end from the start; and a walk that moves forward ends.
-/
import Mathlib.Logic.Relation
import Mathlib.Data.Fintype.Pigeonhole

namespace P2PStream.Lib

/-- A walk: whether it goes on from a position, and what it then steps over. -/
structure Walk where
  goesOn : Nat → Prop
  header : Nat → Nat
  data : Nat → Nat
  word : Nat
  header_pos : ∀ p, 0 < header p
  data_lt : ∀ p, data p < word
  decidable : DecidablePred goesOn

namespace Walk

variable (w : Walk)

instance : DecidablePred w.goesOn := w.decidable

/-- Where the element at `p` ends. -/
def stop (p : Nat) : Nat := p + w.header p + w.data p

/-- The position after one round. -/
def next (p : Nat) : Nat := w.stop p % w.word

/-- The positions that the walk comes to. -/
def Reached : Nat → Prop := Relation.ReflTransGen (fun p q => w.goesOn p ∧ q = w.next p) 0

/-- The positions at which the elements start when they are laid end to end. -/
def Boundary : Nat → Prop := Relation.ReflTransGen (fun p q => w.goesOn p ∧ q = w.stop p) 0

/-- No round goes back: each steps over the header at least. -/
def Advances : Prop := ∀ p, w.Reached p → w.goesOn p → p + w.header p ≤ w.next p

/-- No element that the walk goes over ends behind the last word. -/
def Fits : Prop := ∀ p, w.Boundary p → w.goesOn p → w.stop p < w.word

/-- The walk with `fuel` rounds: where it leaves the loop. -/
def run : Nat → Nat → Option Nat
  | 0, _ => none
  | fuel + 1, p => if w.goesOn p then run fuel (w.next p) else some p

variable {w}

theorem next_of_lt {p : Nat} (h : w.stop p < w.word) : w.next p = w.stop p := Nat.mod_eq_of_lt h

/-- A sum that wraps falls short of the header. -/
theorem stop_lt_of_advance {p : Nat} (h : p + w.header p ≤ w.next p) : w.stop p < w.word := by
  by_contra hwrap
  have hdata := w.data_lt p
  have hback : w.next p ≤ w.stop p - w.word := by
    rw [next, Nat.mod_eq_sub_mod (Nat.le_of_not_lt hwrap)]
    exact Nat.mod_le _ _
  have hstop : w.stop p = p + w.header p + w.data p := rfl
  omega

theorem reached_of_closed {P : Nat → Prop} (hstart : P 0)
    (hround : ∀ p, w.Reached p → P p → w.goesOn p → P (w.next p)) {p : Nat} (hp : w.Reached p) :
    P p := by
  induction hp with
  | refl => exact hstart
  | tail hp hstep ih =>
      obtain ⟨hgo, rfl⟩ := hstep
      exact hround _ hp ih hgo

theorem reached_of_boundary (h : w.Advances) {p : Nat} (hp : w.Boundary p) : w.Reached p := by
  induction hp with
  | refl => exact .refl
  | tail _ hstep ih =>
      obtain ⟨hgo, rfl⟩ := hstep
      have hfits := stop_lt_of_advance (h _ ih hgo)
      exact ih.tail ⟨hgo, (next_of_lt hfits).symm⟩

theorem boundary_of_reached (h : w.Fits) {p : Nat} (hp : w.Reached p) : w.Boundary p := by
  induction hp with
  | refl => exact .refl
  | tail _ hstep ih =>
      obtain ⟨hgo, rfl⟩ := hstep
      exact ih.tail ⟨hgo, next_of_lt (h _ ih hgo)⟩

theorem advances_iff : w.Advances ↔ w.Fits := by
  constructor
  · intro h p hp hgo
    exact stop_lt_of_advance (h p (reached_of_boundary h hp) hgo)
  · intro h p hp hgo
    rw [next_of_lt (h p (boundary_of_reached h hp) hgo)]
    exact Nat.le_add_right _ _

/-- A walk that moves forward and stays within a limit ends in so many rounds. -/
theorem run_ne_none (h : w.Advances) {limit : Nat} (hlimit : ∀ p, w.goesOn p → w.next p ≤ limit) :
    ∀ fuel p, w.Reached p → p ≤ limit → limit < p + fuel → w.run fuel p ≠ none := by
  intro fuel
  induction fuel with
  | zero =>
      intro p _ hp hfuel
      omega
  | succ fuel ih =>
      intro p hreach hp hfuel
      rw [run]
      split
      · next hgo =>
        have hadvance := h p hreach hgo
        have hpos := w.header_pos p
        exact ih (w.next p) (hreach.tail ⟨hgo, rfl⟩) (hlimit p hgo) (by omega)
      · exact Option.some_ne_none p

/-! ## Walks that never end -/

theorem run_eq_none_of_fixed {p : Nat} (hgo : w.goesOn p) (hnext : w.next p = p) (fuel : Nat) :
    w.run fuel p = none := by
  induction fuel with
  | zero => rfl
  | succ fuel ih => rw [run, if_pos hgo, hnext, ih]

/-- The position after `k` rounds, as if every round went on. -/
def after (w : Walk) : Nat → Nat
  | 0 => 0
  | k + 1 => w.next (after w k)

theorem run_after_eq_none_iff (fuel k : Nat) :
    w.run fuel (w.after k) = none ↔ ∀ i, i < fuel → w.goesOn (w.after (k + i)) := by
  induction fuel generalizing k with
  | zero => simp [run]
  | succ fuel ih =>
      rw [run]
      split
      · next hgo =>
        rw [show w.next (w.after k) = w.after (k + 1) from rfl, ih]
        constructor
        · intro h i hi
          cases i with
          | zero => exact hgo
          | succ i =>
              rw [← Nat.succ_add_eq_add_succ]
              exact h i (by omega)
        · intro h i hi
          rw [Nat.succ_add_eq_add_succ]
          exact h (i + 1) (by omega)
      · next hgo =>
        simp only [reduceCtorEq, false_iff]
        exact fun h => hgo (h 0 (Nat.succ_pos fuel))

theorem after_add_of_eq {i j : Nat} (h : w.after i = w.after j) (k : Nat) :
    w.after (i + k) = w.after (j + k) := by
  induction k with
  | zero => exact h
  | succ k ih =>
      show w.next (w.after (i + k)) = w.next (w.after (j + k))
      rw [ih]

/-- A walk that goes on more often than there are positions comes to one twice, and never ends. -/
theorem run_eq_none_iff {limit : Nat} (hlimit : ∀ p, w.goesOn p → w.next p ≤ limit) :
    w.run (limit + 2) 0 = none ↔ ∀ fuel, w.run fuel 0 = none := by
  refine ⟨fun h fuel => ?_, fun h => h _⟩
  have hgo : ∀ k, k < limit + 2 → w.goesOn (w.after k) := by
    intro k hk
    have hall := (run_after_eq_none_iff (limit + 2) 0).mp h k hk
    rwa [Nat.zero_add] at hall
  have hle : ∀ k, k < limit + 2 → w.after k < limit + 1 := by
    intro k hk
    cases k with
    | zero => exact Nat.succ_pos limit
    | succ k => exact Nat.lt_succ_of_le (hlimit _ (hgo k (by omega)))
  obtain ⟨i, j, hij, heq⟩ := Fintype.exists_ne_map_eq_of_card_lt
    (fun k : Fin (limit + 2) => (⟨w.after k, hle k k.isLt⟩ : Fin (limit + 1))) (by simp)
  have hrepeat : ∃ i j, i < j ∧ j < limit + 2 ∧ w.after i = w.after j := by
    have hval := Fin.mk.inj heq
    rcases Nat.lt_or_gt_of_ne (Fin.val_ne_of_ne hij) with hlt | hlt
    · exact ⟨i, j, hlt, j.isLt, hval⟩
    · exact ⟨j, i, hlt, i.isLt, hval.symm⟩
  obtain ⟨i, j, hij, hj, heq⟩ := hrepeat
  have hforever : ∀ k, w.goesOn (w.after k) := by
    intro k
    induction k using Nat.strong_induction_on with
    | _ k ih =>
        by_cases hk : k < j
        · exact hgo k (by omega)
        · have hback := after_add_of_eq heq (k - j)
          rw [show j + (k - j) = k by omega] at hback
          exact hback ▸ ih (i + (k - j)) (by omega)
  exact (run_after_eq_none_iff fuel 0).mpr fun k _ => hforever _

end Walk

end P2PStream.Lib
