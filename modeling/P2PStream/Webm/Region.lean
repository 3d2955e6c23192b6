/-
# `P2PStream.Webm.Region` — the memory that an element's header is read from

`GetChank` reads the id, the size field behind it, and nothing else: two memories that
agree on a header give the same element.
-/
import P2PStream.Webm.Chank

namespace P2PStream

open Lib

/-- A stretch of memory: its first index and its length. -/
structure Region where
  start : Nat
  bytes : Nat
  deriving DecidableEq, Repr

/-- The region lies among the first `k` bytes. -/
def Region.Inside (k : Nat) (r : Region) : Prop := r.bytes = 0 ∨ r.start + r.bytes ≤ k

instance (k : Nat) (r : Region) : Decidable (r.Inside k) :=
  inferInstanceAs (Decidable (_ ∨ _))

/-- Two memories agree on a region. -/
def Region.Same (d e : Buf) (r : Region) : Prop :=
  ∀ i, i < r.bytes → d (r.start + i) = e (r.start + i)

section Same

variable {d e : Buf}

theorem take_same {r : Region} (h : r.Same d e) : (d.drop r.start).take r.bytes =
    (e.drop r.start).take r.bytes := Buf.take_congr h

theorem Region.Same.byte {n i : Nat} (h : Region.Same d e ⟨0, n⟩) (hi : i < n) : d i = e i := by
  have hbyte := h i hi
  rwa [Nat.zero_add] at hbyte

/-- What is put where the window's bytes begin it leaves the window as it was. -/
theorem put_same {req k : Nat} {l : List UInt8}
    (h : (d.drop k).take (req - k) <+: l) : Region.Same d (d.put k l) ⟨0, req⟩ := by
  intro i hi
  have hi' : i < req := hi
  show d (0 + i) = d.put k l (0 + i)
  rw [Nat.zero_add, Buf.put]
  split
  · next hin =>
    have hlt : i - k < ((d.drop k).take (req - k)).length := by
      rw [Buf.length_take]
      omega
    have hlt' : i - k < l.length := by omega
    have hbyte := h.getElem hlt
    simp only [Buf.take, List.getElem_map, List.getElem_range, Buf.drop_apply,
      Nat.add_sub_cancel' hin.1] at hbyte
    simp [hlt', hbyte]
  · rfl

theorem accumulate_same {i n : Nat} (h : Region.Same d e ⟨i, n⟩) (acc : Nat) :
    accumulate d i n acc = accumulate e i n acc := by
  induction n generalizing i acc with
  | zero => rfl
  | succ n ih =>
      have hfirst : d i = e i := h 0 (Nat.succ_pos n)
      have hrest : Region.Same d e ⟨i + 1, n⟩ := by
        intro j hj
        have hj' : j < n := hj
        have hnext := h (j + 1) (Nat.succ_lt_succ hj')
        rwa [← Nat.add_assoc, Nat.add_right_comm] at hnext
      rw [accumulate, accumulate, hfirst]
      exact ih hrest _

theorem Region.Same.part {j m k n : Nat} (h : Region.Same d e ⟨j, m⟩) (hj : j ≤ k)
    (hk : k + n ≤ j + m) : Region.Same d e ⟨k, n⟩ := by
  intro i hi
  have hi' : i < n := hi
  have hpart := h (k - j + i) (show k - j + i < m by omega)
  rwa [← Nat.add_assoc, Nat.add_sub_cancel' hj] at hpart

theorem Region.Same.drop {j k m : Nat} (h : Region.Same d e ⟨j + k, m⟩) :
    Region.Same (d.drop j) (e.drop j) ⟨k, m⟩ := by
  intro i hi
  have hpart := h i hi
  rwa [Nat.add_assoc] at hpart

theorem getEBMLID_same (h : Region.Same d e ⟨0, markerLength (d 0)⟩) :
    getEBMLID d = getEBMLID e := by
  have hpos := markerLength_pos (d 0)
  have hfirst : d 0 = e 0 := h 0 hpos
  simp only [getEBMLID, ← hfirst]
  rw [accumulate_same (h.part (k := 1) (n := markerLength (d 0) - 1) (by omega) (by omega))]

theorem getDataBytes_same (h : Region.Same d e ⟨0, markerLength (d 0)⟩) :
    getDataBytes d = getDataBytes e := by
  have hpos := markerLength_pos (d 0)
  have hfirst : d 0 = e 0 := h 0 hpos
  simp only [getDataBytes, ← hfirst]
  rw [accumulate_same (h.part (k := 1) (n := markerLength (d 0) - 1) (by omega) (by omega))]

theorem getChank_same (h : Region.Same d e ⟨0, (getChank d).dataHeaderPosition⟩) :
    getChank d = getChank e := by
  rw [getChank_dataHeaderPosition] at h
  have hid : getEBMLID d = getEBMLID e := getEBMLID_same (h.part (le_refl 0) (by omega))
  have hsize : getDataBytes (d.drop (getEBMLID d).2) = getDataBytes (e.drop (getEBMLID d).2) :=
    getDataBytes_same (Region.Same.drop (h.part (Nat.zero_le _) (by
      show markerLength (d 0) + markerLength (d (markerLength (d 0))) ≤ _
      omega)))
  simp only [getChank, ← hid, hsize]

end Same

end P2PStream
