/-
# `P2PStream.Webm.Timecode` — what `ChangeTimecode` makes of a Timecode

The payload of the first block of a cluster starts with the cluster's Timecode.  A
receiver adds the offset of its parent and subtracts its own, in a `u64`, and puts the
result where the old value was, in as many bytes.  Where the difference is a number that
is not above the old sum nothing wraps and nothing is cut.
-/
import P2PStream.Webm.Assemble

namespace P2PStream

open Lib

/-- A Timecode element of at most eight data bytes, and the width of its size field. -/
structure Timecode where
  width : Nat
  data : List UInt8
  width_pos : 0 < width
  width_le : width ≤ 8
  data_le : data.length ≤ 8

namespace Timecode

variable (t : Timecode)

def element : Element where
  idWidth := 1
  idValue := 0x67
  width := t.width
  data := t.data
  idWidth_pos := Nat.one_pos
  idWidth_le := one_le_four
  idValue_lt := timecode_lt
  width_pos := t.width_pos
  width_le := t.width_le
  size_lt := by
    have hpow : 2 ^ 7 ≤ 2 ^ (7 * t.width) :=
      Nat.pow_le_pow_right (by decide) (Nat.le_mul_of_pos_right 7 t.width_pos)
    have := t.data_le
    omega

def bytes : List UInt8 := t.element.bytes

/-- The number that the data spells. -/
def value : Nat := ofBe t.data

/-- The same element with another number, in as many bytes. -/
def withValue (v : Nat) : Timecode where
  width := t.width
  data := toBe t.data.length v
  width_pos := t.width_pos
  width_le := t.width_le
  data_le := by
    rw [length_toBe]
    exact t.data_le

theorem value_lt : t.value < 256 ^ t.data.length := ofBe_lt t.data

theorem value_lt_u64 : t.value < 2 ^ 64 := by
  have hpow : 256 ^ t.data.length ≤ 256 ^ 8 := Nat.pow_le_pow_right (by decide) t.data_le
  have := t.value_lt
  omega

@[simp] theorem length_withValue_data (v : Nat) :
    (t.withValue v).data.length = t.data.length := length_toBe _ _

theorem withValue_header (v : Nat) : (t.withValue v).element.header = t.element.header := by
  show vint 1 0x67 ++ vint t.width (t.withValue v).data.length = _
  rw [length_withValue_data]
  rfl

theorem length_withValue_bytes (v : Nat) : (t.withValue v).bytes.length = t.bytes.length := by
  have hdata := t.length_withValue_data v
  rw [bytes, bytes, Element.bytes, Element.bytes, withValue_header, List.length_append,
    List.length_append]
  exact congrArg (_ + ·) hdata

theorem getChank_eq {buf : Buf} {rest : List UInt8} (h : buf.Holds (t.bytes ++ rest)) :
    getChank buf = ⟨timecodeId, 1, t.element.header.length, t.data.length, t.bytes.length⟩ := by
  obtain ⟨hbytes, -⟩ := Buf.holds_append.mp h
  exact getChank_element t.element (Buf.holds_append.mp hbytes).1

theorem accumulate_eq_value {buf : Buf} {rest : List UInt8} (h : buf.Holds (t.bytes ++ rest)) :
    accumulate buf t.element.header.length t.data.length 0 = t.value := by
  obtain ⟨hbytes, -⟩ := Buf.holds_append.mp h
  have hdata := (Buf.holds_append.mp hbytes).2
  have hlt := t.value_lt_u64
  have hacc := accumulate_eq hdata 0 (by rw [Nat.zero_mul, Nat.zero_add]; exact hlt)
  rw [Nat.zero_mul, Nat.zero_add] at hacc
  exact hacc

end Timecode

/-! ## Rewriting -/

theorem shiftRight_toUInt8 (x : UInt64) {n : Nat} (hn : n < 8) :
    (x >>> UInt64.ofNat (8 * n)).toUInt8 = UInt8.ofNat (x.toNat / 256 ^ n) := by
  have hshift : (UInt64.ofNat (8 * n)).toNat = 8 * n :=
    UInt64.toNat_ofNat_of_lt' (by show 8 * n < 2 ^ 64; omega)
  apply UInt8.toNat_inj.mp
  rw [UInt64.toNat_toUInt8, UInt64.toNat_shiftRight, hshift, UInt8.toNat_ofNat',
    Nat.mod_eq_of_lt (by omega : 8 * n < 64), Nat.shiftRight_eq_div_pow, Nat.pow_mul]

theorem map_shiftRight_eq_toBe (x : UInt64) {n : Nat} (hn : n ≤ 8) :
    (List.range n).map (fun i => (x >>> UInt64.ofNat (8 * (n - i - 1))).toUInt8) =
      toBe n x.toNat := by
  induction n with
  | zero => rfl
  | succ n ih =>
      have htail : ∀ i, n + 1 - (i + 1) - 1 = n - i - 1 := by omega
      have hhead : n + 1 - 0 - 1 = n := by omega
      rw [List.range_succ_eq_map, List.map_cons, List.map_map, hhead, shiftRight_toUInt8 x hn, toBe,
        ← ih (by omega)]
      congr 1
      refine List.map_congr_left fun i _ => ?_
      rw [Function.comp_apply, Nat.succ_eq_add_one, htail]

theorem holds_put {buf : Buf} {a b c d : List UInt8} (h : buf.Holds (a ++ b ++ c))
    (hlength : d.length = b.length) : (buf.put a.length d).Holds (a ++ d ++ c) := by
  intro i hi
  have hwas := h i (by simp only [List.length_append] at hi ⊢; omega)
  simp only [Buf.put]
  split
  · next hin =>
    have hd : i - a.length < d.length := by omega
    rw [List.getElem_append_left (by rw [List.length_append]; omega),
      List.getElem_append_right hin.1, List.getD_eq_getElem?_getD, List.getElem?_eq_getElem hd,
      Option.getD_some]
  · next hout =>
    rw [hwas]
    by_cases hfront : i < a.length
    · rw [List.getElem_append_left (by rw [List.length_append]; omega),
        List.getElem_append_left hfront,
        List.getElem_append_left (by rw [List.length_append]; omega),
        List.getElem_append_left hfront]
    · have hback : a.length + d.length ≤ i := by
        by_contra hlt
        exact hout ⟨by omega, by omega⟩
      rw [List.getElem_append_right (by rw [List.length_append]; omega),
        List.getElem_append_right (by rw [List.length_append]; omega)]
      simp only [List.length_append, hlength]

theorem changeTimecode_put {buf : Buf} (w : Webm) (h : (getChank buf).id = timecodeId) :
    ∃ w' modified, modified.length = (getChank buf).dataBytes ∧
      changeTimecode buf w = .ok (w', buf.put (getChank buf).dataHeaderPosition modified) := by
  simp only [changeTimecode, if_pos h]
  refine ⟨_, _, ?_, rfl⟩
  rw [List.length_map, List.length_range]

/-- `ChangeTimecode` on a Timecode whose sum with the parent's offset is `sum`, where that is
not before the receiver's own offset. -/
theorem changeTimecode_timecode (t : Timecode) {buf : Buf} {rest : List UInt8} {w : Webm}
    (h : buf.Holds (t.bytes ++ rest)) {own : Nat}
    (hown : own = if w.isGetTimecodeOffset then w.timecodeOffset.toNat
      else t.value + w.nodeTimecodeOffset.toNat)
    (hle : own ≤ t.value + w.nodeTimecodeOffset.toNat)
    (hlt : t.value + w.nodeTimecodeOffset.toNat < 2 ^ 64) :
    ∃ buf', changeTimecode buf w = .ok ({ w with
        timecodeOffset := UInt64.ofNat own
        isGetTimecodeOffset := true }, buf') ∧
      buf'.Holds ((t.withValue (t.value + w.nodeTimecodeOffset.toNat - own)).bytes ++ rest) := by
  have htimestamp : UInt64.ofNat t.value + w.nodeTimecodeOffset =
      UInt64.ofNat (t.value + w.nodeTimecodeOffset.toNat) := by
    rw [UInt64.ofNat_add, UInt64.ofNat_toNat]
  have hoffset : (if w.isGetTimecodeOffset then w else
      { w with
        timecodeOffset := UInt64.ofNat (t.value + w.nodeTimecodeOffset.toNat)
        isGetTimecodeOffset := true }) =
      { w with timecodeOffset := UInt64.ofNat own, isGetTimecodeOffset := true } := by
    split at hown
    · next hget =>
      rw [if_pos hget, hown, UInt64.ofNat_toNat, ← hget]
    · next hget => rw [if_neg hget, hown]
  have hmodified : (UInt64.ofNat (t.value + w.nodeTimecodeOffset.toNat) - UInt64.ofNat own).toNat =
      t.value + w.nodeTimecodeOffset.toNat - own := by
    have hsum := UInt64.toNat_ofNat_of_lt' hlt
    have hsub := UInt64.toNat_ofNat_of_lt' (Nat.lt_of_le_of_lt hle hlt)
    rw [UInt64.toNat_sub_of_le _ _ (by rw [UInt64.le_iff_toNat_le, hsum, hsub]; exact hle), hsum,
      hsub]
  simp only [changeTimecode, t.getChank_eq h, t.accumulate_eq_value h, if_true, htimestamp, hoffset]
  refine ⟨_, rfl, ?_⟩
  rw [map_shiftRight_eq_toBe _ t.data_le, hmodified, Timecode.bytes, Element.bytes,
    Timecode.withValue_header]
  exact holds_put h (length_toBe _ _)

end P2PStream
