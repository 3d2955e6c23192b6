/-
# `P2PStream.Webm.Chank` — reading one element header (`webm_parser.c`)

`GetEBMLID`, `GetDataBytes` and `GetChank`.  Sizes and positions are `u64` in
the source and natural numbers reduced modulo `2 ^ 64` here, at the points where
the source can wrap.  A first byte of zero has no marker bit; the scanning loop
then runs off its end and reads a nine-byte field.
-/
import P2PStream.Lib.Ebml
import Mathlib.Data.Nat.ModEq
import Mathlib.Tactic.IntervalCases

namespace P2PStream

open Lib

def ebmlId : Nat := 0x1a45dfa3
def voidId : Nat := 0xec
def segmentId : Nat := 0x18538067
def seekheadId : Nat := 0x114d9b74
def tracksId : Nat := 0x1654ae6b
def infoId : Nat := 0x1549a966
def clusterId : Nat := 0x1f43b675
def simpleblockId : Nat := 0xa3
def timecodeId : Nat := 0xe7
def cueId : Nat := 0x1c53bb6b

theorem simpleblock_lt : 0x23 < 2 ^ (7 * 1) := by decide
theorem timecode_lt : 0x67 < 2 ^ (7 * 1) := by decide

def clusterIdBytes : Nat := 4
def clusterHeaderBytes : Nat := 12

/-- `struct Chank`. -/
structure Chank where
  id : Nat
  idBytes : Nat
  dataHeaderPosition : Nat
  dataBytes : Nat
  chankBytes : Nat
  deriving DecidableEq, Repr

/-- A `bzero`ed `struct Chank`. -/
def Chank.zero : Chank := ⟨0, 0, 0, 0, 0⟩

/-- The loop `for( i = 7 ; i >= 0 ; i-- )` that both readers start with: `8 - i`
for the highest set bit `i` below `n`, and `9` when the loop runs off its end. -/
def scanMarker (b : UInt8) : Nat → Nat
  | 0 => 9
  | n + 1 => if b.toNat.testBit n then 8 - n else scanMarker b n

/-- The length of a field, from its first byte. -/
def markerLength (b : UInt8) : Nat := scanMarker b 8

/-- `x <<= 8 ; x += buf[i]` for the `n` bytes from `buf[i]` on, in a `u64`. -/
def accumulate (buf : Buf) (i : Nat) : Nat → Nat → Nat
  | 0, acc => acc
  | n + 1, acc => accumulate buf (i + 1) n ((acc * 256 + (buf i).toNat) % 2 ^ 64)

/-- `GetEBMLID`: the id (returned as a `u32`) and its length. -/
def getEBMLID (buf : Buf) : Nat × Nat :=
  let idBytes := markerLength (buf 0)
  (accumulate buf 1 (idBytes - 1) (buf 0).toNat % 2 ^ 32, idBytes)

/-- `GetDataBytes`: the size, marker removed, and the length of its field. -/
def getDataBytes (buf : Buf) : Nat × Nat :=
  let dataBytesLength := markerLength (buf 0)
  (accumulate buf 1 (dataBytesLength - 1) ((buf 0).toNat &&& (0xff >>> dataBytesLength)),
    dataBytesLength)

/-- The size that stands for "unknown", `0x01ffffffffffffff` with its marker removed. -/
def unknownSize : Nat := 0xffffffffffffff

/-- `GetChank`. -/
def getChank (buf : Buf) : Chank :=
  let (id, idBytes) := getEBMLID buf
  let (dataBytes, sizeBytes) := getDataBytes (buf.drop idBytes)
  let currentPosition := idBytes + sizeBytes
  if dataBytes = unknownSize then
    { id, idBytes, dataHeaderPosition := currentPosition, dataBytes := 0,
      chankBytes := currentPosition }
  else
    { id, idBytes, dataHeaderPosition := currentPosition, dataBytes,
      chankBytes := (currentPosition + dataBytes) % 2 ^ 64 }

@[simp] theorem getChank_id (buf : Buf) : (getChank buf).id = (getEBMLID buf).1 := by
  simp only [getChank]
  split <;> rfl

theorem getChank_chankBytes {buf : Buf} {id n d k : Nat} (hid : getEBMLID buf = (id, n))
    (hsize : getDataBytes (buf.drop n) = (d, k)) :
    (getChank buf).chankBytes = if d = unknownSize then n + k else (n + k + d) % 2 ^ 64 := by
  simp only [getChank, hid, hsize]
  split <;> rfl

theorem getChank_dataHeaderPosition (buf : Buf) : (getChank buf).dataHeaderPosition =
    markerLength (buf 0) + markerLength (buf (markerLength (buf 0))) := by
  simp only [getChank]
  split <;> rfl

/-! ## The marker scan -/

/-- The scan finds the marker that `vint` puts there, and the mask removes it. -/
theorem marker_vint : ∀ w, 0 < w → w ≤ 8 → ∀ x, x < 2 ^ (8 - w) →
    markerLength (UInt8.ofNat (2 ^ (8 - w) + x)) = w ∧
      (UInt8.ofNat (2 ^ (8 - w) + x)).toNat &&& (0xff >>> w) = x ∧
      (UInt8.ofNat (2 ^ (8 - w) + x)).toNat = 2 ^ (8 - w) + x := by
  intro w h0 h8
  interval_cases w <;> decide +kernel

theorem markerLength_zero : markerLength 0 = 9 := by decide

theorem markerLength_pos (b : UInt8) : 0 < markerLength b := by
  have h : ∀ n ≤ 8, 0 < scanMarker b n := by
    intro n
    induction n with
    | zero => intro _; exact Nat.succ_pos 8
    | succ n ih =>
        intro hn
        rw [scanMarker]
        split
        · omega
        · exact ih (by omega)
  exact h 8 (le_refl 8)

/-- A marked first byte: the field has at most eight bytes and the mask leaves
fewer bits than the marker's place. -/
theorem marker_mask : ∀ n < 256, n ≠ 0 → markerLength (UInt8.ofNat n) ≤ 8 ∧
    n &&& (0xff >>> markerLength (UInt8.ofNat n)) < 2 ^ (8 - markerLength (UInt8.ofNat n)) := by
  decide +kernel

/-! ## The accumulating loop -/

theorem accumulate_mod (buf : Buf) (n : Nat) :
    ∀ i acc, accumulate buf i (n + 1) acc % 256 = (buf (i + n)).toNat := by
  induction n with
  | zero =>
      intro i acc
      have hlt := (buf i).toNat_lt
      rw [accumulate, accumulate, Nat.mod_mod_of_dvd _ (by decide), Nat.add_zero]
      omega
  | succ n ih =>
      intro i acc
      rw [accumulate, ih, Nat.add_right_comm, Nat.add_assoc]

theorem accumulate_lt {buf : Buf} (n : Nat) :
    ∀ i acc, acc < 2 ^ 64 → accumulate buf i n acc < 2 ^ 64 := by
  induction n with
  | zero => exact fun i acc h => h
  | succ n ih => exact fun i acc _ => ih (i + 1) _ (Nat.mod_lt _ (by decide))

theorem accumulate_modEq (buf : Buf) (n : Nat) :
    ∀ i acc, Nat.ModEq (2 ^ 64) (accumulate buf i n acc)
      (acc * 256 ^ n + ofBe ((buf.drop i).take n)) := by
  induction n with
  | zero =>
      intro i acc
      show Nat.ModEq (2 ^ 64) acc (acc * 256 ^ 0 + 0)
      rw [pow_zero, Nat.mul_one, Nat.add_zero]
  | succ n ih =>
      intro i acc
      have hbytes : (buf.drop i).take (n + 1) = buf i :: (buf.drop (i + 1)).take n := by
        rw [Buf.take_eq_cons (Nat.succ_pos n), Buf.drop_drop]
        rfl
      have hsum : acc * 256 ^ (n + 1) + ofBe ((buf.drop i).take (n + 1)) =
          (acc * 256 + (buf i).toNat) * 256 ^ n + ofBe ((buf.drop (i + 1)).take n) := by
        rw [hbytes, ofBe_cons, Buf.length_take]
        ring
      rw [hsum, accumulate]
      exact (ih (i + 1) _).trans (((Nat.mod_modEq _ _).mul_right _).add_right _)

theorem accumulate_eq {buf : Buf} {i : Nat} {l : List UInt8} (h : (buf.drop i).Holds l) :
    ∀ acc, acc * 256 ^ l.length + ofBe l < 2 ^ 64 →
      accumulate buf i l.length acc = acc * 256 ^ l.length + ofBe l := by
  induction l generalizing i with
  | nil => intro acc _; simp [accumulate, ofBe, ofBeFrom]
  | cons b l ih =>
      intro acc hlt
      obtain ⟨hb, hl⟩ := Buf.holds_cons.mp h
      have hb' : buf i = b := by simpa using hb
      have hsum : acc * 256 ^ (b :: l).length + ofBe (b :: l)
          = (acc * 256 + b.toNat) * 256 ^ l.length + ofBe l := by
        rw [ofBe_cons, List.length_cons, pow_succ]
        ring
      have hone : 1 ≤ 256 ^ l.length := Nat.one_le_pow _ _ (by decide)
      have hstep : acc * 256 + b.toNat < 2 ^ 64 := by
        rw [hsum] at hlt
        nlinarith [Nat.mul_le_mul_left (acc * 256 + b.toNat) hone]
      rw [List.length_cons, accumulate, hb', Nat.mod_eq_of_lt hstep, ← List.length_cons, hsum]
      rw [Buf.drop_drop] at hl
      exact ih hl _ (by rwa [← hsum])

/-- Whatever the bytes, a size field with a marker stays below `2 ^ 56`. -/
theorem getDataBytes_lt {buf : Buf} (h : buf 0 ≠ 0) :
    (getDataBytes buf).1 < 2 ^ (7 * markerLength (buf 0)) ∧ markerLength (buf 0) ≤ 8 := by
  have hne : (buf 0).toNat ≠ 0 := fun h0 => h (UInt8.toNat_inj.mp h0)
  obtain ⟨h8, hmask⟩ := marker_mask (buf 0).toNat (buf 0).toNat_lt hne
  rw [UInt8.ofNat_toNat] at h8 hmask
  have hpos := markerLength_pos (buf 0)
  generalize hw : markerLength (buf 0) = w at *
  refine ⟨?_, h8⟩
  generalize hx : (buf 0).toNat &&& (0xff >>> w) = x at hmask
  have hrest : (buf.drop 1).Holds ((buf.drop 1).take (w - 1)) :=
    Buf.holds_take.mpr (by rw [Buf.length_take])
  have hlt := ofBe_lt ((buf.drop 1).take (w - 1))
  rw [Buf.length_take] at hlt
  have hpow : (2 : Nat) ^ (7 * w) = 2 ^ (8 - w) * 256 ^ (w - 1) := by
    rw [show (256 : Nat) = 2 ^ 8 by norm_num, ← pow_mul, ← pow_add]
    congr 1
    omega
  have hsum : x * 256 ^ (w - 1) + ofBe ((buf.drop 1).take (w - 1)) < 2 ^ (7 * w) := by
    rw [hpow]
    nlinarith [Nat.mul_le_mul_right (256 ^ (w - 1)) (Nat.succ_le_of_lt hmask)]
  have h56 : (2 : Nat) ^ (7 * w) ≤ 2 ^ 56 := Nat.pow_le_pow_right (by decide) (by omega)
  have hacc := accumulate_eq hrest x (by rw [Buf.length_take]; omega)
  rw [Buf.length_take] at hacc
  simp only [getDataBytes, hw, hx, hacc]
  exact hsum

/-! ## Fields of any bytes -/

theorem getEBMLID_fst (buf : Buf) :
    (getEBMLID buf).1 = ofBe (buf.take (markerLength (buf 0))) % 2 ^ 32 := by
  rw [Buf.take_eq_cons (markerLength_pos _), ofBe_cons, Buf.length_take]
  exact (accumulate_modEq buf (markerLength (buf 0) - 1) 1 (buf 0).toNat).of_dvd (by decide)

theorem getEBMLID_eq_iff (buf : Buf) (hlength : 4 ≤ markerLength (buf 0)) {id : Nat}
    (hid : id < 2 ^ 32) :
    (getEBMLID buf).1 = id ↔ (buf.drop (markerLength (buf 0) - 4)).take 4 = toBe 4 id := by
  have hlast := ofBe_lt ((buf.drop (markerLength (buf 0) - 4)).take 4)
  rw [Buf.length_take, show (256 : Nat) ^ 4 = 2 ^ 32 by decide] at hlast
  have hvalue : (getEBMLID buf).1 = ofBe ((buf.drop (markerLength (buf 0) - 4)).take 4) := by
    have hsplit : buf.take (markerLength (buf 0)) = buf.take (markerLength (buf 0) - 4 + 4) :=
      congrArg _ (by omega)
    rw [getEBMLID_fst, hsplit, Buf.take_add, ofBe_append, Buf.length_take,
      show (256 : Nat) ^ 4 = 2 ^ 32 by decide, Nat.mul_add_mod_self_right, Nat.mod_eq_of_lt hlast]
  rw [hvalue]
  constructor
  · rintro rfl
    exact (toBe_ofBe_take _ _).symm
  · intro h
    rw [h, ofBe_toBe_of_lt hid]

theorem getEBMLID_mod {buf : Buf} (hlength : 2 ≤ markerLength (buf 0)) :
    (getEBMLID buf).1 % 256 = (buf (markerLength (buf 0) - 1)).toNat := by
  obtain ⟨n, hn⟩ : ∃ n, markerLength (buf 0) = n + 2 := ⟨_, (Nat.sub_add_cancel hlength).symm⟩
  simp only [getEBMLID, hn]
  rw [Nat.mod_mod_of_dvd _ (by decide), show n + 2 - 1 = n + 1 from rfl, accumulate_mod,
    Nat.add_comm 1]

theorem getEBMLID_lt (buf : Buf) : (getEBMLID buf).1 < 256 ^ markerLength (buf 0) := by
  have hlt := ofBe_lt (buf.take (markerLength (buf 0)))
  rw [Buf.length_take] at hlt
  rw [getEBMLID_fst]
  exact (Nat.mod_le _ _).trans_lt hlt

theorem getEBMLID_short (buf : Buf) (hlong : 2 ≤ markerLength (buf 0))
    (hshort : markerLength (buf 0) < 4) : 256 ≤ (getEBMLID buf).1 ∧ (getEBMLID buf).1 < 2 ^ 24 := by
  have hne : (buf 0).toNat ≠ 0 := by
    intro h
    rw [UInt8.toNat_inj.mp (show (buf 0).toNat = (0 : UInt8).toNat from h),
      markerLength_zero] at hshort
    omega
  have hle : (256 : Nat) ^ markerLength (buf 0) ≤ 256 ^ 3 :=
    Nat.pow_le_pow_right (by decide) (by omega)
  have hpow : (256 : Nat) ^ 1 ≤ 256 ^ (markerLength (buf 0) - 1) :=
    Nat.pow_le_pow_right (by decide) (by omega)
  have hlt := ofBe_lt (buf.take (markerLength (buf 0)))
  rw [Buf.length_take] at hlt
  have hhead : 256 ≤ ofBe (buf.take (markerLength (buf 0))) := by
    rw [Buf.take_eq_cons (markerLength_pos _), ofBe_cons, Buf.length_take]
    nlinarith [Nat.one_le_iff_ne_zero.mpr hne]
  have hvalue : (getEBMLID buf).1 = ofBe (buf.take (markerLength (buf 0))) := by
    rw [getEBMLID_fst, Nat.mod_eq_of_lt (by omega)]
  exact ⟨hvalue ▸ hhead, (getEBMLID_lt buf).trans_le (hle.trans (by decide))⟩

theorem getDataBytes_nine {buf : Buf} (h : buf 0 = 0) :
    getDataBytes buf = (ofBe ((buf.drop 1).take 8), 9) := by
  have hlt := ofBe_lt ((buf.drop 1).take 8)
  rw [Buf.length_take] at hlt
  have hmod := accumulate_modEq buf 8 1 0
  rw [Nat.zero_mul, Nat.zero_add] at hmod
  have hacc := hmod.eq_of_lt_of_lt (accumulate_lt 8 1 0 (by decide)) hlt
  simp only [getDataBytes, h, markerLength_zero]
  exact congrArg (·, 9) hacc

/-! ## Well-formed fields -/

theorem getDataBytes_vint {buf : Buf} {w v : Nat} (h0 : 0 < w) (h8 : w ≤ 8)
    (hv : v < 2 ^ (7 * w)) (h : buf.Holds (vint w v)) : getDataBytes buf = (v, w) := by
  rw [vint_eq_cons v h0 h8, Buf.holds_cons] at h
  obtain ⟨hhead, htail⟩ := h
  obtain ⟨hlen, hmask, -⟩ := marker_vint w h0 h8 _ (vint_head_lt h0 h8 hv)
  have hvalue : v / 256 ^ (w - 1) * 256 ^ (w - 1) + ofBe (toBe (w - 1) v) = v := by
    rw [ofBe_toBe, Nat.mul_comm, Nat.div_add_mod]
  have hbound : v < 2 ^ 64 := by
    have : 2 ^ (7 * w) ≤ 2 ^ 56 := Nat.pow_le_pow_right (by decide) (by omega)
    omega
  have hacc := accumulate_eq htail (v / 256 ^ (w - 1)) (by
    rw [length_toBe, hvalue]
    exact hbound)
  rw [length_toBe, hvalue] at hacc
  simp only [getDataBytes, hhead, hlen, hmask, hacc]

theorem getEBMLID_vint {buf : Buf} {w v : Nat} (h0 : 0 < w) (h4 : w ≤ 4)
    (hv : v < 2 ^ (7 * w)) (h : buf.Holds (vint w v)) :
    getEBMLID buf = (2 ^ (7 * w) + v, w) := by
  have h8 : w ≤ 8 := by omega
  rw [vint_eq_cons v h0 h8, Buf.holds_cons] at h
  obtain ⟨hhead, htail⟩ := h
  obtain ⟨hlen, -, hval⟩ := marker_vint w h0 h8 _ (vint_head_lt h0 h8 hv)
  have hpow : (2 : Nat) ^ (7 * w) = 2 ^ (8 - w) * 256 ^ (w - 1) := by
    rw [show (256 : Nat) = 2 ^ 8 by norm_num, ← pow_mul, ← pow_add]
    congr 1
    omega
  have hvalue : (2 ^ (8 - w) + v / 256 ^ (w - 1)) * 256 ^ (w - 1) + ofBe (toBe (w - 1) v)
      = 2 ^ (7 * w) + v := by
    rw [ofBe_toBe, Nat.add_mul, ← hpow, Nat.add_assoc, Nat.div_add_mod']
  have hbound : 2 ^ (7 * w) + v < 2 ^ 32 := by
    have : 2 ^ (7 * w) ≤ 2 ^ 28 := Nat.pow_le_pow_right (by decide) (by omega)
    omega
  have hacc := accumulate_eq htail (2 ^ (8 - w) + v / 256 ^ (w - 1)) (by
    rw [length_toBe, hvalue]
    omega)
  rw [length_toBe, hvalue] at hacc
  simp only [getEBMLID, hhead, hlen, hval, hacc, Nat.mod_eq_of_lt hbound]

/-- `GetChank` on an encoded header gives back the id, the size and the positions. -/
theorem getChank_header {buf : Buf} {n x w v : Nat} (hn0 : 0 < n) (hn4 : n ≤ 4)
    (hx : x < 2 ^ (7 * n)) (hw0 : 0 < w) (hw8 : w ≤ 8) (hv : v < 2 ^ (7 * w))
    (hknown : v ≠ unknownSize) (h : buf.Holds (vint n x ++ vint w v)) :
    getChank buf = ⟨2 ^ (7 * n) + x, n, n + w, v, n + w + v⟩ := by
  obtain ⟨hid, hsize⟩ := Buf.holds_append.mp h
  rw [length_vint] at hsize
  have hbound : n + w + v < 2 ^ 64 := by
    have : 2 ^ (7 * w) ≤ 2 ^ 56 := Nat.pow_le_pow_right (by decide) (by omega)
    omega
  simp only [getChank, getEBMLID_vint hn0 hn4 hx hid, getDataBytes_vint hw0 hw8 hv hsize,
    if_neg hknown, Nat.mod_eq_of_lt hbound]

theorem getChank_unknown {buf : Buf} {n x : Nat} (hn0 : 0 < n) (hn4 : n ≤ 4)
    (hx : x < 2 ^ (7 * n)) (h : buf.Holds (vint n x ++ vint 8 unknownSize)) :
    getChank buf = ⟨2 ^ (7 * n) + x, n, n + 8, 0, n + 8⟩ := by
  obtain ⟨hid, hsize⟩ := Buf.holds_append.mp h
  rw [length_vint] at hsize
  have hv : unknownSize < 2 ^ (7 * 8) := by decide
  simp only [getChank, getEBMLID_vint hn0 hn4 hx hid,
    getDataBytes_vint (by decide) (by decide) hv hsize, if_true]

theorem getChank_element {buf : Buf} (e : Element) (h : buf.Holds e.header) :
    getChank buf = ⟨e.id, e.idWidth, e.header.length, e.data.length, e.bytes.length⟩ := by
  have hknown : e.data.length ≠ unknownSize := by
    have hs := e.size_lt
    have hp : 2 ^ (7 * e.width) ≤ 2 ^ 56 :=
      Nat.pow_le_pow_right (by decide) (by have := e.width_le; omega)
    have hu : unknownSize = 2 ^ 56 - 1 := by decide
    omega
  rw [getChank_header e.idWidth_pos e.idWidth_le e.idValue_lt e.width_pos e.width_le
    e.data_length_lt hknown h, e.length_header, e.length_bytes]
  rfl

end P2PStream
