/-
# `P2PStream.Lib.Ebml` — the EBML element format

An EBML element is an id, a size and that many bytes of data.  Both the id and
the size are variable-length numbers: the number of leading zero bits of the
first byte says how many bytes follow, and a marker bit closes them.  Of an id
the marker is part of the value; of a size it is not.

`vint w v` is the size `v` written in `w` bytes.  An `Element` carries the proof
that its id and its size fit their widths, so every `Element` has one
well-formed encoding, `Element.bytes`.
-/
import P2PStream.Lib.Bytes

namespace P2PStream.Lib

/-- `v` as a variable-length number of `w` bytes: the marker bit, then `v`. -/
def vint (w v : Nat) : List UInt8 := toBe w (2 ^ (7 * w) + v)

@[simp] theorem length_vint (w v : Nat) : (vint w v).length = w := length_toBe _ _

/-- The first byte of a variable-length number: the marker bit and the top of the value. -/
theorem vint_eq_cons {w : Nat} (v : Nat) (h0 : 0 < w) (h8 : w ≤ 8) :
    vint w v = UInt8.ofNat (2 ^ (8 - w) + v / 256 ^ (w - 1)) :: toBe (w - 1) v := by
  obtain ⟨k, rfl⟩ : ∃ k, w = k + 1 := ⟨w - 1, by omega⟩
  have hpow : (2 : Nat) ^ (7 * (k + 1)) = 2 ^ (8 - (k + 1)) * 256 ^ k := by
    rw [show (256 : Nat) = 2 ^ 8 by norm_num, ← pow_mul, ← pow_add]
    congr 1
    omega
  have hpos : 0 < 256 ^ k := Nat.pow_pos (by decide)
  rw [vint, toBe, hpow, toBe_mul_add, Nat.mul_comm, Nat.mul_add_div hpos]
  simp

theorem vint_head_lt {w v : Nat} (h0 : 0 < w) (h8 : w ≤ 8) (hv : v < 2 ^ (7 * w)) :
    v / 256 ^ (w - 1) < 2 ^ (8 - w) := by
  apply Nat.div_lt_of_lt_mul
  rw [show (256 : Nat) = 2 ^ 8 by norm_num, ← pow_mul, ← pow_add,
    show 8 * (w - 1) + (8 - w) = 7 * w by omega]
  exact hv

/-- An element: its id in `idWidth` bytes, the width of its size field, and its
data.  The all-ones size means "unknown" and is not a size. -/
structure Element where
  idWidth : Nat
  idValue : Nat
  width : Nat
  data : List UInt8
  idWidth_pos : 0 < idWidth
  idWidth_le : idWidth ≤ 4
  idValue_lt : idValue < 2 ^ (7 * idWidth)
  width_pos : 0 < width
  width_le : width ≤ 8
  size_lt : data.length < 2 ^ (7 * width) - 1

/-! The widths of ids and sizes that are given as numbers. -/

theorem one_le_four : 1 ≤ 4 := by decide
theorem one_le_eight : 1 ≤ 8 := by decide
theorem two_le_eight : 2 ≤ 8 := by decide
theorem eight_pos : 0 < 8 := by decide
theorem eight_le_eight : 8 ≤ 8 := by decide

namespace Element

variable (e : Element)

/-- The id as the specification tabulates it, marker bit included. -/
def id : Nat := 2 ^ (7 * e.idWidth) + e.idValue

/-- The id and the size field. -/
def header : List UInt8 := vint e.idWidth e.idValue ++ vint e.width e.data.length

def bytes : List UInt8 := e.header ++ e.data

@[simp] theorem length_header : e.header.length = e.idWidth + e.width := by
  simp [header]

theorem length_bytes : e.bytes.length = e.idWidth + e.width + e.data.length := by
  simp [bytes]

theorem bytes_ne_nil : e.bytes ≠ [] := by
  intro h
  have := e.length_bytes
  have := e.idWidth_pos
  rw [h, List.length_nil] at *
  omega

/-- The element with other data, of as many bytes. -/
def withData (data : List UInt8) (h : data.length = e.data.length) : Element :=
  { e with data, size_lt := by rw [h]; exact e.size_lt }

theorem withData_bytes {data : List UInt8} (h : data.length = e.data.length) :
    (e.withData data h).bytes = e.header ++ data := by
  show vint e.idWidth e.idValue ++ vint e.width data.length ++ data = _
  rw [h]
  rfl

theorem length_withData_bytes {data : List UInt8} (h : data.length = e.data.length) :
    (e.withData data h).bytes.length = e.bytes.length := by
  rw [length_bytes, length_bytes]
  exact congrArg _ h

theorem data_length_lt : e.data.length < 2 ^ (7 * e.width) := by
  have := e.size_lt
  omega

end Element

end P2PStream.Lib
