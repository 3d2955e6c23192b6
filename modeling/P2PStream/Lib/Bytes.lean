/-
# `P2PStream.Lib.Bytes` — byte buffers and fixed-width big-endian numbers

A C buffer is a total function from indices to bytes: reading past what was
written gives whatever lies there, and the buffer says what that is.  A byte
string is a list.  The two meet in `Buf.Holds`, "the buffer starts with these
bytes", and every fact about parsing a buffer is stated against it.

Big-endian numbers of a fixed width are `toBe` and `ofBe`; they are inverse to
each other below `256 ^ w`.
-/
import Mathlib.Data.List.Basic
import Mathlib.Tactic.Ring
import Mathlib.Tactic.Linarith

namespace P2PStream.Lib

/-- The memory behind a `u8 *`. -/
abbrev Buf := Nat → UInt8

namespace Buf

/-- The all-zero buffer (`bzero`). -/
def zero : Buf := fun _ => 0

/-- Pointer arithmetic, `&buf[k]`. -/
def drop (b : Buf) (k : Nat) : Buf := fun i => b (k + i)

/-- `memcpy` of `l` to the front of `b`. -/
def overlay (b : Buf) (l : List UInt8) : Buf := fun i => l.getD i (b i)

/-- `memcpy( &b[k] , l , l.length )`. -/
def put (b : Buf) (k : Nat) (l : List UInt8) : Buf :=
  fun i => if k ≤ i ∧ i < k + l.length then l.getD (i - k) 0 else b i

/-- The memory from index `k` on replaced by `c`. -/
def splice (b : Buf) (k : Nat) (c : Buf) : Buf := fun i => if i < k then b i else c (i - k)

/-- The first `n` bytes. -/
def take (b : Buf) (n : Nat) : List UInt8 := (List.range n).map b

@[simp] theorem drop_apply (b : Buf) (k i : Nat) : b.drop k i = b (k + i) := rfl

@[simp] theorem drop_drop (b : Buf) (j k : Nat) : (b.drop j).drop k = b.drop (j + k) := by
  funext i
  simp [Nat.add_assoc]

@[simp] theorem drop_zero (b : Buf) : b.drop 0 = b := by
  funext i
  simp

@[simp] theorem length_take (b : Buf) (n : Nat) : (b.take n).length = n := by
  simp [take]

theorem take_add (b : Buf) (m n : Nat) : b.take (m + n) = b.take m ++ (b.drop m).take n := by
  simp only [take, List.range_add, List.map_append, List.map_map]
  rfl

theorem take_eq_cons {b : Buf} {n : Nat} (h : 0 < n) :
    b.take n = b 0 :: (b.drop 1).take (n - 1) := by
  have hsplit : b.take n = b.take (1 + (n - 1)) := congrArg _ (by omega)
  rw [hsplit, take_add]
  rfl

theorem take_congr {b c : Buf} {n : Nat} (h : ∀ i, i < n → b i = c i) : b.take n = c.take n :=
  List.map_congr_left fun i hi => h i (List.mem_range.mp hi)

/-- The buffer starts with the bytes of `l`. -/
def Holds (b : Buf) (l : List UInt8) : Prop := ∀ i, (h : i < l.length) → b i = l[i]

theorem holds_nil (b : Buf) : b.Holds [] := fun _ h => absurd h (Nat.not_lt_zero _)

theorem holds_cons {b : Buf} {x : UInt8} {l : List UInt8} :
    b.Holds (x :: l) ↔ b 0 = x ∧ (b.drop 1).Holds l := by
  constructor
  · intro h
    refine ⟨h 0 (by simp), fun i hi => ?_⟩
    have := h (1 + i) (by simp; omega)
    rw [drop_apply, this]
    simp [Nat.add_comm 1 i]
  · rintro ⟨h0, h⟩ i hi
    cases i with
    | zero => exact h0
    | succ i =>
        have := h i (by simpa using hi)
        simpa [Nat.add_comm 1 i] using this

theorem holds_append {b : Buf} {l m : List UInt8} :
    b.Holds (l ++ m) ↔ b.Holds l ∧ (b.drop l.length).Holds m := by
  induction l generalizing b with
  | nil => simp [holds_nil]
  | cons x l ih =>
      simp only [List.cons_append, holds_cons, ih, drop_drop, List.length_cons, and_assoc,
        Nat.add_comm 1]

theorem holds_take {b : Buf} {l : List UInt8} : b.Holds l ↔ b.take l.length = l := by
  constructor
  · intro h
    refine List.ext_getElem (by simp) fun i hi hj => ?_
    simpa [take] using h i hj
  · intro h i hi
    have : (b.take l.length)[i]? = l[i]? := by rw [h]
    simpa [take, hi] using this

theorem Holds.take_eq {b : Buf} {l : List UInt8} (h : b.Holds l) {n : Nat} (hn : n ≤ l.length) :
    b.take n = l.take n := by
  have hl : b.Holds (l.take n ++ l.drop n) := by rwa [List.take_append_drop]
  have := holds_take.mp (holds_append.mp hl).1
  rwa [List.length_take, Nat.min_eq_left hn] at this

theorem Holds.drop {b : Buf} {l : List UInt8} (h : b.Holds l) (k : Nat) (hk : k ≤ l.length) :
    (b.drop k).Holds (l.drop k) := by
  have hl : b.Holds (l.take k ++ l.drop k) := by rwa [List.take_append_drop]
  have := (holds_append.mp hl).2
  rwa [List.length_take, Nat.min_eq_left hk] at this

theorem Holds.restrict {b : Buf} {l m : List UInt8} (h : b.Holds m) (hp : l <+: m) : b.Holds l := by
  obtain ⟨t, rfl⟩ := hp
  exact (holds_append.mp h).1

theorem overlay_holds (b : Buf) (l : List UInt8) : (b.overlay l).Holds l := by
  intro i hi
  simp [overlay, hi]

theorem put_holds (b : Buf) (k : Nat) (l : List UInt8) : ((b.put k l).drop k).Holds l := by
  intro i hi
  rw [drop_apply, put, if_pos ⟨Nat.le_add_right k i, Nat.add_lt_add_left hi k⟩,
    Nat.add_sub_cancel_left]
  simp [hi]

theorem overlay_past (b : Buf) (l : List UInt8) {i : Nat} (hi : l.length ≤ i) :
    b.overlay l i = b i := by
  simp [overlay, hi]

end Buf

/-! ## Big-endian numbers -/

/-- The `w` low bytes of `n`, most significant first. -/
def toBe : Nat → Nat → List UInt8
  | 0, _ => []
  | w + 1, n => UInt8.ofNat (n / 256 ^ w) :: toBe w n

/-- The number a byte string spells, continuing from `acc`. -/
def ofBeFrom (acc : Nat) : List UInt8 → Nat
  | [] => acc
  | b :: l => ofBeFrom (acc * 256 + b.toNat) l

/-- The number a byte string spells, most significant byte first. -/
def ofBe (l : List UInt8) : Nat := ofBeFrom 0 l

@[simp] theorem length_toBe (w n : Nat) : (toBe w n).length = w := by
  induction w with
  | zero => rfl
  | succ w ih => simp [toBe, ih]

theorem ofBeFrom_eq (acc : Nat) (l : List UInt8) :
    ofBeFrom acc l = acc * 256 ^ l.length + ofBe l := by
  induction l generalizing acc with
  | nil => simp [ofBeFrom, ofBe]
  | cons b l ih =>
      simp only [ofBe, ofBeFrom, List.length_cons]
      rw [ih, ih (0 * 256 + b.toNat)]
      ring

theorem ofBe_cons (b : UInt8) (l : List UInt8) :
    ofBe (b :: l) = b.toNat * 256 ^ l.length + ofBe l := by
  simp only [ofBe, ofBeFrom]
  rw [ofBeFrom_eq, Nat.zero_mul, Nat.zero_add]
  rfl

theorem ofBe_lt (l : List UInt8) : ofBe l < 256 ^ l.length := by
  induction l with
  | nil => simp [ofBe, ofBeFrom]
  | cons b l ih =>
      have hb : b.toNat ≤ 255 := by have := b.toNat_lt; omega
      rw [ofBe_cons, List.length_cons, pow_succ]
      nlinarith [Nat.mul_le_mul_right (256 ^ l.length) hb]

theorem ofBe_append (l m : List UInt8) : ofBe (l ++ m) = ofBe l * 256 ^ m.length + ofBe m := by
  induction l with
  | nil => rw [List.nil_append, show ofBe [] = 0 from rfl, Nat.zero_mul, Nat.zero_add]
  | cons b l ih =>
      rw [List.cons_append, ofBe_cons, ofBe_cons, ih, List.length_append, pow_add]
      ring

theorem ofBe_toBe (w n : Nat) : ofBe (toBe w n) = n % 256 ^ w := by
  induction w with
  | zero => simp [toBe, ofBe, ofBeFrom, Nat.mod_one]
  | succ w ih =>
      have hsplit : n % (256 ^ w * 256) = n % 256 ^ w + 256 ^ w * (n / 256 ^ w % 256) :=
        Nat.mod_mul
      rw [toBe, ofBe_cons, ih, length_toBe, UInt8.toNat_ofNat', pow_succ 256 w, hsplit]
      ring

theorem ofBe_toBe_of_lt {w n : Nat} (h : n < 256 ^ w) : ofBe (toBe w n) = n := by
  rw [ofBe_toBe, Nat.mod_eq_of_lt h]

theorem toBe_mul_add (w a n : Nat) : toBe w (a * 256 ^ w + n) = toBe w n := by
  induction w generalizing a with
  | zero => rfl
  | succ w ih =>
      have hpos : 0 < 256 ^ w := Nat.pow_pos (by decide)
      have hsplit : a * 256 ^ (w + 1) + n = 256 ^ w * (a * 256) + n := by ring
      have htail : toBe w (a * 256 ^ (w + 1) + n) = toBe w n := by
        rw [show a * 256 ^ (w + 1) = a * 256 * 256 ^ w by ring]
        exact ih (a * 256)
      rw [toBe, toBe, htail, hsplit, Nat.mul_add_div hpos]
      congr 1
      apply UInt8.toNat_inj.mp
      simp only [UInt8.toNat_ofNat']
      omega

theorem toBe_ofBe (l : List UInt8) : toBe l.length (ofBe l) = l := by
  induction l with
  | nil => rfl
  | cons b l ih =>
      have hpos : 0 < 256 ^ l.length := Nat.pow_pos (by decide)
      have hdiv : ofBe (b :: l) / 256 ^ l.length = b.toNat := by
        rw [ofBe_cons, Nat.mul_comm, Nat.mul_add_div hpos, Nat.div_eq_of_lt (ofBe_lt l),
          Nat.add_zero]
      have htail : toBe l.length (ofBe (b :: l)) = toBe l.length (ofBe l) := by
        rw [ofBe_cons]
        exact toBe_mul_add _ _ _
      rw [List.length_cons, toBe, hdiv, htail, ih]
      simp

/-! ## Fields of a fixed width -/

/-- A field of `w` bytes at the head of a buffer, and what follows it. -/
theorem Buf.holds_field {buf : Buf} {w v : Nat} {l : List UInt8} (h : buf.Holds (toBe w v ++ l)) :
    buf.take w = toBe w v ∧ (buf.drop w).Holds l := by
  obtain ⟨hfield, hrest⟩ := Buf.holds_append.mp h
  rw [length_toBe] at hrest
  have htake := Buf.holds_take.mp hfield
  rw [length_toBe] at htake
  exact ⟨htake, hrest⟩

theorem ofNat_ofBe_toBe_u32 (x : UInt32) : UInt32.ofNat (ofBe (toBe 4 x.toNat)) = x := by
  rw [ofBe_toBe_of_lt x.toNat_lt, UInt32.ofNat_toNat]

theorem ofNat_ofBe_toBe_u16 (x : UInt16) : UInt16.ofNat (ofBe (toBe 2 x.toNat)) = x := by
  rw [ofBe_toBe_of_lt x.toNat_lt, UInt16.ofNat_toNat]

theorem toBe_ofBe_take (buf : Buf) (w : Nat) : toBe w (ofBe (buf.take w)) = buf.take w := by
  have h := toBe_ofBe (buf.take w)
  rwa [Buf.length_take] at h

theorem toBe_toNat_u32 (buf : Buf) :
    toBe 4 (UInt32.ofNat (ofBe (buf.take 4))).toNat = buf.take 4 := by
  have hlt := ofBe_lt (buf.take 4)
  rw [Buf.length_take] at hlt
  rw [UInt32.toNat_ofNat_of_lt' hlt, toBe_ofBe_take]

theorem toBe_toNat_u16 (buf : Buf) :
    toBe 2 (UInt16.ofNat (ofBe (buf.take 2))).toNat = buf.take 2 := by
  have hlt := ofBe_lt (buf.take 2)
  rw [Buf.length_take] at hlt
  rw [UInt16.toNat_ofNat_of_lt' hlt, toBe_ofBe_take]

end P2PStream.Lib
