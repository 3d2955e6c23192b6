/-
# `P2PStream.Node.Offset` — the offset of the timecodes, from parent to child

`TIMECODE_OFFSET` is sent as eight bytes, the lowest first.  `NodeInitialStatus` and
`NodeAccept` add them up again, each shifted in an `int`: the shift of a high byte
starts over at zero, and a fourth byte with its top bit set makes the sum negative.
So the two halves of the offset are added as signed 32-bit numbers.

`NodeAccept` starts the sum at zero and `NodeInitialStatus` at what is there.
-/
import Mathlib.Data.UInt
import P2PStream.Node.Join

namespace P2PStream

open Lib

/-! ## Adding up the bytes -/

/-- An `int` of 32 bits, widened to a `u64`. -/
def widen (x : Nat) : Nat := if x < 2 ^ 31 then x else x + (2 ^ 64 - 2 ^ 32)

/-- The sum of the two halves of an offset, as signed numbers. -/
def halvesSum (t : UInt64) : UInt64 :=
  UInt64.ofNat (widen (t.toNat % 2 ^ 32) + widen (t.toNat / 2 ^ 32))

theorem toNat_shiftedByte : ∀ b < 256, ∀ i < 8, (shiftedByte (UInt8.ofNat b) i).toNat =
    if i % 4 = 3 ∧ 128 ≤ b then b * 256 ^ 3 + (2 ^ 64 - 2 ^ 32) else b * 256 ^ (i % 4) := by
  decide +kernel

theorem shiftedBytes_half (t : Nat) {k : Nat} (hk : k = 0 ∨ k = 4) :
    (shiftedByte (UInt8.ofNat (t / 256 ^ k % 256)) k).toNat +
      (shiftedByte (UInt8.ofNat (t / 256 ^ (k + 1) % 256)) (k + 1)).toNat +
      (shiftedByte (UInt8.ofNat (t / 256 ^ (k + 2) % 256)) (k + 2)).toNat +
      (shiftedByte (UInt8.ofNat (t / 256 ^ (k + 3) % 256)) (k + 3)).toNat =
    widen (t / 256 ^ k % 2 ^ 32) := by
  have hplaces : k % 4 = 0 ∧ (k + 1) % 4 = 1 ∧ (k + 2) % 4 = 2 ∧ (k + 3) % 4 = 3 := by omega
  obtain ⟨h₀, h₁, h₂, h₃⟩ := hplaces
  simp only [pow_add, ← Nat.div_div_eq_div_mul]
  generalize t / 256 ^ k = x
  have hbyte : ∀ y : Nat, y % 256 < 256 := fun y => Nat.mod_lt y (by decide)
  rw [toNat_shiftedByte _ (hbyte _) _ (by omega), toNat_shiftedByte _ (hbyte _) _ (by omega),
    toNat_shiftedByte _ (hbyte _) _ (by omega), toNat_shiftedByte _ (hbyte _) _ (by omega),
    h₀, h₁, h₂, h₃, widen]
  simp only [Nat.reduceEqDiff, false_and, true_and, if_false]
  split <;> split <;> omega

theorem timecodeOffsetBytes_apply {data : Buf} {t : UInt64}
    (h : data.Holds (toBe 8 t.toNat).reverse) :
    ∀ i < 8, data i = UInt8.ofNat (t.toNat / 256 ^ i % 256) := by
  intro i hi
  have hget : data i = UInt8.ofNat (t.toNat / 256 ^ i) := by
    rw [h i (by simpa using hi)]
    interval_cases i <;> rfl
  rw [hget]
  apply UInt8.toNat_inj.mp
  simp [UInt8.toNat_ofNat']

theorem addTimecodeOffset_of_holds {data : Buf} {t : UInt64} (acc : UInt64)
    (h : data.Holds (toBe 8 t.toNat).reverse) :
    addTimecodeOffset data acc = acc + halvesSum t := by
  have hbyte := timecodeOffsetBytes_apply h
  have hlow := shiftedBytes_half t.toNat (.inl rfl)
  have hhigh := shiftedBytes_half t.toNat (.inr rfl)
  rw [Nat.pow_zero, Nat.div_one] at hlow
  have htop : t.toNat / 256 ^ 4 % 2 ^ 32 = t.toNat / 2 ^ 32 := by
    have := t.toNat_lt
    omega
  rw [htop] at hhigh
  have hadd : addTimecodeOffset data acc = acc + shiftedByte (data 0) 0 + shiftedByte (data 1) 1 +
      shiftedByte (data 2) 2 + shiftedByte (data 3) 3 + shiftedByte (data 4) 4 +
      shiftedByte (data 5) 5 + shiftedByte (data 6) 6 + shiftedByte (data 7) 7 := rfl
  rw [hadd]
  apply UInt64.toNat_inj.mp
  simp only [Nat.zero_add, Nat.reduceAdd, Nat.reducePow] at hlow hhigh
  simp only [UInt64.toNat_add, halvesSum, UInt64.toNat_ofNat', hbyte, Nat.reduceLT, Nat.reducePow,
    Nat.div_one, Nat.pow_zero] at hlow hhigh ⊢
  rw [← hlow, ← hhigh]
  omega

section Halves

variable {lo hi : Nat}

theorem mod_eq_ite {s m : Nat} (h : s < 2 * m) : s % m = if s < m then s else s - m := by
  split
  · next hlt => exact Nat.mod_eq_of_lt hlt
  · next hge => rw [Nat.mod_eq_sub_mod (Nat.le_of_not_lt hge), Nat.mod_eq_of_lt (by omega)]

theorem widen_lt {x : Nat} (h : x < 2 ^ 32) : widen x < 2 ^ 64 := by
  rw [widen]
  split <;> omega

theorem widen_sum_eq_iff (hlo : lo < 2 ^ 32) (hhi : hi < 2 ^ 32) :
    (widen lo + widen hi) % 2 ^ 64 = 2 ^ 32 * hi + lo ↔ lo < 2 ^ 31 ∧ hi = 0 := by
  have hlo' := widen_lt hlo
  have hhi' := widen_lt hhi
  rw [mod_eq_ite (by omega), widen, widen]
  simp only [Nat.reducePow, Nat.reduceSub] at *
  split <;> split <;> split <;> omega

/-- The halves cancel: one is negative and the other positive, or both are zero. -/
theorem widen_sum_eq_zero_iff (hlo : lo < 2 ^ 32) (hhi : hi < 2 ^ 32) :
    (widen lo + widen hi) % 2 ^ 64 = 0 ↔
      lo = 0 ∧ hi = 0 ∨ lo + hi = 2 ^ 32 ∧ lo ≠ 2 ^ 31 := by
  have hlo' := widen_lt hlo
  have hhi' := widen_lt hhi
  rw [mod_eq_ite (by omega), widen, widen]
  simp only [Nat.reducePow, Nat.reduceSub] at *
  split <;> split <;> split <;> omega

end Halves

theorem halves (t : UInt64) : t.toNat % 2 ^ 32 < 2 ^ 32 ∧ t.toNat / 2 ^ 32 < 2 ^ 32 ∧
    t.toNat = 2 ^ 32 * (t.toNat / 2 ^ 32) + t.toNat % 2 ^ 32 := by
  have hlt := t.toNat_lt
  exact ⟨Nat.mod_lt _ (by decide), by omega, (Nat.div_add_mod _ _).symm⟩

theorem halvesSum_eq_self_iff (t : UInt64) : halvesSum t = t ↔ t.toNat < 2 ^ 31 := by
  obtain ⟨hlo, hhi, hsplit⟩ := halves t
  have hiff := widen_sum_eq_iff hlo hhi
  rw [← hsplit] at hiff
  rw [← UInt64.toNat_inj, halvesSum, UInt64.toNat_ofNat', hiff]
  omega

theorem halvesSum_eq_zero_iff (t : UInt64) : halvesSum t = 0 ↔ t = 0 ∨
    t.toNat % 2 ^ 32 + t.toNat / 2 ^ 32 = 2 ^ 32 ∧ t.toNat % 2 ^ 32 ≠ 2 ^ 31 := by
  obtain ⟨hlo, hhi, hsplit⟩ := halves t
  have hzero : t = 0 ↔ t.toNat % 2 ^ 32 = 0 ∧ t.toNat / 2 ^ 32 = 0 := by
    rw [← UInt64.toNat_inj]
    show t.toNat = 0 ↔ _
    omega
  rw [hzero, ← widen_sum_eq_zero_iff hlo hhi, ← UInt64.toNat_inj, halvesSum, UInt64.toNat_ofNat']
  rfl

/-! ## The two messages -/

section Messages

variable {n m : Node} {dst : Slot} {data : Buf}

theorem holds_sendAccept (h : data.Holds (lastData (sendAccept dst n)).tail) :
    (data.drop nodeStatusBytes).Holds (timecodeOffsetBytes n) := by
  have hlength : (acceptProto :: copyNodeStatusToBytes n.myStatus ++
      timecodeOffsetBytes n).length = 39 := by
    rw [List.length_append, List.length_cons, length_copyNodeStatusToBytes,
      length_timecodeOffsetBytes]
    rfl
  have hsent : lastData (sendAccept dst n) =
      acceptProto :: copyNodeStatusToBytes n.myStatus ++ timecodeOffsetBytes n :=
    (lastData_sendData _ (Nat.le_of_eq hlength.symm) (by decide) dst n).trans
      (List.take_of_length_le (Nat.le_of_eq hlength))
  rw [hsent, List.cons_append, List.tail_cons] at h
  have hoffset := (Buf.holds_append.mp h).2
  rwa [length_copyNodeStatusToBytes] at hoffset

theorem holds_sendInitialStatus (hlength : 9 ≤ (lastData (sendInitialStatus dst n)).length)
    (h : data.Holds (lastData (sendInitialStatus dst n)).tail) :
    data.Holds (timecodeOffsetBytes n) := by
  generalize hrecords : (n.nodesStatus dst :: n.myStatus ::
    (otherSlots n dst).map n.nodesStatus).flatMap copyNodeStatusToBytes = records
  obtain ⟨d, hd⟩ : ∃ d, lastData (sendInitialStatus dst n) =
      (Buf.zero.overlay (initialStatusProto :: timecodeOffsetBytes n ++ records)).take d :=
    ⟨_, by rw [← hrecords]; exact lastData_eq_take _ _ _ _⟩
  rw [hd, Buf.length_take] at hlength
  obtain ⟨r, rfl⟩ := Nat.exists_eq_add_of_le hlength
  have hfront : (initialStatusProto :: timecodeOffsetBytes n).length = 9 := by
    rw [List.length_cons, length_timecodeOffsetBytes]
  have hholds := (Buf.holds_append.mp (Buf.overlay_holds Buf.zero
    (initialStatusProto :: timecodeOffsetBytes n ++ records))).1
  have htake := Buf.holds_take.mp hholds
  rw [hfront] at htake
  rw [hd, Buf.take_add, htake] at h
  exact (Buf.holds_append.mp h).1

/-- The receiver has the offset behind the message, and behind a second copy of it. -/
def Carried (t : UInt64) (once twice : Node) : Prop :=
  once.webm.nodeTimecodeOffset = t ∧ twice.webm.nodeTimecodeOffset = t

theorem nodeAccept_offset (env : Env) (h : data.Holds (lastData (sendAccept dst n)).tail) :
    (nodeAccept env data m).webm.nodeTimecodeOffset = halvesSum n.webm.timecodeOffset := by
  have hsum := addTimecodeOffset_of_holds 0 (holds_sendAccept h)
  rw [UInt64.zero_add] at hsum
  have hset : (nodeAccept env data m).webm.nodeTimecodeOffset =
      addTimecodeOffset (data.drop nodeStatusBytes) 0 := by
    obtain ⟨_, _, _, hafter, -, hoffset, -⟩ := nodeAccept_changes env data m
    rw [hafter, ← hoffset]
  rw [hset, hsum]

theorem nodeInitialStatus_offset (env : Env) (k : UInt16)
    (hlength : 9 ≤ (lastData (sendInitialStatus dst n)).length)
    (h : data.Holds (lastData (sendInitialStatus dst n)).tail) :
    (nodeInitialStatus env data k m).webm.nodeTimecodeOffset =
      m.webm.nodeTimecodeOffset + halvesSum n.webm.timecodeOffset :=
  addTimecodeOffset_of_holds _ (holds_sendInitialStatus hlength h)

end Messages

/-- For every offset of the sender and every state of the receiver: an Accept carries the
offset, however often, exactly below `2 ^ 31`; an InitialStatus does once exactly when what was
there makes up for what the halves miss, and again exactly when nothing was missing and nothing
is added; both do exactly when everything is zero. -/
theorem timecodeOffset_carried_iff {n m : Node} {dst : Slot} {accept initial : Buf}
    (env env' : Env) (k : UInt16) (haccept : accept.Holds (lastData (sendAccept dst n)).tail)
    (hinitial : initial.Holds (lastData (sendInitialStatus dst n)).tail)
    (hlength : 9 ≤ (lastData (sendInitialStatus dst n)).length) :
    let t := n.webm.timecodeOffset
    let accepted := Carried t (nodeAccept env accept m)
      (nodeAccept env' accept (nodeAccept env accept m))
    let joined := Carried t (nodeInitialStatus env initial k m)
      (nodeInitialStatus env' initial k (nodeInitialStatus env initial k m))
    (accepted ↔ t.toNat < 2 ^ 31) ∧
    ((nodeInitialStatus env initial k m).webm.nodeTimecodeOffset = t ↔
      m.webm.nodeTimecodeOffset + halvesSum t = t) ∧
    (joined ↔ m.webm.nodeTimecodeOffset = t ∧
      (t = 0 ∨ t.toNat % 2 ^ 32 + t.toNat / 2 ^ 32 = 2 ^ 32 ∧ t.toNat % 2 ^ 32 ≠ 2 ^ 31)) ∧
    (accepted ∧ joined ↔ t = 0 ∧ m.webm.nodeTimecodeOffset = 0) := by
  intro t accepted joined
  have hadded := nodeInitialStatus_offset (m := m) env k hlength hinitial
  have haccepted : accepted ↔ t.toNat < 2 ^ 31 := by
    rw [← halvesSum_eq_self_iff]
    show _ ∧ _ ↔ _
    rw [nodeAccept_offset env haccept, nodeAccept_offset env' haccept, and_self]
  have hjoined : joined ↔ m.webm.nodeTimecodeOffset = t ∧ halvesSum t = 0 := by
    show _ ∧ _ ↔ _
    rw [nodeInitialStatus_offset env' k hlength hinitial, hadded]
    constructor
    · rintro ⟨honce, htwice⟩
      rw [honce, UInt64.add_eq_left] at htwice
      rw [htwice, UInt64.add_zero] at honce
      exact ⟨honce, htwice⟩
    · rintro ⟨hprior, hzero⟩
      rw [hzero, UInt64.add_zero, UInt64.add_zero]
      exact ⟨hprior, hprior⟩
  refine ⟨haccepted, by rw [hadded], by rw [hjoined, halvesSum_eq_zero_iff], ?_⟩
  rw [haccepted, hjoined, ← halvesSum_eq_self_iff]
  constructor
  · rintro ⟨hself, hprior, hzero⟩
    have ht : t = 0 := hself.symm.trans hzero
    exact ⟨ht, hprior.trans ht⟩
  · rintro ⟨ht, hprior⟩
    rw [ht]
    exact ⟨by decide, hprior, by decide⟩

/-- A peer whose first block had the Timecode `t`. -/
def senderOf (t : UInt64) : Node := firstPeer.mapWebm fun w => { w with timecodeOffset := t }

theorem timecodeOffset_carried_iff_fresh :
    Carried 5000
      (nodeAccept (Env.clock ⟨1, 0⟩)
        (packetData (lastData (sendAccept 0 (senderOf 5000))).tail) firstPeer)
      (nodeAccept (Env.clock ⟨2, 0⟩) (packetData (lastData (sendAccept 0 (senderOf 5000))).tail)
        (nodeAccept (Env.clock ⟨1, 0⟩)
          (packetData (lastData (sendAccept 0 (senderOf 5000))).tail) firstPeer)) :=
  (timecodeOffset_carried_iff (Env.clock ⟨1, 0⟩) (Env.clock ⟨2, 0⟩) 68 (Buf.overlay_holds _ _)
    (Buf.overlay_holds Buf.zero (lastData (sendInitialStatus 0 (senderOf 5000))).tail)
    (by decide +kernel)).1.mpr (by decide)

/-- An InitialStatus that arrives twice doubles the offset, and an Accept takes the offset
`2 ^ 31` for a negative one. -/
theorem timecodeOffset_lost :
    (let initial := packetData (lastData (sendInitialStatus 0 (senderOf 5000))).tail
    let once := nodeInitialStatus (Env.clock ⟨1, 0⟩) initial 68 firstPeer
    once.webm.nodeTimecodeOffset = 5000 ∧
      (nodeInitialStatus (Env.clock ⟨2, 0⟩) initial 68 once).webm.nodeTimecodeOffset = 10000) ∧
    (nodeAccept (Env.clock ⟨1, 0⟩)
      (packetData (lastData (sendAccept 0 (senderOf (2 ^ 31)))).tail)
      firstPeer).webm.nodeTimecodeOffset = 2 ^ 64 - 2 ^ 31 := by
  decide +kernel

end P2PStream
