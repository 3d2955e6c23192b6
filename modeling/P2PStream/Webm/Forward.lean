/-
# `P2PStream.Webm.Forward` — the element walks move forward

`GetChankByBytes` and `AnalyzeChankToWebMHeader` step from element to element by a sum
of 64 bits.  A size field whose first byte is zero is read as nine bytes and can hold
any number of 64 bits, so the sum can wrap: the check against `req`, or against
`TOTAL_FILE_BYTES`, passes, and the walk goes back or stays where it is.
-/
import P2PStream.Lib.Walk
import P2PStream.Webm.Header

namespace P2PStream

open Lib

/-! ## The step -/

theorem getDataBytes_lt_word (buf : Buf) : (getDataBytes buf).1 < 2 ^ 64 := by
  refine accumulate_lt _ _ _ ?_
  have hmask : (buf 0).toNat &&& (0xff >>> markerLength (buf 0)) ≤ (buf 0).toNat := Nat.and_le_left
  have hbyte := (buf 0).toNat_lt
  omega

theorem markerLength_le (b : UInt8) : markerLength b ≤ 9 := by
  by_cases h : b.toNat = 0
  · rw [UInt8.toNat_inj.mp (show b.toNat = (0 : UInt8).toNat from h), markerLength_zero]
  · have hmarked := (marker_mask b.toNat b.toNat_lt h).1
    rw [UInt8.ofNat_toNat] at hmarked
    omega

theorem getChank_header_le (buf : Buf) :
    0 < (getChank buf).dataHeaderPosition ∧ (getChank buf).dataHeaderPosition ≤ 18 := by
  have hpos := markerLength_pos (buf 0)
  have hid := markerLength_le (buf 0)
  have hsize := markerLength_le (buf (markerLength (buf 0)))
  rw [getChank_dataHeaderPosition]
  omega

theorem getChank_dataBytes_lt (buf : Buf) : (getChank buf).dataBytes < 2 ^ 64 := by
  simp only [getChank]
  split
  · exact Nat.two_pow_pos 64
  · exact getDataBytes_lt_word _

theorem getChank_chankBytes_mod (buf : Buf) : (getChank buf).chankBytes =
    ((getChank buf).dataHeaderPosition + (getChank buf).dataBytes) % 2 ^ 64 := by
  have hheader := (getChank_header_le buf).2
  by_cases hunknown : (getDataBytes (buf.drop (getEBMLID buf).2)).1 = unknownSize
  · have hsum : (getChank buf).chankBytes = (getChank buf).dataHeaderPosition ∧
        (getChank buf).dataBytes = 0 := by
      simp only [getChank, if_pos hunknown, and_self]
    rw [hsum.1, hsum.2, Nat.add_zero, Nat.mod_eq_of_lt (by omega)]
  · simp only [getChank, if_neg hunknown]

/-! ## `GetChankByBytes` -/

/-- The walk of `GetChankByBytes`: over every Timecode and SimpleBlock whose end, as it is
computed, is in the window. -/
def chankWalk (buf : Buf) (req : Nat) : Walk where
  goesOn p :=
    ((getChank (buf.drop p)).id = timecodeId ∨ (getChank (buf.drop p)).id = simpleblockId) ∧
    (p + (getChank (buf.drop p)).chankBytes) % 2 ^ 64 ≤ req
  header p := (getChank (buf.drop p)).dataHeaderPosition
  data p := (getChank (buf.drop p)).dataBytes
  word := 2 ^ 64
  header_pos _ := (getChank_header_le _).1
  data_lt _ := getChank_dataBytes_lt _
  decidable _ := inferInstance

theorem chankWalk_next (buf : Buf) (req p : Nat) :
    (chankWalk buf req).next p = (p + (getChank (buf.drop p)).chankBytes) % 2 ^ 64 := by
  rw [getChank_chankBytes_mod, Nat.add_mod_mod, ← Nat.add_assoc]
  rfl

theorem getChankByBytesLoop_run (buf : Buf) (req fuel : Nat) :
    ∀ (total : Nat) (status : Int),
      (getChankByBytesLoop buf req fuel total status).map (·.2) =
        (chankWalk buf req).run fuel total := by
  induction fuel with
  | zero => exact fun _ _ => rfl
  | succ fuel ih =>
      intro total status
      have hids : timecodeId ≠ clusterId ∧ timecodeId ≠ cueId ∧ simpleblockId ≠ clusterId ∧
          simpleblockId ≠ cueId := by decide
      rw [getChankByBytesLoop, Walk.run]
      by_cases hgo : (chankWalk buf req).goesOn total
      · rw [if_pos hgo, chankWalk_next]
        obtain ⟨hid, hfit⟩ := hgo
        have hnotEnd : (getChank (buf.drop total)).id ≠ clusterId ∧
            (getChank (buf.drop total)).id ≠ cueId := by
          rcases hid with hid | hid <;> rw [hid]
          · exact ⟨hids.1, hids.2.1⟩
          · exact hids.2.2
        simp only [if_neg hnotEnd.1, if_neg hnotEnd.2, if_neg (Nat.not_lt_of_le hfit)]
        split
        · exact ih _ _
        · next htimecode => rw [if_pos (hid.resolve_left htimecode), ih]
      · rw [if_neg hgo]
        split
        · rfl
        · split
          · rfl
          · split
            · rfl
            · next hfit =>
              have hid : ¬ ((getChank (buf.drop total)).id = timecodeId ∨
                  (getChank (buf.drop total)).id = simpleblockId) :=
                fun hid => hgo ⟨hid, Nat.le_of_not_lt hfit⟩
              rw [if_neg fun h => hid (.inl h), if_neg fun h => hid (.inr h)]
              rfl

theorem chankWalk_next_le {buf : Buf} {req p : Nat} (h : (chankWalk buf req).goesOn p) :
    (chankWalk buf req).next p ≤ req := by
  rw [chankWalk_next]
  exact h.2

theorem getChankByBytes_eq_none_iff {block : Block} {buf : Buf} {req : UInt16} :
    getChankByBytes block buf req = none ↔
      (chankWalk buf req.toNat).run (req.toNat + 2) 0 = none := by
  rw [← getChankByBytesLoop_run buf req.toNat (req.toNat + 2) 0 0, Option.map_eq_none_iff]
  simp only [getChankByBytes]
  cases getChankByBytesLoop buf req.toNat (req.toNat + 2) 0 0 with
  | none => exact iff_of_true rfl rfl
  | some result => exact iff_of_false (Option.some_ne_none _) (Option.some_ne_none _)

/-- `none` stands for a loop that never ends. -/
theorem getChankByBytes_hangs_iff {block : Block} {buf : Buf} {req : UInt16} :
    getChankByBytes block buf req = none ↔
      ∀ fuel, getChankByBytesLoop buf req.toNat fuel 0 0 = none := by
  rw [getChankByBytes_eq_none_iff, Walk.run_eq_none_iff fun _ => chankWalk_next_le]
  refine forall_congr' fun fuel => ?_
  rw [← getChankByBytesLoop_run buf req.toNat fuel 0 0, Option.map_eq_none_iff]

/-! ## `AnalyzeChankToWebMHeader` -/

/-- The walk of `AnalyzeChankToWebMHeader`: into a Segment, and over what it knows and finds not
too long for the file. -/
def analyzeWalk (buf : Buf) (totalFileBytes : Int) : Walk where
  goesOn p := buf p ≠ 0 ∧
    ((getChank (buf.drop p)).id = segmentId ∧ (getChank (buf.drop p)).dataBytes ≠ 0 ∨
      (getChank (buf.drop p)).id ∈ headerIds ∧
        (getChank (buf.drop p)).chankBytes ≤ asU64 totalFileBytes)
  header p := (getChank (buf.drop p)).dataHeaderPosition
  data p := if (getChank (buf.drop p)).id = segmentId then 0 else (getChank (buf.drop p)).dataBytes
  word := 2 ^ 64
  header_pos _ := (getChank_header_le _).1
  data_lt p := by
    split
    · exact Nat.two_pow_pos 64
    · exact getChank_dataBytes_lt _
  decidable _ := inferInstance

theorem analyzeWalk_next (buf : Buf) (totalFileBytes : Int) (p : Nat) :
    (analyzeWalk buf totalFileBytes).next p = (p + (getChank (buf.drop p)).dataHeaderPosition +
      if (getChank (buf.drop p)).id = segmentId then 0
      else (getChank (buf.drop p)).dataBytes) % 2 ^ 64 := rfl

/-- The status with which the loop is left at `p`. -/
def analyzeStatus (buf : Buf) (p : Nat) : Int :=
  if buf p = 0 then 0
  else if (getChank (buf.drop p)).id = clusterId then 1
  else if (getChank (buf.drop p)).id ∉ headerIds then -2
  else -1

theorem analyzeLoop_succ (buf : Buf) (totalFileBytes : Int) (fuel total : Nat) :
    analyzeLoop buf totalFileBytes (fuel + 1) total =
      if (analyzeWalk buf totalFileBytes).goesOn total then
        analyzeLoop buf totalFileBytes fuel ((analyzeWalk buf totalFileBytes).next total)
      else some (analyzeStatus buf total, total) := by
  have hcluster : clusterId ∉ headerIds := by decide
  rw [analyzeLoop, analyzeStatus, analyzeWalk_next]
  by_cases hzero : buf total = 0
  · have hgo : ¬ (analyzeWalk buf totalFileBytes).goesOn total := fun h => h.1 hzero
    rw [if_pos hzero, if_neg hgo, if_pos hzero]
  rw [if_neg hzero, if_neg hzero]
  by_cases hsegment : (getChank (buf.drop total)).id = segmentId ∧
      (getChank (buf.drop total)).dataBytes ≠ 0
  · have hgo : (analyzeWalk buf totalFileBytes).goesOn total := ⟨hzero, .inl hsegment⟩
    simp only [if_pos hsegment, if_pos hgo, if_pos hsegment.1, Nat.add_zero]
  simp only [if_neg hsegment]
  by_cases hknown : (getChank (buf.drop total)).id ∈ headerIds
  · have hne : (getChank (buf.drop total)).id ≠ clusterId := fun h => hcluster (h ▸ hknown)
    simp only [if_neg hne, if_neg (not_not_intro hknown)]
    by_cases hlong : asU64 totalFileBytes < (getChank (buf.drop total)).chankBytes
    · have hgo : ¬ (analyzeWalk buf totalFileBytes).goesOn total := by
        rintro ⟨-, h | h⟩
        · exact hsegment h
        · exact absurd h.2 (Nat.not_le_of_lt hlong)
      rw [if_pos hlong, if_neg hgo]
    · have hgo : (analyzeWalk buf totalFileBytes).goesOn total :=
        ⟨hzero, .inr ⟨hknown, Nat.le_of_not_lt hlong⟩⟩
      -- a Segment that is stepped over whole has no data
      have hdata : (if (getChank (buf.drop total)).id = segmentId then 0
          else (getChank (buf.drop total)).dataBytes) = (getChank (buf.drop total)).dataBytes := by
        split
        · next hid => exact (not_not.mp fun h => hsegment ⟨hid, h⟩).symm
        · rfl
      rw [if_neg hlong, if_pos hgo, hdata, getChank_chankBytes_mod, Nat.add_mod_mod,
        ← Nat.add_assoc]
  · have hgo : ¬ (analyzeWalk buf totalFileBytes).goesOn total := by
      rintro ⟨-, h | h⟩
      · exact hsegment h
      · exact hknown h.1
    rw [if_neg hgo]
    simp only [if_pos hknown]
    split <;> rfl

theorem analyzeLoop_run (buf : Buf) (totalFileBytes : Int) (fuel : Nat) :
    ∀ total, (analyzeLoop buf totalFileBytes fuel total).map (·.2) =
      (analyzeWalk buf totalFileBytes).run fuel total := by
  induction fuel with
  | zero => exact fun _ => rfl
  | succ fuel ih =>
      intro total
      rw [analyzeLoop_succ, Walk.run]
      split
      · exact ih _
      · rfl

theorem analyzeWalk_next_lt (buf : Buf) (totalFileBytes : Int) (p : Nat) :
    (analyzeWalk buf totalFileBytes).next p ≤ 2 ^ 64 - 1 :=
  Nat.le_sub_one_of_lt (Nat.mod_lt _ (Nat.two_pow_pos 64))

theorem analyzeChankToWebMHeader_eq_none_iff {buf : Buf} {w : Webm} :
    analyzeChankToWebMHeader buf w = none ↔
      (analyzeWalk buf w.totalFileBytes).run (2 ^ 64 + 1) 0 = none := by
  rw [← analyzeLoop_run buf w.totalFileBytes (2 ^ 64 + 1) 0, Option.map_eq_none_iff]
  unfold analyzeChankToWebMHeader
  cases analyzeLoop buf w.totalFileBytes (2 ^ 64 + 1) 0 with
  | none => exact iff_of_true rfl rfl
  | some result => exact iff_of_false (Option.some_ne_none _) (Option.some_ne_none _)

/-- `none` stands for a loop that never ends. -/
theorem analyzeChankToWebMHeader_hangs_iff {buf : Buf} {w : Webm} :
    analyzeChankToWebMHeader buf w = none ↔
      ∀ fuel, analyzeLoop buf w.totalFileBytes fuel 0 = none := by
  have hends := Walk.run_eq_none_iff (w := analyzeWalk buf w.totalFileBytes)
    fun p _ => analyzeWalk_next_lt buf w.totalFileBytes p
  rw [analyzeChankToWebMHeader_eq_none_iff, show 2 ^ 64 + 1 = 2 ^ 64 - 1 + 2 from rfl, hends]
  refine forall_congr' fun fuel => ?_
  rw [← analyzeLoop_run buf w.totalFileBytes fuel 0, Option.map_eq_none_iff]

/-! ## Moving forward -/

/-- Every round of `GetChankByBytes` that goes on steps over the header at least, no total
exceeds `req`, and the loop ends. -/
structure ChankForward (block : Block) (buf : Buf) (req : UInt16) : Prop where
  advances : (chankWalk buf req.toNat).Advances
  total : ∀ p, (chankWalk buf req.toNat).Reached p → p ≤ req.toNat
  ends : getChankByBytes block buf req ≠ none

/-- Every round of `AnalyzeChankToWebMHeader` that goes on steps over the header at least, and the
loop ends. -/
structure AnalyzeForward (buf : Buf) (w : Webm) : Prop where
  advances : (analyzeWalk buf w.totalFileBytes).Advances
  ends : analyzeChankToWebMHeader buf w ≠ none

theorem chankWalk_reached_le {buf : Buf} {req p : Nat} (h : (chankWalk buf req).Reached p) :
    p ≤ req :=
  Walk.reached_of_closed (P := (· ≤ req)) (Nat.zero_le req) (fun _ _ _ => chankWalk_next_le) h

/-- For every buffer, `req` and file size, both loops move forward and end exactly when, with the
elements laid end to end from the start of the buffer, none of those they go over ends at
`2 ^ 64` or behind it. -/
theorem walks_forward_iff (block : Block) (buf : Buf) (req : UInt16) (w : Webm) :
    (ChankForward block buf req ↔ (chankWalk buf req.toNat).Fits) ∧
      (AnalyzeForward buf w ↔ (analyzeWalk buf w.totalFileBytes).Fits) := by
  constructor
  · refine ⟨fun h => Walk.advances_iff.mp h.advances, fun h => ?_⟩
    have hadvances := Walk.advances_iff.mpr h
    refine ⟨hadvances, fun _ => chankWalk_reached_le, ?_⟩
    rw [ne_eq, getChankByBytes_eq_none_iff]
    exact Walk.run_ne_none hadvances (fun _ => chankWalk_next_le) (req.toNat + 2) 0 .refl
      (Nat.zero_le _) (by omega)
  · refine ⟨fun h => Walk.advances_iff.mp h.advances, fun h => ?_⟩
    have hadvances := Walk.advances_iff.mpr h
    refine ⟨hadvances, ?_⟩
    rw [ne_eq, analyzeChankToWebMHeader_eq_none_iff]
    exact Walk.run_ne_none hadvances
      (fun p _ => analyzeWalk_next_lt buf w.totalFileBytes p) (2 ^ 64 + 1) 0 .refl
      (Nat.zero_le _) (by omega)

/-- An element of ten bytes whose size field says `2 ^ 64 - 10`. -/
def backwards (id : UInt8) : Buf :=
  Buf.zero.overlay [id, 0x00, 0xff, 0xff, 0xff, 0xff, 0xff, 0xff, 0xff, 0xf6]

/-- A SimpleBlock and a Void element that are stepped over by nothing: neither loop ends. -/
theorem backwards_hangs :
    getChankByBytes initBlock (backwards 0xa3) 1000 = none ∧
      analyzeChankToWebMHeader (backwards 0xec) (Webm.start []) = none := by
  constructor
  · rw [getChankByBytes_eq_none_iff]
    exact Walk.run_eq_none_of_fixed (by decide +kernel) (by decide +kernel) _
  · rw [analyzeChankToWebMHeader_eq_none_iff]
    exact Walk.run_eq_none_of_fixed (by decide +kernel) (by decide +kernel) _

end P2PStream
