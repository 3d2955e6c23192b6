/-
# `P2PStream.Peer.Timecode` — the first block of a cluster, stored

`AssembleBlock` gives the payload of a first block to `ChangeTimecode` before it is
written.  What is written starts with the Timecode of the packet and the parent's offset,
less the node's own offset, in as many bytes; the rest is the packet's.  No other step of
`AssembleBlock` touches the offsets.
-/
import P2PStream.Peer.Store
import P2PStream.Webm.Timecode

namespace P2PStream

open Lib

/-! ## The offsets -/

/-- The variables of the offsets. -/
structure Offsets where
  own : UInt64
  isGet : Bool
  parent : UInt64

def Webm.offsets (w : Webm) : Offsets :=
  ⟨w.timecodeOffset, w.isGetTimecodeOffset, w.nodeTimecodeOffset⟩

@[simp] theorem exportWebM_offsets (l : List UInt8) (w : Webm) :
    (exportWebM l w).offsets = w.offsets := rfl

@[simp] theorem seekABSWebMW_offsets (offset : Int) (w : Webm) :
    (seekABSWebMW offset w).offsets = w.offsets := by
  simp only [seekABSWebMW, fsetpos]
  split <;> rfl

@[simp] theorem updateWebM_offsets (w : Webm) : (updateWebM w).offsets = w.offsets :=
  seekABSWebMW_offsets _ _

@[simp] theorem updateClusterToWebM_offsets (count : Nat) (w : Webm) :
    (updateClusterToWebM count w).offsets = w.offsets := by
  simp only [updateClusterToWebM, updateClusterDataBytesToWebM, seekABSWebMW_offsets,
    exportWebM_offsets]
  rfl

theorem insertBlockToCluster_offsets (data : Buf) (bytes : UInt16) (w : Webm) :
    (insertBlockToCluster data bytes w).offsets = w.offsets := by
  rw [insertBlockToCluster, exportWebM_offsets]
  split
  · exact updateClusterToWebM_offsets w.currentBlockNum w
  · rfl

theorem beginBlock_offsets (info : BlockInfo) (w : Webm) :
    (beginBlock info w).offsets = w.offsets := by
  have hfirst : (if w.isFirstCluster then
      { w with firstClusterSeq := info.clusterSeq.toUInt32, isFirstCluster := false }
    else w).offsets = w.offsets := by
    split <;> rfl
  have hclose : ∀ v : Webm, (if v.currentBlockNum = 1 then
      { updateWebM (updateClusterToWebM 1 v) with
        currentBlockNum := 0
        currentBlockInfo := BlockInfo.zero }
    else v).offsets = v.offsets := by
    intro v
    split
    · exact (updateWebM_offsets _).trans (updateClusterToWebM_offsets 1 v)
    · rfl
  exact (hclose _).trans hfirst

theorem endBlock_offsets (data : Buf) (k : UInt16) (w : Webm) :
    (endBlock data k w).offsets = w.offsets :=
  insertBlockToCluster_offsets data w.currentBlock.info.bytes
    { w with latestBlockSeq := w.currentBlock.info.seq }

theorem beginBlock_info (info : BlockInfo) (w : Webm) :
    (beginBlock info w).currentBlock.info = info := rfl

theorem storeBlock_offsets {data : Buf} {k : UInt16} {w w' : Webm}
    (h : storeBlock data k w = .ok w') (hseq : (copyBytesToBlockInfo data).seq ≠ firstBlockSeq) :
    w'.offsets = w.offsets := by
  obtain ⟨⟨w₁, data'⟩, hchange, h⟩ := bind_eq_ok.mp h
  cases h
  have hsame : changeFirstBlock data (beginBlock (copyBytesToBlockInfo data) w) =
      .ok (beginBlock (copyBytesToBlockInfo data) w, data) := if_neg hseq
  rw [hsame] at hchange
  cases hchange
  rw [endBlock_offsets, beginBlock_offsets]

/-! ## First blocks -/

theorem splice_drop (data payload : Buf) (k : Nat) : (data.splice k payload).drop k = payload := by
  funext i
  have hnot : ¬ k + i < k := by omega
  simp only [Buf.drop, Buf.splice, if_neg hnot, Nat.add_sub_cancel_left]

section FirstBlock

variable (t : Timecode) {data : Buf} {w : Webm} {rest : List UInt8} {own : Nat}

theorem changeFirstBlock_timecode (hseq : (copyBytesToBlockInfo data).seq = firstBlockSeq)
    (hholds : (data.drop blockinfoBytes).Holds (t.bytes ++ rest))
    (hown : own = if w.isGetTimecodeOffset then w.timecodeOffset.toNat
      else t.value + w.nodeTimecodeOffset.toNat)
    (hle : own ≤ t.value + w.nodeTimecodeOffset.toNat)
    (hlt : t.value + w.nodeTimecodeOffset.toNat < 2 ^ 64) :
    ∃ data', changeFirstBlock data (beginBlock (copyBytesToBlockInfo data) w) =
        .ok ({ beginBlock (copyBytesToBlockInfo data) w with
          timecodeOffset := UInt64.ofNat own
          isGetTimecodeOffset := true }, data') ∧
      (data'.drop blockinfoBytes).Holds
        ((t.withValue (t.value + w.nodeTimecodeOffset.toNat - own)).bytes ++ rest) := by
  have hbegin := beginBlock_offsets (copyBytesToBlockInfo data) w
  simp only [Webm.offsets, Offsets.mk.injEq] at hbegin
  obtain ⟨hbOwn, hbGet, hbParent⟩ := hbegin
  rw [← hbGet, ← hbOwn, ← hbParent] at hown
  obtain ⟨payload, hchange, hpayload⟩ := changeTimecode_timecode t hholds hown
    (by rw [hbParent]; exact hle)
    (by rw [hbParent]; exact hlt)
  rw [hbParent] at hpayload
  refine ⟨data.splice blockinfoBytes payload, ?_, ?_⟩
  · rw [changeFirstBlock, beginBlock_info, if_pos hseq, hchange]
    rfl
  · rw [splice_drop]
    exact hpayload

theorem writtenBlock_timecode (hseq : (copyBytesToBlockInfo data).seq = firstBlockSeq)
    (hlength : (copyBytesToBlockInfo data).bytes.toNat = (t.bytes ++ rest).length)
    (hholds : (data.drop blockinfoBytes).Holds (t.bytes ++ rest))
    (hown : own = if w.isGetTimecodeOffset then w.timecodeOffset.toNat
      else t.value + w.nodeTimecodeOffset.toNat)
    (hle : own ≤ t.value + w.nodeTimecodeOffset.toNat)
    (hlt : t.value + w.nodeTimecodeOffset.toNat < 2 ^ 64) :
    writtenBlock data w =
      (t.withValue (t.value + w.nodeTimecodeOffset.toNat - own)).bytes ++ rest := by
  obtain ⟨data', hfirst, hdata'⟩ := changeFirstBlock_timecode t hseq hholds hown hle hlt
  have hsize : (copyBytesToBlockInfo data).bytes.toNat =
      ((t.withValue (t.value + w.nodeTimecodeOffset.toNat - own)).bytes ++ rest).length := by
    rw [hlength, List.length_append, List.length_append, t.length_withValue_bytes]
  simp only [writtenBlock, hfirst, hsize]
  exact Buf.holds_take.mp hdata'

end FirstBlock

end P2PStream
