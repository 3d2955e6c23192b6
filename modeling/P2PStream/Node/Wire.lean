/-
# `P2PStream.Node.Wire` — the wire form of block and node records

A block record is sent as the 18 bytes it starts with in memory, its multi-byte
fields in network order; a node record is sent as a block record and four fields
behind it.  What lies behind these bytes in memory, padding and a timestamp, is
not sent, and a decoded record keeps its own.

Two messages of `AssembleBlock` have a block record of zeros or of ones.  The
segmenter marks every record, so none of its records is taken for one of them.
-/
import P2PStream.Node.State

namespace P2PStream

open Lib

/-! ## Block records -/

theorem copyBytesToBlockInfo_of_holds {buf : Buf} {info : BlockInfo}
    (h : buf.Holds (copyBlockInfoToBytes info)) : copyBytesToBlockInfo buf = info := by
  simp only [copyBlockInfoToBytes, List.append_assoc] at h
  obtain ⟨hpos, h⟩ := Buf.holds_field h
  obtain ⟨hseq, h⟩ := Buf.holds_field h
  obtain ⟨hbytes, h⟩ := Buf.holds_field h
  obtain ⟨hpiece, h⟩ := Buf.holds_field h
  obtain ⟨hcluster, h⟩ := Buf.holds_field h
  simp only [Buf.drop_drop, Nat.reduceAdd] at hpos hseq hbytes hpiece hcluster h
  have h14 : buf 14 = info.totalPieces := h 0 (by simp)
  have h15 : buf 15 = info.pieceSeq := h 1 (by simp)
  have h16 : buf 16 = info.status := h 2 (by simp)
  have h17 : buf 17 = info.layer := h 3 (by simp)
  simp only [copyBytesToBlockInfo, hpos, hseq, hbytes, hpiece, hcluster, h14, h15, h16, h17,
    ofNat_ofBe_toBe_u32, ofNat_ofBe_toBe_u16]

theorem copyBlockInfoToBytes_copyBytes (buf : Buf) :
    copyBlockInfoToBytes (copyBytesToBlockInfo buf) = buf.take blockinfoBytes := by
  have hsplit : buf.take blockinfoBytes = buf.take 4 ++ ((buf.drop 4).take 4 ++
      ((buf.drop 8).take 2 ++ ((buf.drop 10).take 2 ++ ((buf.drop 12).take 2 ++
        [buf 14, buf 15, buf 16, buf 17])))) := rfl
  rw [hsplit]
  simp only [copyBlockInfoToBytes, copyBytesToBlockInfo, toBe_toNat_u32, toBe_toNat_u16,
    List.append_assoc]

/-! ## Node records -/

theorem length_copyNodeStatusToBytes (status : NodeStatus) :
    (copyNodeStatusToBytes status).length = nodeStatusBytes := by
  simp [copyNodeStatusToBytes, copyBlockInfoToBytes, nodeStatusBytes]

theorem copyBytesToNodeStatus_of_holds {buf : Buf} {status : NodeStatus} (old : NodeStatus)
    (h : buf.Holds (copyNodeStatusToBytes status)) :
    copyBytesToNodeStatus old buf = { status with timestamp := old.timestamp } := by
  have h18 : (copyBlockInfoToBytes status.toBlockInfo).length = 18 := by
    simp [copyBlockInfoToBytes]
  simp only [copyNodeStatusToBytes, List.append_assoc] at h
  obtain ⟨hinfo, h⟩ := Buf.holds_append.mp h
  rw [h18] at h
  obtain ⟨hid, h⟩ := Buf.holds_field h
  obtain ⟨hip, h⟩ := Buf.holds_field h
  obtain ⟨hpip, h⟩ := Buf.holds_field h
  have hport := Buf.holds_take.mp h
  simp only [Buf.drop_drop, Nat.reduceAdd, length_toBe] at hid hip hpip hport
  simp only [copyBytesToNodeStatus, copyBytesToBlockInfo_of_holds hinfo, readU16, readU32,
    blockinfoBytes, hid, hip, hpip, hport, ofNat_ofBe_toBe_u32, ofNat_ofBe_toBe_u16]

theorem copyNodeStatusToBytes_copyBytes (old : NodeStatus) (buf : Buf) :
    copyNodeStatusToBytes (copyBytesToNodeStatus old buf) = buf.take nodeStatusBytes := by
  have hsplit : buf.take nodeStatusBytes = buf.take blockinfoBytes ++ ((buf.drop 18).take 2 ++
      ((buf.drop 20).take 4 ++ ((buf.drop 24).take 4 ++ (buf.drop 28).take 2))) := rfl
  rw [hsplit]
  simp only [copyNodeStatusToBytes, copyBytesToNodeStatus, readU16, readU32, blockinfoBytes,
    toBe_toNat_u32, toBe_toNat_u16, List.append_assoc, Nat.reduceAdd]
  rw [copyBlockInfoToBytes_copyBytes]
  rfl

/-! ## The marks of the segmenter -/

theorem getFirstBlock_status {block block' : Block} {req : UInt16} {head : Buf} {ret : Int}
    (h : getFirstBlock block req head = some (block', ret)) :
    block'.info.status = statusPiece ∨ block'.info.status = statusSimpleblock ∨
      block'.info.status = statusBlock := by
  simp only [getFirstBlock, Option.bind_eq_bind, Option.bind_eq_some_iff, Prod.exists] at h
  obtain ⟨walked, status, -, h⟩ := h
  split at h
  · cases h
    exact Or.inl rfl
  · split at h
    · cases h
      exact Or.inl rfl
    · cases h
      exact Or.inr (Or.inl rfl)

theorem getSimpleBlocksOrPiece_status {block block' : Block} {req : UInt16} {head : Buf} {ret : Int}
    (h : getSimpleBlocksOrPiece block req head = some (block', ret)) :
    block'.info.status = statusPiece ∨ block'.info.status = statusSimpleblock ∨
      block'.info.status = statusBlock := by
  simp only [getSimpleBlocksOrPiece, Option.bind_eq_bind, Option.bind_eq_some_iff,
    Prod.exists] at h
  obtain ⟨walked, status, -, h⟩ := h
  split at h
  · cases h
    exact Or.inr (Or.inl rfl)
  · cases h
    exact Or.inl rfl

theorem getLastPiece_status {block block' : Block} {req : UInt16} {head : Buf} {ret : Int}
    (h : getLastPiece block req head = some (block', ret)) :
    block'.info.status = statusPiece ∨ block'.info.status = statusSimpleblock ∨
      block'.info.status = statusBlock := by
  simp only [getLastPiece, getChankByBytes, Option.bind_eq_bind, Option.bind_eq_some_iff,
    Prod.exists] at h
  obtain ⟨walked, status, ⟨_, _, -, hwalked⟩, h⟩ := h
  cases hwalked
  split at h
  · cases h
    exact Or.inr (Or.inr rfl)
  · cases h
    exact Or.inl rfl

theorem getLaterBlock_status {block block' : Block} {req : UInt16} {head : Buf} {ret : Int}
    (h : getLaterBlock block req head = some (block', ret)) :
    block'.info.status = statusPiece ∨ block'.info.status = statusSimpleblock ∨
      block'.info.status = statusBlock := by
  simp only [getLaterBlock] at h
  split at h
  · split at h
    · exact getLastPiece_status h
    · split at h
      · exact getSimpleBlocksOrPiece_status h
      · cases h
        exact Or.inl rfl
  · exact getSimpleBlocksOrPiece_status h

/-- Every block the segmenter makes is marked as a piece, as SimpleBlocks, or as the last piece
with SimpleBlocks behind it. -/
theorem getNextBlockByBytes_status {block block' : Block} {req : UInt16} {head : Buf} {ret : Int}
    (h : getNextBlockByBytes block req head = some (block', ret)) :
    block'.info.status = statusPiece ∨ block'.info.status = statusSimpleblock ∨
      block'.info.status = statusBlock := by
  simp only [getNextBlockByBytes] at h
  split at h
  · exact getFirstBlock_status h
  · exact getLaterBlock_status h

theorem not_marker_of_status {info : BlockInfo}
    (h : info.status = statusPiece ∨ info.status = statusSimpleblock ∨ info.status = statusBlock) :
    copyBlockInfoToBytes info ≠ blockinfoStart ∧ copyBlockInfoToBytes info ≠ blockinfoEnd := by
  have hmark : (copyBlockInfoToBytes info)[16]? = some info.status := by
    simp [copyBlockInfoToBytes, toBe]
  constructor
  · intro heq
    rw [heq] at hmark
    rcases h with h | h | h <;> rw [h] at hmark <;> exact absurd hmark (by decide)
  · intro heq
    rw [heq] at hmark
    rcases h with h | h | h <;> rw [h] at hmark <;> exact absurd hmark (by decide)

/-! ## Records in memory -/

/-- `struct BlockInfo` with its padding. -/
structure PaddedBlockInfo extends BlockInfo where
  padding : UInt16
  deriving DecidableEq

/-- `struct NodeStatus` with its padding. -/
structure PaddedNodeStatus extends NodeStatus where
  padding16 : UInt16
  deriving DecidableEq

/-- `CopyBytesToBlockInfo` over the record `old`. -/
def PaddedBlockInfo.read (old : PaddedBlockInfo) (buf : Buf) : PaddedBlockInfo :=
  { old with toBlockInfo := copyBytesToBlockInfo buf }

/-- `CopyBytesToNodeStatus` over the record `old`. -/
def PaddedNodeStatus.read (old : PaddedNodeStatus) (buf : Buf) : PaddedNodeStatus :=
  { old with toNodeStatus := copyBytesToNodeStatus old.toNodeStatus buf }

/-- What is sent of a record is read back, in both directions, and the rest of the record is left
alone; and no record of the segmenter is one of the two marks. -/
theorem wire_format :
    (∀ (old info : PaddedBlockInfo) (buf : Buf), buf.Holds (copyBlockInfoToBytes info.toBlockInfo) →
      old.read buf = { info with padding := old.padding }) ∧
    (∀ (old : PaddedBlockInfo) (buf : Buf),
      copyBlockInfoToBytes (old.read buf).toBlockInfo = buf.take blockinfoBytes) ∧
    (∀ (old status : PaddedNodeStatus) (buf : Buf),
      buf.Holds (copyNodeStatusToBytes status.toNodeStatus) → old.read buf
        = { status with timestamp := old.timestamp, padding16 := old.padding16 }) ∧
    (∀ (old : PaddedNodeStatus) (buf : Buf),
      copyNodeStatusToBytes (old.read buf).toNodeStatus = buf.take nodeStatusBytes) ∧
    ∀ (block block' : Block) (req : UInt16) (head : Buf) (ret : Int),
      getNextBlockByBytes block req head = some (block', ret) →
        copyBlockInfoToBytes block'.info ≠ blockinfoStart ∧
          copyBlockInfoToBytes block'.info ≠ blockinfoEnd := by
  refine ⟨?_, ?_, ?_, ?_, ?_⟩
  · intro old info buf h
    rw [PaddedBlockInfo.read, copyBytesToBlockInfo_of_holds h]
  · intro old buf
    exact copyBlockInfoToBytes_copyBytes buf
  · intro old status buf h
    rw [PaddedNodeStatus.read, copyBytesToNodeStatus_of_holds old.toNodeStatus h]
  · intro old buf
    exact copyNodeStatusToBytes_copyBytes old.toNodeStatus buf
  · intro block block' req head ret h
    exact not_marker_of_status (getNextBlockByBytes_status h)

/-- The padding of a record is not sent. -/
theorem padding_not_sent : ∃ (old info : PaddedBlockInfo) (buf : Buf),
    buf.Holds (copyBlockInfoToBytes info.toBlockInfo) ∧ old.read buf ≠ info :=
  ⟨⟨BlockInfo.zero, 0⟩, ⟨BlockInfo.zero, 7⟩, Buf.zero.overlay (copyBlockInfoToBytes BlockInfo.zero),
    Buf.overlay_holds _ _, fun h => absurd (congrArg PaddedBlockInfo.padding h)
      (by simp [PaddedBlockInfo.read])⟩

end P2PStream
