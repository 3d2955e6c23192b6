/-
# `P2PStream.Webm.Assemble` — storing received blocks (`AssembleBlock`)

A peer writes the blocks it receives to its own file, cluster by cluster: the
first block of another cluster closes the open one, whose size field is then
corrected in place, and opens a new one with `FOOTER` as its header.  The first
block of a cluster starts with the Timecode, which `ChangeTimecode` rewrites to
be relative to the first cluster stored.

A block is dropped when `IsOldBlockSeq` says so, which compares its cluster with
the cluster *before* the open one, and its sequence number with the last one
stored.
-/
import P2PStream.Webm.File

namespace P2PStream

open Lib

/-- How a handler stops the process. -/
inductive Fault where
  /-- `exit(1)`, behind the error printed, with the file as it is left. -/
  | exit (text : String) (file : List UInt8)
  /-- A loop that does not end. -/
  | hang
  /-- A null pointer is followed. -/
  | segv
  deriving DecidableEq, Repr

/-- `FOOTER`: a Cluster header of unknown size. -/
def footer : List UInt8 :=
  [0x1f, 0x43, 0xb6, 0x75, 0x01, 0xff, 0xff, 0xff, 0xff, 0xff, 0xff, 0xff]

def blockinfoStart : List UInt8 := List.replicate blockinfoBytes 0x00
def blockinfoEnd : List UInt8 := List.replicate blockinfoBytes 0xff

/-! ## Writing -/

/-- `l` written over a file at `pos`; a gap before it reads as zeros. -/
def writeAt (file : List UInt8) (pos : Nat) (l : List UInt8) : List UInt8 :=
  file.take pos ++ List.replicate (pos - file.length) 0 ++ l ++ file.drop (pos + l.length)

/-- `ExportWebM`, on a disk that does not fill up. -/
def exportWebM (l : List UInt8) (w : Webm) : Webm :=
  { w with file := writeAt w.file w.fp.toNat l, fp := w.fp + l.length }

/-- `UpdateOffsetWebM` on `CURRENT_FPOS_W`. -/
def updateOffsetWebM (w : Webm) : Webm := { w with currentFposW := w.fp }

/-- `SeekABSWebM` on `CURRENT_FPOS_W`. -/
def seekABSWebMW (offset : Int) (w : Webm) : Webm :=
  { fsetpos offset w with currentFposW := offset }

/-- `UpdateWebM` on `CURRENT_FPOS_W`: the stream is reopened where it was. -/
def updateWebM (w : Webm) : Webm := seekABSWebMW w.fp (updateOffsetWebM w)

/-- `WriteWebMHeader`. -/
def writeWebMHeader (l : List UInt8) (w : Webm) : Webm :=
  { exportWebM l w with webmHeaderTotalBytes := UInt16.ofNat l.length, webmHeaderData := l }

/-! ## Clusters -/

/-- `InitCluster`; the records are `malloc`ed, and only some fields are set. -/
def initCluster (current prev : Cluster) (w : Webm) : Webm :=
  { w with
    clusterAllocated := true
    currentCluster := { current with info := Chank.zero }
    prevCluster := { prev with info := Chank.zero, option := 0xffffffff } }

/-- `ShiftToPreCluster`. -/
def shiftToPreCluster (w : Webm) : Webm :=
  { w with prevCluster := w.currentCluster, currentCluster := Cluster.zero }

/-- `RenewClusterForRead`. -/
def renewClusterForRead (buf : Buf) (w : Webm) : Webm :=
  { w with currentCluster :=
    { info := getChank buf
      pos := w.currentFposR
      option := 0
      seq := if w.prevCluster.option = 0xffffffff then 0 else w.prevCluster.seq + 1 } }

/-- `RenewClusterForWrite`. -/
def renewClusterForWrite (w : Webm) : Webm :=
  exportWebM footer { w with currentCluster := { w.currentCluster with
    pos := w.currentFposW
    seq := w.currentBlock.info.clusterSeq.toUInt32
    info := ⟨clusterId, clusterIdBytes, clusterHeaderBytes, 0, clusterHeaderBytes⟩ } }

/-- `UpdateClusterDataBytesToWebM`: the size field behind its first byte. -/
def updateClusterDataBytesToWebM (cluster : Cluster) (w : Webm) : Webm :=
  let offset := w.fp
  let w := seekABSWebMW (cluster.pos + (cluster.info.idBytes + 1 : Nat)) (updateOffsetWebM w)
  seekABSWebMW offset (exportWebM (toBe 7 cluster.info.dataBytes) w)

/-- `UpdateClusterToWebM` on `CURRENT_CLUSTER` and `CURRENT_BLOCKINFO`, which has one
entry. -/
def updateClusterToWebM (count : Nat) (w : Webm) : Webm :=
  let totalDataBytes := if count = 0 then 0 else w.currentBlockInfo.bytes.toNat
  let info := w.currentCluster.info
  let cluster := { w.currentCluster with info := { info with
    dataBytes := (info.dataBytes + totalDataBytes) % 2 ^ 64
    chankBytes := (info.chankBytes + totalDataBytes) % 2 ^ 64 } }
  updateClusterDataBytesToWebM cluster { w with currentCluster := cluster }

/-- `CheckClusterSeq`. -/
def checkClusterSeq (w : Webm) : Bool :=
  w.currentBlock.prev.clusterSeq != w.currentBlock.info.clusterSeq

/-- `InsertBlockToCluster`. -/
def insertBlockToCluster (data : Buf) (bytes : UInt16) (w : Webm) : Webm :=
  let w := if checkClusterSeq w then
      { renewClusterForWrite (shiftToPreCluster (updateClusterToWebM w.currentBlockNum w)) with
        currentBlockNum := 0 }
    else w
  exportWebM ((data.drop blockinfoBytes).take bytes.toNat) w

/-! ## Timecodes -/

/-- `ChangeTimecode`: the data of the Timecode at the head of `data`, rewritten.  A
`u64` is shifted by its count modulo 64. -/
def changeTimecode (data : Buf) (w : Webm) : Except Fault (Webm × Buf) :=
  let timecode := getChank data
  if timecode.id = timecodeId then
    let timestamp :=
      UInt64.ofNat (accumulate data timecode.dataHeaderPosition timecode.dataBytes 0)
    let w := if w.isGetTimecodeOffset then w else
      { w with timecodeOffset := timestamp + w.nodeTimecodeOffset, isGetTimecodeOffset := true }
    let modifiedTimestamp := timestamp + w.nodeTimecodeOffset - w.timecodeOffset
    let modified := (List.range timecode.dataBytes).map fun i =>
      (modifiedTimestamp >>> UInt64.ofNat (8 * (timecode.dataBytes - i - 1))).toUInt8
    .ok (w, data.put timecode.dataHeaderPosition modified)
  else
    .error (.exit "Unexpected Error in ChangeTimecode()" w.file)

/-! ## Blocks -/

/-- `IsOldBlockSeq`. -/
def isOldBlockSeq (info : BlockInfo) (w : Webm) : Bool :=
  let currentClusterSeq := w.prevCluster.seq
  let currentSeq := w.latestBlockSeq
  if info.clusterSeq.toUInt32 < currentClusterSeq then true
  else if info.clusterSeq.toUInt32 = currentClusterSeq then info.seq ≤ currentSeq
  else false

/-- `AssembleBlock` up to `CURRENT_BLOCK->info`: the block stored before is now part of
the size of its cluster. -/
def beginBlock (info : BlockInfo) (w : Webm) : Webm :=
  let w := if w.isFirstCluster then
      { w with firstClusterSeq := info.clusterSeq.toUInt32, isFirstCluster := false }
    else w
  let w := if w.currentBlockNum = 1 then
      { updateWebM (updateClusterToWebM 1 w) with
        currentBlockNum := 0
        currentBlockInfo := BlockInfo.zero }
    else w
  { w with currentBlock := { w.currentBlock with info } }

/-- The Timecode of a first block rewritten in the packet. -/
def changeFirstBlock (data : Buf) (w : Webm) : Except Fault (Webm × Buf) :=
  if w.currentBlock.info.seq = firstBlockSeq then do
    let (w, payload) ← changeTimecode (data.drop blockinfoBytes) w
    return (w, data.splice blockinfoBytes payload)
  else
    return (w, data)

/-- `AssembleBlock` behind `LATEST_BLOCK_SEQ`: the payload written, and the counters. -/
def endBlock (data : Buf) (blockDataBytes : UInt16) (w : Webm) : Webm :=
  let info := w.currentBlock.info
  let w := insertBlockToCluster data info.bytes { w with latestBlockSeq := info.seq }
  { w with
    currentBlockInfo := copyBytesToBlockInfo data
    totalFileBytes := w.totalFileBytes + blockDataBytes.toNat
    totalBlockNum := w.totalBlockNum + 1
    currentBlock := shiftToPreBlock w.currentBlock
    currentBlockNum := w.currentBlockNum + 1 }

/-- What `AssembleBlock` does with a block that `IsOldBlockSeq` lets through. -/
def storeBlock (data : Buf) (blockDataBytes : UInt16) (w : Webm) : Except Fault Webm := do
  let (w, data) ← changeFirstBlock data (beginBlock (copyBytesToBlockInfo data) w)
  return endBlock data blockDataBytes w

/-- `AssembleBlock`.  The END message closes the open cluster and ends the process. -/
def assembleBlock (data : Buf) (bytes : UInt16) (w : Webm) : Except Fault Webm :=
  let blockDataBytes := bytes - UInt16.ofNat blockinfoBytes
  if !(w.clusterAllocated && w.blockAllocated) then
    .error .segv
  else if data.take blockinfoBytes = blockinfoStart then
    let w := writeWebMHeader ((data.drop blockinfoBytes).take blockDataBytes.toNat) w
    let w := renewClusterForWrite (updateWebM w)
    .ok { w with totalFileBytes := w.totalFileBytes + blockDataBytes.toNat }
  else if data.take blockinfoBytes = blockinfoEnd then
    .error (.exit "" (exportWebM footer (updateClusterToWebM w.currentBlockNum w)).file)
  else if isOldBlockSeq (copyBytesToBlockInfo data) w then
    .ok w
  else
    storeBlock data blockDataBytes w

end P2PStream
