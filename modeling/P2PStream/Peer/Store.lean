/-
# `P2PStream.Peer.Store` — the file a peer writes

`AssembleBlock` appends the payload of each block to the open cluster and opens a new
one when the cluster number changes.  The size field of the open cluster is one block
behind: the last block is counted when the next one comes, whatever its cluster, or
at the end.

`Stored` is what was stored: closed clusters, the open one, and the blocks of each.
The file is a function of it, and storing a block is `Stored.store`.
-/
import P2PStream.Origin.File
import P2PStream.Webm.Receiver
import P2PStream.Webm.SizeField
import P2PStream.Node.Wire
import P2PStream.Node.Links

namespace P2PStream

open Lib

/-! ## Writing -/

theorem exportWebM_end {w : Webm} (hfp : w.fp = w.file.length) (l : List UInt8) :
    exportWebM l w = { w with file := w.file ++ l, fp := (w.file ++ l).length } := by
  rw [exportWebM, hfp, Int.toNat_natCast, writeAt_end, List.length_append, Nat.cast_add]

/-- At the end of the file `RenewClusterForWrite` opens a cluster of unknown size. -/
theorem renewClusterForWrite_end {w : Webm} (hfp : w.fp = w.file.length) :
    renewClusterForWrite w = { w with
      file := w.file ++ footer
      fp := (w.file ++ footer).length
      currentCluster := { w.currentCluster with
        pos := w.currentFposW
        seq := w.currentBlock.info.clusterSeq.toUInt32
        info := ⟨clusterId, clusterIdBytes, clusterHeaderBytes, 0, clusterHeaderBytes⟩ } } := by
  simp only [renewClusterForWrite, exportWebM, hfp, Int.toNat_natCast, writeAt_end,
    List.length_append, Nat.cast_add]

theorem updateClusterDataBytesToWebM_eq (w : Webm) (cluster : Cluster) {a size b : List UInt8}
    (hfile : w.file = a ++ (size ++ b)) (hsize : size.length = 7)
    (hpos : cluster.pos + (cluster.info.idBytes + 1 : Nat) = a.length) (hfp : 0 ≤ w.fp) :
    updateClusterDataBytesToWebM cluster w =
      { w with
        file := a ++ (toBe 7 cluster.info.dataBytes ++ b)
        currentFposW := w.fp } := by
  have hmiddle := writeAt_middle a size b (toBe 7 cluster.info.dataBytes)
    (by rw [length_toBe, hsize])
  simp only [updateClusterDataBytesToWebM, hpos, seekABSWebMW, fsetpos, updateOffsetWebM,
    exportWebM, if_pos hfp, if_pos (Int.natCast_nonneg _), Int.toNat_natCast, hfile, hmiddle]

/-! ## What is stored -/

/-- The blocks of one run of equal cluster numbers. -/
structure StoredCluster where
  seq : UInt16
  blocks : List (List UInt8)
  deriving DecidableEq, Repr

namespace StoredCluster

variable (c : StoredCluster)

def payload : List UInt8 := c.blocks.flatten

/-- All blocks but the last. -/
def counted : List UInt8 := c.blocks.dropLast.flatten

/-- The id of a cluster and the first byte of its size. -/
def mark : List UInt8 := toBe 4 clusterId ++ [0x01]

/-- The size field of the open cluster: "unknown" before the second block. -/
def openSize : List UInt8 :=
  if c.blocks.length ≤ 1 then List.replicate 7 0xff else toBe 7 c.counted.length

def openBytes : List UInt8 := mark ++ (c.openSize ++ c.payload)

def closedBytes : List UInt8 := mark ++ (toBe 7 c.payload.length ++ c.payload)

@[simp] theorem length_mark : mark.length = 5 := by decide

@[simp] theorem length_openSize : c.openSize.length = 7 := by
  unfold openSize
  split
  · exact List.length_replicate
  · exact length_toBe _ _

theorem length_openBytes : c.openBytes.length = clusterHeaderBytes + c.payload.length := by
  rw [openBytes, List.length_append, List.length_append, length_mark, length_openSize,
    clusterHeaderBytes]
  omega

theorem length_closedBytes : c.closedBytes.length = clusterHeaderBytes + c.payload.length := by
  rw [closedBytes, List.length_append, List.length_append, length_mark, length_toBe,
    clusterHeaderBytes]
  omega

theorem closedBytes_eq (h : c.payload.length < 2 ^ 56) :
    c.closedBytes = clusterHeader c.payload.length ++ c.payload := by
  have hvint : vint 8 c.payload.length = 0x01 :: toBe 7 c.payload.length := by
    have hcons := vint_eq_cons c.payload.length (w := 8) (by decide) (le_refl 8)
    have hzero : c.payload.length / 256 ^ (8 - 1) = 0 := Nat.div_eq_of_lt (by omega)
    rw [hzero] at hcons
    exact hcons
  rw [closedBytes, clusterHeader, hvint, mark, List.append_assoc, List.append_assoc]
  rfl

end StoredCluster

/-- The closed clusters and the open one. -/
structure Stored where
  closed : List StoredCluster
  last : StoredCluster
  deriving DecidableEq, Repr

namespace Stored

/-- Behind the WebM header: an empty cluster of the number that InitialStatus gave. -/
def start (seq : UInt16) : Stored := ⟨[], ⟨seq, []⟩⟩

/-- A block of the open cluster, or the first of another. -/
def store (s : Stored) (seq : UInt16) (block : List UInt8) : Stored :=
  if seq = s.last.seq then ⟨s.closed, ⟨seq, s.last.blocks ++ [block]⟩⟩
  else ⟨s.closed ++ [s.last], ⟨seq, [block]⟩⟩

variable (s : Stored)

/-- The file before the open cluster. -/
def front (header : List UInt8) : List UInt8 :=
  header ++ s.closed.flatMap StoredCluster.closedBytes

def fileBytes (header : List UInt8) : List UInt8 := s.front header ++ s.last.openBytes

/-- The file behind the END message. -/
def endBytes (header : List UInt8) : List UInt8 :=
  s.front header ++ s.last.closedBytes ++ footer

end Stored

/-! ## The open cluster's size -/

theorem toBe_mod (n : Nat) : toBe 7 (n % 2 ^ 64) = toBe 7 n := by
  have hsplit : n = n / 2 ^ 64 * 256 * 256 ^ 7 + n % 2 ^ 64 := by omega
  conv_rhs => rw [hsplit, toBe_mul_add]

/-- `UpdateClusterToWebM`: the size field says how many bytes are counted now. -/
theorem updateClusterToWebM_eq {w : Webm} {a size b : List UInt8} {n : Nat} (count : Nat)
    (hfile : w.file = a ++ (StoredCluster.mark ++ (size ++ b))) (hsize : size.length = 7)
    (hpos : w.currentCluster.pos = a.length)
    (hid : w.currentCluster.info.idBytes = clusterIdBytes) (hfp : 0 ≤ w.fp)
    (hn : (w.currentCluster.info.dataBytes +
      if count = 0 then 0 else w.currentBlockInfo.bytes.toNat) % 2 ^ 64 = n % 2 ^ 64) :
    ∃ info : Chank, info.idBytes = clusterIdBytes ∧ info.dataBytes = n % 2 ^ 64 ∧
      updateClusterToWebM count w = { w with
        file := a ++ (StoredCluster.mark ++ (toBe 7 n ++ b))
        currentFposW := w.fp
        currentCluster := { w.currentCluster with info } } := by
  have hfile' : w.file = (a ++ StoredCluster.mark) ++ (size ++ b) := by
    rw [hfile, List.append_assoc]
  let total := if count = 0 then 0 else w.currentBlockInfo.bytes.toNat
  let info : Chank := { w.currentCluster.info with
    dataBytes := (w.currentCluster.info.dataBytes + total) % 2 ^ 64
    chankBytes := (w.currentCluster.info.chankBytes + total) % 2 ^ 64 }
  have hpos' : w.currentCluster.pos + ((info.idBytes + 1 : Nat) : Int) =
      (a ++ StoredCluster.mark).length := by
    have hinfo : info.idBytes = 4 := hid
    rw [hpos, hinfo, List.length_append, StoredCluster.length_mark]
    rfl
  have hupdate := updateClusterDataBytesToWebM_eq
    { w with currentCluster := { w.currentCluster with info } }
    { w.currentCluster with info } hfile' hsize hpos' hfp
  refine ⟨info, hid, hn, hupdate.trans ?_⟩
  have hcounted : info.dataBytes = n % 2 ^ 64 := hn
  rw [hcounted, toBe_mod, List.append_assoc]

namespace StoredCluster

/-- The size field when every block is counted: nothing was, before the first block. -/
def flushedSize (c : StoredCluster) : List UInt8 :=
  if c.blocks = [] then List.replicate 7 0xff else toBe 7 c.payload.length

@[simp] theorem length_flushedSize (c : StoredCluster) : c.flushedSize.length = 7 := by
  unfold flushedSize
  split
  · exact List.length_replicate
  · exact length_toBe _ _

theorem openBytes_append (seq : UInt16) (blocks : List (List UInt8)) (block : List UInt8) :
    (⟨seq, blocks ++ [block]⟩ : StoredCluster).openBytes =
      mark ++ ((⟨seq, blocks⟩ : StoredCluster).flushedSize ++
        ((⟨seq, blocks⟩ : StoredCluster).payload ++ block)) := by
  have hsize : (⟨seq, blocks ++ [block]⟩ : StoredCluster).openSize =
      (⟨seq, blocks⟩ : StoredCluster).flushedSize := by
    unfold openSize flushedSize
    cases blocks with
    | nil => rfl
    | cons first rest =>
        rw [if_neg (by simp), if_neg (List.cons_ne_nil _ _), counted, payload, List.dropLast_concat]
  rw [openBytes, hsize, payload, payload, List.flatten_append, List.flatten_singleton]

theorem openBytes_singleton (seq : UInt16) (block : List UInt8) :
    (⟨seq, [block]⟩ : StoredCluster).openBytes = footer ++ block := by
  have hopen := openBytes_append seq [] block
  rw [List.nil_append] at hopen
  rw [hopen]
  rfl

end StoredCluster

/-! ## The state of the writer -/

/-- The peer's globals when its file is `s` behind `header`. -/
structure Stores (header : List UInt8) (s : Stored) (w : Webm) : Prop where
  file : w.file = s.fileBytes header
  fp : w.fp = w.file.length
  pos : w.currentCluster.pos = (s.front header).length
  idBytes : w.currentCluster.info.idBytes = clusterIdBytes
  dataBytes : w.currentCluster.info.dataBytes = s.last.counted.length % 2 ^ 64
  num : w.currentBlockNum = if s.last.blocks = [] then 0 else 1
  last : ∀ block, s.last.blocks.getLast? = some block →
    w.currentBlockInfo.bytes.toNat = block.length
  prev : w.currentBlock.prev.clusterSeq = s.last.seq
  seq : w.currentCluster.seq = s.last.seq.toUInt32
  allocated : (w.clusterAllocated && w.blockAllocated) = true

/-- Behind `beginBlock`: every block is counted. -/
structure Flushed (header : List UInt8) (s : Stored) (w : Webm) : Prop where
  file : w.file = s.front header ++ (StoredCluster.mark ++ (s.last.flushedSize ++ s.last.payload))
  fp : w.fp = w.file.length
  pos : w.currentCluster.pos = (s.front header).length
  idBytes : w.currentCluster.info.idBytes = clusterIdBytes
  dataBytes : w.currentCluster.info.dataBytes = s.last.payload.length % 2 ^ 64
  num : w.currentBlockNum = 0
  prev : w.currentBlock.prev.clusterSeq = s.last.seq
  seq : w.currentCluster.seq = s.last.seq.toUInt32
  allocated : (w.clusterAllocated && w.blockAllocated) = true

/-- Behind `InsertBlockToCluster`: the new block is written and not counted. -/
structure Inserted (header : List UInt8) (s : Stored) (w : Webm) : Prop where
  file : w.file = s.fileBytes header
  fp : w.fp = w.file.length
  pos : w.currentCluster.pos = (s.front header).length
  idBytes : w.currentCluster.info.idBytes = clusterIdBytes
  dataBytes : w.currentCluster.info.dataBytes = s.last.counted.length % 2 ^ 64
  num : w.currentBlockNum = 0
  seq : w.currentCluster.seq = s.last.seq.toUInt32
  allocated : (w.clusterAllocated && w.blockAllocated) = true

theorem StoredCluster.length_payload (c : StoredCluster) {block : List UInt8}
    (h : c.blocks.getLast? = some block) :
    c.payload.length = c.counted.length + block.length := by
  have hblocks := List.dropLast_append_getLast? block h
  rw [payload, counted, ← hblocks, List.dropLast_concat, List.flatten_append, List.length_append,
    List.flatten_singleton]

section Steps

variable {header : List UInt8} {s : Stored} {w : Webm}

/-- The last block counted: the file with every size but the first block's. -/
theorem Stores.fileBytes_flushed (h : Stores header s w) : w.file = s.front header ++
    (StoredCluster.mark ++ (s.last.openSize ++ s.last.payload)) := h.file

theorem Stores.updateClusterToWebM (h : Stores header s w) :
    ∃ info : Chank, info.idBytes = clusterIdBytes ∧
      info.dataBytes = s.last.payload.length % 2 ^ 64 ∧
      updateClusterToWebM w.currentBlockNum w = { w with
        file := s.front header ++ s.last.closedBytes
        currentFposW := w.fp
        currentCluster := { w.currentCluster with info } } := by
  refine updateClusterToWebM_eq w.currentBlockNum h.fileBytes_flushed s.last.length_openSize h.pos
    h.idBytes (by rw [h.fp]; exact Int.natCast_nonneg _) ?_
  rw [h.dataBytes, h.num]
  cases hlast : s.last.blocks.getLast? with
  | none =>
      have hnil := List.getLast?_eq_none_iff.mp hlast
      rw [if_pos hnil, if_pos rfl, StoredCluster.counted, StoredCluster.payload, hnil]
      rfl
  | some block =>
      have hne : s.last.blocks ≠ [] := by
        intro hnil
        rw [hnil] at hlast
        cases hlast
      rw [if_neg hne, if_neg Nat.one_ne_zero, h.last block hlast, s.last.length_payload hlast,
        Nat.mod_add_mod]

theorem Stores.flush (h : Stores header s w) :
    Flushed header s (if w.currentBlockNum = 1 then
        { updateWebM (P2PStream.updateClusterToWebM 1 w) with
          currentBlockNum := 0
          currentBlockInfo := BlockInfo.zero }
      else w) := by
  by_cases hblocks : s.last.blocks = []
  · have hnum : w.currentBlockNum = 0 := by rw [h.num, if_pos hblocks]
    rw [if_neg (by rw [hnum]; exact Nat.zero_ne_one)]
    have hsize : s.last.openSize = s.last.flushedSize := by
      rw [StoredCluster.openSize, StoredCluster.flushedSize, if_pos hblocks, hblocks,
        if_pos (by simp)]
    have hcounted : s.last.counted = s.last.payload := by
      rw [StoredCluster.counted, StoredCluster.payload, hblocks]
      rfl
    exact ⟨by rw [h.fileBytes_flushed, hsize], h.fp, h.pos, h.idBytes,
      by rw [h.dataBytes, hcounted], hnum, h.prev, h.seq, h.allocated⟩
  · have hnum : w.currentBlockNum = 1 := by rw [h.num, if_neg hblocks]
    obtain ⟨info', hid, hdata, hupdate⟩ := h.updateClusterToWebM
    rw [hnum] at hupdate
    have hfp : (0 : Int) ≤ w.fp := by
      rw [h.fp]
      exact Int.natCast_nonneg _
    have hsize : s.last.flushedSize = toBe 7 s.last.payload.length := if_neg hblocks
    have hlength : (s.front header ++ s.last.closedBytes).length = w.file.length := by
      rw [h.file, Stored.fileBytes, List.length_append, List.length_append,
        StoredCluster.length_closedBytes, StoredCluster.length_openBytes]
    rw [if_pos hnum, hupdate]
    simp only [updateWebM, updateOffsetWebM, seekABSWebMW, fsetpos, if_pos hfp]
    exact ⟨by rw [hsize]; rfl, by rw [h.fp, hlength], h.pos, hid, hdata, rfl, h.prev, h.seq,
      h.allocated⟩

theorem Stores.beginBlock (h : Stores header s w) (info : BlockInfo) :
    Flushed header s (beginBlock info w) := by
  have hfirst : Stores header s (if w.isFirstCluster then
      { w with firstClusterSeq := info.clusterSeq.toUInt32, isFirstCluster := false } else w) := by
    split
    · exact ⟨h.file, h.fp, h.pos, h.idBytes, h.dataBytes, h.num, h.last, h.prev, h.seq,
        h.allocated⟩
    · exact h
  have hflush := hfirst.flush
  exact ⟨hflush.file, hflush.fp, hflush.pos, hflush.idBytes, hflush.dataBytes, hflush.num,
    hflush.prev, hflush.seq, hflush.allocated⟩

/-- `InsertBlockToCluster`: the block is appended, in a new cluster when its number is new. -/
theorem Flushed.insertBlockToCluster (h : Flushed header s w) (data : Buf) {bytes : UInt16}
    {block : List UInt8} (hblock : (data.drop blockinfoBytes).take bytes.toNat = block) :
    Inserted header (s.store w.currentBlock.info.clusterSeq block)
      (insertBlockToCluster data bytes w) := by
  unfold P2PStream.insertBlockToCluster checkClusterSeq
  by_cases hseq : w.currentBlock.info.clusterSeq = s.last.seq
  · -- a block of the open cluster
    have hstore : s.store w.currentBlock.info.clusterSeq block =
        ⟨s.closed, ⟨s.last.seq, s.last.blocks ++ [block]⟩⟩ := by
      rw [Stored.store, if_pos hseq, hseq]
    have hcounted : (⟨s.last.seq, s.last.blocks ++ [block]⟩ : StoredCluster).counted =
        s.last.payload := by
      rw [StoredCluster.counted, List.dropLast_concat, StoredCluster.payload]
    have hsame : (w.currentBlock.prev.clusterSeq != w.currentBlock.info.clusterSeq) = false := by
      rw [h.prev, hseq, bne_self_eq_false]
    rw [hstore, hsame, if_neg Bool.false_ne_true, hblock, exportWebM_end h.fp]
    refine ⟨?_, rfl, h.pos, h.idBytes, h.dataBytes.trans (by rw [hcounted]), h.num, h.seq,
      h.allocated⟩
    show w.file ++ block = _
    rw [h.file, Stored.fileBytes, StoredCluster.openBytes_append]
    simp only [List.append_assoc]
    rfl
  · -- the first block of another cluster: the open one is closed with its size
    have hstore : s.store w.currentBlock.info.clusterSeq block =
        ⟨s.closed ++ [s.last], ⟨w.currentBlock.info.clusterSeq, [block]⟩⟩ := by
      rw [Stored.store, if_neg hseq]
    have hnew : (w.currentBlock.prev.clusterSeq != w.currentBlock.info.clusterSeq) = true := by
      rw [h.prev]
      exact bne_iff_ne.mpr fun heq => hseq heq.symm
    have hfp : (0 : Int) ≤ w.fp := by
      rw [h.fp]
      exact Int.natCast_nonneg _
    obtain ⟨info, -, -, hupdate⟩ := updateClusterToWebM_eq (n := s.last.payload.length) 0 h.file
      s.last.length_flushedSize h.pos h.idBytes hfp (by rw [h.dataBytes, if_pos rfl, Nat.add_zero,
        Nat.mod_mod])
    have hfront : (⟨s.closed ++ [s.last], ⟨w.currentBlock.info.clusterSeq, [block]⟩⟩ :
        Stored).front header = s.front header ++ s.last.closedBytes := by
      rw [Stored.front, Stored.front, List.flatMap_append, List.flatMap_singleton,
        List.append_assoc]
    have hlength : w.fp = (s.front header ++ s.last.closedBytes).length := by
      rw [h.fp, h.file, StoredCluster.closedBytes]
      simp only [List.length_append, StoredCluster.length_flushedSize, length_toBe]
    rw [hstore, if_pos hnew, h.num, hupdate, hblock]
    rw [renewClusterForWrite_end (by exact hlength), exportWebM_end rfl]
    have hfile : s.front header ++ (StoredCluster.mark ++
        (toBe 7 s.last.payload.length ++ s.last.payload)) ++ footer ++ block =
        (⟨s.closed ++ [s.last], ⟨w.currentBlock.info.clusterSeq, [block]⟩⟩ :
          Stored).fileBytes header := by
      rw [Stored.fileBytes, hfront, StoredCluster.openBytes_singleton, StoredCluster.closedBytes]
      simp only [List.append_assoc]
    refine ⟨hfile, rfl, ?_, rfl, rfl, rfl, rfl, h.allocated⟩
    · rw [hfront]
      exact hlength

theorem Flushed.endBlock (h : Flushed header s w) {data : Buf} {k : UInt16} {block : List UInt8}
    (hinfo : copyBytesToBlockInfo data = w.currentBlock.info)
    (hblock : (data.drop blockinfoBytes).take w.currentBlock.info.bytes.toNat = block) :
    Stores header (s.store w.currentBlock.info.clusterSeq block) (endBlock data k w) := by
  have hflushed : Flushed header s { w with latestBlockSeq := w.currentBlock.info.seq } :=
    ⟨h.file, h.fp, h.pos, h.idBytes, h.dataBytes, h.num, h.prev, h.seq, h.allocated⟩
  have hins := hflushed.insertBlockToCluster data hblock
  have hlast :
      (s.store w.currentBlock.info.clusterSeq block).last.blocks.getLast? = some block := by
    unfold Stored.store
    split
    · exact List.getLast?_concat
    · rfl
  have hne : (s.store w.currentBlock.info.clusterSeq block).last.blocks ≠ [] := by
    intro hnil
    rw [hnil] at hlast
    cases hlast
  have hseq : (s.store w.currentBlock.info.clusterSeq block).last.seq =
      w.currentBlock.info.clusterSeq := by
    unfold Stored.store
    split <;> rfl
  refine ⟨hins.file, hins.fp, hins.pos, hins.idBytes, hins.dataBytes, ?_, ?_, ?_, hins.seq,
    hins.allocated⟩
  · rw [if_neg hne]
    exact congrArg (· + 1) hins.num
  · intro block' hblock'
    rw [hlast] at hblock'
    cases hblock'
    show (copyBytesToBlockInfo data).bytes.toNat = _
    rw [hinfo, ← hblock, Buf.length_take]
  · have hsame := congrArg Marks.block (insertBlockToCluster_marks data
      w.currentBlock.info.bytes { w with latestBlockSeq := w.currentBlock.info.seq })
    rw [apply_ite Marks.block, ite_self] at hsame
    rw [hseq]
    exact congrArg (fun b : Block => b.info.clusterSeq) hsame

/-- `ChangeTimecode` touches the two variables of the offset, and the payload. -/
theorem changeFirstBlock_ok {data data' : Buf} {w' : Webm}
    (h : changeFirstBlock data w = .ok (w', data')) :
    (∃ timecodeOffset isGetTimecodeOffset,
      w' = { w with timecodeOffset, isGetTimecodeOffset }) ∧
      data'.take blockinfoBytes = data.take blockinfoBytes := by
  unfold changeFirstBlock at h
  split at h
  · obtain ⟨⟨w₁, payload⟩, hchange, h⟩ := bind_eq_ok.mp h
    cases h
    refine ⟨?_, Buf.take_congr fun i hi => if_pos hi⟩
    simp only [changeTimecode] at hchange
    split at hchange
    · cases hchange
      split
      · exact ⟨_, _, rfl⟩
      · exact ⟨_, _, rfl⟩
    · cases hchange
  · cases h
    exact ⟨⟨_, _, rfl⟩, rfl⟩

/-- The bytes of a block that are written: its payload behind `ChangeTimecode`. -/
def writtenBlock (data : Buf) (w : Webm) : List UInt8 :=
  let info := copyBytesToBlockInfo data
  match changeFirstBlock data (beginBlock info w) with
  | .ok (_, data) => (data.drop blockinfoBytes).take info.bytes.toNat
  | .error _ => []

theorem copyBytesToBlockInfo_congr {d e : Buf} (h : d.take blockinfoBytes = e.take blockinfoBytes) :
    copyBytesToBlockInfo d = copyBytesToBlockInfo e := by
  refine copyBytesToBlockInfo_of_holds (Buf.holds_take.mpr ?_)
  rw [copyBlockInfoToBytes_copyBytes, Buf.length_take]
  exact h

/-- Storing a block is `Stored.store`. -/
theorem Stores.storeBlock (h : Stores header s w) {data : Buf} {k : UInt16} {w' : Webm}
    (hstore : storeBlock data k w = .ok w') :
    Stores header (s.store (copyBytesToBlockInfo data).clusterSeq (writtenBlock data w)) w' := by
  obtain ⟨⟨w₁, data'⟩, hchange, hstore⟩ := bind_eq_ok.mp hstore
  cases hstore
  obtain ⟨⟨t, g, rfl⟩, hinfo⟩ := changeFirstBlock_ok hchange
  have hbegin := h.beginBlock (copyBytesToBlockInfo data)
  have hflushed : Flushed header s { P2PStream.beginBlock (copyBytesToBlockInfo data) w with
      timecodeOffset := t, isGetTimecodeOffset := g } :=
    ⟨hbegin.file, hbegin.fp, hbegin.pos, hbegin.idBytes, hbegin.dataBytes, hbegin.num, hbegin.prev,
      hbegin.seq, hbegin.allocated⟩
  have hwritten : (data'.drop blockinfoBytes).take (copyBytesToBlockInfo data).bytes.toNat =
      writtenBlock data w := by
    simp only [writtenBlock, hchange]
  exact hflushed.endBlock (k := k) (copyBytesToBlockInfo_congr hinfo) hwritten

theorem Stores.end (h : Stores header s w) {data : Buf} (k : UInt16)
    (hend : data.take blockinfoBytes = blockinfoEnd) :
    assembleBlock data k w = .error (.exit "" (s.endBytes header)) := by
  obtain ⟨info, -, -, hupdate⟩ := h.updateClusterToWebM
  have hstart : data.take blockinfoBytes ≠ blockinfoStart := by
    rw [hend]
    decide
  have hlength : w.fp = (s.front header ++ s.last.closedBytes).length := by
    rw [h.fp, h.file, Stored.fileBytes, List.length_append, List.length_append,
      StoredCluster.length_closedBytes, StoredCluster.length_openBytes]
  rw [assembleBlock, if_neg (by rw [h.allocated]; decide), if_neg hstart, if_pos hend, hupdate,
    exportWebM_end (by exact hlength)]
  rfl

end Steps

/-! ## The other globals -/

/-- What a reader of the file relies on, beside the file. -/
structure Counts where
  isFirst : Bool
  first : UInt32
  total : Int
  headerBytes : UInt16
  children : Fin maxChildNum → Block
  childBlocks : Bool
  nodeTimecode : UInt64

def Webm.counts (w : Webm) : Counts :=
  ⟨w.isFirstCluster, w.firstClusterSeq, w.totalFileBytes, w.webmHeaderTotalBytes,
    w.currentChildBlock, w.childBlocksAllocated, w.nodeTimecodeOffset⟩

@[simp] theorem exportWebM_counts (l : List UInt8) (w : Webm) :
    (exportWebM l w).counts = w.counts := rfl

@[simp] theorem seekABSWebMW_counts (offset : Int) (w : Webm) :
    (seekABSWebMW offset w).counts = w.counts := by
  simp only [seekABSWebMW, fsetpos]
  split <;> rfl

@[simp] theorem updateWebM_counts (w : Webm) : (updateWebM w).counts = w.counts :=
  seekABSWebMW_counts _ _

@[simp] theorem updateClusterToWebM_counts (count : Nat) (w : Webm) :
    (updateClusterToWebM count w).counts = w.counts := by
  simp only [updateClusterToWebM, updateClusterDataBytesToWebM, seekABSWebMW_counts,
    exportWebM_counts]
  rfl

theorem insertBlockToCluster_counts (data : Buf) (bytes : UInt16) (w : Webm) :
    (insertBlockToCluster data bytes w).counts = w.counts := by
  rw [insertBlockToCluster, exportWebM_counts]
  split
  · exact updateClusterToWebM_counts w.currentBlockNum w
  · rfl

theorem beginBlock_counts (info : BlockInfo) (w : Webm) :
    (beginBlock info w).counts = { w.counts with
      isFirst := false
      first := if w.isFirstCluster then info.clusterSeq.toUInt32 else w.firstClusterSeq } := by
  have hclose : ∀ v : Webm, (if v.currentBlockNum = 1 then
      { updateWebM (updateClusterToWebM 1 v) with
        currentBlockNum := 0
        currentBlockInfo := BlockInfo.zero }
    else v).counts = v.counts := by
    intro v
    split
    · exact (updateWebM_counts _).trans (updateClusterToWebM_counts 1 v)
    · rfl
  refine (hclose _).trans ?_
  by_cases h : w.isFirstCluster = true
  · rw [if_pos h, if_pos h]
    rfl
  · rw [if_neg h, if_neg h]
    simp only [Webm.counts, Bool.not_eq_true _ ▸ h]

theorem storeBlock_counts {data : Buf} {k : UInt16} {w w' : Webm}
    (h : storeBlock data k w = .ok w') :
    w'.counts = { w.counts with
      isFirst := false
      first := if w.isFirstCluster then (copyBytesToBlockInfo data).clusterSeq.toUInt32
        else w.firstClusterSeq
      total := w.totalFileBytes + k.toNat } ∧
    w'.marks =
      { allocated := w.clusterAllocated && w.blockAllocated
        previous := if w.currentBlock.prev.clusterSeq = (copyBytesToBlockInfo data).clusterSeq
          then w.prevCluster.seq else w.currentCluster.seq
        cluster := if w.currentBlock.prev.clusterSeq = (copyBytesToBlockInfo data).clusterSeq
          then w.currentCluster.seq else (copyBytesToBlockInfo data).clusterSeq.toUInt32
        block := shiftToPreBlock ⟨copyBytesToBlockInfo data, w.currentBlock.prev⟩
        latest := (copyBytesToBlockInfo data).seq
        total := w.totalBlockNum + 1 } := by
  obtain ⟨⟨w₁, data'⟩, hchange, h⟩ := bind_eq_ok.mp h
  cases h
  obtain ⟨⟨t, g, rfl⟩, -⟩ := changeFirstBlock_ok hchange
  have hbegin := beginBlock_counts (copyBytesToBlockInfo data) w
  have hmarks := beginBlock_marks (copyBytesToBlockInfo data) w
  simp only [Webm.marks, Marks.mk.injEq] at hmarks
  constructor
  · have hend : ∀ v : Webm, (endBlock data' k v).counts =
        { v.counts with total := v.totalFileBytes + k.toNat } := by
      intro v
      have hinsert := insertBlockToCluster_counts data' v.currentBlock.info.bytes
        { v with latestBlockSeq := v.currentBlock.info.seq }
      simp only [Webm.counts, Counts.mk.injEq] at hinsert
      simp only [endBlock, Webm.counts, hinsert]
    rw [hend]
    simp only [Webm.counts, Counts.mk.injEq] at hbegin ⊢
    simp only [hbegin, and_self]
  · rw [endBlock_marks]
    simp only [hmarks]

/-- What `AssembleBlock` makes of a packet: a header is written, a block is dropped, or it is
stored. -/
theorem assembleBlock_cases {data : Buf} {k : UInt16} {w w' : Webm}
    (h : assembleBlock data k w = .ok w') :
    (data.take blockinfoBytes = blockinfoStart ∧ w' =
      let l := (data.drop blockinfoBytes).take (k - UInt16.ofNat blockinfoBytes).toNat
      let w := renewClusterForWrite (updateWebM (writeWebMHeader l w))
      { w with totalFileBytes := w.totalFileBytes + (k - UInt16.ofNat blockinfoBytes).toNat }) ∨
    (data.take blockinfoBytes ≠ blockinfoStart ∧
      isOldBlockSeq (copyBytesToBlockInfo data) w = true ∧ w' = w) ∨
    (data.take blockinfoBytes ≠ blockinfoStart ∧
      isOldBlockSeq (copyBytesToBlockInfo data) w = false ∧
      storeBlock data (k - UInt16.ofNat blockinfoBytes) w = .ok w') := by
  rw [assembleBlock] at h
  split at h
  · cases h
  · by_cases hstart : data.take blockinfoBytes = blockinfoStart
    · rw [if_pos hstart] at h
      exact .inl ⟨hstart, (Except.ok.inj h).symm⟩
    · rw [if_neg hstart] at h
      split at h
      · cases h
      · split at h
        · next hold => exact .inr (.inl ⟨hstart, hold, (Except.ok.inj h).symm⟩)
        · next hnew => exact .inr (.inr ⟨hstart, Bool.eq_false_iff.mpr hnew, h⟩)

theorem assembleBlock_children {data : Buf} {k : UInt16} {w w' : Webm}
    (h : assembleBlock data k w = .ok w') : w'.currentChildBlock = w.currentChildBlock := by
  rcases assembleBlock_cases h with ⟨-, hheader⟩ | ⟨-, -, rfl⟩ | ⟨-, -, hstore⟩
  · have hcounts := updateWebM_counts (writeWebMHeader
      ((data.drop blockinfoBytes).take (k - UInt16.ofNat blockinfoBytes).toNat) w)
    rw [hheader]
    exact congrArg Counts.children hcounts
  · rfl
  · exact congrArg Counts.children (storeBlock_counts hstore).1

end P2PStream
