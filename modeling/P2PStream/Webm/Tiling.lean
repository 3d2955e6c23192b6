/-
# `P2PStream.Webm.Tiling` — reading one cluster of the file to its end

`readCluster` is the inner loop of the origin's `main`: `ReadBlock` until it
answers `CLUSTER_END`, with `SeekForNextBlock` and `ShiftToPreBlock` in between.
It is run on a file in which the payload is followed by the next Cluster or
Cues id, and collects for each block the position it was read at and its record.

The blocks lie side by side from the head of the payload to the id behind it,
whatever the local buffer of `ReadBlock` holds inside its window beforehand.
-/
import P2PStream.Webm.File
import P2PStream.Webm.Segment
import Mathlib.Data.List.Chain

namespace P2PStream

open Lib

/-! ## The window `ReadBlock` sees -/

/-- A read of `n` bytes shows `x` when it stops early only behind `x`. -/
theorem window_overlay {stale : Buf} {l x : List UInt8} {n r : Nat}
    (hstale : ∀ i, r ≤ i → stale i = 0) (hx : x <+: l) (hn : n ≤ r)
    (hend : n < r → x.length ≤ n) : Window (stale.overlay (l.take n)) x r := by
  obtain ⟨t, rfl⟩ := hx
  constructor
  · intro i hi hix
    have hin : i < n := by
      by_contra hni
      exact absurd (hend (by omega)) (by omega)
    simp [Buf.overlay, List.getElem?_append_left hix, hin, hix]
  · intro i hi
    rw [Buf.overlay_past _ _ (by rw [List.length_take]; omega)]
    exact hstale i hi

theorem clampBytes_le (bytes : Nat) (dbytes : Int) : clampBytes bytes dbytes ≤ bytes := by
  unfold clampBytes
  split <;> omega

theorem le_clampBytes {bytes k : Nat} {dbytes : Int} (h : clampBytes bytes dbytes < bytes)
    (hk : (k : Int) ≤ dbytes) : k ≤ clampBytes bytes dbytes := by
  unfold clampBytes at h ⊢
  split at h <;> rename_i hc
  · rw [if_pos hc]
    omega
  · exact absurd h (lt_irrefl _)

/-! ## One round of the loop -/

theorem readBlock_eq {stale : Buf} {block block' : Block} {w : Webm} {status : Int}
    (h : getNextBlockByBytes block maxBlockBytes (importWebM stale maxBlockBytes.toNat w).2
      = some (block', status)) :
    readBlock stale block w = some ({ (importWebM stale maxBlockBytes.toNat w).1 with
      totalBlockNum := w.totalBlockNum + 1 }, block', status) := by
  simp only [readBlock, h, Option.bind_eq_bind, Option.bind_some]
  rfl

/-- The state behind `ReadBlock` and `SeekForNextBlock`: the reading position has moved
by the bytes of the block, however many bytes were in the window. -/
theorem getNextBlockByBytes_of_readBlock {stale : Buf} {block block' : Block} {w w' : Webm}
    {status : Int} (h : readBlock stale block w = some (w', block', status)) :
    getNextBlockByBytes block maxBlockBytes (importWebM stale maxBlockBytes.toNat w).2 =
      some (block', status) := by
  simp only [readBlock, Option.bind_eq_bind, Option.bind_eq_some_iff, Prod.exists] at h
  obtain ⟨b, s, hnext, h⟩ := h
  obtain ⟨-, rfl, rfl⟩ := by simpa using h
  exact hnext

theorem seekForNextBlock_readBlock {stale : Buf} {block block' : Block} {w w' : Webm}
    {status : Int} (hfp : 0 ≤ w.fp) (h : readBlock stale block w = some (w', block', status)) :
    ∃ k, seekForNextBlock block' w' = { w with
      fp := w.fp + block'.info.bytes.toNat
      currentFposR := w.fp + block'.info.bytes.toNat
      currentReadBytes := k
      totalBlockNum := w.totalBlockNum + 1 } := by
  simp only [readBlock, Option.bind_eq_bind, Option.bind_eq_some_iff, Prod.exists] at h
  obtain ⟨b, s, -, h⟩ := h
  obtain ⟨rfl, rfl, rfl⟩ := by simpa using h
  refine ⟨(w.readBytes (clampBytes maxBlockBytes.toNat
    (w.totalFileBytes - w.currentFposR))).length, ?_⟩
  have hpos : ∀ k : Int, w.fp + k + (b.info.bytes.toNat - k) = w.fp + b.info.bytes.toNat := by
    intro k
    omega
  simp only [seekForNextBlock, seekRLTWebM, seekABSWebM, fsetpos, importWebM, fread, hpos]
  rw [if_pos (by omega)]

/-- What the file holds from the reading position on, and that the reader may see the
id behind it. -/
structure Reading (w : Webm) (rest stop : List UInt8) : Prop where
  before : ∃ before : List UInt8, w.file = before ++ (rest ++ stop) ∧ w.fp = before.length
  fpos : w.currentFposR ≤ w.fp
  total : w.fp + rest.length + 4 ≤ w.totalFileBytes

theorem IsStop.take {stop : List UInt8} (h : IsStop stop) : IsStop (stop.take 4) := by
  refine h.imp (fun hp => ?_) (fun hp => ?_) <;>
    exact List.prefix_take_iff.mpr ⟨hp, by simp⟩

theorem IsStop.length_take {stop : List UInt8} (h : IsStop stop) : (stop.take 4).length = 4 := by
  have : 4 ≤ stop.length := by rcases h with hp | hp <;> simpa using hp.length_le
  rw [List.length_take]
  omega

theorem Reading.window {w : Webm} {rest stop : List UInt8} {stale : Buf} (h : Reading w rest stop)
    (hstop : IsStop stop) (hstale : ∀ i, 1000 ≤ i → stale i = 0) :
    Window (importWebM stale maxBlockBytes.toNat w).2 (rest ++ stop.take 4) 1000 := by
  obtain ⟨before, hfile, hfp⟩ := h.before
  have hreq : maxBlockBytes.toNat = 1000 := rfl
  have hdrop : w.file.drop w.fp.toNat = rest ++ stop := by
    rw [hfile, hfp, Int.toNat_natCast, List.drop_left]
  have hview : rest ++ stop.take 4 <+: rest ++ stop :=
    (List.prefix_append_right_inj rest).mpr (List.take_prefix 4 stop)
  simp only [importWebM, fread, Webm.readBytes, hdrop, hreq]
  refine window_overlay hstale hview (clampBytes_le _ _) fun hlt => ?_
  refine le_clampBytes hlt ?_
  have := h.total
  have := h.fpos
  rw [List.length_append, hstop.length_take]
  omega

theorem readBlock_step {w : Webm} {rest stop : List UInt8} {stale : Buf} (block : Block)
    (hstop : IsStop stop) (hcursor : Cursor block.prev rest) (hread : Reading w rest stop)
    (hstale : ∀ i, 1000 ≤ i → stale i = 0)
    (hbytes : block.info.bytes = 0) (htotal : block.info.totalPieceBytes = 0) :
    ∃ w' info ret, readBlock stale block w = some (w', ⟨info, block.prev⟩, ret) ∧
      info.pos = (if block.prev.status = statusInit then UInt32.ofNat clusterHeaderBytes
        else block.prev.pos + block.prev.bytes.toUInt32) ∧
      info.seq = (if block.prev.status = statusInit then firstBlockSeq else block.prev.seq + 1) ∧
      info.clusterSeq = block.prev.clusterSeq ∧ Cut rest info ret := by
  obtain ⟨info, ret, hnext, hpos, hseq, hcluster, hcut⟩ :=
    getNextBlockByBytes_step block hstop.take hcursor (hread.window hstop hstale) hbytes htotal
  exact ⟨_, info, ret, readBlock_eq hnext, hpos, hseq, hcluster, hcut⟩

/-- The reading position moves over `k` bytes of what was to be read. -/
theorem Reading.advance {w : Webm} {rest stop : List UInt8} (h : Reading w rest stop) (w' : Webm)
    {k : Nat} (hk : k ≤ rest.length) (hfile : w'.file = w.file) (hfp : w'.fp = w.fp + k)
    (hfpos : w'.currentFposR = w'.fp) (htotal : w'.totalFileBytes = w.totalFileBytes) :
    Reading w' (rest.drop k) stop := by
  obtain ⟨before, hbefore, hpos⟩ := h.before
  have hlen := h.total
  refine ⟨⟨before ++ rest.take k, ?_, ?_⟩, by omega, ?_⟩
  · rw [hfile, hbefore, List.append_assoc, ← List.append_assoc (rest.take k),
      List.take_append_drop]
  · rw [hfp, hpos, List.length_append, List.length_take]
    omega
  · rw [htotal, hfp, List.length_drop]
    omega

/-! ## The whole loop -/

/-- The inner loop of the origin's `main`, less the sending: the position and the
record of every block, up to the one that ends the cluster.  `fuel` bounds the
rounds; `stale fuel` is what the local buffer of `ReadBlock` holds in a round. -/
def readCluster (stale : Nat → Buf) : Nat → Webm → Block →
    Option (List (Int × BlockInfo) × Webm × Block)
  | 0, _, _ => none
  | fuel + 1, w, block => do
      let (w', block', status) ← readBlock (stale fuel) block w
      let next := seekForNextBlock block' w'
      if status = clusterEnd then
        return ([(w.fp, block'.info)], next, block')
      else
        let (rest, last, lastBlock) ← readCluster stale fuel next (shiftToPreBlock block')
        return ((w.fp, block'.info) :: rest, last, lastBlock)

section Rounds

variable {stale : Nat → Buf} {fuel : Nat} {w w' : Webm} {block block' : Block} {status : Int}

theorem readCluster_end (h : readBlock (stale fuel) block w = some (w', block', clusterEnd)) :
    readCluster stale (fuel + 1) w block =
      some ([(w.fp, block'.info)], seekForNextBlock block' w', block') := by
  rw [readCluster, h]
  rfl

theorem readCluster_cons (h : readBlock (stale fuel) block w = some (w', block', status))
    (hstatus : status ≠ clusterEnd) {rest : List (Int × BlockInfo)} {w'' : Webm} {last : Block}
    (hrest : readCluster stale fuel (seekForNextBlock block' w') (shiftToPreBlock block') =
      some (rest, w'', last)) :
    readCluster stale (fuel + 1) w block = some ((w.fp, block'.info) :: rest, w'', last) := by
  rw [readCluster, h]
  simp only [Option.bind_eq_bind, Option.bind_some, if_neg hstatus, hrest]
  rfl

end Rounds

/-- The block `y` lies right behind the block `x`. -/
structure Follows (x y : Int × BlockInfo) : Prop where
  position : y.1 = x.1 + x.2.bytes.toNat
  pos : y.2.pos = x.2.pos + x.2.bytes.toUInt32
  seq : y.2.seq = x.2.seq + 1

/-- The bytes of consecutive blocks. -/
def totalBytes (blocks : List (Int × BlockInfo)) : Nat :=
  (blocks.map fun x => x.2.bytes.toNat).sum

@[simp] theorem totalBytes_nil : totalBytes [] = 0 := rfl

@[simp] theorem totalBytes_cons (x : Int × BlockInfo) (xs : List (Int × BlockInfo)) :
    totalBytes (x :: xs) = x.2.bytes.toNat + totalBytes xs := rfl

/-- Blocks that cut `length` bytes from the file position `start` on. -/
structure Tiling (start : Int) (pos seq : UInt32) (length : Nat)
    (blocks : List (Int × BlockInfo)) : Prop where
  head : ∃ info rest, blocks = (start, info) :: rest ∧ info.pos = pos ∧ info.seq = seq
  chain : List.IsChain Follows blocks
  bytes_le : ∀ x ∈ blocks, x.2.bytes.toNat ≤ 1000
  bytes_pos : ∀ x ∈ blocks.dropLast, 0 < x.2.bytes.toNat
  total : totalBytes blocks = length

theorem Tiling.single {start : Int} {info : BlockInfo} {length : Nat}
    (hle : info.bytes.toNat ≤ 1000) (hlen : info.bytes.toNat = length) :
    Tiling start info.pos info.seq length [(start, info)] where
  head := ⟨info, [], rfl, rfl, rfl⟩
  chain := List.isChain_singleton _
  bytes_le := by simpa using hle
  bytes_pos := by simp
  total := by simpa using hlen

theorem Tiling.cons {start : Int} {info : BlockInfo} {length : Nat}
    {blocks : List (Int × BlockInfo)} (hle : info.bytes.toNat ≤ 1000)
    (hpos : 0 < info.bytes.toNat) (hlen : info.bytes.toNat ≤ length)
    (h : Tiling (start + info.bytes.toNat) (info.pos + info.bytes.toUInt32) (info.seq + 1)
      (length - info.bytes.toNat) blocks) :
    Tiling start info.pos info.seq length ((start, info) :: blocks) := by
  obtain ⟨next, rest, rfl, hnextPos, hnextSeq⟩ := h.head
  have hfollows : Follows (start, info) (start + info.bytes.toNat, next) :=
    ⟨rfl, hnextPos, hnextSeq⟩
  refine ⟨⟨info, _, rfl, rfl, rfl⟩, h.chain.cons_cons hfollows, ?_, ?_, ?_⟩
  · exact List.forall_mem_cons.mpr ⟨hle, h.bytes_le⟩
  · rw [List.dropLast_cons_cons]
    exact List.forall_mem_cons.mpr ⟨hpos, h.bytes_pos⟩
  · rw [totalBytes_cons, h.total]
    exact Nat.add_sub_cancel' hlen

/-- The loop from any cursor: it ends, and its blocks cut all that was left. -/
theorem readCluster_tiling {stop : List UInt8} (hstop : IsStop stop) {stale : Nat → Buf}
    (hstale : ∀ k i, 1000 ≤ i → stale k i = 0) :
    ∀ (fuel : Nat) (w : Webm) (rest : List UInt8) (block : Block), rest.length < fuel →
      Cursor block.prev rest → Reading w rest stop →
      block.info.bytes = 0 → block.info.totalPieceBytes = 0 →
      ∃ blocks w' block', readCluster stale fuel w block = some (blocks, w', block') ∧
        Tiling w.fp
          (if block.prev.status = statusInit then UInt32.ofNat clusterHeaderBytes
            else block.prev.pos + block.prev.bytes.toUInt32)
          (if block.prev.status = statusInit then firstBlockSeq else block.prev.seq + 1)
          rest.length blocks ∧
        w'.fp = w.fp + rest.length ∧ w'.file = w.file := by
  intro fuel
  induction fuel with
  | zero => intro _ _ _ hlt; exact absurd hlt (Nat.not_lt_zero _)
  | succ fuel ih =>
      intro w rest block hlt hcursor hread hbytes htotal
      obtain ⟨w', info, ret, hblock, hpos, hseq, -, hcut⟩ :=
        readBlock_step block hstop hcursor hread (hstale fuel) hbytes htotal
      obtain ⟨before, -, hfp⟩ := hread.before
      obtain ⟨k, hnext⟩ := seekForNextBlock_readBlock (by omega) hblock
      rw [← hpos, ← hseq]
      by_cases hend : ret = clusterEnd
      · have hall := hcut.last hend
        rw [hend] at hblock
        refine ⟨_, _, _, readCluster_end hblock, Tiling.single hcut.bytes_le hall, ?_, ?_⟩
        · rw [hnext, hall]
        · rw [hnext]
      · obtain ⟨hpos0, hcursor'⟩ := hcut.next hend
        have hle := hcut.bytes_le_rest
        have hread' := hread.advance (seekForNextBlock ⟨info, block.prev⟩ w') hle
          (by rw [hnext]) (by rw [hnext]) (by rw [hnext]) (by rw [hnext])
        obtain ⟨blocks, w'', block'', hloop, htiling, hfp', hfile'⟩ :=
          ih _ _ (shiftToPreBlock ⟨info, block.prev⟩) (by rw [List.length_drop]; omega)
            hcursor' hread' rfl rfl
        have hstatus : (shiftToPreBlock ⟨info, block.prev⟩).prev.status ≠ statusInit := by
          show info.status ≠ statusInit
          rcases hcut.status_mem with h | h | h <;> rw [h] <;> decide
        rw [if_neg hstatus, if_neg hstatus, hnext, List.length_drop] at htiling
        rw [hnext, List.length_drop] at hfp'
        refine ⟨_, _, _, readCluster_cons hblock hend hloop,
          htiling.cons hcut.bytes_le hpos0 hle, ?_, ?_⟩
        · rw [hfp']
          simp only
          omega
        · rw [hfile', hnext]

/-! ## The fields as numbers -/

theorem totalBytes_append (xs ys : List (Int × BlockInfo)) :
    totalBytes (xs ++ ys) = totalBytes xs + totalBytes ys := by
  simp [totalBytes]

theorem totalBytes_take_succ {blocks : List (Int × BlockInfo)} {i : Nat} (h : i < blocks.length) :
    totalBytes (blocks.take (i + 1)) = totalBytes (blocks.take i) + blocks[i].2.bytes.toNat := by
  rw [← List.take_append_getElem h, totalBytes_append]
  simp

theorem totalBytes_take_le (blocks : List (Int × BlockInfo)) (i : Nat) :
    totalBytes (blocks.take i) ≤ totalBytes blocks := by
  conv_rhs => rw [← List.take_append_drop i blocks, totalBytes_append]
  exact Nat.le_add_right _ _

/-- Below `2 ^ 32` bytes the 32-bit fields are the offset in the cluster and the rank. -/
theorem Tiling.exact {start : Int} {length : Nat} {blocks : List (Int × BlockInfo)}
    (h : Tiling start (UInt32.ofNat clusterHeaderBytes) firstBlockSeq length blocks)
    (hlen : clusterHeaderBytes + length < 2 ^ 32) :
    ∀ i (hi : i < blocks.length), i ≤ totalBytes (blocks.take i) ∧
      blocks[i].1 = start + totalBytes (blocks.take i) ∧
      blocks[i].2.pos.toNat = clusterHeaderBytes + totalBytes (blocks.take i) ∧
      blocks[i].2.seq.toNat = i + 1 := by
  have h12 : clusterHeaderBytes = 12 := rfl
  intro i
  induction i with
  | zero =>
      intro hi
      obtain ⟨info, rest, rfl, hpos, hseq⟩ := h.head
      simp only [List.getElem_cons_zero, List.take_zero, totalBytes_nil, hpos, hseq]
      exact ⟨le_refl 0, by omega, rfl, rfl⟩
  | succ i ih =>
      intro hi
      obtain ⟨hrank, hstart, hpos, hseq⟩ := ih (by omega)
      have hfollows : Follows blocks[i] blocks[i + 1] := List.isChain_iff_getElem.mp h.chain i hi
      have hbytes : 0 < blocks[i].2.bytes.toNat := by
        refine h.bytes_pos _ (List.mem_iff_getElem.mpr ⟨i, ?_, List.getElem_dropLast _⟩)
        rw [List.length_dropLast]
        omega
      have hsum := totalBytes_take_succ (show i < blocks.length by omega)
      have hle := totalBytes_take_le blocks (i + 1)
      rw [h.total, hsum] at hle
      have hone : (1 : UInt32).toNat = 1 := rfl
      rw [hsum]
      refine ⟨by omega, ?_, ?_, ?_⟩
      · rw [hfollows.position, hstart]
        omega
      · rw [hfollows.pos, UInt32.toNat_add, UInt16.toNat_toUInt32, hpos]
        omega
      · rw [hfollows.seq, UInt32.toNat_add, hseq, hone]
        omega

/-! ## A cluster is cut without loss -/

/-- From a `STATUS_INIT` block at the head of a payload the loop ends, its blocks lie
side by side, and it leaves the file at the id behind the payload. -/
theorem readCluster_lossless (p : ClusterPayload) (before stop : List UInt8) {w : Webm}
    {block : Block} {stale : Nat → Buf} (hstop : IsStop stop)
    (hfile : w.file = before ++ (p.bytes ++ stop)) (hfp : w.fp = before.length)
    (hfpos : w.currentFposR ≤ w.fp) (htotal : w.fp + p.bytes.length + 4 ≤ w.totalFileBytes)
    (hstale : ∀ k i, 1000 ≤ i → stale k i = 0) (hinit : block.prev.status = statusInit)
    (hbytes : block.info.bytes = 0) (hpiece : block.info.totalPieceBytes = 0)
    {fuel : Nat} (hfuel : p.bytes.length < fuel) :
    ∃ blocks w' block', readCluster stale fuel w block = some (blocks, w', block') ∧
      Tiling before.length (UInt32.ofNat clusterHeaderBytes) firstBlockSeq p.bytes.length
        blocks ∧
      (clusterHeaderBytes + p.bytes.length < 2 ^ 32 → ∀ i (hi : i < blocks.length),
        blocks[i].2.pos.toNat = clusterHeaderBytes + totalBytes (blocks.take i) ∧
          blocks[i].2.seq.toNat = i + 1) ∧
      w'.fp = before.length + p.bytes.length ∧ w'.file = w.file := by
  obtain ⟨blocks, w', block', hrun, htiling, hfp', hfile'⟩ :=
    readCluster_tiling hstop hstale fuel w p.bytes block hfuel (Cursor.atStart p hinit)
      ⟨⟨before, hfile, hfp⟩, hfpos, htotal⟩ hbytes hpiece
  rw [if_pos hinit, if_pos hinit, hfp] at htiling
  refine ⟨blocks, w', block', hrun, htiling, fun hlen i hi => ?_, by rw [hfp', hfp], hfile'⟩
  exact (htiling.exact hlen i hi).2.2

/-- A Timecode of one data byte and a SimpleBlock of four. -/
def smallPayload : ClusterPayload where
  timecode := ⟨1, 0x67, 1, [0], Nat.one_pos, one_le_four, timecode_lt, Nat.one_pos, one_le_eight,
    by decide⟩
  blocks := [⟨1, 0x23, 1, [0x81, 0, 0, 0], Nat.one_pos, one_le_four, simpleblock_lt, Nat.one_pos,
    one_le_eight, by decide⟩]
  isTimecode := ⟨rfl, by decide⟩
  areSimple := by simp [IsSimpleBlock, Element.id, simpleblockId]
  first_le := by simp [Element.length_bytes]
  rest_le := by simp [Element.length_bytes]

theorem length_smallPayload : smallPayload.bytes.length = 9 := by decide

theorem length_zeros_lt {k : Nat} (h : k < 2 ^ 14 - 1) :
    (List.replicate k (0 : UInt8)).length < 2 ^ (7 * 2) - 1 := by
  rw [List.length_replicate]
  exact h

/-- A SimpleBlock of `k` zero bytes, its size in two bytes. -/
def zeroBlock (k : Nat) (h : k < 2 ^ 14 - 1) : Element where
  idWidth := 1
  idValue := 0x23
  width := 2
  data := List.replicate k 0
  idWidth_pos := Nat.one_pos
  idWidth_le := one_le_four
  idValue_lt := simpleblock_lt
  width_pos := Nat.two_pos
  width_le := two_le_eight
  size_lt := length_zeros_lt h

theorem zeroBlock_isSimple (k : Nat) (h : k < 2 ^ 14 - 1) : IsSimpleBlock (zeroBlock k h) := by
  show 2 ^ (7 * 1) + 0x23 = simpleblockId
  decide

theorem length_zeroBlock (k : Nat) (h : k < 2 ^ 14 - 1) : (zeroBlock k h).bytes.length = 3 + k := by
  simp [Element.length_bytes, zeroBlock]

/-- A Timecode, and SimpleBlocks of 2600 and twice 600 bytes. -/
def mixedPayload : ClusterPayload where
  timecode := smallPayload.timecode
  blocks := [zeroBlock 2597 (by decide), zeroBlock 597 (by decide), zeroBlock 597 (by decide)]
  isTimecode := smallPayload.isTimecode
  areSimple := by simp [zeroBlock_isSimple]
  first_le := by
    intro e he
    obtain rfl : zeroBlock 2597 (by decide) = e := Option.some.inj he
    rw [length_zeroBlock]
    exact (Nat.add_le_add_right smallPayload.isTimecode.length_le 2600).trans (by decide)
  rest_le := by simp [length_zeroBlock]

theorem length_mixedPayload : mixedPayload.bytes.length = 3803 := by decide +kernel

/-- A file with that cluster alone, and the id of the next. -/
def mixedStart : Webm :=
  { Webm.start (mixedPayload.bytes ++ toBe 4 clusterId) with totalFileBytes := 3807 }

/-- The first SimpleBlock is cut in three pieces, each of the others is a block. -/
theorem readCluster_lossless_mixed :
    ∃ blocks w' block',
      readCluster (fun _ => Buf.zero) 3804 mixedStart initBlock = some (blocks, w', block') ∧
        blocks.map (·.2.bytes.toNat) = [1000, 1000, 603, 600, 600] ∧
        Tiling 0 (UInt32.ofNat clusterHeaderBytes) firstBlockSeq mixedPayload.bytes.length
          blocks ∧
        (clusterHeaderBytes + mixedPayload.bytes.length < 2 ^ 32 → ∀ i (hi : i < blocks.length),
          blocks[i].2.pos.toNat = clusterHeaderBytes + totalBytes (blocks.take i) ∧
            blocks[i].2.seq.toNat = i + 1) ∧
        w'.fp = 0 + mixedPayload.bytes.length ∧
        w'.file = mixedPayload.bytes ++ toBe 4 clusterId := by
  have hcount : (readCluster (fun _ => Buf.zero) 3804 mixedStart initBlock).map
      (·.1.map (·.2.bytes.toNat)) = some [1000, 1000, 603, 600, 600] := by decide +kernel
  have htotal : mixedStart.fp + mixedPayload.bytes.length + 4 ≤ mixedStart.totalFileBytes := by
    rw [length_mixedPayload]
    decide
  have hfuel : mixedPayload.bytes.length < 3804 := by
    rw [length_mixedPayload]
    decide
  have hinit : initBlock.prev.status = statusInit ∧ initBlock.info.bytes = 0 ∧
      initBlock.info.totalPieceBytes = 0 := ⟨rfl, rfl, rfl⟩
  have hfile : mixedStart.file = [] ++ (mixedPayload.bytes ++ toBe 4 clusterId) := rfl
  have hstale : ∀ k i : Nat, 1000 ≤ i → (fun _ => Buf.zero : Nat → Buf) k i = 0 := fun _ _ _ => rfl
  obtain ⟨blocks, w', block', hrun, htiling⟩ := readCluster_lossless mixedPayload []
    (toBe 4 clusterId) (Or.inl (List.prefix_refl _)) hfile rfl (le_refl _) htotal
    hstale hinit.1 hinit.2.1 hinit.2.2 hfuel
  rw [hrun] at hcount
  exact ⟨blocks, w', block', hrun, Option.some.inj hcount, htiling⟩

end P2PStream
