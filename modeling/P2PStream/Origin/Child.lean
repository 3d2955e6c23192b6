/-
# `P2PStream.Origin.Child` — the next block of a child

A child's cursor is the record of the block it was sent last.  From it alone
`SendCacheBlock` finds the file position of the next block, `CalOffset`'s walk
giving the cluster and the 32-bit sum `pos + bytes` the byte behind the block.
While that sum has not wrapped, what is read and sent is what follows in the
payload.
-/
import P2PStream.Node.Stream
import P2PStream.Origin.File

namespace P2PStream

open Lib

theorem Window.take_eq {b : Buf} {x : List UInt8} {r n : Nat} (h : Window b x r) (hr : n ≤ r)
    (hx : n ≤ x.length) : b.take n = x.take n := by
  refine List.ext_getElem (by simp [hx]) fun i hi hi' => ?_
  have hin : i < n := by simpa using hi
  simp only [Buf.take, List.getElem_map, List.getElem_range, List.getElem_take]
  exact h.inside i (by omega) (by omega)

/-- Where a cursor stands: behind byte `k` of the payload of cluster `c`. -/
structure StandsAt (f : StreamFile) (block : Block) (c k : Nat) : Prop where
  cluster : block.prev.clusterSeq.toNat = c
  le : k ≤ (f.payload c).length
  cursor : Cursor block.prev ((f.payload c).drop k)
  start : block.prev.status = statusInit → k = 0
  pos : block.prev.pos + block.prev.bytes.toUInt32 = UInt32.ofNat (clusterHeaderBytes + k)
  bytes : block.info.bytes = 0
  pieceBytes : block.info.totalPieceBytes = 0

theorem StandsAt.head {f : StreamFile} {block : Block} {c : Nat} (hc : c < f.clusters.length)
    (hseq : block.prev.clusterSeq.toNat = c) (hstatus : block.prev.status = statusInit)
    (hpos : block.prev.pos = UInt32.ofNat clusterHeaderBytes) (hbytes : block.prev.bytes = 0)
    (hinfo : block.info = BlockInfo.zero) : StandsAt f block c 0 where
  cluster := hseq
  le := Nat.zero_le _
  cursor := by
    rw [List.drop_zero, StreamFile.payload, List.getElem?_eq_getElem hc]
    exact .atStart _ hstatus
  start := fun _ => rfl
  pos := by rw [hpos, hbytes]; rfl
  bytes := by rw [hinfo]; rfl
  pieceBytes := by rw [hinfo]; rfl

/-- `CalOffset` walks to the cursor's cluster and adds what the 32-bit sum comes to. -/
theorem calOffset_cluster {f : StreamFile} {w : Webm} {block : Block} {c k : Nat} (hw : OnFile f w)
    (hat : StandsAt f block c k) (hc : c < f.clusters.length)
    (htotal : f.clusterStart c ≤ w.totalFileBytes)
    (hlt : f.clusterStart c + (clusterHeaderBytes + k) % 2 ^ 32 < 2 ^ 63) (stale : Buf) :
    ∃ x, calOffset stale block.prev w
      = ({ w with fp := x },
        ((f.clusterStart c + (clusterHeaderBytes + k) % 2 ^ 32 : Nat) : Int)) := by
  have hcount : (block.prev.clusterSeq.toUInt32 - w.firstClusterSeq).toNat = c := by
    rw [hw.first, UInt32.sub_zero, UInt16.toNat_toUInt32, hat.cluster]
  obtain ⟨x, hloop⟩ := calOffsetLoop_eq (f := f) c 0 stale w hw (by omega) (by rwa [Nat.zero_add])
  rw [StreamFile.clusterStart_zero, Nat.zero_add] at hloop
  have hsum : (block.prev.pos + block.prev.bytes.toUInt32).toNat
      = (clusterHeaderBytes + k) % 2 ^ 32 := by
    rw [hat.pos, UInt32.toNat_ofNat']
  refine ⟨x, ?_⟩
  simp only [calOffset, hcount, hw.header, hloop, hsum]
  rw [off64_eq (by omega) (by omega)]
  rfl

theorem calOffset_standsAt {f : StreamFile} {w : Webm} {block : Block} {c k : Nat} (hw : OnFile f w)
    (hat : StandsAt f block c k) (hc : c < f.clusters.length)
    (htotal : f.clusterStart c ≤ w.totalFileBytes) (hlt : clusterHeaderBytes + k < 2 ^ 32)
    (stale : Buf) : ∃ x, calOffset stale block.prev w
      = ({ w with fp := x }, ((f.clusterStart c + clusterHeaderBytes + k : Nat) : Int)) := by
  have hnext := f.clusterStart_succ hc
  have hbound := Nat.lt_of_le_of_lt (f.clusterStart_le (c + 1)) f.length_bytes
  have hle := hat.le
  have hmod := Nat.mod_eq_of_lt hlt
  obtain ⟨x, hoffset⟩ := calOffset_cluster hw hat hc htotal (by omega) stale
  rw [hmod, ← Nat.add_assoc] at hoffset
  exact ⟨x, hoffset⟩

/-- What `SendCacheBlock` sees from the file position `CalOffset` found. -/
theorem readCacheBlock_window {env : Env} {w : Webm} {block : Block} {start : Nat} {x : Int}
    {rest behind : List UInt8} (hpast : ∀ i, env.past i = 0)
    (hoffset : calOffset env.fileBuf block.prev w = ({ w with fp := x }, (start : Int)))
    (hfile : w.file.drop start = rest ++ behind) (hstop : IsStop behind)
    (htotal : (start : Int) + rest.length + 4 ≤ w.totalFileBytes) :
    ∃ data, Window data (rest ++ behind.take 4) 1000 ∧
      ∀ info ret, getNextBlockByBytes block maxBlockBytes data = some (⟨info, block.prev⟩, ret) →
        info.bytes.toNat ≤ 1000 → info.bytes.toNat ≤ rest.length →
        ∃ x y, readCacheBlock env block w = .ok ({ w with fp := x, currentFposR := y },
          ⟨info, block.prev⟩, ret, rest.take info.bytes.toNat) := by
  have hview : rest ++ behind.take 4 <+: w.file.drop start := by
    rw [hfile]
    exact (List.prefix_append_right_inj _).mpr (List.take_prefix 4 _)
  have hstale : ∀ i, 1000 ≤ i → cacheBuf env i = 0 := by
    intro i hi
    rw [cacheBuf, if_neg (by simpa [maxBlockBytes] using hi), hpast]
  have hreq : maxBlockBytes.toNat = 1000 := rfl
  generalize hclamp : clampBytes 1000 (w.totalFileBytes - (start : Int)) = n
  have hw1000 : Window ((cacheBuf env).overlay ((w.file.drop start).take n))
      (rest ++ behind.take 4) 1000 := by
    refine window_overlay hstale hview (hclamp ▸ clampBytes_le _ _) fun hshort => ?_
    rw [← hclamp] at hshort ⊢
    refine le_clampBytes hshort ?_
    rw [List.length_append, hstop.length_take]
    omega
  refine ⟨_, hw1000, fun info ret hblock h1000 hrest => ?_⟩
  have hsent : ((cacheBuf env).overlay ((w.file.drop start).take n)).take info.bytes.toNat
      = rest.take info.bytes.toNat := by
    rw [hw1000.take_eq h1000 (by
      rw [List.length_append]
      exact Nat.le_trans hrest (Nat.le_add_right _ _)), List.take_append_of_le_length hrest]
  refine ⟨start + ((w.file.drop start).take n).length, start, ?_⟩
  simp only [readCacheBlock, seekABSForNextBlock, hoffset, seekABSWebM, fsetpos,
    if_pos (Int.natCast_nonneg _), searchWebM, hreq, hclamp, fread, Webm.readBytes,
    Int.toNat_natCast, hblock, hsent]

theorem StandsAt.window {f : StreamFile} {env : Env} {w : Webm} {block : Block} {c k : Nat}
    (hat : StandsAt f block c k) (hpast : ∀ i, env.past i = 0) (hw : OnFile f w)
    (hc : c + 1 < f.clusters.length) (htotal : f.clusterStart (c + 1) + 4 ≤ w.totalFileBytes)
    (hlt : clusterHeaderBytes + k < 2 ^ 32) :
    ∃ data stop, IsStop stop ∧ Window data ((f.payload c).drop k ++ stop) 1000 ∧
      ∀ info ret, getNextBlockByBytes block maxBlockBytes data = some (⟨info, block.prev⟩, ret) →
        info.bytes.toNat ≤ 1000 → info.bytes.toNat ≤ ((f.payload c).drop k).length →
        ∃ x y, readCacheBlock env block w = .ok ({ w with fp := x, currentFposR := y },
          ⟨info, block.prev⟩, ret, ((f.payload c).drop k).take info.bytes.toNat) := by
  have hnext := f.clusterStart_succ (show c < f.clusters.length by omega)
  have hle := hat.le
  obtain ⟨x, hoffset⟩ := calOffset_standsAt hw hat (by omega) (by omega) hlt env.fileBuf
  obtain ⟨data, hwindow, hread⟩ := readCacheBlock_window hpast hoffset
    (by rw [hw.file]; exact f.drop_payload (by omega) hle) (f.isStop_next hc)
    (by rw [List.length_drop]; omega)
  exact ⟨data, _, (f.isStop_next hc).take, hwindow, hread⟩

theorem readCacheBlock_step {f : StreamFile} {env : Env} {w : Webm} {block : Block} {c k : Nat}
    (hpast : ∀ i, env.past i = 0) (hw : OnFile f w) (hat : StandsAt f block c k)
    (hc : c + 1 < f.clusters.length) (htotal : f.clusterStart (c + 1) + 4 ≤ w.totalFileBytes)
    (hlt : clusterHeaderBytes + k < 2 ^ 32) :
    ∃ x y info ret, readCacheBlock env block w
        = .ok ({ w with fp := x, currentFposR := y }, ⟨info, block.prev⟩, ret,
          ((f.payload c).drop k).take info.bytes.toNat) ∧
      info.pos = UInt32.ofNat (clusterHeaderBytes + k) ∧
      info.clusterSeq = block.prev.clusterSeq ∧ Cut ((f.payload c).drop k) info ret := by
  obtain ⟨data, stop, hstop, hwindow, hread⟩ := hat.window hpast hw hc htotal hlt
  obtain ⟨info, ret, hblock, hpos, -, hcluster, hcut⟩ :=
    getNextBlockByBytes_step block hstop hat.cursor hwindow hat.bytes hat.pieceBytes
  obtain ⟨x, y, hstep⟩ := hread info ret hblock hcut.bytes_le hcut.bytes_le_rest
  refine ⟨x, y, info, ret, hstep, ?_, hcluster, hcut⟩
  rw [hpos]
  split
  · next hinit => rw [hat.start hinit, Nat.add_zero]
  · exact hat.pos

/-- Behind the block: in the same payload, or at the head of the next cluster. -/
theorem StandsAt.next {f : StreamFile} {block : Block} {c k : Nat} {info : BlockInfo} {ret : Int}
    (hat : StandsAt f block c k) (hc : c + 1 < f.clusters.length)
    (hseq : ret = clusterEnd → c + 1 < 2 ^ 16)
    (hpos : info.pos = UInt32.ofNat (clusterHeaderBytes + k))
    (hcluster : info.clusterSeq = block.prev.clusterSeq)
    (hcut : Cut ((f.payload c).drop k) info ret) :
    if ret = clusterEnd then
      StandsAt f (renewBlock ⟨info, block.prev⟩) (c + 1) 0 ∧
        k + info.bytes.toNat = (f.payload c).length
    else StandsAt f (shiftToPreBlock ⟨info, block.prev⟩) c (k + info.bytes.toNat) := by
  have hbytes := hcut.bytes_le_rest
  have hle := hat.le
  rw [List.length_drop] at hbytes
  split
  · next hend =>
    have hall := hcut.last hend
    rw [List.length_drop] at hall
    refine ⟨StandsAt.head hc ?_ rfl rfl rfl rfl, by omega⟩
    have hlt := hseq hend
    have hone : (1 : UInt16).toNat = 1 := rfl
    show (info.clusterSeq + 1).toNat = c + 1
    rw [hcluster, UInt16.toNat_add, hat.cluster, hone]
    omega
  · next hend =>
    obtain ⟨-, hcursor⟩ := hcut.next hend
    refine ⟨?_, by omega, ?_, ?_, ?_, rfl, rfl⟩
    · rw [← hat.cluster, ← hcluster]
      rfl
    · rw [← List.drop_drop]
      exact hcursor
    · intro hinit
      exfalso
      have hstatus : info.status = statusInit := hinit
      rcases hcut.status_mem with h | h | h <;> rw [h] at hstatus <;>
        exact absurd hstatus (by decide)
    · show info.pos + info.bytes.toUInt32 = _
      rw [hpos, ← UInt32.ofNat_uInt16ToNat, ← UInt32.ofNat_add, Nat.add_assoc]

/-! ## One round of `SendMulStream` -/

/-- What `SendMulStream` changes: the file position, the cursors, and what was sent. -/
def Streamed (n n' : Node) : Prop :=
  ∃ x y blocks sent, n' = { n with
    webm := { n.webm with fp := x, currentFposR := y, currentChildBlock := blocks }
    sent := sent }

theorem Streamed.refl (n : Node) : Streamed n n :=
  ⟨n.webm.fp, n.webm.currentFposR, n.webm.currentChildBlock, n.sent, rfl⟩

theorem Streamed.trans {n₁ n₂ n₃ : Node} (h : Streamed n₁ n₂) (h' : Streamed n₂ n₃) :
    Streamed n₁ n₃ := by
  obtain ⟨x, y, blocks, sent, rfl⟩ := h
  obtain ⟨x', y', blocks', sent', rfl⟩ := h'
  exact ⟨x', y', blocks', sent', rfl⟩

/-- The payloads of the block packets sent between two states. -/
def blockPayloads (n n' : Node) : List UInt8 :=
  (n'.sent.drop n.sent.length).flatMap fun p => p.data.drop (blockinfoBytes + 1)

theorem length_copyBlockInfoToBytes (info : BlockInfo) :
    (copyBlockInfoToBytes info).length = blockinfoBytes := by
  simp [copyBlockInfoToBytes, blockinfoBytes]

/-- The cursor behind the block that was just sent. -/
def nextCursor (block : Block) (status : Int) : Block :=
  if status = clusterEnd then renewBlock block else shiftToPreBlock block

/-- A child that is served is sent what `SendCacheBlock` read, and its cursor moves on. -/
theorem sendMulStreamChild_of_read {env : Env} {i : Fin maxChildNum} {n : Node} {x y : Int}
    {info : BlockInfo} {ret : Int} {payload : List UInt8}
    (hi : n.isConnected (childSlot i) = true)
    (hcluster : n.webm.clusterAllocated = true) (hblocks : n.webm.childBlocksAllocated = true)
    (hold : isOldBlockSeq (n.webm.currentChildBlock i).prev n.webm = true)
    (hread : readCacheBlock env (n.webm.currentChildBlock i) n.webm
      = .ok ({ n.webm with fp := x, currentFposR := y },
        ⟨info, (n.webm.currentChildBlock i).prev⟩, ret, payload))
    (hlen : payload.length = info.bytes.toNat) (hle : info.bytes.toNat ≤ 1000) :
    ∃ n', sendMulStreamChild env i n = .ok (n', 0) ∧ Streamed n n' ∧
      n'.webm.currentChildBlock = Function.update n.webm.currentChildBlock i
        (nextCursor ⟨info, (n.webm.currentChildBlock i).prev⟩ ret) ∧
      blockPayloads n n' = payload := by
  have hsize : (info.bytes + UInt16.ofNat (blockinfoBytes + 1)).toNat
      = (blockProto :: copyBlockInfoToBytes info ++ payload).length := by
    have h19 : (UInt16.ofNat (blockinfoBytes + 1)).toNat = 19 := rfl
    have h18 : blockinfoBytes = 18 := rfl
    rw [UInt16.toNat_add, h19, List.cons_append, List.length_cons, List.length_append,
      length_copyBlockInfoToBytes, hlen, h18]
    omega
  have hdata : (blockProto :: copyBlockInfoToBytes info ++ payload).drop (blockinfoBytes + 1)
      = payload := by
    rw [List.cons_append, List.drop_succ_cons, ← length_copyBlockInfoToBytes info, List.drop_left]
  let data := blockProto :: copyBlockInfoToBytes info ++ payload
  let cursor := nextCursor ⟨info, (n.webm.currentChildBlock i).prev⟩ ret
  refine ⟨{ n with
    webm := { n.webm with
      fp := x
      currentFposR := y
      currentChildBlock := Function.update n.webm.currentChildBlock i cursor }
    sent := n.sent ++ [packetGenerate data (childSlot i) n] }, ?_, ⟨_, _, _, _, rfl⟩, rfl, ?_⟩
  · simp only [sendMulStreamChild, if_pos hi, hcluster, hblocks, Bool.and_self, Bool.not_true,
      Bool.false_eq_true, if_false, if_pos hold, sendCacheBlock, hread, bind, Except.bind, hsize,
      List.take_length, pure, Except.pure, sendPacket, Webm.setChildBlock, Function.update_self,
      Function.update_idem]
    rfl
  simp only [blockPayloads, List.drop_left, List.flatMap_singleton, packetGenerate]
  exact hdata

theorem sendMulStreamChild_idle {env : Env} {i : Fin maxChildNum} {n : Node}
    (h : n.isConnected (childSlot i) = false) : sendMulStreamChild env i n = .ok (n, 0) := by
  rw [sendMulStreamChild, if_neg (by rw [h]; decide)]
  rfl

theorem sendMulStreamChild_wait {env : Env} {i : Fin maxChildNum} {n : Node}
    (hi : n.isConnected (childSlot i) = true)
    (hcluster : n.webm.clusterAllocated = true) (hblocks : n.webm.childBlocksAllocated = true)
    (hold : isOldBlockSeq (n.webm.currentChildBlock i).prev n.webm = false) :
    sendMulStreamChild env i n = .ok (n, 1) := by
  simp only [sendMulStreamChild, if_pos hi, hcluster, hblocks, hold, Bool.and_self, Bool.not_true,
    Bool.false_eq_true, if_false]
  rfl

end P2PStream
