/-
# `P2PStream.Origin.Sent` — the blocks a child is sent

A packet of `SendCacheBlock` is the record of a block and the bytes of the file that the
record names.  A child is sent one block behind the other: each starts where the one
before it ended, and its sequence number is the next one of its cluster.  The first block
of a cluster holds the whole Timecode.

This is a run of `CutStep`, with the records as its labels.  What follows from it needs no
file position and no cursor: the pairs of cluster number and sequence number increase, and
the bytes put together are the payloads.
-/
import P2PStream.Origin.InOrder
import P2PStream.Webm.Alike
import P2PStream.Webm.Receiver

namespace P2PStream

open Lib

/-! ## The stream as blocks -/

/-- How far a cluster is cut: `bytes` of its payload, into `blocks` blocks. -/
structure Place where
  cluster : Nat
  bytes : Nat
  blocks : Nat

namespace StreamFile

variable (f : StreamFile)

/-- The bytes of the Timecode at the head of cluster `c`. -/
def timecodeLength (c : Nat) : Nat :=
  (f.clusters[c]?.map fun p => p.timecode.bytes.length).getD 0

/-- The bytes of the file that a record names. -/
def cutBytes (info : BlockInfo) : List UInt8 :=
  ((f.payload info.clusterSeq.toNat).drop (info.pos.toNat - clusterHeaderBytes)).take
    info.bytes.toNat

/-- The data of the packet that carries the block. -/
def blockData (info : BlockInfo) : List UInt8 :=
  blockProto :: copyBlockInfoToBytes info ++ f.cutBytes info

end StreamFile

/-- The record of the block that follows at `p`. -/
structure NextBlock (f : StreamFile) (p : Place) (info : BlockInfo) : Prop where
  lt : p.cluster < f.clusters.length
  cluster : info.clusterSeq.toNat = p.cluster
  pos : info.pos.toNat = clusterHeaderBytes + p.bytes
  seq : info.seq.toNat = p.blocks + 1
  bytes_le : info.bytes.toNat ≤ 1000
  inside : p.bytes + info.bytes.toNat ≤ (f.payload p.cluster).length
  opens : p.blocks = 0 → p.bytes = 0 ∧ f.timecodeLength p.cluster ≤ info.bytes.toNat
  behind : p.blocks ≠ 0 → f.timecodeLength p.cluster ≤ p.bytes

/-- One block more: the cluster goes on, or ends. -/
inductive CutStep (f : StreamFile) (p : Place) (info : BlockInfo) : Place → Prop
  | block : NextBlock f p info → 0 < info.bytes.toNat →
      CutStep f p info ⟨p.cluster, p.bytes + info.bytes.toNat, p.blocks + 1⟩
  | ends : NextBlock f p info → p.bytes + info.bytes.toNat = (f.payload p.cluster).length →
      CutStep f p info ⟨p.cluster + 1, 0, 0⟩

/-- The pair that the receiver's filter looks at. -/
def BlockInfo.pair (info : BlockInfo) : UInt16 × UInt32 := (info.clusterSeq, info.seq)

/-- The block lies behind the place. -/
def Place.Before (p : Place) (info : BlockInfo) : Prop :=
  p.cluster < info.clusterSeq.toNat ∨
    (p.cluster = info.clusterSeq.toNat ∧ p.blocks < info.seq.toNat)

section Blocks

variable {f : StreamFile} {p r : Place} {info : BlockInfo} {infos : List BlockInfo}

theorem CutStep.next (h : CutStep f p info r) : NextBlock f p info := by
  cases h with
  | block hnext => exact hnext
  | ends hnext => exact hnext

theorem NextBlock.cutBytes_eq (h : NextBlock f p info) :
    f.cutBytes info = ((f.payload p.cluster).drop p.bytes).take info.bytes.toNat := by
  rw [StreamFile.cutBytes, h.cluster, h.pos, Nat.add_sub_cancel_left]

theorem NextBlock.length_cutBytes (h : NextBlock f p info) :
    (f.cutBytes info).length = info.bytes.toNat := by
  have hinside := h.inside
  rw [h.cutBytes_eq, List.length_take, List.length_drop]
  omega

theorem NextBlock.before (h : NextBlock f p info) : p.Before info :=
  .inr ⟨h.cluster.symm, by rw [h.seq]; exact Nat.lt_succ_self _⟩

theorem CutStep.before_of (h : CutStep f p info r) {info' : BlockInfo} (hr : r.Before info') :
    p.Before info' ∧ Before info.pair info'.pair := by
  have hcluster := h.next.cluster
  have hseq := h.next.seq
  cases h with
  | block hnext hpos =>
      simp only [Place.Before, Before, BlockInfo.pair, UInt16.lt_iff_toNat_lt,
        UInt32.lt_iff_toNat_lt, ← UInt16.toNat_inj] at hr ⊢
      omega
  | ends hnext hend =>
      simp only [Place.Before, Before, BlockInfo.pair, UInt16.lt_iff_toNat_lt,
        UInt32.lt_iff_toNat_lt, ← UInt16.toNat_inj] at hr ⊢
      omega

/-- All blocks lie behind the place where the run starts, and each before the next. -/
theorem run_increasing (hrun : Run (CutStep f) p infos r) :
    (∀ info ∈ infos, p.Before info) ∧ (infos.map BlockInfo.pair).Pairwise Before := by
  induction hrun with
  | nil p => exact ⟨fun _ h => absurd h List.not_mem_nil, .nil⟩
  | cons hfirst _ ih =>
      refine ⟨fun info hinfo => ?_, List.pairwise_cons.mpr ⟨fun b hb => ?_, ih.2⟩⟩
      · rcases List.mem_cons.mp hinfo with rfl | hinfo
        · exact hfirst.next.before
        · exact (hfirst.before_of (ih.1 info hinfo)).1
      · obtain ⟨info, hinfo, rfl⟩ := List.mem_map.mp hb
        exact (hfirst.before_of (ih.1 info hinfo)).2

theorem run_next (hrun : Run (CutStep f) p infos r) :
    ∀ info ∈ infos, ∃ q, p.cluster ≤ q.cluster ∧ NextBlock f q info := by
  induction hrun with
  | nil p => exact fun _ h => absurd h List.not_mem_nil
  | @cons p q r info infos hfirst _ ih =>
      have hle : p.cluster ≤ q.cluster := by
        cases hfirst with
        | block => exact le_refl _
        | ends => exact Nat.le_succ _
      intro info' hinfo
      rcases List.mem_cons.mp hinfo with rfl | hinfo
      · exact ⟨p, le_refl _, hfirst.next⟩
      · obtain ⟨q', hq', hnext⟩ := ih info' hinfo
        exact ⟨q', hle.trans hq', hnext⟩

theorem run_cluster_le (hrun : Run (CutStep f) p infos r) : p.cluster ≤ r.cluster := by
  induction hrun with
  | nil p => exact le_refl _
  | cons hfirst _ ih =>
      refine le_trans ?_ ih
      cases hfirst with
      | block => exact le_refl _
      | ends => exact Nat.le_succ _

end Blocks

/-! ## The cursor of a child -/

/-- Where a cursor stands, and how many blocks of its cluster have been sent. -/
structure CursorAt (f : StreamFile) (block : Block) (p : Place) : Prop where
  standsAt : StandsAt f block p.cluster p.bytes
  atStart : block.prev.status = statusInit → p.blocks = 0
  inside : block.prev.status ≠ statusInit → p.blocks ≠ 0 ∧ block.prev.seq.toNat = p.blocks
  blocks_le : p.blocks ≤ p.bytes
  timecode : p.blocks ≠ 0 → f.timecodeLength p.cluster ≤ p.bytes

section Cursor

variable {f : StreamFile} {block : Block} {p : Place} {info : BlockInfo} {ret : Int}

theorem cursorAt_joinCursor {w : Webm}
    (hlt : w.prevCluster.seq.toUInt16.toNat < f.clusters.length) :
    CursorAt f (joinCursor w) ⟨w.prevCluster.seq.toUInt16.toNat, 0, 0⟩ where
  standsAt := .head hlt rfl rfl rfl rfl rfl
  atStart := fun _ => rfl
  inside := fun h => absurd rfl h
  blocks_le := le_refl 0
  timecode := fun h => absurd rfl h

theorem CursorAt.nextBlock (h : CursorAt f block p) (hc : p.cluster < f.clusters.length)
    (hlt : clusterHeaderBytes + (f.payload p.cluster).length < 2 ^ 32) {data : Buf}
    {stop : List UInt8} (hstop : IsStop stop)
    (hwindow : Window data ((f.payload p.cluster).drop p.bytes ++ stop) 1000)
    (hnext : getNextBlockByBytes block maxBlockBytes data = some (⟨info, block.prev⟩, ret))
    (hpos : info.pos = UInt32.ofNat (clusterHeaderBytes + p.bytes))
    (hseq : info.seq = if block.prev.status = statusInit then firstBlockSeq else block.prev.seq + 1)
    (hcluster : info.clusterSeq = block.prev.clusterSeq)
    (hcut : Cut ((f.payload p.cluster).drop p.bytes) info ret) : NextBlock f p info where
  lt := hc
  cluster := by rw [hcluster, h.standsAt.cluster]
  pos := by
    have hle := h.standsAt.le
    rw [hpos, UInt32.toNat_ofNat_of_lt' (show _ < 2 ^ 32 by omega)]
  seq := by
    have hle := h.standsAt.le
    have hblocks := h.blocks_le
    have h12 : clusterHeaderBytes = 12 := rfl
    rw [hseq]
    split
    · next hinit =>
      rw [h.atStart hinit]
      rfl
    · next hinit =>
      have hone : (1 : UInt32).toNat = 1 := rfl
      rw [UInt32.toNat_add, (h.inside hinit).2, hone]
      omega
  bytes_le := hcut.bytes_le
  inside := by
    have hle := h.standsAt.le
    have hbytes := hcut.bytes_le_rest
    rw [List.length_drop] at hbytes
    omega
  opens := by
    intro hzero
    have hinit : block.prev.status = statusInit := by
      by_contra hne
      exact (h.inside hne).1 hzero
    have hbytes := h.standsAt.start hinit
    refine ⟨hbytes, ?_⟩
    rw [hbytes, List.drop_zero, StreamFile.payload, List.getElem?_eq_getElem hc] at hwindow
    rw [StreamFile.timecodeLength, List.getElem?_eq_getElem hc]
    exact getNextBlockByBytes_timecode_le f.clusters[p.cluster] hstop hwindow hinit
      h.standsAt.bytes hnext
  behind := h.timecode

/-- The segmenter cuts the next block from a window, and the cursor goes behind it. -/
theorem CursorAt.cut (h : CursorAt f block p) (hc : p.cluster < f.clusters.length)
    (hseq : p.cluster + 1 < 2 ^ 16) (hnext : p.cluster + 1 < f.clusters.length)
    (hlt : clusterHeaderBytes + (f.payload p.cluster).length < 2 ^ 32) {data : Buf}
    {stop : List UInt8} (hstop : IsStop stop)
    (hwindow : Window data ((f.payload p.cluster).drop p.bytes ++ stop) 1000) :
    ∃ info ret r, getNextBlockByBytes block maxBlockBytes data = some (⟨info, block.prev⟩, ret) ∧
      info.bytes.toNat ≤ 1000 ∧ info.bytes.toNat ≤ ((f.payload p.cluster).drop p.bytes).length ∧
      f.cutBytes info = ((f.payload p.cluster).drop p.bytes).take info.bytes.toNat ∧
      CutStep f p info r ∧ CursorAt f (nextCursor ⟨info, block.prev⟩ ret) r := by
  have hle := h.standsAt.le
  obtain ⟨info, ret, hblock, hpos, hnumber, hcluster, hcut⟩ :=
    getNextBlockByBytes_step block hstop h.standsAt.cursor hwindow h.standsAt.bytes
      h.standsAt.pieceBytes
  have hpos : info.pos = UInt32.ofNat (clusterHeaderBytes + p.bytes) := by
    rw [hpos]
    split
    · next hinit => rw [h.standsAt.start hinit, Nat.add_zero]
    · exact h.standsAt.pos
  have hrecord := h.nextBlock hc hlt hstop hwindow hblock hpos hnumber hcluster hcut
  have hstands := h.standsAt.next hnext (fun _ => hseq) hpos hcluster hcut
  by_cases hend : ret = clusterEnd
  · rw [if_pos hend] at hstands
    refine ⟨info, ret, _, hblock, hcut.bytes_le, hcut.bytes_le_rest, hrecord.cutBytes_eq,
      .ends hrecord hstands.2, ?_⟩
    rw [nextCursor, if_pos hend]
    exact ⟨hstands.1, fun _ => rfl, fun hne => absurd rfl hne, le_refl 0, fun hne => absurd rfl hne⟩
  · rw [if_neg hend] at hstands
    obtain ⟨hbytes, -⟩ := hcut.next hend
    have hblocks := h.blocks_le
    refine ⟨info, ret, _, hblock, hcut.bytes_le, hcut.bytes_le_rest, hrecord.cutBytes_eq,
      .block hrecord hbytes, ?_⟩
    rw [nextCursor, if_neg hend]
    refine ⟨hstands, fun hinit => ?_, fun _ => ⟨Nat.succ_ne_zero _, hrecord.seq⟩, ?_, fun _ => ?_⟩
    · exfalso
      have hstatus : info.status = statusInit := hinit
      rcases hcut.status_mem with heq | heq | heq <;> rw [heq] at hstatus <;>
        exact absurd hstatus (by decide)
    · show p.blocks + 1 ≤ p.bytes + info.bytes.toNat
      omega
    · show f.timecodeLength p.cluster ≤ p.bytes + info.bytes.toNat
      by_cases hzero : p.blocks = 0
      · have := (hrecord.opens hzero).2
        omega
      · have := h.timecode hzero
        omega

/-- `SendCacheBlock` reads the next block of the file for the cursor at `p`, which goes behind
it. -/
def ReadsNext (f : StreamFile) (env : Env) (p : Place) (block : Block) (w : Webm) : Prop :=
  ∃ w' info ret r, readCacheBlock env block w = .ok (w', ⟨info, block.prev⟩, ret, f.cutBytes info) ∧
    CutStep f p info r ∧ CursorAt f (nextCursor ⟨info, block.prev⟩ ret) r

theorem CursorAt.read {env : Env} {w : Webm} (h : CursorAt f block p) (hpast : ∀ i, env.past i = 0)
    (hw : OnFile f w) (hc : p.cluster + 1 < f.clusters.length) (hseq : p.cluster + 1 < 2 ^ 16)
    (htotal : f.clusterStart (p.cluster + 1) + 4 ≤ w.totalFileBytes)
    (hlt : clusterHeaderBytes + (f.payload p.cluster).length < 2 ^ 32) :
    ReadsNext f env p block w := by
  have hle := h.standsAt.le
  obtain ⟨data, stop, hstop, hwindow, hread⟩ := h.standsAt.window hpast hw hc htotal (by omega)
  obtain ⟨info, ret, r, hnext, hbytes, hrest, hcutBytes, hcut, hcursor⟩ :=
    h.cut (by omega) hseq hc hlt hstop hwindow
  obtain ⟨x, y, hread⟩ := hread info ret hnext hbytes hrest
  rw [← hcutBytes] at hread
  exact ⟨_, info, ret, r, hread, hcut, hcursor⟩

end Cursor

/-! ## `SendMulStream` -/

/-- The packets sent to an address. -/
def Node.log (a : UInt32 × UInt16) (n : Node) : List Packet :=
  n.sent.filter fun p => (p.daddr, p.dest) = a

/-- Where a slot leads to. -/
def Node.route (n : Node) (s : Slot) : UInt32 × UInt16 := (n.dstIp s, n.dstPort s)

theorem log_append {a : UInt32 × UInt16} {n n' : Node} {ps : List Packet}
    (h : n'.sent = n.sent ++ ps) :
    n'.log a = n.log a ++ ps.filter fun p => (p.daddr, p.dest) = a := by
  rw [Node.log, h, List.filter_append]
  rfl

theorem log_packetGenerate {a : UInt32 × UInt16} {n n' m : Node} {s : Slot} {data : List UInt8}
    (h : n'.sent = n.sent ++ [packetGenerate data s m]) :
    n'.log a = n.log a ++ if m.route s = a then [packetGenerate data s m] else [] := by
  rw [log_append h]
  by_cases ha : m.route s = a
  · rw [if_pos ha, List.filter_cons_of_pos (by rw [decide_eq_true_eq]; exact ha), List.filter_nil]
  · rw [if_neg ha, List.filter_cons_of_neg (by rw [decide_eq_true_eq]; exact ha), List.filter_nil]

/-- A round does nothing for the child in slot `i`, or sends it what `SendCacheBlock` reads. -/
theorem sendMulStreamChild_cases {env : Env} {i : Fin maxChildNum} {n n' : Node} {count : Nat}
    (h : sendMulStreamChild env i n = .ok (n', count)) :
    (n' = n ∧ (n.isConnected (childSlot i) = true →
        isOldBlockSeq (n.webm.currentChildBlock i).prev n.webm = false)) ∨
      (n.isConnected (childSlot i) = true ∧
        isOldBlockSeq (n.webm.currentChildBlock i).prev n.webm = true ∧
        ∃ w block status payload,
          readCacheBlock env (n.webm.currentChildBlock i) n.webm =
            .ok (w, block, status, payload) ∧
          n'.sent = n.sent ++ [packetGenerate ((blockProto :: copyBlockInfoToBytes block.info ++
            payload).take (block.info.bytes + UInt16.ofNat (blockinfoBytes + 1)).toNat)
              (childSlot i) n] ∧
          n'.webm.currentChildBlock =
            Function.update n.webm.currentChildBlock i (nextCursor block status)) := by
  unfold sendMulStreamChild at h
  split at h
  · next hi =>
    split at h
    · cases h
    · split at h
      · next hold =>
        obtain ⟨⟨n₁, status⟩, hsend, h⟩ := bind_eq_ok.mp h
        obtain ⟨⟨w, block, st, payload⟩, hread, hsend⟩ := bind_eq_ok.mp hsend
        obtain ⟨x, y, rfl⟩ := readCacheBlock_fp hread
        cases h
        cases hsend
        refine .inr ⟨hi, hold, _, block, status, payload, hread, rfl, ?_⟩
        simp only [sendPacket, Webm.setChildBlock, Function.update_self, Function.update_idem]
        rfl
      · next hold =>
        cases h
        exact .inl ⟨rfl, fun _ => Bool.eq_false_iff.mpr hold⟩
  · next hi =>
    cases h
    exact .inl ⟨rfl, fun h => absurd h hi⟩

/-- A packet with the next block, for slot `i`. -/
def Node.blockPacket (n : Node) (f : StreamFile) (i : Fin maxChildNum) (info : BlockInfo) :
    Packet :=
  packetGenerate (f.blockData info) (childSlot i) n

section Rounds

variable {f : StreamFile} {env : Env} {i : Fin maxChildNum} {n n' : Node} {p : Place}

theorem NextBlock.take_blockData {info : BlockInfo} (h : NextBlock f p info) :
    (f.blockData info).take (info.bytes + UInt16.ofNat (blockinfoBytes + 1)).toNat =
      f.blockData info := by
  have h19 : (UInt16.ofNat (blockinfoBytes + 1)).toNat = 19 := rfl
  have h18 : blockinfoBytes = 18 := rfl
  have hle := h.bytes_le
  refine List.take_of_length_le ?_
  rw [StreamFile.blockData, UInt16.toNat_add, h19, List.cons_append, List.length_cons,
    List.length_append, length_copyBlockInfoToBytes, h.length_cutBytes, h18]
  omega

/-- A round for a child with a cursor at `p`: it waits, or gets the next block. -/
theorem CursorAt.round {count : Nat} (hi : n.isConnected (childSlot i) = true)
    (hread : isOldBlockSeq (n.webm.currentChildBlock i).prev n.webm = true →
      ReadsNext f env p (n.webm.currentChildBlock i) n.webm)
    (h : sendMulStreamChild env i n = .ok (n', count)) :
    (n' = n ∧ isOldBlockSeq (n.webm.currentChildBlock i).prev n.webm = false) ∨
      ∃ info r, isOldBlockSeq (n.webm.currentChildBlock i).prev n.webm = true ∧
        CutStep f p info r ∧ CursorAt f (n'.webm.currentChildBlock i) r ∧
        n'.sent = n.sent ++ [n.blockPacket f i info] := by
  rcases sendMulStreamChild_cases h with ⟨rfl, hwait⟩ | ⟨-, hold, w, block, status, payload, hblock,
    hsent, hcursor⟩
  · exact .inl ⟨rfl, hwait hi⟩
  · obtain ⟨w', info, ret, r, hread', hcut, hnext⟩ := hread hold
    rw [hread'] at hblock
    cases hblock
    refine .inr ⟨info, r, hold, hcut, ?_, ?_⟩
    · rw [hcursor, Function.update_self]
      exact hnext
    · rw [hsent]
      exact congrArg (fun l => n.sent ++ [packetGenerate l (childSlot i) n])
        hcut.next.take_blockData

theorem sendMulStreamChild_otherCursor {j : Fin maxChildNum} {count : Nat}
    (h : sendMulStreamChild env j n = .ok (n', count)) (hj : i ≠ j) :
    n'.webm.currentChildBlock i = n.webm.currentChildBlock i := by
  rcases sendMulStreamChild_cases h with ⟨rfl, -⟩ | ⟨-, -, w, block, status, payload, -, -, hcursor⟩
  · rfl
  · rw [hcursor, Function.update_of_ne hj]

theorem sendMulStreamChild_away {a : UInt32 × UInt16} {j : Fin maxChildNum} {count : Nat}
    (h : sendMulStreamChild env j n = .ok (n', count))
    (haway : n.isConnected (childSlot j) = true → n.route (childSlot j) ≠ a) :
    n'.log a = n.log a := by
  rcases sendMulStreamChild_cases h with ⟨rfl, -⟩ | ⟨hi, -, w, block, status, payload, -, hsent, -⟩
  · rfl
  · rw [log_packetGenerate hsent, if_neg (haway hi), List.append_nil]

theorem sendMulStream_cases {ret : Int} (h : sendMulStream env n = .ok (n', ret)) :
    ∃ n₁ count₁ n₂ count₂, sendMulStreamChild env 0 (mulStreamStart n) = .ok (n₁, count₁) ∧
      sendMulStreamChild env 1 n₁ = .ok (n₂, count₂) ∧ n'.sent = n₂.sent ∧
      n'.webm.currentChildBlock = n₂.webm.currentChildBlock := by
  obtain ⟨⟨n₁, count₁⟩, h₁, h⟩ := bind_eq_ok.mp h
  obtain ⟨⟨n₂, count₂⟩, h₂, h⟩ := bind_eq_ok.mp h
  cases h
  refine ⟨n₁, count₁, n₂, count₂, h₁, h₂, rfl, ?_⟩
  simp only [seekABSWebM, fsetpos]
  split <;> rfl

/-- The child in slot `i` is alone at the address. -/
structure AloneAt (a : UInt32 × UInt16) (i : Fin maxChildNum) (n : Node) : Prop where
  connected : n.isConnected (childSlot i) = true
  route : n.route (childSlot i) = a
  others : ∀ j, i ≠ j → n.isConnected (childSlot j) = true → n.route (childSlot j) ≠ a

theorem AloneAt.streamed {a : UInt32 × UInt16} (h : AloneAt a i n) (hn : Streamed n n') :
    AloneAt a i n' := by
  obtain ⟨_, _, _, _, rfl⟩ := hn
  exact ⟨h.connected, h.route, h.others⟩

/-- The round of a child, behind whatever `SendMulStream` did before it. -/
theorem sendMulStream_childRound {ret : Int} (i : Fin maxChildNum)
    (h : sendMulStream env n = .ok (n', ret)) :
    ∃ m m' count, sendMulStreamChild env i m = .ok (m', count) ∧ Streamed n m ∧
      m.webm.currentChildBlock i = n.webm.currentChildBlock i ∧
      n'.webm.currentChildBlock i = m'.webm.currentChildBlock i ∧
      ∀ a, AloneAt a i n → m.log a = n.log a ∧ n'.log a = m'.log a := by
  obtain ⟨n₁, count₁, n₂, count₂, h₁, h₂, hsent, hcursor⟩ := sendMulStream_cases h
  have hstart := mulStreamStart_streamed n
  have hstreamed := hstart.trans (sendMulStreamChild_distributes h₁).streamed
  have hlog : ∀ a, n'.log a = n₂.log a := fun a => by rw [Node.log, Node.log, hsent]
  match i with
  | 0 =>
      have hne : (0 : Fin maxChildNum) ≠ 1 := by decide
      refine ⟨mulStreamStart n, n₁, count₁, h₁, hstart, rfl, ?_, fun a halone => ⟨rfl, ?_⟩⟩
      · rw [hcursor]
        exact sendMulStreamChild_otherCursor h₂ hne
      · rw [hlog]
        exact sendMulStreamChild_away h₂ ((halone.streamed hstreamed).others 1 hne)
  | 1 =>
      have hne : (1 : Fin maxChildNum) ≠ 0 := by decide
      have hsame := sendMulStreamChild_otherCursor h₁ hne
      refine ⟨n₁, n₂, count₂, h₂, hstreamed, hsame, by rw [hcursor], fun a halone => ⟨?_, hlog a⟩⟩
      have haway := sendMulStreamChild_away h₁ ((halone.streamed hstart).others 0 hne)
      exact haway

/-- What `SendMulStream` does for a child with a cursor at `p`: it waits, or gets the next
block. -/
theorem sendMulStream_reads {ret : Int} (hi : n.isConnected (childSlot i) = true)
    (hread : ∀ m, Streamed n m → m.webm.currentChildBlock i = n.webm.currentChildBlock i →
      isOldBlockSeq (m.webm.currentChildBlock i).prev m.webm = true →
      ReadsNext f env p (m.webm.currentChildBlock i) m.webm)
    (h : sendMulStream env n = .ok (n', ret)) :
    (n'.webm.currentChildBlock i = n.webm.currentChildBlock i ∧
        isOldBlockSeq (n.webm.currentChildBlock i).prev n.webm = false ∧
        ∀ a, AloneAt a i n → n'.log a = n.log a) ∨
      ∃ info r, isOldBlockSeq (n.webm.currentChildBlock i).prev n.webm = true ∧
        CutStep f p info r ∧ CursorAt f (n'.webm.currentChildBlock i) r ∧
        ∀ a, AloneAt a i n → n'.log a = n.log a ++ [n.blockPacket f i info] := by
  obtain ⟨m, m', count, hchild, hstreamed, hcursor, hcursor', hlog⟩ := sendMulStream_childRound i h
  have hread := hread m hstreamed hcursor
  obtain ⟨hconnected, hip, hport, hdst, hdstPort, hprev, hlatest⟩ :
      m.connectedNodes = n.connectedNodes ∧ m.srcIp = n.srcIp ∧ m.srcPort = n.srcPort ∧
      m.dstIp = n.dstIp ∧ m.dstPort = n.dstPort ∧ m.webm.prevCluster = n.webm.prevCluster ∧
      m.webm.latestBlockSeq = n.webm.latestBlockSeq := by
    obtain ⟨_, _, _, _, rfl⟩ := hstreamed
    exact ⟨rfl, rfl, rfl, rfl, rfl, rfl, rfl⟩
  have him : m.isConnected (childSlot i) = true := by
    rw [Node.isConnected, hconnected]
    exact hi
  have hsame : isOldBlockSeq (m.webm.currentChildBlock i).prev m.webm =
      isOldBlockSeq (n.webm.currentChildBlock i).prev n.webm := by
    rw [hcursor]
    simp only [isOldBlockSeq, hprev, hlatest]
  rw [hcursor', ← hsame]
  rcases CursorAt.round him hread hchild with ⟨rfl, hwait⟩ | ⟨info, r, hold, hcut, hnext, hone⟩
  · exact .inl ⟨hcursor, hwait, fun a halone => (hlog a halone).2.trans (hlog a halone).1⟩
  · refine .inr ⟨info, r, hold, hcut, hnext, fun a halone => ?_⟩
    rw [(hlog a halone).2, log_packetGenerate hone, if_pos (halone.streamed hstreamed).route,
      (hlog a halone).1]
    simp only [Node.blockPacket, packetGenerate, hip, hport, hdst, hdstPort]

/-- The origin reads the next block of its file, unless `SendMulStream` lets the child wait. -/
theorem CursorAt.readsNext {m : Node} {phase : Phase} {done : Nat} (hsmall : f.Small)
    (hpast : ∀ j, env.past j = 0) (hloop : LoopOk f n.webm phase done) (hdone : 0 < done)
    (hmax : done < 2 ^ 16) (hat : CursorAt f (n.webm.currentChildBlock i) p)
    (hstreamed : Streamed n m)
    (hcursor : m.webm.currentChildBlock i = n.webm.currentChildBlock i)
    (hold : isOldBlockSeq (m.webm.currentChildBlock i).prev m.webm = true) :
    ReadsNext f env p (m.webm.currentChildBlock i) m.webm := by
  have hw : Completed f m.webm done := by
    obtain ⟨_, _, _, _, rfl⟩ := hstreamed
    exact hloop.completed.congr (hloop.completed.grown rfl rfl rfl rfl rfl)
  obtain ⟨-, -, hlt, htotal⟩ := hw.some hdone
  have hc := clusterSeq_lt_of_isOldBlockSeq hw hdone hold
  rw [hcursor, hat.standsAt.cluster] at hc
  have hmono := f.clusterStart_mono (show p.cluster + 1 ≤ done by omega)
  have h12 : clusterHeaderBytes = 12 := rfl
  rw [hcursor]
  exact hat.read hpast hw.onFile (by omega) (by omega) (by omega) (hsmall.payload_lt (by omega))

theorem sendMulStream_round_at {phase : Phase} {done : Nat} {ret : Int} (hsmall : f.Small)
    (hpast : ∀ j, env.past j = 0) (hloop : LoopOk f n.webm phase done) (hdone : 0 < done)
    (hmax : done < 2 ^ 16) (hi : n.isConnected (childSlot i) = true)
    (hat : CursorAt f (n.webm.currentChildBlock i) p) (h : sendMulStream env n = .ok (n', ret)) :
    (n'.webm.currentChildBlock i = n.webm.currentChildBlock i ∧
        isOldBlockSeq (n.webm.currentChildBlock i).prev n.webm = false ∧
        ∀ a, AloneAt a i n → n'.log a = n.log a) ∨
      ∃ info r, isOldBlockSeq (n.webm.currentChildBlock i).prev n.webm = true ∧
        CutStep f p info r ∧ CursorAt f (n'.webm.currentChildBlock i) r ∧
        ∀ a, AloneAt a i n → n'.log a = n.log a ++ [n.blockPacket f i info] :=
  sendMulStream_reads hi (fun _ => hat.readsNext hsmall hpast hloop hdone hmax) h

end Rounds

/-! ## The other steps -/

theorem seekForNextBlock_looped (block : Block) (w : Webm) :
    Looped w (seekForNextBlock block w) := by
  simp only [seekForNextBlock, seekRLTWebM, seekABSWebM, fsetpos]
  split <;> exact ⟨_, _, _, _, _, _, _, _, rfl⟩

/-- A step of the main loop changes no more than the reader's globals. -/
theorem mainStep_looped {stale : Buf} {w w' : Webm} {phase phase' : Phase}
    (h : mainStep stale w phase = some (phase', w')) : Looped w w' := by
  cases phase with
  | opening =>
      simp only [mainStep, updateClusterFromWebM, Option.bind_eq_bind, Option.bind_eq_some_iff] at h
      obtain ⟨w₁, hupdate, h⟩ := h
      cases h
      split at hupdate
      · cases hupdate
        exact ⟨_, _, _, _, _, _, _, _, rfl⟩
      · cases hupdate
  | reading =>
      simp only [mainStep, readBlock, Option.bind_eq_bind, Option.bind_eq_some_iff,
        Prod.exists] at h
      obtain ⟨w₁, block, status, ⟨block', status', -, hread⟩, h⟩ := h
      cases hread
      cases h
      exact ⟨_, _, _, _, _, _, _, _, rfl⟩
  | advancing =>
      cases h
      refine (seekForNextBlock_looped w.currentBlock w).trans ?_
      exact ⟨_, _, _, _, _, _, _, _, rfl⟩
  | ending =>
      cases h
      refine (seekForNextBlock_looped w.currentBlock w).trans ?_
      exact ⟨_, _, _, _, _, _, _, _, rfl⟩

end P2PStream
