/-
# `P2PStream.Origin.Delivery` — what the children are sent

The origin as a whole: the main loop, `SendMulStream`, the file growing under
them, and Setup packets, in any order.  `delivered` collects for each slot the
payloads of the blocks sent to the child in it since it was admitted.

A child is sent the payloads of the clusters from the one it was admitted at,
each byte once and in order, as long as no cluster reaches `2 ^ 32` bytes.
-/
import P2PStream.Node.Event
import P2PStream.Node.Links
import P2PStream.Origin.Child
import P2PStream.Origin.Loop

namespace P2PStream

open Lib

/-! ## The machine -/

/-- The origin while it streams. -/
structure Streaming where
  node : Node
  phase : Phase
  delivered : Fin maxChildNum → List UInt8

/-- `SendMulStream` behind its first line, which reads the file position. -/
def mulStreamStart (n : Node) : Node :=
  { n with webm := { n.webm with currentFposR := n.webm.fp } }

/-- The payload of the block `SendMulStream` sends to the child in slot `i`. -/
def mulStreamPayload (env : Env) (n : Node) (i : Fin maxChildNum) : List UInt8 :=
  match sendMulStreamChild env 0 (mulStreamStart n) with
  | .error _ => []
  | .ok (n₁, _) =>
      if i = 0 then blockPayloads n n₁
      else
        match sendMulStreamChild env 1 n₁ with
        | .error _ => []
        | .ok (n₂, _) => blockPayloads n₁ n₂

/-- The file position of the next block of the child in slot `i`, as `SendCacheBlock` finds it. -/
def childOffset (env : Env) (i : Fin maxChildNum) (n : Node) : Int :=
  (seekABSForNextBlock env.fileBuf (n.webm.currentChildBlock i) n.webm).2

/-- The position that `SendMulStream` reads at for the child in slot `i`. -/
def mulStreamOffset (env : Env) (n : Node) (i : Fin maxChildNum) : Int :=
  match sendMulStreamChild env 0 (mulStreamStart n) with
  | .error _ => 0
  | .ok (n₁, _) => if i = 0 then childOffset env 0 (mulStreamStart n) else childOffset env 1 n₁

inductive OriginLabel where
  | grow (total : Int)
  | main (stale : Buf)
  | sendMulStream (env : Env)
  | setup (env : Env) (data : Buf) (dataBytes : UInt16) (saddr : UInt32) (source : UInt16)
  | timeCache (env : Env)

/-- What the origin can do. -/
inductive OriginMove (f : StreamFile) (s : Streaming) : OriginLabel → Streaming → Prop
  | grow (total : Int) : s.node.webm.totalFileBytes ≤ total → total ≤ f.bytes.length →
      OriginMove f s (.grow total)
        { s with node := { s.node with webm := { s.node.webm with totalFileBytes := total } } }
  | main {phase : Phase} {w : Webm} (stale : Buf) :
      mainStep stale s.node.webm s.phase = some (phase, w) →
      OriginMove f s (.main stale) { s with node := { s.node with webm := w }, phase }
  | sendMulStream {n : Node} {ret : Int} (env : Env) : sendMulStream env s.node = .ok (n, ret) →
      OriginMove f s (.sendMulStream env) { s with
        node := n, delivered := fun i => s.delivered i ++ mulStreamPayload env s.node i }
  | setup {n : Node} (env : Env) (data : Buf) (k : UInt16) (saddr : UInt32) (source : UInt16) :
      s.node.step .origin env (.setup data k saddr source) = .ok n →
      OriginMove f s (.setup env data k saddr source) { s with
        node := n
        delivered := fun i => if s.node.isConnected (childSlot i) then s.delivered i else [] }
  | timeCache (env : Env) : OriginMove f s (.timeCache env) { s with node := timeCache env s.node }

/-- The first cluster is completed. -/
def Node.PastFirst (n : Node) : Prop := n.webm.prevCluster.option ≠ 0xffffffff

/-- Setups are handled once the first cluster is completed.  Behind the windows of `ReadBlock` and
`SendCacheBlock` lie zeros. -/
def Orderly (s : Streaming) : OriginLabel → Prop
  | .main stale => ∀ i, 1000 ≤ i → stale i = 0
  | .sendMulStream env => ∀ i, env.past i = 0
  | .setup .. => s.node.PastFirst
  | _ => True

/-- The orderly steps of the origin. -/
abbrev OriginStep (f : StreamFile) := Guarded (OriginMove f) Orderly

/-- The head of the streaming loop, the WebM header read. -/
def streamStart (f : StreamFile) (srcIp : UInt32) (start : Timeval)
    (blocks : Fin maxChildNum → Block) (current prev : Cluster) (total : Int) : Streaming :=
  let n := originStart srcIp f.bytes start blocks current prev
  let webm := { n.webm with
    fp := f.header.length
    currentFposR := f.header.length
    totalFileBytes := total
    webmHeaderTotalBytes := UInt16.ofNat f.header.length
    webmHeaderData := f.header }
  { node := { n with webm }, phase := .opening, delivered := fun _ => [] }

/-! ## The stream -/

/-- The payloads of the clusters from `c` up to `d`. -/
def StreamFile.payloads (f : StreamFile) (c d : Nat) : List UInt8 :=
  (List.range' c (d - c)).flatMap f.payload

theorem StreamFile.payloads_self (f : StreamFile) (c : Nat) : f.payloads c c = [] := by
  rw [payloads, Nat.sub_self]
  rfl

theorem StreamFile.payloads_append (f : StreamFile) {c d e : Nat} (hcd : c ≤ d) (hde : d ≤ e) :
    f.payloads c d ++ f.payloads d e = f.payloads c e := by
  have hd : d = c + 1 * (d - c) := by omega
  have he : e - c = (d - c) + (e - d) := by omega
  rw [payloads, payloads, payloads, ← List.flatMap_append, he, ← List.range'_append, ← hd]

theorem StreamFile.payloads_succ (f : StreamFile) {c d : Nat} (h : c ≤ d) :
    f.payloads c (d + 1) = f.payloads c d ++ f.payload d := by
  have hone : d + 1 - d = 1 := by omega
  rw [← f.payloads_append h (Nat.le_succ d), payloads, payloads, hone]
  simp

/-! ## What a child has been sent -/

/-- The cluster number recorded when the child in slot `i` was admitted. -/
def Node.joined (n : Node) (i : Fin maxChildNum) : Nat :=
  (n.nodesStatus (childSlot i)).clusterSeq.toNat

/-- The child with cursor `block` that joined at cluster `joined` was sent exactly what
lies before its cursor, which is at most at the head of cluster `done`. -/
def Served (f : StreamFile) (done : Nat) (block : Block) (joined : Nat) (delivered : List UInt8) :
    Prop :=
  ∃ c k, StandsAt f block c k ∧ joined ≤ c ∧ c ≤ done ∧
    delivered = f.payloads joined c ++ (f.payload c).take k

theorem Served.mono {f : StreamFile} {done done' : Nat} {block : Block} {joined : Nat}
    {delivered : List UInt8} (h : Served f done block joined delivered) (hle : done ≤ done') :
    Served f done' block joined delivered := by
  obtain ⟨c, k, hat, hjoined, hc, hdelivered⟩ := h
  exact ⟨c, k, hat, hjoined, Nat.le_trans hc hle, hdelivered⟩

theorem Served.next {f : StreamFile} {done c k : Nat} {block : Block} {joined : Nat}
    {info : BlockInfo} {ret : Int} (hat : StandsAt f block c k) (hjoined : joined ≤ c)
    (hc : c < done) (hdone : done < f.clusters.length)
    (hseq : ret = clusterEnd → c + 1 < 2 ^ 16)
    (hpos : info.pos = UInt32.ofNat (clusterHeaderBytes + k))
    (hcluster : info.clusterSeq = block.prev.clusterSeq)
    (hcut : Cut ((f.payload c).drop k) info ret) :
    Served f done (nextCursor ⟨info, block.prev⟩ ret) joined
      (f.payloads joined c ++ (f.payload c).take k ++
        ((f.payload c).drop k).take info.bytes.toNat) := by
  have hnext := hat.next (by omega) hseq hpos hcluster hcut
  rw [List.append_assoc, ← List.take_add]
  unfold nextCursor
  by_cases hend : ret = clusterEnd
  · rw [if_pos hend] at hnext ⊢
    refine ⟨c + 1, 0, hnext.1, by omega, hc, ?_⟩
    rw [hnext.2, List.take_length, f.payloads_succ hjoined, List.take_zero, List.append_nil]
  · rw [if_neg hend] at hnext ⊢
    exact ⟨c, _, hnext, hjoined, Nat.le_of_lt hc, rfl⟩

/-! ## The invariant -/

/-- Clusters, headers included, below `2 ^ 32` bytes. -/
def StreamFile.Small (f : StreamFile) : Prop :=
  ∀ p ∈ f.clusters, clusterHeaderBytes + p.bytes.length < 2 ^ 32

theorem StreamFile.Small.payload_lt {f : StreamFile} (h : f.Small) {c : Nat}
    (hc : c < f.clusters.length) : clusterHeaderBytes + (f.payload c).length < 2 ^ 32 := by
  rw [StreamFile.payload, List.getElem?_eq_getElem hc]
  exact h _ (List.getElem_mem hc)

/-- The loop stands somewhere, with the clusters before `done` completed. -/
structure LoopOk (f : StreamFile) (w : Webm) (phase : Phase) (done : Nat) : Prop where
  completed : Completed f w done
  fpos_le : w.currentFposR ≤ w.fp
  at_phase : LoopAt f w done phase
  clusterAllocated : w.clusterAllocated = true
  childBlocksAllocated : w.childBlocksAllocated = true

/-- Every child has been sent what lies before its cursor. -/
def AllServed (f : StreamFile) (n : Node) (done : Nat)
    (delivered : Fin maxChildNum → List UInt8) : Prop :=
  ∀ i, n.isConnected (childSlot i) = true →
    0 < done ∧ Served f done (n.webm.currentChildBlock i) (n.joined i) (delivered i)

/-- The child in slot `i` is sent the end of cluster `2 ^ 16 - 1`. -/
def WrapsCursor (env : Env) (i : Fin maxChildNum) (n : Node) : Prop :=
  (n.webm.currentChildBlock i).prev.clusterSeq = 0xffff ∧ EndsCluster env i n

/-- `SendMulStream` sends no child the end of cluster `2 ^ 16 - 1`. -/
def StaysInRange (env : Env) (n : Node) : Prop :=
  ¬ WrapsCursor env 0 (mulStreamStart n) ∧
    ∀ n₁ k, sendMulStreamChild env 0 (mulStreamStart n) = .ok (n₁, k) → ¬ WrapsCursor env 1 n₁

theorem clusterSeq_lt_of_isOldBlockSeq {f : StreamFile} {w : Webm} {done : Nat} {info : BlockInfo}
    (hw : Completed f w done) (hdone : 0 < done) (hold : isOldBlockSeq info w = true) :
    info.clusterSeq.toNat < done := by
  have hseq := hw.seq_lt hdone
  have hcluster : info.clusterSeq.toUInt32.toNat = info.clusterSeq.toNat := UInt16.toNat_toUInt32 _
  simp only [isOldBlockSeq] at hold
  split at hold
  · next hlt =>
    have := UInt32.lt_iff_toNat_lt.mp hlt
    omega
  · split at hold
    · next heq =>
      have := congrArg UInt32.toNat heq
      omega
    · cases hold

theorem StandsAt.unique {f : StreamFile} {block : Block} {c k c' k' : Nat} (hsmall : f.Small)
    (hat : StandsAt f block c k) (hc : c < f.clusters.length) (hat' : StandsAt f block c' k') :
    c = c' ∧ k = k' := by
  obtain rfl : c = c' := hat.cluster.symm.trans hat'.cluster
  have hlt := hsmall.payload_lt hc
  have hle := hat.le
  have hle' := hat'.le
  have hpos := congrArg UInt32.toNat (hat.pos.symm.trans hat'.pos)
  rw [UInt32.toNat_ofNat', UInt32.toNat_ofNat'] at hpos
  exact ⟨rfl, by omega⟩

theorem Distributes.streamed {n n' : Node} (h : Distributes n n') : Streamed n n' := by
  obtain ⟨x, y, blocks, ps, rfl, -⟩ := h
  exact ⟨x, y, blocks, _, rfl⟩

/-- The cursor of a child: somewhere in the file, or at a cluster that is not there. -/
def Placed (f : StreamFile) (block : Block) : Prop :=
  f.clusters.length ≤ block.prev.clusterSeq.toNat ∨ ∃ c k, StandsAt f block c k

/-- What a round of `SendMulStream` does to a child with cursor `block`, for which `SendCacheBlock`
finds `offset`: a payload is sent to it, and its cursor changes. -/
inductive ChildRound (f : StreamFile) (done : Nat) (offset : Int) (block : Block) :
    List UInt8 → Block → Prop
  | waits : ChildRound f done offset block [] block
  | serves {c k : Nat} {info : BlockInfo} {ret : Int} : StandsAt f block c k → c < done →
      (ret = clusterEnd → c + 1 < 2 ^ 16) → info.pos = UInt32.ofNat (clusterHeaderBytes + k) →
      info.clusterSeq = block.prev.clusterSeq → Cut ((f.payload c).drop k) info ret →
      offset = (f.clusterStart c + clusterHeaderBytes + k : Nat) →
      ChildRound f done offset block (((f.payload c).drop k).take info.bytes.toNat)
        (nextCursor ⟨info, block.prev⟩ ret)

theorem sendMulStreamChild_round {f : StreamFile} {env : Env} {n : Node} {done : Nat}
    (hsmall : f.Small) (hpast : ∀ i, env.past i = 0) (hw : Completed f n.webm done)
    (hcluster : n.webm.clusterAllocated = true) (hblocks : n.webm.childBlocksAllocated = true)
    (i : Fin maxChildNum)
    (hplaced : n.isConnected (childSlot i) = true →
      0 < done ∧ Placed f (n.webm.currentChildBlock i))
    (hrange : ¬ WrapsCursor env i n) :
    ∃ n' count, sendMulStreamChild env i n = .ok (n', count) ∧ Streamed n n' ∧
      (∀ j, j ≠ i → n'.webm.currentChildBlock j = n.webm.currentChildBlock j) ∧
      ChildRound f done (childOffset env i n) (n.webm.currentChildBlock i) (blockPayloads n n')
        (n'.webm.currentChildBlock i) := by
  have hnone : ChildRound f done (childOffset env i n) (n.webm.currentChildBlock i)
      (blockPayloads n n) (n.webm.currentChildBlock i) := by
    have hnil : blockPayloads n n = [] := by simp [blockPayloads]
    rw [hnil]
    exact .waits
  cases hi : n.isConnected (childSlot i) with
  | false => exact ⟨n, 0, sendMulStreamChild_idle hi, .refl n, fun _ _ => rfl, hnone⟩
  | true =>
      cases hold : isOldBlockSeq (n.webm.currentChildBlock i).prev n.webm with
      | false =>
          exact ⟨n, 1, sendMulStreamChild_wait hi hcluster hblocks hold, .refl n, fun _ _ => rfl,
            hnone⟩
      | true =>
          obtain ⟨hdone, hplace⟩ := hplaced hi
          obtain ⟨-, -, hlt, htotal⟩ := hw.some hdone
          have hseqLt := clusterSeq_lt_of_isOldBlockSeq hw hdone hold
          obtain ⟨c, k, hat⟩ := hplace.resolve_left (by omega)
          have hc : c < done := hat.cluster ▸ hseqLt
          have hmono := f.clusterStart_mono (show c + 1 ≤ done by omega)
          have hpayload := hsmall.payload_lt (show c < f.clusters.length by omega)
          have hnext := f.clusterStart_succ (show c < f.clusters.length by omega)
          have hle := hat.le
          have h12 : clusterHeaderBytes = 12 := rfl
          obtain ⟨x, y, info, ret, hread, hpos, hseq, hcut⟩ :=
            readCacheBlock_step hpast hw.onFile hat (by omega) (by omega) (by omega)
          obtain ⟨x', hoffset⟩ := calOffset_standsAt hw.onFile hat (by omega) (by omega)
            (by omega) env.fileBuf
          obtain ⟨n', hstep, hstreamed, hcursor, hpayloads⟩ :=
            sendMulStreamChild_of_read hi hcluster hblocks hold hread
              (by rw [List.length_take]; exact Nat.min_eq_left hcut.bytes_le_rest) hcut.bytes_le
          refine ⟨n', 0, hstep, hstreamed, fun j hj => ?_, ?_⟩
          · rw [hcursor, Function.update_of_ne hj]
          · rw [hcursor, Function.update_self, hpayloads]
            refine .serves hat hc (fun hend => ?_) hpos hseq hcut ?_
            · by_contra hwrap
              have hcluster := hat.cluster
              have hmax := (n.webm.currentChildBlock i).prev.clusterSeq.toNat_lt
              have hlast : (n.webm.currentChildBlock i).prev.clusterSeq = 0xffff := by
                rw [← UInt16.toNat_inj, hcluster]
                show c = 65535
                omega
              exact hrange ⟨hlast, hi, hold, _, _, _, hend ▸ hread⟩
            · simp only [childOffset, seekABSForNextBlock, hoffset]

theorem AllServed.placed {f : StreamFile} {n : Node} {done : Nat}
    {delivered : Fin maxChildNum → List UInt8} (h : AllServed f n done delivered)
    (i : Fin maxChildNum) (hi : n.isConnected (childSlot i) = true) :
    0 < done ∧ Placed f (n.webm.currentChildBlock i) := by
  obtain ⟨hdone, c, k, hat, -⟩ := h i hi
  exact ⟨hdone, .inr ⟨c, k, hat⟩⟩

theorem ChildRound.served {f : StreamFile} {done joined : Nat} {offset : Int}
    {block block' : Block} {payload delivered : List UInt8} (hsmall : f.Small)
    (h : ChildRound f done offset block payload block') (hdone : done < f.clusters.length)
    (hserved : Served f done block joined delivered) :
    Served f done block' joined (delivered ++ payload) := by
  cases h with
  | waits => rwa [List.append_nil]
  | @serves c k info ret hat hc hend hpos hseq hcut hoffset =>
      obtain ⟨c', k', hat', hjoined, -, rfl⟩ := hserved
      obtain ⟨rfl, rfl⟩ := hat.unique hsmall (by omega) hat'
      exact Served.next hat hjoined hc hdone hend hpos hseq hcut

theorem LoopOk.congr {f : StreamFile} {w w' : Webm} {phase : Phase} {done : Nat}
    (h : LoopOk f w phase done) (hg : Grown f w w') (hfp : w'.fp = w.fp)
    (hfpos : w'.currentFposR ≤ w'.fp) (hread : w'.currentReadBytes = w.currentReadBytes)
    (hblock : w'.currentBlock = w.currentBlock) (hcurrent : w'.currentCluster = w.currentCluster)
    (hcluster : w'.clusterAllocated = w.clusterAllocated)
    (hblocks : w'.childBlocksAllocated = w.childBlocksAllocated) : LoopOk f w' phase done :=
  ⟨h.completed.congr hg, hfpos, h.at_phase.congr hfp hread hblock hcurrent hg.total,
    hcluster.trans h.clusterAllocated, hblocks.trans h.childBlocksAllocated⟩

theorem LoopOk.streamed {f : StreamFile} {n n' : Node} {phase : Phase} {done : Nat}
    (h : LoopOk f n.webm phase done) (hstreamed : Streamed n n') (hfp : n'.webm.fp = n.webm.fp)
    (hfpos : n'.webm.currentFposR = n.webm.fp) : LoopOk f n'.webm phase done := by
  obtain ⟨x, y, blocks, sent, rfl⟩ := hstreamed
  exact h.congr (h.completed.grown rfl rfl rfl rfl rfl) hfp
    (le_of_eq (hfpos.trans hfp.symm)) rfl rfl rfl rfl rfl

theorem LoopOk.setChildBlock {f : StreamFile} {w : Webm} {phase : Phase} {done : Nat}
    (h : LoopOk f w phase done) (i : Fin maxChildNum) (block : Block) :
    LoopOk f (w.setChildBlock i block) phase done :=
  h.congr (h.completed.grown rfl rfl rfl rfl rfl) rfl h.fpos_le rfl rfl rfl rfl rfl

theorem LoopOk.grow {f : StreamFile} {w : Webm} {phase : Phase} {done : Nat} {total : Int}
    (h : LoopOk f w phase done) (hle : w.totalFileBytes ≤ total)
    (htotal : total ≤ f.bytes.length) : LoopOk f { w with totalFileBytes := total } phase done :=
  h.congr ⟨rfl, rfl, rfl, hle, htotal, rfl⟩ rfl h.fpos_le rfl rfl rfl rfl rfl

theorem LoopOk.main {f : StreamFile} {w w' : Webm} {phase phase' : Phase} {done : Nat} {stale : Buf}
    (h : LoopOk f w phase done) (hstale : ∀ i, 1000 ≤ i → stale i = 0)
    (hmain : mainStep stale w phase = some (phase', w')) :
    ∃ done', done ≤ done' ∧ LoopOk f w' phase' done' ∧
      w'.currentChildBlock = w.currentChildBlock := by
  obtain ⟨done', hle, hcompleted, hfpos, hat, hblocks, hcluster, hchild⟩ :=
    mainStep_loopAt hstale h.completed h.fpos_le h.at_phase hmain
  exact ⟨done', hle, ⟨hcompleted, hfpos, hat, hcluster.trans h.clusterAllocated,
    hchild.trans h.childBlocksAllocated⟩, hblocks⟩

theorem mulStreamStart_streamed (n : Node) : Streamed n (mulStreamStart n) :=
  ⟨n.webm.fp, n.webm.fp, _, _, rfl⟩

theorem sendMulStream_of_rounds {env : Env} {n n₁ n₂ : Node} {count₁ count₂ : Nat}
    (hfp : 0 ≤ n.webm.fp)
    (hchild₁ : sendMulStreamChild env 0 (mulStreamStart n) = .ok (n₁, count₁))
    (hchild₂ : sendMulStreamChild env 1 n₁ = .ok (n₂, count₂)) (hstreamed : Streamed n n₂) :
    ∃ n' ret, sendMulStream env n = .ok (n', ret) ∧ Streamed n n' ∧ n'.webm.fp = n.webm.fp ∧
      n'.webm.currentFposR = n.webm.fp ∧
      n'.webm.currentChildBlock = n₂.webm.currentChildBlock ∧
      mulStreamPayload env n 0 = blockPayloads (mulStreamStart n) n₁ ∧
      mulStreamPayload env n 1 = blockPayloads n₁ n₂ := by
  have hseek : seekABSWebM n.webm.fp n₂.webm
      = { n₂.webm with fp := n.webm.fp, currentFposR := n.webm.fp } := by
    simp only [seekABSWebM, fsetpos, if_pos hfp]
  have hstart : sendMulStreamChild env 0
      { n with webm := { n.webm with currentFposR := n.webm.fp } } = .ok (n₁, count₁) := hchild₁
  have hstep : sendMulStream env n = .ok ({ n₂ with webm := seekABSWebM n.webm.fp n₂.webm },
      if ((count₁ + count₂ : Nat) : Int) = n₂.currentChildNum then 0 else 1) := by
    simp only [sendMulStream, hstart, hchild₂, bind, Except.bind]
    rfl
  rw [hseek] at hstep
  refine ⟨_, _, hstep, ?_, rfl, rfl, rfl, ?_, ?_⟩
  · obtain ⟨x, y, blocks, sent, rfl⟩ := hstreamed
    exact ⟨_, _, _, _, rfl⟩
  · simp only [mulStreamPayload, hchild₁, if_true]
    rfl
  · have hne : ¬ (1 : Fin maxChildNum) = 0 := by decide
    simp only [mulStreamPayload, hchild₁, if_neg hne, hchild₂]

theorem sendMulStream_round {f : StreamFile} {env : Env} {n : Node} {phase : Phase} {done : Nat}
    (hsmall : f.Small) (hpast : ∀ i, env.past i = 0) (hrange : StaysInRange env n)
    (hloop : LoopOk f n.webm phase done)
    (hplaced : ∀ i, n.isConnected (childSlot i) = true →
      0 < done ∧ Placed f (n.webm.currentChildBlock i)) :
    ∃ n' ret, sendMulStream env n = .ok (n', ret) ∧ LoopOk f n'.webm phase done ∧
      Streamed n n' ∧ ∀ i, ChildRound f done (mulStreamOffset env n i)
        (n.webm.currentChildBlock i) (mulStreamPayload env n i) (n'.webm.currentChildBlock i) := by
  obtain ⟨n₁, count₁, hchild₁, hstreamed₁, hother₁, hround₁⟩ :=
    sendMulStreamChild_round hsmall hpast (n := mulStreamStart n)
      (hloop.completed.congr (hloop.completed.grown rfl rfl rfl rfl rfl)) hloop.clusterAllocated
      hloop.childBlocksAllocated 0 (hplaced 0) hrange.1
  have hfirst := (mulStreamStart_streamed n).trans hstreamed₁
  have hcursor : n₁.webm.currentChildBlock 1 = n.webm.currentChildBlock 1 := hother₁ 1 (by decide)
  obtain ⟨x₁, y₁, blocks₁, sent₁, hn₁⟩ := id hfirst
  obtain ⟨n₂, count₂, hchild₂, hstreamed₂, hother₂, hround₂⟩ :=
    sendMulStreamChild_round hsmall hpast (n := n₁)
      (hloop.completed.congr (by rw [hn₁]; exact hloop.completed.grown rfl rfl rfl rfl rfl))
      (by rw [hn₁]; exact hloop.clusterAllocated) (by rw [hn₁]; exact hloop.childBlocksAllocated) 1
      (fun hi => by
        rw [hcursor]
        rw [hn₁] at hi
        exact hplaced 1 hi)
      (hrange.2 n₁ count₁ hchild₁)
  obtain ⟨n', ret, hsend, hstreamed, hfp, hfpos, hblocks, hpayload₀, hpayload₁⟩ :=
    sendMulStream_of_rounds hloop.at_phase.fp_nonneg hchild₁ hchild₂ (hfirst.trans hstreamed₂)
  refine ⟨n', ret, hsend, hloop.streamed hstreamed hfp hfpos, hstreamed, fun i => ?_⟩
  match i with
  | 0 =>
      have hoffset : mulStreamOffset env n 0 = childOffset env 0 (mulStreamStart n) := by
        simp only [mulStreamOffset, hchild₁, if_true]
      rw [hoffset, hpayload₀, hblocks, hother₂ 0 (by decide)]
      exact hround₁
  | 1 =>
      have hoffset : mulStreamOffset env n 1 = childOffset env 1 n₁ := by
        have hne : ¬ (1 : Fin maxChildNum) = 0 := by decide
        simp only [mulStreamOffset, hchild₁, if_neg hne]
      rw [hoffset, hpayload₁, hblocks, ← hcursor]
      exact hround₂

/-- `SendMulStream` returns, and leaves every child served. -/
theorem sendMulStream_served {f : StreamFile} {env : Env} {n : Node} {phase : Phase} {done : Nat}
    {delivered : Fin maxChildNum → List UInt8} (hsmall : f.Small) (hpast : ∀ i, env.past i = 0)
    (hrange : StaysInRange env n) (hloop : LoopOk f n.webm phase done)
    (hserved : AllServed f n done delivered) :
    ∃ n' ret, sendMulStream env n = .ok (n', ret) ∧ LoopOk f n'.webm phase done ∧
      AllServed f n' done fun i => delivered i ++ mulStreamPayload env n i := by
  obtain ⟨n', ret, hsend, hloop', hstreamed, hround⟩ :=
    sendMulStream_round hsmall hpast hrange hloop hserved.placed
  refine ⟨n', ret, hsend, hloop', fun i hi => ?_⟩
  have hconnected : n'.connectedNodes = n.connectedNodes ∧ n'.joined = n.joined := by
    obtain ⟨_, _, _, _, rfl⟩ := hstreamed
    exact ⟨rfl, rfl⟩
  rw [Node.isConnected, hconnected.1] at hi
  obtain ⟨hdone, hbefore⟩ := hserved i hi
  obtain ⟨-, -, hlt, -⟩ := hloop.completed.some hdone
  rw [hconnected.2]
  exact ⟨hdone, (hround i).served hsmall hlt hbefore⟩

/-! ## Admissions -/

/-- The cursor that `NodeSetup` gives to a child. -/
def joinCursor (w : Webm) : Block where
  info := BlockInfo.zero
  prev := { BlockInfo.zero with
    status := statusInit
    clusterSeq := w.prevCluster.seq.toUInt16
    pos := UInt32.ofNat clusterHeaderBytes }

theorem joined_setStatus (n : Node) (i : Fin maxChildNum) (s : NodeStatus) :
    (n.setStatus (childSlot i) s).joined = Function.update n.joined i s.clusterSeq.toNat := by
  funext j
  by_cases hj : j = i
  · subst hj
    simp [Node.joined, Node.setStatus]
  · have hslot : childSlot j ≠ childSlot i := fun heq => hj (childSlot_inj.mp heq)
    simp [Node.joined, Node.setStatus, Function.update_of_ne hj, Function.update_of_ne hslot]

theorem renewBlock_setup (block : Block) (w : Webm) :
    { renewBlock { block with info := { block.info with clusterSeq := w.prevCluster.seq.toUInt16 } }
      with prev := { (renewBlock { block with info := { block.info with
        clusterSeq := w.prevCluster.seq.toUInt16 } }).prev with
          clusterSeq := w.prevCluster.seq.toUInt16 + 1 - 1 } } = joinCursor w := by
  rw [UInt16.add_sub_cancel]
  rfl

theorem setupChild_webm (data : Buf) (ip : UInt32) (port : UInt16) (i : Fin maxChildNum)
    (n : Node) : (setupChild data ip port i n).webm = n.webm.setChildBlock i (joinCursor n.webm) :=
  congrArg (n.webm.setChildBlock i) (renewBlock_setup (n.webm.currentChildBlock i) n.webm)

theorem setupChild_joined (data : Buf) (ip : UInt32) (port : UInt16) (i : Fin maxChildNum)
    (n : Node) : (setupChild data ip port i n).joined
      = Function.update n.joined i n.webm.prevCluster.seq.toUInt16.toNat := by
  rw [setupChild, joined_setStatus]
  refine congrArg (Function.update n.joined i) (congrArg UInt16.toNat ?_)
  exact UInt16.add_sub_cancel n.webm.prevCluster.seq.toUInt16 1

theorem admitChild_joined (env : Env) (i : Fin maxChildNum) (n : Node) :
    (admitChild env i n).joined = n.joined := by
  show (n.setStatus (childSlot i) { n.nodesStatus (childSlot i) with
    timestamp := n.stamp env }).joined = n.joined
  rw [joined_setStatus]
  exact Function.update_eq_self i n.joined

theorem isConnected_of_admission {n n' : Node} {i j : Fin maxChildNum}
    (hfree : n.isConnected (childSlot i) = false)
    (hbits : n'.connectedNodes = n.connectedNodes + BitVec.twoPow 8 i)
    (hj : n'.isConnected (childSlot j) = true) : j = i ∨ n.isConnected (childSlot j) = true := by
  have hadd : (n.connectedNodes + BitVec.twoPow 8 i).getLsbD j
      = (n.connectedNodes.getLsbD j || decide (i.val < 8 ∧ i.val = j.val)) :=
    SlotBits.getLsbD_add_twoPow_of_clear hfree j
  have hbit : (n.connectedNodes + BitVec.twoPow 8 i).getLsbD j = true := by
    rw [← hbits]
    exact hj
  rw [hadd, Bool.or_eq_true, decide_eq_true_eq] at hbit
  exact hbit.symm.imp (fun h => Fin.ext h.2.symm) id

theorem nodeSetup_stream {env : Env} {data : Buf} {saddr : UInt32} {source : UInt16} {n n' : Node}
    (h : nodeSetup env data saddr source n = .ok n') :
    (n'.webm = n.webm ∧ n'.connectedNodes = n.connectedNodes ∧ n'.joined = n.joined) ∨
      ∃ i, n.isConnected (childSlot i) = false ∧
        n'.connectedNodes = n.connectedNodes + BitVec.twoPow 8 i ∧
        n'.webm = n.webm.setChildBlock i (joinCursor n.webm) ∧
        n'.joined = Function.update n.joined i n.webm.prevCluster.seq.toUInt16.toNat := by
  rcases nodeSetup_cases h with ⟨-, ad, rfl⟩ | ⟨-, i, hi, rfl⟩
  · exact .inl ⟨rfl, rfl, rfl⟩
  · refine .inr ⟨i, checkChildNum_clear hi, rfl, ?_, ?_⟩
    · exact setupChild_webm data saddr (htons source) i
        (renewDstIPandMAC saddr (htons source) (childSlot i) n)
    · rw [setupAdmission, admitChild_joined]
      exact setupChild_joined data saddr (htons source) i
        (renewDstIPandMAC saddr (htons source) (childSlot i) n)

/-- A child just admitted has been sent nothing, and its cursor is at the head of the last
completed cluster. -/
theorem served_joinCursor {f : StreamFile} {w : Webm} {done : Nat} (hw : Completed f w done)
    (hdone : 0 < done) :
    Served f done (joinCursor w) w.prevCluster.seq.toUInt16.toNat [] := by
  obtain ⟨-, -, hlt, -⟩ := hw.some hdone
  have hseq := hw.seq_lt hdone
  have hjoined : w.prevCluster.seq.toUInt16.toNat < done := by
    rw [UInt32.toNat_toUInt16]
    omega
  refine ⟨w.prevCluster.seq.toUInt16.toNat, 0, StandsAt.head (by omega) rfl rfl rfl rfl rfl,
    le_refl _, by omega, ?_⟩
  rw [f.payloads_self, List.take_zero, List.append_nil]

/-! ## Runs -/

/-- The invariant of the origin. -/
def StreamOk (f : StreamFile) (s : Streaming) : Prop :=
  ∃ done, LoopOk f s.node.webm s.phase done ∧ AllServed f s.node done s.delivered

theorem receiveSetup_frame (k : UInt16) (saddr : UInt32) (source : UInt16) (n : Node) :
    (receiveSetup .origin k saddr source n).webm = n.webm ∧
      (receiveSetup .origin k saddr source n).connectedNodes = n.connectedNodes ∧
      (receiveSetup .origin k saddr source n).joined = n.joined := by
  simp only [receiveSetup]
  split <;> exact ⟨rfl, rfl, rfl⟩

theorem timeCache_frame (env : Env) (n : Node) : (timeCache env n).webm = n.webm ∧
    (timeCache env n).connectedNodes = n.connectedNodes ∧ (timeCache env n).joined = n.joined := by
  obtain ⟨_, _, _, _, _, _, hafter⟩ := timeCache_changes env n
  rw [hafter]
  exact ⟨rfl, rfl, rfl⟩

theorem streamOk_setup {f : StreamFile} {s : Streaming} {n : Node} {env : Env} {data : Buf}
    {k : UInt16} {saddr : UInt32} {source : UInt16} (h : StreamOk f s)
    (hfirst : s.node.PastFirst)
    (hstep : s.node.step .origin env (.setup data k saddr source) = .ok n) :
    StreamOk f { s with
      node := n
      delivered := fun i => if s.node.isConnected (childSlot i) then s.delivered i else [] } := by
  obtain ⟨done, hloop, hserved⟩ := h
  have hdone : 0 < done := Nat.pos_of_ne_zero fun h0 => hfirst (hloop.completed.none h0)
  obtain ⟨hwebm, hconnected, hjoined⟩ := receiveSetup_frame k saddr source s.node
  have hnode := nodeSetup_stream hstep
  rw [hwebm, hconnected, hjoined] at hnode
  rcases hnode with ⟨hw, hc, hj⟩ | ⟨i, hfree, hc, hw, hj⟩
  · refine ⟨done, ?_, fun j hjc => ?_⟩
    · show LoopOk f n.webm s.phase done
      rwa [hw]
    · have hold : s.node.isConnected (childSlot j) = true := by
        rw [Node.isConnected, ← hc]
        exact hjc
      show 0 < done ∧ Served f done (n.webm.currentChildBlock j) (n.joined j)
        (if s.node.isConnected (childSlot j) = true then s.delivered j else [])
      rw [if_pos hold, hw, hj]
      exact hserved j hold
  · have hi : s.node.isConnected (childSlot i) = false := by
      rw [Node.isConnected, ← hconnected]
      exact hfree
    refine ⟨done, ?_, fun j hjc => ?_⟩
    · show LoopOk f n.webm s.phase done
      rw [hw]
      exact hloop.setChildBlock i _
    · refine ⟨hdone, ?_⟩
      show Served f done (n.webm.currentChildBlock j) (n.joined j)
        (if s.node.isConnected (childSlot j) = true then s.delivered j else [])
      have hcursor : n.webm.currentChildBlock
          = Function.update s.node.webm.currentChildBlock i (joinCursor s.node.webm) := by
        rw [hw]
        rfl
      rw [hcursor, hj]
      by_cases hji : j = i
      · subst hji
        rw [Function.update_self, Function.update_self, if_neg (by rw [hi]; decide)]
        exact served_joinCursor hloop.completed hdone
      · have hold : s.node.isConnected (childSlot j) = true := by
          have hbefore := isConnected_of_admission hi hc hjc
          exact hbefore.resolve_left hji
        rw [Function.update_of_ne hji, Function.update_of_ne hji, if_pos hold]
        exact (hserved j hold).2

/-- A step that sends no child the end of cluster `2 ^ 16 - 1`. -/
def InRange (s : Streaming) (l : OriginLabel) : Prop :=
  ∀ env, l = .sendMulStream env → StaysInRange env s.node

/-- Every step of the origin in range keeps the invariant. -/
theorem streamOk_step {f : StreamFile} (hsmall : f.Small) {s t : Streaming} {l : OriginLabel}
    (h : StreamOk f s) (hrange : InRange s l) (hstep : OriginStep f s l t) : StreamOk f t := by
  obtain ⟨horderly, hstep⟩ := hstep
  cases hstep with
  | grow total hle htotal =>
      obtain ⟨done, hloop, hserved⟩ := h
      exact ⟨done, hloop.grow hle htotal, hserved⟩
  | main stale hmain =>
      obtain ⟨done, hloop, hserved⟩ := h
      obtain ⟨done', hle, hloop', hblocks⟩ := hloop.main horderly hmain
      refine ⟨done', hloop', fun i hi => ?_⟩
      obtain ⟨hdone, hi⟩ := hserved i hi
      refine ⟨Nat.lt_of_lt_of_le hdone hle, ?_⟩
      rw [hblocks]
      exact hi.mono hle
  | sendMulStream env hsend =>
      obtain ⟨done, hloop, hserved⟩ := h
      obtain ⟨n', ret, hsend', hloop', hserved'⟩ :=
        sendMulStream_served hsmall horderly (hrange env rfl) hloop hserved
      rw [hsend'] at hsend
      cases hsend
      exact ⟨done, hloop', hserved'⟩
  | setup env data k saddr source hsetup => exact streamOk_setup h horderly hsetup
  | timeCache env =>
      obtain ⟨done, hloop, hserved⟩ := h
      obtain ⟨hwebm, hconnected, hjoined⟩ := timeCache_frame env s.node
      refine ⟨done, ?_, fun i hi => ?_⟩
      · show LoopOk f (P2PStream.timeCache env s.node).webm s.phase done
        rwa [hwebm]
      · rw [hwebm, hjoined]
        exact hserved i (by rw [Node.isConnected, ← hconnected]; exact hi)

/-! ## The start -/

section Start

variable (f : StreamFile) (srcIp : UInt32) (start : Timeval) (blocks : Fin maxChildNum → Block)
  (current prev : Cluster) {total : Int}

theorem loopOk_start (htotal : total ≤ f.bytes.length) :
    LoopOk f (streamStart f srcIp start blocks current prev total).node.webm .opening 0 where
  completed := by
    refine ⟨⟨rfl, ?_, rfl⟩, htotal, fun _ => rfl, fun h => absurd h (lt_irrefl 0)⟩
    exact UInt16.toNat_ofNat_of_lt' f.header_lt
  fpos_le := le_refl _
  at_phase := by
    refine .opening ?_ rfl ⟨rfl, rfl⟩
    rw [f.clusterStart_zero]
    rfl
  clusterAllocated := rfl
  childBlocksAllocated := rfl

theorem streamOk_start (htotal : total ≤ f.bytes.length) :
    StreamOk f (streamStart f srcIp start blocks current prev total) := by
  refine ⟨0, loopOk_start f srcIp start blocks current prev htotal, fun i hi => ?_⟩
  have hnone : (0#8).getLsbD (childSlot i) = true := hi
  rw [BitVec.getLsbD_zero] at hnone
  cases hnone

end Start

end P2PStream
