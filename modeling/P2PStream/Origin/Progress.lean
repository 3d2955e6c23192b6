/-
# `P2PStream.Origin.Progress` — the origin gets on

The main loop completes every cluster behind which it can see a header: each
`ReadBlock` that does not end the cluster takes at least one byte of it.  Behind
the first cluster a Setup is admitted, since the cache of an origin is full.
-/
import P2PStream.Origin.Delivery

namespace P2PStream

open Lib

/-! ## The main loop -/

/-- What the main loop changes. -/
def Looped (w w' : Webm) : Prop :=
  ∃ fp fpos readBytes totalBlockNum current prev block latest, w' = { w with
    fp := fp
    currentFposR := fpos
    currentReadBytes := readBytes
    totalBlockNum := totalBlockNum
    currentCluster := current
    prevCluster := prev
    currentBlock := block
    latestBlockSeq := latest }

theorem Looped.refl (w : Webm) : Looped w w := ⟨_, _, _, _, _, _, _, _, rfl⟩

theorem Looped.trans {w₁ w₂ w₃ : Webm} (h : Looped w₁ w₂) (h' : Looped w₂ w₃) : Looped w₁ w₃ := by
  obtain ⟨_, _, _, _, _, _, _, _, rfl⟩ := h
  obtain ⟨_, _, _, _, _, _, _, _, rfl⟩ := h'
  exact ⟨_, _, _, _, _, _, _, _, rfl⟩

/-- The loop stands in front of a `ReadBlock`, behind byte `k` of cluster `done`. -/
structure ReadingAt (f : StreamFile) (w : Webm) (done k : Nat) : Prop where
  completed : Completed f w done
  fpos_le : w.currentFposR ≤ w.fp
  isOpen : Open f w done
  le : k ≤ (f.payload done).length
  fp : w.fp = (f.clusterStart done + clusterHeaderBytes + k : Nat)
  cleared : Cleared w.currentBlock
  cursor : Cursor w.currentBlock.prev ((f.payload done).drop k)
  clusterAllocated : w.clusterAllocated = true
  childBlocksAllocated : w.childBlocksAllocated = true

/-- Two steps of the loop, one behind the other. -/
def MainSteps (stale : Buf) (w : Webm) (phase mid phase' : Phase) (w' : Webm) : Prop :=
  ∃ w₁, mainStep stale w phase = some (mid, w₁) ∧ mainStep stale w₁ mid = some (phase', w')

/-- A `ReadBlock` with what follows it: the loop moves on in the cluster, or ends it. -/
theorem ReadingAt.round {f : StreamFile} {w : Webm} {done k : Nat} {stale : Buf}
    (h : ReadingAt f w done k) (hstale : ∀ i, 1000 ≤ i → stale i = 0) :
    ∃ w', Looped w w' ∧
      ((∃ k', k < k' ∧ MainSteps stale w .reading .advancing .reading w' ∧
          ReadingAt f w' done k') ∨
        (MainSteps stale w .reading .ending .opening w' ∧ LoopOk f w' .opening (done + 1))) := by
  obtain ⟨count, info, ret, hread, hcut⟩ := mainStep_reading hstale h.completed h.fpos_le h.isOpen
    h.le h.fp h.cleared h.cursor
  have hbytes := hcut.bytes_le_rest
  rw [List.length_drop] at hbytes
  have hle := h.le
  have hfp := h.fp
  -- the seek behind the block depends on its length only
  have hseek : w.fp + count + ((info.bytes.toNat : Int) - count)
      = ((f.clusterStart done + clusterHeaderBytes + (k + info.bytes.toNat) : Nat) : Int) := by
    omega
  by_cases hend : ret = clusterEnd
  · have hall := hcut.last hend
    rw [List.length_drop] at hall
    have hnext := f.clusterStart_succ (Nat.lt_of_succ_lt h.isOpen.next)
    have hstart : f.clusterStart done + clusterHeaderBytes + (k + info.bytes.toNat)
        = f.clusterStart (done + 1) := by omega
    rw [hstart] at hseek
    rw [if_pos hend] at hread
    refine ⟨_, ?_, Or.inr ⟨⟨_, hread, rfl⟩, ?_⟩⟩
    · rw [seekForNextBlock_eq (Int.natCast_nonneg _) hseek]
      exact ⟨_, _, _, _, _, _, _, _, rfl⟩
    · rw [seekForNextBlock_eq (Int.natCast_nonneg _) hseek]
      exact ⟨⟨h.completed.onFile.congr rfl rfl rfl, h.completed.total_le,
        fun h0 => absurd h0 (Nat.succ_ne_zero _),
        fun _ => ⟨h.isOpen.option, h.isOpen.seq_succ, h.isOpen.next, h.isOpen.total⟩⟩,
        le_refl _, .opening rfl rfl ⟨rfl, rfl⟩, h.clusterAllocated, h.childBlocksAllocated⟩
  · obtain ⟨hpos, hcursor⟩ := hcut.next hend
    rw [List.drop_drop] at hcursor
    rw [if_neg hend] at hread
    refine ⟨_, ?_, Or.inl ⟨k + info.bytes.toNat, by omega, ⟨_, hread, rfl⟩, ?_⟩⟩
    · rw [seekForNextBlock_eq (Int.natCast_nonneg _) hseek]
      exact ⟨_, _, _, _, _, _, _, _, rfl⟩
    · rw [seekForNextBlock_eq (Int.natCast_nonneg _) hseek]
      exact ⟨h.completed.congr (h.completed.grown rfl rfl rfl rfl rfl), le_refl _,
        h.isOpen.congr (le_refl _) rfl, by omega, rfl, ⟨rfl, rfl⟩, hcursor, h.clusterAllocated,
        h.childBlocksAllocated⟩

/-- The origin with its main loop moved on. -/
def Streaming.loopTo (s : Streaming) (w : Webm) (phase : Phase) : Streaming :=
  { s with node := { s.node with webm := w }, phase }

theorem MainSteps.run {f : StreamFile} {s : Streaming} {w w' : Webm} {stale : Buf}
    {phase mid phase' : Phase} (h : MainSteps stale w phase mid phase' w')
    (hstale : ∀ i, 1000 ≤ i → stale i = 0) :
    Run (OriginStep f) (s.loopTo w phase) [.main stale, .main stale] (s.loopTo w' phase') := by
  obtain ⟨w₁, hfirst, hsecond⟩ := h
  have h₁ : OriginStep f (s.loopTo w phase) (.main stale) (s.loopTo w₁ mid) :=
    ⟨hstale, .main stale hfirst⟩
  have h₂ : OriginStep f (s.loopTo w₁ mid) (.main stale) (s.loopTo w' phase') :=
    ⟨hstale, .main stale hsecond⟩
  exact .cons h₁ (.cons h₂ (.nil _))

theorem ReadingAt.exists_run {f : StreamFile} {s : Streaming} {done : Nat} (fuel : Nat) :
    ∀ (w : Webm) (k : Nat), ReadingAt f w done k → (f.payload done).length < k + fuel →
      ∃ m w', Run (OriginStep f) (s.loopTo w .reading) (List.replicate m (.main Buf.zero))
          (s.loopTo w' .opening) ∧
        Looped w w' ∧ LoopOk f w' .opening (done + 1) := by
  induction fuel with
  | zero => exact fun w k h hfuel => absurd h.le (by omega)
  | succ fuel ih =>
      intro w k h hfuel
      obtain ⟨w₁, hlooped, hround⟩ := h.round fun _ _ => rfl
      rcases hround with ⟨k', hk, hsteps, hnext⟩ | ⟨hsteps, hnext⟩
      · obtain ⟨m, w', hrun, hlooped', hopening⟩ := ih w₁ k' hnext (by omega)
        exact ⟨m + 2, w', (hsteps.run fun _ _ => rfl).append hrun, hlooped.trans hlooped', hopening⟩
      · exact ⟨2, w₁, hsteps.run fun _ _ => rfl, hlooped, hnext⟩

/-- The loop completes the next cluster if it can see the header behind it. -/
theorem LoopOk.exists_run {f : StreamFile} {w : Webm} {done : Nat} (s : Streaming)
    (h : LoopOk f w .opening done) (hlt : done < f.clusters.length)
    (htotal : f.clusterStart (done + 1) + clusterHeaderBytes ≤ w.totalFileBytes) :
    ∃ m w', Run (OriginStep f) (s.loopTo w .opening) (List.replicate m (.main Buf.zero))
        (s.loopTo w' .opening) ∧
      Looped w w' ∧ LoopOk f w' .opening (done + 1) := by
  obtain ⟨hcompleted, hfpos, hat, hcluster, hchild⟩ := h
  obtain ⟨hfp, hstatus, hcleared⟩ : w.fp = f.clusterStart done ∧
      w.currentBlock.prev.status = statusInit ∧ Cleared w.currentBlock := by
    cases hat with
    | opening hfp hstatus hcleared => exact ⟨hfp, hstatus, hcleared⟩
  obtain ⟨w₁, hupdate⟩ := updateClusterFromWebM_isSome hcompleted hfpos hfp hlt htotal Buf.zero
  have hspec := updateClusterFromWebM_spec hcompleted hfpos hfp hupdate
  have hstep : mainStep Buf.zero w .opening = some (.reading, w₁) := by
    simp only [mainStep, hupdate, Option.bind_eq_bind, Option.bind_some]
    rfl
  have hfirst : OriginStep f (s.loopTo w .opening) (.main Buf.zero) (s.loopTo w₁ .reading) :=
    ⟨fun _ _ => rfl, .main Buf.zero hstep⟩
  have hreading : ReadingAt f w₁ done 0 := by
    obtain ⟨hopen, cluster, rfl⟩ := hspec
    refine ⟨hcompleted.congr (hcompleted.grown rfl rfl rfl rfl rfl), ?_, hopen, Nat.zero_le _, rfl,
      hcleared, ?_, hcluster, hchild⟩
    · show w.currentFposR ≤ ((f.clusterStart done + clusterHeaderBytes : Nat) : Int)
      omega
    · rw [List.drop_zero, StreamFile.payload, List.getElem?_eq_getElem hlt]
      exact .atStart _ hstatus
  have hlooped : Looped w w₁ := by
    obtain ⟨-, cluster, rfl⟩ := hspec
    exact ⟨_, _, _, _, _, _, _, _, rfl⟩
  obtain ⟨m, w', hrun, hlooped', hopening⟩ :=
    ReadingAt.exists_run (s := s) ((f.payload done).length + 1) w₁ 0 hreading (by omega)
  exact ⟨m + 1, w', .cons hfirst hrun, hlooped.trans hlooped', hopening⟩

/-! ## An admission -/

/-- A node that can admit a child to slot 0: an origin that has no children. -/
structure Vacant (n : Node) : Prop where
  child : n.currentChildNum = 0
  connected : n.connectedNodes = 0#8
  clusterAllocated : n.webm.clusterAllocated = true
  childBlocksAllocated : n.webm.childBlocksAllocated = true

theorem nodeSetup_first {n : Node} (hchild : n.currentChildNum = 0)
    (hfree : n.isConnected (childSlot 0) = false) (hcluster : n.webm.clusterAllocated = true)
    (hblocks : n.webm.childBlocksAllocated = true) (hcache : n.currentCache = defaultCache)
    (env : Env) (data : Buf) (saddr : UInt32) (source : UInt16) :
    ∃ n', P2PStream.nodeSetup env data saddr source n = .ok n' ∧
      n'.connectedNodes = n.connectedNodes + 1#8 ∧
      n'.webm = n.webm.setChildBlock 0 (joinCursor n.webm) ∧
      n'.joined 0 = n.webm.prevCluster.seq.toUInt16.toNat := by
  have hrnd : generateRndID env.rand 0 (n.currentChildNum + 1) n = some myId := by
    rw [generateRndID, hchild]
    simp
  have hslot : checkChildNum n = some 0 := by
    have hvacant : (!n.isConnected (childSlot 0)) = true := by rw [hfree]; rfl
    rw [checkChildNum, hchild, if_pos (by decide)]
    exact List.find?_cons_of_pos hvacant
  have hnode : P2PStream.nodeSetup env data saddr source n = .ok (admitChild env 0
      (sendWebMHeader (childSlot 0) (sendInitialStatus (childSlot 0)
        (setupChild data saddr (htons source) 0
          (renewDstIPandMAC saddr (htons source) (childSlot 0) n))))) := by
    have hfull : ¬ n.currentCache < defaultCache := by rw [hcache]; decide
    simp only [P2PStream.nodeSetup, hrnd, hslot, hcluster, hblocks, hfull]
    rfl
  refine ⟨_, hnode, rfl, ?_, ?_⟩
  · exact setupChild_webm data saddr (htons source) 0
      (renewDstIPandMAC saddr (htons source) (childSlot 0) n)
  · rw [admitChild_joined]
    show (setupChild data saddr (htons source) 0
      (renewDstIPandMAC saddr (htons source) (childSlot 0) n)).joined 0 = _
    rw [setupChild_joined, Function.update_self]
    rfl

theorem Vacant.nodeSetup {n : Node} (h : Vacant n) (hcache : n.currentCache = defaultCache)
    (env : Env) (data : Buf) (saddr : UInt32) (source : UInt16) :
    ∃ n', P2PStream.nodeSetup env data saddr source n = .ok n' ∧ n'.connectedNodes = 1#8 ∧
      n'.webm = n.webm.setChildBlock 0 (joinCursor n.webm) ∧
      n'.joined 0 = n.webm.prevCluster.seq.toUInt16.toNat := by
  have hfree : n.isConnected (childSlot 0) = false := by
    rw [Node.isConnected, h.connected]
    rfl
  have hnode := nodeSetup_first h.child hfree h.clusterAllocated h.childBlocksAllocated hcache env
    data saddr source
  rwa [h.connected] at hnode

/-- The timer thread of an origin finds its cache full. -/
theorem timeCache_origin {n : Node} (hid : n.myStatus.id = originId)
    (hbuffer : n.totalBuffer - n.playedBuffer = 200) (env : Env) :
    (timeCache env n).currentCache = defaultCache ∧
      (timeCache env n).currentChildNum = n.currentChildNum := by
  have hfull : (200 : UInt64).toBitVec.toInt = defaultCache := by decide
  simp only [timeCache, calPlayedBuffer, if_pos hid, hbuffer, hfull, if_true]
  exact ⟨trivial, trivial⟩

/-- The clusters before `done` are completed, and the child in slot 0 has just joined at the last
of them. -/
structure JoinedAt (f : StreamFile) (s : Streaming) (done : Nat) : Prop where
  phase : s.phase = .opening
  loop : LoopOk f s.node.webm .opening done
  total : s.node.webm.totalFileBytes = f.bytes.length
  connected : s.node.connectedNodes = 1#8
  joined : s.node.joined 0 = s.node.webm.prevCluster.seq.toUInt16.toNat
  cursor : s.node.webm.currentChildBlock 0 = joinCursor s.node.webm
  delivered : s.delivered 0 = []

section Join

variable (f : StreamFile) (srcIp : UInt32) (start : Timeval) (blocks : Fin maxChildNum → Block)
  (current prev : Cluster)

/-- The loop completes as many clusters as are in front of another one. -/
theorem exists_run_completed (done : Nat) (h : done < f.clusters.length) :
    let s₀ := streamStart f srcIp start blocks current prev f.bytes.length
    ∃ ls w, Run (OriginStep f) s₀ ls (s₀.loopTo w .opening) ∧ Looped s₀.node.webm w ∧
      LoopOk f w .opening done := by
  intro s₀
  induction done with
  | zero =>
      have hloop := loopOk_start f srcIp start blocks current prev (le_refl (f.bytes.length : Int))
      exact ⟨[], s₀.node.webm, .nil s₀, .refl _, hloop⟩
  | succ done ih =>
      obtain ⟨ls, w, hrun, hlooped, hloop⟩ := ih (by omega)
      have hnext := f.clusterStart_succ h
      have hle := f.clusterStart_le (done + 1 + 1)
      have htotal : w.totalFileBytes = f.bytes.length := by
        obtain ⟨_, _, _, _, _, _, _, _, rfl⟩ := hlooped
        rfl
      obtain ⟨ls', w', hrun', hlooped', hloop'⟩ :=
        hloop.exists_run s₀ (by omega) (by rw [htotal]; omega)
      exact ⟨_, w', hrun.append hrun', hlooped.trans hlooped', hloop'⟩

theorem exists_run_joinedAt (done : Nat) (h : done < f.clusters.length) (hdone : 0 < done) :
    ∃ ls s, Run (OriginStep f)
        (streamStart f srcIp start blocks current prev f.bytes.length) ls s ∧
      JoinedAt f s done := by
  obtain ⟨ls, w, hrun, hlooped, hloop⟩ :=
    exists_run_completed f srcIp start blocks current prev done h
  generalize hs₀ : streamStart f srcIp start blocks current prev f.bytes.length = s₀
    at hrun hlooped ⊢
  -- the cache of an origin is full, which the timer thread has to see once
  generalize hn : timeCache (Env.clock start) (s₀.loopTo w .opening).node = n
  have hcache : OriginStep f (s₀.loopTo w .opening) (.timeCache (Env.clock start))
      { s₀.loopTo w .opening with node := n } := ⟨trivial, hn ▸ .timeCache (Env.clock start)⟩
  obtain ⟨hwebm, hconnected, -⟩ := timeCache_frame (Env.clock start) (s₀.loopTo w .opening).node
  rw [hn] at hwebm hconnected
  have hwebm : n.webm = w := hwebm
  have hclear : n.connectedNodes = 0#8 := by
    rw [hconnected, ← hs₀]
    rfl
  obtain ⟨hfull, hchild⟩ := timeCache_origin (n := (s₀.loopTo w .opening).node)
    (by rw [← hs₀]; rfl) (by rw [← hs₀]; exact (by decide : (200 : UInt64) - 0 = 200))
    (Env.clock start)
  rw [hn] at hfull hchild
  have hchild : n.currentChildNum = 0 := by
    rw [hchild, ← hs₀]
    rfl
  have hvacant : Vacant (sendID 0 0 n) :=
    ⟨hchild, hclear, hwebm ▸ hloop.clusterAllocated, hwebm ▸ hloop.childBlocksAllocated⟩
  obtain ⟨n', hsetup, hbit, hcursor, hjoined⟩ :=
    hvacant.nodeSetup hfull (Env.clock start) Buf.zero 0 0
  obtain ⟨hoption, -, -, -⟩ := hloop.completed.some hdone
  have hsetup' : OriginStep f { s₀.loopTo w .opening with node := n }
      (.setup (Env.clock start) Buf.zero 4 0 0) { s₀.loopTo w .opening with
        node := n'
        delivered := fun i => if n.isConnected (childSlot i) then s₀.delivered i else [] } := by
    refine ⟨?_, .setup _ _ _ _ _ hsetup⟩
    show n.webm.prevCluster.option ≠ _
    rw [hwebm, hoption]
    decide
  have hcursor : n'.webm = w.setChildBlock 0 (joinCursor w) := by
    rw [hcursor]
    show n.webm.setChildBlock 0 (joinCursor n.webm) = _
    rw [hwebm]
  refine ⟨_, _, hrun.append (.cons hcache (.cons hsetup' (.nil _))),
    ⟨rfl, ?_, ?_, hbit, ?_, ?_, ?_⟩⟩
  · show LoopOk f n'.webm .opening done
    rw [hcursor]
    exact hloop.setChildBlock 0 _
  · show n'.webm.totalFileBytes = _
    rw [hcursor]
    obtain ⟨_, _, _, _, _, _, _, _, rfl⟩ := hlooped
    rw [← hs₀]
    rfl
  · show n'.joined 0 = n'.webm.prevCluster.seq.toUInt16.toNat
    rw [hjoined, hcursor, ← hwebm]
    rfl
  · show n'.webm.currentChildBlock 0 = joinCursor n'.webm
    rw [hcursor]
    rfl
  · rw [← hs₀]
    exact ite_self _

end Join

/-- The first cluster is completed, and the child in slot 0 has just joined at it. -/
structure FirstJoined (f : StreamFile) (s : Streaming) : Prop where
  phase : s.phase = .opening
  loop : LoopOk f s.node.webm .opening 1
  total : s.node.webm.totalFileBytes = f.bytes.length
  connected : s.node.connectedNodes = 1#8
  joined : s.node.joined 0 = 0
  cursor : StandsAt f (s.node.webm.currentChildBlock 0) 0 0
  status : (s.node.webm.currentChildBlock 0).prev.status = statusInit
  delivered : s.delivered 0 = []

theorem exists_run_firstJoined (f : StreamFile) (h : 1 < f.clusters.length) (srcIp : UInt32)
    (start : Timeval) (blocks : Fin maxChildNum → Block) (current prev : Cluster) :
    ∃ ls s, Run (OriginStep f)
        (streamStart f srcIp start blocks current prev f.bytes.length) ls s ∧
      FirstJoined f s := by
  obtain ⟨ls, s, hrun, hs⟩ :=
    exists_run_joinedAt f srcIp start blocks current prev 1 h Nat.one_pos
  have hseq := hs.loop.completed.seq_succ Nat.one_pos (by decide)
  have hseq0 : s.node.webm.prevCluster.seq.toUInt16.toNat = 0 := by
    rw [UInt32.toNat_toUInt16]
    omega
  refine ⟨ls, s, hrun, hs.phase, hs.loop, hs.total, hs.connected, hs.joined.trans hseq0, ?_, ?_,
    hs.delivered⟩
  · rw [hs.cursor]
    exact .head (by omega) hseq0 rfl rfl rfl rfl
  · rw [hs.cursor]
    rfl

/-! ## Serving one child -/

/-- Between two `SendMulStream`s, with `done` clusters completed and one child, in slot 0. -/
structure Serving (f : StreamFile) (s : Streaming) (done : Nat) : Prop where
  loop : LoopOk f s.node.webm s.phase done
  connected : s.node.connectedNodes = 1#8

/-- The cursor of the child in slot 0. -/
def Streaming.cursor (s : Streaming) : Block := s.node.webm.currentChildBlock 0

theorem Serving.serve {f : StreamFile} {s : Streaming} {done : Nat} (h : Serving f s done)
    {env : Env} {x y : Int} {info : BlockInfo} {ret : Int} {payload : List UInt8}
    (hpast : ∀ i, env.past i = 0) (hold : isOldBlockSeq s.cursor.prev s.node.webm = true)
    (hread : readCacheBlock env s.cursor (mulStreamStart s.node).webm
      = .ok ({ (mulStreamStart s.node).webm with fp := x, currentFposR := y },
        ⟨info, s.cursor.prev⟩, ret, payload))
    (hlen : payload.length = info.bytes.toNat) (hle : info.bytes.toNat ≤ 1000) :
    ∃ t, OriginStep f s (.sendMulStream env) t ∧ Serving f t done ∧
      t.cursor = nextCursor ⟨info, s.cursor.prev⟩ ret ∧ t.delivered 0 = s.delivered 0 ++ payload ∧
      t.node.joined = s.node.joined ∧
      t.node.webm.totalFileBytes = s.node.webm.totalFileBytes := by
  have hfirst : s.node.isConnected (childSlot 0) = true := by
    rw [Node.isConnected, h.connected]
    rfl
  have hsecond : s.node.isConnected (childSlot 1) = false := by
    rw [Node.isConnected, h.connected]
    rfl
  obtain ⟨n₁, hchild, hstreamed, hblocks, hpayload⟩ :=
    sendMulStreamChild_of_read (n := mulStreamStart s.node) hfirst h.loop.clusterAllocated
      h.loop.childBlocksAllocated hold hread hlen hle
  have hstreamed := (mulStreamStart_streamed s.node).trans hstreamed
  have hidle : sendMulStreamChild env 1 n₁ = .ok (n₁, 0) := by
    obtain ⟨_, _, _, _, rfl⟩ := hstreamed
    exact sendMulStreamChild_idle hsecond
  obtain ⟨n', ret', hsend, hstreamed', hfp, hfpos, hblocks', hpayload₀, -⟩ :=
    sendMulStream_of_rounds h.loop.at_phase.fp_nonneg hchild hidle hstreamed
  refine ⟨_, ⟨hpast, .sendMulStream env hsend⟩, ⟨h.loop.streamed hstreamed' hfp hfpos, ?_⟩, ?_, ?_,
    ?_, ?_⟩
  · obtain ⟨_, _, _, _, rfl⟩ := hstreamed'
    exact h.connected
  · show n'.webm.currentChildBlock 0 = _
    rw [hblocks', hblocks, Function.update_self]
    rfl
  · show s.delivered 0 ++ mulStreamPayload env s.node 0 = _
    rw [hpayload₀, hpayload]
  · obtain ⟨_, _, _, _, rfl⟩ := hstreamed'
    rfl
  · obtain ⟨_, _, _, _, rfl⟩ := hstreamed'
    rfl

/-- From `s` to `t` the child was sent the block at byte `k` of cluster `c`, which the segmenter
made of the bytes it saw. -/
structure Sent (f : StreamFile) (s t : Streaming) (done c k : Nat) (data : Buf) (info : BlockInfo)
    (ret : Int) : Prop where
  step : OriginStep f s (.sendMulStream (Env.clock Timeval.zero)) t
  serving : Serving f t done
  window : ∃ stop, IsStop stop ∧ Window data ((f.payload c).drop k ++ stop) 1000
  next : getNextBlockByBytes s.cursor maxBlockBytes data = some (⟨info, s.cursor.prev⟩, ret)
  cut : Cut ((f.payload c).drop k) info ret
  cursor : t.cursor = nextCursor ⟨info, s.cursor.prev⟩ ret
  stands : if ret = clusterEnd then
      StandsAt f t.cursor (c + 1) 0 ∧ k + info.bytes.toNat = (f.payload c).length
    else StandsAt f t.cursor c (k + info.bytes.toNat)
  delivered : t.delivered 0 = s.delivered 0 ++ ((f.payload c).drop k).take info.bytes.toNat
  joined : t.node.joined = s.node.joined
  total : t.node.webm.totalFileBytes = s.node.webm.totalFileBytes

theorem Serving.send {f : StreamFile} {s : Streaming} {done c k : Nat} (h : Serving f s done)
    (hat : StandsAt f s.cursor c k) (hold : isOldBlockSeq s.cursor.prev s.node.webm = true)
    (hc : c + 1 < f.clusters.length) (hseq : c + 1 < 2 ^ 16)
    (htotal : f.clusterStart (c + 1) + 4 ≤ s.node.webm.totalFileBytes)
    (hlt : clusterHeaderBytes + k < 2 ^ 32) :
    ∃ t data info ret, Sent f s t done c k data info ret := by
  have hpast : ∀ i, (Env.clock Timeval.zero).past i = 0 := fun _ => rfl
  have hw : OnFile f (mulStreamStart s.node).webm := h.loop.completed.onFile.congr rfl rfl rfl
  obtain ⟨data, stop, hstop, hwindow, hread⟩ := hat.window hpast hw hc htotal hlt
  obtain ⟨info, ret, hnext, hpos, -, hcluster, hcut⟩ :=
    getNextBlockByBytes_step s.cursor hstop hat.cursor hwindow hat.bytes hat.pieceBytes
  obtain ⟨x, y, hread⟩ := hread info ret hnext hcut.bytes_le hcut.bytes_le_rest
  obtain ⟨t, hstep, hserving, hcursor, hdelivered, hjoined, htotal'⟩ := h.serve hpast hold hread
    (by rw [List.length_take]; exact Nat.min_eq_left hcut.bytes_le_rest) hcut.bytes_le
  have hpos : info.pos = UInt32.ofNat (clusterHeaderBytes + k) := by
    rw [hpos]
    split
    · next hinit => rw [hat.start hinit, Nat.add_zero]
    · exact hat.pos
  have hstands := hat.next hc (fun _ => hseq) hpos hcluster hcut
  refine ⟨t, data, info, ret, hstep, hserving, ⟨stop, hstop, hwindow⟩, hnext, hcut, hcursor, ?_,
    hdelivered, hjoined, htotal'⟩
  rw [hcursor, nextCursor]
  by_cases hend : ret = clusterEnd
  · simpa only [if_pos hend] using hstands
  · simpa only [if_neg hend] using hstands

end P2PStream
