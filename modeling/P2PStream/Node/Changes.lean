/-
# `P2PStream.Node.Changes` — what each handler may change

Most handlers and sections of the timer write a few globals and then talk: they send packets
that are neither part of the stream nor of an admission, some of them through the scratch
entry of the address table.  `Talks` is the second half.  One lemma for each handler says
what the first half is, so that a later module proves what it needs once of `Talks` and
reads the rest off.
-/
import P2PStream.Node.Event

namespace P2PStream

open Lib

theorem bind_eq_ok {α β : Type _} {x : Except Fault α} {f : α → Except Fault β} {b : β} :
    (x >>= f) = .ok b ↔ ∃ a, x = .ok a ∧ f a = .ok b := by
  cases x with
  | error e => simp [bind, Except.bind]
  | ok a => simp [bind, Except.bind]

/-! ## Talking -/

/-- Neither a block, nor an id, nor what a node that is taken in gets. -/
def IsTalk (protocol : UInt8) : Prop :=
  protocol ≠ blockProto ∧ protocol ≠ idProto ∧ protocol ≠ initialStatusProto ∧
    protocol ≠ acceptProto

instance (protocol : UInt8) : Decidable (IsTalk protocol) :=
  inferInstanceAs (Decidable (_ ∧ _ ∧ _ ∧ _))

/-- The packet comes from the node, and if it starts with a protocol number, with one that
meets `Ok`. -/
structure Packet.Says (Ok : UInt8 → Prop) (n : Node) (p : Packet) : Prop where
  saddr : p.saddr = n.srcIp
  source : p.source = n.srcPort
  head : ∀ protocol, p.data.head? = some protocol → Ok protocol

/-- The node has talked: it sent packets, and may have used the scratch address for them. -/
def Talks (n n' : Node) : Prop :=
  ∃ ip port ps, n' = { n with
    dstIp := Function.update n.dstIp tmpId ip
    dstPort := Function.update n.dstPort tmpId port
    sent := n.sent ++ ps } ∧ ∀ p ∈ ps, p.Says IsTalk n

theorem head?_take_cons {c d : UInt8} {l : List UInt8} {k : Nat}
    (h : ((Buf.zero.overlay (c :: l)).take k).head? = some d) : d = c := by
  cases k with
  | zero => cases h
  | succ k =>
      rw [Buf.take, List.range_succ_eq_map, List.map_cons, List.head?_cons, Option.some.injEq] at h
      rw [← h]
      exact Buf.overlay_holds Buf.zero (c :: l) 0 (Nat.succ_pos _)

section Talks

variable {n n' : Node}

theorem Talks.refl (n : Node) : Talks n n := by
  refine ⟨n.dstIp tmpId, n.dstPort tmpId, [], ?_, nofun⟩
  rw [Function.update_eq_self, Function.update_eq_self, List.append_nil]

theorem Talks.trans {n₁ n₂ n₃ : Node} (h : Talks n₁ n₂) (h' : Talks n₂ n₃) : Talks n₁ n₃ := by
  obtain ⟨ip, port, ps, rfl, hps⟩ := h
  obtain ⟨ip', port', ps', rfl, hps'⟩ := h'
  refine ⟨ip', port', ps ++ ps', ?_, fun p hp => ?_⟩
  · simp only [Function.update_idem, List.append_assoc]
  · rcases List.mem_append.mp hp with hp | hp
    · exact hps p hp
    · exact ⟨(hps' p hp).saddr, (hps' p hp).source, (hps' p hp).head⟩

theorem Talks.foldl {α : Type _} {f : Node → α → Node} (hf : ∀ n a, Talks n (f n a))
    (as : List α) (n : Node) : Talks n (as.foldl f n) := by
  induction as generalizing n with
  | nil => exact .refl n
  | cons a as ih => exact (hf n a).trans (ih (f n a))

theorem sendData_talks {protocol : UInt8} (hp : IsTalk protocol) (l : List UInt8) (k : Int)
    (s : Slot) (n : Node) : Talks n (sendData (protocol :: l) k s n) := by
  let data := (Buf.zero.overlay (protocol :: l)).take (UInt16.ofInt k).toNat
  refine ⟨n.dstIp tmpId, n.dstPort tmpId, [packetGenerate data s n], ?_, fun p hmem => ?_⟩
  · rw [Function.update_eq_self, Function.update_eq_self]
    rfl
  · rw [List.mem_singleton.mp hmem]
    exact ⟨rfl, rfl, fun _ hhead => head?_take_cons hhead ▸ hp⟩

theorem renewDst_talks (ip : UInt32) (port : UInt16) (n : Node) :
    Talks n (renewDstIPandMAC ip port tmpId n) :=
  ⟨ip, port, [], by rw [List.append_nil]; rfl, nofun⟩

theorem sendSetup_talks (n : Node) : Talks n (sendSetup n) := by
  unfold sendSetup
  split <;> exact sendData_talks (by decide) ..

theorem connectTo_talks (status : NodeStatus) (n : Node) : Talks n (connectTo status n) :=
  (renewDst_talks _ _ n).trans (sendData_talks (by decide) ..)

theorem sendAdvertise_talks (env : Env) (ip : UInt32) (port : UInt16) (ad : Option Slot)
    (n : Node) : Talks n (sendAdvertise env tmpId ad (renewDstIPandMAC ip port tmpId n)) :=
  (renewDst_talks ip port n).trans (sendData_talks (by decide) ..)

theorem sendUnaccept_talks (ip : UInt32) (port : UInt16) (n : Node) :
    Talks n (sendUnaccept tmpId (renewDstIPandMAC ip port tmpId n)) :=
  (renewDst_talks ip port n).trans (sendData_talks (by decide) ..)

theorem nodeKeepAlive_talks (data : Buf) (n : Node) : Talks n (nodeKeepAlive data n) := by
  unfold nodeKeepAlive
  split
  · exact .refl n
  · exact sendData_talks (by decide) ..

theorem nodeReqList_talks (data : Buf) (n : Node) : Talks n (nodeReqList data n) := by
  unfold nodeReqList
  split
  · exact .refl n
  · exact sendData_talks (by decide) ..

theorem nodeAdvertise_talks (env : Env) (data : Buf) (k : UInt16) (n : Node) :
    Talks { renewDstFor (copyBytesToNodeStatus NodeStatus.zero data) parentId n with
      nodesList := pushNew n.nodesList (readStatuses (data.drop nodeStatusBytes)
        (k.toNat / nodeStatusBytes - 1))
      setupTimestamp := n.stamp env } (nodeAdvertise env data k n) :=
  sendSetup_talks _

/-! ## Looking for a parent -/

theorem nextCandidate_eq_ok {prior : NodeStatus} (h : nextCandidate n = .ok (prior, n')) :
    ∃ found list, candidate n = .ok (prior, found) ∧
      list = (if found then n.exceptList else []) ∧ n' = { n with exceptList := list } := by
  obtain ⟨⟨chosen, found⟩, hcandidate, h⟩ := bind_eq_ok.mp h
  cases h
  refine ⟨found, _, hcandidate, rfl, ?_⟩
  cases found <;> rfl

theorem nodeUnaccept_asks {data : Buf} (h : nodeUnaccept data n = .ok n') :
    ∃ prior found list,
      candidate { n with
        exceptList := exceptListPush n.myStatus.id n.exceptList (readU16 data) } =
          .ok (prior, found) ∧
      list = (if found then exceptListPush n.myStatus.id n.exceptList (readU16 data) else []) ∧
      n' = connectTo prior { n with exceptList := list } := by
  obtain ⟨⟨prior, n₁⟩, hnext, h⟩ := bind_eq_ok.mp h
  obtain ⟨found, list, hcandidate, hlist, rfl⟩ := nextCandidate_eq_ok hnext
  cases h
  exact ⟨prior, found, list, hcandidate, hlist, rfl⟩

/-- The open cluster is what the node asks for. -/
theorem nodeRetry_asks {env : Env} (h : nodeRetry env n = .ok n') :
    ∃ prior found list,
      candidate { n with
        isRetry := true
        retryTimestamp := n.stamp env
        exceptList := exceptListPush n.myStatus.id n.exceptList (n.nodesStatus parentId).id } =
          .ok (prior, found) ∧
      list = (if found then
        exceptListPush n.myStatus.id n.exceptList (n.nodesStatus parentId).id else []) ∧
      n' = connectTo prior ({ n with
          isRetry := true
          retryTimestamp := n.stamp env
          exceptList := list }.setStatus myId
        { n.myStatus with clusterSeq := n.webm.currentCluster.seq.toUInt16 }) := by
  obtain ⟨⟨prior, n₁⟩, hnext, h⟩ := bind_eq_ok.mp h
  obtain ⟨found, list, hcandidate, hlist, rfl⟩ := nextCandidate_eq_ok hnext
  dsimp only at h
  split at h
  · cases h
  · cases h
    exact ⟨prior, found, list, hcandidate, hlist, rfl⟩

/-- The parent is left, but for its id, which becomes the candidate's. -/
theorem nodeDetach_asks {env : Env} {data : Buf} (h : nodeDetach env data n = .ok n') :
    ∃ prior found,
      candidate ({ n.disconnect parentId with
          isBeginStreaming := false
          departTimestamp := n.stamp env }.setStatus myId
        { n.myStatus with clusterSeq := readU16 data }) = .ok (prior, found) ∧
      n' = connectTo prior (({ n.disconnect parentId with
          isBeginStreaming := false
          departTimestamp := n.stamp env
          retryTimestamp := n.stamp env }.setStatus myId
        { n.myStatus with clusterSeq := readU16 data }).setStatus parentId
        { n.nodesStatus parentId with id := prior.id }) := by
  obtain ⟨⟨prior, found⟩, hcandidate, h⟩ := bind_eq_ok.mp h
  cases h
  exact ⟨prior, found, hcandidate, rfl⟩

/-! ## The end of a link -/

theorem departChild_changes (id : UInt16) (i : Fin maxChildNum) (n : Node) (seq : UInt16) :
    ∃ count connected, (departChild id i n seq).1 =
      { n with currentChildNum := count, connectedNodes := connected } := by
  unfold departChild
  split <;> exact ⟨_, _, rfl⟩

theorem nodeDepart_talks {env : Env} {data : Buf} (h : nodeDepart env data n = .ok n') :
    ∃ count connected,
      Talks { n with currentChildNum := count, connectedNodes := connected } n' := by
  simp only [nodeDepart] at h
  split at h
  · cases h
  · cases h
    let id := (copyBytesToNodeStatus NodeStatus.zero data).id
    let first := departChild id 0 n env.uninitSeq
    obtain ⟨count, connected, hfirst⟩ := departChild_changes id 0 n env.uninitSeq
    obtain ⟨count', connected', hsecond⟩ := departChild_changes id 1 first.1 first.2
    have hboth : (departChild id 1 first.1 first.2).1 =
        { n with currentChildNum := count', connectedNodes := connected' } := by
      rw [hsecond]
      exact congrArg (fun m : Node =>
        { m with currentChildNum := count', connectedNodes := connected' }) hfirst
    refine ⟨count', connected', ?_⟩
    rw [← hboth]
    exact (renewDst_talks _ _ _).trans (sendData_talks (by decide) _ _ tmpId _)

/-- A round of the keep-alive loop finds the slot in time, drops it, or drops the parent. -/
theorem timeout_cases {env : Env} {s : Slot} (h : timeout env s n = .ok n') :
    (isTimedOut env s n = false ∧ n' = n) ∨ (isTimedOut env s n = true ∧
      ((s ≠ parentId ∧ n' = { n.disconnect s with currentChildNum := n.currentChildNum - 1 }) ∨
        (s = parentId ∧ nodeRetry env
          { n.disconnect s with currentChildNum := n.currentChildNum - 1 } = .ok n'))) := by
  simp only [timeout] at h
  split at h
  · next hout =>
    split at h
    · next hs => exact .inr ⟨hout, .inr ⟨hs, h⟩⟩
    · next hs =>
      cases h
      exact .inr ⟨hout, .inl ⟨hs, rfl⟩⟩
  · next hin =>
    cases h
    exact .inl ⟨Bool.eq_false_iff.mpr hin, rfl⟩

/-! ## The timer -/

theorem timeRetry_cases {env : Env} (h : timeRetry env n = .ok n') :
    ((n.isRetry && n.exceeds env n.retryTimestamp fiveSeconds) = true ∧ nodeRetry env n = .ok n') ∨
      ((n.isRetry && n.exceeds env n.retryTimestamp fiveSeconds) = false ∧ n' = n) := by
  unfold timeRetry at h
  split at h
  · next hdue => exact .inl ⟨hdue, h⟩
  · next hnot =>
    cases h
    exact .inr ⟨Bool.eq_false_iff.mpr hnot, rfl⟩

theorem timeKeepAlive_talks (env : Env) (n : Node) :
    Talks { n with
      timestamp := if n.exceeds env n.timestamp timeprocessInterval then n.stamp env
        else n.timestamp } (timeKeepAlive env n) := by
  unfold timeKeepAlive
  split
  · exact Talks.foldl (fun n s => sendData_talks (by decide) _ _ s n) _ _
  · exact .refl n

theorem timeSetup_talks (env : Env) (n : Node) :
    Talks { n with
      setupTimestamp := if n.isSetup && n.exceeds env n.setupTimestamp fiveSeconds then n.stamp env
        else n.setupTimestamp } (timeSetup env n) := by
  unfold timeSetup
  split
  · exact sendSetup_talks _
  · exact .refl n

theorem timeList_talks (env : Env) (n : Node) :
    Talks { n with
      listupdateTimestamp :=
        if n.exceeds env n.listupdateTimestamp fiveSeconds && n.isConnected parentId then
          n.stamp env
        else n.listupdateTimestamp } (timeList env n) := by
  unfold timeList
  split
  · have hlisted : ∀ m s, Talks m (sendReqList tmpId (renewDstFor s tmpId m)) :=
      fun m s => (renewDst_talks _ _ m).trans (sendData_talks (by decide) ..)
    exact Talks.trans (sendData_talks (by decide) _ _ parentId _) (Talks.foldl hlisted _ _)
  · exact .refl n

theorem timeDepart_talks (env : Env) (n : Node) :
    Talks { n with
      departTimestamp := if n.currentCache < cacheTlv && n.isBeginStreaming &&
          n.exceeds env n.departTimestamp fiveSeconds then n.stamp env
        else n.departTimestamp } (timeDepart env n) := by
  simp only [timeDepart]
  split
  · split
    · exact sendData_talks (by decide) ..
    · exact .refl _
  · exact .refl n

theorem calPlayedBuffer_changes (env : Env) (n : Node) :
    ∃ total played, calPlayedBuffer env n = { n with
      totalBuffer := total
      playedBuffer := played
      playedTimestamp :=
        if n.myStatus.id ≠ originId && n.isBeginPlaying &&
            n.exceeds env n.playedTimestamp playedInterval
        then n.stamp env else n.playedTimestamp } := by
  simp only [calPlayedBuffer]
  by_cases hid : n.myStatus.id = originId
  · rw [if_pos hid, decide_eq_false (not_not_intro hid)]
    exact ⟨_, _, rfl⟩
  · rw [if_neg hid, decide_eq_true hid, Bool.true_and]
    have hexceeds : { n with totalBuffer := n.webm.totalBlockNum }.exceeds env n.playedTimestamp
        playedInterval = n.exceeds env n.playedTimestamp playedInterval := rfl
    rw [hexceeds]
    split <;> exact ⟨_, _, rfl⟩

theorem timeCache_changes (env : Env) (n : Node) :
    ∃ total played cache streaming playing timestamp, timeCache env n = { n with
      totalBuffer := total
      playedBuffer := played
      currentCache := cache
      isBeginStreaming := streaming
      isBeginPlaying := playing
      playedTimestamp := timestamp } := by
  obtain ⟨total, played, hplayed⟩ := calPlayedBuffer_changes env n
  simp only [timeCache, hplayed]
  split <;> exact ⟨_, _, _, _, _, _, rfl⟩

/-! ## Accept -/

theorem connectParent_eq {connected : BitVec 8} (h : n.connectedNodes = connected) :
    connectParent n = { n with
      connectedNodes := if connected.getLsbD parentId then connected
        else connected + BitVec.twoPow 8 parentId } := by
  subst h
  unfold connectParent
  split
  · next hjoined => rw [if_pos (show n.connectedNodes.getLsbD parentId = true from hjoined)]
  · next hjoined =>
    rw [if_neg (show ¬ n.connectedNodes.getLsbD parentId = true from hjoined)]
    rfl

/-- The parent is recorded and joined, and the search for it is over. -/
theorem nodeAccept_changes (env : Env) (data : Buf) (n : Node) :
    ∃ parent offset connected,
      nodeAccept env data n =
        { (n.setStatus parentId parent).setStatus myId
            { n.myStatus with layer := parent.layer + 1 } with
          webm := { n.webm with nodeTimecodeOffset := offset }
          connectedNodes := connected
          isRetry := false
          exceptList := [] } ∧
      parent = copyBytesToNodeStatus { n.nodesStatus parentId with timestamp := n.stamp env } data ∧
      offset = addTimecodeOffset (data.drop nodeStatusBytes) 0 ∧
      connected = if n.connectedNodes.getLsbD parentId then n.connectedNodes
        else n.connectedNodes + BitVec.twoPow 8 parentId := by
  have hne : myId ≠ parentId := by decide
  simp only [nodeAccept, Node.mapWebm, Node.myStatus, Node.setStatus, Function.update_of_ne hne]
  rw [connectParent_eq rfl]
  exact ⟨_, _, _, rfl, rfl, rfl, rfl⟩

end Talks

/-! ## The stream -/

/-- A block for a connected child. -/
def Packet.BlockFrom (n : Node) (p : Packet) : Prop :=
  ∃ i data, n.isConnected (childSlot i) = true ∧ p = packetGenerate data (childSlot i) n ∧
    ∀ protocol, data.head? = some protocol → protocol = blockProto

/-- The node has served its children: the file position and the cursors have moved, and blocks
were sent. -/
def Distributes (n n' : Node) : Prop :=
  ∃ x y blocks ps, n' = { n with
    webm := { n.webm with fp := x, currentFposR := y, currentChildBlock := blocks }
    sent := n.sent ++ ps } ∧ ∀ p ∈ ps, p.BlockFrom n

section Distributes

variable {n n' : Node}

theorem Distributes.none {w : Webm} (h : ∃ x y blocks,
    w = { n.webm with fp := x, currentFposR := y, currentChildBlock := blocks }) :
    Distributes n { n with webm := w } := by
  obtain ⟨x, y, blocks, rfl⟩ := h
  exact ⟨x, y, blocks, [], by rw [List.append_nil], nofun⟩

theorem Distributes.refl (n : Node) : Distributes n n := Distributes.none ⟨_, _, _, rfl⟩

theorem Distributes.trans {n₁ n₂ n₃ : Node} (h : Distributes n₁ n₂) (h' : Distributes n₂ n₃) :
    Distributes n₁ n₃ := by
  obtain ⟨x, y, blocks, ps, rfl, hps⟩ := h
  obtain ⟨x', y', blocks', ps', rfl, hps'⟩ := h'
  refine ⟨x', y', blocks', ps ++ ps', ?_, fun p hp => ?_⟩
  · simp only [List.append_assoc]
  · rcases List.mem_append.mp hp with hp | hp
    · exact hps p hp
    · exact hps' p hp

theorem calOffsetLoop_fp (count : Nat) (buf : Buf) (offset : Int) (w : Webm) :
    ∃ x, (calOffsetLoop count buf offset w).1 = { w with fp := x } := by
  induction count generalizing buf offset w with
  | zero => exact ⟨w.fp, rfl⟩
  | succ count ih =>
      rw [calOffsetLoop]
      obtain ⟨x, hx⟩ := ih (searchWebM buf clusterHeaderBytes offset (fsetpos offset w)).2
        (off64 (offset + (getChank (searchWebM buf clusterHeaderBytes offset
          (fsetpos offset w)).2).chankBytes))
        (searchWebM buf clusterHeaderBytes offset (fsetpos offset w)).1
      refine ⟨x, hx.trans ?_⟩
      simp only [searchWebM, fread, fsetpos]
      split <;> rfl

theorem readCacheBlock_fp {env : Env} {block block' : Block} {w w' : Webm} {status : Int}
    {payload : List UInt8} (h : readCacheBlock env block w = .ok (w', block', status, payload)) :
    ∃ x y, w' = { w with fp := x, currentFposR := y } := by
  obtain ⟨x, hx⟩ := calOffsetLoop_fp
    (block.prev.clusterSeq.toUInt32 - w.firstClusterSeq).toNat env.fileBuf
    w.webmHeaderTotalBytes.toNat w
  simp only [readCacheBlock, seekABSForNextBlock, calOffset, hx] at h
  split at h
  · cases h
  · cases h
    simp only [searchWebM, fread, seekABSWebM, fsetpos]
    split
    · exact ⟨_, _, rfl⟩
    · exact ⟨_, _, rfl⟩

theorem sendMulStreamChild_distributes {env : Env} {i : Fin maxChildNum} {k : Nat}
    (h : sendMulStreamChild env i n = .ok (n', k)) : Distributes n n' := by
  unfold sendMulStreamChild at h
  split at h
  · next hconnected =>
    split at h
    · cases h
    · split at h
      · obtain ⟨⟨n₁, status⟩, hsend, h⟩ := bind_eq_ok.mp h
        obtain ⟨⟨w, block, st, payload⟩, hread, hsend⟩ := bind_eq_ok.mp hsend
        obtain ⟨x, y, rfl⟩ := readCacheBlock_fp hread
        cases h
        cases hsend
        refine ⟨x, y, _, _, rfl, fun p hp => ⟨i, _, hconnected, List.mem_singleton.mp hp, ?_⟩⟩
        intro protocol hhead
        rw [List.cons_append] at hhead
        cases htake : (block.info.bytes + UInt16.ofNat (blockinfoBytes + 1)).toNat with
        | zero =>
            rw [htake] at hhead
            cases hhead
        | succ m =>
            rw [htake] at hhead
            exact (Option.some.inj hhead).symm
      · cases h
        exact .refl n
  · cases h
    exact .refl n

theorem sendMulStream_distributes {env : Env} {ret : Int}
    (h : sendMulStream env n = .ok (n', ret)) : Distributes n n' := by
  obtain ⟨⟨n₁, k₁⟩, h₁, h⟩ := bind_eq_ok.mp h
  obtain ⟨⟨n₂, k₂⟩, h₂, h⟩ := bind_eq_ok.mp h
  cases h
  have hstart : Distributes n { n with webm := { n.webm with currentFposR := n.webm.fp } } :=
    Distributes.none ⟨_, _, _, rfl⟩
  have hchildren := (sendMulStreamChild_distributes h₁).trans (sendMulStreamChild_distributes h₂)
  refine (hstart.trans hchildren).trans (Distributes.none ?_)
  simp only [seekABSWebM, fsetpos]
  split <;> exact ⟨_, _, _, rfl⟩

theorem step_mulStream {program : Program} {env : Env}
    (h : n.step program env .mulStream = .ok n') : ∃ ret, sendMulStream env n = .ok (n', ret) := by
  cases hsend : sendMulStream env n with
  | error fault =>
      rw [Node.step, hsend] at h
      cases h
  | ok sent =>
      rw [Node.step, hsend] at h
      cases h
      exact ⟨sent.2, rfl⟩

theorem step_mulStream_distributes {program : Program} {env : Env}
    (h : n.step program env .mulStream = .ok n') : Distributes n n' := by
  obtain ⟨ret, hsend⟩ := step_mulStream h
  exact sendMulStream_distributes hsend

end Distributes

end P2PStream
