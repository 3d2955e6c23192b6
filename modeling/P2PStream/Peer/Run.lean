/-
# `P2PStream.Peer.Run` — runs of a peer, and what they store

A peer handles InitialStatus and then the WebM header; from there on every block
that `IsOldBlockSeq` lets through is written.  All other events leave the written
file alone: SendMulStream reads it and puts the position back, and the others move
children's cursors or the offset of the timecodes at most.

A run carries the history of the blocks stored, and its file is the one that the
history describes: `Stores`.
-/
import P2PStream.Origin.Delivery
import P2PStream.Node.NodesList
import P2PStream.Peer.Store

namespace P2PStream

open Lib

/-! ## What leaves the file alone -/

/-- The writer's globals are the same, a position in the file among them. -/
def SameWrites (w w' : Webm) : Prop :=
  ∃ fp currentFposR currentChildBlock nodeTimecodeOffset,
    (0 ≤ w.fp → fp = w.fp) ∧
      w' = { w with fp, currentFposR, currentChildBlock, nodeTimecodeOffset }

theorem SameWrites.refl (w : Webm) : SameWrites w w := ⟨_, _, _, _, fun _ => rfl, rfl⟩

theorem SameWrites.of_eq {w w' : Webm} (h : w' = w) : SameWrites w w' := h ▸ .refl w

theorem SameWrites.trans {w₁ w₂ w₃ : Webm} (h : SameWrites w₁ w₂) (h' : SameWrites w₂ w₃) :
    SameWrites w₁ w₃ := by
  obtain ⟨_, _, _, _, hfp, rfl⟩ := h
  obtain ⟨_, _, _, _, hfp', rfl⟩ := h'
  refine ⟨_, _, _, _, fun h0 => ?_, rfl⟩
  have hsame := hfp h0
  subst hsame
  exact hfp' h0

theorem sendMulStream_sameWrites {env : Env} {n n' : Node} {ret : Int}
    (h : sendMulStream env n = .ok (n', ret)) : SameWrites n.webm n'.webm := by
  obtain ⟨⟨n₁, k₁⟩, h₁, h⟩ := bind_eq_ok.mp h
  obtain ⟨⟨n₂, k₂⟩, h₂, h⟩ := bind_eq_ok.mp h
  obtain ⟨x, y, blocks, sent, rfl⟩ :=
    ((sendMulStreamChild_distributes h₁).trans (sendMulStreamChild_distributes h₂)).streamed
  cases h
  simp only [seekABSWebM, fsetpos]
  split
  · exact ⟨_, _, _, _, fun _ => rfl, rfl⟩
  · next hneg => exact ⟨_, _, _, _, fun h0 => absurd h0 hneg, rfl⟩

/-- A Connect leaves the children alone, or admits one to a free slot. -/
theorem nodeConnect_stream {env : Env} {data : Buf} {n n' : Node}
    (h : nodeConnect env data n = .ok n') :
    (n'.webm = n.webm ∧ n'.connectedNodes = n.connectedNodes) ∨
      ∃ i, n.isConnected (childSlot i) = false ∧
        n'.connectedNodes = n.connectedNodes + BitVec.twoPow 8 i ∧
        n'.webm = n.webm.setChildBlock i (renewBlock { n.webm.currentChildBlock i with
          info := { (n.webm.currentChildBlock i).info with
            clusterSeq := (copyBytesToBlockInfo data).clusterSeq } }) := by
  rcases nodeConnect_cases h with ⟨-, rfl | rfl⟩ | ⟨-, i, hi, rfl⟩
  · exact .inl ⟨rfl, rfl⟩
  · exact .inl ⟨rfl, rfl⟩
  · exact .inr ⟨i, checkChildNum_clear hi, rfl, rfl⟩

theorem nodeAccept_webm (env : Env) (data : Buf) (n : Node) :
    (nodeAccept env data n).webm = { n.webm with
      nodeTimecodeOffset := addTimecodeOffset (data.drop nodeStatusBytes) 0 } := by
  obtain ⟨_, _, _, hafter, -, hoffset, -⟩ := nodeAccept_changes env data n
  rw [hafter, hoffset]

/-- The events that write nothing to the file. -/
def isAside : Event → Bool
  | .initialStatus .. | .block .. | .main .. => false
  | _ => true

theorem step_sameWrites {env : Env} {n n' : Node} {e : Event} (he : isAside e = true)
    (h : n.step .peer env e = .ok n') : SameWrites n.webm n'.webm := by
  by_cases hquiet : isQuiet e = true
  · exact .of_eq (step_sameStore hquiet h).webm
  · cases e with
    | setup data k saddr source =>
        rcases nodeSetup_stream h with ⟨hwebm, -⟩ | ⟨i, -, -, hwebm, -⟩
        · exact .of_eq hwebm
        · rw [hwebm]
          exact ⟨_, _, _, _, fun _ => rfl, rfl⟩
    | advertise data k =>
        cases h
        exact .of_eq (sendSetup_talks _).sameStore.webm
    | connect data =>
        rcases nodeConnect_stream h with ⟨hwebm, -⟩ | ⟨i, -, -, hwebm⟩
        · exact .of_eq hwebm
        · rw [hwebm]
          exact ⟨_, _, _, _, fun _ => rfl, rfl⟩
    | resList data k =>
        cases h
        exact .refl _
    | accept data =>
        cases h
        exact ⟨_, _, _, _, fun _ => rfl, nodeAccept_webm env data n⟩
    | mulStream =>
        obtain ⟨ret, hsend⟩ := step_mulStream h
        exact sendMulStream_sameWrites hsend
    | initialStatus | block | main => cases he
    | _ => exact absurd rfl hquiet

theorem Stores.sameWrites {header : List UInt8} {s : Stored} {w w' : Webm}
    (h : Stores header s w) (hsame : SameWrites w w') : Stores header s w' := by
  obtain ⟨_, _, _, _, hfp, rfl⟩ := hsame
  have h0 : 0 ≤ w.fp := by
    rw [h.fp]
    exact Int.natCast_nonneg _
  exact ⟨h.file, (hfp h0).trans h.fp, h.pos, h.idBytes, h.dataBytes, h.num, h.last, h.prev, h.seq,
    h.allocated⟩

/-! ## Joining -/

/-- Steps of a peer that write nothing. -/
def AsideStep : Node → Env × Event → Node → Prop :=
  Guarded (NodeStep .peer) fun _ l => isAside l.2 = true

theorem run_sameWrites {n n' : Node} {ls : List (Env × Event)} (hrun : Run AsideStep n ls n') :
    SameWrites n.webm n'.webm := by
  induction hrun with
  | nil n => exact .refl _
  | cons hfirst _ ih => exact (step_sameWrites hfirst.1 hfirst.2).trans ih

/-- A peer behind its InitialStatus, which gave it the cluster number `seq`, and the WebM
header. -/
inductive Joined (seq : UInt16) (header : List UInt8) : Node → Prop
  | intro {env env₁ env₂ : Env} {srcIp originIp : UInt32} {srcPort : UInt16} {start : Timeval}
      {blocks : Fin maxChildNum → Block} {n₁ n₂ n₃ n₄ : Node} {ls₁ ls₂ : List (Env × Event)}
      {data data' : Buf} {k k' : UInt16} :
      Run AsideStep (peerStart env srcIp originIp srcPort start blocks) ls₁ n₁ →
      NodeStep .peer n₁ (env₁, .initialStatus data k) n₂ →
      (copyBytesToBlockInfo (data.drop 8)).clusterSeq = seq →
      Run AsideStep n₂ ls₂ n₃ →
      data'.take blockinfoBytes = blockinfoStart →
      (data'.drop blockinfoBytes).take (k' - UInt16.ofNat blockinfoBytes).toNat = header →
      NodeStep .peer n₃ (env₂, .block data' k') n₄ →
      Joined seq header n₄

theorem peerStart_webm (env : Env) (srcIp originIp : UInt32) (srcPort : UInt16) (start : Timeval)
    (blocks : Fin maxChildNum → Block) :
    (peerStart env srcIp originIp srcPort start blocks).webm =
      { Webm.start [] with childBlocksAllocated := true, currentChildBlock := blocks } := by
  unfold peerStart
  rw [(sendSetup_talks _).sameStore.webm]
  rfl

/-- The globals behind the WebM header that a peer was given after its InitialStatus. -/
structure JoinedWebm (seq : UInt16) (header : List UInt8) (w : Webm) : Prop where
  stores : Stores header (Stored.start seq) w
  headerBytes : w.webmHeaderTotalBytes.toNat = header.length
  total : w.totalFileBytes = header.length
  isFirst : w.isFirstCluster = true
  first : w.firstClusterSeq = 0
  latest : w.latestBlockSeq = 0
  childBlocks : w.childBlocksAllocated = true
  timecode : w.isGetTimecodeOffset = false

theorem updateWebM_writeWebMHeader {w : Webm} (hfile : w.file = []) (hfp : w.fp = 0)
    (header : List UInt8) :
    updateWebM (writeWebMHeader header w) = { w with
      file := header
      fp := header.length
      currentFposW := header.length
      webmHeaderTotalBytes := UInt16.ofNat header.length
      webmHeaderData := header } := by
  have hexport : exportWebM header w = { w with file := header, fp := header.length } := by
    rw [exportWebM_end (by rw [hfp, hfile]; rfl), hfile]
    rfl
  simp only [writeWebMHeader, hexport, updateWebM, updateOffsetWebM, seekABSWebMW, fsetpos,
    if_pos (Int.natCast_nonneg _)]

theorem assembleBlock_start {data : Buf} {w : Webm} {k : UInt16}
    (halloc : (w.clusterAllocated && w.blockAllocated) = true)
    (hstart : data.take blockinfoBytes = blockinfoStart) :
    assembleBlock data k w = .ok
      (let l := (data.drop blockinfoBytes).take (k - UInt16.ofNat blockinfoBytes).toNat
      let w := renewClusterForWrite (updateWebM (writeWebMHeader l w))
      { w with totalFileBytes := w.totalFileBytes + (k - UInt16.ofNat blockinfoBytes).toNat }) := by
  rw [assembleBlock, halloc, if_pos hstart]
  rfl

/-- The WebM header leaves the previous cluster, the counter and the parent's offset. -/
theorem exists_assembleBlock_start {data : Buf} {w : Webm} {k : UInt16}
    (halloc : (w.clusterAllocated && w.blockAllocated) = true)
    (hstart : data.take blockinfoBytes = blockinfoStart) :
    ∃ w', assembleBlock data k w = .ok w' ∧ w'.prevCluster.seq = w.prevCluster.seq ∧
      w'.totalBlockNum = w.totalBlockNum ∧ w'.nodeTimecodeOffset = w.nodeTimecodeOffset := by
  let header := (data.drop blockinfoBytes).take (k - UInt16.ofNat blockinfoBytes).toNat
  have hmarks := updateWebM_marks (writeWebMHeader header w)
  have hcounts := updateWebM_counts (writeWebMHeader header w)
  exact ⟨_, assembleBlock_start halloc hstart, congrArg Marks.previous hmarks,
    congrArg Marks.total hmarks, congrArg Counts.nodeTimecode hcounts⟩

/-- The WebM header is the file's first write, and opens an empty cluster. -/
theorem assembleBlock_header {seq : UInt16} {data : Buf} {k : UInt16} {w w' : Webm}
    {header : List UInt8} (hfile : w.file = []) (hfp : w.fp = 0)
    (hblock : w.currentBlock.info.clusterSeq = seq ∧ w.currentBlock.prev.clusterSeq = seq)
    (hnum : w.currentBlockNum = 0) (hstart : data.take blockinfoBytes = blockinfoStart)
    (hheader : (data.drop blockinfoBytes).take (k - UInt16.ofNat blockinfoBytes).toNat = header)
    (h : assembleBlock data k w = .ok w') :
    Stores header (Stored.start seq) w' ∧
      ∃ file fp currentFposW currentCluster, w' = { w with
        file, fp, currentFposW, currentCluster
        webmHeaderTotalBytes := UInt16.ofNat header.length
        webmHeaderData := header
        totalFileBytes := w.totalFileBytes + header.length } := by
  have hlength : (k - UInt16.ofNat blockinfoBytes).toNat = header.length := by
    rw [← hheader, Buf.length_take]
  rw [assembleBlock] at h
  by_cases halloc : (!(w.clusterAllocated && w.blockAllocated)) = true
  · rw [if_pos halloc] at h
    cases h
  · rw [if_neg halloc, if_pos hstart, hheader, hlength] at h
    dsimp only at h
    rw [updateWebM_writeWebMHeader hfile hfp, renewClusterForWrite_end rfl] at h
    cases h
    have hopen : header ++ footer = (Stored.start seq).fileBytes header := by
      rw [Stored.fileBytes, Stored.front, Stored.start, List.flatMap_nil, List.append_nil]
      rfl
    refine ⟨⟨hopen, rfl, ?_, rfl, rfl, hnum, ?_, hblock.2, ?_, ?_⟩, _, _, _, _, rfl⟩
    · rw [Stored.front, Stored.start, List.flatMap_nil, List.append_nil]
    · intro block hnone
      cases hnone
    · show w.currentBlock.info.clusterSeq.toUInt32 = _
      rw [hblock.1]
      rfl
    · simpa using halloc

/-- The globals behind InitialStatus. -/
structure InitialWebm (seq : UInt16) (w : Webm) : Prop where
  file : w.file = []
  fp : w.fp = 0
  block : w.currentBlock.info.clusterSeq = seq ∧ w.currentBlock.prev.clusterSeq = seq
  num : w.currentBlockNum = 0
  total : w.totalFileBytes = 0
  isFirst : w.isFirstCluster = true
  first : w.firstClusterSeq = 0
  latest : w.latestBlockSeq = 0
  childBlocks : w.childBlocksAllocated = true
  timecode : w.isGetTimecodeOffset = false

theorem InitialWebm.sameWrites {seq : UInt16} {w w' : Webm} (h : InitialWebm seq w)
    (hsame : SameWrites w w') : InitialWebm seq w' := by
  obtain ⟨_, _, _, _, hfp, rfl⟩ := hsame
  exact ⟨h.file, (hfp (by rw [h.fp])).trans h.fp, h.block, h.num, h.total, h.isFirst, h.first,
    h.latest, h.childBlocks, h.timecode⟩

theorem Joined.webm {seq : UInt16} {header : List UInt8} {n : Node} (h : Joined seq header n) :
    JoinedWebm seq header n.webm := by
  obtain ⟨hbefore, hinitial, hseq, hbetween, hstart, hheader, hblock⟩ := h
  rename_i env env₁ env₂ srcIp originIp srcPort start blocks n₁ n₂ n₃ ls₁ ls₂ data data' k k'
  have hpeer := peerStart_webm env srcIp originIp srcPort start blocks
  obtain ⟨_, _, _, _, hfp, hsame⟩ := run_sameWrites hbefore
  rw [hpeer] at hsame hfp
  have hinitialWebm : InitialWebm seq n₂.webm := by
    cases hinitial
    refine ⟨?_, ?_, ⟨hseq, hseq⟩, ?_, ?_, ?_, ?_, ?_, ?_, rfl⟩
    · exact congrArg Webm.file hsame
    · exact (congrArg Webm.fp hsame).trans (hfp (le_refl 0))
    · exact congrArg Webm.currentBlockNum hsame
    · exact congrArg Webm.totalFileBytes hsame
    · exact congrArg Webm.isFirstCluster hsame
    · exact congrArg Webm.firstClusterSeq hsame
    · exact congrArg Webm.latestBlockSeq hsame
    · exact congrArg Webm.childBlocksAllocated hsame
  have hw := hinitialWebm.sameWrites (run_sameWrites hbetween)
  obtain ⟨w, hassemble, hn⟩ := bind_eq_ok.mp hblock
  cases hn
  obtain ⟨hstores, _, _, _, _, rfl⟩ :=
    assembleBlock_header hw.file hw.fp hw.block hw.num hstart hheader hassemble
  refine ⟨hstores, ?_, ?_, hw.isFirst, hw.first, hw.latest, hw.childBlocks, hw.timecode⟩
  · have hlt := (k' - UInt16.ofNat blockinfoBytes).toNat_lt
    have hlength : header.length = (k' - UInt16.ofNat blockinfoBytes).toNat := by
      rw [← hheader, Buf.length_take]
    exact UInt16.toNat_ofNat_of_lt' (by rw [hlength]; exact hlt)
  · show n₃.webm.totalFileBytes + (header.length : Int) = _
    rw [hw.total, Int.zero_add]

/-- The InitialStatus that gives the cluster number `seq` to node 1, from the origin. -/
def joinData (seq : UInt16) : Buf :=
  initialStatusData [{ statusOf 1 2 12346 1 with clusterSeq := seq }, statusOf 0 1 12345 0]

theorem joinData_clusterSeq (seq : UInt16) :
    (copyBytesToBlockInfo ((joinData seq).drop 8)).clusterSeq = seq := by
  have hdata := Buf.overlay_holds Buf.zero (List.replicate 8 0 ++
    [{ statusOf 1 2 12346 1 with clusterSeq := seq }, statusOf 0 1 12345 0].flatMap
      copyNodeStatusToBytes)
  have hstatus := (Buf.holds_append.mp hdata).2
  rw [List.flatMap_cons, copyNodeStatusToBytes, List.append_assoc, List.append_assoc,
    List.append_assoc, List.append_assoc] at hstatus
  exact congrArg BlockInfo.clusterSeq
    (copyBytesToBlockInfo_of_holds (Buf.holds_append.mp hstatus).1)

/-- The first peer behind that InitialStatus. -/
def initialPeer (seq : UInt16) : Node :=
  nodeInitialStatus (Env.clock ⟨1, 0⟩) (joinData seq) 68 firstPeer

/-- A peer joins at any cluster, behind any header that fits a packet. -/
theorem exists_joinedWebm (seq : UInt16) (header : List UInt8)
    (hlength : header.length + blockinfoBytes < 2 ^ 16) :
    ∃ data k w, data.take blockinfoBytes = blockinfoStart ∧
      NodeStep .peer (initialPeer seq) (Env.clock ⟨2, 0⟩, .block data k)
        { initialPeer seq with webm := w } ∧
      Joined seq header { initialPeer seq with webm := w } ∧ w.prevCluster.seq = 0 ∧
      w.totalBlockNum = 0 ∧
      w.nodeTimecodeOffset = (initialPeer seq).webm.nodeTimecodeOffset := by
  let k := UInt16.ofNat (header.length + blockinfoBytes)
  let data := packetData (blockinfoStart ++ header)
  have hdata : data.Holds (blockinfoStart ++ header) := Buf.overlay_holds _ _
  obtain ⟨hfirst, hsecond⟩ := Buf.holds_append.mp hdata
  have hstart : data.take blockinfoBytes = blockinfoStart := Buf.holds_take.mp hfirst
  have hk : (k - UInt16.ofNat blockinfoBytes).toNat = header.length := by
    have hsize : header.length < UInt16.size := by
      have : UInt16.size = 2 ^ 16 := rfl
      omega
    show (UInt16.ofNat (header.length + blockinfoBytes) - _).toNat = _
    rw [UInt16.ofNat_add, UInt16.add_sub_cancel, UInt16.toNat_ofNat_of_lt' hsize]
  have hheader : (data.drop blockinfoBytes).take (k - UInt16.ofNat blockinfoBytes).toNat =
      header := by
    rw [hk]
    exact Buf.holds_take.mp hsecond
  obtain ⟨w, hassemble, hprev, htotal, htimecode⟩ :=
    exists_assembleBlock_start (w := (initialPeer seq).webm) (k := k) rfl hstart
  have hstep : NodeStep .peer (initialPeer seq) (Env.clock ⟨2, 0⟩, .block data k)
      { initialPeer seq with webm := w } := by
    show (do let webm ← assembleBlock data k (initialPeer seq).webm
             return { initialPeer seq with webm }) = _
    rw [hassemble]
    rfl
  have hjoined : Joined seq header { initialPeer seq with webm := w } :=
    .intro (.nil _) rfl (joinData_clusterSeq seq) (.nil _) hstart hheader hstep
  exact ⟨data, k, w, hstart, hstep, hjoined, hprev, htotal, htimecode⟩

theorem exists_joined (seq : UInt16) (header : List UInt8)
    (hlength : header.length + blockinfoBytes < 2 ^ 16) :
    ∃ n, Joined seq header n ∧ n.webm.prevCluster.seq = 0 := by
  obtain ⟨_, _, w, -, -, hjoined, hprev, -⟩ := exists_joinedWebm seq header hlength
  exact ⟨_, hjoined, hprev⟩

/-! ## Storing -/

/-- The blocks stored so far: the cluster number and the bytes written of each. -/
abbrev History := List (UInt16 × List UInt8)

/-- What the history describes. -/
def Stored.of (seq : UInt16) (history : History) : Stored :=
  history.foldl (fun s b => s.store b.1 b.2) (Stored.start seq)

theorem Stored.of_concat (seq : UInt16) (history : History) (b : UInt16 × List UInt8) :
    Stored.of seq (history ++ [b]) = (Stored.of seq history).store b.1 b.2 :=
  List.foldl_concat _ _ _ _

/-- The block that an event stores. -/
def accepted (n : Node) : Event → History
  | .block data _ =>
      let info := copyBytesToBlockInfo data
      if isOldBlockSeq info n.webm then [] else [(info.clusterSeq, writtenBlock data n.webm)]
  | _ => []

/-- A step of a peer, and the history behind it. -/
def StoreStep (s : Node × History) (l : Env × Event) (t : Node × History) : Prop :=
  NodeStep .peer s.1 l t.1 ∧ t.2 = s.2 ++ accepted s.1 l.2

/-- Behind the WebM header: neither another InitialStatus nor another WebM header. -/
def Streams (_ : Node × History) (l : Env × Event) : Prop :=
  match l.2 with
  | .block data _ => data.take blockinfoBytes ≠ blockinfoStart
  | e => isAside e = true

theorem storeStep_cases {s t : Node × History} {l : Env × Event} (hl : Streams s l)
    (hstep : StoreStep s l t) :
    (t.2 = s.2 ∧ SameWrites s.1.webm t.1.webm) ∨
      ∃ data k, l.2 = .block data k ∧
        isOldBlockSeq (copyBytesToBlockInfo data) s.1.webm = false ∧
        t.1 = { s.1 with webm := t.1.webm } ∧
        storeBlock data (k - UInt16.ofNat blockinfoBytes) s.1.webm = .ok t.1.webm ∧
        t.2 = s.2 ++ [((copyBytesToBlockInfo data).clusterSeq, writtenBlock data s.1.webm)] := by
  obtain ⟨hnode, hhistory⟩ := hstep
  obtain ⟨env, e⟩ := l
  cases e with
  | block data k =>
      obtain ⟨w, hassemble, hn⟩ := bind_eq_ok.mp hnode
      have hwebm : t.1 = { s.1 with webm := w } := (Except.ok.inj hn).symm
      rw [accepted] at hhistory
      rcases assembleBlock_cases hassemble with
        ⟨hstart, -⟩ | ⟨-, hold, hsame⟩ | ⟨-, hnew, hstore⟩
      · exact absurd hstart hl
      · simp only [hold, if_true, List.append_nil] at hhistory
        exact .inl ⟨hhistory, .of_eq (by rw [hwebm, hsame])⟩
      · simp only [hnew, Bool.false_eq_true, if_false] at hhistory
        exact .inr ⟨data, k, rfl, hnew, by rw [hwebm], by rw [hwebm, hstore], hhistory⟩
  | initialStatus | main => cases hl
  | _ => exact .inl ⟨hhistory.trans (List.append_nil _), step_sameWrites rfl hnode⟩

/-- The file of a peer is the one its history describes. -/
def Described (seq : UInt16) (header : List UInt8) (s : Node × History) : Prop :=
  Stores header (Stored.of seq s.2) s.1.webm

theorem storeStep_described {seq : UInt16} {header : List UInt8} {s t : Node × History}
    {l : Env × Event} (h : Described seq header s) (hl : Streams s l) (hstep : StoreStep s l t) :
    Described seq header t := by
  rcases storeStep_cases hl hstep with
    ⟨hhistory, hsame⟩ | ⟨data, k, -, -, -, hstore, hhistory⟩
  · rw [Described, hhistory]
    exact h.sameWrites hsame
  · rw [Described, hhistory, Stored.of_concat]
    exact h.storeBlock hstore

theorem run_described {seq : UInt16} {header : List UInt8} {n : Node} {ls : List (Env × Event)}
    {t : Node × History} (hjoined : Joined seq header n)
    (hrun : Run (Guarded StoreStep Streams) (n, []) ls t) : Described seq header t := by
  have hstart : Described seq header (n, []) := hjoined.webm.stores
  exact hrun.guarded_invariant (fun _ _ _ h hl hstep => storeStep_described h hl hstep) hstart

/-! ## Runs of one packet -/

theorem writtenBlock_of_ne {data : Buf} {w : Webm}
    (h : (copyBytesToBlockInfo data).seq ≠ firstBlockSeq) :
    writtenBlock data w =
      (data.drop blockinfoBytes).take (copyBytesToBlockInfo data).bytes.toNat := by
  have hchange : changeFirstBlock data (beginBlock (copyBytesToBlockInfo data) w) =
      .ok (beginBlock (copyBytesToBlockInfo data) w, data) := if_neg h
  simp only [writtenBlock, hchange]

theorem isOldBlockSeq_eq_false {info : BlockInfo} {w : Webm}
    (h : w.prevCluster.seq < info.clusterSeq.toUInt32) : isOldBlockSeq info w = false := by
  have hprev := UInt32.lt_iff_toNat_lt.mp h
  have hlt : ¬ info.clusterSeq.toUInt32 < w.prevCluster.seq := by
    rw [UInt32.lt_iff_toNat_lt]
    omega
  have hne : info.clusterSeq.toUInt32 ≠ w.prevCluster.seq := by
    intro heq
    rw [heq] at hprev
    exact Nat.lt_irrefl _ hprev
  simp only [isOldBlockSeq, if_neg hlt, if_neg hne]

section Packets

variable {first : UInt16} (p : BlockPacket first)

theorem storeStep_packet {s : Node × History} {w : Webm} (env : Env)
    (halloc : (s.1.webm.clusterAllocated && s.1.webm.blockAllocated) = true)
    (hold : isOldBlockSeq p.info s.1.webm = false)
    (hstore : storeBlock p.data (p.bytes - UInt16.ofNat blockinfoBytes) s.1.webm = .ok w) :
    Guarded StoreStep Streams s (env, .block p.data p.bytes)
      ({ s.1 with webm := w }, s.2 ++ [(p.info.clusterSeq, writtenBlock p.data s.1.webm)]) := by
  refine ⟨p.not_start, ?_, ?_⟩
  · show (do let webm ← assembleBlock p.data p.bytes s.1.webm; return { s.1 with webm }) = _
    rw [assembleBlock_eq p halloc, if_neg (by rw [hold]; exact Bool.false_ne_true), hstore]
    rfl
  · have hnew : ¬ isOldBlockSeq (copyBytesToBlockInfo p.data) s.1.webm = true :=
      Bool.eq_false_iff.mp hold
    have haccepted : accepted s.1 (.block p.data p.bytes) =
        [(p.info.clusterSeq, writtenBlock p.data s.1.webm)] := if_neg hnew
    rw [haccepted]

/-- A packet of a cluster behind the previous one is stored as it comes. -/
theorem exists_storeStep (hseq : p.info.seq ≠ firstBlockSeq) {s : Node × History} (env : Env)
    (halloc : (s.1.webm.clusterAllocated && s.1.webm.blockAllocated) = true)
    (hprevious : s.1.webm.prevCluster.seq < p.info.clusterSeq.toUInt32) :
    ∃ w, storeBlock p.data (p.bytes - UInt16.ofNat blockinfoBytes) s.1.webm = .ok w ∧
      Guarded StoreStep Streams s (env, .block p.data p.bytes)
        ({ s.1 with webm := w }, s.2 ++
          [(p.info.clusterSeq, (p.data.drop blockinfoBytes).take p.info.bytes.toNat)]) := by
  obtain ⟨w, hstore, -⟩ := storeBlock_marks p (p.bytes - UInt16.ofNat blockinfoBytes) s.1.webm
  have hstep := storeStep_packet p env halloc (isOldBlockSeq_eq_false hprevious) hstore
  rw [writtenBlock_of_ne hseq] at hstep
  exact ⟨w, hstore, hstep⟩

/-- The open cluster is the packet's, and the one before it is older. -/
structure Takes (w : Webm) : Prop where
  allocated : (w.clusterAllocated && w.blockAllocated) = true
  block : w.currentBlock.prev.clusterSeq = p.info.clusterSeq
  previous : w.prevCluster.seq < p.info.clusterSeq.toUInt32

theorem Takes.next {w : Webm} (h : Takes p w) : ∃ w', Takes p w' ∧
    w'.totalBlockNum = w.totalBlockNum + 1 ∧
    storeBlock p.data (p.bytes - UInt16.ofNat blockinfoBytes) w = .ok w' := by
  obtain ⟨w', hstore, -⟩ := storeBlock_marks p (p.bytes - UInt16.ofNat blockinfoBytes) w
  have hmarks := (storeBlock_counts hstore).2
  have hsame : w.currentBlock.prev.clusterSeq = (copyBytesToBlockInfo p.data).clusterSeq := h.block
  rw [if_pos hsame, if_pos hsame] at hmarks
  simp only [Webm.marks, Marks.mk.injEq] at hmarks
  obtain ⟨hallocated, hprevious, -, hblock, -, htotal⟩ := hmarks
  refine ⟨w', ⟨hallocated.trans h.allocated, ?_, ?_⟩, htotal, hstore⟩
  · rw [hblock]
    rfl
  · rw [hprevious]
    exact h.previous

theorem exists_run_replicate (hseq : p.info.seq ≠ firstBlockSeq) (env : Env) (count : Nat)
    (s : Node × History) (hs : Takes p s.1.webm) : ∃ w, Takes p w ∧
      w.totalBlockNum = s.1.webm.totalBlockNum + UInt64.ofNat count ∧
      Run (Guarded StoreStep Streams) s (List.replicate count (env, .block p.data p.bytes))
        ({ s.1 with webm := w }, s.2 ++ List.replicate count
          (p.info.clusterSeq, (p.data.drop blockinfoBytes).take p.info.bytes.toNat)) := by
  let After (k : Nat) (t : Node × History) : Prop := ∃ w, Takes p w ∧
    w.totalBlockNum = s.1.webm.totalBlockNum + UInt64.ofNat k ∧
    t = ({ s.1 with webm := w }, s.2 ++ List.replicate k
      (p.info.clusterSeq, (p.data.drop blockinfoBytes).take p.info.bytes.toNat))
  have hnext : ∀ k t, After k t → ∃ u, Guarded StoreStep Streams t (env, .block p.data p.bytes) u ∧
      After (k + 1) u := by
    rintro k t ⟨w, hw, htotal, rfl⟩
    obtain ⟨w', hw', htotal', hstore⟩ := hw.next p
    have hstep := storeStep_packet p (s := ({ s.1 with webm := w }, s.2 ++ List.replicate k
      (p.info.clusterSeq, (p.data.drop blockinfoBytes).take p.info.bytes.toNat))) env hw.allocated
      (isOldBlockSeq_eq_false hw.previous) hstore
    refine ⟨_, hstep, w', hw', ?_, ?_⟩
    · rw [htotal', htotal, UInt64.add_assoc, UInt64.ofNat_add]
      rfl
    · rw [writtenBlock_of_ne hseq, List.append_assoc, List.replicate_succ']
      rfl
  have hstart : After 0 s := ⟨s.1.webm, hs, (UInt64.add_zero _).symm, by simp⟩
  obtain ⟨t, hrun, w, hw, htotal, rfl⟩ := Run.exists_replicate hnext count 0 s hstart
  rw [Nat.zero_add] at htotal hrun
  exact ⟨w, hw, htotal, hrun⟩

end Packets

end P2PStream
