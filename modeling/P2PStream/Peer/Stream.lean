/-
# `P2PStream.Peer.Stream` — a peer behind the stream of blocks

The peer is sent blocks of a file, each newer than those before it.  Between two of them
any others may be missing.  `AssembleBlock` takes every one of them and fails at none.

What is written is not the file's, but the *rebased* file's: in each cluster the number in
the Timecode is less by the number in the cluster that was opened first.  The parent's
offset is added and subtracted again, so it does not matter what it is, and nothing needs
to be small: the difference is one of `u64`s, of which the low bytes are kept.
-/
import P2PStream.Origin.Sent
import P2PStream.Peer.Run
import P2PStream.Peer.Timecode

namespace P2PStream

open Lib

/-! ## The rebased file -/

/-- The payload with its Timecode less `base`. -/
def ClusterPayload.rebased (base : UInt64) (p : ClusterPayload) : ClusterPayload :=
  p.withTimecode (toBe p.timecode.data.length (UInt64.ofNat (ofBe p.timecode.data) - base).toNat)
    (length_toBe _ _)

theorem ClusterPayload.length_rebased (base : UInt64) (p : ClusterPayload) :
    (p.rebased base).bytes.length = p.bytes.length := p.length_withTimecode (length_toBe _ _)

theorem ClusterPayload.length_rebased_timecode (base : UInt64) (p : ClusterPayload) :
    (p.rebased base).timecode.bytes.length = p.timecode.bytes.length :=
  p.timecode.length_withData_bytes (length_toBe _ _)

theorem ClusterPayload.drop_rebased (base : UInt64) (p : ClusterPayload) {k : Nat}
    (hk : p.timecode.bytes.length ≤ k) : (p.rebased base).bytes.drop k = p.bytes.drop k :=
  p.drop_withTimecode (length_toBe _ _) hk

theorem length_flatMap_rebased (base : UInt64) (clusters : List ClusterPayload) :
    ((clusters.map (·.rebased base)).flatMap ClusterPayload.clusterBytes).length =
      (clusters.flatMap ClusterPayload.clusterBytes).length := by
  induction clusters with
  | nil => rfl
  | cons p clusters ih =>
      simp only [List.map_cons, List.flatMap_cons, List.length_append, ih,
        ClusterPayload.length_clusterBytes, ClusterPayload.length_rebased]

namespace StreamFile

variable (f : StreamFile) (base : UInt64)

/-- The number in the Timecode of cluster `c`. -/
def timecode (c : Nat) : UInt64 :=
  (f.clusters[c]?.map fun p => UInt64.ofNat (ofBe p.timecode.data)).getD 0

/-- The file with all Timecodes less `base`. -/
def rebased : StreamFile where
  header := f.header
  clusters := f.clusters.map (·.rebased base)
  header_lt := f.header_lt
  size_lt := by
    intro p hp
    obtain ⟨q, hq, rfl⟩ := List.mem_map.mp hp
    rw [q.length_rebased base]
    exact f.size_lt q hq
  length_lt := by
    rw [length_flatMap_rebased]
    exact f.length_lt

theorem rebased_getElem? (c : Nat) :
    (f.rebased base).clusters[c]? = f.clusters[c]?.map (·.rebased base) := List.getElem?_map

theorem rebased_payload (c : Nat) :
    (f.rebased base).payload c = (f.clusters[c]?.map fun p => (p.rebased base).bytes).getD [] := by
  rw [payload, rebased_getElem?, Option.map_map]
  rfl

theorem length_rebased_payload (c : Nat) :
    ((f.rebased base).payload c).length = (f.payload c).length := by
  rw [rebased_payload, payload]
  cases f.clusters[c]? with
  | none => rfl
  | some p => exact p.length_rebased base

theorem drop_rebased_payload {c k : Nat} (hk : f.timecodeLength c ≤ k) :
    ((f.rebased base).payload c).drop k = (f.payload c).drop k := by
  rw [timecodeLength] at hk
  rw [rebased_payload, payload]
  cases hc : f.clusters[c]? with
  | none => rfl
  | some p =>
      rw [hc] at hk
      exact p.drop_rebased base hk

theorem rebased_timecodeLength (c : Nat) :
    (f.rebased base).timecodeLength c = f.timecodeLength c := by
  rw [timecodeLength, timecodeLength, rebased_getElem?, Option.map_map]
  cases f.clusters[c]? with
  | none => rfl
  | some p => exact p.length_rebased_timecode base

end StreamFile

theorem nextBlock_rebased (base : UInt64) {f : StreamFile} {p : Place} {info : BlockInfo}
    (h : NextBlock f p info) : NextBlock (f.rebased base) p info where
  lt := by
    rw [StreamFile.rebased, List.length_map]
    exact h.lt
  cluster := h.cluster
  pos := h.pos
  seq := h.seq
  bytes_le := h.bytes_le
  inside := by
    rw [f.length_rebased_payload]
    exact h.inside
  opens := by
    rw [f.rebased_timecodeLength]
    exact h.opens
  behind := by
    rw [f.rebased_timecodeLength]
    exact h.behind

theorem cutStep_rebased (base : UInt64) {f : StreamFile} {p r : Place} {info : BlockInfo}
    (h : CutStep f p info r) : CutStep (f.rebased base) p info r := by
  cases h with
  | block hnext hpos => exact .block (nextBlock_rebased base hnext) hpos
  | ends hnext hend =>
      refine .ends (nextBlock_rebased base hnext) ?_
      rw [f.length_rebased_payload, hend]

/-- A block behind the first of its cluster has the same bytes in both files. -/
theorem NextBlock.cutBytes_rebased (base : UInt64) {f : StreamFile} {p : Place} {info : BlockInfo}
    (h : NextBlock f p info) (hlater : p.blocks ≠ 0) :
    (f.rebased base).cutBytes info = f.cutBytes info := by
  rw [(nextBlock_rebased base h).cutBytes_eq, h.cutBytes_eq,
    f.drop_rebased_payload base (h.behind hlater)]

/-! ## `ChangeTimecode`, whatever the offsets are -/

/-- The offset that a node has behind `ChangeTimecode`. -/
def ownOffset (value : UInt64) (w : Webm) : UInt64 :=
  if w.isGetTimecodeOffset then w.timecodeOffset else value + w.nodeTimecodeOffset

theorem changeTimecode_element {e : Element} (he : IsTimecode e) {buf : Buf} {rest : List UInt8}
    (w : Webm) (h : buf.Holds (e.bytes ++ rest)) :
    ∃ buf', changeTimecode buf w = .ok ({ w with
        timecodeOffset := ownOffset (UInt64.ofNat (ofBe e.data)) w
        isGetTimecodeOffset := true }, buf') ∧
      buf'.Holds ((e.withData (toBe e.data.length (UInt64.ofNat (ofBe e.data) +
        w.nodeTimecodeOffset - ownOffset (UInt64.ofNat (ofBe e.data)) w).toNat)
          (length_toBe _ _)).bytes ++ rest) := by
  obtain ⟨hheader, hrest⟩ := Buf.holds_append.mp (Buf.holds_append.mp h).1
  have hchank := getChank_element e hheader
  have hpow : 256 ^ e.data.length ≤ 256 ^ 8 := Nat.pow_le_pow_right (by decide) he.2
  have hlt := ofBe_lt e.data
  have hvalue := accumulate_eq hrest 0 (by rw [Nat.zero_mul, Nat.zero_add]; omega)
  rw [Nat.zero_mul, Nat.zero_add] at hvalue
  have hoffset : (if w.isGetTimecodeOffset then w else { w with
        timecodeOffset := UInt64.ofNat (ofBe e.data) + w.nodeTimecodeOffset
        isGetTimecodeOffset := true }) =
      { w with
        timecodeOffset := ownOffset (UInt64.ofNat (ofBe e.data)) w
        isGetTimecodeOffset := true } := by
    rw [ownOffset]
    split
    · next hget => rw [← hget]
    · rfl
  simp only [changeTimecode, hchank, he.1, if_true, hvalue, hoffset]
  refine ⟨_, rfl, ?_⟩
  rw [map_shiftRight_eq_toBe _ he.2, Element.withData_bytes]
  exact holds_put h (length_toBe _ _)

/-! ## One block -/

/-- The data of a packet that carries the block. -/
structure HoldsBlock (f : StreamFile) (info : BlockInfo) (data : Buf) : Prop where
  record : copyBytesToBlockInfo data = info
  holds : (data.drop blockinfoBytes).Holds (f.cutBytes info)

theorem holdsBlock_of_blockData (f : StreamFile) (info : BlockInfo) (rest : Buf) :
    HoldsBlock f info (rest.overlay (f.blockData info).tail) := by
  have hholds : (rest.overlay (f.blockData info).tail).Holds
      (copyBlockInfoToBytes info ++ f.cutBytes info) := Buf.overlay_holds _ _
  obtain ⟨hinfo, hbytes⟩ := Buf.holds_append.mp hholds
  rw [length_copyBlockInfoToBytes] at hbytes
  exact ⟨copyBytesToBlockInfo_of_holds hinfo, hbytes⟩

section FirstBlocks

variable {f : StreamFile} {p : Place} {info : BlockInfo}

theorem NextBlock.seq_eq_first_iff (h : NextBlock f p info) :
    info.seq = firstBlockSeq ↔ p.blocks = 0 := by
  have hseq := h.seq
  have hone : firstBlockSeq.toNat = 1 := rfl
  rw [← UInt32.toNat_inj, hone]
  omega

theorem NextBlock.cutBytes_first (h : NextBlock f p info) (hfirst : p.blocks = 0) :
    ∃ q rest, f.clusters[p.cluster]? = some q ∧
      f.cutBytes info = q.timecode.bytes ++ rest ∧
      ∀ base, (f.rebased base).cutBytes info = (q.rebased base).timecode.bytes ++ rest := by
  obtain ⟨hbytes, hle⟩ := h.opens hfirst
  obtain ⟨q, hcluster⟩ : ∃ q, f.clusters[p.cluster]? = some q :=
    ⟨_, List.getElem?_eq_getElem h.lt⟩
  have htake (q : ClusterPayload) (hq : q.timecode.bytes.length ≤ info.bytes.toNat) :
      q.bytes.take info.bytes.toNat = q.timecode.bytes ++
        (payload q.blocks).take (info.bytes.toNat - q.timecode.bytes.length) := by
    rw [ClusterPayload.bytes, payload_cons, List.take_append, List.take_of_length_le hq]
  rw [StreamFile.timecodeLength, hcluster] at hle
  have hq : q.timecode.bytes.length ≤ info.bytes.toNat := hle
  refine ⟨q, (payload q.blocks).take (info.bytes.toNat - q.timecode.bytes.length), hcluster, ?_,
    fun base => ?_⟩
  · rw [h.cutBytes_eq, hbytes, List.drop_zero, StreamFile.payload, hcluster]
    exact htake _ hq
  · have hsame := q.length_rebased_timecode base
    rw [(nextBlock_rebased base h).cutBytes_eq, hbytes, List.drop_zero, StreamFile.rebased_payload,
      hcluster, Option.map_some, Option.getD_some, htake _ (hsame.trans_le hq), hsame]
    rfl

/-- The packet of a block of the stream. -/
def NextBlock.packet (h : NextBlock f p info) {first : UInt16} (hfirst : first.toNat ≤ p.cluster)
    {data : Buf} (hdata : HoldsBlock f info data) (bytes : UInt16) : BlockPacket first where
  data := data
  bytes := bytes
  first_le := by
    rw [hdata.record, UInt16.le_iff_toNat_le, h.cluster]
    exact hfirst
  seq_pos := by
    rw [hdata.record, UInt32.lt_iff_toNat_lt, h.seq]
    exact Nat.succ_pos _
  timecode := by
    intro hseq
    rw [hdata.record, h.seq_eq_first_iff] at hseq
    obtain ⟨q, rest, -, hbytes, -⟩ := h.cutBytes_first hseq
    have hholds := hdata.holds
    rw [hbytes] at hholds
    rw [getChank_element q.timecode (Buf.holds_append.mp (Buf.holds_append.mp hholds).1).1]
    exact q.isTimecode.1
  not_end := by
    intro hend
    have hbytes : (copyBytesToBlockInfo data).bytes =
        (copyBytesToBlockInfo (packetData blockinfoEnd)).bytes := by
      refine congrArg BlockInfo.bytes (copyBytesToBlockInfo_congr (hend.trans ?_))
      exact (Buf.holds_take.mp (Buf.overlay_holds Buf.zero blockinfoEnd)).symm
    have hall : (copyBytesToBlockInfo (packetData blockinfoEnd)).bytes.toNat = 65535 := by decide
    have hle := h.bytes_le
    rw [hdata.record] at hbytes
    rw [← hbytes] at hall
    omega

/-- What is written of a first block: the rebased file's, for the base that the offsets come to. -/
theorem NextBlock.written_first (h : NextBlock f p info) (hfirst : p.blocks = 0) {data : Buf}
    (hdata : HoldsBlock f info data) (w : Webm) {base : UInt64}
    (hbase : ownOffset (f.timecode p.cluster) w = base + w.nodeTimecodeOffset) :
    ∃ data', changeFirstBlock data (beginBlock info w) = .ok ({ beginBlock info w with
        timecodeOffset := base + w.nodeTimecodeOffset
        isGetTimecodeOffset := true }, data') ∧
      (data'.drop blockinfoBytes).take info.bytes.toNat = (f.rebased base).cutBytes info := by
  obtain ⟨q, rest, hcluster, hbytes, hrebased⟩ := h.cutBytes_first hfirst
  have hseq : (beginBlock info w).currentBlock.info.seq = firstBlockSeq :=
    h.seq_eq_first_iff.mpr hfirst
  have hvalue : f.timecode p.cluster = UInt64.ofNat (ofBe q.timecode.data) := by
    rw [StreamFile.timecode, hcluster]
    rfl
  have hoffsets := beginBlock_offsets info w
  simp only [Webm.offsets, Offsets.mk.injEq] at hoffsets
  obtain ⟨hown, hget, hparent⟩ := hoffsets
  have hsame : ownOffset (UInt64.ofNat (ofBe q.timecode.data)) (beginBlock info w) =
      base + w.nodeTimecodeOffset := by
    rw [← hbase, hvalue]
    simp only [ownOffset, hown, hget, hparent]
  have hholds := hdata.holds
  rw [hbytes] at hholds
  obtain ⟨payload', hchange, hpayload⟩ :=
    changeTimecode_element q.isTimecode (beginBlock info w) hholds
  rw [hsame, hparent] at hpayload
  rw [hsame] at hchange
  -- the parent's offset is added and subtracted
  have hcancel : UInt64.ofNat (ofBe q.timecode.data) + w.nodeTimecodeOffset -
      (base + w.nodeTimecodeOffset) = UInt64.ofNat (ofBe q.timecode.data) - base := by
    grind
  rw [hcancel] at hpayload
  refine ⟨data.splice blockinfoBytes payload', ?_, ?_⟩
  · rw [changeFirstBlock, if_pos hseq, hchange]
    rfl
  · have hlength := (nextBlock_rebased base h).length_cutBytes
    rw [splice_drop, ← hlength, hrebased base]
    exact Buf.holds_take.mp hpayload

end FirstBlocks

/-! ## The stream -/

/-- The first of the blocks that open a cluster. -/
def firstOpened (got : List BlockInfo) : Option BlockInfo :=
  got.find? fun info => info.seq = firstBlockSeq

/-- What the Timecodes are rebased by: the Timecode of the cluster that was opened first. -/
def StreamFile.base (f : StreamFile) (got : List BlockInfo) : UInt64 :=
  ((firstOpened got).map fun info => f.timecode info.clusterSeq.toNat).getD 0

/-- Behind the blocks `got` of a stream from cluster `first` on. -/
structure Receiving (f : StreamFile) (first : UInt16) (got : List BlockInfo) (w : Webm) : Prop where
  marks : ∃ previous, Matches ⟨previous, (got.map BlockInfo.pair).getLastD (first, 0)⟩ w
  isGet : w.isGetTimecodeOffset = (firstOpened got).isSome
  offset : w.isGetTimecodeOffset = true → w.timecodeOffset = f.base got + w.nodeTimecodeOffset

theorem firstOpened_concat (got : List BlockInfo) (info : BlockInfo) :
    firstOpened (got ++ [info]) =
      (firstOpened got).or (if info.seq = firstBlockSeq then some info else none) := by
  rw [firstOpened, List.find?_append, List.find?_singleton]
  simp only [decide_eq_true_eq]
  rfl

theorem Receiving.store {f : StreamFile} {first : UInt16} {got : List BlockInfo} {w : Webm}
    (h : Receiving f first got w) {p : Place} {info : BlockInfo} (hnext : NextBlock f p info)
    (hfirst : first.toNat ≤ p.cluster)
    (hnew : Before ((got.map BlockInfo.pair).getLastD (first, 0)) info.pair) {data : Buf}
    (hdata : HoldsBlock f info data) (k : UInt16) :
    ∃ w', assembleBlock data k w = .ok w' ∧ isOldBlockSeq info w = false ∧
      Receiving f first (got ++ [info]) w' ∧ w'.nodeTimecodeOffset = w.nodeTimecodeOffset ∧
      writtenBlock data w = (f.rebased (f.base (got ++ [info]))).cutBytes info := by
  obtain ⟨previous, hmatches⟩ := h.marks
  let packet := hnext.packet hfirst hdata k
  have hpair : packet.pair = info.pair := by
    show ((copyBytesToBlockInfo data).clusterSeq, (copyBytesToBlockInfo data).seq) = _
    rw [hdata.record]
    rfl
  have hrecord : packet.info = info := hdata.record
  have hnot : ¬ Progress.Caught _ packet.pair := fun hc =>
    caught_not_newer packet hmatches hc (hpair.symm ▸ hnew)
  obtain ⟨w', hassemble, -, hkeep⟩ := assembleBlock_store packet hmatches hnot
  have hassemble : assembleBlock data k w = .ok w' := hassemble
  have hold : isOldBlockSeq info w = false := by
    rw [← hrecord, Bool.eq_false_iff]
    exact fun hc => hnot ((isOldBlockSeq_iff packet hmatches).mp hc)
  have hstore : storeBlock data (k - UInt16.ofNat blockinfoBytes) w = .ok w' := by
    have heq := assembleBlock_eq packet hmatches.allocated
    rw [hrecord, hold, if_neg Bool.false_ne_true] at heq
    exact heq.symm.trans hassemble
  have hmarks : ∃ previous,
      Matches ⟨previous, ((got ++ [info]).map BlockInfo.pair).getLastD (first, 0)⟩ w' := by
    have hlast : ((got ++ [info]).map BlockInfo.pair).getLastD (first, 0) = info.pair := by
      rw [List.map_append, List.map_singleton, List.getLastD_concat]
    rw [hlast]
    exact ⟨_, hpair ▸ hkeep (hpair.symm ▸ hnew)⟩
  refine ⟨w', hassemble, hold, ?_⟩
  by_cases hopens : p.blocks = 0
  · -- the first block of a cluster
    have hseq := hnext.seq_eq_first_iff.mpr hopens
    have hbase : ownOffset (f.timecode p.cluster) w =
        f.base (got ++ [info]) + w.nodeTimecodeOffset := by
      rw [ownOffset, StreamFile.base, firstOpened_concat, if_pos hseq]
      cases hfound : firstOpened got with
      | none =>
          have hget : w.isGetTimecodeOffset = false := by rw [h.isGet, hfound]; rfl
          rw [hget, if_neg Bool.false_ne_true, Option.none_or, Option.map_some, Option.getD_some,
            hnext.cluster]
      | some opened =>
          have hget : w.isGetTimecodeOffset = true := by rw [h.isGet, hfound]; rfl
          rw [if_pos hget, h.offset hget, StreamFile.base, hfound]
          rfl
    obtain ⟨data', hchange, hwritten⟩ := hnext.written_first hopens hdata w hbase
    have hwrittenBlock : writtenBlock data w =
        (f.rebased (f.base (got ++ [info]))).cutBytes info := by
      rw [writtenBlock, hdata.record, hchange]
      exact hwritten
    rw [storeBlock, hdata.record, hchange] at hstore
    have hend := endBlock_offsets data' (k - UInt16.ofNat blockinfoBytes) { beginBlock info w with
      timecodeOffset := f.base (got ++ [info]) + w.nodeTimecodeOffset
      isGetTimecodeOffset := true }
    have hbegin := beginBlock_offsets info w
    rw [Except.ok.inj hstore] at hend
    simp only [Webm.offsets, Offsets.mk.injEq] at hend hbegin
    obtain ⟨hown, hget, hparent⟩ := hend
    have hparent := hparent.trans hbegin.2.2
    refine ⟨⟨hmarks, ?_, fun _ => ?_⟩, hparent, hwrittenBlock⟩
    · rw [hget, firstOpened_concat, if_pos hseq]
      cases firstOpened got <;> rfl
    · rw [hown, hparent]
  · have hseq : info.seq ≠ firstBlockSeq := fun hseq => hopens (hnext.seq_eq_first_iff.mp hseq)
    have hopened : firstOpened (got ++ [info]) = firstOpened got := by
      rw [firstOpened_concat, if_neg hseq, Option.or_none]
    have hbase : f.base (got ++ [info]) = f.base got := by
      rw [StreamFile.base, hopened]
      rfl
    have hoffsets := storeBlock_offsets hstore (by rw [hdata.record]; exact hseq)
    simp only [Webm.offsets, Offsets.mk.injEq] at hoffsets
    obtain ⟨hown, hget, hparent⟩ := hoffsets
    refine ⟨⟨hmarks, ?_, fun hisGet => ?_⟩, hparent, ?_⟩
    · rw [hget, h.isGet, hopened]
    · rw [hown, hparent, hbase]
      exact h.offset (hget.symm.trans hisGet)
    · have hlength := hnext.length_cutBytes
      rw [writtenBlock_of_ne (by rw [hdata.record]; exact hseq), hdata.record,
        hnext.cutBytes_rebased _ hopens, ← hlength]
      exact Buf.holds_take.mp hdata.holds

/-! ## What is stored -/

/-- Blocks of the file from cluster `first` on, some or all of them, in order. -/
structure Selection (f : StreamFile) (first : Nat) (got : List BlockInfo) : Prop where
  blocks : ∀ info ∈ got, ∃ p, first ≤ p.cluster ∧ NextBlock f p info
  increasing : (got.map BlockInfo.pair).Pairwise Before

/-- The history of a peer that was sent the blocks. -/
def StreamFile.stored (f : StreamFile) (got : List BlockInfo) : History :=
  got.map fun info => (info.clusterSeq, (f.rebased (f.base got)).cutBytes info)

section Stored

variable {f : StreamFile} {first : Nat} {got got' : List BlockInfo} {info : BlockInfo}

theorem selection_of_run {p r : Place} {sent : List BlockInfo} (hrun : Run (CutStep f) p sent r) :
    Selection f p.cluster sent :=
  ⟨run_next hrun, (run_increasing hrun).2⟩

theorem Selection.sublist (h : Selection f first got) (hsub : got'.Sublist got) :
    Selection f first got' :=
  ⟨fun info hinfo => h.blocks info (hsub.subset hinfo), h.increasing.sublist (hsub.map _)⟩

theorem Selection.newer {first : UInt16} (h : Selection f first.toNat (got ++ [info])) :
    Before ((got.map BlockInfo.pair).getLastD (first, 0)) info.pair := by
  rcases List.eq_nil_or_concat got with rfl | ⟨got, last, rfl⟩
  · obtain ⟨p, hle, hnext⟩ := h.blocks info (List.mem_append_right _ List.mem_cons_self)
    have hcluster := hnext.cluster
    have hseq := hnext.seq
    have hzero : (0 : UInt32).toNat = 0 := rfl
    simp only [List.map_nil, List.getLastD_nil, Before, BlockInfo.pair, UInt16.lt_iff_toNat_lt,
      UInt32.lt_iff_toNat_lt, ← UInt16.toNat_inj]
    omega
  · have hinc := h.increasing
    rw [List.map_append, List.pairwise_append] at hinc
    rw [List.concat_eq_append, List.map_append, List.map_singleton, List.getLastD_concat]
    exact hinc.2.2 _ (List.mem_map_of_mem (by simp)) _ (by simp)

theorem stored_concat (h : ∀ info ∈ got, ∃ p, NextBlock f p info) (info : BlockInfo) :
    f.stored (got ++ [info]) = f.stored got ++
      [(info.clusterSeq, (f.rebased (f.base (got ++ [info]))).cutBytes info)] := by
  rw [StreamFile.stored, List.map_append, List.map_singleton]
  refine congrArg (· ++ _) (List.map_congr_left fun other hother => ?_)
  obtain ⟨p, hnext⟩ := h other hother
  cases hfound : firstOpened got with
  | some opened =>
      have hsame : f.base (got ++ [info]) = f.base got := by
        rw [StreamFile.base, firstOpened_concat, hfound, StreamFile.base, hfound]
        rfl
      rw [hsame]
  | none =>
      have hlater : p.blocks ≠ 0 := fun hzero =>
        absurd (decide_eq_true (hnext.seq_eq_first_iff.mpr hzero))
          (List.find?_eq_none.mp hfound other hother)
      rw [hnext.cutBytes_rebased _ hlater, hnext.cutBytes_rebased _ hlater]

theorem Receiving.step {first : UInt16} {s : Node × History} (h : Receiving f first got s.1.webm)
    (hstored : s.2 = f.stored got) (hsel : Selection f first.toNat (got ++ [info])) {data : Buf}
    (hdata : HoldsBlock f info data) (env : Env) (k : UInt16) :
    ∃ w, StoreStep s (env, .block data k) ({ s.1 with webm := w }, f.stored (got ++ [info])) ∧
      Receiving f first (got ++ [info]) w ∧ assembleBlock data k s.1.webm = .ok w ∧
      isOldBlockSeq info s.1.webm = false := by
  obtain ⟨p, hle, hnext⟩ := hsel.blocks info (List.mem_append_right _ List.mem_cons_self)
  obtain ⟨w, hassemble, hold, hreceiving, -, hwritten⟩ :=
    h.store hnext hle hsel.newer hdata k
  refine ⟨w, ⟨?_, ?_⟩, hreceiving, hassemble, hold⟩
  · show (do let webm ← assembleBlock data k s.1.webm; return { s.1 with webm }) = _
    rw [hassemble]
    rfl
  · have hbefore : ∀ info ∈ got, ∃ p, NextBlock f p info := fun other hother =>
      let ⟨q, _, hq⟩ := hsel.blocks other (List.mem_append_left _ hother)
      ⟨q, hq⟩
    have haccepted : accepted s.1 (.block data k) =
        [(info.clusterSeq, (f.rebased (f.base (got ++ [info]))).cutBytes info)] := by
      simp only [accepted, hdata.record, hold, Bool.false_eq_true, if_false, hwritten]
    show f.stored (got ++ [info]) = s.2 ++ accepted s.1 (.block data k)
    rw [haccepted, hstored, stored_concat hbefore]

end Stored

/-! ## The whole stream -/

/-- The clusters of `f` from `first` on, as far as `p`: the last of them is open, and is the
one before that of `p` where `p` is at the head of a cluster that is not begun. -/
structure CopiedTo (f : StreamFile) (first : Nat) (p : Place) (s : Stored) : Prop where
  first_le : first ≤ s.last.seq.toNat
  closed : s.closed.map (fun c => (c.seq.toNat, c.payload)) =
    (List.range' first (s.last.seq.toNat - first)).map fun c => (c, f.payload c)
  last : (s.last.seq.toNat = p.cluster ∧ s.last.payload = (f.payload p.cluster).take p.bytes) ∨
    (s.last.seq.toNat + 1 = p.cluster ∧ p.bytes = 0 ∧
      s.last.payload = f.payload s.last.seq.toNat)

section Copied

variable {f : StreamFile} {first : Nat} {p r : Place} {s : Stored} {info : BlockInfo}
variable {got : List BlockInfo}

theorem CopiedTo.store (h : CopiedTo f first p s) (hnext : NextBlock f p info) :
    (s.store info.clusterSeq (f.cutBytes info)).last.seq.toNat = p.cluster ∧
      CopiedTo f first ⟨p.cluster, p.bytes + info.bytes.toNat, p.blocks + 1⟩
        (s.store info.clusterSeq (f.cutBytes info)) := by
  have hle := h.first_le
  have hcluster := hnext.cluster
  rcases h.last with ⟨hseq, hpayload⟩ | ⟨hseq, hzero, hpayload⟩
  · have hsame : info.clusterSeq = s.last.seq := by
      rw [← UInt16.toNat_inj, hcluster, hseq]
    have hstore : s.store info.clusterSeq (f.cutBytes info) =
        ⟨s.closed, ⟨s.last.seq, s.last.blocks ++ [f.cutBytes info]⟩⟩ := by
      rw [Stored.store, if_pos hsame, hsame]
    rw [hstore]
    refine ⟨hseq, hle, h.closed, .inl ⟨hseq, ?_⟩⟩
    rw [StoredCluster.payload, List.flatten_append, List.flatten_singleton, List.take_add,
      ← hpayload, ← hnext.cutBytes_eq]
    rfl
  · have hother : info.clusterSeq ≠ s.last.seq := by
      rw [Ne, ← UInt16.toNat_inj]
      omega
    have hstore : s.store info.clusterSeq (f.cutBytes info) =
        ⟨s.closed ++ [s.last], ⟨info.clusterSeq, [f.cutBytes info]⟩⟩ := by
      rw [Stored.store, if_neg hother]
    have hrange : info.clusterSeq.toNat - first = (s.last.seq.toNat - first) + 1 := by omega
    have hlast : first + (s.last.seq.toNat - first) = s.last.seq.toNat := by omega
    rw [hstore]
    refine ⟨hcluster, by show first ≤ info.clusterSeq.toNat; omega, ?_, .inl ⟨hcluster, ?_⟩⟩
    · show (s.closed ++ [s.last]).map _ =
        (List.range' first (info.clusterSeq.toNat - first)).map _
      rw [hrange, List.range'_concat, List.map_append, List.map_append, h.closed, Nat.one_mul,
        hlast, List.map_singleton, List.map_singleton, hpayload]
    · rw [StoredCluster.payload, List.flatten_singleton, hnext.cutBytes_eq, hzero, List.drop_zero,
        Nat.zero_add]

theorem CopiedTo.step (h : CopiedTo f first p s) (hstep : CutStep f p info r) :
    CopiedTo f first r (s.store info.clusterSeq (f.cutBytes info)) := by
  cases hstep with
  | block hnext => exact (h.store hnext).2
  | ends hnext hend =>
      obtain ⟨hseq, hfirst, hclosed, hlast⟩ := h.store hnext
      refine ⟨hfirst, hclosed, .inr ⟨by rw [hseq], rfl, ?_⟩⟩
      have hpayload := (hlast.resolve_right fun hbefore =>
        absurd (hbefore.1.trans hseq.symm) (Nat.succ_ne_self _)).2
      rw [hpayload, hseq, hend, List.take_length]

theorem CopiedTo.run (hrun : Run (CutStep f) p got r) (h : CopiedTo f first p s) :
    CopiedTo f first r
      (got.foldl (fun s info => s.store info.clusterSeq (f.cutBytes info)) s) := by
  induction hrun generalizing s with
  | nil p => exact h
  | cons hfirst _ ih => exact ih (h.step hfirst)

theorem copiedTo_start (f : StreamFile) (seq : UInt16) :
    CopiedTo f seq.toNat ⟨seq.toNat, 0, 0⟩ (Stored.start seq) where
  first_le := le_refl _
  closed := by
    show [] = (List.range' seq.toNat (seq.toNat - seq.toNat)).map _
    rw [Nat.sub_self]
    rfl
  last := .inl ⟨rfl, by rw [List.take_zero]; rfl⟩

theorem copiedTo_stored {seq : UInt16} (hrun : Run (CutStep f) ⟨seq.toNat, 0, 0⟩ got r) :
    CopiedTo (f.rebased (f.base got)) seq.toNat r (Stored.of seq (f.stored got)) := by
  have hrebased := hrun.mono fun _ _ _ => cutStep_rebased (f.base got)
  have hcopied := CopiedTo.run hrebased (copiedTo_start (f.rebased (f.base got)) seq)
  rwa [Stored.of, StreamFile.stored, List.foldl_map]

theorem StreamFile.flatMap_clusters (f : StreamFile) {c n : Nat} (h : c + n ≤ f.clusters.length) :
    (List.range' c n).flatMap (fun d => clusterHeader (f.payload d).length ++ f.payload d) =
      ((f.clusters.drop c).take n).flatMap ClusterPayload.clusterBytes := by
  induction n generalizing c with
  | zero => simp
  | succ n ih =>
      have hc : c < f.clusters.length := by omega
      have hpayload : f.payload c = f.clusters[c].bytes := by
        rw [StreamFile.payload, List.getElem?_eq_getElem hc]
        rfl
      rw [List.range'_succ, List.flatMap_cons, ih (by omega), List.drop_eq_getElem_cons hc,
        List.take_succ_cons, List.flatMap_cons, hpayload]
      rfl

theorem CopiedTo.closedBytes_eq (h : CopiedTo f first p s)
    (hlt : s.last.seq.toNat ≤ f.clusters.length) :
    s.closed.flatMap StoredCluster.closedBytes =
      ((f.clusters.drop first).take (s.last.seq.toNat - first)).flatMap
        ClusterPayload.clusterBytes := by
  let bytes (c : Nat × List UInt8) : List UInt8 := clusterHeader c.2.length ++ c.2
  have hle := h.first_le
  have hlength : ∀ c ∈ s.closed, c.payload.length < 2 ^ 56 := by
    intro c hc
    have hmem := List.mem_map_of_mem (f := fun c : StoredCluster => (c.seq.toNat, c.payload)) hc
    rw [h.closed] at hmem
    obtain ⟨d, hd, heq⟩ := List.mem_map.mp hmem
    rw [List.mem_range'_1] at hd
    have hsmall := f.payload_lt (show d < f.clusters.length by omega)
    have hunknown : unknownSize = 2 ^ 56 - 1 := rfl
    have hpayload : f.payload d = c.payload := congrArg Prod.snd heq
    rw [← hpayload]
    omega
  calc s.closed.flatMap StoredCluster.closedBytes
      = s.closed.flatMap fun c => bytes (c.seq.toNat, c.payload) :=
        List.flatMap_congr fun c hc => c.closedBytes_eq (hlength c hc)
    _ = (s.closed.map fun c => (c.seq.toNat, c.payload)).flatMap bytes := by
        rw [List.flatMap_map]
    _ = (List.range' first (s.last.seq.toNat - first)).flatMap fun c => bytes (c, f.payload c) := by
        rw [h.closed, List.flatMap_map]
    _ = _ := f.flatMap_clusters (by omega)

end Copied

end P2PStream
