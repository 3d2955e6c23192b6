/-
# `P2PStream.Peer.Offsets` — finding a stored cluster again

`CalOffset` counts Cluster headers from `FIRST_CLUSTER_SEQ`, the number of the first
block stored.  It finds a cluster when the clusters of the file are numbered one after
another from there: no number may be missing, and the first block must be of the
cluster that InitialStatus announced, or the empty cluster in front shifts the count.

The headers are read up to `TOTAL_FILE_BYTES`, which at a peer leaves out the headers
that `RenewClusterForWrite` has written.
-/
import P2PStream.Peer.WellFormed

namespace P2PStream

open Lib

/-- The cursor at the start of cluster `number`, as `RenewBlock` leaves it. -/
def clusterCursor (number : UInt16) : BlockInfo :=
  { BlockInfo.zero with
    status := statusInit
    clusterSeq := number
    pos := UInt32.ofNat clusterHeaderBytes }

/-- `CalOffset` leads behind the header of every closed cluster. -/
def FindsClusters (seq : UInt16) (header : List UInt8) (s : Node × History) : Prop :=
  ∀ j c, (clustersOf seq s.2).dropLast[j]? = some c → ∀ stale,
    (calOffset stale (clusterCursor c.seq) s.1.webm).2 =
      ((header ++ ((clustersOf seq s.2).take j).flatMap StoredCluster.bytes).length +
        clusterHeaderBytes : Nat)

/-! ## What can be found -/

/-- The payloads of the closed clusters. -/
def Stored.payloads (s : Stored) : List (List UInt8) := s.closed.map StoredCluster.payload

/-- The clusters are numbered from `seq` on. -/
def Stored.Consecutive (seq : UInt16) (s : Stored) : Prop :=
  s.clusters.map (fun c => c.seq.toNat) = List.range' seq.toNat s.clusters.length

/-- `CalOffset` can walk over the closed clusters but the last. -/
structure Stored.Walkable (header : List UInt8) (s : Stored) (total : Int) : Prop where
  size : ∀ c ∈ s.closed, c.payload.length < unknownSize
  length : (s.fileBytes header).length < 2 ^ 63
  inView : ∀ j, j + 1 < s.closed.length → InView total (clusterOffset header s.payloads j)

section Numbers

variable {seq : UInt16} {s : Stored}

theorem Stored.Consecutive.seq_eq (h : s.Consecutive seq) {j : Nat} {c : StoredCluster}
    (hc : s.clusters[j]? = some c) : c.seq.toNat = seq.toNat + j := by
  obtain ⟨hj, -⟩ := List.getElem?_eq_some_iff.mp hc
  have hnumber := congrArg (fun l : List Nat => l[j]?) h
  rw [List.getElem?_map, hc, List.getElem?_range' hj, Nat.one_mul] at hnumber
  exact Option.some.inj hnumber

theorem Stored.Consecutive.last_eq (h : s.Consecutive seq) :
    s.last.seq.toNat = seq.toNat + s.closed.length := by
  refine h.seq_eq ?_
  rw [clusters, List.getElem?_append_right (le_refl _), Nat.sub_self]
  rfl

theorem Stored.Consecutive.store (h : s.Consecutive seq) {number : UInt16}
    (hnumber : number = s.last.seq ∨ number.toNat = s.last.seq.toNat + 1) (block : List UInt8) :
    (s.store number block).Consecutive seq := by
  have hlast := h.last_eq
  rw [Stored.store]
  split
  · next heq =>
    unfold Stored.Consecutive clusters at h ⊢
    rw [List.map_append, List.length_append] at h ⊢
    rw [heq]
    exact h
  · next hne =>
    have hnext := hnumber.resolve_left hne
    have hlength : s.clusters.length = s.closed.length + 1 := List.length_append
    show (s.clusters ++ [StoredCluster.mk number [block]]).map _ =
      List.range' _ (s.clusters ++ [StoredCluster.mk number [block]]).length
    rw [List.map_append, h, List.length_append, List.length_singleton, List.range'_concat,
      List.map_singleton, hnext, hlast, hlength]
    rw [Nat.one_mul, Nat.add_assoc]

end Numbers

/-! ## The invariant -/

/-- A peer whose clusters are in place. -/
structure Findable (seq : UInt16) (header : List UInt8) (s : Node × History) : Prop where
  described : Described seq header s
  headerBytes : s.1.webm.webmHeaderTotalBytes.toNat = header.length
  isFirst : s.2 ≠ [] → s.1.webm.isFirstCluster = false
  first : s.1.webm.isFirstCluster = false → s.1.webm.firstClusterSeq = seq.toUInt32
  consecutive : (Stored.of seq s.2).Consecutive seq
  walkable : (Stored.of seq s.2).Walkable header s.1.webm.totalFileBytes

theorem Stored.fileBytes_prefix {header : List UInt8} {s : Stored}
    (hsize : ∀ c ∈ s.closed, c.payload.length < unknownSize) :
    header ++ s.payloads.flatMap clusterBytes <+: s.fileBytes header := by
  have hclosed : s.payloads.flatMap clusterBytes = s.closed.flatMap StoredCluster.bytes :=
    List.flatMap_map ..
  rw [hclosed, Stored.fileBytes, Stored.front, flatMap_closedBytes hsize]
  exact List.prefix_append _ _

theorem Stored.clusterOffset_eq {header : List UInt8} {s : Stored} {j : Nat}
    (hj : j ≤ s.closed.length) :
    clusterOffset header s.payloads j =
      (header ++ (s.clusters.take j).flatMap StoredCluster.bytes).length := by
  rw [clusterOffset, Stored.payloads, ← List.map_take, List.flatMap_map, List.length_append,
    Stored.clusters, List.take_append_of_le_length hj]
  rfl

theorem Findable.findsClusters {seq : UInt16} {header : List UInt8} {s : Node × History}
    (h : Findable seq header s) : FindsClusters seq header s := by
  intro j c hc stale
  have hstores : Stores header (Stored.of seq s.2) s.1.webm := h.described
  have hfile := hstores.file
  have hconsecutive := h.consecutive
  have hwalkable := h.walkable
  rw [← Stored.of_clusters] at hc ⊢
  have hnil : (Stored.of seq s.2).closed ≠ [] → s.2 ≠ [] := by
    intro hclosed hempty
    rw [hempty] at hclosed
    exact hclosed rfl
  generalize Stored.of seq s.2 = t at *
  rw [Stored.clusters, List.dropLast_concat] at hc
  obtain ⟨hj, -⟩ := List.getElem?_eq_some_iff.mp hc
  have hin : t.clusters[j]? = some c := by rw [Stored.clusters, List.getElem?_append_left hj, hc]
  have hseq := hconsecutive.seq_eq hin
  have hfirst := h.first (h.isFirst (hnil (List.ne_nil_of_length_pos (by omega))))
  have hlt := c.seq.toNat_lt
  have hcount :
      ((clusterCursor c.seq).clusterSeq.toUInt32 - s.1.webm.firstClusterSeq).toNat = j := by
    rw [hfirst]
    have hle : seq.toUInt32 ≤ c.seq.toUInt32 := by
      rw [UInt32.le_iff_toNat_le, UInt16.toNat_toUInt32, UInt16.toNat_toUInt32]
      omega
    show (c.seq.toUInt32 - seq.toUInt32).toNat = j
    rw [UInt32.toNat_sub_of_le _ _ hle, UInt16.toNat_toUInt32, UInt16.toNat_toUInt32]
    omega
  have hlength : t.payloads.length = t.closed.length := List.length_map _
  have hprefix : header ++ t.payloads.flatMap clusterBytes <+: s.1.webm.file := by
    rw [hfile]
    exact Stored.fileBytes_prefix hwalkable.size
  have hbound := clusterOffset_le hprefix (j + 1)
  have hnext := clusterOffset_succ header (show j < t.payloads.length by omega)
  have hlimit := hwalkable.length
  rw [← hfile] at hlimit
  have hsum : ((clusterCursor c.seq).pos + (clusterCursor c.seq).bytes.toUInt32).toNat =
      clusterHeaderBytes := rfl
  obtain ⟨x, hoffset⟩ := calOffset_clusters stale (by
      intro p hp
      obtain ⟨d, hd, rfl⟩ := List.mem_map.mp hp
      exact hwalkable.size d hd)
    hprefix hlimit h.headerBytes hcount (by omega)
    (fun i hi => hwalkable.inView i (by omega)) (by rw [hsum]; omega)
  rw [hoffset, hsum, Stored.clusterOffset_eq (by omega)]

/-! ## Runs -/

/-- A packet of cluster `number` that the filter lets through keeps the clusters in place. -/
structure InSequence (seq : UInt16) (header : List UInt8) (s : Node × History) (data : Buf)
    (k : UInt16) : Prop where
  /-- The first block is of the cluster of InitialStatus; later ones are of the open cluster or
  of the next. -/
  number : (copyBytesToBlockInfo data).clusterSeq = s.1.webm.currentBlock.prev.clusterSeq ∨
    s.1.webm.isFirstCluster = false ∧ (copyBytesToBlockInfo data).clusterSeq.toNat =
      s.1.webm.currentBlock.prev.clusterSeq.toNat + 1
  /-- Sizes and offsets fit their fields, and `TOTAL_FILE_BYTES` lies inside of no header that
  `CalOffset` walks over. -/
  walkable : ((Stored.of seq s.2).store (copyBytesToBlockInfo data).clusterSeq
    (writtenBlock data s.1.webm)).Walkable header
      (s.1.webm.totalFileBytes + (k - UInt16.ofNat blockinfoBytes).toNat)

/-- Behind the WebM header, and every block stored follows the ones before it. -/
def InPlace (seq : UInt16) (header : List UInt8) (s : Node × History) (l : Env × Event) : Prop :=
  Streams s l ∧ ∀ data k, l.2 = .block data k →
    isOldBlockSeq (copyBytesToBlockInfo data) s.1.webm = false → InSequence seq header s data k

theorem findable_start {seq : UInt16} {header : List UInt8} {n : Node}
    (hjoined : Joined seq header n) : Findable seq header (n, []) := by
  have hwebm := hjoined.webm
  refine ⟨hwebm.stores, hwebm.headerBytes, fun h => absurd rfl h, fun hfirst => ?_, rfl, ?_⟩
  · rw [hwebm.isFirst] at hfirst
    cases hfirst
  · refine ⟨fun c hc => absurd hc List.not_mem_nil, ?_, fun j hj => absurd hj (Nat.not_lt_zero _)⟩
    have hlength := (Stored.start seq).last.length_openBytes
    have hheader := hwebm.headerBytes
    have hlt := n.webm.webmHeaderTotalBytes.toNat_lt
    have hpayload : (Stored.start seq).last.payload.length = 0 := rfl
    have hfront : ((Stored.start seq).front header).length = header.length := by
      rw [Stored.front, Stored.start, List.flatMap_nil, List.append_nil]
    show ((Stored.start seq).fileBytes header).length < 2 ^ 63
    rw [Stored.fileBytes, List.length_append, hlength, hpayload, hfront, clusterHeaderBytes]
    omega

theorem findable_step {seq : UInt16} {header : List UInt8} {s t : Node × History}
    {l : Env × Event} (h : Findable seq header s) (hl : InPlace seq header s l)
    (hstep : StoreStep s l t) : Findable seq header t := by
  have hdescribed := storeStep_described h.described hl.1 hstep
  have hstores : Stores header (Stored.of seq s.2) s.1.webm := h.described
  rcases storeStep_cases hl.1 hstep with
    ⟨hhistory, hsame⟩ | ⟨data, k, hevent, hold, -, hstore, hhistory⟩
  · obtain ⟨_, _, _, _, -, hwebm⟩ := hsame
    refine ⟨hdescribed, ?_, ?_, ?_, ?_, ?_⟩
    · rw [hwebm]; exact h.headerBytes
    · rw [hwebm, hhistory]; exact h.isFirst
    · rw [hwebm]; exact h.first
    · rw [hhistory]; exact h.consecutive
    · rw [hhistory, hwebm]; exact h.walkable
  · obtain ⟨hnumber, hwalkable⟩ := hl.2 data k hevent hold
    obtain ⟨hcounts, -⟩ := storeBlock_counts hstore
    simp only [Webm.counts, Counts.mk.injEq] at hcounts
    obtain ⟨hisFirst, hfirst, htotal, hheader, -, -, -⟩ := hcounts
    have hprev := hstores.prev
    refine ⟨hdescribed, by rw [hheader]; exact h.headerBytes, fun _ => hisFirst, fun _ => ?_, ?_,
      ?_⟩
    · rw [hfirst]
      split
      · next hnone =>
        have hempty : s.2 = [] := by
          by_contra hne
          rw [h.isFirst hne] at hnone
          cases hnone
        have hannounced : s.1.webm.currentBlock.prev.clusterSeq = seq := by
          rw [hprev, hempty]
          rfl
        rw [hnumber.resolve_right (by rw [hnone]; exact fun hfalse => Bool.noConfusion hfalse.1),
          hannounced]
      · next hsome => exact h.first (Bool.eq_false_iff.mpr hsome)
    · rw [hhistory, Stored.of_concat]
      refine h.consecutive.store ?_ _
      rw [← hprev]
      exact hnumber.imp_right And.right
    · rw [hhistory, Stored.of_concat, htotal]
      exact hwalkable

/-- In every run whose blocks follow one another, `CalOffset` finds every closed cluster. -/
theorem run_findsClusters {seq : UInt16} {header : List UInt8} {n : Node}
    {ls : List (Env × Event)} {t : Node × History} (hjoined : Joined seq header n)
    (hrun : Run (Guarded StoreStep (InPlace seq header)) (n, []) ls t) :
    FindsClusters seq header t := by
  have hstart : Findable seq header (n, []) := findable_start hjoined
  exact (hrun.guarded_invariant (fun _ _ _ h hl hstep => findable_step h hl hstep)
    hstart).findsClusters

/-! ## A lost cluster -/

def byteOf7 : BlockPacket 0 where
  data := bytePacket 7
  bytes := 19
  first_le := by decide
  seq_pos := by decide
  timecode := fun h => absurd h (by decide)
  not_end := by decide

theorem walkable_of_le_one {header : List UInt8} {s : Stored} (total : Int)
    (hclosed : s.closed.length ≤ 1) (hsize : ∀ c ∈ s.closed, c.payload.length < unknownSize)
    (hlength : (s.fileBytes header).length < 2 ^ 63) : s.Walkable header total :=
  ⟨hsize, hlength, fun j hj => absurd hj (by omega)⟩

/-- A block of cluster 5 and one of cluster 6. -/
theorem run_findsClusters_two : ∃ n n' ls, Joined 5 footer n ∧
    Run (Guarded StoreStep (InPlace 5 footer)) (n, []) ls (n', [(5, [0]), (6, [0])]) ∧
    FindsClusters 5 footer (n', [(5, [0]), (6, [0])]) := by
  obtain ⟨n, hjoined, hprev⟩ := exists_joined 5 footer (by decide)
  have hwebm := hjoined.webm
  have hstores := hwebm.stores
  obtain ⟨w, hstore, hfirst⟩ := exists_storeStep byteOf5 (by decide) (s := (n, []))
    (Env.clock ⟨3, 0⟩) hstores.allocated (by rw [hprev]; decide)
  obtain ⟨hcounts, hmarks⟩ := storeBlock_counts hstore
  simp only [Webm.counts, Counts.mk.injEq] at hcounts
  simp only [Webm.marks, Marks.mk.injEq] at hmarks
  have hprev' : w.prevCluster.seq = 0 := by
    rw [hmarks.2.1, if_pos (by rw [hstores.prev]; decide), hprev]
  obtain ⟨w', -, hsecond⟩ := exists_storeStep byteOf6 (by decide)
    (s := ({ n with webm := w }, [(5, [0])])) (Env.clock ⟨3, 0⟩)
    (hmarks.1.trans hstores.allocated) (by rw [hprev']; decide)
  have hrun : Run (Guarded StoreStep (InPlace 5 footer)) (n, []) _ _ :=
    .cons ⟨⟨hfirst.1, ?_⟩, hfirst.2⟩ (.cons ⟨⟨hsecond.1, ?_⟩, hsecond.2⟩ (.nil _))
  · exact ⟨n, _, _, hjoined, hrun, run_findsClusters hjoined hrun⟩
  · rintro _ _ heq -
    cases heq
    refine ⟨.inl ?_, ?_⟩
    · rw [hstores.prev]
      decide
    · rw [writtenBlock_of_ne (by decide)]
      exact walkable_of_le_one (s := ⟨[], ⟨5, [[0]]⟩⟩) _ (by decide) (by decide) (by decide)
  · rintro _ _ heq -
    cases heq
    refine ⟨.inr ⟨hcounts.1, ?_⟩, ?_⟩
    · rw [hmarks.2.2.2.1]
      show (copyBytesToBlockInfo byteOf6.data).clusterSeq.toNat =
        (copyBytesToBlockInfo byteOf5.data).clusterSeq.toNat + 1
      decide
    · rw [writtenBlock_of_ne (by decide)]
      exact walkable_of_le_one (s := ⟨[⟨5, [[0]]⟩], ⟨6, [[0]]⟩⟩) _ (by decide) (by decide)
        (by decide)

/-- The peer joins at cluster 5, all of which is lost: cluster 6 is sought at the empty cluster
in front. -/
theorem lostCluster_offset : ∃ n t ls, Joined 5 footer n ∧
    Run (Guarded StoreStep Streams) (n, []) ls t ∧ ¬ FindsClusters 5 footer t := by
  obtain ⟨n, hjoined, hprev⟩ := exists_joined 5 footer (by decide)
  have hwebm := hjoined.webm
  have hstores := hwebm.stores
  obtain ⟨w, hstore, hfirst⟩ := exists_storeStep byteOf6 (by decide) (s := (n, []))
    (Env.clock ⟨3, 0⟩) hstores.allocated (by rw [hprev]; decide)
  obtain ⟨hcounts, hmarks⟩ := storeBlock_counts hstore
  simp only [Webm.counts, Counts.mk.injEq] at hcounts
  simp only [Webm.marks, Marks.mk.injEq] at hmarks
  have hprev' : w.prevCluster.seq = 5 := by
    rw [hmarks.2.1, if_neg (by rw [hstores.prev]; decide), hstores.seq]
    rfl
  obtain ⟨w', hstore', hsecond⟩ := exists_storeStep byteOf7 (by decide)
    (s := ({ n with webm := w }, [(6, [0])])) (Env.clock ⟨3, 0⟩)
    (hmarks.1.trans hstores.allocated) (by rw [hprev']; decide)
  obtain ⟨hcounts', -⟩ := storeBlock_counts hstore'
  simp only [Webm.counts, Counts.mk.injEq] at hcounts'
  have hfirstSeq : w'.firstClusterSeq = 6 := by
    rw [hcounts'.2.1, if_neg (by rw [hcounts.1]; decide), hcounts.2.1, if_pos hwebm.isFirst]
    decide
  have hheader : w'.webmHeaderTotalBytes.toNat = 12 := by
    rw [hcounts'.2.2.2.1, hcounts.2.2.2.1]
    exact hwebm.headerBytes
  refine ⟨n, _, _, hjoined, .cons hfirst (.cons hsecond (.nil _)), fun hfinds => ?_⟩
  have hclosed : (clustersOf 5 [(6, [0]), (7, [0])]).dropLast[1]? = some ⟨6, [[0]]⟩ := by decide
  have hoffset : (calOffset Buf.zero (clusterCursor 6) w').2 =
      ((footer ++ ((clustersOf 5 [(6, [0]), (7, [0])]).take 1).flatMap StoredCluster.bytes).length +
        clusterHeaderBytes : Nat) := hfinds 1 _ hclosed Buf.zero
  have hcount : ((clusterCursor 6).clusterSeq.toUInt32 - 6).toNat = 0 := by decide
  simp only [calOffset, hfirstSeq, hheader, hcount, calOffsetLoop] at hoffset
  exact absurd hoffset (by decide)

end P2PStream
