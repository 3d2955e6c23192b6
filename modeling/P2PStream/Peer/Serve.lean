/-
# `P2PStream.Peer.Serve` — a peer serves its children as the origin does

A peer that lacks no block of its parent's stream has a file of the same clusters, from the
one it was admitted at on, with other Timecodes: the `rebased` file.  `SendMulStream` cuts it
into blocks for the peer's own children.  What `CalOffset` finds and what the window shows is
the payload of a closed cluster with the header of the next one behind it, as at the origin,
so that the records are those of the rebased file: `CursorAt.relay`.

Two things have to be granted.  `TOTAL_FILE_BYTES` must not lie inside of a header or a window
that is read, and the cursor must not be in the cluster that is still open.
-/
import P2PStream.Peer.Relay
import P2PStream.Peer.Stream

namespace P2PStream

open Lib

/-! ## The file of a peer -/

namespace StreamFile

variable (f : StreamFile)

/-- The payloads from cluster `first` on. -/
def payloadsFrom (first : Nat) : List (List UInt8) :=
  (f.clusters.drop first).map ClusterPayload.bytes

/-- Where cluster `c` is in a file that has the clusters from `first` on. -/
def offsetFrom (first c : Nat) : Nat := clusterOffset f.header (f.payloadsFrom first) (c - first)

theorem length_payloadsFrom (first : Nat) :
    (f.payloadsFrom first).length = f.clusters.length - first := by
  rw [payloadsFrom, List.length_map, List.length_drop]

theorem payloadsFrom_getElem {first c : Nat} (hle : first ≤ c) (hc : c < f.clusters.length)
    (h : c - first < (f.payloadsFrom first).length) :
    (f.payloadsFrom first)[c - first] = f.payload c := by
  simp only [payloadsFrom, List.getElem_map, List.getElem_drop, Nat.add_sub_cancel' hle]
  rw [payload, List.getElem?_eq_getElem hc]
  rfl

theorem payloadsFrom_lt {first : Nat} {p : List UInt8} (hp : p ∈ f.payloadsFrom first) :
    p.length < unknownSize := by
  obtain ⟨q, hq, rfl⟩ := List.mem_map.mp hp
  exact f.size_lt q (List.mem_of_mem_drop hq)

theorem offsetFrom_succ {first c : Nat} (hle : first ≤ c) (hc : c < f.clusters.length) :
    f.offsetFrom first (c + 1) =
      f.offsetFrom first c + clusterHeaderBytes + (f.payload c).length := by
  have hin : c - first < (f.payloadsFrom first).length := by
    rw [f.length_payloadsFrom]
    omega
  have hnext := clusterOffset_succ f.header hin
  rw [f.payloadsFrom_getElem hle hc] at hnext
  rw [offsetFrom, Nat.sub_add_comm hle]
  exact hnext

theorem offsetFrom_le {first c : Nat} (hle : first ≤ c) (hc : c ≤ f.clusters.length) :
    f.offsetFrom first c ≤ f.clusterStart c := by
  induction c, hle using Nat.le_induction with
  | base =>
      rw [offsetFrom, Nat.sub_self, clusterOffset_zero, clusterStart]
      exact Nat.le_add_right _ _
  | succ c hle ih =>
      rw [f.offsetFrom_succ hle hc, f.clusterStart_succ hc]
      have := ih (by omega)
      omega

end StreamFile

/-! ## What the cursors go by -/

@[simp] theorem seekABSWebMW_headerData (offset : Int) (w : Webm) :
    (seekABSWebMW offset w).webmHeaderData = w.webmHeaderData := by
  simp only [seekABSWebMW, fsetpos]
  split <;> rfl

@[simp] theorem updateClusterToWebM_headerData (count : Nat) (w : Webm) :
    (updateClusterToWebM count w).webmHeaderData = w.webmHeaderData := by
  simp only [updateClusterToWebM, updateClusterDataBytesToWebM, seekABSWebMW_headerData]
  exact seekABSWebMW_headerData _ _

theorem beginBlock_headerData (info : BlockInfo) (w : Webm) :
    (beginBlock info w).webmHeaderData = w.webmHeaderData := by
  have hclose : ∀ v : Webm, (if v.currentBlockNum = 1 then
      { updateWebM (updateClusterToWebM 1 v) with
        currentBlockNum := 0
        currentBlockInfo := BlockInfo.zero }
    else v).webmHeaderData = v.webmHeaderData := by
    intro v
    split
    · exact (seekABSWebMW_headerData _ _).trans (updateClusterToWebM_headerData 1 v)
    · rfl
  refine (hclose _).trans ?_
  split <;> rfl

theorem insertBlockToCluster_headerData (data : Buf) (bytes : UInt16) (w : Webm) :
    (insertBlockToCluster data bytes w).webmHeaderData = w.webmHeaderData := by
  show Webm.webmHeaderData (if _ then _ else _) = _
  split
  · exact updateClusterToWebM_headerData w.currentBlockNum w
  · rfl

theorem storeBlock_headerData {data : Buf} {k : UInt16} {w w' : Webm}
    (h : storeBlock data k w = .ok w') : w'.webmHeaderData = w.webmHeaderData := by
  obtain ⟨⟨w₁, data'⟩, hchange, h⟩ := bind_eq_ok.mp h
  cases h
  obtain ⟨⟨_, _, rfl⟩, -⟩ := changeFirstBlock_ok hchange
  have hend (v : Webm) : (endBlock data' k v).webmHeaderData = v.webmHeaderData :=
    insertBlockToCluster_headerData data' v.currentBlock.info.bytes
      { v with latestBlockSeq := v.currentBlock.info.seq }
  rw [hend]
  exact beginBlock_headerData _ w

/-- What a child is admitted and served with, behind the blocks `got`: the header, the number of the
first cluster, which cluster is closed last, how many blocks there are, and that cursors are. -/
structure Indexes (f : StreamFile) (first : UInt16) (got : List BlockInfo) (w : Webm) : Prop where
  headerData : w.webmHeaderData = f.header
  headerBytes : w.webmHeaderTotalBytes.toNat = f.header.length
  isFirst : w.isFirstCluster = got.isEmpty
  firstSeq : ∀ info ∈ got.head?, w.firstClusterSeq = info.clusterSeq.toUInt32
  clusters : w.currentCluster.seq = first.toUInt32 ∨
    (first.toUInt32 ≤ w.prevCluster.seq ∧ w.prevCluster.seq < w.currentCluster.seq)
  total : w.totalBlockNum = UInt64.ofNat got.length
  childBlocks : w.childBlocksAllocated = true

section Indexes

variable {f : StreamFile} {first : UInt16} {got : List BlockInfo} {w w' : Webm} {info : BlockInfo}

theorem JoinedWebm.indexes (h : JoinedWebm first f.header w)
    (hheader : w.webmHeaderData = f.header) (htotal : w.totalBlockNum = 0) :
    Indexes f first [] w where
  headerData := hheader
  headerBytes := h.headerBytes
  isFirst := h.isFirst
  firstSeq := fun _ hnone => by cases hnone
  clusters := .inl h.stores.seq
  total := htotal
  childBlocks := h.childBlocks

theorem Indexes.sameWrites (h : Indexes f first got w) (hsame : SameWrites w w') :
    Indexes f first got w' := by
  obtain ⟨_, _, _, _, -, rfl⟩ := hsame
  exact ⟨h.headerData, h.headerBytes, h.isFirst, h.firstSeq, h.clusters, h.total, h.childBlocks⟩

theorem Indexes.store (h : Indexes f first got w) (hreceiving : Receiving f first got w)
    (hnew : Before ((got.map BlockInfo.pair).getLastD (first, 0)) info.pair) {data : Buf}
    {k : UInt16} (hrecord : copyBytesToBlockInfo data = info)
    (hstore : storeBlock data k w = .ok w') : Indexes f first (got ++ [info]) w' := by
  obtain ⟨previous, hmatches⟩ := hreceiving.marks
  generalize (got.map BlockInfo.pair).getLastD (first, 0) = newest at hnew hmatches
  obtain ⟨hcounts, hmarks⟩ := storeBlock_counts hstore
  simp only [Webm.counts, Counts.mk.injEq] at hcounts
  simp only [Webm.marks, Marks.mk.injEq] at hmarks
  obtain ⟨hisFirst, hfirst, -, hheaderBytes, -, hchildBlocks, -⟩ := hcounts
  obtain ⟨-, hprev, hcurrent, -, -, htotal⟩ := hmarks
  rw [hrecord] at hfirst hprev hcurrent
  refine ⟨(storeBlock_headerData hstore).trans h.headerData, by rw [hheaderBytes, h.headerBytes],
    by rw [hisFirst]; simp, ?_, ?_, by rw [htotal, h.total, List.length_append]; simp,
    hchildBlocks.trans h.childBlocks⟩
  · intro info' hinfo'
    rw [hfirst, h.isFirst]
    cases got with
    | nil =>
        cases hinfo'
        rfl
    | cons other got => exact h.firstSeq info' hinfo'
  · rw [hprev, hcurrent]
    by_cases hsame : w.currentBlock.prev.clusterSeq = info.clusterSeq
    · rw [if_pos hsame, if_pos hsame]
      exact h.clusters
    · rw [if_neg hsame, if_neg hsame]
      rw [hmatches.block] at hsame
      have hlt : newest.1 < info.clusterSeq := hnew.resolve_right fun heq => hsame heq.1
      refine .inr ⟨?_, by rw [hmatches.cluster]; exact UInt16.toUInt32_lt.mpr hlt⟩
      rcases h.clusters with heq | ⟨hle, hprev⟩
      · exact UInt32.le_of_eq heq.symm
      · exact UInt32.le_of_lt (UInt32.lt_of_le_of_lt hle hprev)

end Indexes

/-! ## A file that lacks no block -/

/-- What the number of the first cluster, the size of the header and the header itself are in a
peer. -/
structure Indexed (f : StreamFile) (first : UInt16) (w : Webm) : Prop where
  headerData : w.webmHeaderData = f.header
  headerBytes : w.webmHeaderTotalBytes.toNat = f.header.length
  isFirst : w.isFirstCluster = false
  first : w.firstClusterSeq = first.toUInt32

theorem Indexes.indexed {f : StreamFile} {first : UInt16} {got : List BlockInfo} {w : Webm}
    {info : BlockInfo} (h : Indexes f first (info :: got) w) (hinfo : info.clusterSeq = first) :
    Indexed f first w :=
  ⟨h.headerData, h.headerBytes, h.isFirst, hinfo ▸ h.firstSeq info rfl⟩

section File

variable {f : StreamFile} {first : UInt16} {s : Stored} {w : Webm} {p r : Place} {c : Nat}

theorem CopiedTo.front_eq (h : CopiedTo f first.toNat r s)
    (hlast : s.last.seq.toNat ≤ f.clusters.length) :
    s.front f.header = f.header ++ ((f.payloadsFrom first.toNat).take
      (s.last.seq.toNat - first.toNat)).flatMap clusterBytes := by
  rw [Stored.front, h.closedBytes_eq hlast, StreamFile.payloadsFrom, ← List.map_take,
    StreamFile.flatMap_contents]

theorem CopiedTo.length_file (h : CopiedTo f first.toNat r s)
    (hfile : w.file = s.fileBytes f.header)
    (hlast : s.last.seq.toNat < f.clusters.length) : w.file.length < 2 ^ 63 := by
  have hle := h.first_le
  have hpayload : s.last.payload.length ≤ (f.payload s.last.seq.toNat).length := by
    rcases h.last with ⟨hseq, hpayload⟩ | ⟨-, -, hpayload⟩
    · rw [hpayload, hseq]
      exact List.length_take_le' ..
    · exact le_of_eq (congrArg List.length hpayload)
  have hfront : (s.front f.header).length = f.offsetFrom first.toNat s.last.seq.toNat := by
    rw [h.front_eq (Nat.le_of_lt hlast), List.length_append]
    rfl
  have hoffset := f.offsetFrom_le hle (Nat.le_of_lt hlast)
  have hnext := f.clusterStart_succ hlast
  have htotal := f.clusterStart_le (s.last.seq.toNat + 1)
  have hlength := f.length_bytes
  rw [hfile, Stored.fileBytes, List.length_append, hfront, StoredCluster.length_openBytes]
  omega

theorem CopiedTo.hold (h : CopiedTo f first.toNat r s) (hfile : w.file = s.fileBytes f.header)
    (hlast : s.last.seq.toNat < f.clusters.length) (hindexed : Indexed f first w)
    (number : UInt16) (hle : first.toNat ≤ number.toNat) (hc : number.toNat < s.last.seq.toNat)
    (hview : ∀ d, first.toNat ≤ d → d < number.toNat →
      InView w.totalFileBytes (f.offsetFrom first.toNat d)) :
    ∃ around : Surroundings, around.Hold (f.payload number.toNat) number w ∧
      around.start = f.offsetFrom first.toNat number.toNat + clusterHeaderBytes := by
  let payloads := f.payloadsFrom first.toNat
  let count := s.last.seq.toNat - first.toNat
  let j := number.toNat - first.toNat
  have hlength : payloads.length = f.clusters.length - first.toNat := f.length_payloadsFrom _
  have hj : j < (payloads.take count).length := by
    rw [List.length_take]
    omega
  have hcount : (payloads.take j).length = j := by
    rw [List.length_take]
    omega
  have hpayload : (payloads.take count)[j] = f.payload number.toNat := by
    rw [List.getElem_take]
    exact f.payloadsFrom_getElem hle (by omega) _
  have hsplit : payloads.take count = payloads.take j ++
      f.payload number.toNat :: (payloads.take count).drop (j + 1) := by
    have htake : (payloads.take count).take j = payloads.take j := by
      rw [List.take_take, Nat.min_eq_left (by omega)]
    have hwhole := List.take_append_drop j (payloads.take count)
    rw [htake, List.drop_eq_getElem_cons hj, hpayload] at hwhole
    exact hwhole.symm
  let behind := ((payloads.take count).drop (j + 1)).flatMap clusterBytes ++ s.last.openBytes
  refine ⟨⟨f.header, payloads.take j, clusterHeader (f.payload number.toNat).length, behind⟩, ?_,
    ?_⟩
  · refine ⟨?_, length_clusterHeader _, ?_, ?_, h.length_file hfile hlast, hindexed.headerBytes, ?_,
      ?_⟩
    · rw [hfile, Stored.fileBytes, h.front_eq (Nat.le_of_lt hlast)]
      show f.header ++ (payloads.take count).flatMap clusterBytes ++ _ = _
      rw [hsplit, List.flatMap_append, List.flatMap_cons, clusterBytes]
      simp only [Surroundings.front, behind, List.append_assoc]
    · refine .inl ?_
      show _ <+: ((payloads.take count).drop (j + 1)).flatMap clusterBytes ++ _
      cases (payloads.take count).drop (j + 1) with
      | nil =>
          rw [List.flatMap_nil, List.nil_append, StoredCluster.openBytes, StoredCluster.mark,
            List.append_assoc]
          exact List.prefix_append _ _
      | cons p ps =>
          rw [List.flatMap_cons, clusterBytes, clusterHeader]
          simp only [List.append_assoc]
          exact List.prefix_append _ _
    · exact fun p hp => f.payloadsFrom_lt (List.mem_of_mem_take hp)
    · have hnumber : first.toUInt32 ≤ number.toUInt32 :=
        UInt16.toUInt32_le.mpr (UInt16.le_iff_toNat_le.mpr hle)
      rw [hindexed.first, UInt32.toNat_sub_of_le _ _ hnumber, UInt16.toNat_toUInt32,
        UInt16.toNat_toUInt32]
      exact hcount.symm
    · intro d hd
      have hd : d < j := hcount ▸ hd
      have hin := hview (first.toNat + d) (Nat.le_add_right _ _) (by omega)
      rw [StreamFile.offsetFrom, Nat.add_sub_cancel_left] at hin
      show InView w.totalFileBytes (clusterOffset f.header (payloads.take j) d)
      rw [clusterOffset, List.take_take, Nat.min_eq_left (Nat.le_of_lt hd)]
      exact hin
  · rw [Surroundings.start, Surroundings.front, List.length_append]
    rfl

/-- `TOTAL_FILE_BYTES` lies inside of no header and no window that is read for a cursor at `p`. -/
structure Unclipped (f : StreamFile) (first : Nat) (p : Place) (total : Int) : Prop where
  headers : ∀ d, first ≤ d → d < p.cluster → InView total (f.offsetFrom first d)
  window : Uncut total (f.offsetFrom first p.cluster + clusterHeaderBytes + p.bytes) 1000

theorem Uncut.min {total : Int} {start n : Nat} (h : Uncut total start 1000) :
    Uncut total start (min 1000 n) := by
  rcases h with h | h
  · exact .inl h
  · exact .inr (by omega)

theorem CursorAt.relay {env : Env} {block : Block} (h : CursorAt f block p)
    (hpast : ∀ i, env.past i = 0) (hcopy : CopiedTo f first.toNat r s)
    (hfile : w.file = s.fileBytes f.header) (hlast : s.last.seq.toNat < f.clusters.length)
    (hindexed : Indexed f first w) (hle : first.toNat ≤ p.cluster)
    (hc : p.cluster < s.last.seq.toNat)
    (hlt : clusterHeaderBytes + (f.payload p.cluster).length < 2 ^ 32)
    (hclear : Unclipped f first.toNat p w.totalFileBytes) : ReadsNext f env p block w := by
  have hbytes := h.standsAt.le
  have hcluster := h.standsAt.cluster
  have hmax := s.last.seq.toNat_lt
  obtain ⟨around, hold, hstart⟩ := hcopy.hold hfile hlast hindexed
    block.prev.clusterSeq (by omega) (by omega) (by rw [hcluster]; exact hclear.headers)
  rw [hcluster] at hold hstart
  have hoffset := hold.calOffset block.prev hbytes h.standsAt.pos (by omega) env.fileBuf
  have hdrop := hold.drop_file hbytes
  have huncut : Uncut w.totalFileBytes (around.start + p.bytes) 1000 := hstart ▸ hclear.window
  have hwindow := relayWindow_cut hpast hdrop hold.stop huncut.min
  have hstop : IsStop (around.behind.take 4) := hold.stop.take
  obtain ⟨info, ret, r, hblock, hle, hrest, hcutBytes, hcut, hcursor⟩ :=
    h.cut (by omega) (by omega) (by omega) hlt hstop hwindow
  obtain ⟨w', hread⟩ := readCacheBlock_eq hoffset hblock
  have hlength := congrArg List.length hdrop
  rw [List.length_drop, List.length_append] at hlength
  have hfour := hold.stop.length_take
  rw [List.length_take] at hfour
  have hpayload : (relayWindow env w (around.start + p.bytes)).take info.bytes.toNat =
      f.cutBytes info := by
    rw [relayWindow_take (hle.trans (huncut.le_clampBytes 1000 (le_refl _))) (by omega), hdrop,
      List.take_append_of_le_length hrest, hcutBytes]
  rw [hpayload] at hread
  exact ⟨w', info, ret, r, hread, hcut, hcursor⟩

end File

end P2PStream
