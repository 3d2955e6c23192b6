/-
# `P2PStream.Peer.Total` — what `TOTAL_FILE_BYTES` counts at a peer

`AssembleBlock` adds the payload of every packet to `TOTAL_FILE_BYTES`.  The Cluster
headers that `RenewClusterForWrite` writes between the payloads are added nowhere: the
file is longer than its counter, by twelve bytes for each cluster.
-/
import P2PStream.Peer.WellFormed

namespace P2PStream

open Lib

/-! ## The length of the file -/

theorem StoredCluster.history_length (clusters : List StoredCluster) :
    ((clusters.flatMap StoredCluster.history).map fun b => b.2.length).sum =
      (clusters.map fun c => c.payload.length).sum := by
  induction clusters with
  | nil => rfl
  | cons c clusters ih =>
      have hc : (c.history.map fun b => b.2.length).sum = c.payload.length := by
        rw [StoredCluster.history, List.map_map, StoredCluster.payload, List.length_flatten]
        rfl
      rw [List.flatMap_cons, List.map_append, List.sum_append, hc, ih, List.map_cons, List.sum_cons]

theorem Stored.length_fileBytes (header : List UInt8) (s : Stored) :
    (s.fileBytes header).length =
      header.length + clusterHeaderBytes * s.clusters.length +
        (s.clusters.map fun c => c.payload.length).sum := by
  have hclosed : (s.closed.flatMap StoredCluster.closedBytes).length =
      clusterHeaderBytes * s.closed.length + (s.closed.map fun c => c.payload.length).sum := by
    induction s.closed with
    | nil => rfl
    | cons c closed ih =>
        rw [List.flatMap_cons, List.length_append, ih, c.length_closedBytes, List.length_cons,
          List.map_cons, List.sum_cons, Nat.mul_succ]
        omega
  rw [Stored.fileBytes, Stored.front, List.length_append, List.length_append, hclosed,
    s.last.length_openBytes, Stored.clusters, List.length_append, List.map_append, List.sum_append,
    List.map_singleton, List.sum_singleton, List.length_singleton, Nat.mul_succ]
  omega

/-- The bytes written of a block that is stored are as many as its record says. -/
theorem length_writtenBlock {data : Buf} {k : UInt16} {w w' : Webm}
    (h : storeBlock data k w = .ok w') :
    (writtenBlock data w).length = (copyBytesToBlockInfo data).bytes.toNat := by
  obtain ⟨⟨w₁, data'⟩, hchange, -⟩ := bind_eq_ok.mp h
  simp only [writtenBlock, hchange, Buf.length_take]

/-! ## The counters -/

/-- The counters of a peer, by what it has stored. -/
structure Counted (header : List UInt8) (s : Node × History) : Prop where
  headerBytes : s.1.webm.webmHeaderTotalBytes.toNat = header.length
  fresh : s.2 = [] → s.1.webm.isFirstCluster = true
  first : ∀ b ∈ s.2.head?,
    s.1.webm.isFirstCluster = false ∧ s.1.webm.firstClusterSeq = b.1.toUInt32
  total : s.1.webm.totalFileBytes = (header.length + (s.2.map fun b => b.2.length).sum : Nat)

/-- Behind the WebM header, and a packet is as long as its block. -/
def Sized (s : Node × History) (l : Env × Event) : Prop :=
  Streams s l ∧ ∀ data k, l.2 = .block data k →
    (copyBytesToBlockInfo data).bytes = k - UInt16.ofNat blockinfoBytes

theorem counted_start {seq : UInt16} {header : List UInt8} {n : Node}
    (hjoined : Joined seq header n) : Counted header (n, []) := by
  have hwebm := hjoined.webm
  exact ⟨hwebm.headerBytes, fun _ => hwebm.isFirst, fun b hb => (nomatch hb), hwebm.total⟩

theorem counted_step {header : List UInt8} {s t : Node × History} {l : Env × Event}
    (h : Counted header s) (hl : Sized s l) (hstep : StoreStep s l t) : Counted header t := by
  rcases storeStep_cases hl.1 hstep with
    ⟨hhistory, hsame⟩ | ⟨data, k, hevent, -, -, hstore, hhistory⟩
  · obtain ⟨_, _, _, _, -, hwebm⟩ := hsame
    refine ⟨?_, ?_, ?_, ?_⟩
    · rw [hwebm]; exact h.headerBytes
    · rw [hwebm, hhistory]; exact h.fresh
    · rw [hwebm, hhistory]; exact h.first
    · rw [hwebm, hhistory]; exact h.total
  · have hsize := hl.2 data k hevent
    have hwritten := length_writtenBlock hstore
    obtain ⟨hcounts, -⟩ := storeBlock_counts hstore
    simp only [Webm.counts, Counts.mk.injEq] at hcounts
    obtain ⟨hisFirst, hfirst, htotal, hheader, -, -, -⟩ := hcounts
    refine ⟨by rw [hheader]; exact h.headerBytes, fun hnil => ?_, fun b hb => ⟨hisFirst, ?_⟩, ?_⟩
    · rw [hhistory] at hnil
      exact absurd hnil (List.append_ne_nil_of_right_ne_nil _ (List.cons_ne_nil _ _))
    · rw [hhistory] at hb
      rw [hfirst]
      cases hs : s.2 with
      | nil =>
          rw [hs, List.nil_append, List.head?_cons, Option.mem_some_iff] at hb
          rw [if_pos (h.fresh hs), ← hb]
      | cons b' rest =>
          rw [hs, List.cons_append, List.head?_cons, Option.mem_some_iff] at hb
          obtain ⟨hbegun, hwas⟩ := h.first b' (by rw [hs]; rfl)
          rw [if_neg (by rw [hbegun]; exact Bool.false_ne_true), hwas, hb]
    · rw [htotal, h.total, hhistory, List.map_append, List.sum_append, List.map_singleton,
        List.sum_singleton, hwritten, hsize]
      omega

theorem run_counted {seq : UInt16} {header : List UInt8} {n : Node} {ls : List (Env × Event)}
    {t : Node × History} (hjoined : Joined seq header n)
    (hrun : Run (Guarded StoreStep Sized) (n, []) ls t) : Counted header t :=
  hrun.guarded_invariant (fun _ _ _ h hl hstep => counted_step h hl hstep) (counted_start hjoined)

/-- The file is twelve bytes longer for each cluster than `TOTAL_FILE_BYTES`. -/
theorem run_total {seq : UInt16} {header : List UInt8} {n : Node} {ls : List (Env × Event)}
    {t : Node × History} (hjoined : Joined seq header n)
    (hrun : Run (Guarded StoreStep Sized) (n, []) ls t) :
    (t.1.webm.file.length : Int) =
      t.1.webm.totalFileBytes + (clusterHeaderBytes * (clustersOf seq t.2).length : Nat) := by
  have hstores : Stores header (Stored.of seq t.2) t.1.webm :=
    run_described hjoined (hrun.mono fun _ _ _ h => ⟨h.1.1, h.2⟩)
  have hhistory := StoredCluster.history_length (Stored.of seq t.2).clusters
  rw [(Stored.of_isRuns seq t.2).history] at hhistory
  rw [hstores.file, Stored.length_fileBytes, ← hhistory, Stored.of_clusters,
    (run_counted hjoined hrun).total]
  omega

end P2PStream
