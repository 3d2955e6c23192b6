/-
# `P2PStream.Peer.WellFormed` — the file of a receiver is well formed

The clusters of the file are the runs of equal cluster numbers among the blocks
stored, in order of arrival.  `AssembleBlock` compares with the cluster number that
InitialStatus gave, so when the first block has another one, the cluster opened
behind the WebM header is left empty in front.

The seven bytes of a size hold less than 2^56, and 2^56 - 1 means "unknown": a
larger cluster is closed with a wrong size.
-/
import Mathlib.Data.List.SplitBy
import P2PStream.Peer.Run

namespace P2PStream

open Lib

/-! ## The clusters of a history -/

/-- The blocks of a cluster, each under its number. -/
def StoredCluster.history (c : StoredCluster) : History := c.blocks.map fun block => (c.seq, block)

/-- The runs of equal cluster numbers. -/
def clusterRuns (history : History) : List StoredCluster :=
  (history.splitBy fun a b => a.1 == b.1).map fun run =>
    ⟨(run.head?.map Prod.fst).getD 0, run.map Prod.snd⟩

/-- The clusters of a file that InitialStatus has told to start with `seq`. -/
def clustersOf (seq : UInt16) (history : History) : List StoredCluster :=
  if history.head?.map Prod.fst = some seq then clusterRuns history
  else ⟨seq, []⟩ :: clusterRuns history

/-- All clusters of a file. -/
def Stored.clusters (s : Stored) : List StoredCluster := s.closed ++ [s.last]

/-- The clusters hold the history, and a new one starts where the number changes. -/
structure IsRuns (seq : UInt16) (history : History) (clusters : List StoredCluster) : Prop where
  history : clusters.flatMap StoredCluster.history = history
  differ : clusters.IsChain fun c d => c.seq ≠ d.seq
  first : clusters.head?.map StoredCluster.seq = some seq
  nonempty : ∀ c ∈ clusters.tail, c.blocks ≠ []

section Runs

variable {seq : UInt16} {history : History} {closed : List StoredCluster} {last : StoredCluster}

theorem IsRuns.extend (h : IsRuns seq history (closed ++ [last])) (block : List UInt8) :
    IsRuns seq (history ++ [(last.seq, block)])
      (closed ++ [⟨last.seq, last.blocks ++ [block]⟩]) := by
  refine ⟨?_, ?_, ?_, ?_⟩
  · rw [← h.history]
    simp [StoredCluster.history]
  · have hchain := h.differ
    rw [List.isChain_append] at hchain ⊢
    refine ⟨hchain.1, List.isChain_singleton _, ?_⟩
    intro c hc d hd
    rw [List.head?_cons, Option.mem_some_iff] at hd
    rw [← hd]
    exact hchain.2.2 c hc last rfl
  · have hfirst := h.first
    cases closed with
    | nil => exact hfirst
    | cons c closed => exact hfirst
  · have hall := h.nonempty
    intro c hc
    cases closed with
    | nil => cases hc
    | cons d closed =>
        rcases List.mem_append.mp hc with hc | hc
        · exact hall c (List.mem_append_left _ hc)
        · rw [List.mem_singleton.mp hc]
          exact List.append_ne_nil_of_right_ne_nil _ (List.cons_ne_nil _ _)

theorem IsRuns.append (h : IsRuns seq history (closed ++ [last])) {number : UInt16}
    (hnumber : number ≠ last.seq) (block : List UInt8) :
    IsRuns seq (history ++ [(number, block)]) (closed ++ [last] ++ [⟨number, [block]⟩]) := by
  refine ⟨?_, ?_, ?_, ?_⟩
  · rw [List.flatMap_append, h.history]
    rfl
  · rw [List.isChain_append]
    refine ⟨h.differ, List.isChain_singleton _, ?_⟩
    intro c hc d hd
    rw [List.getLast?_concat, Option.mem_some_iff] at hc
    rw [List.head?_cons, Option.mem_some_iff] at hd
    rw [← hc, ← hd]
    exact fun heq => hnumber heq.symm
  · have hfirst := h.first
    cases closed with
    | nil => exact hfirst
    | cons c closed => exact hfirst
  · have hall := h.nonempty
    intro c hc
    have hnew : (⟨number, [block]⟩ : StoredCluster).blocks ≠ [] := List.cons_ne_nil _ _
    rw [List.tail_append_of_ne_nil (by simp)] at hc
    rcases List.mem_append.mp hc with hc | hc
    · exact hall c hc
    · rw [List.mem_singleton.mp hc]
      exact hnew

theorem Stored.of_isRuns (seq : UInt16) (history : History) :
    IsRuns seq history (Stored.of seq history).clusters := by
  induction history using List.reverseRecOn with
  | nil => exact ⟨rfl, List.isChain_singleton _, rfl, fun c hc => absurd hc List.not_mem_nil⟩
  | append_singleton history b ih =>
      rw [Stored.of_concat, Stored.store]
      split
      · next hseq =>
        rw [show b = ((Stored.of seq history).last.seq, b.2) from Prod.ext hseq rfl]
        exact ih.extend b.2
      · next hseq => exact ih.append hseq b.2

/-- The runs of the blocks of clusters that differ from their neighbours. -/
theorem clusterRuns_flatMap {clusters : List StoredCluster}
    (hdiffer : clusters.IsChain fun c d => c.seq ≠ d.seq)
    (hnonempty : ∀ c ∈ clusters, c.blocks ≠ []) :
    clusterRuns (clusters.flatMap StoredCluster.history) = clusters := by
  have hne : ∀ c ∈ clusters, c.history ≠ [] := fun c hc =>
    mt List.map_eq_nil_iff.mp (hnonempty c hc)
  have hseq : ∀ c : StoredCluster, ∀ b ∈ c.history, b.1 = c.seq := by
    intro c b hb
    obtain ⟨_, _, rfl⟩ := List.mem_map.mp hb
    rfl
  have hsplit := List.splitBy_flatten (r := fun a b : UInt16 × List UInt8 => a.1 == b.1)
    (l := clusters.map StoredCluster.history) ?_ ?_ ?_
  · rw [clusterRuns, List.flatMap_def, hsplit, List.map_map]
    refine (List.map_congr_left fun c hc => ?_).trans (List.map_id clusters)
    obtain ⟨seq, blocks⟩ := c
    cases blocks with
    | nil => exact absurd rfl (hnonempty _ hc)
    | cons block blocks => simp [StoredCluster.history, Function.comp_def]
  · intro hnil
    obtain ⟨c, hc, hempty⟩ := List.mem_map.mp hnil
    exact hne c hc hempty
  · intro run hrun
    obtain ⟨c, -, rfl⟩ := List.mem_map.mp hrun
    refine List.Pairwise.isChain (List.pairwise_iff_getElem.mpr fun i j hi hj _ => ?_)
    exact beq_iff_eq.mpr ((hseq c _ (List.getElem_mem hi)).trans
      (hseq c _ (List.getElem_mem hj)).symm)
  · rw [List.isChain_map]
    refine hdiffer.imp_of_mem_imp fun c d hc hd hcd => ?_
    refine ⟨hne c hc, hne d hd, beq_eq_false_iff_ne.mpr ?_⟩
    rw [hseq c _ (List.getLast_mem _), hseq d _ (List.head_mem _)]
    exact hcd

theorem IsRuns.clustersOf_eq {clusters : List StoredCluster} (h : IsRuns seq history clusters) :
    clustersOf seq history = clusters := by
  obtain ⟨rfl, hdiffer, hfirst, hnonempty⟩ := h
  cases clusters with
  | nil => cases hfirst
  | cons c rest =>
      obtain ⟨number, blocks⟩ := c
      obtain rfl : number = seq := Option.some.inj hfirst
      cases blocks with
      | cons block blocks =>
          have hruns := clusterRuns_flatMap hdiffer fun c hc => by
            rcases List.mem_cons.mp hc with rfl | hc
            · exact List.cons_ne_nil _ _
            · exact hnonempty c hc
          exact (if_pos rfl).trans hruns
      | nil =>
          -- the first cluster is empty: the history starts in another one, or not at all
          have hhead : ((StoredCluster.mk number [] :: rest).flatMap
              StoredCluster.history).head?.map Prod.fst ≠ some number := by
            cases rest with
            | nil => exact nofun
            | cons d rest =>
                obtain ⟨number', blocks'⟩ := d
                cases blocks' with
                | nil => exact absurd rfl (hnonempty _ List.mem_cons_self)
                | cons block blocks' =>
                    intro heq
                    have hne : number ≠ number' := (List.isChain_cons_cons.mp hdiffer).1
                    exact hne (Option.some.inj heq).symm
          have hruns := clusterRuns_flatMap hdiffer.tail hnonempty
          rw [clustersOf, if_neg hhead]
          exact congrArg _ hruns

end Runs

theorem Stored.of_clusters (seq : UInt16) (history : History) :
    (Stored.of seq history).clusters = clustersOf seq history :=
  (Stored.of_isRuns seq history).clustersOf_eq.symm

/-! ## Walking the file -/

/-- The elements that a reader finds from `offset` on: each header read by `GetChank`, zeros
behind the end. -/
def walkChanks (file : List UInt8) : Nat → Nat → List (Nat × Chank)
  | 0, _ => []
  | fuel + 1, offset =>
      if offset < file.length then
        let chank := getChank (Buf.zero.overlay (file.drop offset))
        (offset, chank) :: walkChanks file fuel (offset + chank.chankBytes)
      else []

/-- The elements of a list of clusters that starts at `offset`. -/
def chanksFrom : Nat → List StoredCluster → List (Nat × Chank)
  | _, [] => []
  | offset, c :: cs =>
      (offset, clusterChank c.payload.length) ::
        chanksFrom (offset + (clusterHeaderBytes + c.payload.length)) cs

/-- A cluster as it lies in a file. -/
def StoredCluster.bytes (c : StoredCluster) : List UInt8 := clusterBytes c.payload

theorem StoredCluster.length_bytes (c : StoredCluster) :
    c.bytes.length = clusterHeaderBytes + c.payload.length := length_clusterBytes _

theorem getChank_footer {buf : Buf} (h : buf.Holds footer) : getChank buf = clusterChank 0 :=
  getChank_unknown (by decide : 0 < 4) (le_refl 4)
    (by decide : clusterId - 2 ^ 28 < 2 ^ (7 * 4)) h

theorem walkChanks_cons {file : List UInt8} {offset fuel : Nat} {chank : Chank}
    (hlt : offset < file.length)
    (hchank : getChank (Buf.zero.overlay (file.drop offset)) = chank) :
    walkChanks file (fuel + 1) offset =
      (offset, chank) :: walkChanks file fuel (offset + chank.chankBytes) := by
  rw [walkChanks, if_pos hlt, hchank]

theorem walkChanks_end (file : List UInt8) (fuel : Nat) :
    walkChanks file fuel file.length = [] := by
  cases fuel with
  | zero => rfl
  | succ fuel => exact if_neg (Nat.lt_irrefl _)

/-- The walk from the end of `front` visits the clusters and then the `FOOTER`. -/
theorem walkChanks_clusters {clusters : List StoredCluster}
    (hsize : ∀ c ∈ clusters, c.payload.length < unknownSize) :
    ∀ (front : List UInt8) (fuel : Nat), clusters.length < fuel →
      walkChanks (front ++ (clusters.flatMap StoredCluster.bytes ++ footer)) fuel front.length =
        chanksFrom front.length clusters ++
          [((front ++ clusters.flatMap StoredCluster.bytes).length, clusterChank 0)] := by
  have hpos : 0 < clusterHeaderBytes := by decide
  induction clusters with
  | nil =>
      intro front fuel hfuel
      obtain ⟨fuel, rfl⟩ : ∃ k, fuel = k + 1 := ⟨fuel - 1, by omega⟩
      have hlength : (front ++ footer).length = front.length + clusterHeaderBytes :=
        List.length_append
      have hchank : getChank (Buf.zero.overlay ((front ++ footer).drop front.length)) =
          clusterChank 0 := by
        rw [List.drop_left]
        exact getChank_footer (Buf.overlay_holds _ _)
      have hnext : front.length + (clusterChank 0).chankBytes = (front ++ footer).length :=
        hlength.symm
      rw [List.flatMap_nil, List.nil_append, List.append_nil,
        walkChanks_cons (by omega) hchank, hnext, walkChanks_end]
      rfl
  | cons c clusters ih =>
      intro front fuel hfuel
      obtain ⟨fuel, rfl⟩ : ∃ k, fuel = k + 1 := ⟨fuel - 1, by omega⟩
      generalize hrest : clusters.flatMap StoredCluster.bytes ++ footer = rest at ih
      have hfile : front ++ ((c :: clusters).flatMap StoredCluster.bytes ++ footer) =
          (front ++ c.bytes) ++ rest := by
        rw [List.flatMap_cons, List.append_assoc, List.append_assoc, hrest]
      have hlength := c.length_bytes
      have hchank : getChank (Buf.zero.overlay (((front ++ c.bytes) ++ rest).drop front.length)) =
          clusterChank c.payload.length := by
        rw [List.append_assoc, List.drop_left, StoredCluster.bytes, clusterBytes, List.append_assoc]
        exact getChank_clusterHeader_eq (Buf.holds_append.mp (Buf.overlay_holds _ _)).1
          (hsize c List.mem_cons_self)
      have hnext : front.length + (clusterChank c.payload.length).chankBytes =
          (front ++ c.bytes).length := by
        rw [List.length_append, hlength]
        rfl
      have htail := ih (fun d hd => hsize d (List.mem_cons_of_mem _ hd)) (front ++ c.bytes) fuel
        (by rw [List.length_cons] at hfuel; omega)
      rw [hfile, walkChanks_cons (by simp only [List.length_append]; omega) hchank, hnext, htail,
        chanksFrom, List.cons_append, List.flatMap_cons, List.append_assoc, List.length_append,
        hlength]

theorem clusters_length_le (clusters : List StoredCluster) :
    clusters.length ≤ (clusters.flatMap StoredCluster.bytes).length := by
  induction clusters with
  | nil => exact Nat.zero_le _
  | cons c clusters ih =>
      have hlength := c.length_bytes
      have hpos : 0 < clusterHeaderBytes := by decide
      rw [List.flatMap_cons, List.length_append, List.length_cons]
      omega

/-! ## The file of a peer -/

/-- A file of closed clusters and an open one behind the WebM header, and what the END packet
makes of it. -/
structure WellFormed (header : List UInt8) (closed : List StoredCluster) (last : StoredCluster)
    (n : Node) : Prop where
  /-- The size of a closed cluster is that of its payload; `openSize` is one block behind. -/
  file : n.webm.file = header ++ (closed.flatMap StoredCluster.bytes ++
    (StoredCluster.mark ++ (last.openSize ++ last.payload)))
  /-- Behind END the size of the open cluster is right, and one `FOOTER` follows. -/
  ended : ∀ env data k, data.take blockinfoBytes = blockinfoEnd →
    n.step .peer env (.block data k) = .error (.exit ""
      (header ++ ((closed ++ [last]).flatMap StoredCluster.bytes ++ footer)))
  /-- A reader finds the clusters and then the `FOOTER`. -/
  walked : ∀ file, file = header ++ ((closed ++ [last]).flatMap StoredCluster.bytes ++ footer) →
    walkChanks file file.length header.length = chanksFrom header.length (closed ++ [last]) ++
      [(file.length - clusterHeaderBytes, clusterChank 0)]

theorem StoredCluster.closedBytes_eq_bytes {c : StoredCluster}
    (h : c.payload.length < unknownSize) : c.closedBytes = c.bytes := by
  have hunknown : unknownSize = 2 ^ 56 - 1 := by decide
  exact c.closedBytes_eq (by omega)

theorem flatMap_closedBytes {clusters : List StoredCluster}
    (hsize : ∀ c ∈ clusters, c.payload.length < unknownSize) :
    clusters.flatMap StoredCluster.closedBytes = clusters.flatMap StoredCluster.bytes := by
  rw [List.flatMap_def, List.flatMap_def]
  exact congrArg List.flatten
    (List.map_congr_left fun c hc => StoredCluster.closedBytes_eq_bytes (hsize c hc))

theorem Stores.wellFormed {header : List UInt8} {s : Stored} {n : Node}
    (h : Stores header s n.webm) (hsize : ∀ c ∈ s.clusters, c.payload.length < unknownSize) :
    WellFormed header s.closed s.last n where
  file := by
    have hclosed := flatMap_closedBytes fun c hc => hsize c (List.mem_append_left _ hc)
    rw [h.file, Stored.fileBytes, Stored.front, hclosed, List.append_assoc]
    rfl
  ended := by
    intro env data k hend
    have hbytes : s.endBytes header
        = header ++ (s.clusters.flatMap StoredCluster.bytes ++ footer) := by
      rw [← flatMap_closedBytes hsize, Stored.clusters, List.flatMap_append, List.flatMap_singleton,
        Stored.endBytes, Stored.front]
      simp only [List.append_assoc]
    rw [Node.step, h.end k hend, hbytes]
    rfl
  walked := by
    rintro _ rfl
    have hfuel := clusters_length_le s.clusters
    have hpos : footer.length = clusterHeaderBytes := rfl
    have hwalk := walkChanks_clusters hsize header
      (header ++ (s.clusters.flatMap StoredCluster.bytes ++ footer)).length (by
        have hfooter : 0 < clusterHeaderBytes := by decide
        rw [List.length_append, List.length_append]
        omega)
    refine hwalk.trans ?_
    have hlast : (header ++ s.clusters.flatMap StoredCluster.bytes).length =
        (header ++ (s.clusters.flatMap StoredCluster.bytes ++ footer)).length -
          clusterHeaderBytes := by
      simp only [← hpos, List.length_append]
      omega
    rw [hlast]
    rfl

/-- The file of a receiver, behind InitialStatus, the WebM header and any sequence of events: the
clusters are the runs of the blocks stored. -/
theorem file_wellFormed {seq : UInt16} {header : List UInt8} {n n' : Node}
    {ls : List (Env × Event)} {blocks : History} (hjoined : Joined seq header n)
    (hrun : Run (Guarded StoreStep Streams) (n, []) ls (n', blocks))
    (hsize : ∀ c ∈ clustersOf seq blocks, c.payload.length < unknownSize) :
    ∃ closed last, clustersOf seq blocks = closed ++ [last] ∧ WellFormed header closed last n' := by
  rw [← Stored.of_clusters] at hsize
  have hstores : Stores header (Stored.of seq blocks) n'.webm := run_described hjoined hrun
  exact ⟨_, _, (Stored.of_clusters seq blocks).symm, hstores.wellFormed hsize⟩

/-! ## A cluster too large for its size field -/

theorem Stored.of_replicate (seq : UInt16) (block : List UInt8) (count : Nat) :
    Stored.of seq (List.replicate count (seq, block)) =
      ⟨[], ⟨seq, List.replicate count block⟩⟩ := by
  induction count with
  | zero => rfl
  | succ count ih =>
      rw [List.replicate_succ', Stored.of_concat, ih, Stored.store, if_pos rfl,
        List.replicate_succ']

theorem closedBytes_ne_bytes {c : StoredCluster} (h : c.payload.length / 256 ^ 7 = 1)
    (x y : List UInt8) : c.closedBytes ++ x ≠ c.bytes ++ y := by
  intro heq
  have hcons := vint_eq_cons c.payload.length (w := 8) (by decide) (le_refl 8)
  rw [show 256 ^ (8 - 1) = 256 ^ 7 from rfl, h] at hcons
  rw [StoredCluster.closedBytes, StoredCluster.mark, StoredCluster.bytes, clusterBytes,
    clusterHeader, hcons] at heq
  simp only [List.append_assoc, List.append_cancel_left_eq, List.cons_append, List.nil_append,
    List.cons.injEq] at heq
  exact absurd heq.1 (by decide)

/-- A block of one byte, not the first of its cluster. -/
def bytePacket (cluster : UInt16) : Buf :=
  packetData (copyBlockInfoToBytes ⟨12, 2, 1, 0, cluster, 0, 0, statusSimpleblock, 0⟩ ++ [0])

def byteOf5 : BlockPacket 0 where
  data := bytePacket 5
  bytes := 19
  first_le := by decide
  seq_pos := by decide
  timecode := fun h => absurd h (by decide)
  not_end := by decide

def byteOf6 : BlockPacket 0 where
  data := bytePacket 6
  bytes := 19
  first_le := by decide
  seq_pos := by decide
  timecode := fun h => absurd h (by decide)
  not_end := by decide

theorem exists_run_bytes (count : Nat) : ∃ n n' ls, Joined 5 footer n ∧
    Run (Guarded StoreStep Streams) (n, []) ls
      (n', List.replicate count (5, [0]) ++ [(6, [0])]) ∧
    ∀ l ∈ ls, ∀ data k, l.2 = .block data k →
      (copyBytesToBlockInfo data).bytes = k - UInt16.ofNat blockinfoBytes := by
  obtain ⟨n, hjoined, hprev⟩ := exists_joined 5 footer (by decide)
  have hstores := hjoined.webm.stores
  have htakes : Takes byteOf5 n.webm :=
    ⟨hstores.allocated, hstores.prev, by rw [hprev]; decide⟩
  obtain ⟨w, hw, -, hrun⟩ := exists_run_replicate byteOf5 (by decide) (Env.clock ⟨3, 0⟩) count
    (n, []) htakes
  obtain ⟨w', -, hlast⟩ := exists_storeStep byteOf6 (by decide)
    (s := ({ n with webm := w }, List.replicate count (5, [0]))) (Env.clock ⟨3, 0⟩) hw.allocated
    (UInt32.lt_trans hw.previous (by decide))
  refine ⟨n, _, _, hjoined, hrun.append (.cons hlast (.nil _)), ?_⟩
  intro l hl data k hdata
  rcases List.mem_append.mp hl with hl | hl
  · obtain rfl := List.eq_of_mem_replicate hl
    cases hdata
    decide
  · obtain rfl := List.mem_singleton.mp hl
    cases hdata
    decide

theorem file_wellFormed_twoClusters : ∃ n n' ls, Joined 5 footer n ∧
    Run (Guarded StoreStep Streams) (n, []) ls (n', [(5, [0]), (6, [0])]) ∧
    ∃ closed last, clustersOf 5 [(5, [0]), (6, [0])] = closed ++ [last] ∧
      WellFormed footer closed last n' := by
  obtain ⟨n, n', ls, hjoined, hrun, -⟩ := exists_run_bytes 1
  exact ⟨n, n', ls, hjoined, hrun, file_wellFormed hjoined hrun (by decide)⟩

theorem not_wellFormed_bytes {count : Nat} (hcount : count / 256 ^ 7 = 1) {n : Node}
    (h : Stores footer (Stored.of 5 (List.replicate count (5, [0]) ++ [(6, [0])])) n.webm) :
    ¬ ∃ closed last, clustersOf 5 (List.replicate count (5, [0]) ++ [(6, [0])]) =
      closed ++ [last] ∧ WellFormed footer closed last n := by
  rintro ⟨closed, last, hclusters, hformed⟩
  have hne : (6 : UInt16) ≠ 5 := by decide
  have hof : Stored.of 5 (List.replicate count (5, [0]) ++ [(6, [0])]) =
      ⟨[⟨5, List.replicate count [0]⟩], ⟨6, [[0]]⟩⟩ := by
    rw [Stored.of_concat, Stored.of_replicate, Stored.store, if_neg hne]
    rfl
  rw [← Stored.of_clusters, hof] at hclusters
  obtain ⟨rfl, -⟩ := List.append_inj' hclusters rfl
  have hfile := hformed.file
  rw [h.file, hof, Stored.fileBytes, Stored.front] at hfile
  simp only [List.append_assoc, List.append_cancel_left_eq, List.flatMap_singleton] at hfile
  refine closedBytes_ne_bytes ?_ _ _ hfile
  rw [StoredCluster.payload, List.flatten_replicate_singleton, List.length_replicate, hcount]

theorem exists_not_wellFormed {count : Nat} (hcount : count / 256 ^ 7 = 1) :
    ∃ n n' ls blocks, Joined 5 footer n ∧
      Run (Guarded StoreStep Streams) (n, []) ls (n', blocks) ∧
      (∀ l ∈ ls, ∀ data k, l.2 = .block data k →
        (copyBytesToBlockInfo data).bytes = k - UInt16.ofNat blockinfoBytes) ∧
      ¬ ∃ closed last, clustersOf 5 blocks = closed ++ [last] ∧
        WellFormed footer closed last n' := by
  obtain ⟨n, n', ls, hjoined, hrun, hbytes⟩ := exists_run_bytes count
  exact ⟨n, n', ls, _, hjoined, hrun, hbytes,
    not_wellFormed_bytes hcount (run_described hjoined hrun)⟩

/-- 2^56 blocks of one byte, and a block of the next cluster: the closed cluster says 0. -/
theorem hugeCluster_size : ∃ n n' ls blocks, Joined 5 footer n ∧
    Run (Guarded StoreStep Streams) (n, []) ls (n', blocks) ∧
    (∀ l ∈ ls, ∀ data k, l.2 = .block data k →
      (copyBytesToBlockInfo data).bytes = k - UInt16.ofNat blockinfoBytes) ∧
    ¬ ∃ closed last, clustersOf 5 blocks = closed ++ [last] ∧ WellFormed footer closed last n' := by
  have hcount : 2 ^ 56 / 256 ^ 7 = 1 := by norm_num
  exact exists_not_wellFormed hcount

end P2PStream
