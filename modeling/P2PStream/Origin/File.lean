/-
# `P2PStream.Origin.File` — the origin's file and the walk of `CalOffset`

The file is a WebM header and clusters, each behind a Cluster header of
`CLUSTER_HEADER_BYTES`.  Clusters are counted from 0, which is what
`FIRST_CLUSTER_SEQ` is at the origin.  The file grows while it is read:
`TOTAL_FILE_BYTES` says how much of it may be seen.
-/
import P2PStream.Webm.Clusters
import P2PStream.Webm.Tiling

namespace P2PStream

open Lib

/-! ## The file -/

/-- A cluster as it lies in the file. -/
def ClusterPayload.clusterBytes (p : ClusterPayload) : List UInt8 :=
  clusterHeader p.bytes.length ++ p.bytes

theorem ClusterPayload.length_clusterBytes (p : ClusterPayload) :
    p.clusterBytes.length = clusterHeaderBytes + p.bytes.length := by
  simp [clusterBytes]

/-- A file of any number of clusters.  Sizes are below "unknown", and file positions fit an
`__off64_t`. -/
structure StreamFile where
  header : List UInt8
  clusters : List ClusterPayload
  header_lt : header.length < 2 ^ 16
  size_lt : ∀ p ∈ clusters, p.bytes.length < unknownSize
  length_lt : header.length + (clusters.flatMap ClusterPayload.clusterBytes).length < 2 ^ 63

theorem nil_header_lt : ([] : List UInt8).length < 2 ^ 16 := by decide

/-- What the origin streams.  Sizes are below "unknown", cluster numbers fit 16 bits, and
file positions an `__off64_t`. -/
structure OriginFile extends StreamFile where
  clusters_le : clusters.length ≤ 2 ^ 16

instance : Coe OriginFile StreamFile := ⟨OriginFile.toStreamFile⟩

namespace StreamFile

variable (f : StreamFile)

def bytes : List UInt8 := f.header ++ f.clusters.flatMap ClusterPayload.clusterBytes

/-- Where cluster `c` starts. -/
def clusterStart (c : Nat) : Nat :=
  f.header.length + ((f.clusters.take c).flatMap ClusterPayload.clusterBytes).length

/-- The payload of cluster `c`. -/
def payload (c : Nat) : List UInt8 := (f.clusters[c]?.map ClusterPayload.bytes).getD []

theorem clusterStart_zero : f.clusterStart 0 = f.header.length := by
  simp [clusterStart]

theorem clusterStart_succ {c : Nat} (hc : c < f.clusters.length) :
    f.clusterStart (c + 1) = f.clusterStart c + clusterHeaderBytes + (f.payload c).length := by
  simp only [clusterStart, payload, List.getElem?_eq_getElem hc, Option.map_some, Option.getD_some]
  rw [← List.take_append_getElem hc, List.flatMap_append, List.length_append,
    List.flatMap_singleton, ClusterPayload.length_clusterBytes]
  omega

theorem clusterStart_mono {c d : Nat} (h : c ≤ d) : f.clusterStart c ≤ f.clusterStart d := by
  obtain ⟨t, ht⟩ := List.take_prefix_take_left (l := f.clusters) h
  rw [clusterStart, clusterStart, ← ht, List.flatMap_append, List.length_append]
  omega

theorem length_bytes : f.bytes.length < 2 ^ 63 := by
  rw [bytes, List.length_append]
  exact f.length_lt

theorem clusterStart_le (c : Nat) : f.clusterStart c ≤ f.bytes.length := by
  have hsplit := congrArg List.length (congrArg (List.flatMap ClusterPayload.clusterBytes)
    (List.take_append_drop c f.clusters))
  rw [List.flatMap_append, List.length_append] at hsplit
  rw [clusterStart, bytes, List.length_append]
  omega

theorem drop_clusterStart (c : Nat) :
    f.bytes.drop (f.clusterStart c)
      = (f.clusters.drop c).flatMap ClusterPayload.clusterBytes := by
  have hbytes : f.bytes = (f.header ++ (f.clusters.take c).flatMap ClusterPayload.clusterBytes)
      ++ (f.clusters.drop c).flatMap ClusterPayload.clusterBytes := by
    rw [List.append_assoc, ← List.flatMap_append, List.take_append_drop, bytes]
  rw [hbytes, clusterStart, ← List.length_append, List.drop_left]

theorem drop_clusterStart_eq {c : Nat} (hc : c < f.clusters.length) :
    f.bytes.drop (f.clusterStart c) = clusterHeader (f.payload c).length ++ (f.payload c ++
      (f.clusters.drop (c + 1)).flatMap ClusterPayload.clusterBytes) := by
  rw [drop_clusterStart, List.drop_eq_getElem_cons hc, List.flatMap_cons,
    ClusterPayload.clusterBytes, List.append_assoc, payload, List.getElem?_eq_getElem hc]
  rfl

theorem isStop_next {c : Nat} (hc : c < f.clusters.length) :
    IsStop ((f.clusters.drop c).flatMap ClusterPayload.clusterBytes) := by
  refine Or.inl ?_
  rw [List.drop_eq_getElem_cons hc, List.flatMap_cons, ClusterPayload.clusterBytes, clusterHeader,
    List.append_assoc, List.append_assoc]
  exact List.prefix_append _ _

theorem drop_payload {c k : Nat} (hc : c < f.clusters.length) (hk : k ≤ (f.payload c).length) :
    f.bytes.drop (f.clusterStart c + clusterHeaderBytes + k) = (f.payload c).drop k ++
      (f.clusters.drop (c + 1)).flatMap ClusterPayload.clusterBytes := by
  rw [Nat.add_assoc, ← List.drop_drop, drop_clusterStart_eq f hc,
    ← List.drop_drop, ← length_clusterHeader (f.payload c).length, List.drop_left,
    List.drop_append_of_le_length hk]

theorem payload_lt {c : Nat} (hc : c < f.clusters.length) : (f.payload c).length < unknownSize := by
  rw [payload, List.getElem?_eq_getElem hc]
  exact f.size_lt _ (List.getElem_mem hc)

end StreamFile

/-! ## `CalOffset` -/

/-- The WebM globals stand on the origin's file. -/
structure OnFile (f : StreamFile) (w : Webm) : Prop where
  file : w.file = f.bytes
  header : w.webmHeaderTotalBytes.toNat = f.header.length
  first : w.firstClusterSeq = 0

theorem fread_clusterHeader {f : StreamFile} {w : Webm} {c : Nat} (hw : OnFile f w)
    (hc : c < f.clusters.length) (hfp : w.fp = f.clusterStart c) (stale : Buf) :
    (fread stale clusterHeaderBytes w).1 = { w with fp := w.fp + clusterHeaderBytes } ∧
      (fread stale clusterHeaderBytes w).2.Holds (clusterHeader (f.payload c).length) := by
  have hread : w.readBytes clusterHeaderBytes = clusterHeader (f.payload c).length := by
    rw [Webm.readBytes, hw.file, hfp, Int.toNat_natCast, f.drop_clusterStart_eq hc,
      ← length_clusterHeader (f.payload c).length, List.take_left]
  refine ⟨?_, ?_⟩
  · rw [fread, hread, length_clusterHeader]
  · rw [fread, hread]
    exact Buf.overlay_holds _ _

/-- The payloads of the clusters, in order. -/
def StreamFile.contents (f : StreamFile) : List (List UInt8) := f.clusters.map ClusterPayload.bytes

theorem StreamFile.flatMap_contents (clusters : List ClusterPayload) :
    (clusters.map ClusterPayload.bytes).flatMap clusterBytes =
      clusters.flatMap ClusterPayload.clusterBytes := List.flatMap_map ..

theorem StreamFile.clusterOffset_eq (f : StreamFile) (c : Nat) :
    clusterOffset f.header f.contents c = f.clusterStart c := by
  rw [clusterOffset, StreamFile.contents, ← List.map_take, flatMap_contents, clusterStart]

theorem calOffsetLoop_eq {f : StreamFile} (count : Nat) (c : Nat) (stale : Buf) (w : Webm)
    (hw : OnFile f w) (hc : c + count ≤ f.clusters.length)
    (htotal : f.clusterStart (c + count) ≤ w.totalFileBytes) :
    ∃ x, calOffsetLoop count stale (f.clusterStart c) w
      = ({ w with fp := x }, (f.clusterStart (c + count) : Int)) := by
  have hlength : f.contents.length = f.clusters.length := List.length_map _
  have hsize : ∀ p ∈ f.contents, p.length < unknownSize := by
    intro p hp
    obtain ⟨q, hq, rfl⟩ := List.mem_map.mp hp
    exact f.size_lt q hq
  have hfile : f.header ++ f.contents.flatMap clusterBytes <+: w.file := by
    rw [StreamFile.contents, StreamFile.flatMap_contents, hw.file]
    exact List.prefix_refl _
  obtain ⟨x, hloop⟩ := calOffsetLoop_clusters hsize count c stale w hfile
    (by rw [hw.file]; exact f.length_bytes) (by omega) fun j hj hj' => by
      have hnext := f.clusterStart_succ (c := j) (by omega)
      have hle := f.clusterStart_mono (show j + 1 ≤ c + count by omega)
      rw [f.clusterOffset_eq]
      exact .inr (by omega)
  rw [f.clusterOffset_eq, f.clusterOffset_eq] at hloop
  exact ⟨x, hloop⟩

end P2PStream
