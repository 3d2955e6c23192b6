/-
# `P2PStream.Webm.Clusters` — the walk of `CalOffset`

A file is a WebM header and clusters, each a payload behind a Cluster header of
`CLUSTER_HEADER_BYTES`.  `CalOffset` finds the bytes behind a block by walking over
the headers of the clusters before its own.

Every header is read by `SearchWebM`, which stops at `TOTAL_FILE_BYTES` only when
that lies inside of the header: the comparison is unsigned, and before the header the
difference is negative.
-/
import P2PStream.Webm.File

namespace P2PStream

open Lib

/-! ## Cluster headers -/

/-- A Cluster header, its size in eight bytes. -/
def clusterHeader (length : Nat) : List UInt8 := toBe 4 clusterId ++ vint 8 length

@[simp] theorem length_clusterHeader (length : Nat) :
    (clusterHeader length).length = clusterHeaderBytes := by
  simp [clusterHeader, clusterHeaderBytes]

/-- What `GetChank` makes of a Cluster header. -/
def clusterChank (length : Nat) : Chank :=
  ⟨clusterId, clusterIdBytes, clusterHeaderBytes, length, clusterHeaderBytes + length⟩

theorem getChank_clusterHeader_eq {b : Buf} {length : Nat} (h : b.Holds (clusterHeader length))
    (hlt : length < unknownSize) : getChank b = clusterChank length := by
  have hunknown : unknownSize = 2 ^ 56 - 1 := by decide
  exact getChank_header (n := 4) (x := 0x0f43b675) (w := 8) (v := length) (by decide)
    (by decide) (by decide) (by decide) (by decide) (by omega) (by omega) h

theorem getChank_clusterHeader {b : Buf} {length : Nat} (h : b.Holds (clusterHeader length))
    (hlt : length < unknownSize) :
    (getChank b).id = clusterId ∧ (getChank b).chankBytes = clusterHeaderBytes + length := by
  rw [getChank_clusterHeader_eq h hlt]
  exact ⟨rfl, rfl⟩

/-! ## Clusters in a file -/

/-- A payload behind its header. -/
def clusterBytes (payload : List UInt8) : List UInt8 := clusterHeader payload.length ++ payload

theorem length_clusterBytes (payload : List UInt8) :
    (clusterBytes payload).length = clusterHeaderBytes + payload.length := by
  rw [clusterBytes, List.length_append, length_clusterHeader]

/-- Where cluster `c` starts. -/
def clusterOffset (header : List UInt8) (payloads : List (List UInt8)) (c : Nat) : Nat :=
  header.length + ((payloads.take c).flatMap clusterBytes).length

section Offsets

variable {header file : List UInt8} {payloads : List (List UInt8)}

@[simp] theorem clusterOffset_zero : clusterOffset header payloads 0 = header.length := rfl

theorem clusterOffset_succ (header : List UInt8) {c : Nat} (hc : c < payloads.length) :
    clusterOffset header payloads (c + 1) =
      clusterOffset header payloads c + clusterHeaderBytes + payloads[c].length := by
  rw [clusterOffset, ← List.take_append_getElem hc, List.flatMap_append, List.length_append,
    List.flatMap_singleton, length_clusterBytes, clusterOffset]
  omega

theorem drop_clusterOffset (hfile : header ++ payloads.flatMap clusterBytes <+: file) {c : Nat}
    (hc : c < payloads.length) :
    ∃ rest, file.drop (clusterOffset header payloads c) =
      clusterHeader payloads[c].length ++ (payloads[c] ++ rest) := by
  obtain ⟨tail, rfl⟩ := hfile
  have hsplit : payloads.flatMap clusterBytes = (payloads.take c).flatMap clusterBytes ++
      (clusterBytes payloads[c] ++ (payloads.drop (c + 1)).flatMap clusterBytes) := by
    rw [← List.flatMap_cons, ← List.drop_eq_getElem_cons hc, ← List.flatMap_append,
      List.take_append_drop]
  refine ⟨(payloads.drop (c + 1)).flatMap clusterBytes ++ tail, ?_⟩
  rw [hsplit, ← List.append_assoc header, List.append_assoc, clusterOffset, ← List.length_append,
    List.drop_left, clusterBytes]
  simp only [List.append_assoc]

theorem clusterOffset_le (hfile : header ++ payloads.flatMap clusterBytes <+: file) (c : Nat) :
    clusterOffset header payloads c ≤ file.length := by
  have hle := hfile.length_le
  have hsplit := congrArg List.length (congrArg (List.flatMap clusterBytes)
    (List.take_append_drop c payloads))
  rw [List.flatMap_append, List.length_append] at hsplit
  rw [List.length_append] at hle
  rw [clusterOffset]
  omega

/-! ## The walk -/

theorem off64_eq {n : Int} (h0 : 0 ≤ n) (h : n < 2 ^ 63) : off64 n = n := by
  rw [off64, Int.bmod_eq_of_le] <;> omega

theorem clampBytes_eq {bytes : Nat} {dbytes : Int} (h : (bytes : Int) ≤ dbytes) :
    clampBytes bytes dbytes = bytes := by
  unfold clampBytes
  split <;> omega

/-- `SearchWebM` reads all of the Cluster header at `offset`. -/
def InView (total : Int) (offset : Nat) : Prop :=
  total < offset ∨ (offset : Int) + clusterHeaderBytes ≤ total

theorem clampBytes_inView {total : Int} {offset : Nat} (h : InView total offset) :
    clampBytes clusterHeaderBytes (total - offset) = clusterHeaderBytes := by
  rcases h with h | h
  · exact if_neg (by omega)
  · exact clampBytes_eq (by omega)

theorem calOffsetLoop_clusters (hsize : ∀ p ∈ payloads, p.length < unknownSize) (count : Nat) :
    ∀ (c : Nat) (stale : Buf) (w : Webm), header ++ payloads.flatMap clusterBytes <+: w.file →
      w.file.length < 2 ^ 63 → c + count ≤ payloads.length →
      (∀ j, c ≤ j → j < c + count → InView w.totalFileBytes (clusterOffset header payloads j)) →
        ∃ x, calOffsetLoop count stale (clusterOffset header payloads c) w =
          ({ w with fp := x }, (clusterOffset header payloads (c + count) : Int)) := by
  induction count with
  | zero => exact fun c stale w _ _ _ _ => ⟨w.fp, rfl⟩
  | succ count ih =>
      intro c stale w hfile hlt hc hview
      have hin : c < payloads.length := by omega
      have hseek : fsetpos (clusterOffset header payloads c) w =
          { w with fp := (clusterOffset header payloads c : Int) } := if_pos (Int.natCast_nonneg _)
      obtain ⟨rest, hdrop⟩ := drop_clusterOffset hfile hin
      have hclamp := clampBytes_inView (hview c (le_refl c) (by omega))
      have hread : ({ w with fp := (clusterOffset header payloads c : Int) } : Webm).readBytes
          clusterHeaderBytes = clusterHeader payloads[c].length := by
        rw [Webm.readBytes, Int.toNat_natCast, hdrop, ← length_clusterHeader payloads[c].length,
          List.take_left]
      have hchank := (getChank_clusterHeader (Buf.overlay_holds stale _)
        (hsize _ (List.getElem_mem hin))).2
      have hnext := clusterOffset_succ header hin
      have hbound := clusterOffset_le hfile (c + 1)
      have hoffset : off64 ((clusterOffset header payloads c : Int) +
          ((clusterHeaderBytes + payloads[c].length : Nat) : Int)) =
          (clusterOffset header payloads (c + 1) : Int) := by
        rw [off64_eq (by omega) (by omega)]
        omega
      obtain ⟨x, hloop⟩ := ih (c + 1) (stale.overlay (clusterHeader payloads[c].length))
        { w with fp := (clusterOffset header payloads c : Int) + clusterHeaderBytes } hfile hlt
        (by omega) (fun j hj hj' => hview j (by omega) (by omega))
      refine ⟨x, ?_⟩
      rw [calOffsetLoop, hseek]
      simp only [searchWebM, fread, hclamp, hread, length_clusterHeader, hchank, hoffset, hloop]
      rw [show c + 1 + count = c + (count + 1) by omega]

/-- `CalOffset` of a record in cluster `c`, counted from the first one of the file. -/
theorem calOffset_clusters {w : Webm} {info : BlockInfo} {c : Nat} (stale : Buf)
    (hsize : ∀ p ∈ payloads, p.length < unknownSize)
    (hfile : header ++ payloads.flatMap clusterBytes <+: w.file) (hlt : w.file.length < 2 ^ 63)
    (hheader : w.webmHeaderTotalBytes.toNat = header.length)
    (hcount : (info.clusterSeq.toUInt32 - w.firstClusterSeq).toNat = c) (hc : c ≤ payloads.length)
    (hview : ∀ j < c, InView w.totalFileBytes (clusterOffset header payloads j))
    (hsum : clusterOffset header payloads c + (info.pos + info.bytes.toUInt32).toNat < 2 ^ 63) :
    ∃ x, calOffset stale info w = ({ w with fp := x },
      ((clusterOffset header payloads c +
        (info.pos + info.bytes.toUInt32).toNat : Nat) : Int)) := by
  obtain ⟨x, hloop⟩ := calOffsetLoop_clusters hsize c 0 stale w hfile hlt (by omega)
    (fun j _ hj => hview j (by omega))
  rw [clusterOffset_zero, Nat.zero_add] at hloop
  refine ⟨x, ?_⟩
  simp only [calOffset, hcount, hheader, hloop]
  rw [off64_eq (by omega) (by omega)]
  rfl

end Offsets

end P2PStream
