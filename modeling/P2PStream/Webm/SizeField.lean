/-
# `P2PStream.Webm.SizeField` — what is written of an element header is read back

`GetChank` finds the lengths of the id and of the size by their marker bits.  It gives
back what `vint` encodes, for each width; the one size that is not a size is that of
seven bytes of ones behind `0x01`.  `UpdateClusterDataBytesToWebM` writes these seven
bytes by a loop of its own, behind a `0x01` that it leaves alone.
-/
import P2PStream.Webm.Assemble
import P2PStream.Webm.Clusters

namespace P2PStream

open Lib

/-! ## Writing over a part of the file -/

theorem writeAt_end (file l : List UInt8) : writeAt file file.length l = file ++ l := by
  rw [writeAt, List.take_length, Nat.sub_self, List.replicate_zero, List.append_nil,
    List.drop_of_length_le (Nat.le_add_right _ _), List.append_nil]

theorem writeAt_middle (a b c l : List UInt8) (h : l.length = b.length) :
    writeAt (a ++ (b ++ c)) a.length l = a ++ (l ++ c) := by
  have hbehind : (a ++ (b ++ c)).drop (a.length + l.length) = c := by
    rw [h, ← List.append_assoc, ← List.length_append, List.drop_left]
  have hgap : a.length - (a ++ (b ++ c)).length = 0 := by
    rw [List.length_append]
    omega
  rw [writeAt, hbehind, hgap, List.take_left, List.replicate_zero, List.append_nil,
    List.append_assoc]

/-! ## The size field of a cluster -/

/-- The id and the first byte of the size, as `FOOTER` has them. -/
def footerMark : List UInt8 := footer.take (clusterIdBytes + 1)

theorem vint_unknown : vint 8 unknownSize = 0x01 :: List.replicate 7 0xff := by decide

theorem footerMark_append {v : Nat} (hv : v < 2 ^ 56) :
    footerMark ++ toBe 7 v = clusterHeader v := by
  have hmark : footerMark = toBe 4 clusterId ++ [0x01] := by decide
  have hhead : vint 8 v = 0x01 :: toBe 7 v := by
    rw [vint_eq_cons v (by decide) (by decide), Nat.div_eq_of_lt (by exact hv)]
    rfl
  rw [hmark, clusterHeader, hhead, List.append_assoc]
  rfl

/-- The bytes are written over the old ones; the file is the same elsewhere. -/
theorem updateClusterDataBytesToWebM_file (w : Webm) (cluster : Cluster) {a size b : List UInt8}
    (hfile : w.file = a ++ (size ++ b)) (hsize : size.length = 7)
    (hpos : cluster.pos + (cluster.info.idBytes + 1 : Nat) = a.length) :
    (updateClusterDataBytesToWebM cluster w).file =
      a ++ (toBe 7 cluster.info.dataBytes ++ b) := by
  have hseek : ∀ (offset : Int) (v : Webm), (seekABSWebMW offset v).file = v.file := by
    intro offset v
    simp only [seekABSWebMW, fsetpos]
    split <;> rfl
  have hmiddle := writeAt_middle a size b (toBe 7 cluster.info.dataBytes)
    (by rw [length_toBe, hsize])
  simp only [updateClusterDataBytesToWebM, hpos, hseek]
  simp only [exportWebM, updateOffsetWebM, seekABSWebMW, fsetpos,
    if_pos (Int.natCast_nonneg _), Int.toNat_natCast, hfile, hmiddle]

/-! ## Decoding undoes encoding -/

/-- Of what is encoded `GetChank` gives back the id, the size and the lengths, whatever follows: of
any id of up to four bytes with any size in up to eight, of the unknown size, and of the size that
`UpdateClusterDataBytesToWebM` writes behind the mark of a cluster. -/
theorem getChank_undoes :
    (∀ {buf : Buf} {n x w v : Nat}, 0 < n → n ≤ 4 → x < 2 ^ (7 * n) → 0 < w → w ≤ 8 →
      v < 2 ^ (7 * w) - 1 → buf.Holds (vint n x ++ vint w v) →
      getChank buf = ⟨2 ^ (7 * n) + x, n, n + w, v, n + w + v⟩ ∧ n + w + v < 2 ^ 64) ∧
    (∀ {buf : Buf} {n x : Nat}, 0 < n → n ≤ 4 → x < 2 ^ (7 * n) →
      buf.Holds (vint n x ++ 0x01 :: List.replicate 7 0xff) →
      getChank buf = ⟨2 ^ (7 * n) + x, n, n + 8, 0, n + 8⟩) ∧
    ∀ {w : Webm} {cluster : Cluster} {front size behind : List UInt8} {buf : Buf},
      w.file = front ++ (footerMark ++ (size ++ behind)) → size.length = 7 →
      cluster.pos = front.length → cluster.info.idBytes = clusterIdBytes →
      cluster.info.dataBytes < 2 ^ 56 - 1 →
      buf.Holds ((updateClusterDataBytesToWebM cluster w).file.drop front.length) →
      getChank buf = clusterChank cluster.info.dataBytes := by
  have hunknown : unknownSize = 2 ^ 56 - 1 := by decide
  refine ⟨?_, ?_, ?_⟩
  · intro buf n x w v hn0 hn4 hx hw0 hw8 hv hbuf
    have hpow : 2 ^ (7 * w) ≤ 2 ^ 56 := Nat.pow_le_pow_right (by decide) (by omega)
    exact ⟨getChank_header hn0 hn4 hx hw0 hw8 (by omega) (by omega) hbuf, by omega⟩
  · intro buf n x hn0 hn4 hx hbuf
    rw [← vint_unknown] at hbuf
    exact getChank_unknown hn0 hn4 hx hbuf
  · intro w cluster front size behind buf hfile hsize hpos hid hv hbuf
    have hmark : (front ++ footerMark).length = front.length + 5 := List.length_append
    rw [← List.append_assoc] at hfile
    have hwritten := updateClusterDataBytesToWebM_file w cluster hfile hsize (by
      rw [hpos, hid, hmark]
      rfl)
    rw [hwritten, List.append_assoc, List.drop_left, ← List.append_assoc,
      footerMark_append (by omega)] at hbuf
    exact getChank_clusterHeader_eq (Buf.holds_append.mp hbuf).1 (by omega)

/-- A Cluster header of 700 bytes, a `FOOTER`, and a `FOOTER` whose size has been written. -/
theorem getChank_undoes_cluster :
    let open700 : Cluster := { Cluster.zero with info := ⟨clusterId, 4, 12, 700, 712⟩ }
    getChank (Buf.zero.overlay (vint 4 0x0f43b675 ++ vint 8 700)) = clusterChank 700 ∧
      getChank (Buf.zero.overlay (vint 4 0x0f43b675 ++ 0x01 :: List.replicate 7 0xff)) =
        clusterChank 0 ∧
      getChank (Buf.zero.overlay
        ((updateClusterDataBytesToWebM open700 (Webm.start footer)).file.drop 0)) =
        clusterChank 700 := by
  obtain ⟨hheader, hunknown, hwritten⟩ := getChank_undoes
  refine ⟨?_, ?_, ?_⟩
  · exact (hheader (by decide) (by decide) (by decide) (by decide) (by decide) (by decide)
      (Buf.overlay_holds _ _)).1
  · exact hunknown (by decide) (by decide) (by decide) (Buf.overlay_holds _ _)
  · exact @hwritten (Webm.start footer) _ [] (List.replicate 7 0xff) [] _ rfl rfl rfl rfl
      (by decide) (Buf.overlay_holds _ _)

end P2PStream
