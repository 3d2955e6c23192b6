/-
# `P2PStream.Webm.Header` — finding the WebM header (`webm_parser.c`)

`AnalyzeChankToWebMHeader` walks over the elements before the first Cluster, into the
Segment and over all others, and takes what it has gone over for the header.  It looks
at the size of an element against `TOTAL_FILE_BYTES` and not against the window of 1024
bytes it is given, so it can leave the window.

The walk need not end either; it has `2 ^ 64` positions to visit.
-/
import P2PStream.Webm.Assemble

namespace P2PStream

open Lib

/-- The elements that are stepped over whole. -/
def headerIds : List Nat := [ebmlId, segmentId, seekheadId, voidId, infoId, tracksId]

/-- An `__off64_t` in a comparison with a `u64`. -/
def asU64 (n : Int) : Nat := (n % 2 ^ 64).toNat

/-- The loop of `AnalyzeChankToWebMHeader`: its status and `current_position`, which is
`current_bytes` as well. -/
def analyzeLoop (buf : Buf) (totalFileBytes : Int) : Nat → Nat → Option (Int × Nat)
  | 0, _ => none
  | fuel + 1, total =>
      if buf total = 0 then some (0, total)
      else
        let chank := getChank (buf.drop total)
        if chank.id = segmentId ∧ chank.dataBytes ≠ 0 then
          analyzeLoop buf totalFileBytes fuel ((total + chank.dataHeaderPosition) % 2 ^ 64)
        else if chank.id = clusterId then some (1, total)
        else if chank.id ∉ headerIds then some (-2, total)
        else if asU64 totalFileBytes < chank.chankBytes then some (-1, total)
        else analyzeLoop buf totalFileBytes fuel ((total + chank.chankBytes) % 2 ^ 64)

/-- `AnalyzeChankToWebMHeader`, and its result. -/
def analyzeChankToWebMHeader (buf : Buf) (w : Webm) : Option (Webm × Int) := do
  let (status, total) ← analyzeLoop buf w.totalFileBytes (2 ^ 64 + 1) 0
  let w := if status = 1 then { w with webmHeaderTotalBytes := UInt16.ofNat total } else w
  return (w, status)

/-- The window of `UpdateWebMHeaderFromWebM`. -/
def headerWindow : Nat := 1024

/-- One round of the loop of `UpdateWebMHeaderFromWebM`, behind a `CheckWebMSize` that found the
file grown; and whether it is the last.  `past` is the memory behind `file_buf`.

A file that is no longer than the window has its header copied to where nothing was allocated. -/
def updateWebMHeaderFromWebM (past : Buf) (w : Webm) : Except Fault (Webm × Bool) :=
  let bytes := if headerWindow < w.totalFileBytes then headerWindow else w.totalFileBytes.toNat
  let (w, data) := importWebM (Buf.zero.splice bytes past) bytes w
  match analyzeChankToWebMHeader data w with
  | none => .error .hang
  | some (w, status) =>
      if 0 < status then
        let w := seekABSWebM 0 w
        if headerWindow < w.totalFileBytes then
          .ok ({ w with webmHeaderData := data.take w.webmHeaderTotalBytes.toNat }, true)
        else if w.webmHeaderTotalBytes = 0 then .ok (w, true)
        else .error .segv
      else
        .ok (w, false)

/-! ## Well-formed headers -/

theorem head_ne_zero_of_header {buf : Buf} {e : Element} (h : buf.Holds e.header) : buf 0 ≠ 0 := by
  have hlt := vint_head_lt e.idWidth_pos (show e.idWidth ≤ 8 by have := e.idWidth_le; omega)
    e.idValue_lt
  obtain ⟨-, -, hval⟩ := marker_vint e.idWidth e.idWidth_pos (by have := e.idWidth_le; omega) _ hlt
  rw [Element.header, vint_eq_cons e.idValue e.idWidth_pos (by have := e.idWidth_le; omega),
    List.cons_append, Buf.holds_cons] at h
  intro hzero
  have hhead := congrArg UInt8.toNat (h.1.symm.trans hzero)
  rw [hval] at hhead
  exact absurd hhead (by positivity)

theorem analyzeLoop_cluster {buf : Buf} {totalFileBytes : Int} {total : Nat} (fuel : Nat)
    (h : (buf.drop total).Holds (toBe 4 clusterId)) :
    analyzeLoop buf totalFileBytes (fuel + 1) total = some (1, total) := by
  have hid : (getChank (buf.drop total)).id = clusterId := by
    rw [getChank_id, getEBMLID_vint (by decide : 0 < 4) (le_refl 4)
      (by decide : clusterId - 2 ^ 28 < 2 ^ (7 * 4)) h]
    decide
  have hhead : buf total ≠ 0 := by
    have hfirst := h 0 (by decide)
    rw [Buf.drop_apply, Nat.add_zero] at hfirst
    rw [hfirst]
    decide
  have hsegment : ¬ (clusterId = segmentId ∧ (getChank (buf.drop total)).dataBytes ≠ 0) :=
    fun h => absurd h.1 (by decide)
  rw [analyzeLoop, if_neg hhead]
  simp only [hid, if_neg hsegment, if_true]

/-- A header element that is not longer than the file is stepped over. -/
theorem analyzeLoop_element {buf : Buf} {totalFileBytes : Int} {total : Nat} {e : Element}
    (fuel : Nat) (hid : e.id ∈ headerIds) (hsegment : e.id ≠ segmentId)
    (h : (buf.drop total).Holds e.header) (hsize : e.bytes.length ≤ asU64 totalFileBytes)
    (hlt : total + e.bytes.length < 2 ^ 64) :
    analyzeLoop buf totalFileBytes (fuel + 1) total =
      analyzeLoop buf totalFileBytes fuel (total + e.bytes.length) := by
  have hhead : buf total ≠ 0 := by
    have hfirst := head_ne_zero_of_header h
    rwa [Buf.drop_apply, Nat.add_zero] at hfirst
  have hcluster : e.id ≠ clusterId := fun heq => absurd (heq ▸ hid) (by decide)
  rw [analyzeLoop, if_neg hhead, getChank_element e h]
  simp only [hsegment, hcluster, hid, false_and, if_false, not_true_eq_false,
    if_neg (Nat.not_lt_of_le hsize), Nat.mod_eq_of_lt hlt]

theorem analyzeChankToWebMHeader_of_loop {buf : Buf} {w : Webm} {k : Nat}
    (h : analyzeLoop buf w.totalFileBytes (2 ^ 64 + 1) 0 = some (1, k)) :
    analyzeChankToWebMHeader buf w =
      some ({ w with webmHeaderTotalBytes := UInt16.ofNat k }, 1) := by
  simp only [analyzeChankToWebMHeader, h, Option.bind_eq_bind, Option.bind_some, if_true]
  rfl

theorem seekABSWebM_zero (w : Webm) : seekABSWebM 0 w = { w with fp := 0, currentFposR := 0 } := rfl

/-- An element in front of the first Cluster, in a file longer than the window: it is the header. -/
theorem updateWebMHeaderFromWebM_element {past : Buf} {w : Webm} {e : Element} {rest : List UInt8}
    (hid : e.id ∈ headerIds) (hsegment : e.id ≠ segmentId)
    (hview : e.bytes.length + 4 ≤ headerWindow)
    (hfile : w.file.drop w.fp.toNat = e.bytes ++ (toBe 4 clusterId ++ rest))
    (hfpos : w.currentFposR = 0) (htotal : headerWindow < w.totalFileBytes)
    (hsize : e.bytes.length ≤ asU64 w.totalFileBytes) :
    ∃ w', updateWebMHeaderFromWebM past w = .ok (w', true) ∧
      w'.webmHeaderTotalBytes.toNat = e.bytes.length ∧
      w'.clusterAllocated = w.clusterAllocated ∧
      w'.childBlocksAllocated = w.childBlocksAllocated := by
  have hwindow : headerWindow = 1024 := rfl
  have hclamp : clampBytes headerWindow (w.totalFileBytes - w.currentFposR) = headerWindow := by
    rw [clampBytes, if_neg (by omega)]
  have hholds : ((Buf.zero.splice headerWindow past).overlay (w.readBytes headerWindow)).Holds
      (e.bytes ++ toBe 4 clusterId) := by
    refine (Buf.overlay_holds _ _).restrict ?_
    rw [Webm.readBytes, hfile, ← List.append_assoc]
    exact List.prefix_take_iff.mpr ⟨List.prefix_append _ _, by
      rw [List.length_append, length_toBe]
      omega⟩
  obtain ⟨hheader, hcluster⟩ := Buf.holds_append.mp hholds
  have hlt : 0 + e.bytes.length < 2 ^ 64 := by omega
  have hloop : analyzeLoop ((Buf.zero.splice headerWindow past).overlay (w.readBytes headerWindow))
      w.totalFileBytes (2 ^ 64 + 1) 0 = some (1, e.bytes.length) := by
    rw [show (2 : Nat) ^ 64 + 1 = 2 ^ 64 - 1 + 1 + 1 from rfl,
      analyzeLoop_element _ hid hsegment (by
        rw [Buf.drop_zero]
        exact (Buf.holds_append.mp hheader).1) hsize hlt, Nat.zero_add]
    exact analyzeLoop_cluster _ hcluster
  have hanalyze := analyzeChankToWebMHeader_of_loop (w := { w with
    fp := w.fp + (w.readBytes headerWindow).length
    currentReadBytes := (w.readBytes headerWindow).length }) hloop
  simp only [updateWebMHeaderFromWebM, if_pos htotal, importWebM, hclamp, fread, hanalyze,
    seekABSWebM_zero]
  rw [if_pos (by decide)]
  refine ⟨_, rfl, ?_, rfl, rfl⟩
  rw [UInt16.toNat_ofNat_of_lt' (by simp only [UInt16.size]; omega)]

end P2PStream
