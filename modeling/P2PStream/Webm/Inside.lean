/-
# `P2PStream.Webm.Inside` — what the analysis of the header reads

`UpdateWebMHeaderFromWebM` hands `AnalyzeChankToWebMHeader` a window of the file, and not
how long it is.  A round of the analysis reads the byte that the loop tests, a header,
and behind the header of a Segment the twelve bytes that `Dump` prints.

The one test of a size compares an element with the file.  So the analysis stays in its
window when, and only when, the elements in it let it: every header that it comes to is
whole in the window, and nothing that it steps over ends with the window or behind it.
-/
import P2PStream.Webm.Forward
import P2PStream.Webm.Region

namespace P2PStream

open Lib

/-! ## The reads of a round -/

/-- How much `Dump` prints behind the header of a Segment. -/
def dumpBytes : Nat := 12

/-- The Segment at `p` is gone into. -/
def EntersSegment (buf : Buf) (p : Nat) : Prop :=
  (getChank (buf.drop p)).id = segmentId ∧ (getChank (buf.drop p)).dataBytes ≠ 0

instance (buf : Buf) (p : Nat) : Decidable (EntersSegment buf p) :=
  inferInstanceAs (Decidable (_ ∧ _))

/-- What the round at `p` reads. -/
def roundReads (buf : Buf) (p : Nat) : List Region :=
  ⟨p, 1⟩ :: if buf p = 0 then [] else
    ⟨p, (getChank (buf.drop p)).dataHeaderPosition⟩ ::
      if EntersSegment buf p then
        [⟨(p + (getChank (buf.drop p)).dataHeaderPosition) % 2 ^ 64, dumpBytes⟩]
      else []

/-- How far behind `p` the round there reads. -/
def roundNeeds (buf : Buf) (p : Nat) : Nat :=
  if buf p = 0 then 1
  else (getChank (buf.drop p)).dataHeaderPosition + if EntersSegment buf p then dumpBytes else 0

/-- A region that the analysis reads. -/
def AnalyzeReads (buf : Buf) (totalFileBytes : Int) (r : Region) : Prop :=
  ∃ p, (analyzeWalk buf totalFileBytes).Reached p ∧ r ∈ roundReads buf p

theorem roundReads_inside {buf : Buf} {p bytes : Nat} (hp : p < bytes) (hbytes : bytes ≤ 2 ^ 63) :
    (∀ r ∈ roundReads buf p, r.Inside bytes) ↔ p + roundNeeds buf p ≤ bytes := by
  have hheader := getChank_header_le (buf.drop p)
  have hdump : dumpBytes = 12 := rfl
  unfold roundReads roundNeeds
  rw [List.forall_mem_cons]
  by_cases hzero : buf p = 0
  · simp only [if_pos hzero, List.not_mem_nil, false_implies, implies_true, and_true, Region.Inside]
    omega
  rw [if_neg hzero, if_neg hzero, List.forall_mem_cons]
  by_cases hsegment : EntersSegment buf p
  · simp only [if_pos hsegment, List.forall_mem_singleton, Region.Inside, hdump,
      Nat.mod_eq_of_lt (show p + (getChank (buf.drop p)).dataHeaderPosition < 2 ^ 64 by omega)]
    omega
  · simp only [if_neg hsegment, List.not_mem_nil, false_implies, implies_true, and_true,
      Region.Inside]
    omega

/-! ## Nothing else is read -/

section Same

variable {d e : Buf} {totalFileBytes : Int}

/-- Two memories that agree on what the round at `p` reads do the same there. -/
theorem round_same (totalFileBytes : Int) {p : Nat} (h : ∀ r ∈ roundReads d p, r.Same d e) :
    ((analyzeWalk d totalFileBytes).goesOn p ↔ (analyzeWalk e totalFileBytes).goesOn p) ∧
      ((analyzeWalk d totalFileBytes).goesOn p →
        (analyzeWalk d totalFileBytes).next p = (analyzeWalk e totalFileBytes).next p) ∧
      analyzeStatus d p = analyzeStatus e p := by
  have hfirst : d p = e p := h ⟨p, 1⟩ List.mem_cons_self 0 Nat.one_pos
  by_cases hzero : d p = 0
  · have hzero' : e p = 0 := hfirst ▸ hzero
    refine ⟨iff_of_false (fun hgo => hgo.1 hzero) (fun hgo => hgo.1 hzero'),
      fun hgo => absurd hzero hgo.1, ?_⟩
    rw [analyzeStatus, analyzeStatus, if_pos hzero, if_pos hzero']
  · have hheader : Region.Same d e ⟨p, (getChank (d.drop p)).dataHeaderPosition⟩ :=
      h _ (by rw [roundReads, if_neg hzero]; exact List.mem_cons_of_mem _ List.mem_cons_self)
    have hchank : getChank (d.drop p) = getChank (e.drop p) := by
      refine getChank_same (Region.Same.drop ?_)
      rwa [Nat.add_zero]
    refine ⟨?_, fun _ => ?_, ?_⟩
    · simp only [analyzeWalk, hfirst, hchank]
    · rw [analyzeWalk_next, analyzeWalk_next, hchank]
    · rw [analyzeStatus, analyzeStatus, hfirst, hchank]

theorem analyzeLoop_same (h : ∀ r, AnalyzeReads d totalFileBytes r → r.Same d e) (fuel : Nat) :
    ∀ p, (analyzeWalk d totalFileBytes).Reached p →
      analyzeLoop d totalFileBytes fuel p = analyzeLoop e totalFileBytes fuel p := by
  induction fuel with
  | zero => exact fun _ _ => rfl
  | succ fuel ih =>
      intro p hp
      obtain ⟨hgoes, hnext, hstatus⟩ :=
        round_same totalFileBytes fun r hr => h r ⟨p, hp, hr⟩
      rw [analyzeLoop_succ, analyzeLoop_succ]
      by_cases hgo : (analyzeWalk d totalFileBytes).goesOn p
      · rw [if_pos hgo, if_pos (hgoes.mp hgo), ← hnext hgo]
        exact ih _ (hp.tail ⟨hgo, rfl⟩)
      · rw [if_neg hgo, if_neg (fun hgo' => hgo (hgoes.mpr hgo')), hstatus]

theorem analyzeChankToWebMHeader_same {w : Webm}
    (h : ∀ r, AnalyzeReads d w.totalFileBytes r → r.Same d e) :
    analyzeChankToWebMHeader d w = analyzeChankToWebMHeader e w := by
  rw [analyzeChankToWebMHeader, analyzeChankToWebMHeader, analyzeLoop_same h _ 0 .refl]

end Same

/-! ## The window -/

/-- The analysis reads nothing behind its first `bytes` bytes, and a header that it finds is not
longer, so that the copy stays inside as well. -/
structure StaysInside (buf : Buf) (w : Webm) (bytes : Nat) : Prop where
  reads : ∀ r, AnalyzeReads buf w.totalFileBytes r → r.Inside bytes
  copied : ∀ w' status, analyzeChankToWebMHeader buf w = some (w', status) → 0 < status →
    w'.webmHeaderTotalBytes.toNat ≤ bytes

/-- What the elements in the window have to be like: each that the analysis comes to has its header
in the window, with the bytes to print behind the header of a Segment, and each that it steps over
ends before the window does. -/
structure ElementsInside (buf : Buf) (totalFileBytes : Int) (bytes : Nat) : Prop where
  nonempty : 0 < bytes
  header : ∀ p, (analyzeWalk buf totalFileBytes).Reached p → p < bytes →
    p + roundNeeds buf p ≤ bytes
  next : ∀ p, (analyzeWalk buf totalFileBytes).Reached p → p < bytes →
    (analyzeWalk buf totalFileBytes).goesOn p → (analyzeWalk buf totalFileBytes).next p < bytes

section Window

variable {buf : Buf} {bytes : Nat}

theorem ElementsInside.reached_lt {totalFileBytes : Int}
    (h : ElementsInside buf totalFileBytes bytes) {p : Nat}
    (hp : (analyzeWalk buf totalFileBytes).Reached p) : p < bytes :=
  Walk.reached_of_closed (P := (· < bytes)) h.nonempty h.next hp

/-- A loop that is left is left at a position that the walk comes to. -/
theorem analyzeLoop_left {totalFileBytes : Int} {status : Int} {k : Nat} (fuel : Nat) :
    ∀ p, (analyzeWalk buf totalFileBytes).Reached p →
      analyzeLoop buf totalFileBytes fuel p = some (status, k) →
      (analyzeWalk buf totalFileBytes).Reached k ∧ status = analyzeStatus buf k := by
  induction fuel with
  | zero => exact fun _ _ h => nomatch h
  | succ fuel ih =>
      intro p hp h
      rw [analyzeLoop_succ] at h
      split at h
      · next hgo => exact ih _ (hp.tail ⟨hgo, rfl⟩) h
      · cases h
        exact ⟨hp, rfl⟩

theorem analyzeStatus_eq_one {p : Nat} :
    analyzeStatus buf p = 1 ↔ buf p ≠ 0 ∧ (getChank (buf.drop p)).id = clusterId := by
  unfold analyzeStatus
  split
  · next hzero => exact iff_of_false (by decide) fun h => h.1 hzero
  · next hzero =>
    split
    · next hcluster => exact iff_of_true rfl ⟨hzero, hcluster⟩
    · next hcluster => split <;> exact iff_of_false (by decide) fun h => hcluster h.2

theorem analyzeStatus_pos {p : Nat} (h : 0 < analyzeStatus buf p) : analyzeStatus buf p = 1 := by
  rw [analyzeStatus_eq_one]
  unfold analyzeStatus at h
  split at h
  · exact absurd h (by decide)
  · next hzero =>
    split at h
    · next hcluster => exact ⟨hzero, hcluster⟩
    · split at h <;> exact absurd h (by decide)

theorem analyzeChankToWebMHeader_left {w w' : Webm} {status : Int}
    (h : analyzeChankToWebMHeader buf w = some (w', status)) :
    ∃ k, analyzeLoop buf w.totalFileBytes (2 ^ 64 + 1) 0 = some (status, k) ∧
      w' = if status = 1 then { w with webmHeaderTotalBytes := UInt16.ofNat k } else w := by
  unfold analyzeChankToWebMHeader at h
  cases hloop : analyzeLoop buf w.totalFileBytes (2 ^ 64 + 1) 0 with
  | none =>
      rw [hloop] at h
      cases h
  | some result =>
      rw [hloop] at h
      cases h
      exact ⟨result.2, rfl, rfl⟩

theorem staysInside_iff (w : Webm) (hbytes : bytes ≤ 2 ^ 63) :
    StaysInside buf w bytes ↔ ElementsInside buf w.totalFileBytes bytes := by
  constructor
  · intro h
    have hlt : ∀ p, (analyzeWalk buf w.totalFileBytes).Reached p → p < bytes := by
      intro p hp
      rcases h.reads ⟨p, 1⟩ ⟨p, hp, List.mem_cons_self⟩ with hnone | hinside
      · exact absurd hnone Nat.one_ne_zero
      · exact hinside
    refine ⟨hlt 0 .refl, fun p hp hlt => ?_, fun p hp _ hgo => hlt _ (hp.tail ⟨hgo, rfl⟩)⟩
    exact (roundReads_inside hlt hbytes).mp fun r hr => h.reads r ⟨p, hp, hr⟩
  · intro h
    constructor
    · rintro r ⟨p, hp, hr⟩
      have hlt := h.reached_lt hp
      exact (roundReads_inside hlt hbytes).mpr (h.header p hp hlt) r hr
    · intro w' status hanalyze hsuccess
      obtain ⟨k, hloop, hw'⟩ := analyzeChankToWebMHeader_left hanalyze
      obtain ⟨hreached, hstatus⟩ := analyzeLoop_left _ 0 .refl hloop
      have hone : status = 1 := by
        rw [hstatus] at hsuccess ⊢
        exact analyzeStatus_pos hsuccess
      have hk := h.reached_lt hreached
      rw [hw', if_pos hone, UInt16.toNat_ofNat']
      exact (Nat.mod_le k _).trans hk.le

end Window

/-- The window of `UpdateWebMHeaderFromWebM`. -/
def analysisWindow (w : Webm) : Nat :=
  if headerWindow < w.totalFileBytes then headerWindow else w.totalFileBytes.toNat

/-- What `UpdateWebMHeaderFromWebM` hands to the analysis: the globals and the window, with the
memory `past` behind it. -/
def analysisCall (past : Buf) (w : Webm) : Webm × Buf :=
  importWebM (Buf.zero.splice (analysisWindow w) past) (analysisWindow w) w

theorem updateWebMHeaderFromWebM_call (past : Buf) (w : Webm) :
    updateWebMHeaderFromWebM past w =
      match analyzeChankToWebMHeader (analysisCall past w).2 (analysisCall past w).1 with
      | none => .error .hang
      | some (w', status) =>
          if 0 < status then
            let w' := seekABSWebM 0 w'
            if headerWindow < w'.totalFileBytes then
              .ok ({ w' with
                webmHeaderData :=
                  (analysisCall past w).2.take w'.webmHeaderTotalBytes.toNat }, true)
            else if w'.webmHeaderTotalBytes = 0 then .ok (w', true)
            else .error .segv
          else .ok (w', false) := rfl

theorem analysisWindow_le (w : Webm) : analysisWindow w ≤ headerWindow := by
  unfold analysisWindow
  split <;> omega

/-- For every contents and size of the file, every position in it, and whatever lies behind the
window: the analysis that `UpdateWebMHeaderFromWebM` calls stays inside its window, and the copy
that follows does, exactly when the elements in the window end inside it. -/
theorem headerAnalysis_inside_iff (past : Buf) (w : Webm) :
    StaysInside (analysisCall past w).2 (analysisCall past w).1 (analysisWindow w) ↔
      ElementsInside (analysisCall past w).2 w.totalFileBytes (analysisWindow w) :=
  staysInside_iff _ ((analysisWindow_le w).trans (by decide))

/-- A file whose first element is longer than the window: a Tracks element of 1506 bytes in front of
the first Cluster. -/
def longTracksFile : List UInt8 :=
  toBe 4 tracksId ++ [0x45, 0xdc] ++ List.replicate 1500 0 ++ toBe 4 clusterId ++ [0x80]

/-- The analysis looks for the element behind it at the byte 1506 of a window of 1024. -/
theorem headerAnalysis_leaves :
    let w := { Webm.start longTracksFile with totalFileBytes := longTracksFile.length }
    AnalyzeReads (analysisCall Buf.zero w).2 w.totalFileBytes ⟨1506, 1⟩ ∧ analysisWindow w = 1024 ∧
      ¬ Region.Inside (analysisWindow w) ⟨1506, 1⟩ := by
  intro w
  refine ⟨⟨1506, ?_, List.mem_cons_self⟩, by decide +kernel, by decide +kernel⟩
  refine Relation.ReflTransGen.refl.tail ⟨?_, ?_⟩
  · decide +kernel
  · decide +kernel

end P2PStream
