/-
# `P2PStream.Origin.Capture` — the header of a file that is being written

`UpdateWebMHeaderFromWebM` looks at the file each time it has grown, until it finds the
header.  A round that fails leaves the stream behind what it has read, and only a round
that succeeds seeks back; and only the branch for a file longer than the window allocates
the header.  So the header is captured as it stands in the file when the first round
succeeds: when the file is first seen with more bytes than the window has, and the window
shows the headers of all elements up to the id of the first Cluster.

The file on the disk is a prefix of the whole file at each round.
-/
import P2PStream.Origin.Startup
import P2PStream.Webm.Grammar
import P2PStream.Webm.Inside

namespace P2PStream

open Lib

/-! ## The rounds -/

/-- The rounds of `UpdateWebMHeaderFromWebM`: each finds so many bytes of the file on the disk, and
has some memory behind its window.  The loop has returned when the flag is set. -/
def headerRounds (file : List UInt8) : List (Buf × Nat) → Webm → Except Fault (Webm × Bool)
  | [], w => .ok (w, false)
  | (past, size) :: rounds, w => do
      let (w, last) ← headerRound past (file.take size) w
      if last then return (w, true) else headerRounds file rounds w

/-- The walk of the analysis over the whole file. -/
def fileWalk (file : List UInt8) : Walk := analyzeWalk (Buf.zero.overlay file) file.length

/-- The analysis accepts the header that the whole file begins with, and finds the first Cluster
behind `k` bytes. -/
def HeaderAt (file : List UInt8) (k : Nat) : Prop :=
  analyzeLoop (Buf.zero.overlay file) file.length (2 ^ 64 + 1) 0 = some (1, k)

/-- What the analysis has to see of the element at `p`: the header of one that it steps over, and of
any other the id. -/
def headerEnd (file : List UInt8) (p : Nat) : Nat :=
  p + if (fileWalk file).goesOn p then (fileWalk file).header p
    else (getChank ((Buf.zero.overlay file).drop p)).idBytes

/-- The window shows the header, up to the id of the first Cluster. -/
def HeaderInView (file : List UInt8) : Prop :=
  ∀ p, (fileWalk file).Reached p → headerEnd file p ≤ headerWindow

/-- `WEBM_HEADER` holds the first `k` bytes of the file. -/
structure Captured (file : List UInt8) (k : Nat) (w : Webm) : Prop where
  total : w.webmHeaderTotalBytes.toNat = k
  length : w.webmHeaderData.length = k
  data : w.webmHeaderData = file.take k

/-! ## The window shows what the file has -/

theorem getChank_idBytes (buf : Buf) : (getChank buf).idBytes = markerLength (buf 0) := by
  simp only [getChank]
  split <;> rfl

section View

variable {file : List UInt8} {k : Nat}

theorem HeaderAt.reached (h : HeaderAt file k) : (fileWalk file).Reached k := by
  unfold HeaderAt at h
  exact (analyzeLoop_left _ 0 .refl h).1

theorem lt_headerEnd (file : List UInt8) (p : Nat) : p < headerEnd file p := by
  have hpos := markerLength_pos (((Buf.zero.overlay file).drop p) 0)
  have hheader := (getChank_header_le ((Buf.zero.overlay file).drop p)).1
  rw [headerEnd, getChank_idBytes]
  split
  · exact Nat.lt_add_of_pos_right hheader
  · exact Nat.lt_add_of_pos_right hpos

/-- An element that the walk over the file steps over is not longer than the window. -/
theorem chankBytes_le_window {p : Nat} (hfile : file.length < 2 ^ 63) (hview : HeaderInView file)
    (hp : (fileWalk file).Reached p) (hgo : (fileWalk file).goesOn p)
    (hsegment : ¬ EntersSegment (Buf.zero.overlay file) p) :
    (getChank ((Buf.zero.overlay file).drop p)).chankBytes ≤ headerWindow := by
  have hwindow : headerWindow = 1024 := rfl
  have hu64 : asU64 file.length = file.length := by
    rw [asU64]
    omega
  have hlong : (getChank ((Buf.zero.overlay file).drop p)).chankBytes ≤ file.length := by
    rcases hgo.2 with h | h
    · exact absurd h hsegment
    · exact hu64 ▸ h.2
  have hlt := (lt_headerEnd file p).trans_le (hview p hp)
  have hnext := (lt_headerEnd file _).trans_le (hview _ (hp.tail ⟨hgo, rfl⟩))
  -- the data of a Segment that is not gone into are none, so the walk adds the whole element
  have hdata : (if (getChank ((Buf.zero.overlay file).drop p)).id = segmentId then 0
      else (getChank ((Buf.zero.overlay file).drop p)).dataBytes) =
      (getChank ((Buf.zero.overlay file).drop p)).dataBytes := by
    split
    · next hid => exact (not_not.mp fun h => hsegment ⟨hid, h⟩).symm
    · rfl
  have hsum : (fileWalk file).next p =
      (p + (getChank ((Buf.zero.overlay file).drop p)).chankBytes) % 2 ^ 64 := by
    rw [fileWalk, analyzeWalk_next, hdata, getChank_chankBytes_mod, Nat.add_mod_mod,
      ← Nat.add_assoc]
  rw [hsum] at hnext
  omega

/-- A window that agrees with the file makes the analysis end where it ends on the file. -/
theorem analyzeLoop_view {window : Buf} {totalFileBytes : Int} (hfile : file.length < 2 ^ 63)
    (hview : HeaderInView file)
    (hsame : Region.Same (Buf.zero.overlay file) window ⟨0, headerWindow⟩)
    (htotal : headerWindow ≤ asU64 totalFileBytes) (fuel : Nat) :
    ∀ p, (fileWalk file).Reached p →
      analyzeLoop (Buf.zero.overlay file) file.length fuel p = some (1, k) →
      analyzeLoop window totalFileBytes fuel p = some (1, k) := by
  induction fuel with
  | zero => exact fun _ _ h => nomatch h
  | succ fuel ih =>
      intro p hp h
      have hend := hview p hp
      have hlt := (lt_headerEnd file p).trans_le hend
      have hfirst : Buf.zero.overlay file p = window p := by
        have hbyte := hsame p hlt
        rwa [Nat.zero_add] at hbyte
      have hregion : ∀ n, p + n ≤ headerWindow →
          Region.Same ((Buf.zero.overlay file).drop p) (window.drop p) ⟨0, n⟩ := by
        intro n hn
        exact Region.Same.drop (hsame.part (Nat.zero_le _) (by omega))
      rw [analyzeLoop_succ] at h ⊢
      by_cases hgo : (fileWalk file).goesOn p
      · rw [headerEnd, if_pos hgo] at hend
        have hchank := getChank_same (hregion _ hend)
        have hgo' : (analyzeWalk window totalFileBytes).goesOn p := by
          refine ⟨hfirst ▸ hgo.1, ?_⟩
          rw [← hchank]
          by_cases hsegment : EntersSegment (Buf.zero.overlay file) p
          · exact .inl hsegment
          · have hknown := (hgo.2.resolve_left hsegment).1
            exact .inr ⟨hknown, (chankBytes_le_window hfile hview hp hgo hsegment).trans htotal⟩
        have hnext : (analyzeWalk window totalFileBytes).next p = (fileWalk file).next p := by
          rw [fileWalk, analyzeWalk_next, analyzeWalk_next, hchank]
        rw [if_pos hgo', hnext]
        exact ih _ (hp.tail ⟨hgo, rfl⟩) ((if_pos hgo).symm.trans h)
      · rw [headerEnd, if_neg hgo, getChank_idBytes] at hend
        have hid : (getChank ((Buf.zero.overlay file).drop p)).id =
            (getChank (window.drop p)).id := by
          rw [getChank_id, getChank_id, getEBMLID_same (hregion _ hend)]
        have hleft := Option.some.inj ((if_neg hgo).symm.trans h)
        obtain ⟨hzero, hcluster⟩ := analyzeStatus_eq_one.mp (congrArg Prod.fst hleft)
        have hp' : p = k := congrArg Prod.snd hleft
        have hgo' : ¬ (analyzeWalk window totalFileBytes).goesOn p := by
          rintro ⟨-, h | h⟩
          · exact absurd (hcluster.symm.trans (hid.trans h.1)) (by decide)
          · exact absurd ((hid.symm.trans hcluster) ▸ h.1) (by decide)
        rw [if_neg hgo', analyzeStatus_eq_one.mpr ⟨hfirst ▸ hzero, hid.symm.trans hcluster⟩, hp']

end View

/-! ## What a round does -/

/-- No byte of the file has been seen yet. -/
structure Unread (w : Webm) : Prop where
  fp : w.fp = 0
  currentFposR : w.currentFposR = 0
  totalFileBytes : w.totalFileBytes = 0

theorem unread_start (file : List UInt8) : Unread (Webm.start file) := ⟨rfl, rfl, rfl⟩

section Round

variable {file : List UInt8} {k size : Nat} {past : Buf} {w : Webm}

theorem headerRound_empty (hw : Unread w) :
    headerRound past (file.take 0) w = .ok ({ w with file := file.take 0 }, false) := by
  rw [headerRound, if_neg]
  rw [hw.totalFileBytes, List.take_zero, List.length_nil]
  decide

theorem analysisCall_start (past : Buf) (hfp : w.fp = 0) (hpos : w.currentFposR = 0)
    (htotal : headerWindow < w.totalFileBytes) (hlength : headerWindow ≤ w.file.length) :
    analysisCall past w = ({ w with fp := headerWindow, currentReadBytes := headerWindow },
      (Buf.zero.splice headerWindow past).overlay (w.file.take headerWindow)) := by
  have hbytes : analysisWindow w = headerWindow := if_pos htotal
  have hclamp : clampBytes headerWindow (w.totalFileBytes - w.currentFposR) = headerWindow := by
    rw [clampBytes, if_neg (by omega)]
  have hread : w.readBytes headerWindow = w.file.take headerWindow := by
    rw [Webm.readBytes, hfp, Int.toNat_zero, List.drop_zero]
  have hcount : (w.file.take headerWindow).length = headerWindow := List.length_take_of_le hlength
  rw [analysisCall, hbytes]
  simp only [importWebM, fread, hclamp, hread, hcount, hfp, Int.zero_add]

/-- An analysis that succeeds on the window of a file longer than it. -/
theorem updateWebMHeaderFromWebM_succeeds {w' : Webm}
    (h : analyzeChankToWebMHeader (analysisCall past w).2 (analysisCall past w).1 = some (w', 1))
    (htotal : headerWindow < w'.totalFileBytes) :
    updateWebMHeaderFromWebM past w = .ok ({ seekABSWebM 0 w' with
      webmHeaderData := (analysisCall past w).2.take w'.webmHeaderTotalBytes.toNat }, true) := by
  rw [updateWebMHeaderFromWebM_call, h]
  exact if_pos htotal

/-- What `fread` takes from the start of a prefix is what the file has. -/
theorem window_same (hcount : headerWindow ≤ file.length) :
    Region.Same (Buf.zero.overlay file)
      ((Buf.zero.splice headerWindow past).overlay (file.take headerWindow)) ⟨0, headerWindow⟩ := by
  intro i hi
  have hi' : i < headerWindow := hi
  have hlength : (file.take headerWindow).length = headerWindow := List.length_take_of_le hcount
  have hshows := Buf.overlay_holds (Buf.zero.splice headerWindow past) (file.take headerWindow) i
    (by omega)
  rw [Nat.zero_add, hshows, List.getElem_take]
  exact Buf.overlay_holds Buf.zero file i (by omega)

/-- The file is read from its start, and has more bytes than the window: its header is captured. -/
theorem updateWebMHeaderFromWebM_captures (hfile : file.length < 2 ^ 63) (hheader : HeaderAt file k)
    (hview : HeaderInView file) (hfp : w.fp = 0) (hpos : w.currentFposR = 0)
    (hbegins : w.file = file.take size) (htotal : w.totalFileBytes = size)
    (hsize : headerWindow < size) (hle : size ≤ file.length) :
    ∃ w', updateWebMHeaderFromWebM past w = .ok (w', true) ∧ Captured file k w' := by
  have hwindow : headerWindow = 1024 := rfl
  have hcall := analysisCall_start past hfp hpos (by rw [htotal]; exact_mod_cast hsize)
    (by rw [hbegins, List.length_take_of_le hle]; exact hsize.le)
  rw [hbegins, List.take_take, Nat.min_eq_left hsize.le] at hcall
  have hloop : analyzeLoop (analysisCall past w).2 (analysisCall past w).1.totalFileBytes
      (2 ^ 64 + 1) 0 = some (1, k) := by
    rw [hcall]
    refine analyzeLoop_view hfile hview (window_same (by omega)) ?_ _ 0 .refl hheader
    rw [htotal, asU64]
    omega
  have hk := (lt_headerEnd file k).trans_le (hview k hheader.reached)
  have hnat : (UInt16.ofNat k).toNat = k :=
    UInt16.toNat_ofNat_of_lt' (by simp only [UInt16.size]; omega)
  have htake : (analysisCall past w).2.take k = file.take k := by
    have hcount : (file.take headerWindow).length = headerWindow :=
      List.length_take_of_le (by omega)
    rw [hcall, (Buf.overlay_holds _ _).take_eq (by omega), List.take_take, Nat.min_eq_left hk.le]
  refine ⟨_, updateWebMHeaderFromWebM_succeeds (analyzeChankToWebMHeader_of_loop hloop) ?_, hnat,
    ?_, ?_⟩
  · rw [hcall, htotal]
    exact_mod_cast hsize
  · exact (Buf.length_take _ _).trans hnat
  · simp only [hnat, htake]

/-- A round that first sees the file longer than the window captures the header. -/
theorem headerRound_captures (past : Buf) (hfile : file.length < 2 ^ 63) (hheader : HeaderAt file k)
    (hview : HeaderInView file) (hw : Unread w) (hsize : headerWindow < size)
    (hle : size ≤ file.length) :
    ∃ w', headerRound past (file.take size) w = .ok (w', true) ∧ Captured file k w' := by
  have hlength : (file.take size).length = size := List.length_take_of_le hle
  rw [headerRound, if_pos (by rw [hw.totalFileBytes, hlength]; omega)]
  exact updateWebMHeaderFromWebM_captures hfile hheader hview hw.fp hw.currentFposR rfl
    (by rw [hlength]) hsize hle

end Round

/-! ## Every run -/

/-- The size at which the rounds first see anything of the file. -/
def firstSeen (rounds : List (Buf × Nat)) : Option Nat := (rounds.map (·.2)).find? (0 < ·)

theorem firstSeen_cons_zero (past : Buf) (rounds : List (Buf × Nat)) :
    firstSeen ((past, 0) :: rounds) = firstSeen rounds := rfl

theorem firstSeen_cons_pos (past : Buf) {size : Nat} (rounds : List (Buf × Nat)) (h : 0 < size) :
    firstSeen ((past, size) :: rounds) = some size := by
  simp [firstSeen, h]

theorem headerRounds_captured {file : List UInt8} {k : Nat} (hfile : file.length < 2 ^ 63)
    (hheader : HeaderAt file k) (hview : HeaderInView file) {rounds : List (Buf × Nat)}
    (hle : ∀ round ∈ rounds, round.2 ≤ file.length)
    (hfirst : ∀ size, firstSeen rounds = some size → headerWindow < size) :
    ∀ w, Unread w → ∃ w' last, headerRounds file rounds w = .ok (w', last) ∧
      (last = true ↔ (firstSeen rounds).isSome) ∧ (last = true → Captured file k w') := by
  induction rounds with
  | nil => exact fun w _ => ⟨w, false, rfl, by simp [firstSeen], fun h => nomatch h⟩
  | cons round rounds ih =>
      intro w hw
      obtain ⟨past, size⟩ := round
      have hsize : size ≤ file.length := hle _ List.mem_cons_self
      rcases Nat.eq_zero_or_pos size with rfl | hpos
      · rw [firstSeen_cons_zero] at hfirst ⊢
        obtain ⟨w', last, hrounds, hreturns, hcaptured⟩ := ih
          (fun r hr => hle r (List.mem_cons_of_mem _ hr)) hfirst { w with file := file.take 0 }
          ⟨hw.fp, hw.currentFposR, hw.totalFileBytes⟩
        refine ⟨w', last, ?_, hreturns, hcaptured⟩
        rw [headerRounds, headerRound_empty hw]
        exact hrounds
      · have hseen := firstSeen_cons_pos past rounds hpos
        obtain ⟨w', hround, hcaptured⟩ :=
          headerRound_captures past hfile hheader hview hw (hfirst size hseen) hsize
        refine ⟨w', true, ?_, ?_, fun _ => hcaptured⟩
        · rw [headerRounds, hround]
          rfl
        · rw [hseen]
          exact iff_of_true rfl rfl

/-- For every file that begins with a header the analysis accepts, and every run of rounds, each of
which sees a prefix of it: when the first of them that sees anything sees more than the window,
and the window shows the header, no round faults, the loop returns with that round, and
`WEBM_HEADER` holds the file up to its first Cluster. -/
theorem header_captured {file disk : List UInt8} {k : Nat} {rounds : List (Buf × Nat)}
    (hfile : file.length < 2 ^ 63) (hheader : HeaderAt file k)
    (hle : ∀ round ∈ rounds, round.2 ≤ file.length)
    (hfirst : ∀ size, firstSeen rounds = some size → headerWindow < size)
    (hview : HeaderInView file) :
    ∃ w last, headerRounds file rounds (Webm.start disk) = .ok (w, last) ∧
      (last = true ↔ (firstSeen rounds).isSome) ∧ (last = true → Captured file k w) :=
  headerRounds_captured hfile hheader hview hle hfirst _ (unread_start disk)

/-- A live header, a Cluster, and nothing but zeros behind. -/
def liveFile : List UInt8 := liveHeader.bytes ++ (toBe 4 clusterId ++ List.replicate 1200 0)

theorem header_captured_liveFile : ∃ w last,
    headerRounds liveFile [(Buf.zero, 0), (Buf.zero, 1100), (Buf.zero, 1239)] (Webm.start []) =
        .ok (w, last) ∧
      (last = true ↔ (firstSeen [(Buf.zero, 0), (Buf.zero, 1100), (Buf.zero, 1239)]).isSome) ∧
      (last = true → Captured liveFile 35 w) := by
  have hheader : HeaderAt liveFile 35 := by
    unfold HeaderAt
    decide +kernel
  have hview : HeaderInView liveFile := by
    have hends : ∀ p ∈ [0, 5, 17, 23, 35], headerEnd liveFile p ≤ headerWindow := by decide +kernel
    intro p hp
    exact hends p (Walk.reached_of_closed (P := (· ∈ [0, 5, 17, 23, 35])) (by decide)
      (fun p _ => (by decide +kernel : ∀ p ∈ [0, 5, 17, 23, 35], (fileWalk liveFile).goesOn p →
        (fileWalk liveFile).next p ∈ [0, 5, 17, 23, 35]) p) hp)
  exact header_captured (by decide +kernel) hheader (by decide +kernel) (by decide) hview

/-- The same without the Segment and what is in it. -/
def shortFile : List UInt8 :=
  partsBytes (liveHeader.parts.take 1) ++ (toBe 4 clusterId ++ List.replicate 1200 0)

/-- Seen first with the five bytes of the EBML element, and then whole: the second round reads on
behind them, and finds the Cluster at the head of its window. -/
theorem header_displaced : HeaderAt shortFile 5 ∧
    ∃ w, headerRounds shortFile [(Buf.zero, 5), (Buf.zero, 1209)] (Webm.start []) = .ok (w, true) ∧
      w.webmHeaderTotalBytes = 0 ∧ ¬ Captured shortFile 5 w := by
  have hheader : HeaderAt shortFile 5 := by
    unfold HeaderAt
    decide +kernel
  refine ⟨hheader, ?_⟩
  have hrun : (match headerRounds shortFile [(Buf.zero, 5), (Buf.zero, 1209)] (Webm.start []) with
      | .ok (w, last) => last && w.webmHeaderTotalBytes == 0
      | .error _ => false) = true := by
    decide +kernel
  split at hrun
  · next w last hrounds =>
    obtain ⟨rfl, htotal⟩ := Bool.and_eq_true_iff.mp hrun
    have hzero : w.webmHeaderTotalBytes = 0 := eq_of_beq htotal
    refine ⟨w, hrounds, hzero, fun h => ?_⟩
    have htotal := h.total
    rw [hzero] at htotal
    exact absurd htotal (by decide)
  · cases hrun

end P2PStream
