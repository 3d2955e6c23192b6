/-
# `P2PStream.Origin.Loop` — the main loop of the origin

The loop of `main` opens a cluster when it has arrived, reads it block by block
and closes it.  `SendMulStream` is called between its steps, and while
`UpdateClusterFromWebM` waits for the file to grow; those waiting rounds change
nothing else, so a cluster is opened here in one step, once the header of the
next one can be seen.

`LoopAt` says where the loop stands.  Sending to the children moves the file
position and puts it back, so no step of theirs is seen by the loop.
-/
import P2PStream.Webm.Assemble
import P2PStream.Origin.File

namespace P2PStream

open Lib

/-- Where `main` is: in `UpdateClusterFromWebM`, before `ReadBlock`, or behind a
`ReadBlock` that did not, or did, end the cluster. -/
inductive Phase where
  | opening
  | reading
  | advancing
  | ending
  deriving DecidableEq, Repr

/-- `UpdateClusterFromWebM` once the cluster is there and the next header can be seen. -/
def updateClusterFromWebM (stale : Buf) (w : Webm) : Option Webm :=
  let (w', fileBuf) := importWebM stale clusterHeaderBytes w
  let chank := getChank fileBuf
  if chank.id = clusterId ∧ fileBuf.take clusterHeaderBytes ≠ footer ∧
      w.fp + chank.chankBytes + clusterHeaderBytes ≤ w.totalFileBytes then
    some (renewClusterForRead fileBuf w')
  else none

/-- One step of the loop; `stale` is what the local buffer of the callee holds. -/
def mainStep (stale : Buf) (w : Webm) : Phase → Option (Phase × Webm)
  | .opening => do
      let w ← updateClusterFromWebM stale w
      return (.reading, w)
  | .reading => do
      let (w, block, status) ← readBlock stale w.currentBlock w
      return (if status = clusterEnd then .ending else .advancing,
        { w with currentBlock := block, latestBlockSeq := block.info.seq })
  | .advancing =>
      some (.reading, { seekForNextBlock w.currentBlock w with
        currentBlock := shiftToPreBlock w.currentBlock })
  | .ending =>
      some (.opening, shiftToPreCluster { seekForNextBlock w.currentBlock w with
        currentBlock := renewBlock w.currentBlock })

/-! ## Where the loop stands -/

/-- The loop has completed the clusters before `done`. -/
structure Completed (f : StreamFile) (w : Webm) (done : Nat) : Prop where
  onFile : OnFile f w
  total_le : w.totalFileBytes ≤ f.bytes.length
  none : done = 0 → w.prevCluster.option = 0xffffffff
  some : 0 < done → w.prevCluster.option = 0 ∧ w.prevCluster.seq + 1 = UInt32.ofNat done ∧
    done < f.clusters.length ∧ f.clusterStart done + clusterHeaderBytes ≤ w.totalFileBytes

theorem Completed.nextSeq {f : StreamFile} {w : Webm} {done : Nat} (h : Completed f w done) :
    (if w.prevCluster.option = 0xffffffff then (0 : UInt32) else w.prevCluster.seq + 1)
      = UInt32.ofNat done := by
  by_cases h0 : done = 0
  · rw [if_pos (h.none h0), h0]
    rfl
  · obtain ⟨hoption, hseq, -, -⟩ := h.some (Nat.pos_of_ne_zero h0)
    rw [hoption, if_neg (by decide), hseq]

theorem Completed.seq_toNat {f : StreamFile} {w : Webm} {done : Nat} (h : Completed f w done)
    (hdone : 0 < done) : (w.prevCluster.seq.toNat + 1) % 2 ^ 32 = done % 2 ^ 32 := by
  obtain ⟨-, hseq, -, -⟩ := h.some hdone
  have hone : (1 : UInt32).toNat = 1 := rfl
  have heq := congrArg UInt32.toNat hseq
  rwa [UInt32.toNat_add, hone, UInt32.toNat_ofNat'] at heq

/-- The number is that of a completed cluster, also where it has wrapped. -/
theorem Completed.seq_lt {f : StreamFile} {w : Webm} {done : Nat} (h : Completed f w done)
    (hdone : 0 < done) : w.prevCluster.seq.toNat < done := by
  have heq := h.seq_toNat hdone
  have hlt := w.prevCluster.seq.toNat_lt
  omega

theorem Completed.seq_succ {f : StreamFile} {w : Webm} {done : Nat} (h : Completed f w done)
    (hdone : 0 < done) (hle : done ≤ 2 ^ 16) : w.prevCluster.seq.toNat + 1 = done := by
  have heq := h.seq_toNat hdone
  have hlt := w.prevCluster.seq.toNat_lt
  omega

/-- The open cluster is cluster `done`, and the header behind it can be seen. -/
structure Open (f : StreamFile) (w : Webm) (done : Nat) : Prop where
  option : w.currentCluster.option = 0
  seq : w.currentCluster.seq = UInt32.ofNat done
  next : done + 1 < f.clusters.length
  total : f.clusterStart (done + 1) + clusterHeaderBytes ≤ w.totalFileBytes

theorem Open.seq_succ {f : StreamFile} {w : Webm} {done : Nat} (h : Open f w done) :
    w.currentCluster.seq + 1 = UInt32.ofNat (done + 1) := by
  rw [h.seq, UInt32.ofNat_add]
  rfl

/-- `CURRENT_BLOCK` is cleared for the next `ReadBlock`. -/
structure Cleared (block : Block) : Prop where
  bytes : block.info.bytes = 0
  pieceBytes : block.info.totalPieceBytes = 0

/-- Where the loop stands, with the clusters before `done` completed: at a cluster's header,
behind byte `k` of its payload, or in front of a `SeekForNextBlock` to there. -/
inductive LoopAt (f : StreamFile) (w : Webm) (done : Nat) : Phase → Prop
  | opening : w.fp = f.clusterStart done → w.currentBlock.prev.status = statusInit →
      Cleared w.currentBlock → LoopAt f w done .opening
  | reading (k : Nat) : Open f w done → k ≤ (f.payload done).length →
      w.fp = (f.clusterStart done + clusterHeaderBytes + k : Nat) → Cleared w.currentBlock →
      Cursor w.currentBlock.prev ((f.payload done).drop k) → LoopAt f w done .reading
  | advancing (k : Nat) : Open f w done → k ≤ (f.payload done).length → 0 ≤ w.fp →
      w.fp + (w.currentBlock.info.bytes.toNat - w.currentReadBytes)
        = (f.clusterStart done + clusterHeaderBytes + k : Nat) →
      Cursor w.currentBlock.info ((f.payload done).drop k) → LoopAt f w done .advancing
  | ending : Open f w done → 0 ≤ w.fp →
      w.fp + (w.currentBlock.info.bytes.toNat - w.currentReadBytes) = f.clusterStart (done + 1) →
      LoopAt f w done .ending

/-! ## The steps -/

theorem OnFile.congr {f : StreamFile} {w w' : Webm} (h : OnFile f w) (hfile : w'.file = w.file)
    (hheader : w'.webmHeaderTotalBytes = w.webmHeaderTotalBytes)
    (hfirst : w'.firstClusterSeq = w.firstClusterSeq) : OnFile f w' :=
  ⟨hfile.trans h.file, by rw [hheader, h.header], hfirst.trans h.first⟩

theorem StreamFile.clusterStart_length {f : StreamFile} {c : Nat} (h : f.clusters.length ≤ c) :
    f.clusterStart c = f.bytes.length := by
  rw [StreamFile.clusterStart, List.take_of_length_le h, StreamFile.bytes, List.length_append]

theorem StreamFile.lt_of_clusterStart {f : StreamFile} {c : Nat}
    (h : f.clusterStart c + clusterHeaderBytes ≤ f.bytes.length) : c < f.clusters.length := by
  by_contra hge
  rw [StreamFile.clusterStart_length (Nat.le_of_not_lt hge)] at h
  have hbytes : clusterHeaderBytes = 12 := rfl
  omega

theorem importWebM_clusterHeader {f : StreamFile} {w : Webm} {done : Nat} (hw : OnFile f w)
    (hlt : done < f.clusters.length) (hfpos : w.currentFposR ≤ w.fp)
    (hfp : w.fp = f.clusterStart done) (htotal : w.fp + clusterHeaderBytes ≤ w.totalFileBytes)
    (stale : Buf) :
    (importWebM stale clusterHeaderBytes w).1 = { w with
      fp := (f.clusterStart done + clusterHeaderBytes : Nat)
      currentReadBytes := clusterHeaderBytes } ∧
    (importWebM stale clusterHeaderBytes w).2.Holds (clusterHeader (f.payload done).length) := by
  have hclamp : clampBytes clusterHeaderBytes (w.totalFileBytes - w.currentFposR)
      = clusterHeaderBytes := clampBytes_eq (by omega)
  obtain ⟨hread, hholds⟩ := fread_clusterHeader hw hlt hfp stale
  have hlen : (w.readBytes clusterHeaderBytes).length = clusterHeaderBytes := by
    have := congrArg Webm.fp hread
    simp only [fread] at this
    omega
  have hpos : w.fp + (clusterHeaderBytes : Int)
      = ((f.clusterStart done + clusterHeaderBytes : Nat) : Int) := by omega
  simp only [importWebM, hclamp]
  rw [hread, hlen, hpos]
  exact ⟨rfl, hholds⟩

theorem updateClusterFromWebM_spec {f : StreamFile} {w w' : Webm} {done : Nat} {stale : Buf}
    (hw : Completed f w done) (hfpos : w.currentFposR ≤ w.fp) (hfp : w.fp = f.clusterStart done)
    (h : updateClusterFromWebM stale w = some w') :
    Open f w' done ∧ ∃ cluster, w' = { w with
      fp := (f.clusterStart done + clusterHeaderBytes : Nat)
      currentReadBytes := clusterHeaderBytes
      currentCluster := cluster } := by
  have h12 : clusterHeaderBytes = 12 := rfl
  simp only [updateClusterFromWebM] at h
  split at h
  · next hguard =>
    obtain ⟨-, -, htotal⟩ := hguard
    have hle := hw.total_le
    have hlt : done < f.clusters.length := StreamFile.lt_of_clusterStart (by omega)
    obtain ⟨himport, hholds⟩ :=
      importWebM_clusterHeader hw.onFile hlt hfpos hfp (by omega) stale
    obtain ⟨-, hchank⟩ := getChank_clusterHeader hholds (f.payload_lt hlt)
    rw [hchank, hfp] at htotal
    have hnext := f.clusterStart_succ hlt
    cases h
    rw [himport]
    refine ⟨⟨rfl, hw.nextSeq, StreamFile.lt_of_clusterStart (by omega), ?_⟩, _, rfl⟩
    show _ ≤ w.totalFileBytes
    omega
  · cases h

theorem clusterHeader_ne_footer {length : Nat} (h : length < unknownSize) :
    clusterHeader length ≠ footer := by
  intro heq
  have hsize : ofBe (vint 8 length) = 2 ^ 56 + length := by
    have hunknown : unknownSize = 2 ^ 56 - 1 := by decide
    exact ofBe_toBe_of_lt (by omega)
  have hfooter : vint 8 length = footer.drop 4 := congrArg (List.drop 4) heq
  have hvalue : ofBe (footer.drop 4) = 2 ^ 56 + unknownSize := by decide
  rw [hfooter, hvalue] at hsize
  omega

theorem updateClusterFromWebM_isSome {f : StreamFile} {w : Webm} {done : Nat}
    (hw : Completed f w done) (hfpos : w.currentFposR ≤ w.fp) (hfp : w.fp = f.clusterStart done)
    (hlt : done < f.clusters.length)
    (htotal : f.clusterStart (done + 1) + clusterHeaderBytes ≤ w.totalFileBytes) (stale : Buf) :
    ∃ w', updateClusterFromWebM stale w = some w' := by
  have hnext := f.clusterStart_succ hlt
  obtain ⟨himport, hholds⟩ :=
    importWebM_clusterHeader hw.onFile hlt hfpos hfp (by omega) stale
  obtain ⟨hid, hchank⟩ := getChank_clusterHeader hholds (f.payload_lt hlt)
  have hheader : (importWebM stale clusterHeaderBytes w).2.take clusterHeaderBytes
      = clusterHeader (f.payload done).length := by
    have htake := Buf.holds_take.mp hholds
    rwa [length_clusterHeader] at htake
  have hnotFooter := clusterHeader_ne_footer (f.payload_lt hlt)
  refine ⟨renewClusterForRead (importWebM stale clusterHeaderBytes w).2
    (importWebM stale clusterHeaderBytes w).1, ?_⟩
  simp only [updateClusterFromWebM, hid, hchank, hheader, true_and]
  rw [if_pos ⟨hnotFooter, by omega⟩]

/-- What the loop knows of the file and of the clusters, between two states in which the file
may have grown. -/
structure Grown (f : StreamFile) (w w' : Webm) : Prop where
  file : w'.file = w.file
  header : w'.webmHeaderTotalBytes = w.webmHeaderTotalBytes
  first : w'.firstClusterSeq = w.firstClusterSeq
  total : w.totalFileBytes ≤ w'.totalFileBytes
  total_le : w'.totalFileBytes ≤ f.bytes.length
  prev : w'.prevCluster = w.prevCluster

theorem Completed.grown {f : StreamFile} {w w' : Webm} {done : Nat} (h : Completed f w done)
    (hfile : w'.file = w.file) (hheader : w'.webmHeaderTotalBytes = w.webmHeaderTotalBytes)
    (hfirst : w'.firstClusterSeq = w.firstClusterSeq)
    (htotal : w'.totalFileBytes = w.totalFileBytes) (hprev : w'.prevCluster = w.prevCluster) :
    Grown f w w' :=
  ⟨hfile, hheader, hfirst, le_of_eq htotal.symm, htotal ▸ h.total_le, hprev⟩

theorem Completed.congr {f : StreamFile} {w w' : Webm} {done : Nat} (h : Completed f w done)
    (hg : Grown f w w') : Completed f w' done where
  onFile := h.onFile.congr hg.file hg.header hg.first
  total_le := hg.total_le
  none := fun h0 => hg.prev ▸ h.none h0
  some := fun h0 => by
    obtain ⟨hoption, hseq, hlt, htotal⟩ := h.some h0
    rw [hg.prev]
    exact ⟨hoption, hseq, hlt, le_trans htotal hg.total⟩

theorem Open.congr {f : StreamFile} {w w' : Webm} {done : Nat} (h : Open f w done)
    (htotal : w.totalFileBytes ≤ w'.totalFileBytes)
    (hcluster : w'.currentCluster = w.currentCluster) : Open f w' done :=
  ⟨hcluster ▸ h.option, hcluster ▸ h.seq, h.next, le_trans h.total htotal⟩

theorem LoopAt.congr {f : StreamFile} {w w' : Webm} {done : Nat} {phase : Phase}
    (h : LoopAt f w done phase) (hfp : w'.fp = w.fp)
    (hread : w'.currentReadBytes = w.currentReadBytes) (hblock : w'.currentBlock = w.currentBlock)
    (hcluster : w'.currentCluster = w.currentCluster)
    (htotal : w.totalFileBytes ≤ w'.totalFileBytes) : LoopAt f w' done phase := by
  cases h with
  | opening hpos hstatus hcleared =>
      exact .opening (hfp.trans hpos) (hblock ▸ hstatus) (hblock ▸ hcleared)
  | reading k hopen hk hpos hcleared hcursor =>
      exact .reading k (hopen.congr htotal hcluster) hk (hfp.trans hpos) (hblock ▸ hcleared)
        (hblock ▸ hcursor)
  | advancing k hopen hk hpos hseek hcursor =>
      exact .advancing k (hopen.congr htotal hcluster) hk (hfp ▸ hpos)
        (by rw [hfp, hread, hblock]; exact hseek) (hblock ▸ hcursor)
  | ending hopen hpos hseek =>
      exact .ending (hopen.congr htotal hcluster) (hfp ▸ hpos)
        (by rw [hfp, hread, hblock]; exact hseek)

theorem LoopAt.fp_nonneg {f : StreamFile} {w : Webm} {done : Nat} {phase : Phase}
    (h : LoopAt f w done phase) : 0 ≤ w.fp := by
  cases h with
  | opening hfp _ _ => rw [hfp]; exact Int.natCast_nonneg _
  | reading k _ _ hfp _ _ => rw [hfp]; exact Int.natCast_nonneg _
  | advancing k _ _ hfp _ _ => exact hfp
  | ending _ hfp _ => exact hfp

theorem seekForNextBlock_eq {block : Block} {w : Webm} {p : Int} (hp : 0 ≤ p)
    (h : w.fp + (block.info.bytes.toNat - w.currentReadBytes) = p) :
    seekForNextBlock block w = { w with fp := p, currentFposR := p } := by
  simp only [seekForNextBlock, seekRLTWebM, seekABSWebM, fsetpos, h, if_pos hp]

/-- What the loop reads from: the payload of the open cluster, and the header behind it. -/
theorem Open.reading {f : StreamFile} {w : Webm} {done k : Nat} (hw : Completed f w done)
    (hfpos : w.currentFposR ≤ w.fp) (h : Open f w done) (hk : k ≤ (f.payload done).length)
    (hfp : w.fp = (f.clusterStart done + clusterHeaderBytes + k : Nat)) :
    Reading w ((f.payload done).drop k)
      ((f.clusters.drop (done + 1)).flatMap ClusterPayload.clusterBytes) where
  before := by
    have hnext := f.clusterStart_succ (Nat.lt_of_succ_lt h.next)
    have hle := f.clusterStart_le (done + 1)
    refine ⟨f.bytes.take (f.clusterStart done + clusterHeaderBytes + k), ?_, ?_⟩
    · rw [← f.drop_payload (Nat.lt_of_succ_lt h.next) hk, List.take_append_drop, hw.onFile.file]
    · rw [hfp, List.length_take]
      omega
  fpos := hfpos
  total := by
    have hnext := f.clusterStart_succ (Nat.lt_of_succ_lt h.next)
    have htotal := h.total
    have h12 : clusterHeaderBytes = 12 := rfl
    rw [hfp, List.length_drop]
    omega

theorem readBlock_frame {stale : Buf} {block block' : Block} {w w' : Webm} {status : Int}
    (h : readBlock stale block w = some (w', block', status)) :
    ∃ count : Nat, w' = { w with
      fp := w.fp + count, currentReadBytes := count, totalBlockNum := w.totalBlockNum + 1 } := by
  simp only [readBlock, Option.bind_eq_bind, Option.bind_eq_some_iff, Prod.exists] at h
  obtain ⟨b, s, -, h⟩ := h
  cases h
  exact ⟨_, rfl⟩

theorem mainStep_reading {f : StreamFile} {w : Webm} {done k : Nat} {stale : Buf}
    (hstale : ∀ i, 1000 ≤ i → stale i = 0) (hw : Completed f w done) (hfpos : w.currentFposR ≤ w.fp)
    (hopen : Open f w done) (hk : k ≤ (f.payload done).length)
    (hfp : w.fp = (f.clusterStart done + clusterHeaderBytes + k : Nat))
    (hcleared : Cleared w.currentBlock)
    (hcursor : Cursor w.currentBlock.prev ((f.payload done).drop k)) :
    ∃ (count : Nat) (info : BlockInfo) (ret : Int),
      mainStep stale w .reading = some (if ret = clusterEnd then .ending else .advancing,
        { w with
          fp := w.fp + count
          currentReadBytes := count
          totalBlockNum := w.totalBlockNum + 1
          currentBlock := ⟨info, w.currentBlock.prev⟩
          latestBlockSeq := info.seq }) ∧
      Cut ((f.payload done).drop k) info ret := by
  obtain ⟨w', info, ret, hread, -, -, -, hcut⟩ :=
    readBlock_step w.currentBlock (f.isStop_next hopen.next) hcursor
      (hopen.reading hw hfpos hk hfp) hstale hcleared.bytes hcleared.pieceBytes
  obtain ⟨count, rfl⟩ := readBlock_frame hread
  refine ⟨count, info, ret, ?_, hcut⟩
  simp only [mainStep, hread, Option.bind_eq_bind, Option.bind_some]
  rfl

theorem mainStep_loopAt {f : StreamFile} {w w' : Webm} {done : Nat} {phase phase' : Phase}
    {stale : Buf} (hstale : ∀ i, 1000 ≤ i → stale i = 0) (hw : Completed f w done)
    (hfpos : w.currentFposR ≤ w.fp) (hat : LoopAt f w done phase)
    (h : mainStep stale w phase = some (phase', w')) :
    ∃ done', done ≤ done' ∧ Completed f w' done' ∧ w'.currentFposR ≤ w'.fp ∧
      LoopAt f w' done' phase' ∧ w'.currentChildBlock = w.currentChildBlock ∧
      w'.clusterAllocated = w.clusterAllocated ∧
      w'.childBlocksAllocated = w.childBlocksAllocated := by
  cases hat with
  | opening hfp hstatus hcleared =>
      obtain ⟨w₁, hupdate, h⟩ := Option.bind_eq_some_iff.mp h
      cases h
      obtain ⟨hopen, cluster, rfl⟩ := updateClusterFromWebM_spec hw hfpos hfp hupdate
      refine ⟨done, le_refl _, hw.congr (hw.grown rfl rfl rfl rfl rfl), ?_, ?_, rfl, rfl, rfl⟩
      · show w.currentFposR ≤ ((f.clusterStart done + clusterHeaderBytes : Nat) : Int)
        omega
      · refine .reading 0 hopen (Nat.zero_le _) rfl hcleared ?_
        rw [List.drop_zero, StreamFile.payload,
          List.getElem?_eq_getElem (Nat.lt_of_succ_lt hopen.next)]
        exact .atStart _ hstatus
  | reading k hopen hk hfp hcleared hcursor =>
      obtain ⟨count, info, ret, hread, hcut⟩ :=
        mainStep_reading hstale hw hfpos hopen hk hfp hcleared hcursor
      rw [hread] at h
      have hbytes := hcut.bytes_le_rest
      rw [List.length_drop] at hbytes
      cases h
      refine ⟨done, le_refl _, hw.congr (hw.grown rfl rfl rfl rfl rfl),
        (show w.currentFposR ≤ w.fp + count by omega), ?_, rfl, rfl, rfl⟩
      by_cases hend : ret = clusterEnd
      · rw [if_pos hend]
        have hall := hcut.last hend
        have hnext := f.clusterStart_succ (Nat.lt_of_succ_lt hopen.next)
        rw [List.length_drop] at hall
        refine .ending (hopen.congr (le_refl _) rfl) (by show 0 ≤ w.fp + count; omega) ?_
        show w.fp + count + (info.bytes.toNat - count) = _
        omega
      · rw [if_neg hend]
        obtain ⟨-, hcursor'⟩ := hcut.next hend
        rw [List.drop_drop] at hcursor'
        refine .advancing (k + info.bytes.toNat) (hopen.congr (le_refl _) rfl) (by omega)
          (by show 0 ≤ w.fp + count; omega) ?_ hcursor'
        show w.fp + count + (info.bytes.toNat - count) = _
        omega
  | advancing k hopen hk hfp hseek hcursor =>
      cases h
      have hnext := seekForNextBlock_eq (Int.natCast_nonneg _) hseek
      rw [hnext]
      exact ⟨done, le_refl _, hw.congr (hw.grown rfl rfl rfl rfl rfl), le_refl _,
        .reading k (hopen.congr (le_refl _) rfl) hk rfl ⟨rfl, rfl⟩ hcursor, rfl, rfl, rfl⟩
  | ending hopen hfp hseek =>
      cases h
      have hnext := seekForNextBlock_eq (Int.natCast_nonneg _) hseek
      rw [hnext]
      refine ⟨done + 1, Nat.le_succ _, ⟨hw.onFile.congr rfl rfl rfl, hw.total_le, ?_, ?_⟩,
        le_refl _, .opening rfl rfl ⟨rfl, rfl⟩, rfl, rfl, rfl⟩
      · exact fun h0 => absurd h0 (Nat.succ_ne_zero _)
      · exact fun _ => ⟨hopen.option, hopen.seq_succ, hopen.next, hopen.total⟩

end P2PStream
