/-
# `P2PStream.Webm.Receiver` — duplicates and late blocks at a receiver

`AssembleBlock` should store every block once and in order.  It drops a block
that lies before the *previous* cluster, or in the previous cluster and not
behind the sequence number stored last.  A block of the open cluster is never
dropped, so a repeated one is stored again.

`Filtered` says of a sequence of deliveries that this does not happen: whatever
is not newer than the newest block so far is caught by that rule.  It looks at
the deliveries only.  The blocks stored are in order exactly for these sequences.
-/
import P2PStream.Webm.Assemble

namespace P2PStream

open Lib

/-- Lexicographic order on (cluster number, sequence number). -/
def Before (a b : UInt16 × UInt32) : Prop := a.1 < b.1 ∨ (a.1 = b.1 ∧ a.2 < b.2)

instance (a b : UInt16 × UInt32) : Decidable (Before a b) :=
  inferInstanceAs (Decidable (_ ∨ _))

theorem Before.trans {a b c : UInt16 × UInt32} (hab : Before a b) (hbc : Before b c) :
    Before a c := by
  simp only [Before, UInt16.lt_iff_toNat_lt, UInt32.lt_iff_toNat_lt, ← UInt16.toNat_inj] at *
  omega

/-! ## The deliveries -/

/-- A block packet of a parent that sends from cluster `first` on. -/
structure BlockPacket (first : UInt16) where
  data : Buf
  bytes : UInt16
  first_le : first ≤ (copyBytesToBlockInfo data).clusterSeq
  seq_pos : 0 < (copyBytesToBlockInfo data).seq
  timecode : (copyBytesToBlockInfo data).seq = firstBlockSeq →
    (getChank (data.drop blockinfoBytes)).id = timecodeId
  not_end : data.take blockinfoBytes ≠ blockinfoEnd

namespace BlockPacket

variable {first : UInt16} (p : BlockPacket first)

def info : BlockInfo := copyBytesToBlockInfo p.data

def pair : UInt16 × UInt32 := (p.info.clusterSeq, p.info.seq)

theorem not_start : p.data.take blockinfoBytes ≠ blockinfoStart := by
  intro h
  have hholds : p.data.Holds blockinfoStart := Buf.holds_take.mpr h
  have hzero : ∀ i, i < 18 → p.data i = 0 := by
    intro i hi
    have := hholds i hi
    simpa [blockinfoStart] using this
  have hseq : (p.data.drop 4).take 4 = Buf.zero.take 4 :=
    Buf.take_congr fun i hi => hzero (4 + i) (by omega)
  have hpos := p.seq_pos
  simp only [copyBytesToBlockInfo, hseq] at hpos
  exact absurd hpos (by decide)

end BlockPacket

/-- What was delivered so far, if every block was stored that is newer than all before
it: the newest block, and the number of the cluster stored before its cluster. -/
structure Progress where
  previous : UInt16
  newest : UInt16 × UInt32
  deriving DecidableEq, Repr

def Progress.store (p : Progress) (b : UInt16 × UInt32) : Progress where
  previous := if b.1 = p.newest.1 then p.previous else p.newest.1
  newest := b

/-- `b` lies before the previous cluster, or in it and not behind the newest sequence number. -/
def Progress.Caught (p : Progress) (b : UInt16 × UInt32) : Prop :=
  b.1 < p.previous ∨ (b.1 = p.previous ∧ b.2 ≤ p.newest.2)

/-- Every delivery that is not newer than all before it is caught. -/
def Filtered : Progress → List (UInt16 × UInt32) → Prop
  | _, [] => True
  | p, b :: bs =>
      if Before p.newest b then Filtered (p.store b) bs else p.Caught b ∧ Filtered p bs

instance (q : Progress) (b : UInt16 × UInt32) : Decidable (q.Caught b) :=
  inferInstanceAs (Decidable (_ ∨ _))

instance decidableFiltered : (q : Progress) → (bs : List (UInt16 × UInt32)) →
    Decidable (Filtered q bs)
  | _, [] => inferInstanceAs (Decidable True)
  | q, b :: bs =>
      have := decidableFiltered (q.store b) bs
      have := decidableFiltered q bs
      inferInstanceAs (Decidable (if Before q.newest b then Filtered (q.store b) bs
        else q.Caught b ∧ Filtered q bs))

/-- Before the first delivery: the cluster number the parent sends from, and no block of it. -/
def Progress.init (first : UInt16) : Progress := ⟨0, (first, 0)⟩

/-! ## The receiver -/

/-- `AssembleBlock` on one packet after another. -/
def receive {first : UInt16} (w : Webm) : List (BlockPacket first) → Except Fault Webm
  | [] => .ok w
  | p :: ps => do
      let w ← assembleBlock p.data p.bytes w
      receive w ps

/-- The blocks stored, as the block counter shows. -/
def stored {first : UInt16} (w : Webm) : List (BlockPacket first) → List (UInt16 × UInt32)
  | [] => []
  | p :: ps =>
      match assembleBlock p.data p.bytes w with
      | .ok w' =>
          if w'.totalBlockNum = w.totalBlockNum then stored w' ps else p.pair :: stored w' ps
      | .error _ => []

/-- No duplicate and no out-of-order write: the blocks stored are strictly increasing, and
a packet that is not newer than the last one stored changes nothing. -/
structure InOrder {first : UInt16} (w : Webm) (ps : List (BlockPacket first)) : Prop where
  increasing : (stored w ps).Pairwise Before
  dropped : ∀ pre p post w', ps = pre ++ p :: post → receive w pre = .ok w' →
    ∀ b, (stored w pre).getLast? = some b → ¬ Before b p.pair →
      assembleBlock p.data p.bytes w' = .ok w'

/-- A peer behind `InitialStatus` and the WebM header: the previous cluster has number 0,
the open one the number the parent sends from. -/
structure Fresh (first : UInt16) (w : Webm) : Prop where
  allocated : (w.clusterAllocated && w.blockAllocated) = true
  previous : w.prevCluster.seq = 0
  cluster : w.currentCluster.seq = first.toUInt32
  block : w.currentBlock.prev.clusterSeq = first
  latest : w.latestBlockSeq = 0

/-! ## What storing does to the counters -/

/-- The part of the state the filter depends on, and the block counter. -/
structure Marks where
  allocated : Bool
  previous : UInt32
  cluster : UInt32
  block : Block
  latest : UInt32
  total : UInt64

def Webm.marks (w : Webm) : Marks :=
  ⟨w.clusterAllocated && w.blockAllocated, w.prevCluster.seq, w.currentCluster.seq, w.currentBlock,
    w.latestBlockSeq, w.totalBlockNum⟩

@[simp] theorem exportWebM_marks (l : List UInt8) (w : Webm) : (exportWebM l w).marks = w.marks :=
  rfl

@[simp] theorem updateOffsetWebM_marks (w : Webm) : (updateOffsetWebM w).marks = w.marks := rfl

@[simp] theorem seekABSWebMW_marks (offset : Int) (w : Webm) :
    (seekABSWebMW offset w).marks = w.marks := by
  simp only [seekABSWebMW, fsetpos]
  split <;> rfl

@[simp] theorem updateWebM_marks (w : Webm) : (updateWebM w).marks = w.marks := by
  simp [updateWebM]

@[simp] theorem updateClusterToWebM_marks (count : Nat) (w : Webm) :
    (updateClusterToWebM count w).marks = w.marks := by
  simp only [updateClusterToWebM, updateClusterDataBytesToWebM, seekABSWebMW_marks,
    exportWebM_marks, updateOffsetWebM_marks]
  rfl

theorem changeTimecode_marks {data : Buf} {w : Webm} (h : (getChank data).id = timecodeId) :
    ∃ w' data', changeTimecode data w = .ok (w', data') ∧ w'.marks = w.marks := by
  simp only [changeTimecode, if_pos h]
  refine ⟨_, _, rfl, ?_⟩
  split <;> rfl

theorem insertBlockToCluster_marks (data : Buf) (bytes : UInt16) (w : Webm) :
    (insertBlockToCluster data bytes w).marks =
      if w.currentBlock.prev.clusterSeq = w.currentBlock.info.clusterSeq then w.marks
      else { w.marks with
        previous := w.currentCluster.seq
        cluster := w.currentBlock.info.clusterSeq.toUInt32 } := by
  have hsame : (updateClusterToWebM w.currentBlockNum w).marks = w.marks := by simp
  simp only [insertBlockToCluster, exportWebM_marks, checkClusterSeq]
  by_cases h : w.currentBlock.prev.clusterSeq = w.currentBlock.info.clusterSeq
  · simp [h]
  · simp only [Webm.marks, Marks.mk.injEq] at hsame
    simp only [Webm.marks, renewClusterForWrite, exportWebM, shiftToPreCluster, hsame, h,
      bne_iff_ne, ne_eq, not_false_eq_true, if_true, if_false]

theorem beginBlock_marks (info : BlockInfo) (w : Webm) :
    (beginBlock info w).marks = { w.marks with block := ⟨info, w.currentBlock.prev⟩ } := by
  have hfirst : (if w.isFirstCluster then
      { w with firstClusterSeq := info.clusterSeq.toUInt32, isFirstCluster := false }
    else w).marks = w.marks := by
    split <;> rfl
  have hclose : ∀ v : Webm, (if v.currentBlockNum = 1 then
      { updateWebM (updateClusterToWebM 1 v) with
        currentBlockNum := 0
        currentBlockInfo := BlockInfo.zero }
    else v).marks = v.marks := by
    intro v
    split
    · exact (updateWebM_marks _).trans (updateClusterToWebM_marks 1 v)
    · rfl
  have hboth := (hclose _).trans hfirst
  simp only [Webm.marks, Marks.mk.injEq] at hboth
  simp only [beginBlock, Webm.marks, hboth]

theorem changeFirstBlock_marks (data : Buf) {w : Webm}
    (h : w.currentBlock.info.seq = firstBlockSeq →
      (getChank (data.drop blockinfoBytes)).id = timecodeId) :
    ∃ w' data', changeFirstBlock data w = .ok (w', data') ∧ w'.marks = w.marks := by
  by_cases hseq : w.currentBlock.info.seq = firstBlockSeq
  · obtain ⟨w', payload, hchange, hmarks⟩ := changeTimecode_marks (w := w) (h hseq)
    refine ⟨w', data.splice blockinfoBytes payload, ?_, hmarks⟩
    rw [changeFirstBlock, if_pos hseq, hchange]
    rfl
  · exact ⟨w, data, if_neg hseq, rfl⟩

theorem endBlock_marks (data : Buf) (n : UInt16) (w : Webm) :
    (endBlock data n w).marks =
      { allocated := w.clusterAllocated && w.blockAllocated
        previous := if w.currentBlock.prev.clusterSeq = w.currentBlock.info.clusterSeq
          then w.prevCluster.seq else w.currentCluster.seq
        cluster := if w.currentBlock.prev.clusterSeq = w.currentBlock.info.clusterSeq
          then w.currentCluster.seq else w.currentBlock.info.clusterSeq.toUInt32
        block := shiftToPreBlock w.currentBlock
        latest := w.currentBlock.info.seq
        total := w.totalBlockNum + 1 } := by
  have h := insertBlockToCluster_marks data w.currentBlock.info.bytes
    { w with latestBlockSeq := w.currentBlock.info.seq }
  split at h <;> rename_i hsame <;> simp only at hsame <;>
    simp only [Webm.marks, Marks.mk.injEq] at h <;> simp only [endBlock, Webm.marks, h, hsame] <;>
    rfl

/-- Storing a block: it becomes the newest, and a change of cluster moves the marks on. -/
theorem storeBlock_marks {first : UInt16} (p : BlockPacket first) (n : UInt16) (w : Webm) :
    ∃ w', storeBlock p.data n w = .ok w' ∧ w'.marks =
      { allocated := w.clusterAllocated && w.blockAllocated
        previous := if w.currentBlock.prev.clusterSeq = p.info.clusterSeq then w.prevCluster.seq
          else w.currentCluster.seq
        cluster := if w.currentBlock.prev.clusterSeq = p.info.clusterSeq then w.currentCluster.seq
          else p.info.clusterSeq.toUInt32
        block := shiftToPreBlock ⟨p.info, w.currentBlock.prev⟩
        latest := p.info.seq
        total := w.totalBlockNum + 1 } := by
  have hbegin := beginBlock_marks p.info w
  simp only [Webm.marks, Marks.mk.injEq] at hbegin
  obtain ⟨hallocated, hprevious, hcluster, hblock, -, htotal⟩ := hbegin
  obtain ⟨w', data', hchange, hmarks⟩ := changeFirstBlock_marks p.data
    (w := beginBlock p.info w) (by rw [hblock]; exact p.timecode)
  simp only [Webm.marks, Marks.mk.injEq, hallocated, hprevious, hcluster, hblock, htotal] at hmarks
  refine ⟨endBlock data' n w', ?_, ?_⟩
  · simp only [storeBlock, BlockPacket.info] at hchange ⊢
    rw [hchange]
    rfl
  · rw [endBlock_marks]
    simp only [hmarks]

theorem assembleBlock_eq {first : UInt16} (p : BlockPacket first) {w : Webm}
    (hw : (w.clusterAllocated && w.blockAllocated) = true) :
    assembleBlock p.data p.bytes w = if isOldBlockSeq p.info w then .ok w
      else storeBlock p.data (p.bytes - UInt16.ofNat blockinfoBytes) w := by
  simp only [assembleBlock, hw, if_neg p.not_start, if_neg p.not_end]
  rfl

/-! ## One delivery -/

/-- The marks of the receiver agree with the deliveries. -/
structure Matches (q : Progress) (w : Webm) : Prop where
  allocated : (w.clusterAllocated && w.blockAllocated) = true
  previous : w.prevCluster.seq = q.previous.toUInt32
  cluster : w.currentCluster.seq = q.newest.1.toUInt32
  block : w.currentBlock.prev.clusterSeq = q.newest.1
  latest : w.latestBlockSeq = q.newest.2
  previous_le : q.previous ≤ q.newest.1

theorem Fresh.matches {first : UInt16} {w : Webm} (h : Fresh first w) :
    Matches (Progress.init first) w where
  allocated := h.allocated
  previous := h.previous
  cluster := h.cluster
  block := h.block
  latest := h.latest
  previous_le := UInt16.le_iff_toNat_le.mpr (Nat.zero_le _)

section Delivery

variable {first : UInt16} {q : Progress} {w : Webm} (p : BlockPacket first)

theorem isOldBlockSeq_iff (h : Matches q w) : isOldBlockSeq p.info w = true ↔ q.Caught p.pair := by
  have hlt : p.info.clusterSeq.toUInt32 < q.previous.toUInt32 ↔ p.info.clusterSeq < q.previous := by
    simp [UInt32.lt_iff_toNat_lt, UInt16.lt_iff_toNat_lt]
  have heq : p.info.clusterSeq.toUInt32 = q.previous.toUInt32 ↔ p.info.clusterSeq = q.previous := by
    simp [← UInt32.toNat_inj, ← UInt16.toNat_inj]
  simp only [isOldBlockSeq, h.previous, h.latest, hlt, heq, Progress.Caught, BlockPacket.pair]
  split
  · simp [*]
  · split <;> simp [*]

theorem caught_not_newer (h : Matches q w) (hc : q.Caught p.pair) : ¬ Before q.newest p.pair := by
  have := h.previous_le
  simp only [Progress.Caught, Before, UInt16.lt_iff_toNat_lt, UInt16.le_iff_toNat_le,
    UInt32.lt_iff_toNat_lt, UInt32.le_iff_toNat_le, ← UInt16.toNat_inj] at *
  omega

theorem assembleBlock_store (h : Matches q w) (hc : ¬ q.Caught p.pair) :
    ∃ w', assembleBlock p.data p.bytes w = .ok w' ∧ w'.totalBlockNum ≠ w.totalBlockNum ∧
      (Before q.newest p.pair → Matches (q.store p.pair) w') := by
  obtain ⟨w', hstore, hmarks⟩ := storeBlock_marks p (p.bytes - UInt16.ofNat blockinfoBytes) w
  simp only [Webm.marks, Marks.mk.injEq] at hmarks
  obtain ⟨hallocated, hprevious, hcluster, hblock, hlatest, htotal⟩ := hmarks
  refine ⟨w', ?_, ?_, fun hnew => ?_⟩
  · rw [assembleBlock_eq p h.allocated, if_neg (mt (isOldBlockSeq_iff p h).mp hc), hstore]
  · rw [htotal, Ne, ← UInt64.toNat_inj, UInt64.toNat_add]
    have : (1 : UInt64).toNat = 1 := rfl
    omega
  · have hle := h.previous_le
    have hnewest := hnew
    simp only [Before, UInt16.lt_iff_toNat_lt, ← UInt16.toNat_inj] at hnewest
    have hpair : p.info.clusterSeq = p.pair.1 := rfl
    rw [h.block, hpair] at hprevious hcluster
    by_cases hsame : q.newest.1 = p.pair.1
    · rw [if_pos hsame] at hprevious hcluster
      have hstore : q.store p.pair = ⟨q.previous, p.pair⟩ := by
        rw [Progress.store, if_pos hsame.symm]
      rw [hstore]
      exact ⟨hallocated.trans h.allocated, hprevious.trans h.previous,
        by rw [hcluster, h.cluster, hsame], by rw [hblock]; rfl, hlatest, hsame ▸ hle⟩
    · rw [if_neg hsame] at hprevious hcluster
      have hstore : q.store p.pair = ⟨q.newest.1, p.pair⟩ := by
        rw [Progress.store, if_neg (Ne.symm hsame)]
      rw [hstore]
      refine ⟨hallocated.trans h.allocated, hprevious.trans h.cluster, hcluster,
        by rw [hblock]; rfl, hlatest, ?_⟩
      rw [UInt16.le_iff_toNat_le]
      show q.newest.1.toNat ≤ p.pair.1.toNat
      omega

theorem assembleBlock_drop (h : Matches q w) (hc : q.Caught p.pair) :
    assembleBlock p.data p.bytes w = .ok w := by
  rw [assembleBlock_eq p h.allocated, if_pos ((isOldBlockSeq_iff p h).mpr hc)]

theorem stored_cons_of_caught (h : Matches q w) (hc : q.Caught p.pair)
    (ps : List (BlockPacket first)) : stored w (p :: ps) = stored w ps := by
  simp only [stored, assembleBlock_drop p h hc, if_true]

end Delivery

/-! ## Sequences of deliveries -/

section Runs

variable {first : UInt16}

/-- Along a filtered sequence the marks keep agreeing with the deliveries. -/
theorem receive_matches (pre : List (BlockPacket first)) :
    ∀ (q : Progress) (w : Webm) (post : List (BlockPacket first)), Matches q w →
      Filtered q ((pre ++ post).map BlockPacket.pair) →
      ∃ q' w', receive w pre = .ok w' ∧ Matches q' w' ∧
        Filtered q' (post.map BlockPacket.pair) ∧
        q'.newest = (stored w pre).getLastD q.newest := by
  induction pre with
  | nil =>
      intro q w post hm hf
      exact ⟨q, w, rfl, hm, hf, rfl⟩
  | cons p pre ih =>
      intro q w post hm hf
      rw [List.cons_append, List.map_cons, Filtered] at hf
      by_cases hnew : Before q.newest p.pair
      · rw [if_pos hnew] at hf
        obtain ⟨w₁, hstep, hcount, hm₁⟩ :=
          assembleBlock_store p hm fun hc => caught_not_newer p hm hc hnew
        obtain ⟨q', w', hrun, hm', hf', hlast⟩ := ih _ w₁ post (hm₁ hnew) hf
        refine ⟨q', w', ?_, hm', hf', ?_⟩
        · rw [receive, hstep]
          exact hrun
        · rw [hlast, stored, hstep]
          simp only [if_neg hcount, List.getLastD_cons]
          rfl
      · rw [if_neg hnew] at hf
        obtain ⟨q', w', hrun, hm', hf', hlast⟩ := ih q w post hm hf.2
        refine ⟨q', w', ?_, hm', hf', ?_⟩
        · rw [receive, assembleBlock_drop p hm hf.1]
          exact hrun
        · rw [hlast, stored_cons_of_caught p hm hf.1]

theorem increasing_of_filtered (ps : List (BlockPacket first)) :
    ∀ (q : Progress) (w : Webm), Matches q w → Filtered q (ps.map BlockPacket.pair) →
      (q.newest :: stored w ps).Pairwise Before := by
  induction ps with
  | nil => intro q w _ _; exact List.pairwise_singleton _ _
  | cons p ps ih =>
      intro q w hm hf
      rw [List.map_cons, Filtered] at hf
      by_cases hnew : Before q.newest p.pair
      · rw [if_pos hnew] at hf
        obtain ⟨w₁, hstep, hcount, hm₁⟩ :=
          assembleBlock_store p hm fun hc => caught_not_newer p hm hc hnew
        have hrest := ih _ w₁ (hm₁ hnew) hf
        have hstored : stored w (p :: ps) = p.pair :: stored w₁ ps := by
          simp only [stored, hstep, if_neg hcount]
        rw [hstored]
        refine List.pairwise_cons.mpr ⟨fun b hb => ?_, hrest⟩
        rcases List.mem_cons.mp hb with rfl | hb
        · exact hnew
        · exact hnew.trans (List.rel_of_pairwise_cons hrest hb)
      · rw [if_neg hnew] at hf
        rw [stored_cons_of_caught p hm hf.1]
        exact ih q w hm hf.2

theorem filtered_of_increasing (ps : List (BlockPacket first)) :
    ∀ (q : Progress) (w : Webm), Matches q w → (q.newest :: stored w ps).Pairwise Before →
      Filtered q (ps.map BlockPacket.pair) := by
  induction ps with
  | nil => intro _ _ _ _; trivial
  | cons p ps ih =>
      intro q w hm hp
      rw [List.map_cons, Filtered]
      by_cases hc : q.Caught p.pair
      · rw [if_neg (caught_not_newer p hm hc)]
        rw [stored_cons_of_caught p hm hc] at hp
        exact ⟨hc, ih q w hm hp⟩
      · obtain ⟨w₁, hstep, hcount, hm₁⟩ := assembleBlock_store p hm hc
        have hstored : stored w (p :: ps) = p.pair :: stored w₁ ps := by
          simp only [stored, hstep, if_neg hcount]
        rw [hstored] at hp
        have hnew : Before q.newest p.pair := List.rel_of_pairwise_cons hp List.mem_cons_self
        rw [if_pos hnew]
        exact ih _ w₁ (hm₁ hnew) hp.of_cons

theorem newer_than_init (p : BlockPacket first) : Before (Progress.init first).newest p.pair := by
  have hle := p.first_le
  have hpos := p.seq_pos
  have hzero : (0 : UInt32).toNat = 0 := rfl
  simp only [Before, Progress.init, BlockPacket.pair, BlockPacket.info, UInt16.le_iff_toNat_le,
    UInt16.lt_iff_toNat_lt, UInt32.lt_iff_toNat_lt, ← UInt16.toNat_inj] at *
  omega

theorem mem_stored (ps : List (BlockPacket first)) :
    ∀ (w : Webm), ∀ b ∈ stored w ps, ∃ p ∈ ps, b = p.pair := by
  induction ps with
  | nil => intro w b hb; exact absurd hb List.not_mem_nil
  | cons p ps ih =>
      intro w b hb
      rw [stored] at hb
      split at hb
      · split at hb
        · obtain ⟨p', hp', rfl⟩ := ih _ b hb
          exact ⟨p', List.mem_cons_of_mem _ hp', rfl⟩
        · rcases List.mem_cons.mp hb with rfl | hb
          · exact ⟨p, List.mem_cons_self, rfl⟩
          · obtain ⟨p', hp', rfl⟩ := ih _ b hb
            exact ⟨p', List.mem_cons_of_mem _ hp', rfl⟩
      · exact absurd hb List.not_mem_nil

/-- A fresh receiver stores every block once and in order exactly when every delivery
that is not newer than all before it is caught by the filter. -/
theorem inOrder_iff_filtered {w : Webm} (hw : Fresh first w) (ps : List (BlockPacket first)) :
    InOrder w ps ↔ Filtered (Progress.init first) (ps.map BlockPacket.pair) := by
  have hm := hw.matches
  constructor
  · intro h
    refine filtered_of_increasing ps _ w hm (List.pairwise_cons.mpr ⟨fun b hb => ?_, h.increasing⟩)
    obtain ⟨p, -, rfl⟩ := mem_stored ps w b hb
    exact newer_than_init p
  · intro hf
    refine ⟨(increasing_of_filtered ps _ w hm hf).of_cons, ?_⟩
    rintro pre p post w' rfl hrun b hlast hnot
    obtain ⟨q', w'', hrun', hm', hf', hnewest⟩ := receive_matches pre _ w (p :: post) hm hf
    obtain rfl : w'' = w' := by simpa [hrun'] using hrun
    rw [List.getLastD_eq_getLast?, hlast] at hnewest
    rw [List.map_cons, Filtered, hnewest, Option.getD_some, if_neg hnot] at hf'
    exact assembleBlock_drop p hm' hf'.1

end Runs

/-! ## A peer that joined at cluster 0 -/

/-- The state behind `InitialStatus` for the cluster `first` and the WebM header. -/
def freshReceiver (first : UInt16) (header : List UInt8) : Webm :=
  let w := { initCluster Cluster.zero Cluster.zero (Webm.start []) with blockAllocated := true }
  let block := ⟨{ initBlock.info with clusterSeq := first },
    { initBlock.prev with clusterSeq := first }⟩
  renewClusterForWrite (updateWebM (writeWebMHeader header { w with currentBlock := block }))

theorem freshReceiver_fresh (first : UInt16) (header : List UInt8) :
    Fresh first (freshReceiver first header) := by
  have h : ∀ w, (updateWebM (writeWebMHeader header w)).marks = w.marks := fun w =>
    updateWebM_marks _
  simp only [Webm.marks, Marks.mk.injEq] at h
  simp only [freshReceiver]
  constructor <;> simp only [renewClusterForWrite, exportWebM, h] <;> rfl

/-- The packet of a cluster's only block, a Timecode of one data byte. -/
def timecodePacket (cluster : UInt16) : Buf :=
  Buf.zero.overlay (copyBlockInfoToBytes ⟨12, 1, 3, 0, cluster, 0, 0, statusSimpleblock, 0⟩ ++
    [0xe7, 0x81, 0])

def firstPacket : BlockPacket 0 where
  data := timecodePacket 0
  bytes := 21
  first_le := by decide
  seq_pos := by decide
  timecode := fun _ => by decide
  not_end := by decide

def secondPacket : BlockPacket 0 where
  data := timecodePacket 1
  bytes := 21
  first_le := by decide
  seq_pos := by decide
  timecode := fun _ => by decide
  not_end := by decide

theorem inOrder_iff_filtered_first_second :
    InOrder (freshReceiver 0 [0x1a, 0x45, 0xdf, 0xa3]) [firstPacket, secondPacket] ↔
      Filtered (Progress.init 0) [(0, 1), (1, 1)] :=
  inOrder_iff_filtered (freshReceiver_fresh 0 _) [firstPacket, secondPacket]

/-- The first block of cluster 1, delivered twice, is stored twice. -/
theorem stored_twice :
    Fresh 0 (freshReceiver 0 [0x1a, 0x45, 0xdf, 0xa3]) ∧
      ¬ InOrder (freshReceiver 0 [0x1a, 0x45, 0xdf, 0xa3])
        [firstPacket, secondPacket, secondPacket] := by
  refine ⟨freshReceiver_fresh 0 _, fun h => ?_⟩
  have hstored : stored (freshReceiver 0 [0x1a, 0x45, 0xdf, 0xa3])
      [firstPacket, secondPacket, secondPacket] = [(0, 1), (1, 1), (1, 1)] := by
    decide +kernel
  have hincreasing := h.increasing
  rw [hstored] at hincreasing
  exact absurd hincreasing (by decide)

end P2PStream
