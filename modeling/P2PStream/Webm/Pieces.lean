/-
# `P2PStream.Webm.Pieces` — the pieces of an element of any size

An element that does not fit a block is cut into pieces of 1000 bytes.  Sizes have 64
bits, `total_piece_bytes` has 16 and the two counters have 8.  The 16 bits do no harm,
for they only serve to find the length of the last piece.  The counters do: they agree
for the first time at a piece that need not be the last, and an element of more than
256 pieces ends there.
-/
import P2PStream.Webm.Segment

namespace P2PStream

open Lib

/-! ## Runs of pieces -/

/-- The calls of the segmenter from a first piece on, each on a window of what lies behind the
blocks before it, up to the piece that takes itself for the last one; and their records. -/
inductive PieceRun : Block → List UInt8 → List BlockInfo → Prop
  | last {block block' : Block} {rest : List UInt8} {b : Buf} {ret : Int} :
      Window b rest 1000 → getNextBlockByBytes block maxBlockBytes b = some (block', ret) →
      block'.info.pieceSeq = block'.info.totalPieces → PieceRun block rest [block'.info]
  | next {block block' : Block} {rest : List UInt8} {b : Buf} {ret : Int} {l : List BlockInfo} :
      Window b rest 1000 → getNextBlockByBytes block maxBlockBytes b = some (block', ret) →
      block'.info.pieceSeq ≠ block'.info.totalPieces →
      PieceRun (shiftToPreBlock block') (rest.drop block'.info.bytes.toNat) l →
      PieceRun block rest (block'.info :: l)

theorem PieceRun.ne_nil {block : Block} {rest : List UInt8} {l : List BlockInfo}
    (h : PieceRun block rest l) : l ≠ [] := by
  cases h <;> exact List.cons_ne_nil _ _

theorem exists_window (l : List UInt8) : ∃ b, Window b l 1000 := ⟨_, .overlay l 1000⟩

/-- Right from piece `j` on, for an element of `x` bytes in front of `es`: as many blocks as it
takes, all full but the last, and that with what is left, before elements are appended. -/
structure PiecesFrom (x j : Nat) (es : List Element) (l : List BlockInfo) : Prop where
  count : l.length + j = (x + 999) / 1000
  full : ∀ info ∈ l.dropLast, info.bytes.toNat = 1000
  last : ∀ info ∈ l.getLast?, ∃ done, done <+: es ∧
    info.bytes.toNat + 1000 * ((x + 999) / 1000 - 1) = x + (payload done).length ∧
    (info.status = statusPiece → done = [])

theorem PiecesFrom.cons {x j : Nat} {es : List Element} {info : BlockInfo} {l : List BlockInfo}
    (h : PiecesFrom x (j + 1) es l) (hl : l ≠ []) (hbytes : info.bytes.toNat = 1000) :
    PiecesFrom x j es (info :: l) where
  count := by
    rw [List.length_cons]
    have := h.count
    omega
  full := by
    intro i hi
    rw [List.dropLast_cons_of_ne_nil hl] at hi
    rcases List.mem_cons.mp hi with rfl | hi
    · exact hbytes
    · exact h.full i hi
  last := by
    intro i hi
    obtain ⟨e, l, rfl⟩ := List.exists_cons_of_ne_nil hl
    rw [List.getLast?_cons_cons] at hi
    exact h.last i hi

/-! ## One call behind a piece -/

section Steps

variable {block : Block} {b : Buf}

/-- A piece that is taken neither for the last nor for one behind the last. -/
theorem getNextBlockByBytes_other (hpiece : block.prev.status = statusPiece)
    (hne : block.prev.pieceSeq ≠ block.prev.totalPieces)
    (hlast : block.prev.totalPieces.toNat ≠ block.prev.pieceSeq.toNat + 1) :
    ∃ info, getNextBlockByBytes block maxBlockBytes b = some (⟨info, block.prev⟩, 0) ∧
      info.status = statusPiece ∧ info.bytes.toNat = 1000 ∧
      info.totalPieces = block.prev.totalPieces ∧ info.pieceSeq = block.prev.pieceSeq + 1 ∧
      info.totalPieceBytes = block.prev.totalPieceBytes := by
  have hinit : block.prev.status ≠ statusInit := by
    rw [hpiece]
    decide
  have hseq : block.prev.totalPieces.toNat ≠ block.prev.pieceSeq.toNat :=
    fun h => hne (UInt8.toNat_inj.mp h).symm
  simp only [getNextBlockByBytes, if_neg hinit, getLaterBlock, if_pos hpiece, if_neg hlast,
    if_neg hseq]
  exact ⟨_, rfl, rfl, rfl, rfl, rfl, rfl⟩

theorem getNextBlockByBytes_last (hpiece : block.prev.status = statusPiece)
    (hlast : block.prev.totalPieces.toNat = block.prev.pieceSeq.toNat + 1) :
    getNextBlockByBytes block maxBlockBytes b = getLastPiece { block with info := { block.info with
      clusterSeq := block.prev.clusterSeq
      seq := block.prev.seq + 1
      pos := block.prev.pos + block.prev.bytes.toUInt32 } } maxBlockBytes b := by
  have hinit : block.prev.status ≠ statusInit := by
    rw [hpiece]
    decide
  simp only [getNextBlockByBytes, if_neg hinit, getLaterBlock, if_pos hpiece, if_pos hlast]

theorem getLastPiece_counters {block' : Block} {ret : Int} {req : UInt16}
    (h : getLastPiece block req b = some (block', ret)) :
    block'.info.totalPieces = block.prev.totalPieces ∧
      block'.info.pieceSeq = block.prev.pieceSeq + 1 := by
  simp only [getLastPiece, Option.bind_eq_bind, Option.bind_eq_some_iff, Prod.exists] at h
  obtain ⟨walked, status, hwalk, h⟩ := h
  simp only [getChankByBytes, Option.bind_eq_bind, Option.bind_eq_some_iff, Prod.exists] at hwalk
  obtain ⟨_, _, -, hwalk⟩ := hwalk
  cases hwalk
  split at h <;> cases h <;> exact ⟨rfl, rfl⟩

/-- Behind a piece that is not taken for the last the counters go on by one. -/
theorem getNextBlockByBytes_counters {block' : Block} {ret : Int}
    (hpiece : block.prev.status = statusPiece)
    (hne : block.prev.pieceSeq ≠ block.prev.totalPieces)
    (h : getNextBlockByBytes block maxBlockBytes b = some (block', ret)) :
    block'.info.totalPieces = block.prev.totalPieces ∧
      block'.info.pieceSeq = block.prev.pieceSeq + 1 ∧
      (block'.info.pieceSeq ≠ block'.info.totalPieces → block'.info.status = statusPiece) ∧
      (block.prev.totalPieces = 0 → block'.info.status = statusPiece ∧
        block'.info.bytes.toNat = 1000) := by
  by_cases hlast : block.prev.totalPieces.toNat = block.prev.pieceSeq.toNat + 1
  · rw [getNextBlockByBytes_last hpiece hlast] at h
    have hcounters := getLastPiece_counters h
    obtain ⟨htotal, hseq⟩ : block'.info.totalPieces = block.prev.totalPieces ∧
      block'.info.pieceSeq = block.prev.pieceSeq + 1 := hcounters
    have hone : (1 : UInt8).toNat = 1 := rfl
    have hlt := block.prev.totalPieces.toNat_lt
    refine ⟨htotal, hseq, fun hnot => absurd ?_ hnot, fun hzero => ?_⟩
    · rw [hseq, htotal, ← UInt8.toNat_inj, UInt8.toNat_add, hone]
      exact (Nat.mod_eq_of_lt (by omega)).trans hlast.symm
    · rw [hzero] at hlast
      cases hlast
  · obtain ⟨info, hnext, hstatus, hbytes, htotal, hseq, -⟩ :=
      getNextBlockByBytes_other (b := b) hpiece hne hlast
    rw [hnext] at h
    cases h
    exact ⟨htotal, hseq, fun _ => hstatus, fun _ => ⟨hstatus, hbytes⟩⟩

end Steps

/-! ## The length of a run -/

theorem PieceRun.length_behind {block : Block} {rest : List UInt8} {l : List BlockInfo}
    (h : PieceRun block rest l) (hpiece : block.prev.status = statusPiece)
    (hne : block.prev.pieceSeq ≠ block.prev.totalPieces) :
    l.length = (block.prev.totalPieces - block.prev.pieceSeq).toNat := by
  induction h with
  | last _ hnext hend =>
      obtain ⟨htotal, hseq, -⟩ := getNextBlockByBytes_counters hpiece hne hnext
      rw [hseq, htotal] at hend
      rw [← hend, UInt8.add_comm, UInt8.add_sub_cancel]
      rfl
  | @next block block' _ _ _ l _ hnext hmore _ ih =>
      obtain ⟨htotal, hseq, hstatus, -⟩ := getNextBlockByBytes_counters hpiece hne hnext
      have hrest : l.length = (block'.info.totalPieces - block'.info.pieceSeq).toNat :=
        ih (hstatus hmore) hmore
      have hone : (1 : UInt8).toNat = 1 := rfl
      have hseqLt := block.prev.pieceSeq.toNat_lt
      have htotalLt := block.prev.totalPieces.toNat_lt
      rw [htotal, hseq] at hmore hrest
      have hmore' : (block.prev.pieceSeq + 1).toNat ≠ block.prev.totalPieces.toNat :=
        fun h => hmore (UInt8.toNat_inj.mp h)
      have hne' : block.prev.pieceSeq.toNat ≠ block.prev.totalPieces.toNat :=
        fun h => hne (UInt8.toNat_inj.mp h)
      rw [List.length_cons, hrest]
      simp only [UInt8.toNat_sub, UInt8.toNat_add, hone] at hmore' ⊢
      omega

theorem PieceRun.full_of_zero {block : Block} {rest : List UInt8} {l : List BlockInfo}
    (h : PieceRun block rest l) (hpiece : block.prev.status = statusPiece)
    (hzero : block.prev.totalPieces = 0) (hne : block.prev.pieceSeq ≠ 0) :
    ∀ info ∈ l, info.status = statusPiece ∧ info.bytes.toNat = 1000 := by
  induction h with
  | last _ hnext _ =>
      have hfull := (getNextBlockByBytes_counters hpiece (by rwa [hzero]) hnext).2.2.2 hzero
      exact fun info hinfo => (List.mem_singleton.mp hinfo) ▸ hfull
  | next _ hnext hmore _ ih =>
      obtain ⟨htotal, -, hstatus, hfull⟩ :=
        getNextBlockByBytes_counters hpiece (by rwa [hzero]) hnext
      rw [hzero] at htotal
      have hrest := ih (hstatus hmore) htotal (by rwa [htotal] at hmore)
      exact fun info hinfo => (List.mem_cons.mp hinfo).elim (fun h => h ▸ hfull hzero) (hrest info)

/-! ## The first piece -/

/-- A block where an element starts: at the head of a cluster, behind its Timecode or without one,
or behind whole elements or a last piece. -/
structure PieceStart (block : Block) (front : List UInt8) : Prop where
  bytes : block.info.bytes = 0
  pieceBytes : block.info.totalPieceBytes = 0
  place : (block.prev.status = statusInit ∧ (front = [] ∨ ∃ t, IsTimecode t ∧ front = t.bytes)) ∨
    (block.prev.status ≠ statusInit ∧ front = [] ∧
      (block.prev.status = statusPiece → block.prev.totalPieces = block.prev.pieceSeq))

section First

variable {block : Block} {b : Buf} {e : Element} {y : List UInt8}

theorem getChankByBytes_tooLong (block : Block) (he : IsSimpleBlock e)
    (hlong : 1000 < e.bytes.length) (hw : Window b (e.bytes ++ y) 1000) :
    getChankByBytes block b maxBlockBytes = some (block, 0) := by
  have hloop := walk_stop (b := b) 1001 0 (Nat.zero_add 1000) (by decide)
    (looksTooLong_element (not_end_of_counted (Or.inr he)) (by rwa [Buf.drop_zero]) hlong)
  rw [getChankByBytes_eq block maxBlockBytes hloop, Nat.add_zero, UInt16.ofNat_toNat]

/-- Behind a Timecode it is not counted either, and the Timecode alone is. -/
theorem getChankByBytes_onlyTimecode (block : Block) {t : Element} (ht : IsTimecode t)
    (he : IsSimpleBlock e) (hlong : 1000 < t.bytes.length + e.bytes.length)
    (hw : Window b (t.bytes ++ (e.bytes ++ y)) 1000) :
    ∃ bytes, getChankByBytes block b maxBlockBytes =
      some ({ block with info := { block.info with bytes } }, onlyTimecode) := by
  have hle := ht.length_le
  have htimecode := walk_element (b := b) 1001 0 (Or.inl ht.1) (Nat.zero_add 1000) (by decide)
    (by rwa [Buf.drop_zero]) (by omega)
  rw [if_pos ht.1, Nat.zero_add] at htimecode
  have hstop := walk_stop 1000 onlyTimecode (show t.bytes.length + (1000 - t.bytes.length) = 1000 by
    omega) (by decide)
    (looksTooLong_element (not_end_of_counted (Or.inr he)) (hw.drop (by omega)) (by omega))
  exact ⟨_, getChankByBytes_eq block maxBlockBytes (htimecode.trans hstop)⟩

/-- The first piece of an element, and of the Timecode in front of it. -/
theorem getNextBlockByBytes_firstPiece {front : List UInt8} (hstart : PieceStart block front)
    (he : IsSimpleBlock e) (hlong : 1000 < front.length + e.bytes.length)
    (hw : Window b (front ++ (e.bytes ++ y)) 1000) :
    ∃ info ret, getNextBlockByBytes block maxBlockBytes b = some (⟨info, block.prev⟩, ret) ∧
      FirstPiece info (front.length + e.bytes.length) := by
  obtain ⟨hbytes, hpiece, ⟨hinit, rfl | ⟨t, ht, rfl⟩⟩ | ⟨hinit, rfl, hdone⟩⟩ := hstart
  · -- at the head of a cluster, without a Timecode
    rw [List.nil_append] at hw
    rw [List.length_nil, Nat.zero_add] at hlong ⊢
    simp only [getNextBlockByBytes, if_pos hinit, getFirstBlock,
      getChankByBytes_tooLong _ he hlong hw, Option.bind_eq_bind, Option.bind_some, if_true]
    refine ⟨_, _, rfl, ?_⟩
    rw [← Nat.zero_add e.bytes.length]
    exact assignBlockInfoByPiece_first (by rw [hbytes]; rfl) (by rw [hpiece]; rfl) rfl
      (getChank_head (by omega) he hw)
  · -- behind the Timecode of the cluster
    have hle := ht.length_le
    obtain ⟨bytes, hwalk⟩ := getChankByBytes_onlyTimecode { block with info := { block.info with
      clusterSeq := block.prev.clusterSeq
      seq := 1
      pos := UInt32.ofNat clusterHeaderBytes } } ht he hlong hw
    have hhead : (getChank b).chankBytes = t.bytes.length := getChank_timecode ht hw
    have hlen : (UInt16.ofNat (getChank b).chankBytes).toNat = t.bytes.length := by
      rw [hhead, UInt16.toNat_ofNat']
      omega
    have hreq : maxBlockBytes.toNat = 1000 := rfl
    have hleft : (maxBlockBytes - UInt16.ofNat (getChank b).chankBytes).toNat =
        1000 - t.bytes.length := by
      rw [UInt16.toNat_sub_of_le _ _ (UInt16.le_iff_toNat_le.mpr (by omega)), hlen, hreq]
    simp only [getNextBlockByBytes, if_pos hinit, getFirstBlock, hwalk, Option.bind_eq_bind,
      Option.bind_some]
    rw [if_neg (by decide), if_pos trivial]
    refine ⟨_, _, rfl, assignBlockInfoByPiece_first hlen hlen (by omega) ?_⟩
    rw [hlen]
    exact getChank_head (by omega) he (hw.drop (by omega))
  · -- behind other elements
    rw [List.nil_append] at hw
    rw [List.length_nil, Nat.zero_add] at hlong ⊢
    have hpieces : ∀ block' : Block, block'.info.bytes = 0 → block'.info.totalPieceBytes = 0 →
        ∃ info ret, getSimpleBlocksOrPiece block' maxBlockBytes b =
          some (⟨info, block'.prev⟩, ret) ∧ FirstPiece info e.bytes.length := by
      intro block' hbytes' hpiece'
      simp only [getSimpleBlocksOrPiece, getChankByBytes_tooLong _ he hlong hw,
        Option.bind_eq_bind, Option.bind_some]
      rw [if_neg (by decide)]
      refine ⟨_, _, rfl, ?_⟩
      rw [← Nat.zero_add e.bytes.length]
      exact assignBlockInfoByPiece_first (by rw [hbytes']; rfl) (by rw [hpiece']; rfl) rfl
        (getChank_head (by omega) he hw)
    simp only [getNextBlockByBytes, if_neg hinit, getLaterBlock]
    by_cases hlast : block.prev.status = statusPiece
    · have hseq := congrArg UInt8.toNat (hdone hlast)
      simp only [if_pos hlast, hseq, if_neg (Nat.succ_ne_self _).symm, if_true]
      exact hpieces _ hbytes hpiece
    · simp only [if_neg hlast]
      exact hpieces _ hbytes hpiece

end First

/-! ## The other pieces -/

/-- The record before a block, `j` pieces into an element of `x` bytes. -/
structure AfterPiece (prev : BlockInfo) (x j : Nat) : Prop where
  status : prev.status = statusPiece
  total : prev.totalPieces.toNat = (x + 999) / 1000 % 256
  seq : prev.pieceSeq.toNat = j
  pieceBytes : prev.totalPieceBytes.toNat = x % 2 ^ 16

section Others

variable {block : Block} {b : Buf} {stop part : List UInt8} {es : List Element} {x j : Nat}

theorem AfterPiece.other (h : AfterPiece block.prev x j) (hx : x ≤ 256000) (hj : 1 ≤ j)
    (hmore : 1000 * (j + 1) < x) :
    ∃ info, getNextBlockByBytes block maxBlockBytes b = some (⟨info, block.prev⟩, 0) ∧
      info.bytes.toNat = 1000 ∧ info.pieceSeq ≠ info.totalPieces ∧ AfterPiece info x (j + 1) := by
  have hone : (1 : UInt8).toNat = 1 := rfl
  have htotal := h.total
  have hseq := h.seq
  obtain ⟨info, hnext, hstatus, hbytes, htotal', hseq', hpiece'⟩ :=
    getNextBlockByBytes_other (b := b) h.status (fun heq => by
      rw [← UInt8.toNat_inj] at heq
      omega) (by omega)
  have hcount : info.pieceSeq.toNat = j + 1 := by
    rw [hseq', UInt8.toNat_add, hone, hseq]
    exact Nat.mod_eq_of_lt (by omega)
  refine ⟨info, hnext, hbytes, fun heq => ?_, hstatus, by rw [htotal', htotal], hcount,
    by rw [hpiece', h.pieceBytes]⟩
  rw [htotal', ← UInt8.toNat_inj] at heq
  omega

theorem AfterPiece.last (h : AfterPiece block.prev x j) (hx : x ≤ 255000 ∨ x = 256000)
    (hj : 1 ≤ j) (hlow : 1000 * j < x) (hhigh : x ≤ 1000 * (j + 1)) (hstop : IsStop stop)
    (hpart : part.length + 1000 * j = x) (hsimple : ∀ e ∈ es, IsSimpleBlock e)
    (hw : Window b (part ++ payload es ++ stop) 1000) :
    ∃ info ret, getNextBlockByBytes block maxBlockBytes b = some (⟨info, block.prev⟩, ret) ∧
      info.pieceSeq = info.totalPieces ∧ PiecesFrom x j es [info] := by
  have hone : (1 : UInt8).toNat = 1 := rfl
  have htotal := h.total
  have hseq := h.seq
  rcases hx with hx | rfl
  · -- the counter has not wrapped
    have hlast : block.prev.totalPieces.toNat = block.prev.pieceSeq.toNat + 1 := by omega
    rw [getNextBlockByBytes_last h.status hlast]
    obtain ⟨done, rest, info, ret, rfl, hnext, -, -, -, htotal', hseq', hstatus, hbytes, -, hend⟩ :=
      getLastPiece_outcome ({ block with info := { block.info with
        clusterSeq := block.prev.clusterSeq
        seq := block.prev.seq + 1
        pos := block.prev.pos + block.prev.bytes.toUInt32 } }) hstop hseq h.pieceBytes hpart
        (by omega) hsimple hw
    have hcount : info.pieceSeq = block.prev.pieceSeq + 1 := hseq'
    refine ⟨info, ret, hnext, ?_, ?_, ?_, ?_⟩
    · rw [htotal', hcount, ← UInt8.toNat_inj, UInt8.toNat_add, hone]
      exact (Nat.mod_eq_of_lt (by omega)).trans hlast.symm
    · simp only [List.length_singleton]
      omega
    · simp
    · intro i hi
      obtain rfl : info = i := by simpa using hi
      refine ⟨done, List.prefix_append done rest, by rw [hbytes]; omega, fun hpiece => ?_⟩
      rcases hend with ⟨hpos, -⟩ | ⟨-, hdone⟩
      · rw [hstatus, if_pos hpos] at hpiece
        exact absurd hpiece (by decide)
      · exact hdone
  · -- the count is 0, and the 256th piece is full
    obtain rfl : j = 255 := by omega
    obtain ⟨info, hnext, hstatus, hbytes, htotal', hseq', -⟩ :=
      getNextBlockByBytes_other (b := b) h.status (fun heq => by
        rw [← UInt8.toNat_inj] at heq
        omega) (by omega)
    refine ⟨info, 0, hnext, ?_, by simp, by simp, ?_⟩
    · rw [htotal', hseq', ← UInt8.toNat_inj, UInt8.toNat_add, hone, hseq, htotal]
    · intro i hi
      obtain rfl : info = i := by simpa using hi
      exact ⟨[], List.nil_prefix, by rw [hbytes]; simp, fun _ => rfl⟩

theorem AfterPiece.run (hx : x ≤ 255000 ∨ x = 256000) (hstop : IsStop stop)
    (hsimple : ∀ e ∈ es, IsSimpleBlock e) (k : Nat) :
    ∀ (block : Block) (part : List UInt8) (j : Nat), x ≤ 1000 * (j + k) →
      AfterPiece block.prev x j → 1 ≤ j → 1000 * j < x → part.length + 1000 * j = x →
      (∃ l, PieceRun block (part ++ payload es ++ stop) l) ∧
        ∀ l, PieceRun block (part ++ payload es ++ stop) l → PiecesFrom x j es l := by
  induction k with
  | zero =>
      intro block part j hk _ _ hlow
      omega
  | succ k ih =>
      intro block part j hk h hj hlow hpart
      by_cases hmore : 1000 * (j + 1) < x
      · have hdrop : (part ++ payload es ++ stop).drop 1000 =
            part.drop 1000 ++ payload es ++ stop := by
          rw [List.append_assoc, List.drop_append_of_le_length (by omega), List.append_assoc]
        have hbehind : ∀ info : BlockInfo, AfterPiece info x (j + 1) → _ := fun info hinfo =>
          ih (shiftToPreBlock ⟨info, block.prev⟩) (part.drop 1000) (j + 1) (by omega) hinfo
            (by omega) hmore (by rw [List.length_drop]; omega)
        constructor
        · obtain ⟨b, hw⟩ := exists_window (part ++ payload es ++ stop)
          obtain ⟨info, hnext, hbytes, hne, hinfo⟩ := h.other (b := b) (by omega) hj hmore
          obtain ⟨l, hl⟩ := (hbehind info hinfo).1
          refine ⟨info :: l, .next hw hnext hne ?_⟩
          rwa [hbytes, hdrop]
        · rintro l (⟨hw, hnext', hend⟩ | ⟨hw, hnext', hne', hrest⟩)
          · obtain ⟨info, hnext, -, hne, -⟩ := h.other (by omega) hj hmore
            obtain ⟨rfl, -⟩ := by simpa using hnext.symm.trans hnext'
            exact absurd hend hne
          · obtain ⟨info, hnext, hbytes, hne, hinfo⟩ := h.other (by omega) hj hmore
            obtain ⟨rfl, -⟩ := by simpa using hnext.symm.trans hnext'
            rw [hbytes, hdrop] at hrest
            exact ((hbehind info hinfo).2 _ hrest).cons hrest.ne_nil hbytes
      · constructor
        · obtain ⟨b, hw⟩ := exists_window (part ++ payload es ++ stop)
          obtain ⟨info, ret, hnext, hend, -⟩ :=
            h.last hx hj hlow (by omega) hstop hpart hsimple hw
          exact ⟨[info], .last hw hnext hend⟩
        · rintro l (⟨hw, hnext', hend⟩ | ⟨hw, hnext', hne', hrest⟩)
          · obtain ⟨info, ret, hnext, -, hright⟩ :=
              h.last hx hj hlow (by omega) hstop hpart hsimple hw
            obtain ⟨rfl, -⟩ := by simpa using hnext.symm.trans hnext'
            exact hright
          · obtain ⟨info, ret, hnext, hend, -⟩ :=
              h.last hx hj hlow (by omega) hstop hpart hsimple hw
            obtain ⟨rfl, -⟩ := by simpa using hnext.symm.trans hnext'
            exact absurd hend hne'

end Others

/-! ## Elements of any size -/

section Whole

variable {block : Block} {front stop : List UInt8} {e : Element} {es : List Element}
  {l : List BlockInfo}

/-- The number of blocks until the counters agree, whatever is in them. -/
theorem PieceRun.length_eq (hstart : PieceStart block front) (he : IsSimpleBlock e)
    (hlong : 1000 < front.length + e.bytes.length) {y : List UInt8}
    (h : PieceRun block (front ++ (e.bytes ++ y)) l) :
    l.length = (ceilPieces (front.length + e.bytes.length) - 1).toNat + 1 ∧
      (ceilPieces (front.length + e.bytes.length) = 0 →
        ∀ info ∈ l, info.status = statusPiece ∧ info.bytes.toNat = 1000) := by
  rcases h with ⟨hw, hnext', hend⟩ | ⟨hw, hnext', hmore, hrest⟩
  · obtain ⟨info, ret, hnext, hfirst⟩ := getNextBlockByBytes_firstPiece hstart he hlong hw
    obtain ⟨rfl, -⟩ := by simpa using hnext.symm.trans hnext'
    rw [← hfirst.total]
    refine ⟨?_, fun _ i hi => List.mem_singleton.mp hi ▸ ⟨hfirst.status, hfirst.bytes⟩⟩
    rw [← hend, hfirst.seq]
    rfl
  · obtain ⟨info, ret, hnext, hfirst⟩ := getNextBlockByBytes_firstPiece hstart he hlong hw
    obtain ⟨rfl, -⟩ := by simpa using hnext.symm.trans hnext'
    rw [← hfirst.total]
    constructor
    · rw [List.length_cons, hrest.length_behind hfirst.status hmore]
      show (info.totalPieces - info.pieceSeq).toNat + 1 = _
      rw [hfirst.seq]
    · intro hzero i hi
      have hbehind := hrest.full_of_zero hfirst.status hzero (by
        show info.pieceSeq ≠ 0
        rw [hfirst.seq]
        decide)
      rcases List.mem_cons.mp hi with rfl | hi
      · exact ⟨hfirst.status, hfirst.bytes⟩
      · exact hbehind i hi

/-- Up to 255 pieces, or 256 full ones, the counters agree at the last piece and not before. -/
theorem ceilPieces_agree_iff {x : Nat} (hx : 1000 < x) :
    (ceilPieces x - 1).toNat + 1 = (x + 999) / 1000 ↔ x ≤ 256000 := by
  have hm : maxBlockBytes.toNat = 1000 := rfl
  have hone : (1 : UInt8).toNat = 1 := rfl
  simp only [ceilPieces, hm, UInt8.toNat_sub, hone]
  split
  · rw [UInt8.toNat_ofNat']
    omega
  · have hzero : (0 : UInt8).toNat = 0 := rfl
    rw [hzero]
    omega

/-- A SimpleBlock of any size, with the Timecode in front of it if there is one, that does not fit
a block: the segmenter makes the right pieces of it, exactly up to 255000 bytes, and of
256000. -/
theorem pieces_iff (hstart : PieceStart block front) (he : IsSimpleBlock e)
    (hlong : 1000 < front.length + e.bytes.length) (hsimple : ∀ f ∈ es, IsSimpleBlock f)
    (hstop : IsStop stop) :
    ((∃ l, PieceRun block (front ++ payload (e :: es) ++ stop) l) ∧
      ∀ l, PieceRun block (front ++ payload (e :: es) ++ stop) l →
        PiecesFrom (front.length + e.bytes.length) 0 es l) ↔
    front.length + e.bytes.length ≤ 255000 ∨ front.length + e.bytes.length = 256000 := by
  have hassoc :
      front ++ payload (e :: es) ++ stop = front ++ (e.bytes ++ (payload es ++ stop)) := by
    simp
  have hdrop : (front ++ (e.bytes ++ (payload es ++ stop))).drop 1000 =
      (front ++ e.bytes).drop 1000 ++ payload es ++ stop := by
    rw [← List.append_assoc, List.drop_append_of_le_length (by rw [List.length_append]; omega),
      List.append_assoc]
  rw [hassoc]
  constructor
  · rintro ⟨⟨l, hrun⟩, hright⟩
    obtain ⟨hcount, -, hlast⟩ := hright l hrun
    obtain ⟨hlength, hzero⟩ := hrun.length_eq hstart he hlong
    have hle := (ceilPieces_agree_iff hlong).mp (by omega)
    by_contra hnot
    rw [not_or] at hnot
    -- 256 pieces, of which the last is not full
    have htotal : ceilPieces (front.length + e.bytes.length) = 0 := by
      have hm : maxBlockBytes.toNat = 1000 := rfl
      have hpieces : (front.length + e.bytes.length + 999) / 1000 = 256 := by omega
      rw [ceilPieces, hm, show 1000 - 1 = 999 from rfl, hpieces]
      decide
    obtain ⟨hstatus, hbytes⟩ := hzero htotal _ (List.getLast_mem hrun.ne_nil)
    obtain ⟨done, -, hown, hdone⟩ := hlast _ (List.getLast?_eq_some_getLast hrun.ne_nil)
    rw [hdone hstatus, payload_nil, List.length_nil] at hown
    omega
  · intro hx
    have hbehind : ∀ info : BlockInfo, FirstPiece info (front.length + e.bytes.length) → _ :=
      fun info hinfo => AfterPiece.run hx hstop hsimple 255
        (shiftToPreBlock ⟨info, block.prev⟩) ((front ++ e.bytes).drop 1000) 1 (by omega)
        ⟨hinfo.status, by
          show info.totalPieces.toNat = _
          have hm : maxBlockBytes.toNat = 1000 := rfl
          rw [hinfo.total, ceilPieces, hm, if_pos (by omega), UInt8.toNat_ofNat'], by
          show info.pieceSeq.toNat = 1
          rw [hinfo.seq]
          rfl, hinfo.pieceBytes⟩ (le_refl 1) (by omega)
        (by rw [List.length_drop, List.length_append]; omega)
    have hmore : ∀ info : BlockInfo, FirstPiece info (front.length + e.bytes.length) →
        info.pieceSeq ≠ info.totalPieces := by
      intro info hinfo heq
      have hm : maxBlockBytes.toNat = 1000 := rfl
      have hone : (1 : UInt8).toNat = 1 := rfl
      rw [hinfo.seq, hinfo.total, ceilPieces, hm, if_pos (by omega), ← UInt8.toNat_inj,
        UInt8.toNat_ofNat', hone] at heq
      omega
    constructor
    · obtain ⟨b, hw⟩ := exists_window (front ++ (e.bytes ++ (payload es ++ stop)))
      obtain ⟨info, ret, hnext, hfirst⟩ := getNextBlockByBytes_firstPiece hstart he hlong hw
      obtain ⟨l, hl⟩ := (hbehind info hfirst).1
      refine ⟨info :: l, .next hw hnext (hmore info hfirst) ?_⟩
      rwa [hfirst.bytes, hdrop]
    · rintro l (⟨hw, hnext', hend⟩ | ⟨hw, hnext', hne', hrest⟩)
      · obtain ⟨info, ret, hnext, hfirst⟩ := getNextBlockByBytes_firstPiece hstart he hlong hw
        obtain ⟨rfl, -⟩ := by simpa using hnext.symm.trans hnext'
        exact absurd hend (hmore info hfirst)
      · obtain ⟨info, ret, hnext, hfirst⟩ := getNextBlockByBytes_firstPiece hstart he hlong hw
        obtain ⟨rfl, -⟩ := by simpa using hnext.symm.trans hnext'
        rw [hfirst.bytes, hdrop] at hrest
        exact ((hbehind info hfirst).2 _ hrest).cons hrest.ne_nil hfirst.bytes

end Whole

/-- A SimpleBlock of `k` data bytes, all zero. -/
def keyFrame (k : Nat) (h : k < 2 ^ 56 - 1) : Element where
  idWidth := 1
  idValue := 35
  width := 8
  data := List.replicate k 0
  idWidth_pos := Nat.one_pos
  idWidth_le := one_le_four
  idValue_lt := simpleblock_lt
  width_pos := eight_pos
  width_le := eight_le_eight
  size_lt := by rwa [List.length_replicate]

theorem length_keyFrame (k : Nat) (h : k < 2 ^ 56 - 1) : (keyFrame k h).bytes.length = k + 9 := by
  rw [Element.length_bytes, Nat.add_comm]
  exact congrArg (· + 9) List.length_replicate

theorem keyFrame_isSimple (k : Nat) (h : k < 2 ^ 56 - 1) : IsSimpleBlock (keyFrame k h) := by
  show 2 ^ (7 * 1) + 35 = simpleblockId
  decide

theorem pieceStart_initBlock : PieceStart initBlock [] := ⟨rfl, rfl, .inl ⟨rfl, .inl rfl⟩⟩

/-- A frame of 1500 bytes is cut into two pieces. -/
theorem pieces_iff_keyFrame :
    let e := keyFrame 1491 (by decide)
    (∃ l, PieceRun initBlock ([] ++ payload [e] ++ toBe 4 clusterId) l) ∧
      ∀ l, PieceRun initBlock ([] ++ payload [e] ++ toBe 4 clusterId) l →
        PiecesFrom (0 + e.bytes.length) 0 [] l := by
  intro e
  have hlength : e.bytes.length = 1500 := length_keyFrame _ _
  refine (pieces_iff pieceStart_initBlock (keyFrame_isSimple _ _) ?_ (by simp)
    (.inl (List.prefix_refl _))).mpr (.inl ?_)
  · rw [hlength]
    decide
  · rw [hlength]
    decide

/-- A frame of 257 pieces: the first piece is taken for the last one. -/
theorem pieces_keyFrame_257 :
    let e := keyFrame 256991 (by decide)
    (∃ l, PieceRun initBlock (payload [e] ++ toBe 4 clusterId) l) ∧
      ∀ l, PieceRun initBlock (payload [e] ++ toBe 4 clusterId) l →
        l.length = 1 ∧ ¬ PiecesFrom e.bytes.length 0 [] l := by
  intro e
  have hlength : e.bytes.length = 257000 := length_keyFrame _ _
  have hlong : 1000 < ([] : List UInt8).length + e.bytes.length := by
    rw [hlength]
    decide
  have hpayload : payload [e] ++ toBe 4 clusterId = [] ++ (e.bytes ++ toBe 4 clusterId) := by
    simp
  have hone : ceilPieces (([] : List UInt8).length + e.bytes.length) = 1 := by
    rw [hlength]
    decide
  rw [hpayload]
  constructor
  · obtain ⟨b, hw⟩ := exists_window ([] ++ (e.bytes ++ toBe 4 clusterId))
    obtain ⟨info, ret, hnext, hfirst⟩ :=
      getNextBlockByBytes_firstPiece pieceStart_initBlock (keyFrame_isSimple _ _) hlong hw
    exact ⟨[info], .last hw hnext (by rw [hfirst.seq, hfirst.total, hone])⟩
  · intro l hrun
    obtain ⟨hcount, -⟩ := hrun.length_eq pieceStart_initBlock (keyFrame_isSimple _ _) hlong
    rw [hone] at hcount
    refine ⟨hcount, fun hright => ?_⟩
    have hpieces := hright.count
    rw [hcount, hlength] at hpieces
    exact absurd hpieces (by decide)

end P2PStream
