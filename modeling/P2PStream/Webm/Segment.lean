/-
# `P2PStream.Webm.Segment` — the segmenter tiles a cluster's payload

`Cursor prev rest` says what the record `prev` of the block before knows about
the bytes `rest` that are still to be cut: nothing is cut yet, the cut is at the
head of an element, or it is inside an element whose pieces `prev` is counting.
The step theorem `getNextBlockByBytes_step` runs `GetNextBlockByBytes` once from
any cursor: the block it makes is a non-empty front of `rest` and leaves a cursor
in front of what remains, or it is all of `rest` and the status is
`CLUSTER_END`.

The narrow fields are harmless because of two facts that `Cursor` carries: an
element in pieces has at most 255 of them, so the 8-bit counters do not wrap; and
`total_piece_bytes` is right modulo `2 ^ 16`, which is enough to recover the
length of the last piece.
-/
import P2PStream.Webm.Walk

namespace P2PStream

open Lib

/-- The payload of one cluster: a Timecode, then SimpleBlocks of at most 255
pieces each (the first together with the Timecode). -/
structure ClusterPayload where
  timecode : Element
  blocks : List Element
  isTimecode : IsTimecode timecode
  areSimple : ∀ e ∈ blocks, IsSimpleBlock e
  first_le : ∀ e ∈ blocks.head?, timecode.bytes.length + e.bytes.length ≤ 255000
  rest_le : ∀ e ∈ blocks, e.bytes.length ≤ 255000

def ClusterPayload.bytes (p : ClusterPayload) : List UInt8 := payload (p.timecode :: p.blocks)

theorem IsTimecode.length_le {e : Element} (h : IsTimecode e) : e.bytes.length ≤ 17 := by
  have := e.width_le
  have := h.2
  rw [e.length_bytes, h.idWidth]
  omega

/-- What the record of the block before knows about the bytes still to be cut. -/
inductive Cursor : BlockInfo → List UInt8 → Prop
  | atStart {prev : BlockInfo} (p : ClusterPayload) :
      prev.status = statusInit → Cursor prev p.bytes
  | atElement {prev : BlockInfo} (es : List Element) :
      prev.status ≠ statusInit →
      (prev.status = statusPiece → prev.totalPieces = prev.pieceSeq) →
      (∀ e ∈ es, IsSimpleBlock e) → (∀ e ∈ es, e.bytes.length ≤ 255000) →
      Cursor prev (payload es)
  | inPiece {prev : BlockInfo} (part : List UInt8) (es : List Element) (x n j : Nat) :
      prev.status = statusPiece → prev.totalPieces.toNat = n → prev.pieceSeq.toNat = j →
      1 ≤ j → j < n → n ≤ 255 → 1000 * (n - 1) < x → x ≤ 1000 * n →
      prev.totalPieceBytes.toNat = x % 2 ^ 16 → part.length + 1000 * j = x →
      (∀ e ∈ es, IsSimpleBlock e) → (∀ e ∈ es, e.bytes.length ≤ 255000) →
      Cursor prev (part ++ payload es)

/-- What one call of the segmenter makes of the bytes still to be cut. -/
structure Cut (rest : List UInt8) (info : BlockInfo) (ret : Int) : Prop where
  bytes_le : info.bytes.toNat ≤ 1000
  bytes_le_rest : info.bytes.toNat ≤ rest.length
  status_mem : info.status = statusPiece ∨ info.status = statusSimpleblock ∨
    info.status = statusBlock
  last : ret = clusterEnd → info.bytes.toNat = rest.length
  next : ret ≠ clusterEnd →
    0 < info.bytes.toNat ∧ Cursor info (rest.drop info.bytes.toNat)

/-! ## The four kinds of block -/

section Kinds

variable {info : BlockInfo} {ret : Int} {front : List UInt8} {done es : List Element}

/-- Whole elements, behind `front`: all that remain, or at least one byte. -/
theorem Cut.whole (hstatus : info.status = statusSimpleblock ∨ info.status = statusBlock)
    (hbytes : info.bytes.toNat = front.length + (payload done).length)
    (hle : info.bytes.toNat ≤ 1000)
    (hret : (es = [] ∧ ret = clusterEnd) ∨ (ret ≠ clusterEnd ∧ 0 < info.bytes.toNat))
    (hsimple : ∀ e ∈ es, IsSimpleBlock e) (hmax : ∀ e ∈ es, e.bytes.length ≤ 255000) :
    Cut (front ++ payload (done ++ es)) info ret where
  bytes_le := hle
  bytes_le_rest := by
    rw [hbytes]
    simp
  status_mem := Or.inr hstatus
  last := by
    intro hend
    obtain ⟨rfl, -⟩ : es = [] ∧ ret = clusterEnd := hret.resolve_right fun h => h.1 hend
    rw [hbytes]
    simp
  next := by
    intro hne
    refine ⟨(hret.resolve_left fun h => hne h.2).2, ?_⟩
    have hdrop : (front ++ payload (done ++ es)).drop info.bytes.toNat = payload es := by
      rw [hbytes, payload_append, ← List.append_assoc, ← List.length_append, List.drop_left]
    rw [hdrop]
    refine .atElement es ?_ ?_ hsimple hmax
    · rcases hstatus with h | h <;> rw [h] <;> decide
    · intro hp
      rcases hstatus with h | h <;> rw [h] at hp <;> exact absurd hp (by decide)

/-- The first piece of `front` and an element, together too large for one block. -/
theorem Cut.firstPiece {e : Element} (hstatus : info.status = statusPiece)
    (hlong : 1000 < front.length + e.bytes.length)
    (hmax : front.length + e.bytes.length ≤ 255000)
    (htotal : info.totalPieces.toNat = (front.length + e.bytes.length + 999) / 1000)
    (hseq : info.pieceSeq = 1)
    (hpiece : info.totalPieceBytes.toNat = (front.length + e.bytes.length) % 2 ^ 16)
    (hbytes : info.bytes.toNat = 1000) (hret : ret ≠ clusterEnd)
    (hsimple : ∀ e ∈ es, IsSimpleBlock e) (hrest : ∀ e ∈ es, e.bytes.length ≤ 255000) :
    Cut (front ++ payload (e :: es)) info ret where
  bytes_le := by omega
  bytes_le_rest := by
    rw [hbytes]
    simp
    omega
  status_mem := Or.inl hstatus
  last := fun h => absurd h hret
  next := by
    intro _
    have hdrop : (front ++ payload (e :: es)).drop info.bytes.toNat
        = (front ++ e.bytes).drop 1000 ++ payload es := by
      rw [hbytes, payload_cons, ← List.append_assoc, List.drop_append_of_le_length]
      simp
      omega
    rw [hdrop]
    have hone : (1 : UInt8).toNat = 1 := rfl
    refine ⟨by omega, .inPiece _ es (front.length + e.bytes.length) _ 1 hstatus htotal
      (by rw [hseq, hone]) (le_refl 1) (by omega) (by omega) (by omega) (by omega) hpiece
      (by simp; omega) hsimple hrest⟩

theorem Cut.otherPiece (prev : BlockInfo) {n j x : Nat} (hstatus : info.status = statusPiece)
    (htotal : info.totalPieces = prev.totalPieces) (hseq : info.pieceSeq = prev.pieceSeq + 1)
    (hpiece : info.totalPieceBytes = prev.totalPieceBytes) (hbytes : info.bytes.toNat = 1000)
    (hn : prev.totalPieces.toNat = n) (hj : prev.pieceSeq.toNat = j) (hjn : j + 1 < n)
    (hn255 : n ≤ 255) (hlow : 1000 * (n - 1) < x) (hhigh : x ≤ 1000 * n)
    (hx : prev.totalPieceBytes.toNat = x % 2 ^ 16) (hfront : front.length + 1000 * j = x)
    (hret : ret ≠ clusterEnd)
    (hsimple : ∀ e ∈ es, IsSimpleBlock e) (hrest : ∀ e ∈ es, e.bytes.length ≤ 255000) :
    Cut (front ++ payload es) info ret where
  bytes_le := by omega
  bytes_le_rest := by
    rw [hbytes]
    simp
    omega
  status_mem := Or.inl hstatus
  last := fun h => absurd h hret
  next := by
    intro _
    have hdrop : (front ++ payload es).drop info.bytes.toNat
        = front.drop 1000 ++ payload es := by
      rw [hbytes, List.drop_append_of_le_length]
      omega
    have hone : (1 : UInt8).toNat = 1 := rfl
    have hseq' : info.pieceSeq.toNat = j + 1 := by
      rw [hseq, UInt8.toNat_add, hj, hone]
      exact Nat.mod_eq_of_lt (by omega)
    rw [hdrop]
    exact ⟨by omega, .inPiece _ es x n (j + 1) hstatus (by rw [htotal, hn]) hseq' (by omega) hjn
      hn255 hlow hhigh (by rw [hpiece, hx]) (by simp; omega) hsimple hrest⟩

theorem Cut.lastPiece (hstatus : info.status = statusPiece)
    (hseq : info.totalPieces = info.pieceSeq) (hbytes : info.bytes.toNat = front.length)
    (hpos : 0 < front.length) (hle : front.length ≤ 1000) (hret : ret ≠ clusterEnd)
    (hsimple : ∀ e ∈ es, IsSimpleBlock e) (hrest : ∀ e ∈ es, e.bytes.length ≤ 255000) :
    Cut (front ++ payload es) info ret where
  bytes_le := by omega
  bytes_le_rest := by
    rw [hbytes]
    simp
  status_mem := Or.inl hstatus
  last := fun h => absurd h hret
  next := by
    intro _
    rw [hbytes, List.drop_left]
    refine ⟨by omega, .atElement es ?_ (fun _ => hseq) hsimple hrest⟩
    rw [hstatus]
    decide

end Kinds

/-! ## The walk inside the segmenter -/

theorem getChankByBytes_eq (block : Block) {buf : Buf} (req : UInt16) {status : Int}
    {total : Nat}
    (h : getChankByBytesLoop buf req.toNat (req.toNat + 2) 0 0 = some (status, total)) :
    getChankByBytes block buf req = some ({ block with info := { block.info with
      bytes := UInt16.ofNat (block.info.bytes.toNat + total) } }, status) := by
  simp [getChankByBytes, h]

/-- The outcome of a walk over SimpleBlocks that starts with nothing counted, as the
segmenter reads it: `status > 0` when an element or the end of the cluster was seen. -/
theorem walk_outcome {b : Buf} {stop : List UInt8} (hstop : IsStop stop) (req : UInt16)
    {es : List Element} (hsimple : ∀ e ∈ es, IsSimpleBlock e)
    (hw : Window b (payload es ++ stop) req.toNat) :
    ∃ done rest status, es = done ++ rest ∧ (payload done).length ≤ req.toNat ∧
      getChankByBytesLoop b req.toNat (req.toNat + 2) 0 0 = some (status, (payload done).length) ∧
      ((0 < status ∧
          ((rest = [] ∧ status = clusterEnd) ∨ (status ≠ clusterEnd ∧ done ≠ []))) ∨
        (status = 0 ∧ done = [] ∧ Blocked req.toNat [] rest)) := by
  obtain ⟨done, rest, status, rfl, hle, hloop, hend⟩ :=
    walk_simpleBlocks hstop req.toNat_lt hsimple 0 req.toNat (req.toNat + 2) 0 (Nat.zero_add _)
      (by omega) (by simpa using hw)
  rw [Nat.zero_add] at hloop
  refine ⟨done, rest, status, rfl, hle, hloop, ?_⟩
  rcases hend with ⟨hrest, rfl⟩ | ⟨hblocked, hstatus⟩
  · exact Or.inl ⟨by decide, Or.inl ⟨hrest, rfl⟩⟩
  · by_cases hdone : done = []
    · rw [if_pos hdone] at hstatus
      exact Or.inr ⟨hstatus, hdone, hdone ▸ hblocked⟩
    · rw [if_neg hdone] at hstatus
      exact Or.inl ⟨by omega, Or.inr ⟨by rw [hstatus]; decide, hdone⟩⟩

/-- The count of pieces of an element that is too large for one block. -/
theorem ceilPieces_toNat {x : Nat} (h : x ≤ 255000) :
    (ceilPieces x).toNat = (x + 999) / 1000 := by
  have hm : maxBlockBytes.toNat = 1000 := rfl
  have hlt : (x + (1000 - 1)) / 1000 < 2 ^ 31 := by omega
  simp only [ceilPieces, hm, if_pos hlt, UInt8.toNat_ofNat']
  omega

/-- The header of an element that starts a window of nine bytes or more is in view. -/
theorem getChank_head {b : Buf} {e : Element} {y : List UInt8} {r : Nat} (hr : 9 ≤ r)
    (hid : IsSimpleBlock e) (hw : Window b (e.bytes ++ y) r) :
    (getChank b).chankBytes = e.bytes.length := by
  have hheader : b.Holds e.header := by
    have := e.width_le
    rw [Element.bytes, List.append_assoc] at hw
    exact hw.holds (by rw [e.length_header, hid.idWidth]; omega)
  rw [getChank_element e hheader]

theorem getChank_timecode {b : Buf} {e : Element} {y : List UInt8} (he : IsTimecode e)
    (hw : Window b (e.bytes ++ y) 1000) : (getChank b).chankBytes = e.bytes.length := by
  have hk := he.length_le
  have hheader : b.Holds e.header := by
    have hlen := e.length_bytes
    rw [Element.bytes, List.append_assoc] at hw
    exact hw.holds (by rw [e.length_header]; omega)
  rw [getChank_element e hheader]

/-- The record of the first piece of `x` bytes. -/
structure FirstPiece (info : BlockInfo) (x : Nat) : Prop where
  status : info.status = statusPiece
  total : info.totalPieces = ceilPieces x
  seq : info.pieceSeq = 1
  bytes : info.bytes.toNat = 1000
  pieceBytes : info.totalPieceBytes.toNat = x % 2 ^ 16

/-- `AssignBlockInfoByPiece` on a first piece behind `front`, a Timecode or nothing. -/
theorem assignBlockInfoByPiece_first {block : Block} {b : Buf} {req : UInt16} {e : Element}
    {k : Nat} (hbytes : block.info.bytes.toNat = k) (hpiece : block.info.totalPieceBytes.toNat = k)
    (hreq : req.toNat + k = 1000) (hchank : (getChank b).chankBytes = e.bytes.length) :
    FirstPiece (assignBlockInfoByPiece block b req .first).info (k + e.bytes.length) := by
  have hlt := element_bytes_lt e
  refine ⟨rfl, ?_, rfl, ?_, ?_⟩
  · show ceilPieces (((getChank b).chankBytes + block.info.bytes.toNat) % 2 ^ 64) = _
    rw [hchank, hbytes, Nat.mod_eq_of_lt (by omega), Nat.add_comm e.bytes.length]
  · show (block.info.bytes + req).toNat = 1000
    rw [UInt16.toNat_add, hbytes]
    omega
  · show (UInt16.ofNat (block.info.totalPieceBytes.toNat + (getChank b).chankBytes)).toNat = _
    rw [hchank, hpiece, UInt16.toNat_ofNat']

theorem assignBlockInfoByPiece_first_cut {block : Block} {b : Buf} {req : UInt16} {ret : Int}
    {front : List UInt8} {e : Element} {es : List Element}
    (hlong : 1000 < front.length + e.bytes.length)
    (hmax : front.length + e.bytes.length ≤ 255000)
    (hbytes : block.info.bytes.toNat = front.length)
    (hpiece : block.info.totalPieceBytes.toNat = front.length)
    (hreq : req.toNat + front.length = 1000)
    (hchank : (getChank b).chankBytes = e.bytes.length) (hret : ret ≠ clusterEnd)
    (hsimple : ∀ e ∈ es, IsSimpleBlock e) (hrest : ∀ e ∈ es, e.bytes.length ≤ 255000) :
    Cut (front ++ payload (e :: es)) (assignBlockInfoByPiece block b req .first).info ret := by
  obtain ⟨hstatus, htotal, hseq, hfull, hpieceBytes⟩ :=
    assignBlockInfoByPiece_first hbytes hpiece hreq hchank
  exact Cut.firstPiece hstatus hlong hmax (by rw [htotal, ceilPieces_toNat hmax]) hseq hpieceBytes
    hfull hret hsimple hrest

/-! ## The branches of the segmenter -/

section Branches

variable (block : Block) {b : Buf} {stop : List UInt8}

theorem getSimpleBlocksOrPiece_cut {es : List Element} (hstop : IsStop stop)
    (hsimple : ∀ e ∈ es, IsSimpleBlock e) (hmax : ∀ e ∈ es, e.bytes.length ≤ 255000)
    (hw : Window b (payload es ++ stop) 1000)
    (hbytes : block.info.bytes = 0) (htotal : block.info.totalPieceBytes = 0) :
    ∃ info ret, getSimpleBlocksOrPiece block maxBlockBytes b = some (⟨info, block.prev⟩, ret) ∧
      info.pos = block.info.pos ∧ info.seq = block.info.seq ∧
      info.clusterSeq = block.info.clusterSeq ∧ Cut (payload es) info ret := by
  obtain ⟨done, rest, status, rfl, hle, hloop, hend⟩ :=
    walk_outcome hstop maxBlockBytes hsimple hw
  have hreq : maxBlockBytes.toNat = 1000 := rfl
  have hzero : (0 : UInt16).toNat = 0 := rfl
  rw [hreq] at hle
  have hlen : (UInt16.ofNat (block.info.bytes.toNat + (payload done).length)).toNat
      = (payload done).length := by
    rw [hbytes, hzero, UInt16.toNat_ofNat']
    omega
  have hsimple' : ∀ e ∈ rest, IsSimpleBlock e := fun e he =>
    hsimple e (List.mem_append_right _ he)
  have hmax' : ∀ e ∈ rest, e.bytes.length ≤ 255000 := fun e he =>
    hmax e (List.mem_append_right _ he)
  simp only [getSimpleBlocksOrPiece, getChankByBytes_eq _ _ hloop, Option.bind_eq_bind,
    Option.bind_some]
  rcases hend with ⟨hpos, hend⟩ | ⟨rfl, rfl, hblocked⟩
  · rw [if_pos hpos]
    refine ⟨_, _, rfl, rfl, rfl, rfl, ?_⟩
    rw [← List.nil_append (payload (done ++ rest))]
    refine Cut.whole (Or.inl rfl) (by simpa using hlen) (hlen.trans_le hle) ?_ hsimple' hmax'
    refine hend.imp_right fun h => ⟨h.1, ?_⟩
    obtain ⟨e, done, rfl⟩ := List.exists_cons_of_ne_nil h.2
    have hpos := List.length_pos_iff.mpr e.bytes_ne_nil
    show 0 < (UInt16.ofNat _).toNat
    rw [hlen]
    simp
    omega
  · rw [if_neg (by decide)]
    refine ⟨_, _, rfl, rfl, rfl, rfl, ?_⟩
    obtain ⟨-, hlt⟩ | ⟨e, es, rfl, hlong⟩ := hblocked
    · rw [hreq] at hlt
      simp at hlt
    rw [hreq, payload_nil, List.length_nil, Nat.zero_add] at hlong
    have hmaxe : e.bytes.length ≤ 255000 := hmax e (by simp)
    simp only [List.nil_append, payload_cons, List.append_assoc] at hw
    have hchank := getChank_head (by omega) (hsimple e (by simp)) hw
    rw [List.nil_append, ← List.nil_append (payload (e :: es))]
    exact assignBlockInfoByPiece_first_cut (by simpa using hlong) (by simpa using hmaxe)
      (by simpa using hlen) (by rw [htotal]; rfl) rfl hchank (by decide)
      (fun f hf => hsimple' f (List.mem_cons_of_mem _ hf))
      (fun f hf => hmax' f (List.mem_cons_of_mem _ hf))

/-- The walk of the first block: over the Timecode, then over the SimpleBlocks that fit
behind it. -/
theorem firstBlock_walk (p : ClusterPayload) (hstop : IsStop stop)
    (hw : Window b (p.bytes ++ stop) 1000) :
    ∃ done rest status, p.blocks = done ++ rest ∧
      (payload done).length ≤ 1000 - p.timecode.bytes.length ∧
      getChankByBytesLoop b maxBlockBytes.toNat (maxBlockBytes.toNat + 2) 0 0
        = some (status, p.timecode.bytes.length + (payload done).length) ∧
      ((rest = [] ∧ status = clusterEnd) ∨
        (Blocked (1000 - p.timecode.bytes.length) done rest ∧
          status = if done = [] then onlyTimecode else 1)) := by
  have hk := p.isTimecode.length_le
  have hw' : Window b (p.timecode.bytes ++ (payload p.blocks ++ stop)) 1000 := by
    simpa [ClusterPayload.bytes] using hw
  have htimecode := walk_element 1001 0 (Or.inl p.isTimecode.1)
    (Nat.zero_add 1000) (by decide) (by simpa using hw') (by omega)
  rw [if_pos p.isTimecode.1, Nat.zero_add] at htimecode
  obtain ⟨done, rest, status, hsplit, hle, hloop, hend⟩ :=
    walk_simpleBlocks hstop (show 1000 < 2 ^ 16 by decide) p.areSimple p.timecode.bytes.length
      (1000 - p.timecode.bytes.length) 1001 onlyTimecode (by omega) (by omega)
      (hw'.drop (by omega))
  exact ⟨done, rest, status, hsplit, hle, htimecode.trans hloop, hend⟩

theorem getFirstBlock_cut (p : ClusterPayload) (hstop : IsStop stop)
    (hw : Window b (p.bytes ++ stop) 1000) (hbytes : block.info.bytes = 0) :
    ∃ info ret, getFirstBlock block maxBlockBytes b = some (⟨info, block.prev⟩, ret) ∧
      info.pos = UInt32.ofNat clusterHeaderBytes ∧ info.seq = firstBlockSeq ∧
      info.clusterSeq = block.info.clusterSeq ∧ Cut p.bytes info ret := by
  have hk := p.isTimecode.length_le
  have hzero : (0 : UInt16).toNat = 0 := rfl
  have hreq : maxBlockBytes.toNat = 1000 := rfl
  have hw' : Window b (p.timecode.bytes ++ (payload p.blocks ++ stop)) 1000 := by
    simpa [ClusterPayload.bytes] using hw
  obtain ⟨done, rest, status, hsplit, hle, hloop, hend⟩ := firstBlock_walk p hstop hw
  have hsimple' : ∀ e ∈ rest, IsSimpleBlock e := fun e he =>
    p.areSimple e (by rw [hsplit]; exact List.mem_append_right _ he)
  have hmax' : ∀ e ∈ rest, e.bytes.length ≤ 255000 := fun e he =>
    p.rest_le e (by rw [hsplit]; exact List.mem_append_right _ he)
  have hlen : (UInt16.ofNat (block.info.bytes.toNat
      + (p.timecode.bytes.length + (payload done).length))).toNat
      = p.timecode.bytes.length + (payload done).length := by
    rw [hbytes, hzero, UInt16.toNat_ofNat']
    omega
  have hpbytes : p.bytes = p.timecode.bytes ++ payload (done ++ rest) := by
    rw [ClusterPayload.bytes, hsplit, payload_cons]
  simp only [getFirstBlock, getChankByBytes_eq _ maxBlockBytes hloop,
    Option.bind_eq_bind, Option.bind_some]
  rcases hend with ⟨rfl, rfl⟩ | ⟨hblocked, hstatus⟩
  · -- the whole cluster fits one block
    rw [if_neg (by decide), if_neg (by decide)]
    refine ⟨_, _, rfl, rfl, rfl, rfl, ?_⟩
    rw [hpbytes]
    exact Cut.whole (Or.inl rfl) hlen (hlen.trans_le (by omega)) (Or.inl ⟨rfl, rfl⟩) hsimple' hmax'
  · by_cases hdone : done = []
    · -- the Timecode is followed by an element that does not fit, or by the cut end
      subst hdone
      rw [if_pos rfl] at hstatus
      subst hstatus
      rw [if_neg (by decide), if_pos rfl]
      refine ⟨_, _, rfl, rfl, rfl, rfl, ?_⟩
      obtain ⟨-, hlt⟩ | ⟨e, es, rfl, hlong⟩ := hblocked
      · rw [payload_nil, List.length_nil] at hlt
        omega
      rw [payload_nil, List.length_nil] at hlong
      have hfirst := p.first_le e (by rw [hsplit]; rfl)
      have hhead := getChank_timecode p.isTimecode hw'
      have hwNext := hw'.drop (by omega)
      rw [hsplit, List.nil_append, payload_cons, List.append_assoc] at hwNext
      have htc : (UInt16.ofNat (getChank b).chankBytes).toNat = p.timecode.bytes.length := by
        rw [hhead, UInt16.toNat_ofNat']
        omega
      have hchank := getChank_head (by omega) (hsimple' e List.mem_cons_self) hwNext
      rw [hpbytes, List.nil_append]
      refine assignBlockInfoByPiece_first_cut (by omega) (by omega) htc htc ?_ ?_ (by decide)
        (fun f hf => hsimple' f (List.mem_cons_of_mem _ hf))
        (fun f hf => hmax' f (List.mem_cons_of_mem _ hf))
      · rw [UInt16.toNat_sub_of_le _ _ (UInt16.le_iff_toNat_le.mpr (by omega)), htc, hreq]
        omega
      · rwa [htc]
    · rw [if_neg hdone] at hstatus
      subst hstatus
      rw [if_neg (by decide), if_neg (by decide)]
      refine ⟨_, _, rfl, rfl, rfl, rfl, ?_⟩
      rw [hpbytes]
      refine Cut.whole (Or.inl rfl) hlen (hlen.trans_le (by omega)) (Or.inr ⟨by decide, ?_⟩)
        hsimple' hmax'
      have hpos := List.length_pos_iff.mpr p.timecode.bytes_ne_nil
      show 0 < (UInt16.ofNat _).toNat
      rw [hlen]
      omega

/-- What a last piece of `part`, and whatever elements follow it in the window, are counted as. -/
theorem getLastPiece_outcome {part : List UInt8} {es : List Element} {x j : Nat}
    (hstop : IsStop stop) (hj : block.prev.pieceSeq.toNat = j)
    (hx : block.prev.totalPieceBytes.toNat = x % 2 ^ 16) (hpart : part.length + 1000 * j = x)
    (hle : part.length ≤ 1000) (hsimple : ∀ e ∈ es, IsSimpleBlock e)
    (hw : Window b (part ++ payload es ++ stop) 1000) :
    ∃ done rest info status, es = done ++ rest ∧
      getLastPiece block maxBlockBytes b = some (⟨info, block.prev⟩, status) ∧
      info.pos = block.info.pos ∧ info.seq = block.info.seq ∧
      info.clusterSeq = block.info.clusterSeq ∧ info.totalPieces = block.prev.totalPieces ∧
      info.pieceSeq = block.prev.pieceSeq + 1 ∧
      info.status = (if 0 < status then statusBlock else statusPiece) ∧
      info.bytes.toNat = part.length + (payload done).length ∧ info.bytes.toNat ≤ 1000 ∧
      ((0 < status ∧
          ((rest = [] ∧ status = clusterEnd) ∨ (status ≠ clusterEnd ∧ done ≠ []))) ∨
        (status = 0 ∧ done = [])) := by
  have hreq : maxBlockBytes.toNat = 1000 := rfl
  -- the 16-bit difference is exact, since what is left is at most 1000 bytes
  have hbytes : (block.prev.totalPieceBytes
      - maxBlockBytes * block.prev.pieceSeq.toUInt16).toNat = part.length := by
    rw [UInt16.toNat_sub, UInt16.toNat_mul, UInt8.toNat_toUInt16, hreq, hj, hx]
    omega
  have hleft : (maxBlockBytes - (block.prev.totalPieceBytes
      - maxBlockBytes * block.prev.pieceSeq.toUInt16)).toNat = 1000 - part.length := by
    rw [UInt16.toNat_sub_of_le _ _ (UInt16.le_iff_toNat_le.mpr (by omega)), hbytes, hreq]
  rw [List.append_assoc] at hw
  have hwNext := hw.drop (by omega)
  rw [← hleft, ← hbytes] at hwNext
  obtain ⟨done, rest, status, hsplit, hfit, hloop, hend⟩ := walk_outcome hstop _ hsimple hwNext
  rw [hleft] at hfit
  have hlen : (UInt16.ofNat ((block.prev.totalPieceBytes
      - maxBlockBytes * block.prev.pieceSeq.toUInt16).toNat + (payload done).length)).toNat
      = part.length + (payload done).length := by
    rw [hbytes, UInt16.toNat_ofNat']
    omega
  have hbound : part.length + (payload done).length ≤ 1000 := by omega
  simp only [getLastPiece, assignBlockInfoByPiece, getChankByBytes_eq _ _ hloop,
    Option.bind_eq_bind, Option.bind_some]
  rcases hend with ⟨hpos, hend⟩ | ⟨rfl, hdone, -⟩
  · rw [if_pos hpos]
    exact ⟨done, rest, _, status, hsplit, rfl, rfl, rfl, rfl, rfl, rfl, (if_pos hpos).symm, hlen,
      hlen.trans_le hbound, Or.inl ⟨hpos, hend⟩⟩
  · rw [if_neg (by decide)]
    exact ⟨done, rest, _, 0, hsplit, rfl, rfl, rfl, rfl, rfl, rfl, rfl, hlen,
      hlen.trans_le hbound, Or.inr ⟨rfl, hdone⟩⟩

theorem getLastPiece_cut {part : List UInt8} {es : List Element} {x n j : Nat}
    (hstop : IsStop stop) (hn : block.prev.totalPieces.toNat = n)
    (hj : block.prev.pieceSeq.toNat = j) (hjn : n = j + 1) (hn255 : n ≤ 255)
    (hlow : 1000 * (n - 1) < x) (hhigh : x ≤ 1000 * n)
    (hx : block.prev.totalPieceBytes.toNat = x % 2 ^ 16) (hpart : part.length + 1000 * j = x)
    (hsimple : ∀ e ∈ es, IsSimpleBlock e) (hmax : ∀ e ∈ es, e.bytes.length ≤ 255000)
    (hw : Window b (part ++ payload es ++ stop) 1000) :
    ∃ info ret, getLastPiece block maxBlockBytes b = some (⟨info, block.prev⟩, ret) ∧
      info.pos = block.info.pos ∧ info.seq = block.info.seq ∧
      info.clusterSeq = block.info.clusterSeq ∧ Cut (part ++ payload es) info ret := by
  obtain ⟨done, rest, info, status, rfl, hlast, hpos, hseq, hcluster, htotal, hcount, hstatus,
    hbytes, hle, hend⟩ :=
    getLastPiece_outcome block hstop hj hx hpart (by omega) hsimple hw
  refine ⟨info, status, hlast, hpos, hseq, hcluster, ?_⟩
  have hsimple' : ∀ e ∈ rest, IsSimpleBlock e := fun e he =>
    hsimple e (List.mem_append_right _ he)
  have hmax' : ∀ e ∈ rest, e.bytes.length ≤ 255000 := fun e he =>
    hmax e (List.mem_append_right _ he)
  rcases hend with ⟨hpos, hend⟩ | ⟨rfl, rfl⟩
  · rw [if_pos hpos] at hstatus
    refine Cut.whole (Or.inr hstatus) hbytes hle ?_ hsimple' hmax'
    exact hend.imp_right fun h => ⟨h.1, by omega⟩
  · rw [if_neg (by decide)] at hstatus
    have hagree : info.totalPieces = info.pieceSeq := by
      have hone : (1 : UInt8).toNat = 1 := rfl
      rw [htotal, hcount, ← UInt8.toNat_inj, UInt8.toNat_add, hn, hj, hone]
      omega
    rw [List.nil_append]
    exact Cut.lastPiece hstatus hagree (by simpa using hbytes) (by omega) (by omega) (by decide)
      hsimple' hmax'

theorem getLaterBlock_cut {rest : List UInt8} (hstop : IsStop stop)
    (hcursor : Cursor block.prev rest) (hinit : block.prev.status ≠ statusInit)
    (hw : Window b (rest ++ stop) 1000)
    (hbytes : block.info.bytes = 0) (htotal : block.info.totalPieceBytes = 0) :
    ∃ info ret, getLaterBlock block maxBlockBytes b = some (⟨info, block.prev⟩, ret) ∧
      info.pos = block.prev.pos + block.prev.bytes.toUInt32 ∧ info.seq = block.prev.seq + 1 ∧
      info.clusterSeq = block.info.clusterSeq ∧ Cut rest info ret := by
  obtain ⟨p, h⟩ | ⟨es, -, hdone, hsimple, hmax⟩ |
    ⟨part, es, x, n, j, hpiece, hn, hj, hj1, hjn, hn255, hlow, hhigh, hx, hpart, hsimple, hmax⟩ :=
    hcursor
  · exact absurd h hinit
  · have hwhole := getSimpleBlocksOrPiece_cut ({ block with info := { block.info with
      seq := block.prev.seq + 1, pos := block.prev.pos + block.prev.bytes.toUInt32 } })
      hstop hsimple hmax hw hbytes htotal
    by_cases hp : block.prev.status = statusPiece
    · have hseq := congrArg UInt8.toNat (hdone hp)
      simp only [getLaterBlock, if_pos hp, hseq, if_neg (Nat.succ_ne_self _).symm, if_true]
      exact hwhole
    · simp only [getLaterBlock, if_neg hp]
      exact hwhole
  · by_cases hlast : n = j + 1
    · simp only [getLaterBlock, if_pos hpiece, hn, hj, if_pos hlast]
      exact getLastPiece_cut ({ block with info := { block.info with
        seq := block.prev.seq + 1, pos := block.prev.pos + block.prev.bytes.toUInt32 } })
        hstop hn hj hlast hn255 hlow hhigh hx hpart hsimple hmax hw
    · simp only [getLaterBlock, if_pos hpiece, hn, hj, if_neg hlast,
        if_neg (show ¬ n = j by omega)]
      refine ⟨_, _, rfl, rfl, rfl, rfl, ?_⟩
      exact Cut.otherPiece block.prev rfl rfl rfl rfl rfl hn hj (by omega) hn255 hlow hhigh hx hpart
        (by decide) hsimple hmax

end Branches

/-! ## One call, from any cursor -/

/-- `GetNextBlockByBytes` from any cursor, on a block `ShiftToPreBlock` or `RenewBlock`
has left cleared. -/
theorem getNextBlockByBytes_step (block : Block) {b : Buf} {rest stop : List UInt8}
    (hstop : IsStop stop) (hcursor : Cursor block.prev rest)
    (hw : Window b (rest ++ stop) 1000)
    (hbytes : block.info.bytes = 0) (htotal : block.info.totalPieceBytes = 0) :
    ∃ info ret, getNextBlockByBytes block maxBlockBytes b = some (⟨info, block.prev⟩, ret) ∧
      info.pos = (if block.prev.status = statusInit then UInt32.ofNat clusterHeaderBytes
        else block.prev.pos + block.prev.bytes.toUInt32) ∧
      info.seq = (if block.prev.status = statusInit then firstBlockSeq else block.prev.seq + 1) ∧
      info.clusterSeq = block.prev.clusterSeq ∧ Cut rest info ret := by
  by_cases hinit : block.prev.status = statusInit
  · obtain ⟨p, -⟩ | ⟨_, h, -⟩ | ⟨_, _, _, _, _, h, -⟩ := hcursor
    · simp only [getNextBlockByBytes, if_pos hinit]
      exact getFirstBlock_cut ({ block with info := { block.info with
        clusterSeq := block.prev.clusterSeq } }) p hstop hw hbytes
    · exact absurd hinit h
    · exact absurd (h.symm.trans hinit) (by decide)
  · simp only [getNextBlockByBytes, if_neg hinit]
    exact getLaterBlock_cut ({ block with info := { block.info with
      clusterSeq := block.prev.clusterSeq } }) hstop hcursor hinit hw hbytes htotal

end P2PStream
