/-
# `P2PStream.Webm.Alike` — copies of a payload are cut alike

`GetNextBlockByBytes` goes by the ids and the lengths of the elements in its window and
by the record of the block before.  Two windows over elements of the same ids and
lengths make the same record, but for the cluster number, which is copied, and the layer,
which is not touched.

The Timecode lies in the first block with all its bytes: behind that, a copy whose
Timecode was rewritten shows the same bytes.
-/
import P2PStream.Webm.Segment
import P2PStream.Webm.Timecode
import Mathlib.Data.List.Forall2

namespace P2PStream

open Lib

/-- The fields of a record that say how its cluster was cut. -/
structure CutRecord where
  seq : UInt32
  pos : UInt32
  bytes : UInt16
  status : UInt8
  totalPieces : UInt8
  pieceSeq : UInt8
  totalPieceBytes : UInt16
  deriving DecidableEq, Repr

def BlockInfo.record (info : BlockInfo) : CutRecord :=
  ⟨info.seq, info.pos, info.bytes, info.status, info.totalPieces, info.pieceSeq,
    info.totalPieceBytes⟩

/-! ## Walks -/

/-- Elements that a walk takes for one another. -/
structure SameShape (e f : Element) : Prop where
  id : f.id = e.id
  length : f.bytes.length = e.bytes.length

theorem SameShape.refl (e : Element) : SameShape e e := ⟨rfl, rfl⟩

theorem sameShape_refl (es : List Element) : List.Forall₂ SameShape es es :=
  List.forall₂_same.mpr fun e _ => .refl e

theorem walk_alike {b c : Buf} {stop stop' : List UInt8} (hstop : IsStop stop)
    (hstop' : IsStop stop') {req : Nat} (hreq : req < 2 ^ 16) {es fs : List Element}
    (hsame : List.Forall₂ SameShape es fs)
    (hes : ∀ e ∈ es, e.id = timecodeId ∨ e.id = simpleblockId) :
    ∀ (total r fuel : Nat) (status : Int), total + r = req → r < fuel →
      Window (b.drop total) (payload es ++ stop) r →
      Window (c.drop total) (payload fs ++ stop') r →
      getChankByBytesLoop c req fuel total status =
        getChankByBytesLoop b req fuel total status := by
  induction hsame with
  | nil =>
      intro total r fuel status hr hfuel hb hc
      obtain ⟨fuel, rfl⟩ : ∃ k, fuel = k + 1 := ⟨fuel - 1, by omega⟩
      rw [payload_nil, List.nil_append] at hb hc
      by_cases hview : 4 ≤ r
      · have hholds : ∀ {d : Buf} {l : List UInt8}, Window (d.drop total) l r →
            (d.drop total).Holds (l.take 4) := by
          intro d l hd
          rw [← List.take_append_drop 4 l] at hd
          exact hd.holds (by rw [List.length_take]; omega)
        rw [walk_end fuel status hstop (hholds hb), walk_end fuel status hstop' (hholds hc)]
      · rw [walk_stop fuel status hr hreq (looksTooLong_stop hstop hb (by omega)),
          walk_stop fuel status hr hreq (looksTooLong_stop hstop' hc (by omega))]
  | @cons e f es fs hef hrest ih =>
      intro total r fuel status hr hfuel hb hc
      obtain ⟨fuel, rfl⟩ : ∃ k, fuel = k + 1 := ⟨fuel - 1, by omega⟩
      have hid := hes e List.mem_cons_self
      have hid' : f.id = timecodeId ∨ f.id = simpleblockId := by rwa [hef.id]
      rw [payload_cons, List.append_assoc] at hb hc
      by_cases hfit : e.bytes.length ≤ r
      · have hfit' : f.bytes.length ≤ r := by rwa [hef.length]
        have hpos : 0 < e.bytes.length := List.length_pos_iff.mpr e.bytes_ne_nil
        have hnext := hb.drop hfit
        have hnext' := hc.drop hfit'
        rw [Buf.drop_drop] at hnext hnext'
        rw [hef.length] at hnext'
        rw [walk_element fuel status hid hr hreq hb hfit,
          walk_element fuel status hid' hr hreq hc hfit', hef.length, hef.id]
        exact ih (fun x hx => hes x (List.mem_cons_of_mem _ hx)) _ (r - e.bytes.length) fuel _
          (by omega) (by omega) hnext hnext'
      · rw [walk_stop fuel status hr hreq
            (looksTooLong_element (not_end_of_counted hid) hb (by omega)),
          walk_stop fuel status hr hreq
            (looksTooLong_element (not_end_of_counted hid') hc (by rw [hef.length]; omega))]

/-! ## The branches -/

/-- Two calls answer with one status, and with records that are alike. -/
def AnswerAlike (x y : Option (Block × Int)) : Prop :=
  ∃ a b ret, x = some (a, ret) ∧ y = some (b, ret) ∧ b.info.record = a.info.record

section Branches

variable {x y : Block} {b c : Buf} {stop stop' : List UInt8}

/-- The walk over SimpleBlocks; and where it counts nothing, the length of the next element. -/
theorem getChankByBytes_alike (hstop : IsStop stop) (hstop' : IsStop stop') (req : UInt16)
    {es : List Element} (hsimple : ∀ e ∈ es, IsSimpleBlock e)
    (hb : Window b (payload es ++ stop) req.toNat) (hc : Window c (payload es ++ stop') req.toNat) :
    ∃ total status, getChankByBytes x b req = some ({ x with info := { x.info with
        bytes := UInt16.ofNat (x.info.bytes.toNat + total) } }, status) ∧
      getChankByBytes y c req = some ({ y with info := { y.info with
        bytes := UInt16.ofNat (y.info.bytes.toNat + total) } }, status) ∧
      (¬ 0 < status → 9 ≤ req.toNat → (getChank c).chankBytes = (getChank b).chankBytes) := by
  obtain ⟨done, rest, status, rfl, -, hloop, hend⟩ := walk_outcome hstop req hsimple hb
  have hloop' := walk_alike hstop hstop' req.toNat_lt (sameShape_refl (done ++ rest))
    (fun e he => .inr (hsimple e he)) 0 req.toNat (req.toNat + 2) 0 (Nat.zero_add _) (by omega)
    (by rwa [Buf.drop_zero]) (by rwa [Buf.drop_zero])
  rw [hloop] at hloop'
  refine ⟨_, status, getChankByBytes_eq _ req hloop, getChankByBytes_eq _ req hloop',
    fun hnot hreq => ?_⟩
  rcases hend with ⟨hpos, -⟩ | ⟨-, rfl, hblocked⟩
  · exact absurd hpos hnot
  · obtain ⟨-, hlt⟩ | ⟨e, es, rfl, -⟩ := hblocked
    · rw [payload_nil, List.length_nil] at hlt
      omega
    · have he := hsimple e List.mem_cons_self
      rw [List.nil_append, payload_cons, List.append_assoc] at hb hc
      rw [getChank_head hreq he hb, getChank_head hreq he hc]

theorem getSimpleBlocksOrPiece_alike (hstop : IsStop stop) (hstop' : IsStop stop')
    {es : List Element} (hsimple : ∀ e ∈ es, IsSimpleBlock e)
    (hb : Window b (payload es ++ stop) 1000) (hc : Window c (payload es ++ stop') 1000)
    (hinfo : y.info.record = x.info.record) :
    AnswerAlike (getSimpleBlocksOrPiece x maxBlockBytes b)
      (getSimpleBlocksOrPiece y maxBlockBytes c) := by
  obtain ⟨total, status, hx, hy, hchank⟩ :=
    getChankByBytes_alike (x := x) (y := y) hstop hstop' maxBlockBytes hsimple hb hc
  simp only [BlockInfo.record, CutRecord.mk.injEq] at hinfo
  obtain ⟨hseq, hpos, hbytes, -, -, -, hpiece⟩ := hinfo
  simp only [getSimpleBlocksOrPiece, hx, hy, Option.bind_eq_bind, Option.bind_some]
  by_cases hstatus : 0 < status
  · rw [if_pos hstatus, if_pos hstatus]
    refine ⟨_, _, _, rfl, rfl, ?_⟩
    simp only [assignBlockInfoBySB, BlockInfo.record, hseq, hpos, hbytes]
  · rw [if_neg hstatus, if_neg hstatus]
    refine ⟨_, _, _, rfl, rfl, ?_⟩
    have hsame := hchank hstatus (by decide)
    simp only [assignBlockInfoByPiece, BlockInfo.record, hseq, hpos, hbytes, hpiece, hsame]

theorem getLastPiece_alike (hstop : IsStop stop) (hstop' : IsStop stop') {part : List UInt8}
    {es : List Element} (hsimple : ∀ e ∈ es, IsSimpleBlock e)
    (hb : Window b (part ++ payload es ++ stop) 1000)
    (hc : Window c (part ++ payload es ++ stop') 1000)
    (hinfo : y.info.record = x.info.record) (hprev : y.prev.record = x.prev.record)
    (hlength : (x.prev.totalPieceBytes - maxBlockBytes * x.prev.pieceSeq.toUInt16).toNat =
      part.length) (hle : part.length ≤ 1000) :
    AnswerAlike (getLastPiece x maxBlockBytes b) (getLastPiece y maxBlockBytes c) := by
  simp only [BlockInfo.record, CutRecord.mk.injEq] at hinfo hprev
  obtain ⟨hseq, hpos, hbytes, -, -, -, hpiece⟩ := hinfo
  obtain ⟨-, -, -, -, hpieces, hpieceSeq, hpieceBytes⟩ := hprev
  have hleft : (maxBlockBytes - (x.prev.totalPieceBytes -
      maxBlockBytes * x.prev.pieceSeq.toUInt16)).toNat = 1000 - part.length := by
    have h1000 : maxBlockBytes.toNat = 1000 := rfl
    rw [UInt16.toNat_sub_of_le _ _ (UInt16.le_iff_toNat_le.mpr (by omega)), hlength, h1000]
  rw [List.append_assoc] at hb hc
  have hnext := hb.drop hle
  have hnext' := hc.drop hle
  rw [← hleft, ← hlength] at hnext hnext'
  simp only [getLastPiece, assignBlockInfoByPiece, hpieces, hpieceSeq, hpieceBytes]
  obtain ⟨total, status, hx, hy, -⟩ := getChankByBytes_alike
    (x := { x with info := { x.info with
      status := statusPiece
      bytes := x.prev.totalPieceBytes - maxBlockBytes * x.prev.pieceSeq.toUInt16
      totalPieces := x.prev.totalPieces
      pieceSeq := x.prev.pieceSeq + 1
      totalPieceBytes := x.prev.totalPieceBytes } })
    (y := { y with info := { y.info with
      status := statusPiece
      bytes := x.prev.totalPieceBytes - maxBlockBytes * x.prev.pieceSeq.toUInt16
      totalPieces := x.prev.totalPieces
      pieceSeq := x.prev.pieceSeq + 1
      totalPieceBytes := x.prev.totalPieceBytes } }) hstop hstop' _ hsimple hnext hnext'
  simp only [hx, hy, Option.bind_eq_bind, Option.bind_some]
  by_cases hstatus : 0 < status
  · rw [if_pos hstatus, if_pos hstatus]
    refine ⟨_, _, _, rfl, rfl, ?_⟩
    simp only [BlockInfo.record, hseq, hpos]
  · rw [if_neg hstatus, if_neg hstatus]
    refine ⟨_, _, _, rfl, rfl, ?_⟩
    simp only [BlockInfo.record, hseq, hpos]

/-- A block behind the first, whatever the first was cut from. -/
theorem getLaterBlock_alike (hstop : IsStop stop) (hstop' : IsStop stop') {rest : List UInt8}
    (hcursor : Cursor x.prev rest) (hinit : x.prev.status ≠ statusInit)
    (hb : Window b (rest ++ stop) 1000) (hc : Window c (rest ++ stop') 1000)
    (hsame : y.info.record = x.info.record) (hprev : y.prev.record = x.prev.record) :
    AnswerAlike (getLaterBlock x maxBlockBytes b) (getLaterBlock y maxBlockBytes c) := by
  have hfields := hprev
  simp only [BlockInfo.record, CutRecord.mk.injEq] at hfields
  obtain ⟨hseq, hpos, hbytes, hstatus, hpieces, hpieceSeq, hpieceBytes⟩ := hfields
  have hinfo : BlockInfo.record { y.info with
      seq := x.prev.seq + 1, pos := x.prev.pos + x.prev.bytes.toUInt32 } =
      BlockInfo.record { x.info with
        seq := x.prev.seq + 1, pos := x.prev.pos + x.prev.bytes.toUInt32 } := by
    simp only [BlockInfo.record, CutRecord.mk.injEq] at hsame
    simp only [BlockInfo.record, hsame]
  simp only [getLaterBlock, hseq, hpos, hbytes, hstatus, hpieces, hpieceSeq]
  obtain ⟨p, h⟩ | ⟨es, -, hdone, hsimple, -⟩ |
    ⟨part, es, z, n, j, hpiece, hn, hj, -, hjn, -, hlow, hhigh, hz, hpart, hsimple, -⟩ := hcursor
  · exact absurd h hinit
  · by_cases hp : x.prev.status = statusPiece
    · have hdone' := congrArg UInt8.toNat (hdone hp)
      simp only [if_pos hp, hdone', if_neg (Nat.succ_ne_self _).symm, if_true]
      exact getSimpleBlocksOrPiece_alike hstop hstop' hsimple hb hc hinfo
    · simp only [if_neg hp]
      exact getSimpleBlocksOrPiece_alike hstop hstop' hsimple hb hc hinfo
  · simp only [if_pos hpiece, hn, hj]
    by_cases hlast : n = j + 1
    · have hlength : (x.prev.totalPieceBytes - maxBlockBytes * x.prev.pieceSeq.toUInt16).toNat =
          part.length := by
        have h1000 : maxBlockBytes.toNat = 1000 := rfl
        rw [UInt16.toNat_sub, UInt16.toNat_mul, UInt8.toNat_toUInt16, h1000, hj, hz]
        omega
      simp only [if_pos hlast]
      exact getLastPiece_alike hstop hstop' hsimple hb hc hinfo hprev hlength (by omega)
    · simp only [if_neg hlast, if_neg (show ¬ n = j by omega)]
      refine ⟨_, _, _, rfl, rfl, ?_⟩
      simp only [assignBlockInfoByPiece, BlockInfo.record, hpieces, hpieceSeq, hpieceBytes]

end Branches

/-! ## The first block -/

/-- The payload with other bytes in its Timecode. -/
def ClusterPayload.withTimecode (p : ClusterPayload) (data : List UInt8)
    (h : data.length = p.timecode.data.length) : ClusterPayload :=
  { p with
    timecode := p.timecode.withData data h
    isTimecode := ⟨p.isTimecode.1, h.trans_le p.isTimecode.2⟩
    first_le := by
      rw [p.timecode.length_withData_bytes h]
      exact p.first_le }

section First

variable (p : ClusterPayload) {data : List UInt8} (h : data.length = p.timecode.data.length)
variable {x y : Block} {b c : Buf} {stop stop' : List UInt8}

theorem ClusterPayload.length_withTimecode :
    (p.withTimecode data h).bytes.length = p.bytes.length := by
  have htimecode := p.timecode.length_withData_bytes h
  simp only [ClusterPayload.bytes, payload_cons, List.length_append]
  exact congrArg (· + _) htimecode

theorem ClusterPayload.drop_withTimecode {k : Nat} (hk : p.timecode.bytes.length ≤ k) :
    (p.withTimecode data h).bytes.drop k = p.bytes.drop k := by
  have htimecode : (p.withTimecode data h).timecode.bytes.length = p.timecode.bytes.length :=
    p.timecode.length_withData_bytes h
  simp only [ClusterPayload.bytes, payload_cons]
  rw [List.drop_append, List.drop_append, htimecode, List.drop_eq_nil_of_le hk,
    List.drop_eq_nil_of_le (htimecode.trans_le hk)]
  rfl

/-- `ChangeTimecode` leaves such a payload, whatever the offsets are. -/
theorem changeTimecode_withTimecode {buf : Buf} {rest : List UInt8} (w : Webm)
    (hbuf : buf.Holds (p.timecode.bytes ++ rest)) : ∃ data hdata w' buf',
      changeTimecode buf w = .ok (w', buf') ∧
      buf'.Holds ((p.withTimecode data hdata).timecode.bytes ++ rest) := by
  have hchank := getChank_element p.timecode
    (Buf.holds_append.mp (Buf.holds_append.mp hbuf).1).1
  obtain ⟨w', modified, hlength, hchange⟩ := changeTimecode_put w
    (show (getChank buf).id = timecodeId by rw [hchank]; exact p.isTimecode.1)
  rw [hchank] at hlength hchange
  refine ⟨modified, hlength, w', _, hchange, ?_⟩
  have hbytes : (p.withTimecode modified hlength).timecode.bytes = p.timecode.header ++ modified :=
    p.timecode.withData_bytes hlength
  rw [hbytes]
  exact holds_put hbuf hlength

theorem getFirstBlock_alike (hstop : IsStop stop) (hstop' : IsStop stop')
    (hb : Window b (p.bytes ++ stop) 1000)
    (hc : Window c ((p.withTimecode data h).bytes ++ stop') 1000)
    (hx : x.info.bytes = 0) (hy : y.info.bytes = 0) :
    AnswerAlike (getFirstBlock x maxBlockBytes b) (getFirstBlock y maxBlockBytes c) := by
  obtain ⟨done, rest, status, hsplit, hle, hloop, hend⟩ := firstBlock_walk p hstop hb
  have hsame : List.Forall₂ SameShape (p.timecode :: p.blocks)
      ((p.withTimecode data h).timecode :: p.blocks) :=
    .cons ⟨rfl, p.timecode.length_withData_bytes h⟩ (sameShape_refl p.blocks)
  have hids : ∀ e ∈ p.timecode :: p.blocks, e.id = timecodeId ∨ e.id = simpleblockId := by
    intro e he
    rcases List.mem_cons.mp he with rfl | he
    · exact .inl p.isTimecode.1
    · exact .inr (p.areSimple e he)
  have hloop' := walk_alike hstop hstop' (show 1000 < 2 ^ 16 by decide) hsame hids 0 1000 1002 0
    (Nat.zero_add _) (by decide) (by rwa [Buf.drop_zero]) (by rwa [Buf.drop_zero])
  have hloopc := hloop'.trans hloop
  have hwalk := fun block : Block => getChankByBytes_eq block maxBlockBytes hloop
  have hwalk' := fun block : Block => getChankByBytes_eq block maxBlockBytes hloopc
  have hzero : status ≠ 0 := by
    obtain ⟨-, rfl⟩ | ⟨-, rfl⟩ := hend
    · decide
    · split <;> decide
  simp only [getFirstBlock, hwalk, hwalk', hx, hy, Option.bind_eq_bind, Option.bind_some,
    if_neg hzero]
  by_cases honly : status = onlyTimecode
  · -- an element follows that does not fit behind the Timecode
    have hk := p.isTimecode.length_le
    obtain ⟨e, es, hblocks⟩ : ∃ e es, p.blocks = e :: es := by
      obtain ⟨-, rfl⟩ | ⟨hblocked, hstatus⟩ := hend
      · cases honly
      · have hdone : done = [] := by
          by_contra hne
          rw [if_neg hne, honly] at hstatus
          cases hstatus
        subst hdone
        obtain ⟨-, hlt⟩ | ⟨e, es, rfl, -⟩ := hblocked
        · rw [payload_nil, List.length_nil] at hlt
          omega
        · exact ⟨e, es, hsplit⟩
    have he : IsSimpleBlock e := p.areSimple e (by rw [hblocks]; exact List.mem_cons_self)
    rw [ClusterPayload.bytes, payload_cons, List.append_assoc] at hb hc
    have hhead := getChank_timecode p.isTimecode hb
    have hhead' := getChank_timecode (p.withTimecode data h).isTimecode hc
    have htimecode : (p.withTimecode data h).timecode.bytes.length = p.timecode.bytes.length :=
      p.timecode.length_withData_bytes h
    rw [htimecode] at hhead'
    have hnext := hb.drop (by omega)
    have hnext' := hc.drop (by omega)
    rw [htimecode] at hnext'
    have hblocks' : (p.withTimecode data h).blocks = e :: es := hblocks
    rw [hblocks, payload_cons, List.append_assoc] at hnext
    rw [hblocks', payload_cons, List.append_assoc] at hnext'
    have hcount : (UInt16.ofNat p.timecode.bytes.length).toNat = p.timecode.bytes.length := by
      rw [UInt16.toNat_ofNat']
      omega
    have hchank := getChank_head (by omega) he hnext
    have hchank' := getChank_head (by omega) he hnext'
    rw [if_pos honly, if_pos honly]
    refine ⟨_, _, _, rfl, rfl, ?_⟩
    simp only [assignBlockInfoByPiece, BlockInfo.record, hhead, hhead', hcount, hchank, hchank']
  · rw [if_neg honly, if_neg honly]
    refine ⟨_, _, _, rfl, rfl, ?_⟩
    simp only [assignBlockInfoBySB, BlockInfo.record]

theorem getFirstBlock_timecode_le {x' : Block} {ret : Int} (hstop : IsStop stop)
    (hb : Window b (p.bytes ++ stop) 1000) (hx : x.info.bytes = 0)
    (hfirst : getFirstBlock x maxBlockBytes b = some (x', ret)) :
    p.timecode.bytes.length ≤ x'.info.bytes.toNat := by
  obtain ⟨done, rest, status, hsplit, hle, hloop, hend⟩ := firstBlock_walk p hstop hb
  have hk := p.isTimecode.length_le
  have hwalk := fun block : Block => getChankByBytes_eq block maxBlockBytes hloop
  have hzero : status ≠ 0 := by
    obtain ⟨-, rfl⟩ | ⟨-, rfl⟩ := hend
    · decide
    · split <;> decide
  have hnone : (0 : UInt16).toNat = 0 := rfl
  have h1000 : maxBlockBytes.toNat = 1000 := rfl
  simp only [getFirstBlock, hwalk, hx, Option.bind_eq_bind, Option.bind_some, if_neg hzero]
    at hfirst
  split at hfirst
  · rw [ClusterPayload.bytes, payload_cons, List.append_assoc] at hb
    have hcount : (UInt16.ofNat p.timecode.bytes.length).toNat = p.timecode.bytes.length := by
      rw [UInt16.toNat_ofNat']
      omega
    cases hfirst
    simp only [assignBlockInfoByPiece, getChank_timecode p.isTimecode hb]
    rw [UInt16.toNat_add, UInt16.toNat_sub_of_le _ _ (UInt16.le_iff_toNat_le.mpr (by omega)),
      hcount]
    omega
  · cases hfirst
    show _ ≤ (UInt16.ofNat _).toNat
    rw [hnone, UInt16.toNat_ofNat']
    omega

end First

/-! ## One call -/

section Calls

variable {x y : Block} {b c : Buf} {stop stop' : List UInt8}

theorem getNextBlockByBytes_first_alike (p : ClusterPayload) {data : List UInt8}
    (h : data.length = p.timecode.data.length) (hstop : IsStop stop) (hstop' : IsStop stop')
    (hb : Window b (p.bytes ++ stop) 1000)
    (hc : Window c ((p.withTimecode data h).bytes ++ stop') 1000)
    (hx : x.prev.status = statusInit) (hy : y.prev.status = statusInit)
    (hxinfo : x.info.bytes = 0) (hyinfo : y.info.bytes = 0) :
    AnswerAlike (getNextBlockByBytes x maxBlockBytes b)
      (getNextBlockByBytes y maxBlockBytes c) := by
  simp only [getNextBlockByBytes, if_pos hx, if_pos hy]
  exact getFirstBlock_alike p h hstop hstop' hb hc hxinfo hyinfo

theorem getNextBlockByBytes_timecode_le (p : ClusterPayload) {x' : Block} {ret : Int}
    (hstop : IsStop stop) (hb : Window b (p.bytes ++ stop) 1000) (hx : x.prev.status = statusInit)
    (hxinfo : x.info.bytes = 0) (hnext : getNextBlockByBytes x maxBlockBytes b = some (x', ret)) :
    p.timecode.bytes.length ≤ x'.info.bytes.toNat := by
  simp only [getNextBlockByBytes, if_pos hx] at hnext
  refine getFirstBlock_timecode_le p hstop hb ?_ hnext
  exact hxinfo

theorem getNextBlockByBytes_later_alike {rest : List UInt8} (hstop : IsStop stop)
    (hstop' : IsStop stop') (hcursor : Cursor x.prev rest) (hx : x.prev.status ≠ statusInit)
    (hb : Window b (rest ++ stop) 1000) (hc : Window c (rest ++ stop') 1000)
    (hinfo : y.info.record = x.info.record) (hprev : y.prev.record = x.prev.record) :
    AnswerAlike (getNextBlockByBytes x maxBlockBytes b)
      (getNextBlockByBytes y maxBlockBytes c) := by
  have hy : y.prev.status ≠ statusInit := by
    have hstatus : y.prev.status = x.prev.status := congrArg CutRecord.status hprev
    rwa [hstatus]
  simp only [getNextBlockByBytes, if_neg hx, if_neg hy]
  exact getLaterBlock_alike hstop hstop' hcursor hx hb hc hinfo hprev

end Calls

end P2PStream
