/-
# `P2PStream.Origin.ReadBlock` — `ReadBlock` and the end of the file (`p2p.c`)

Near the end of a file that grows, `ImportWebM` reads less than it is asked for.
`ReadBlock` does not look at `CURRENT_READ_BYTES`: it lets `GetNextBlockByBytes` cut
`MAX_BLOCK_BYTES` bytes of a local array that it has not cleared.  What lies behind the
bytes read is what an earlier call left there.

The block stays in what was read exactly when the elements that the walk steps over in
that array do, the id at which it stops does too, if it ends the cluster, and a whole
block was read where the segmenter cuts a piece.
-/
import P2PStream.Webm.Shown

namespace P2PStream

open Lib

/-! ## How the walk arrives -/

/-- The walk of `GetChankByBytes` comes to a position with a status. -/
inductive Arrives (buf : Buf) (req : Nat) : Int → Nat → Prop
  | start : Arrives buf req 0 0
  | next {status status' : Int} {p total : Nat} : Arrives buf req status p →
      chankRound buf req p = .goesOn status' total → Arrives buf req status' total

/-- It leaves the loop at a position, with a status. -/
inductive Leaves (buf : Buf) (req : Nat) : Int → Nat → Prop
  | ends {status : Int} {p : Nat} : Arrives buf req status p → chankRound buf req p = .ends →
      Leaves buf req clusterEnd p
  | leaves {status : Int} {p : Nat} : Arrives buf req status p →
      chankRound buf req p = .leaves → Leaves buf req status p

theorem Arrives.rounds {buf : Buf} {req p : Nat} {status : Int} (h : Arrives buf req status p) :
    ∃ rounds, ∀ fuel, getChankByBytesLoop buf req (rounds + fuel) 0 0 =
      getChankByBytesLoop buf req fuel p status := by
  induction h with
  | start => exact ⟨0, fun fuel => by rw [Nat.zero_add]⟩
  | next _ hround ih =>
      obtain ⟨rounds, hwalk⟩ := ih
      refine ⟨rounds + 1, fun fuel => ?_⟩
      rw [Nat.add_assoc, Nat.add_comm 1, hwalk, getChankByBytesLoop_succ, hround]

theorem leaves_of_loop {buf : Buf} {req fuel : Nat} :
    ∀ {total p : Nat} {status status' : Int}, Arrives buf req status total →
      getChankByBytesLoop buf req fuel total status = some (status', p) →
        Leaves buf req status' p := by
  induction fuel with
  | zero => intro _ _ _ _ _ h; cases h
  | succ fuel ih =>
      intro total p status status' harrives h
      rw [getChankByBytesLoop_succ] at h
      cases hround : chankRound buf req total with
      | ends =>
          rw [hround] at h
          cases h
          exact .ends harrives hround
      | leaves =>
          rw [hround] at h
          cases h
          exact .leaves harrives hround
      | goesOn st t =>
          rw [hround] at h
          exact ih (harrives.next hround) h

theorem leaves_iff_loop {buf : Buf} {req : UInt16} {p : Nat} {status : Int} :
    Leaves buf req.toNat status p ↔
      getChankByBytesLoop buf req.toNat (req.toNat + 2) 0 0 = some (status, p) := by
  refine ⟨fun h => ?_, leaves_of_loop .start⟩
  cases h with
  | ends harrives hround =>
      obtain ⟨rounds, hwalk⟩ := harrives.rounds
      exact (left_of_rounds (hwalk 1)).1 hround
  | leaves harrives hround =>
      obtain ⟨rounds, hwalk⟩ := harrives.rounds
      exact (left_of_rounds (hwalk 1)).2 hround

theorem Arrives.status_ne {buf : Buf} {req p : Nat} {status : Int} (h : Arrives buf req status p) :
    status ≠ clusterEnd := by
  cases h with
  | start => decide
  | next _ hround => exact status_of_chankRound hround

theorem Leaves.id {buf : Buf} {req p : Nat} (h : Leaves buf req clusterEnd p) :
    (getChank (buf.drop p)).id ∈ [clusterId, cueId] := by
  cases h with
  | ends _ hround =>
      simp only [chankRound] at hround
      split at hround
      · next hid => simpa using hid
      · repeat' split at hround
        all_goals cases hround
  | leaves harrives _ => exact absurd rfl harrives.status_ne

theorem Leaves.le {buf : Buf} {req : UInt16} {p : Nat} {status : Int}
    (h : Leaves buf req.toNat status p) : p ≤ req.toNat :=
  (walk_bounds (leaves_iff_loop.mp h) (Nat.zero_le _)).1

theorem Leaves.status {buf : Buf} {req : UInt16} {p : Nat} {status : Int}
    (h : Leaves buf req.toNat status p) : status = 0 ∧ p = 0 ∨ 0 < status :=
  (walk_bounds (leaves_iff_loop.mp h) (Nat.zero_le _)).2

/-- `GetChankByBytes` adds the position where the walk leaves the loop. -/
theorem getChankByBytes_eq_some_iff {block block' : Block} {buf : Buf} {req : UInt16} {ret : Int} :
    getChankByBytes block buf req = some (block', ret) ↔
      ∃ p, Leaves buf req.toNat ret p ∧ block' = { block with info := { block.info with
        bytes := UInt16.ofNat (block.info.bytes.toNat + p) } } := by
  simp only [getChankByBytes, Option.bind_eq_bind, Option.bind_eq_some_iff, Prod.exists,
    leaves_iff_loop]
  constructor
  · rintro ⟨status, p, hloop, h⟩
    cases h
    exact ⟨p, hloop, rfl⟩
  · rintro ⟨p, hloop, rfl⟩
    exact ⟨ret, p, hloop, rfl⟩

/-! ## What the segmenter takes -/

/-- Nothing is left of an element in pieces. -/
def PiecesDone (prev : BlockInfo) : Prop :=
  prev.status = statusPiece → prev.totalPieces = prev.pieceSeq

/-- The next block is the last piece of an element. -/
def LastIsNext (prev : BlockInfo) : Prop :=
  prev.status = statusPiece ∧ prev.totalPieces.toNat = prev.pieceSeq.toNat + 1

/-- The next block is a piece of an element, and not the last. -/
def OtherIsNext (prev : BlockInfo) : Prop := ¬ PiecesDone prev ∧ ¬ LastIsNext prev

/-- The first piece is cut: of an element that does not fit, or behind a Timecode alone. -/
def CutsPiece (prev : BlockInfo) (status : Int) : Prop :=
  status = 0 ∨ prev.status = statusInit ∧ status = onlyTimecode

section Taken

variable {block : Block} {buf : Buf}

theorem exists_leaves_of_walk {walked : Block} {req : UInt16} {status : Int}
    (h : getChankByBytes block buf req = some (walked, status)) :
    ∃ p, Leaves buf req.toNat status p := by
  obtain ⟨p, hleaves, -⟩ := getChankByBytes_eq_some_iff.mp h
  exact ⟨p, hleaves⟩

/-- A branch of the segmenter that walks, and takes what the walk tells it. -/
theorem taken_iff (block : Block) (Q : Nat → Int → Prop) (taken : Int → Nat → Nat)
    {result : Option (Block × Int)} {req : UInt16}
    (hwalk : ∀ ret p, Leaves buf req.toNat ret p →
      ∃ b, result = some (b, ret) ∧ b.info.bytes.toNat = taken ret p)
    (hnone : getChankByBytes block buf req = none → result = none) :
    (∀ b ret, result = some (b, ret) → Q b.info.bytes.toNat ret) ↔
      ∀ ret p, Leaves buf req.toNat ret p → Q (taken ret p) ret := by
  constructor
  · intro h ret p hleaves
    obtain ⟨b, hb, hcount⟩ := hwalk ret p hleaves
    exact hcount ▸ h b ret hb
  · intro h b ret hb
    obtain ⟨⟨walked, status⟩, hwalked⟩ := Option.ne_none_iff_exists'.mp fun hhangs => by
      rw [hnone hhangs] at hb
      cases hb
    obtain ⟨p, hleaves⟩ := exists_leaves_of_walk hwalked
    obtain ⟨b', hb', hcount⟩ := hwalk status p hleaves
    rw [hb] at hb'
    cases hb'
    rw [hcount]
    exact h _ p hleaves

theorem toNat_counted {block : Block} (hbytes : block.info.bytes = 0) {p : Nat} (hle : p ≤ 1000) :
    (UInt16.ofNat (block.info.bytes.toNat + p)).toNat = p := by
  rw [hbytes, show (0 : UInt16).toNat = 0 from rfl, UInt16.toNat_ofNat']
  omega

theorem getSimpleBlocksOrPiece_taken (Q : Nat → Int → Prop) (hbytes : block.info.bytes = 0) :
    (∀ b ret, getSimpleBlocksOrPiece block maxBlockBytes buf = some (b, ret) →
        Q b.info.bytes.toNat ret) ↔
      ∀ ret p, Leaves buf maxBlockBytes.toNat ret p → Q (if ret = 0 then 1000 else p) ret := by
  refine taken_iff block Q (fun ret p => if ret = 0 then 1000 else p)
    (fun ret p hleaves => ?_) fun hnone => ?_
  · have hwalk : getChankByBytes block buf maxBlockBytes = some (_, ret) :=
      getChankByBytes_eq_some_iff.mpr ⟨p, hleaves, rfl⟩
    have hcount := toNat_counted hbytes hleaves.le
    simp only [getSimpleBlocksOrPiece, hwalk, Option.bind_eq_bind, Option.bind_some]
    rcases hleaves.status with ⟨rfl, rfl⟩ | hpos
    · rw [if_neg (by decide), if_pos rfl]
      refine ⟨_, rfl, ?_⟩
      show (UInt16.ofNat (block.info.bytes.toNat + 0) + maxBlockBytes).toNat = 1000
      rw [UInt16.toNat_add, hcount]
      rfl
    · rw [if_pos hpos, if_neg (by omega)]
      exact ⟨_, rfl, hcount⟩
  · simp only [getSimpleBlocksOrPiece, hnone, Option.bind_eq_bind, Option.bind_none]

theorem getFirstBlock_taken (Q : Nat → Int → Prop) (hbytes : block.info.bytes = 0) :
    (∀ b ret, getFirstBlock block maxBlockBytes buf = some (b, ret) →
        Q b.info.bytes.toNat ret) ↔
      ∀ ret p, Leaves buf maxBlockBytes.toNat ret p →
        Q (if ret = 0 ∨ ret = onlyTimecode then 1000 else p) ret := by
  let first : Block := { block with info := { block.info with
    seq := 1, pos := UInt32.ofNat clusterHeaderBytes } }
  refine taken_iff first Q (fun ret p => if ret = 0 ∨ ret = onlyTimecode then 1000 else p)
    (fun ret p hleaves => ?_) fun hnone => ?_
  · have hwalk : getChankByBytes first buf maxBlockBytes = some (_, ret) :=
      getChankByBytes_eq_some_iff.mpr ⟨p, hleaves, rfl⟩
    have hcount : (UInt16.ofNat (first.info.bytes.toNat + p)).toNat = p :=
      toNat_counted hbytes hleaves.le
    simp only [getFirstBlock]
    rw [hwalk]
    simp only [Option.bind_eq_bind, Option.bind_some]
    rcases hleaves.status with ⟨rfl, rfl⟩ | hpos
    · rw [if_pos rfl, if_pos (.inl rfl)]
      refine ⟨_, rfl, ?_⟩
      show (UInt16.ofNat (first.info.bytes.toNat + 0) + maxBlockBytes).toNat = 1000
      rw [UInt16.toNat_add, hcount]
      rfl
    · have hne : ret ≠ 0 := by omega
      rw [if_neg hne]
      by_cases htimecode : ret = onlyTimecode
      · rw [if_pos htimecode, if_pos (.inr htimecode)]
        refine ⟨_, rfl, ?_⟩
        -- the Timecode's bytes and what is left of the block
        show (UInt16.ofNat (getChank buf).chankBytes +
          (maxBlockBytes - UInt16.ofNat (getChank buf).chankBytes)).toNat = 1000
        rw [UInt16.add_comm, UInt16.sub_add_cancel, toNat_maxBlockBytes]
      · rw [if_neg htimecode, if_neg (not_or.mpr ⟨hne, htimecode⟩)]
        exact ⟨_, rfl, hcount⟩
  · simp only [getFirstBlock]
    rw [hnone]
    rfl

theorem getLastPiece_taken (Q : Nat → Int → Prop) :
    (∀ b ret, getLastPiece block maxBlockBytes buf = some (b, ret) → Q b.info.bytes.toNat ret) ↔
      ∀ ret p, Leaves (buf.drop (lastPieceBytes block.prev).toNat)
        (maxBlockBytes - lastPieceBytes block.prev).toNat ret p →
          Q (((lastPieceBytes block.prev).toNat + p) % 2 ^ 16) ret := by
  let piece := assignBlockInfoByPiece block buf maxBlockBytes .last
  refine taken_iff piece Q (fun _ p => ((lastPieceBytes block.prev).toNat + p) % 2 ^ 16)
    (fun ret p hleaves => ?_) fun hnone => ?_
  · have hwalk : getChankByBytes piece (buf.drop (lastPieceBytes block.prev).toNat)
        (maxBlockBytes - lastPieceBytes block.prev) = some (_, ret) :=
      getChankByBytes_eq_some_iff.mpr ⟨p, hleaves, rfl⟩
    have hpiece : piece.info.bytes = lastPieceBytes block.prev := rfl
    have hcount : (UInt16.ofNat (piece.info.bytes.toNat + p)).toNat =
        ((lastPieceBytes block.prev).toNat + p) % 2 ^ 16 := by
      rw [hpiece, UInt16.toNat_ofNat']
    simp only [getLastPiece]
    rw [show (assignBlockInfoByPiece block buf maxBlockBytes .last).info.bytes =
      lastPieceBytes block.prev from rfl, hwalk]
    simp only [Option.bind_eq_bind, Option.bind_some]
    split <;> exact ⟨_, rfl, hcount⟩
  · simp only [getLastPiece]
    rw [show (assignBlockInfoByPiece block buf maxBlockBytes .last).info.bytes =
      lastPieceBytes block.prev from rfl, hnone]
    rfl

end Taken

/-! ## Staying in what was read -/

/-- The bytes that `ImportWebM` reads for `ReadBlock`. -/
def readByReadBlock (w : Webm) : List UInt8 :=
  w.readBytes (clampBytes maxBlockBytes.toNat (w.totalFileBytes - w.currentFposR))

/-- The local array of `ReadBlock` behind `ImportWebM`; `stale` is what it held. -/
def readBlockData (stale : Buf) (w : Webm) : Buf := stale.overlay (readByReadBlock w)

/-- A Cluster or Cues id stands somewhere in the bytes. -/
def ShowsEnd (l : List UInt8) : Prop := toBe 4 clusterId <:+: l ∨ toBe 4 cueId <:+: l

/-- Of the array, the id at `q` lies in the bytes that were read, or it does not and the four bytes
of another one do. -/
def StopsInRead (w : Webm) (buf : Buf) (q : Nat) : Prop :=
  idEnd buf q ≤ (readByReadBlock w).length ∨
    ∃ k, k + 4 ≤ (readByReadBlock w).length ∧
      (buf.drop k).take 4 ∈ [toBe 4 clusterId, toBe 4 cueId]

/-- There is room for a block of `count` bytes: they were read, and lie in front of
`TOTAL_FILE_BYTES`. -/
def Room (w : Webm) (count : Nat) : Prop :=
  count ≤ (readByReadBlock w).length ∧ w.fp + count ≤ w.totalFileBytes

/-- A block of `count` bytes and its status are accounted for by what was read. -/
def Accounted (w : Webm) (count : Nat) (status : Int) : Prop :=
  Room w count ∧ (status = clusterEnd → ShowsEnd (readByReadBlock w))

/-- What `ReadBlock` should leave: a block inside `CURRENT_READ_BYTES`, the end of the cluster only
where an id was read, and a reading position that `SeekForNextBlock` keeps in the file. -/
structure ReadsInside (w w' : Webm) (block : Block) (status : Int) : Prop where
  bytes : block.info.bytes.toNat ≤ w'.currentReadBytes
  ends : status = clusterEnd → ShowsEnd (readByReadBlock w)
  position : (seekForNextBlock block w').currentFposR ≤ w'.totalFileBytes

/-- The elements of the array and the record of the block before ask for no more than was read:
1000 bytes for a piece that is not the last, or is the first; and else the elements that the walk
steps over, behind the last piece if that is next, and the Cluster or Cues id at which it stops. -/
structure StaysInRead (w : Webm) (buf : Buf) (prev : BlockInfo) : Prop where
  other : OtherIsNext prev → Room w maxBlockBytes.toNat
  last : LastIsNext prev → ∀ status p,
    Leaves (buf.drop (lastPieceBytes prev).toNat) (maxBlockBytes - lastPieceBytes prev).toNat
      status p → Room w (((lastPieceBytes prev).toNat + p) % 2 ^ 16) ∧
        (status = clusterEnd → StopsInRead w buf ((lastPieceBytes prev).toNat + p))
  first : PiecesDone prev → ∀ status p, Leaves buf maxBlockBytes.toNat status p →
    CutsPiece prev status → Room w maxBlockBytes.toNat
  whole : PiecesDone prev → ∀ status p, Leaves buf maxBlockBytes.toNat status p →
    ¬ CutsPiece prev status → Room w p ∧ (status = clusterEnd → StopsInRead w buf p)

section Staying

variable {w : Webm} {buf : Buf} {block : Block}

theorem not_clusterEnd_of_cutsPiece {prev : BlockInfo} {status : Int} (h : CutsPiece prev status) :
    status ≠ clusterEnd := by
  rcases h with rfl | ⟨-, rfl⟩ <;> decide

theorem infix_iff {l m : List UInt8} (hbuf : buf.Holds m) :
    l <:+: m ↔ ∃ k, k + l.length ≤ m.length ∧ (buf.drop k).take l.length = l := by
  constructor
  · rintro ⟨front, behind, rfl⟩
    refine ⟨front.length, by simp only [List.length_append]; omega, ?_⟩
    exact Buf.holds_take.mp (Buf.holds_append.mp (Buf.holds_append.mp hbuf).1).2
  · rintro ⟨k, hk, hl⟩
    have htail := hbuf.drop k (by omega)
    rw [htail.take_eq (by rw [List.length_drop]; omega)] at hl
    rw [← hl]
    exact (List.take_prefix _ _).isInfix.trans (List.drop_suffix _ _).isInfix

theorem showsEnd_iff_at (hbuf : buf.Holds (readByReadBlock w)) :
    ShowsEnd (readByReadBlock w) ↔ ∃ k, k + 4 ≤ (readByReadBlock w).length ∧
      (buf.drop k).take 4 ∈ [toBe 4 clusterId, toBe 4 cueId] := by
  simp only [ShowsEnd, infix_iff hbuf, length_toBe, List.mem_cons, List.not_mem_nil, or_false,
    and_or_left, exists_or]

/-- Where the walk ends the cluster, an id was read exactly when this one was, or another. -/
theorem showsEnd_iff_stopsInRead (hbuf : buf.Holds (readByReadBlock w)) {k req p : Nat}
    (h : Leaves (buf.drop k) req clusterEnd p) :
    ShowsEnd (readByReadBlock w) ↔ StopsInRead w buf (k + p) := by
  rw [showsEnd_iff_at hbuf]
  refine ⟨.inr, fun hstops => hstops.elim (fun hin => ?_) id⟩
  -- the last four bytes of the id at which the walk stops
  have hid := h.id
  rw [Buf.drop_drop, getChank_id] at hid
  have hbounds : ∀ x ∈ [clusterId, cueId], 2 ^ 24 ≤ x ∧ x < 2 ^ 32 := by decide
  obtain ⟨hlow, hhigh⟩ := hbounds _ hid
  have hlength : 4 ≤ markerLength (buf (k + p)) := by
    by_contra hshort
    have hlt := getEBMLID_lt (buf.drop (k + p))
    have hle : (256 : Nat) ^ markerLength (buf (k + p)) ≤ 256 ^ 3 :=
      Nat.pow_le_pow_right (by decide) (by omega)
    exact absurd (hlt.trans_le hle) (Nat.not_lt_of_le hlow)
  have hspelled := (getEBMLID_eq_iff (buf.drop (k + p)) hlength hhigh).mp rfl
  rw [Buf.drop_drop] at hspelled
  refine ⟨k + p + (markerLength (buf (k + p)) - 4), ?_, ?_⟩
  · rw [idEnd] at hin
    omega
  · show (buf.drop (k + p + (markerLength ((buf.drop (k + p)) 0) - 4))).take 4 ∈ _
    rw [hspelled]
    simp only [List.mem_cons, List.not_mem_nil, or_false] at hid ⊢
    exact hid.imp (congrArg _) (congrArg _)

theorem accounted_iff_room {count : Nat} {status : Int} (h : status ≠ clusterEnd) :
    Accounted w count status ↔ Room w count :=
  and_iff_left fun hend => absurd hend h

theorem accounted_iff_stops (hbuf : buf.Holds (readByReadBlock w)) {k req p count : Nat}
    {status : Int} (h : Leaves (buf.drop k) req status p) :
    Accounted w count status ↔
      Room w count ∧ (status = clusterEnd → StopsInRead w buf (k + p)) :=
  and_congr_right fun _ => forall_congr' fun hend =>
    showsEnd_iff_stopsInRead hbuf (hend ▸ h)

theorem walked_iff (hbuf : buf.Holds (readByReadBlock w)) {prev : BlockInfo}
    (hdone : PiecesDone prev) (hlast : ¬ LastIsNext prev) (cuts : Int → Prop) [DecidablePred cuts]
    (hcuts : ∀ status, cuts status ↔ CutsPiece prev status) :
    (∀ status p, Leaves buf maxBlockBytes.toNat status p →
        Accounted w (if cuts status then 1000 else p) status) ↔ StaysInRead w buf prev := by
  have hstops : ∀ {status p}, Leaves buf maxBlockBytes.toNat status p →
      (Accounted w p status ↔ Room w p ∧ (status = clusterEnd → StopsInRead w buf p)) := by
    intro status p hleaves
    rw [← Buf.drop_zero buf] at hleaves
    have hiff : Accounted w p status ↔ _ := accounted_iff_stops hbuf hleaves
    rwa [Nat.zero_add] at hiff
  constructor
  · intro h
    refine ⟨fun hother => absurd hdone hother.1, fun hnext => absurd hnext hlast,
      fun _ status p hleaves hcut => ?_, fun _ status p hleaves hwhole => ?_⟩
    · have haccounted := h status p hleaves
      rw [if_pos ((hcuts status).mpr hcut)] at haccounted
      exact haccounted.1
    · have haccounted := h status p hleaves
      rw [if_neg fun hcut => hwhole ((hcuts status).mp hcut)] at haccounted
      exact (hstops hleaves).mp haccounted
  · intro h status p hleaves
    split
    · next hcut =>
      have hpiece := (hcuts status).mp hcut
      rw [accounted_iff_room (not_clusterEnd_of_cutsPiece hpiece)]
      exact h.first hdone status p hleaves hpiece
    · next hcut =>
      exact (hstops hleaves).mpr
        (h.whole hdone status p hleaves fun hpiece => hcut ((hcuts status).mpr hpiece))

theorem getNextBlockByBytes_accounted_iff (hbuf : buf.Holds (readByReadBlock w))
    (hbytes : block.info.bytes = 0) :
    (∀ b ret, getNextBlockByBytes block maxBlockBytes buf = some (b, ret) →
        Accounted w b.info.bytes.toNat ret) ↔ StaysInRead w buf block.prev := by
  unfold getNextBlockByBytes
  by_cases hinit : block.prev.status = statusInit
  · have hpiece : block.prev.status ≠ statusPiece := by
      rw [hinit]
      decide
    simp only [if_pos hinit]
    rw [getFirstBlock_taken (Accounted w) (by exact hbytes)]
    exact walked_iff hbuf (fun h => absurd h hpiece) (fun h => hpiece h.1) _ fun status => by
      simp only [CutsPiece, hinit, true_and]
  simp only [if_neg hinit, getLaterBlock]
  have hcuts : ∀ status, status = 0 ↔ CutsPiece block.prev status := fun status => by
    simp only [CutsPiece, hinit, false_and, or_false]
  by_cases hpiece : block.prev.status = statusPiece
  · simp only [if_pos hpiece]
    by_cases hlast : block.prev.totalPieces.toNat = block.prev.pieceSeq.toNat + 1
    · have hdone : ¬ PiecesDone block.prev := fun h => by
        have hsame := congrArg UInt8.toNat (h hpiece)
        omega
      have hnext : LastIsNext block.prev := ⟨hpiece, hlast⟩
      simp only [if_pos hlast]
      rw [getLastPiece_taken (Accounted w)]
      constructor
      · exact fun h => ⟨fun hother => absurd hnext hother.2,
          fun _ status p hleaves => (accounted_iff_stops hbuf hleaves).mp (h status p hleaves),
          fun h => absurd h hdone, fun h => absurd h hdone⟩
      · exact fun h status p hleaves =>
          (accounted_iff_stops hbuf hleaves).mpr (h.last hnext status p hleaves)
    · have hnext : ¬ LastIsNext block.prev := fun h => hlast h.2
      simp only [if_neg hlast]
      by_cases hsame : block.prev.totalPieces.toNat = block.prev.pieceSeq.toNat
      · simp only [if_pos hsame]
        rw [getSimpleBlocksOrPiece_taken (Accounted w) (by exact hbytes)]
        exact walked_iff hbuf (fun _ => UInt8.toNat_inj.mp hsame) hnext _ hcuts
      · have hdone : ¬ PiecesDone block.prev := fun h => hsame (congrArg UInt8.toNat (h hpiece))
        simp only [if_neg hsame]
        constructor
        · intro h
          refine ⟨fun _ => (h _ _ rfl).1, fun h => absurd h hnext, fun h => absurd h hdone,
            fun h => absurd h hdone⟩
        · intro h b ret hb
          cases hb
          exact (accounted_iff_room (by decide)).mpr (h.other ⟨hdone, hnext⟩)
  · have hnext : ¬ LastIsNext block.prev := fun h => hpiece h.1
    simp only [if_neg hpiece]
    rw [getSimpleBlocksOrPiece_taken (Accounted w) (by exact hbytes)]
    exact walked_iff hbuf (fun h => absurd h hpiece) hnext _ hcuts

end Staying

/-- Seeking for the next block puts the reading position behind the block. -/
theorem readsInside_iff_accounted {w : Webm} {b : Block} {ret : Int} (total : UInt64) :
    ReadsInside w { w with
        fp := w.fp + (readByReadBlock w).length
        currentReadBytes := (readByReadBlock w).length
        totalBlockNum := total } b ret ↔ Accounted w b.info.bytes.toNat ret := by
  have hposition : w.fp + ((readByReadBlock w).length : Int) +
      ((b.info.bytes.toNat : Int) - ((readByReadBlock w).length : Int)) =
        w.fp + (b.info.bytes.toNat : Int) := by omega
  constructor
  · rintro ⟨hbytes, hends, hseek⟩
    refine ⟨⟨hbytes, ?_⟩, hends⟩
    rw [← hposition]
    exact hseek
  · rintro ⟨⟨hbytes, hseek⟩, hends⟩
    refine ⟨hbytes, hends, ?_⟩
    rw [← hposition] at hseek
    exact hseek

/-- `ReadBlock` on a cleared block, for every file, reading position and previous contents of its
array: the block lies in what was read, ends its cluster only at an id that was read, and leaves
the reading position in the file, exactly when the array asks for no more than was read. -/
theorem readBlock_inside_iff {stale : Buf} {block : Block} {w : Webm}
    (hbytes : block.info.bytes = 0) :
    (∀ w' b ret, readBlock stale block w = some (w', b, ret) → ReadsInside w w' b ret) ↔
      StaysInRead w (readBlockData stale w) block.prev := by
  have hbuf : (readBlockData stale w).Holds (readByReadBlock w) := Buf.overlay_holds _ _
  rw [← getNextBlockByBytes_accounted_iff hbuf hbytes]
  have hread : readBlock stale block w =
      (getNextBlockByBytes block maxBlockBytes (readBlockData stale w)).map fun r => ({ w with
        fp := w.fp + (readByReadBlock w).length
        currentReadBytes := (readByReadBlock w).length
        totalBlockNum := w.totalBlockNum + 1 }, r.1, r.2) := by
    show (getNextBlockByBytes block maxBlockBytes (readBlockData stale w)).bind _ = _
    cases getNextBlockByBytes block maxBlockBytes (readBlockData stale w) <;> rfl
  simp only [hread, Option.map_eq_some_iff, Prod.exists, Prod.mk.injEq]
  constructor
  · intro h b ret hnext
    exact (readsInside_iff_accounted _).mp (h _ b ret ⟨b, ret, hnext, rfl, rfl, rfl⟩)
  · rintro h _ _ _ ⟨b, ret, hnext, rfl, rfl, rfl⟩
    exact (readsInside_iff_accounted _).mpr (h b ret hnext)

/-! ## Caught up with the encoder -/

/-- A Cluster of 25 bytes, a Timecode and a SimpleBlock in it, that is the last in the file so far;
the reader is behind its header. -/
def caughtUp : Webm := { Webm.start ([0x1f, 0x43, 0xb6, 0x75, 0x01, 0, 0, 0, 0, 0, 0, 0x0d] ++
    ([0xe7, 0x81, 0, 0xa3, 0x88] ++ List.replicate 8 0)) with
  fp := 12, currentFposR := 12, totalFileBytes := 25 }

/-- The theorem at that reader, for its first block. -/
theorem readBlock_inside_iff_caughtUp :
    (∀ w' b ret, readBlock Buf.zero initBlock caughtUp = some (w', b, ret) →
        ReadsInside caughtUp w' b ret) ↔
      StaysInRead caughtUp (readBlockData Buf.zero caughtUp) initBlock.prev :=
  readBlock_inside_iff (by decide)

/-- An earlier read left a SimpleBlock where this one ends. -/
def staleBlock : Buf := Buf.zero.put 13 [0xa3, 0x43, 0xd8]

/-- An earlier read left a Cluster id there. -/
def staleCluster : Buf := Buf.zero.put 13 (toBe 4 clusterId)

/-- Thirteen bytes are read.  The block has 1000 bytes and the reader leaves the file; or the
cluster ends at an id that nobody wrote. -/
theorem caughtUp_past :
    (∃ w b ret, readBlock staleBlock initBlock caughtUp = some (w, b, ret) ∧
      b.info.bytes = 1000 ∧ w.currentReadBytes = 13 ∧
      (seekForNextBlock b w).currentFposR = 1012 ∧ w.totalFileBytes = 25 ∧
      ¬ ReadsInside caughtUp w b ret) ∧
    ∃ w b, readBlock staleCluster initBlock caughtUp = some (w, b, clusterEnd) ∧
      ¬ ShowsEnd (readByReadBlock caughtUp) ∧ ¬ ReadsInside caughtUp w b clusterEnd := by
  constructor
  · refine ⟨_, _, _, rfl, ?_, ?_, ?_, ?_, fun h => ?_⟩
    · decide +kernel
    · decide +kernel
    · decide +kernel
    · decide +kernel
    · have hbytes := h.bytes
      revert hbytes
      decide +kernel
  · have hends : ¬ ShowsEnd (readByReadBlock caughtUp) := by
      unfold ShowsEnd
      decide +kernel
    have hread : ∃ w b, readBlock staleCluster initBlock caughtUp = some (w, b, clusterEnd) := by
      refine ⟨_, _, rfl⟩
    obtain ⟨w, b, hread⟩ := hread
    exact ⟨w, b, hread, hends, fun h => hends (h.ends rfl)⟩

end P2PStream
