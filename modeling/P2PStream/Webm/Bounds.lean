/-
# `P2PStream.Webm.Bounds` — how much a block takes

Whatever lies in the window, a block has at most `MAX_BLOCK_BYTES` bytes, short of the
last piece of an element, which is counted from the record of the piece before.  And
when all that is left of a payload is in view, with the id behind it, the block is all
of it, whatever lies behind the id.
-/
import P2PStream.Webm.Segment

namespace P2PStream

open Lib

/-! ## Any window -/

/-- A walk stays in what was asked for, and has counted nothing when its status is not positive. -/
theorem walk_bounds {b : Buf} {req : Nat} :
    ∀ {fuel total : Nat} {status : Int} {status' : Int} {total' : Nat},
      getChankByBytesLoop b req fuel total status = some (status', total') → total ≤ req →
        total' ≤ req ∧ ((status' = status ∧ total' = total) ∨ 0 < status') := by
  intro fuel
  induction fuel with
  | zero => intro _ _ _ _ h; cases h
  | succ fuel ih =>
      intro total status status' total' h hle
      rw [getChankByBytesLoop] at h
      split at h
      · cases h
        exact ⟨hle, .inr (by decide)⟩
      · split at h
        · cases h
          exact ⟨hle, .inr (by decide)⟩
        · split at h
          · cases h
            exact ⟨hle, .inl ⟨rfl, rfl⟩⟩
          · next hfits =>
            split at h
            · obtain ⟨hle', hstatus⟩ := ih h (Nat.le_of_not_lt hfits)
              exact ⟨hle', .inr (hstatus.elim (fun hs => hs.1 ▸ (by decide)) id)⟩
            · split at h
              · obtain ⟨hle', hstatus⟩ := ih h (Nat.le_of_not_lt hfits)
                exact ⟨hle', .inr (hstatus.elim (fun hs => hs.1 ▸ (by decide)) id)⟩
              · cases h
                exact ⟨hle, .inl ⟨rfl, rfl⟩⟩

theorem getChankByBytes_bounds {block block' : Block} {b : Buf} {req : UInt16} {ret : Int}
    (h : getChankByBytes block b req = some (block', ret)) :
    ∃ total, total ≤ req.toNat ∧ (ret = 0 ∧ total = 0 ∨ 0 < ret) ∧
      block' = { block with info := { block.info with
        bytes := UInt16.ofNat (block.info.bytes.toNat + total) } } := by
  simp only [getChankByBytes, Option.bind_eq_bind, Option.bind_eq_some_iff, Prod.exists] at h
  obtain ⟨status, total, hloop, h⟩ := h
  cases h
  obtain ⟨hle, hstatus⟩ := walk_bounds hloop (Nat.zero_le _)
  exact ⟨total, hle, hstatus, rfl⟩

/-- What is left of the element in pieces, by the record of the piece before. -/
def lastPieceBytes (prev : BlockInfo) : UInt16 :=
  prev.totalPieceBytes - maxBlockBytes * prev.pieceSeq.toUInt16

/-- Where the next block is the last piece of an element, it fits a block. -/
def LastPieceFits (prev : BlockInfo) : Prop :=
  prev.status = statusPiece → prev.totalPieces.toNat = prev.pieceSeq.toNat + 1 →
    (lastPieceBytes prev).toNat ≤ 1000

section Windows

variable {block block' : Block} {b : Buf} {ret : Int}

theorem toNat_maxBlockBytes : maxBlockBytes.toNat = 1000 := rfl

theorem getSimpleBlocksOrPiece_bytes_le (hbytes : block.info.bytes = 0)
    (h : getSimpleBlocksOrPiece block maxBlockBytes b = some (block', ret)) :
    block'.info.bytes.toNat ≤ 1000 := by
  simp only [getSimpleBlocksOrPiece, Option.bind_eq_bind, Option.bind_eq_some_iff,
    Prod.exists] at h
  obtain ⟨walked, status, hwalk, h⟩ := h
  obtain ⟨total, hle, hstatus, rfl⟩ := getChankByBytes_bounds hwalk
  rw [toNat_maxBlockBytes] at hle
  have hcount : (UInt16.ofNat (block.info.bytes.toNat + total)).toNat = total := by
    rw [hbytes, show (0 : UInt16).toNat = 0 from rfl, UInt16.toNat_ofNat']
    omega
  split at h
  · cases h
    show (UInt16.ofNat (block.info.bytes.toNat + total)).toNat ≤ 1000
    omega
  · next hzero =>
    cases h
    obtain ⟨-, rfl⟩ := hstatus.resolve_right hzero
    show (UInt16.ofNat (block.info.bytes.toNat + 0) + maxBlockBytes).toNat ≤ 1000
    rw [UInt16.toNat_add, hcount, toNat_maxBlockBytes]

theorem getFirstBlock_bytes_le (hbytes : block.info.bytes = 0)
    (h : getFirstBlock block maxBlockBytes b = some (block', ret)) :
    block'.info.bytes.toNat ≤ 1000 := by
  simp only [getFirstBlock, Option.bind_eq_bind, Option.bind_eq_some_iff, Prod.exists] at h
  obtain ⟨walked, status, hwalk, h⟩ := h
  obtain ⟨total, hle, hstatus, rfl⟩ := getChankByBytes_bounds hwalk
  rw [toNat_maxBlockBytes] at hle
  have hcount : (UInt16.ofNat (block.info.bytes.toNat + total)).toNat = total := by
    rw [hbytes, show (0 : UInt16).toNat = 0 from rfl, UInt16.toNat_ofNat']
    omega
  split at h
  · next hzero =>
    cases h
    obtain ⟨-, rfl⟩ := hstatus.resolve_right (by omega)
    show (UInt16.ofNat (block.info.bytes.toNat + 0) + maxBlockBytes).toNat ≤ 1000
    rw [UInt16.toNat_add, hcount, toNat_maxBlockBytes]
  · split at h
    · cases h
      -- the Timecode's bytes and what is left of the block
      show (UInt16.ofNat (getChank b).chankBytes +
        (maxBlockBytes - UInt16.ofNat (getChank b).chankBytes)).toNat ≤ 1000
      rw [UInt16.add_comm, UInt16.sub_add_cancel, toNat_maxBlockBytes]
    · cases h
      show (UInt16.ofNat (block.info.bytes.toNat + total)).toNat ≤ 1000
      omega

theorem getLastPiece_bytes_le (hfits : (lastPieceBytes block.prev).toNat ≤ 1000)
    (h : getLastPiece block maxBlockBytes b = some (block', ret)) :
    block'.info.bytes.toNat ≤ 1000 := by
  simp only [getLastPiece, Option.bind_eq_bind, Option.bind_eq_some_iff, Prod.exists] at h
  obtain ⟨walked, status, hwalk, h⟩ := h
  obtain ⟨total, hle, -, rfl⟩ := getChankByBytes_bounds hwalk
  have hpiece : (assignBlockInfoByPiece block b maxBlockBytes .last).info.bytes =
      lastPieceBytes block.prev := rfl
  rw [hpiece] at hle h
  rw [UInt16.toNat_sub_of_le _ _ (UInt16.le_iff_toNat_le.mpr hfits), toNat_maxBlockBytes] at hle
  have hcount : (UInt16.ofNat ((lastPieceBytes block.prev).toNat + total)).toNat ≤ 1000 := by
    rw [UInt16.toNat_ofNat']
    omega
  split at h <;> cases h <;> exact hcount

theorem getNextBlockByBytes_bytes_le (hbytes : block.info.bytes = 0)
    (hfits : LastPieceFits block.prev)
    (h : getNextBlockByBytes block maxBlockBytes b = some (block', ret)) :
    block'.info.bytes.toNat ≤ 1000 := by
  simp only [getNextBlockByBytes] at h
  split at h
  · refine getFirstBlock_bytes_le ?_ h
    exact hbytes
  · simp only [getLaterBlock] at h
    split at h
    · next hpiece =>
      split at h
      · next hlast =>
        refine getLastPiece_bytes_le ?_ h
        exact hfits hpiece hlast
      · split at h
        · refine getSimpleBlocksOrPiece_bytes_le ?_ h
          exact hbytes
        · cases h
          exact le_refl 1000
    · refine getSimpleBlocksOrPiece_bytes_le ?_ h
      exact hbytes

end Windows

/-! ## All that is left in view -/

/-- The walk over elements that are all in view, to the id behind them. -/
theorem walk_inView {b : Buf} {stop : List UInt8} (hstop : IsStop stop) {req : Nat}
    (hreq : req < 2 ^ 16) {es : List Element}
    (hes : ∀ e ∈ es, e.id = timecodeId ∨ e.id = simpleblockId) :
    ∀ (total fuel : Nat) (status : Int), req < total + fuel →
      total + (payload es).length ≤ req → (b.drop total).Holds (payload es ++ stop.take 4) →
        getChankByBytesLoop b req fuel total status
          = some (clusterEnd, total + (payload es).length) := by
  induction es with
  | nil =>
      intro total fuel status hfuel hle hview
      rw [payload_nil, List.length_nil] at hle
      obtain ⟨fuel, rfl⟩ : ∃ k, fuel = k + 1 := ⟨fuel - 1, by omega⟩
      exact walk_end fuel status hstop hview
  | cons e es ih =>
      intro total fuel status hfuel hle hview
      obtain ⟨fuel, rfl⟩ : ∃ k, fuel = k + 1 := ⟨fuel - 1, by omega⟩
      have hpos : 0 < e.bytes.length := List.length_pos_iff.mpr e.bytes_ne_nil
      rw [payload_cons, List.append_assoc] at hview
      rw [payload_cons, List.length_append] at hle ⊢
      obtain ⟨hbytes, hrest⟩ := Buf.holds_append.mp hview
      rw [Buf.drop_drop] at hrest
      rw [walk_header fuel status (hes e List.mem_cons_self) hreq (Buf.holds_append.mp hbytes).1
        (by omega), ih (fun f hf => hes f (List.mem_cons_of_mem _ hf)) _ fuel _ (by omega)
        (by omega) hrest, Nat.add_assoc]

section View

variable (block : Block) {b : Buf} {stop : List UInt8}

theorem getChankByBytes_inView (hstop : IsStop stop) {es : List Element}
    (hes : ∀ e ∈ es, e.id = timecodeId ∨ e.id = simpleblockId) (req : UInt16)
    (hle : (payload es).length ≤ req.toNat) (hview : b.Holds (payload es ++ stop.take 4)) :
    getChankByBytes block b req = some ({ block with info := { block.info with
      bytes := UInt16.ofNat (block.info.bytes.toNat + (payload es).length) } }, clusterEnd) := by
  have hwalk := walk_inView hstop req.toNat_lt hes 0 (req.toNat + 2) 0 (by omega)
    (by rwa [Nat.zero_add]) (by rwa [Buf.drop_zero])
  rw [Nat.zero_add] at hwalk
  exact getChankByBytes_eq block req hwalk

/-- What is left of a payload, when all of it is in view, is one block and ends the cluster. -/
theorem getNextBlockByBytes_inView {rest : List UInt8} (hstop : IsStop stop)
    (hcursor : Cursor block.prev rest) (hbytes : block.info.bytes = 0)
    (hle : rest.length + 4 ≤ 1000) (hview : b.Holds (rest ++ stop.take 4)) :
    ∃ info, getNextBlockByBytes block maxBlockBytes b = some (⟨info, block.prev⟩, clusterEnd) ∧
      info.bytes.toNat = rest.length := by
  have hcount : (UInt16.ofNat ((0 : UInt16).toNat + rest.length)).toNat = rest.length := by
    rw [show (0 : UInt16).toNat = 0 from rfl, UInt16.toNat_ofNat']
    omega
  obtain ⟨p, hinit⟩ | ⟨es, hinit, hdone, hsimple, -⟩ |
    ⟨part, es, x, n, j, hpiece, hn, hj, -, hjn, -, hlow, hhigh, hx, hpart, hsimple, -⟩ := hcursor
  · have hids : ∀ e ∈ p.timecode :: p.blocks, e.id = timecodeId ∨ e.id = simpleblockId := by
      intro e he
      rcases List.mem_cons.mp he with rfl | he
      · exact .inl p.isTimecode.1
      · exact .inr (p.areSimple e he)
    have hwalk := fun block : Block => getChankByBytes_inView block hstop hids maxBlockBytes
      (by rw [toNat_maxBlockBytes]; exact Nat.le_trans (Nat.le_add_right _ 4) hle) hview
    simp only [getNextBlockByBytes, if_pos hinit, getFirstBlock, hwalk, hbytes, Option.bind_eq_bind,
      Option.bind_some, if_neg (show ¬ clusterEnd = 0 by decide),
      if_neg (show ¬ clusterEnd = onlyTimecode by decide)]
    exact ⟨_, rfl, hcount⟩
  · have hwalk := fun block : Block => getChankByBytes_inView block hstop
      (fun e he => .inr (hsimple e he)) maxBlockBytes
      (by rw [toNat_maxBlockBytes]; exact Nat.le_trans (Nat.le_add_right _ 4) hle) hview
    have hends : (0 : Int) < clusterEnd := by decide
    by_cases hpiece : block.prev.status = statusPiece
    · have hseq := congrArg UInt8.toNat (hdone hpiece)
      simp only [getNextBlockByBytes, if_neg hinit, getLaterBlock, if_pos hpiece, hseq,
        if_neg (Nat.succ_ne_self _).symm, if_true, getSimpleBlocksOrPiece, hwalk, hbytes,
        Option.bind_eq_bind, Option.bind_some, if_pos hends]
      exact ⟨_, rfl, hcount⟩
    · simp only [getNextBlockByBytes, if_neg hinit, getLaterBlock, if_neg hpiece,
        getSimpleBlocksOrPiece, hwalk, hbytes, Option.bind_eq_bind, Option.bind_some, if_pos hends]
      exact ⟨_, rfl, hcount⟩
  · have hinit : block.prev.status ≠ statusInit := by
      rw [hpiece]
      decide
    rw [List.length_append] at hle hcount ⊢
    -- Another piece is 1000 bytes at least, and would not be in view.
    obtain rfl : n = j + 1 := by omega
    have hlast : (lastPieceBytes block.prev).toNat = part.length := by
      rw [lastPieceBytes, UInt16.toNat_sub, UInt16.toNat_mul, UInt8.toNat_toUInt16,
        toNat_maxBlockBytes, hj, hx]
      omega
    have hleft : (maxBlockBytes - lastPieceBytes block.prev).toNat = 1000 - part.length := by
      have hle : lastPieceBytes block.prev ≤ maxBlockBytes := by
        rw [UInt16.le_iff_toNat_le, hlast, toNat_maxBlockBytes]
        omega
      rw [UInt16.toNat_sub_of_le _ _ hle, hlast, toNat_maxBlockBytes]
    rw [List.append_assoc] at hview
    have hbehind := (Buf.holds_append.mp hview).2
    rw [← hlast] at hbehind
    have hwalk := fun block : Block => getChankByBytes_inView block hstop
      (fun e he => .inr (hsimple e he)) _ (by rw [hleft]; omega) hbehind
    have hends : (0 : Int) < clusterEnd := by decide
    unfold lastPieceBytes at hwalk hlast
    simp only [getNextBlockByBytes, if_neg hinit, getLaterBlock, if_pos hpiece, hn, hj, if_true,
      getLastPiece, assignBlockInfoByPiece, hwalk, Option.bind_eq_bind, Option.bind_some,
      if_pos hends]
    refine ⟨_, rfl, ?_⟩
    rw [hlast, UInt16.toNat_ofNat']
    omega

end View

end P2PStream
