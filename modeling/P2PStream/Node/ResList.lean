/-
# `P2PStream.Node.ResList` — the answer to a list request

`SendResList` writes the connected children and the node list, without the requester,
and computes the number of records apart from the loops that write them.  It starts
from one child too few, the requester; but the requester may be the parent, and then
the last record is cut off, or the length falls below zero.
-/
import P2PStream.Node.Join

namespace P2PStream

open Lib

/-! ## The records -/

/-- The list entries that `SendResList` writes. -/
def resListEntries (dst : Slot) (n : Node) : List NodeStatus :=
  n.nodesList.filter fun s => s.id ≠ (n.nodesStatus dst).id

/-- The records that `SendResList` copies into its message. -/
def resListCopied (dst : Slot) (n : Node) : List NodeStatus :=
  (([0, 1] : List Slot).filter fun i => i ≠ dst ∧ n.isConnected i).map n.nodesStatus ++
    resListEntries dst n

/-- The `status_num` of `SendResList`. -/
def resListNum (dst : Slot) (n : Node) : Int :=
  n.currentChildNum - 1 + (resListEntries dst n).length

theorem sendResList_eq (dst : Slot) (n : Node) : sendResList dst n =
    sendData (resListProto :: (resListCopied dst n).flatMap copyNodeStatusToBytes)
      (1 + nodeStatusBytes * resListNum dst n) dst n := rfl

/-- The records that `NodeResList` decodes. -/
def resListRecords (data : Buf) (dataBytes : UInt16) : List NodeStatus :=
  readStatuses data (dataBytes.toNat / nodeStatusBytes)

theorem nodeResList_records (data : Buf) (k : UInt16) (n : Node) :
    nodeResList data k n =
      { n with nodesList := pushOrUpdate n.nodesList (resListRecords data k) } :=
  rfl

/-! ## The requester -/

theorem requester_isConnected {id : UInt16} {n : Node} {dst : Slot}
    (h : requester id n = some dst) : n.isConnected dst = true := by
  have hfound := List.find?_some h
  exact (Bool.and_eq_true_iff.mp hfound).1

theorem length_resListCopied (dst : Slot) (n : Node) : (resListCopied dst n).length =
    (if (0 : Slot) ≠ dst ∧ n.isConnected 0 then 1 else 0) +
      (if (1 : Slot) ≠ dst ∧ n.isConnected 1 then 1 else 0) + (resListEntries dst n).length := by
  simp only [resListCopied, List.length_append, List.length_map, List.filter_cons, List.filter_nil,
    decide_eq_true_eq]
  congr 1
  split <;> split <;> rfl

theorem resListNum_eq {n : Node} (hcount : n.links.Counted) {dst : Slot} (hslot : dst ≠ myId)
    (hdst : n.isConnected dst = true) : resListNum dst n =
      (resListCopied dst n).length - if dst = parentId then 1 else 0 := by
  rw [counted_node_iff] at hcount
  rw [resListNum, length_resListCopied, hcount]
  match dst with
  | 0 => cases n.isConnected 1 <;> simp [hdst, parentId]
  | 1 => cases n.isConnected 0 <;> simp [hdst, parentId]
  | 2 => cases n.isConnected 0 <;> cases n.isConnected 1 <;> simp [parentId] <;> omega
  | 3 => exact absurd rfl hslot

/-! ## The message -/

/-- The receiver decodes what was written, for every buffer that starts with the data received. -/
def ResListDecoded (dst : Slot) (n : Node) : Prop :=
  ∀ buf : Buf, buf.Holds (lastData (sendResList dst n)).tail →
    resListRecords buf (lastDataBytes (sendResList dst n)) =
      (resListCopied dst n).map NodeStatus.asSent

/-- The number of records is what was written, and so is what is decoded. -/
structure ResListSent (dst : Slot) (n : Node) : Prop where
  num : resListNum dst n = (resListCopied dst n).length
  nonneg : 0 ≤ resListNum dst n
  decoded : ResListDecoded dst n

theorem lastData_sendResList {dst : Slot} {n : Node} {k : Nat} (hnum : resListNum dst n = k)
    (hle : k ≤ (resListCopied dst n).length) (hsize : k ≤ 33) :
    lastData (sendResList dst n) = resListProto ::
      ((resListCopied dst n).flatMap copyNodeStatusToBytes).take (nodeStatusBytes * k) := by
  have hbytes := length_flatMap_copyNodeStatusToBytes (resListCopied dst n)
  have hnat : nodeStatusBytes = 30 := rfl
  have hlength : (1 : Int) + nodeStatusBytes * resListNum dst n =
      ((nodeStatusBytes * k + 1 : Nat) : Int) := by
    rw [hnum]
    push_cast
    ring
  rw [sendResList_eq, hlength, lastData_sendData _ (by rw [List.length_cons, hbytes, hnat]; omega)
    (by rw [hnat]; omega), List.take_succ_cons]

theorem length_resListRecords {dst : Slot} {n : Node} {k : Nat} (hnum : resListNum dst n = k)
    (hle : k ≤ (resListCopied dst n).length) (hsize : k ≤ 33) (buf : Buf) :
    resListRecords buf (lastDataBytes (sendResList dst n)) = readStatuses buf k := by
  have hbytes := length_flatMap_copyNodeStatusToBytes (resListCopied dst n)
  have hnat : nodeStatusBytes = 30 := rfl
  have hcut : nodeStatusBytes * k < 2 ^ 16 := by rw [hnat]; omega
  rw [resListRecords, lastDataBytes, lastData_sendResList hnum hle hsize, List.tail_cons,
    List.length_take_of_le (by rw [hbytes]; exact Nat.mul_le_mul_left _ hle),
    UInt16.toNat_ofNat_of_lt' hcut, Nat.mul_div_cancel_left _ (by decide)]

theorem length_resListRecords_neg {dst : Slot} {n : Node} (hnum : resListNum dst n = -1)
    (buf : Buf) : (resListRecords buf (lastDataBytes (sendResList dst n))).length = 2183 := by
  have hlength : (UInt16.ofInt (1 + nodeStatusBytes * (-1))).toNat = 65507 := by decide
  have hbytes : lastDataBytes (sendResList dst n) = 65506 := by
    rw [lastDataBytes, sendResList_eq, hnum, lastData_eq_take, List.length_tail, Buf.length_take,
      hlength]
    rfl
  rw [resListRecords, length_readStatuses, hbytes]
  rfl

/-- A list request of a child or of the parent is answered with at most 33 records: the
receiver decodes all of them, and their number is right, exactly when it is a child's. -/
theorem sendResList_iff {n : Node} (hcount : n.links.Counted) {id : UInt16} {dst : Slot}
    (hreq : requester id n = some dst) (hslot : dst ≠ myId)
    (hsize : (resListCopied dst n).length ≤ 33) :
    (ResListSent dst n ↔ dst ≠ parentId) ∧ (ResListDecoded dst n ↔ dst ≠ parentId) := by
  have hnum := resListNum_eq hcount hslot (requester_isConnected hreq)
  by_cases hparent : dst = parentId
  · rw [if_pos hparent] at hnum
    have hcut : ¬ ResListDecoded dst n := by
      intro hdecoded
      have hall := congrArg List.length (hdecoded _ (Buf.overlay_holds Buf.zero _))
      rw [List.length_map] at hall
      by_cases hnone : (resListCopied dst n).length = 0
      · rw [length_resListRecords_neg (by omega), hnone] at hall
        cases hall
      · obtain ⟨k, hk⟩ := Nat.exists_eq_succ_of_ne_zero hnone
        have hone : resListNum dst n = k := by omega
        rw [length_resListRecords hone (by omega) (by omega), length_readStatuses] at hall
        omega
    exact ⟨iff_of_false (fun h => hcut h.decoded) (not_not_intro hparent),
      iff_of_false hcut (not_not_intro hparent)⟩
  · rw [if_neg hparent, Int.sub_zero] at hnum
    have hdecoded : ResListDecoded dst n := by
      intro buf hbuf
      rw [length_resListRecords hnum (le_refl _) hsize]
      rw [lastData_sendResList hnum (le_refl _) hsize, List.tail_cons,
        ← length_flatMap_copyNodeStatusToBytes, List.take_length] at hbuf
      exact readStatuses_of_holds hbuf
    exact ⟨iff_of_true ⟨hnum, by omega, hdecoded⟩ hparent, iff_of_true hdecoded hparent⟩

/-- A child of the origin asks for the list. -/
theorem sendResList_iff_child : ∃ n, Run (NodeStep .origin) firstOrigin connectOnce n ∧
    ResListSent 0 n := by
  refine ⟨_, Node.exec_eq_ok_iff.mp rfl, ?_⟩
  refine (sendResList_iff ?_ (?_ : requester 5 _ = some 0) ?_ ?_).1.mpr ?_
  · rw [counted_node_iff]
    decide +kernel
  · decide +kernel
  · decide
  · decide +kernel
  · decide

/-- The parent of a peer asks for the list: the origin's entry is written, and no record is sent. -/
theorem sendResList_parent : ∃ n, Run (NodeStep .peer) firstPeer
      [(Env.clock ⟨1, 0⟩,
        .initialStatus (initialStatusData [statusOf 5 2 12346 2, statusOf 1 3 12347 1]) 68)] n ∧
    n.links.Counted ∧ requester 1 n = some parentId ∧
    (resListCopied parentId n).map (·.id) = [originId] ∧ resListNum parentId n = 0 ∧
    resListRecords (packetData (lastData (sendResList parentId n)).tail)
      (lastDataBytes (sendResList parentId n)) = [] := by
  refine ⟨_, .cons rfl (.nil _), (Links.counted_iff _).mpr (by decide +kernel), ?_⟩
  decide +kernel

end P2PStream
