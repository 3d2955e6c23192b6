/-
# `P2PStream.Node.Join` — the statuses of a join message

An Advertise and an InitialStatus are lists of node records, and the number of
records is told by the length of the packet alone.  The sender computes the length
from `CURRENT_CHILD_NUM` and writes the records in a loop over the connected slots.

For InitialStatus the two agree.  For Advertise the length leaves the parent out,
which the loop does not: a node with a parent cuts off the last record, its parent's.
-/
import P2PStream.Node.Members
import P2PStream.Node.Wire

namespace P2PStream

open Lib

/-! ## Reading records -/

/-- A record without its timestamp, which is not sent. -/
def NodeStatus.asSent (s : NodeStatus) : NodeStatus := { s with timestamp := Timeval.zero }

theorem readStatuses_succ (data : Buf) (count : Nat) :
    readStatuses data (count + 1) =
      copyBytesToNodeStatus NodeStatus.zero data ::
        readStatuses (data.drop nodeStatusBytes) count := by
  simp only [readStatuses, List.range_succ_eq_map, List.map_cons, List.map_map, Nat.mul_zero,
    Buf.drop_zero, List.cons.injEq, true_and]
  refine List.map_congr_left fun i _ => ?_
  simp only [Function.comp_apply, Buf.drop_drop, Nat.succ_eq_add_one, Nat.mul_add, Nat.mul_one,
    Nat.add_comm]

@[simp] theorem length_readStatuses (data : Buf) (count : Nat) :
    (readStatuses data count).length = count := by
  simp [readStatuses]

theorem readStatuses_add (data : Buf) (j k : Nat) :
    readStatuses data (j + k) =
      readStatuses data j ++ readStatuses (data.drop (nodeStatusBytes * j)) k := by
  induction j generalizing data with
  | zero => simp [readStatuses]
  | succ j ih =>
      rw [Nat.succ_add, readStatuses_succ, readStatuses_succ, ih, Buf.drop_drop, List.cons_append,
        Nat.mul_succ, Nat.add_comm nodeStatusBytes]

theorem readStatuses_of_holds {records : List NodeStatus} {buf : Buf}
    (h : buf.Holds (records.flatMap copyNodeStatusToBytes)) :
    readStatuses buf records.length = records.map NodeStatus.asSent := by
  induction records generalizing buf with
  | nil => rfl
  | cons s records ih =>
      obtain ⟨hfirst, hrest⟩ := Buf.holds_append.mp h
      rw [length_copyNodeStatusToBytes] at hrest
      rw [List.length_cons, readStatuses_succ, ih hrest, List.map_cons,
        copyBytesToNodeStatus_of_holds _ hfirst]
      rfl

theorem length_flatMap_copyNodeStatusToBytes (records : List NodeStatus) :
    (records.flatMap copyNodeStatusToBytes).length = nodeStatusBytes * records.length := by
  induction records with
  | nil => rfl
  | cons s records ih =>
      rw [List.flatMap_cons, List.length_append, length_copyNodeStatusToBytes, ih,
        List.length_cons, Nat.mul_succ, Nat.add_comm]

/-! ## What the receiver decodes -/

/-- The records that `NodeInitialStatus` decodes: its own, the parent's and the list. -/
def initialStatusRecords (data : Buf) (dataBytes : UInt16) : List NodeStatus :=
  let statusNum := ((dataBytes.toNat : Int) - 8).tdiv nodeStatusBytes
  readStatuses (data.drop 8) 2 ++
    readStatuses (data.drop (nodeStatusBytes * 2 + 8)) (statusNum - 2).toNat

theorem nodeInitialStatus_records (env : Env) (data : Buf) (k : UInt16) (n : Node) :
    ∃ my parent list, initialStatusRecords data k = my :: parent :: list ∧
      (nodeInitialStatus env data k n).myStatus = { my with timestamp := n.myStatus.timestamp } ∧
      (nodeInitialStatus env data k n).nodesStatus parentId =
        { parent with timestamp := n.stamp env } ∧
      (nodeInitialStatus env data k n).nodesList = pushNew n.nodesList list :=
  ⟨_, _, _, rfl, rfl, rfl, rfl⟩

/-- The records that `NodeAdvertise` decodes: the node advertised and the list. -/
def advertiseRecords (data : Buf) (dataBytes : UInt16) : List NodeStatus :=
  readStatuses data 1 ++
    readStatuses (data.drop nodeStatusBytes) (dataBytes.toNat / nodeStatusBytes - 1)

theorem nodeAdvertise_records (env : Env) (data : Buf) (k : UInt16) (n : Node) :
    ∃ ad list, advertiseRecords data k = ad :: list ∧ nodeAdvertise env data k n =
      sendSetup { renewDstFor ad parentId { n with nodesList := pushNew n.nodesList list } with
        setupTimestamp := n.stamp env } :=
  ⟨_, _, rfl, rfl⟩

theorem initialStatusRecords_of_length (data : Buf) {count : Nat} (hcount : 2 ≤ count)
    (hsize : nodeStatusBytes * count + 8 < 2 ^ 16) :
    initialStatusRecords data (UInt16.ofNat (nodeStatusBytes * count + 8)) =
      readStatuses (data.drop 8) count := by
  obtain ⟨k, rfl⟩ := Nat.exists_eq_add_of_le hcount
  have hnum : (((nodeStatusBytes * (2 + k) + 8 : Nat) : Int) - 8).tdiv nodeStatusBytes =
      ((2 + k : Nat) : Int) := by
    rw [Nat.cast_add, Nat.cast_ofNat, Int.add_sub_cancel, Nat.cast_mul]
    exact Int.mul_tdiv_cancel_left _ (by decide)
  have hlist : (((2 + k : Nat) : Int) - 2).toNat = k := by omega
  simp only [initialStatusRecords, UInt16.toNat_ofNat_of_lt' hsize, hnum, hlist]
  rw [readStatuses_add, Buf.drop_drop, Nat.add_comm 8]

theorem advertiseRecords_of_length (data : Buf) {count : Nat} (hcount : 1 ≤ count)
    (hsize : nodeStatusBytes * count < 2 ^ 16) :
    advertiseRecords data (UInt16.ofNat (nodeStatusBytes * count)) = readStatuses data count := by
  obtain ⟨k, rfl⟩ := Nat.exists_eq_add_of_le hcount
  have hnum : nodeStatusBytes * (1 + k) / nodeStatusBytes - 1 = k := by
    rw [Nat.mul_div_cancel_left _ (by decide)]
    omega
  simp only [advertiseRecords, UInt16.toNat_ofNat_of_lt' hsize, hnum]
  rw [readStatuses_add, Nat.mul_one]

/-! ## What the sender copies -/

/-- The records that `SendInitialStatus` copies into its message. -/
def initialStatusCopied (dst : Slot) (n : Node) : List NodeStatus :=
  n.nodesStatus dst :: n.myStatus :: (otherSlots n dst).map n.nodesStatus

/-- The records that `SendAdvertise` copies into its message. -/
def advertiseCopied (env : Env) (ad : Option Slot) (n : Node) : List NodeStatus :=
  match ad with
  | some s => n.nodesStatus s :: (if s = myId then [] else [n.myStatus]) ++
      (otherSlots n s).map n.nodesStatus
  | none => env.below :: n.myStatus :: (otherSlots n myId).map n.nodesStatus

/-- The data of the last packet sent. -/
def lastData (n : Node) : List UInt8 := (n.sent.getLast?.map Packet.data).getD []

/-- The bytes of the last packet behind its protocol number. -/
def lastDataBytes (n : Node) : UInt16 := UInt16.ofNat (lastData n).tail.length

/-- The slots that `NodeSetup` may advertise. -/
def MayAdvertise (n : Node) (ad : Option Slot) : Prop :=
  (∃ rand, ad = generateRndID rand 0 (n.currentChildNum + 1) n) ∨
    checkChildNum n = none ∧ ∃ rand, ad = generateRndID rand 1 n.currentChildNum n

theorem lastData_eq_take (l : List UInt8) (dataBytes : Int) (s : Slot) (n : Node) :
    lastData (sendData l dataBytes s n) =
      (Buf.zero.overlay l).take (UInt16.ofInt dataBytes).toNat := by
  simp only [lastData, sendData, sendPacket, packetGenerate, List.getLast?_append,
    List.getLast?_singleton, Option.some_or, Option.map_some, Option.getD_some]

theorem lastData_sendData (l : List UInt8) {k : Nat} (hk : k ≤ l.length) (hsize : k < 2 ^ 16)
    (s : Slot) (n : Node) : lastData (sendData l k s n) = l.take k := by
  have hwidth : (UInt16.ofInt (k : Int)).toNat = k := by
    rw [UInt16.ofInt, ← Nat.cast_ofNat, ← Nat.cast_pow, ← Int.natCast_mod, Int.toNat_natCast,
      Nat.mod_eq_of_lt hsize, UInt16.toNat_ofNat_of_lt' hsize]
  rw [lastData_eq_take, hwidth]
  exact (Buf.overlay_holds _ l).take_eq hk

/-! ## Counting the slots -/

theorem length_otherSlots (n : Node) (s : Slot) :
    (otherSlots n s).length = (if (0 : Slot) ≠ s ∧ n.isConnected 0 then 1 else 0) +
      (if (1 : Slot) ≠ s ∧ n.isConnected 1 then 1 else 0) +
      (if (2 : Slot) ≠ s ∧ n.isConnected 2 then 1 else 0) := by
  simp only [otherSlots, List.filter_cons, List.filter_nil, decide_eq_true_eq]
  split <;> split <;> split <;> rfl

theorem counted_node_iff (n : Node) : n.links.Counted ↔
    n.currentChildNum = (n.isConnected 0).toNat + (n.isConnected 1).toNat := by
  rw [Links.counted_iff]
  exact Iff.of_eq (congrArg _ (Nat.cast_add _ _))

theorem nthChild_eq (n : Node) (rndVal : Int) :
    nthChild n rndVal =
      if (((n.isConnected 0).toNat : Nat) : Int) = rndVal then some 0
      else if (((n.isConnected 0).toNat + (n.isConnected 1).toNat : Nat) : Int) = rndVal then
        some 1
      else none := by
  have hrange : List.finRange maxChildNum = [0, 1] := by decide
  have h₀ : childSlot 0 = 0 := rfl
  have h₁ : childSlot 1 = 1 := rfl
  have hfirst : ([0, 1].filter fun j : Fin maxChildNum =>
      decide (j ≤ 0 ∧ n.isConnected (childSlot j) = true)).length = (n.isConnected 0).toNat := by
    cases hc : n.isConnected 0 <;> simp [h₀, hc]
  have hsecond : ([0, 1].filter fun j : Fin maxChildNum =>
      decide (j ≤ 1 ∧ n.isConnected (childSlot j) = true)).length =
      (n.isConnected 0).toNat + (n.isConnected 1).toNat := by
    cases hc : n.isConnected 0 <;> cases hc' : n.isConnected 1 <;>
      simp [h₀, h₁, hc, hc']
  simp only [nthChild, hrange, List.findSome?_cons, List.findSome?_nil, hfirst, hsecond]
  by_cases heq : (((n.isConnected 0).toNat : Nat) : Int) = rndVal
  · simp only [if_pos heq, h₀]
  · rw [if_neg heq, if_neg heq]
    by_cases heq' : (((n.isConnected 0).toNat + (n.isConnected 1).toNat : Nat) : Int) = rndVal
    · simp only [if_pos heq', h₁]
    · simp only [if_neg heq']

theorem nthChild_of_counted {n : Node} (hcount : n.links.Counted) {rndVal : Int}
    (hpos : 1 ≤ rndVal) (hle : rndVal ≤ n.currentChildNum) :
    ∃ i, nthChild n rndVal = some (childSlot i) ∧ n.isConnected (childSlot i) = true := by
  rw [counted_node_iff] at hcount
  have h₀ : n.isConnected (childSlot 0) = n.isConnected 0 := rfl
  have h₁ : n.isConnected (childSlot 1) = n.isConnected 1 := rfl
  rw [nthChild_eq]
  cases hc₀ : n.isConnected 0 with
  | true =>
      by_cases hone : rndVal = 1
      · exact ⟨0, by simp [hone]; rfl, h₀.trans hc₀⟩
      · cases hc₁ : n.isConnected 1 with
        | true =>
            have htwo : rndVal = 2 := by simp [hc₀, hc₁] at hcount; omega
            exact ⟨1, by simp [htwo]; rfl, h₁.trans hc₁⟩
        | false => simp [hc₀, hc₁] at hcount; omega
  | false =>
      cases hc₁ : n.isConnected 1 with
      | true =>
          have hone : rndVal = 1 := by simp [hc₀, hc₁] at hcount; omega
          exact ⟨1, by simp [hone]; rfl, h₁.trans hc₁⟩
      | false => simp [hc₀, hc₁] at hcount; omega

/-- With the counter right, the slot advertised is the node's own or a connected child's. -/
theorem MayAdvertise.own_or_child {n : Node} (hcount : n.links.Counted) {ad : Option Slot}
    (h : MayAdvertise n ad) :
    ad = some myId ∨ ∃ i, ad = some (childSlot i) ∧ n.isConnected (childSlot i) = true := by
  have hbounds := hcount.bounds
  have hlinks : n.links.count = n.currentChildNum := rfl
  rw [hlinks] at hbounds
  rcases h with ⟨rand, rfl⟩ | ⟨hfull, rand, rfl⟩
  · have hnonneg := Int.tmod_nonneg (n.currentChildNum + 1) (Int.natCast_nonneg rand)
    have hlt := Int.tmod_lt_of_pos (rand : Int) (by omega : 0 < n.currentChildNum + 1)
    simp only [generateRndID, if_pos (by omega : n.currentChildNum + 1 ≠ 0), Int.add_zero]
    split
    · exact .inl rfl
    · exact .inr (nthChild_of_counted hcount (by omega) (by omega))
  · -- with no free slot there are two children
    have htwo : n.currentChildNum = 2 := by
      unfold checkChildNum at hfull
      rw [counted_node_iff] at hcount
      split at hfull
      · have hall : ∀ i : Fin maxChildNum, n.isConnected (childSlot i) = true := by
          intro i
          simpa using List.find?_eq_none.mp hfull i (List.mem_finRange i)
        have h₀ : n.isConnected 0 = true := hall 0
        have h₁ : n.isConnected 1 = true := hall 1
        rw [hcount, h₀, h₁]
        rfl
      · next hmany =>
        have hmax : (maxChildNum : Int) = 2 := rfl
        rw [hmax] at hmany hbounds
        omega
    have hnonneg := Int.tmod_nonneg 2 (Int.natCast_nonneg rand)
    have hlt := Int.tmod_lt_of_pos (rand : Int) (by decide : (0 : Int) < 2)
    simp only [generateRndID, htwo, if_pos (by decide : (2 : Int) ≠ 0)]
    rw [if_neg (by omega)]
    exact .inr (nthChild_of_counted hcount (by omega) (by omega))

/-! ## The two messages -/

theorem child_eq : ∀ i : Fin maxChildNum, i = 0 ∨ i = 1 := by decide

theorem length_initialStatusCopied {n : Node} (hcount : n.links.Counted) {i : Fin maxChildNum}
    (hi : n.isConnected (childSlot i) = false) :
    ((initialStatusCopied (childSlot i) n).length : Int) =
      n.currentChildNum + 2 + (n.isConnected parentId).toNat := by
  rw [counted_node_iff] at hcount
  have hp : n.isConnected parentId = n.isConnected 2 := rfl
  rw [initialStatusCopied, List.length_cons, List.length_cons, List.length_map, length_otherSlots,
    hcount, hp]
  rcases child_eq i with rfl | rfl
  · have h₀ : n.isConnected 0 = false := hi
    cases n.isConnected 1 <;> cases n.isConnected 2 <;> simp [h₀, childSlot]
  · have h₁ : n.isConnected 1 = false := hi
    cases n.isConnected 0 <;> cases n.isConnected 2 <;> simp [h₁, childSlot]

theorem length_advertiseCopied (env : Env) {n : Node} (hcount : n.links.Counted)
    {ad : Option Slot} (had : MayAdvertise n ad) :
    ((advertiseCopied env ad n).length : Int) =
      n.currentChildNum + 1 + (n.isConnected parentId).toNat := by
  have hslots := counted_node_iff n |>.mp hcount
  have hp : n.isConnected parentId = n.isConnected 2 := rfl
  rcases had.own_or_child hcount with rfl | ⟨i, rfl, hi⟩
  · rw [advertiseCopied, if_pos rfl, List.length_append, List.length_singleton, List.length_map,
      length_otherSlots, hslots, hp]
    cases n.isConnected 0 <;> cases n.isConnected 1 <;> cases n.isConnected 2 <;> simp [myId]
  · have hne : childSlot i ≠ myId := by
      rcases child_eq i with rfl | rfl <;> decide
    rw [advertiseCopied, if_neg hne, List.length_append, List.length_cons, List.length_singleton,
      List.length_map, length_otherSlots, hslots, hp]
    rcases child_eq i with rfl | rfl
    · have h₀ : n.isConnected 0 = true := hi
      cases n.isConnected 1 <;> cases n.isConnected 2 <;> simp [h₀, childSlot]
    · have h₁ : n.isConnected 1 = true := hi
      cases n.isConnected 0 <;> cases n.isConnected 2 <;> simp [h₁, childSlot]

theorem currentChildNum_add_parent {n : Node} (hcount : n.links.Counted) :
    0 ≤ n.currentChildNum ∧ n.currentChildNum + (n.isConnected parentId).toNat ≤ 3 := by
  have hbounds := hcount.bounds
  have hlinks : n.links.count = n.currentChildNum := rfl
  have hmax : (maxChildNum : Int) = 2 := rfl
  have hbit := Bool.toNat_le (n.isConnected parentId)
  rw [hlinks, hmax] at hbounds
  omega

theorem length_timecodeOffsetBytes (n : Node) : (timecodeOffsetBytes n).length = 8 := by
  rw [timecodeOffsetBytes, List.length_reverse, length_toBe]

theorem lastData_sendInitialStatus {n : Node} (hcount : n.links.Counted) {i : Fin maxChildNum}
    (hi : n.isConnected (childSlot i) = false) :
    lastData (sendInitialStatus (childSlot i) n) = initialStatusProto :: (timecodeOffsetBytes n ++
      (initialStatusCopied (childSlot i) n).flatMap copyNodeStatusToBytes) := by
  have hlen := length_initialStatusCopied hcount hi
  generalize hcopied : initialStatusCopied (childSlot i) n = copied at hlen ⊢
  have hbounds := currentChildNum_add_parent hcount
  have hbytes := length_flatMap_copyNodeStatusToBytes copied
  have htc := length_timecodeOffsetBytes n
  have hstatus : (nodeStatusBytes : Int) = 30 := rfl
  have hlength : (initialStatusProto :: (timecodeOffsetBytes n ++
      copied.flatMap copyNodeStatusToBytes)).length = 9 + nodeStatusBytes * copied.length := by
    rw [List.length_cons, List.length_append, htc, hbytes]
    omega
  have hsend : sendInitialStatus (childSlot i) n =
      sendData (initialStatusProto :: (timecodeOffsetBytes n ++
        copied.flatMap copyNodeStatusToBytes))
        ((9 + nodeStatusBytes * copied.length : Nat) : Int) (childSlot i) n := by
    rw [Nat.cast_add, Nat.cast_mul, hlen, ← hcopied]
    simp only [sendInitialStatus, initialStatusCopied, List.cons_append]
    congr 1
    cases n.isConnected parentId <;> simp [hstatus] <;> ring
  have hnat : nodeStatusBytes = 30 := rfl
  rw [hsend, lastData_sendData _ (Nat.le_of_eq hlength.symm) (by rw [hnat]; omega), ← hlength,
    List.take_length]

theorem lastData_sendAdvertise (env : Env) {n : Node} (hcount : n.links.Counted)
    {ad : Option Slot} (had : MayAdvertise n ad) (dst : Slot) :
    lastData (sendAdvertise env dst ad n) = advertiseProto ::
      ((advertiseCopied env ad n).flatMap copyNodeStatusToBytes).take
        (nodeStatusBytes * (n.currentChildNum + 1).toNat) := by
  have hlen := length_advertiseCopied env hcount had
  have hbounds := currentChildNum_add_parent hcount
  generalize hcopied : advertiseCopied env ad n = copied at hlen ⊢
  have hbytes := length_flatMap_copyNodeStatusToBytes copied
  have hnat : nodeStatusBytes = 30 := rfl
  have hsend : sendAdvertise env dst ad n =
      sendData (advertiseProto :: copied.flatMap copyNodeStatusToBytes)
        ((nodeStatusBytes * (n.currentChildNum + 1).toNat + 1 : Nat) : Int) dst n := by
    rw [Nat.cast_add, Nat.cast_mul, Int.toNat_of_nonneg (by omega), ← hcopied, Nat.cast_one,
      Int.add_comm]
    cases ad <;> rfl
  rw [hsend, lastData_sendData _ (by rw [List.length_cons, hbytes, hnat]; omega)
    (by rw [hnat]; omega), List.take_succ_cons]

/-- What the receivers of the two messages decode, for every buffer that starts with the
data received: from an InitialStatus all the records copied into it, and from an
Advertise all of them when and only when the sender has no parent. -/
theorem joinStatuses_iff {n : Node} (hcount : n.links.Counted) :
    (∀ i, n.isConnected (childSlot i) = false → ∀ buf : Buf,
      buf.Holds (lastData (sendInitialStatus (childSlot i) n)).tail →
      initialStatusRecords buf (lastDataBytes (sendInitialStatus (childSlot i) n)) =
        (initialStatusCopied (childSlot i) n).map NodeStatus.asSent) ∧
    ∀ env ad dst, MayAdvertise n ad → ∀ buf : Buf,
      buf.Holds (lastData (sendAdvertise env dst ad n)).tail →
      (advertiseRecords buf (lastDataBytes (sendAdvertise env dst ad n)) =
          (advertiseCopied env ad n).map NodeStatus.asSent ↔
        n.isConnected parentId = false) := by
  have hbounds := currentChildNum_add_parent hcount
  have hnat : nodeStatusBytes = 30 := rfl
  constructor
  · intro i hi buf hbuf
    have hlen := length_initialStatusCopied hcount hi
    rw [lastData_sendInitialStatus hcount hi, List.tail_cons] at hbuf
    rw [lastDataBytes, lastData_sendInitialStatus hcount hi, List.tail_cons, List.length_append,
      length_timecodeOffsetBytes, length_flatMap_copyNodeStatusToBytes, Nat.add_comm 8,
      initialStatusRecords_of_length buf (by omega) (by rw [hnat]; omega)]
    have hrecords := (Buf.holds_append.mp hbuf).2
    rw [length_timecodeOffsetBytes] at hrecords
    exact readStatuses_of_holds hrecords
  · intro env ad dst had buf hbuf
    have hlen := length_advertiseCopied env hcount had
    have hsent := lastData_sendAdvertise env hcount had dst
    generalize advertiseCopied env ad n = copied at hlen hsent ⊢
    have hbytes := length_flatMap_copyNodeStatusToBytes copied
    rw [hsent, List.tail_cons] at hbuf
    rw [lastDataBytes, hsent, List.tail_cons, List.length_take_of_le (by rw [hbytes, hnat]; omega),
      advertiseRecords_of_length buf (by omega) (by rw [hnat]; omega)]
    cases hp : n.isConnected parentId with
    | false =>
        -- the length covers every record
        have hall : (n.currentChildNum + 1).toNat = copied.length := by
          rw [hp, Bool.toNat_false] at hlen
          omega
        rw [hall, ← hbytes, List.take_length] at hbuf
        rw [hall, readStatuses_of_holds hbuf]
        exact iff_of_true rfl rfl
    | true =>
        refine iff_of_false (fun heq => ?_) Bool.noConfusion
        have hlength := congrArg List.length heq
        rw [length_readStatuses, List.length_map] at hlength
        rw [hp, Bool.toNat_true] at hlen
        omega

/-- A peer that has no parent yet advertises itself. -/
theorem joinStatuses_iff_firstPeer :
    firstPeer.links.Counted ∧ MayAdvertise firstPeer (some myId) ∧
    advertiseRecords
      (packetData
        (lastData (sendAdvertise (Env.clock ⟨1, 0⟩) tmpId (some myId) firstPeer)).tail)
      (lastDataBytes (sendAdvertise (Env.clock ⟨1, 0⟩) tmpId (some myId) firstPeer)) =
        [firstPeer.myStatus.asSent] := by
  have hcount : firstPeer.links.Counted := (Links.counted_iff _).mpr rfl
  have had : MayAdvertise firstPeer (some myId) := .inl ⟨0, rfl⟩
  have hall := ((joinStatuses_iff hcount).2 (Env.clock ⟨1, 0⟩) (some myId) tmpId had _
    (Buf.overlay_holds Buf.zero _)).mpr (by decide)
  exact ⟨hcount, had, hall⟩

/-- A peer with a parent advertises itself: its parent's record is copied and cut off. -/
theorem parent_cut_off : ∃ n, Run (NodeStep .peer) firstPeer
      [(Env.clock ⟨1, 0⟩,
        .initialStatus (initialStatusData [statusOf 5 2 12346 1, statusOf 0 1 12345 0]) 68)] n ∧
    n.links.Counted ∧ MayAdvertise n (some myId) ∧
    advertiseRecords
      (packetData (lastData (sendAdvertise (Env.clock ⟨2, 0⟩) tmpId (some myId) n)).tail)
      (lastDataBytes (sendAdvertise (Env.clock ⟨2, 0⟩) tmpId (some myId) n)) ≠
      (advertiseCopied (Env.clock ⟨2, 0⟩) (some myId) n).map NodeStatus.asSent := by
  refine ⟨_, .cons rfl (.nil _), (Links.counted_iff _).mpr (by decide +kernel),
    .inl ⟨0, by decide +kernel⟩, fun heq => ?_⟩
  have hlength := congrArg List.length heq
  revert hlength
  decide +kernel

end P2PStream
