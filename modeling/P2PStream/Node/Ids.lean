/-
# `P2PStream.Node.Ids` — the ids of the nodes

A node holds its own id in `NODES_STATUS[MY_ID]`, the origin counts the ids it has handed
out in `CURRENT_NODE_ID`, and both travel in two packets only: ID and InitialStatus.
`Node.ids` is what a node has of these, and every event but three leaves it alone.
-/
import P2PStream.Node.Links
import P2PStream.Node.Wire
import P2PStream.Node.Event

namespace P2PStream

open Lib

/-! ## Packets that carry ids -/

/-- The packets of `SendID` and `SendInitialStatus`. -/
def carriesId (data : List UInt8) : Bool :=
  data.head? = some idProto || data.head? = some initialStatusProto

/-- What the node holds of ids, and the packets it has sent of them. -/
structure Ids where
  own : UInt16
  counter : UInt16
  sent : List Packet

def Node.ids (n : Node) : Ids :=
  ⟨n.myStatus.id, n.currentNodeId, n.sent.filter fun p => carriesId p.data⟩

/-! ## The other packets -/

theorem carriesId_eq_false {data : List UInt8}
    (h : ∀ protocol, data.head? = some protocol →
      protocol ≠ idProto ∧ protocol ≠ initialStatusProto) : carriesId data = false := by
  rw [carriesId, Bool.or_eq_false_iff, decide_eq_false_iff_not, decide_eq_false_iff_not]
  exact ⟨fun hhead => (h _ hhead).1 rfl, fun hhead => (h _ hhead).2 rfl⟩

theorem sent_ids {ps : List Packet} (hps : ∀ p ∈ ps, carriesId p.data = false) (n : Node) :
    { n with sent := n.sent ++ ps }.ids = n.ids := by
  have hnone : ps.filter (fun p => carriesId p.data) = [] :=
    List.filter_eq_nil_iff.mpr fun p hp => Bool.eq_false_iff.mp (hps p hp)
  have hsent : (n.sent ++ ps).filter (fun p => carriesId p.data) =
      n.sent.filter fun p => carriesId p.data := by
    rw [List.filter_append, hnone, List.append_nil]
  exact congrArg (Ids.mk n.myStatus.id n.currentNodeId) hsent

theorem sendData_ids {proto : UInt8} (hid : proto ≠ idProto) (hstatus : proto ≠ initialStatusProto)
    (l : List UInt8) (k : Int) (s : Slot) (n : Node) :
    (sendData (proto :: l) k s n).ids = n.ids := by
  refine sent_ids (fun p hp => carriesId_eq_false fun protocol hhead => ?_) n
  rw [List.mem_singleton.mp hp] at hhead
  rw [head?_take_cons hhead]
  exact ⟨hid, hstatus⟩

theorem Talks.ids {n n' : Node} (h : Talks n n') : n'.ids = n.ids := by
  obtain ⟨ip, port, ps, rfl, hps⟩ := h
  refine (sent_ids (fun p hp => carriesId_eq_false fun protocol hhead => ?_) n).trans rfl
  obtain ⟨-, hid, hstatus, -⟩ := (hps p hp).head protocol hhead
  exact ⟨hid, hstatus⟩

theorem Distributes.ids {n n' : Node} (h : Distributes n n') : n'.ids = n.ids := by
  obtain ⟨x, y, blocks, ps, rfl, hps⟩ := h
  refine (sent_ids (fun p hp => carriesId_eq_false fun protocol hhead => ?_) n).trans rfl
  obtain ⟨i, data, -, rfl, hblock⟩ := hps p hp
  rw [hblock protocol hhead]
  decide

@[simp] theorem sendWebMHeader_ids (s : Slot) (n : Node) : (sendWebMHeader s n).ids = n.ids :=
  sendData_ids (by decide) (by decide) ..

@[simp] theorem sendAccept_ids (s : Slot) (n : Node) : (sendAccept s n).ids = n.ids :=
  sendData_ids (by decide) (by decide) ..

/-! ## The handlers -/

theorem setStatus_ids {s : Slot} (hs : s ≠ myId) (status : NodeStatus) (n : Node) :
    (n.setStatus s status).ids = n.ids := by
  have hmy : (n.setStatus s status).myStatus = n.myStatus := Function.update_of_ne hs.symm ..
  simp only [Node.ids, hmy]
  rfl

@[simp] theorem setMyStatus_ids (status : NodeStatus) (n : Node) :
    (n.setStatus myId status).ids = { n.ids with own := status.id } := by
  have hmy : (n.setStatus myId status).myStatus = status := by
    show Function.update n.nodesStatus myId status myId = status
    exact Function.update_self ..
  simp only [Node.ids, hmy]
  rfl

theorem admitChild_ids (env : Env) (i : Fin maxChildNum) (n : Node) :
    (admitChild env i n).ids = n.ids := setStatus_ids (childSlot_ne_myId i) _ n

theorem nodeRetry_ids {env : Env} {n n' : Node} (h : nodeRetry env n = .ok n') :
    n'.ids = n.ids := by
  obtain ⟨prior, _, _, -, -, rfl⟩ := nodeRetry_asks h
  exact (connectTo_talks prior _).ids.trans (setMyStatus_ids ..)

theorem nodeDetach_ids {env : Env} {data : Buf} {n n' : Node}
    (h : nodeDetach env data n = .ok n') : n'.ids = n.ids := by
  obtain ⟨prior, _, -, rfl⟩ := nodeDetach_asks h
  refine (connectTo_talks prior _).ids.trans ((setStatus_ids (by decide) ..).trans ?_)
  exact setMyStatus_ids ..

theorem nodeConnect_ids {env : Env} {data : Buf} {n n' : Node}
    (h : nodeConnect env data n = .ok n') : n'.ids = n.ids := by
  rcases nodeConnect_cases h with ⟨-, rfl | rfl⟩ | ⟨-, i, -, rfl⟩
  · rfl
  · exact (sendUnaccept_talks _ _ n).ids
  · rw [connectAdmission, admitChild_ids, sendAccept_ids]
    exact setStatus_ids (childSlot_ne_myId i) ..

theorem nodeAccept_ids (env : Env) (data : Buf) (n : Node) :
    (nodeAccept env data n).ids = n.ids := by
  obtain ⟨parent, _, _, hafter, -⟩ := nodeAccept_changes env data n
  have hrecorded : ((n.setStatus parentId parent).setStatus myId
      { n.myStatus with layer := parent.layer + 1 }).ids = n.ids := by
    rw [setMyStatus_ids, setStatus_ids (by decide)]
    rfl
  rw [hafter, ← hrecorded]
  rfl

theorem nodeKeepAliveRes_ids (env : Env) (data : Buf) (n : Node) :
    (nodeKeepAliveRes env data n).ids = n.ids := by
  have hid : (nodeKeepAliveRes env data n).myStatus.id = n.myStatus.id := by
    simp only [nodeKeepAliveRes, Node.myStatus]
    split <;> rfl
  exact congrArg (fun id => (⟨id, _, _⟩ : Ids)) hid

theorem timeCache_ids (env : Env) (n : Node) : (timeCache env n).ids = n.ids := by
  obtain ⟨_, _, _, _, _, _, hafter⟩ := timeCache_changes env n
  rw [hafter]
  rfl

/-! ## The other events -/

/-- The events that answer a Setup, and those of its answers. -/
def movesIds : Event → Bool
  | .setup .. | .id .. | .initialStatus .. => true
  | _ => false

theorem step_ids {program : Program} {env : Env} {n n' : Node} {e : Event}
    (he : movesIds e = false) (h : n.step program env e = .ok n') : n'.ids = n.ids := by
  cases e with
  | setup | id | initialStatus => cases he
  | advertise data k => cases h; exact (nodeAdvertise_talks env data k n).ids
  | block data k =>
      cases program with
      | origin => cases h; rfl
      | peer =>
          obtain ⟨webm, -, h⟩ := bind_eq_ok.mp h
          cases h
          rfl
  | connect data => exact nodeConnect_ids h
  | depart data =>
      obtain ⟨count, connected, htalks⟩ := nodeDepart_talks h
      exact htalks.ids
  | detach data => exact nodeDetach_ids h
  | reqList data => cases h; exact (nodeReqList_talks data n).ids
  | resList data k => cases program <;> cases h <;> rfl
  | accept data =>
      cases program with
      | origin => cases h; rfl
      | peer => cases h; exact nodeAccept_ids env data n
  | unaccept data =>
      cases program with
      | origin => cases h; rfl
      | peer =>
          obtain ⟨prior, _, _, -, -, rfl⟩ := nodeUnaccept_asks h
          exact (connectTo_talks prior _).ids
  | keepAlive data => cases h; exact (nodeKeepAlive_talks data n).ids
  | keepAliveRes data => cases h; exact nodeKeepAliveRes_ids env data n
  | mulStream => exact (step_mulStream_distributes h).ids
  | timeKeepAlive => cases h; exact (timeKeepAlive_talks env n).ids
  | timeSetup => cases h; exact (timeSetup_talks env n).ids
  | timeout s =>
      rcases timeout_cases h with ⟨-, rfl⟩ | ⟨-, ⟨-, rfl⟩ | ⟨-, hretry⟩⟩
      · rfl
      · rfl
      · exact (nodeRetry_ids hretry).trans rfl
  | timeList => cases h; exact (timeList_talks env n).ids
  | timeRetry =>
      rcases timeRetry_cases h with ⟨-, hretry⟩ | ⟨-, rfl⟩
      · exact nodeRetry_ids hretry
      · rfl
  | timeCache => cases h; exact timeCache_ids env n
  | timeDepart => cases h; exact (timeDepart_talks env n).ids
  | main webm => cases h; rfl

/-! ## The answers to a Setup -/

/-- The packet goes to a node at this address and starts with this protocol number. -/
def Packet.IsTo (p : Packet) (a : UInt32 × UInt16) (proto : UInt8) : Prop :=
  p.daddr = a.1 ∧ p.dest = a.2 ∧ p.data.head? = some proto

instance (p : Packet) (a : UInt32 × UInt16) (proto : UInt8) : Decidable (p.IsTo a proto) :=
  inferInstanceAs (Decidable (_ ∧ _ ∧ _))

/-- The id that a packet of `SendID` hands out. -/
def Packet.givenId (p : Packet) : UInt16 := readU16 (packetData p.data.tail)

/-- The id in the first record of a packet of `SendInitialStatus`, which is the child's. -/
def Packet.recordedId (p : Packet) : UInt16 :=
  (copyBytesToNodeStatus NodeStatus.zero ((packetData p.data.tail).drop 8)).id

/-- An id is read from the bytes of the packet, whatever lies behind them. -/
theorem readU16_of_holds {buf : Buf} {l : List UInt8} (h : buf.Holds l) {i : Nat}
    (hi : i + 2 ≤ l.length) : readU16 (buf.drop i) = readU16 ((packetData l).drop i) := by
  have hsame : ∀ j, j < 2 → buf.drop i j = (packetData l).drop i j := by
    intro j hj
    rw [Buf.drop_apply, Buf.drop_apply, h (i + j) (by omega)]
    exact (Buf.overlay_holds Buf.zero l (i + j) (by omega)).symm
  rw [readU16, readU16, Buf.take_congr hsame]

theorem sendPacket_ids_carried {data : List UInt8} (hdata : carriesId data = true) (s : Slot)
    (n : Node) : (sendPacket data s n).ids =
      { n.ids with sent := n.ids.sent ++ [packetGenerate data s n] } := by
  have hsent : (n.sent ++ [packetGenerate data s n]).filter (fun p => carriesId p.data) =
      n.sent.filter (fun p => carriesId p.data) ++ [packetGenerate data s n] := by
    rw [List.filter_append, List.filter_singleton]
    simp only [packetGenerate, hdata, cond_true]
  exact congrArg (Ids.mk n.myStatus.id n.currentNodeId) hsent

theorem sendID_ids (ipaddr : UInt32) (port : UInt16) (n : Node) :
    ∃ p : Packet, (sendID ipaddr port n).ids =
        ⟨n.ids.own, n.currentNodeId + 1, n.ids.sent ++ [p]⟩ ∧
      p.IsTo (ipaddr, htons port) idProto ∧ 2 ≤ p.data.tail.length ∧
      p.givenId = n.currentNodeId + 1 := by
  let id := toBe 2 (n.currentNodeId + 1).toNat
  let l := idProto :: (id ++ (toBe 4 ipaddr.toNat).reverse)
  have hlength : l.length = 7 := by simp [l, id]
  have hdata : (Buf.zero.overlay l).take 7 = l := by
    rw [← hlength]
    exact Buf.holds_take.mp (Buf.overlay_holds _ _)
  let m := renewDstIPandMAC ipaddr (htons port) tmpId
    { n with currentNodeId := n.currentNodeId + 1 }
  have hsend : sendID ipaddr port n = sendPacket l tmpId m := by
    show sendPacket ((Buf.zero.overlay l).take 7) tmpId m = _
    rw [hdata]
  refine ⟨packetGenerate l tmpId m, ?_, ⟨rfl, rfl, rfl⟩, ?_, ?_⟩
  · rw [hsend]
    exact sendPacket_ids_carried rfl tmpId m
  · show 2 ≤ l.tail.length
    rw [List.length_tail, hlength]
    decide
  · have hholds : (packetData l.tail).Holds (id ++ (toBe 4 ipaddr.toNat).reverse) :=
      Buf.overlay_holds _ _
    show readU16 (packetData l.tail) = _
    rw [readU16, (Buf.holds_field hholds).1, ofNat_ofBe_toBe_u16]

theorem sendInitialStatus_ids (dst : Slot) {n : Node} (hmin : -1 ≤ n.currentChildNum)
    (hmax : n.currentChildNum < maxChildNum) :
    ∃ p : Packet, (sendInitialStatus dst n).ids = { n.ids with sent := n.ids.sent ++ [p] } ∧
      p.IsTo (n.dstIp dst, n.dstPort dst) initialStatusProto ∧ 28 ≤ p.data.tail.length ∧
      p.recordedId = (n.nodesStatus dst).id := by
  let front := timecodeOffsetBytes n ++ copyNodeStatusToBytes (n.nodesStatus dst)
  let rest := (n.myStatus :: (otherSlots n dst).map n.nodesStatus).flatMap copyNodeStatusToBytes
  let count : Int := if n.isConnected parentId then n.currentChildNum + 1 + 1 + 1
    else n.currentChildNum + 1 + 1
  have hfront : front.length = 38 := by
    show (timecodeOffsetBytes n ++ copyNodeStatusToBytes (n.nodesStatus dst)).length = 38
    rw [List.length_append, length_copyNodeStatusToBytes, timecodeOffsetBytes, List.length_reverse,
      length_toBe]
    rfl
  obtain ⟨k, hk⟩ : ∃ k, (UInt16.ofInt (1 + nodeStatusBytes * count + 8)).toNat = 39 + k := by
    have hnum : (maxChildNum : Int) = 2 := rfl
    have hbytes : (nodeStatusBytes : Int) = 30 := rfl
    have hcount : 1 ≤ count ∧ count ≤ 4 := by
      simp only [count]
      split <;> omega
    have hsize :
        39 ≤ 1 + nodeStatusBytes * count + 8 ∧ 1 + nodeStatusBytes * count + 8 < 2 ^ 16 := by
      rw [hbytes]
      omega
    generalize 1 + nodeStatusBytes * count + 8 = size at hsize
    have hle : 39 ≤ (size % 2 ^ 16).toNat % 2 ^ 16 := by omega
    exact ⟨_, (Nat.add_sub_of_le hle).symm⟩
  have hl : initialStatusProto :: timecodeOffsetBytes n ++
      (n.nodesStatus dst :: n.myStatus :: (otherSlots n dst).map n.nodesStatus).flatMap
        copyNodeStatusToBytes = initialStatusProto :: (front ++ rest) := by
    rw [List.flatMap_cons, List.cons_append, ← List.append_assoc]
  let buf := Buf.zero.overlay (initialStatusProto :: (front ++ rest))
  have hbuf : (buf.drop 1).Holds front :=
    (Buf.holds_append.mp (Buf.holds_cons.mp (Buf.overlay_holds _ _)).2).1
  let data := initialStatusProto :: (front ++ ((buf.drop 1).drop 38).take k)
  have hdata : buf.take (39 + k) = data := by
    have htake : (buf.drop 1).take 38 = front := by
      rw [← hfront]
      exact Buf.holds_take.mp hbuf
    show buf.take (1 + 38 + k) = data
    rw [Nat.add_assoc, Buf.take_add, Buf.take_add, htake]
    rfl
  have hsend : sendInitialStatus dst n = sendPacket data dst n := by
    rw [← hdata, ← hk]
    simp only [sendInitialStatus, hl]
    rfl
  refine ⟨packetGenerate data dst n, ?_, ⟨rfl, rfl, rfl⟩, ?_, ?_⟩
  · rw [hsend]
    exact sendPacket_ids_carried rfl dst n
  · show 28 ≤ (front ++ _).length
    rw [List.length_append, hfront]
    omega
  · have hholds : (packetData data.tail).Holds (timecodeOffsetBytes n ++
        copyNodeStatusToBytes (n.nodesStatus dst)) :=
      (Buf.holds_append.mp (Buf.overlay_holds _ _)).1
    have hrecord := (Buf.holds_append.mp hholds).2
    rw [timecodeOffsetBytes, List.length_reverse, length_toBe] at hrecord
    show (copyBytesToNodeStatus NodeStatus.zero ((packetData data.tail).drop 8)).id = _
    rw [copyBytesToNodeStatus_of_holds _ hrecord]

theorem nodeSetup_ids {env : Env} {data : Buf} {saddr : UInt32} {source : UInt16} {n n' : Node}
    (h : nodeSetup env data saddr source n = .ok n')
    (hnum : AdmitsSetup env n → -1 ≤ n.currentChildNum) :
    (¬ AdmitsSetup env n ∧ n'.ids = n.ids) ∨
      (AdmitsSetup env n ∧ ∃ p : Packet, n'.ids = { n.ids with sent := n.ids.sent ++ [p] } ∧
        p.IsTo (saddr, htons source) initialStatusProto ∧ 28 ≤ p.data.tail.length ∧
        p.recordedId = (setupLink n data saddr source).id) := by
  rcases nodeSetup_cases h with ⟨hnot, ad, rfl⟩ | ⟨hadmits, i, hchild, rfl⟩
  · exact .inl ⟨hnot, (sendAdvertise_talks env saddr (htons source) ad n).ids⟩
  · have hmax : n.currentChildNum < maxChildNum := by
      unfold checkChildNum at hchild
      split at hchild
      · assumption
      · cases hchild
    let m := setupChild data saddr (htons source) i
      (renewDstIPandMAC saddr (htons source) (childSlot i) n)
    have hm : m.ids = n.ids := setStatus_ids (childSlot_ne_myId i) ..
    have hip : m.dstIp (childSlot i) = saddr := Function.update_self ..
    have hport : m.dstPort (childSlot i) = htons source := Function.update_self ..
    have hid : (m.nodesStatus (childSlot i)).id = (setupLink n data saddr source).id := by
      show (Function.update n.nodesStatus (childSlot i) _ (childSlot i)).id = _
      rw [Function.update_self, setupLink]
      by_cases horigin : n.myStatus.id = originId
      · rw [if_pos horigin]
        exact if_pos horigin
      · rw [if_neg horigin]
        exact if_neg horigin
    obtain ⟨p, hids, hto, hlength, hrecorded⟩ :=
      sendInitialStatus_ids (childSlot i) (n := m) (hnum hadmits) hmax
    rw [hip, hport] at hto
    refine .inr ⟨hadmits, p, ?_, hto, hlength, hrecorded.trans hid⟩
    rw [setupAdmission, admitChild_ids, sendWebMHeader_ids, hids, hm]

end P2PStream
