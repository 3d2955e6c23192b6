/-
# `P2PStream.Node.Admission` — a child is admitted wholly, or nothing happens

`NodeSetup` and `NodeConnect` write the status, the address and the cursor of a slot
before they add its bit.  Between the first write and the last there is no way out, and
every earlier one leaves the links alone.  The slot is one whose bit is clear, whatever
the counter says.
-/
import P2PStream.Node.Links

namespace P2PStream

open Lib

/-! ## Requests -/

/-- A packet that asks for a place as a child. -/
inductive Request where
  | setup (data : Buf) (saddr : UInt32) (source : UInt16)
  | connect (data : Buf)

namespace Request

/-- Its handler. -/
def handle (env : Env) (n : Node) : Request → Except Fault Node
  | .setup data saddr source => nodeSetup env data saddr source n
  | .connect data => nodeConnect env data n

/-- What the status table will say of the sender. -/
def link (n : Node) : Request → Link
  | .setup data saddr source => setupLink n data saddr source
  | .connect data => readLink data

/-- Where the sender is. -/
def address : Request → UInt32 × UInt16
  | .setup _ saddr source => (saddr, htons source)
  | .connect data => (htonl (readLink data).ipaddr, (readLink data).port)

end Request

/-! ## The two outcomes -/

/-- A cursor at the head of a cluster. -/
def IsInitCursor (block : Block) : Prop :=
  block.prev.status = statusInit ∧ block.info = BlockInfo.zero ∧ block.prev.seq = 0 ∧
    block.prev.pos = UInt32.ofNat clusterHeaderBytes ∧ block.prev.bytes = 0

/-- The sender of `r` has taken slot `i`, and nothing else has changed. -/
structure Admitted (r : Request) (i : Fin maxChildNum) (n n' : Node) : Prop where
  free : n.isConnected (childSlot i) = false
  bits : ∀ j, n'.connectedNodes.getLsbD j = (n.connectedNodes.getLsbD j || decide (i.val = j))
  count : n'.currentChildNum = n.currentChildNum + 1
  sender : (n'.nodesStatus (childSlot i)).link = r.link n
  address : (n'.dstIp (childSlot i), n'.dstPort (childSlot i)) = r.address
  cursor : IsInitCursor (n'.webm.currentChildBlock i)
  statuses : ∀ s, s ≠ childSlot i → n'.nodesStatus s = n.nodesStatus s
  addresses : ∀ s, s ≠ childSlot i → n'.dstIp s = n.dstIp s ∧ n'.dstPort s = n.dstPort s
  cursors : ∀ j, j ≠ i → n'.webm.currentChildBlock j = n.webm.currentChildBlock j

/-- Nobody was admitted: at most the scratch address has changed. -/
structure Untouched (n n' : Node) : Prop where
  connectedNodes : n'.connectedNodes = n.connectedNodes
  count : n'.currentChildNum = n.currentChildNum
  statuses : n'.nodesStatus = n.nodesStatus
  addresses : ∀ s, s ≠ tmpId → n'.dstIp s = n.dstIp s ∧ n'.dstPort s = n.dstPort s
  cursors : n'.webm.currentChildBlock = n.webm.currentChildBlock

/-- The child in slot `i` is the same. -/
structure SameChild (i : Fin maxChildNum) (n n' : Node) : Prop where
  connected : n'.isConnected (childSlot i) = true
  status : n'.nodesStatus (childSlot i) = n.nodesStatus (childSlot i)
  address : n'.dstIp (childSlot i) = n.dstIp (childSlot i) ∧
    n'.dstPort (childSlot i) = n.dstPort (childSlot i)
  cursor : n'.webm.currentChildBlock i = n.webm.currentChildBlock i

section Outcomes

variable {n n' : Node} {r : Request} {i j : Fin maxChildNum}

theorem Untouched.sameChild (h : Untouched n n') (hj : n.isConnected (childSlot j) = true) :
    SameChild j n n' := by
  refine ⟨?_, congrFun h.statuses _, h.addresses _ (childSlot_ne_myId j), congrFun h.cursors j⟩
  rw [Node.isConnected, h.connectedNodes]
  exact hj

theorem Admitted.sameChild (h : Admitted r i n n') (hj : n.isConnected (childSlot j) = true) :
    SameChild j n n' := by
  have hne : j ≠ i := by
    rintro rfl
    rw [h.free] at hj
    cases hj
  have hslot : childSlot j ≠ childSlot i := fun heq => hne (childSlot_inj.mp heq)
  refine ⟨?_, h.statuses _ hslot, h.addresses _ hslot, h.cursors j hne⟩
  rw [Node.isConnected, h.bits]
  exact Bool.or_eq_true_iff.mpr (.inl hj)

theorem admitted_of_update {status : NodeStatus} {block : Block}
    (hi : checkChildNum n = some i)
    (hbits : n'.connectedNodes = n.connectedNodes + BitVec.twoPow 8 i)
    (hcount : n'.currentChildNum = n.currentChildNum + 1)
    (hstatus : n'.nodesStatus = Function.update n.nodesStatus (childSlot i) status)
    (hip : n'.dstIp = Function.update n.dstIp (childSlot i) r.address.1)
    (hport : n'.dstPort = Function.update n.dstPort (childSlot i) r.address.2)
    (hcursor : n'.webm.currentChildBlock = Function.update n.webm.currentChildBlock i block)
    (hsender : status.link = r.link n) (hblock : IsInitCursor block) : Admitted r i n n' where
  free := checkChildNum_clear hi
  bits j := by
    have hclear : n.connectedNodes.getLsbD i = false := checkChildNum_clear hi
    have hlt : i.val < 8 := lt_trans i.isLt (by decide)
    rw [hbits, SlotBits.getLsbD_add_twoPow_of_clear hclear]
    simp only [hlt, true_and]
  count := hcount
  sender := by rw [hstatus, Function.update_self, hsender]
  address := by rw [hip, hport, Function.update_self, Function.update_self]
  cursor := by rwa [hcursor, Function.update_self]
  statuses s hs := by rw [hstatus, Function.update_of_ne hs]
  addresses s hs := by
    rw [hip, hport, Function.update_of_ne hs, Function.update_of_ne hs]
    exact ⟨rfl, rfl⟩
  cursors j hj := by rw [hcursor, Function.update_of_ne hj]

end Outcomes

/-! ## The handlers -/

section Handlers

variable {env : Env} {n : Node} {i : Fin maxChildNum}

theorem admitChild_nodesStatus {m : Node} {status : NodeStatus}
    (h : m.nodesStatus = Function.update n.nodesStatus (childSlot i) status) :
    (admitChild env i m).nodesStatus = Function.update n.nodesStatus (childSlot i)
      { status with timestamp := m.stamp env } := by
  show Function.update m.nodesStatus (childSlot i)
    { m.nodesStatus (childSlot i) with timestamp := m.stamp env } = _
  rw [h, Function.update_self, Function.update_idem]

theorem setupAdmission_admitted {data : Buf} {saddr : UInt32} {source : UInt16}
    (hi : checkChildNum n = some i) :
    Admitted (.setup data saddr source) i n (setupAdmission env data saddr source i n) := by
  refine admitted_of_update hi rfl rfl (admitChild_nodesStatus rfl) rfl rfl rfl ?_
    ⟨rfl, rfl, rfl, rfl, rfl⟩
  show Link.mk (if n.myStatus.id = originId then _ else _)
    (if n.myStatus.id = originId then _ else _) _ = setupLink n data saddr source
  rw [setupLink]
  split <;> rfl

theorem connectAdmission_admitted {data : Buf} (hi : checkChildNum n = some i) :
    Admitted (.connect data) i n (connectAdmission env data i n) :=
  admitted_of_update hi rfl rfl (admitChild_nodesStatus rfl) rfl rfl rfl rfl
    ⟨rfl, rfl, rfl, rfl, rfl⟩

theorem untouched_renewDst (ip : UInt32) (port : UInt16) (n : Node) :
    Untouched n (renewDstIPandMAC ip port tmpId n) where
  connectedNodes := rfl
  count := rfl
  statuses := rfl
  addresses _ hs := ⟨Function.update_of_ne hs .., Function.update_of_ne hs ..⟩
  cursors := rfl

theorem Untouched.refl (n : Node) : Untouched n n := ⟨rfl, rfl, rfl, fun _ _ => ⟨rfl, rfl⟩, rfl⟩

/-- Every Setup and every Connect, in every state, is admitted to a free slot or leaves the links
alone; occupied slots are the same behind it. -/
theorem request_allOrNothing (r : Request) (n n' : Node) (h : r.handle env n = .ok n') :
    ((∃ i, Admitted r i n n') ∨ Untouched n n') ∧
      ∀ j, n.isConnected (childSlot j) = true → SameChild j n n' := by
  have hcases : (∃ i, Admitted r i n n') ∨ Untouched n n' := by
    cases r with
    | setup data saddr source =>
        rcases nodeSetup_cases h with ⟨-, ad, rfl⟩ | ⟨-, i, hi, rfl⟩
        · obtain ⟨hconnected, hcount, hstatuses, haddresses, hcursors⟩ :=
            untouched_renewDst saddr (htons source) n
          exact .inr ⟨hconnected, hcount, hstatuses, haddresses, hcursors⟩
        · exact .inl ⟨i, setupAdmission_admitted hi⟩
    | connect data =>
        rcases nodeConnect_cases h with ⟨-, rfl | rfl⟩ | ⟨-, i, hi, rfl⟩
        · exact .inr (.refl _)
        · obtain ⟨hconnected, hcount, hstatuses, haddresses, hcursors⟩ :=
            untouched_renewDst (htonl (readLink data).ipaddr) (readLink data).port n
          exact .inr ⟨hconnected, hcount, hstatuses, haddresses, hcursors⟩
        · exact .inl ⟨i, connectAdmission_admitted hi⟩
  refine ⟨hcases, fun j hj => ?_⟩
  rcases hcases with ⟨i, hadmitted⟩ | huntouched
  · exact hadmitted.sameChild hj
  · exact huntouched.sameChild hj

end Handlers

/-- A Connect of node 5 to a peer whose cache is full. -/
theorem request_allOrNothing_connect : ∃ (r : Request) (n n' : Node),
    r.handle (Env.clock Timeval.zero) n = .ok n' ∧ n'.currentChildNum = 1 ∧
      n'.connectedNodes = 1#8 ∧ ((∃ i, Admitted r i n n') ∨ Untouched n n') ∧
      ∀ j, n.isConnected (childSlot j) = true → SameChild j n n' := by
  have hok : Request.handle (Env.clock Timeval.zero) { firstPeer with currentCache := defaultCache }
      (.connect (packetData (copyNodeStatusToBytes (statusOf 5 6 12350 0)))) = .ok _ := rfl
  exact ⟨_, _, _, hok, rfl, rfl, request_allOrNothing _ _ _ hok⟩

end P2PStream
