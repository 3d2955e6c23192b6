/-
# `P2PStream.Node.Links` — what an event does to a node's links

`Links` is the part of a node that says who it is linked to: the byte of taken
slots, the child counter, and for the two children and the parent what the status
table and the address table hold.  It is a small machine of its own: children are
admitted and dropped, the parent is joined and left, the parent's address is
changed.

`step_links` says once, for every event, which of these the event does.  The
invariants of the tables are proved from it, without looking at a handler again.
-/
import P2PStream.Lib.SlotBits
import P2PStream.Node.Changes

namespace P2PStream

open Lib

/-! ## The machine -/

/-- What the status table says of a linked node. -/
structure Link where
  id : UInt16
  ipaddr : UInt32
  port : UInt16
  deriving DecidableEq, Repr

def NodeStatus.link (s : NodeStatus) : Link := ⟨s.id, s.ipaddr, s.port⟩

/-- A child or the parent: a slot other than the scratch slot. -/
abbrev LinkSlot := Fin 3

instance linkSlot_neZero : NeZero 3 := ⟨by decide⟩

def LinkSlot.child (i : Fin maxChildNum) : LinkSlot := i.castSucc
def LinkSlot.parent : LinkSlot := 2

theorem LinkSlot.child_inj {i j : Fin maxChildNum} : LinkSlot.child i = LinkSlot.child j ↔ i = j :=
  Fin.castSucc_inj

/-- The links of a node; an address is a pair of `DST_IP` and `DST_PORT`. -/
structure Links where
  connected : BitVec 8
  count : Int
  link : LinkSlot → Link
  address : LinkSlot → UInt32 × UInt16

def Node.links (n : Node) : Links where
  connected := n.connectedNodes
  count := n.currentChildNum
  link := fun s => (n.nodesStatus s.castSucc).link
  address := fun s => (n.dstIp s.castSucc, n.dstPort s.castSucc)

namespace Links

variable (l : Links)

def isConnected (s : LinkSlot) : Bool := l.connected.getLsbD s

/-- A child takes slot `i`. -/
def admitNode (i : Fin maxChildNum) (k : Link) (a : UInt32 × UInt16) : Links where
  connected := l.connected + BitVec.twoPow 8 i
  count := l.count + 1
  link := Function.update l.link (LinkSlot.child i) k
  address := Function.update l.address (LinkSlot.child i) a

/-- The bit of slot `s` is subtracted, and the counter falls. -/
def drop (s : Slot) : Links :=
  { l with connected := l.connected - BitVec.twoPow 8 s, count := l.count - 1 }

/-- Every child slot that records the id is dropped, connected or not. -/
def depart (id : UInt16) : Links :=
  let l := if (l.link 0).id = id then l.drop 0 else l
  if (l.link 1).id = id then l.drop 1 else l

/-- The parent's record is replaced. -/
def record (k : Link) : Links := { l with link := Function.update l.link LinkSlot.parent k }

/-- The parent's bit is added. -/
def join : Links := { l with connected := l.connected + BitVec.twoPow 8 2 }

/-- The parent's bit is subtracted. -/
def leave : Links := { l with connected := l.connected - BitVec.twoPow 8 2 }

/-- The parent's address is replaced. -/
def redirect (a : UInt32 × UInt16) : Links :=
  { l with address := Function.update l.address LinkSlot.parent a }

variable {l}

theorem isConnected_admitNode {i : Fin maxChildNum} (k : Link) (a : UInt32 × UInt16)
    (hi : l.isConnected (LinkSlot.child i) = false) (s : LinkSlot) :
    (l.admitNode i k a).isConnected s = (l.isConnected s || decide (LinkSlot.child i = s)) := by
  have hslot : (LinkSlot.child i).val < 8 ∧ (LinkSlot.child i).val = s.val ↔
      LinkSlot.child i = s :=
    ⟨fun h => Fin.ext h.2, fun h =>
      ⟨Nat.lt_of_lt_of_le (LinkSlot.child i).isLt (by decide), h ▸ rfl⟩⟩
  have hbit := SlotBits.getLsbD_add_twoPow_of_clear hi s
  simp only [hslot] at hbit
  exact hbit

theorem isConnected_drop {t : Slot} (ht : l.connected.getLsbD t = true) (s : LinkSlot) :
    (l.drop t).isConnected s = (l.isConnected s && decide (t.val ≠ s.val)) :=
  SlotBits.getLsbD_sub_twoPow_of_set ht s

/-- The parent's bit is above the children's: adding it moves none of them. -/
theorem isConnected_join_child (i : Fin maxChildNum) :
    l.join.isConnected (LinkSlot.child i) = l.isConnected (LinkSlot.child i) :=
  SlotBits.getLsbD_add_twoPow_lt i.isLt l.connected

theorem isConnected_leave_child (i : Fin maxChildNum) :
    l.leave.isConnected (LinkSlot.child i) = l.isConnected (LinkSlot.child i) :=
  SlotBits.getLsbD_sub_twoPow_lt i.isLt l.connected

theorem isConnected_join_parent :
    l.join.isConnected LinkSlot.parent = !l.isConnected LinkSlot.parent :=
  SlotBits.getLsbD_add_twoPow_self (by decide) l.connected

theorem isConnected_leave_parent :
    l.leave.isConnected LinkSlot.parent = !l.isConnected LinkSlot.parent :=
  SlotBits.getLsbD_sub_twoPow_self (by decide) l.connected

theorem child_ne_parent (i : Fin maxChildNum) : LinkSlot.child i ≠ LinkSlot.parent := by
  revert i
  decide

@[simp] theorem depart_link (id : UInt16) : (l.depart id).link = l.link := by
  simp only [depart]
  split <;> split <;> rfl

@[simp] theorem depart_address (id : UInt16) : (l.depart id).address = l.address := by
  simp only [depart]
  split <;> split <;> rfl

end Links

/-! ## What leaves the links alone -/

theorem castSucc_ne_scratch (s : LinkSlot) : s.castSucc ≠ tmpId ∧ s.castSucc ≠ myId := by
  revert s
  decide

@[simp] theorem sendData_links (l : List UInt8) (k : Int) (s : Slot) (n : Node) :
    (sendData l k s n).links = n.links := rfl

@[simp] theorem renewDst_links (ip : UInt32) (port : UInt16) (n : Node) :
    (renewDstIPandMAC ip port tmpId n).links = n.links := by
  simp only [Node.links, renewDstIPandMAC, Function.update_of_ne (castSucc_ne_scratch _).1]

@[simp] theorem setMyStatus_links (s : NodeStatus) (n : Node) :
    (n.setStatus myId s).links = n.links := by
  simp only [Node.links, Node.setStatus, Function.update_of_ne (castSucc_ne_scratch _).2]

theorem Talks.links {n n' : Node} (h : Talks n n') : n'.links = n.links := by
  obtain ⟨ip, port, ps, rfl, -⟩ := h
  exact renewDst_links ip port n

theorem Distributes.links {n n' : Node} (h : Distributes n n') : n'.links = n.links := by
  obtain ⟨x, y, blocks, ps, rfl, -⟩ := h
  rfl

/-! ## What the handlers do -/

/-- The status that `NodeSetup` records for a child. -/
def setupLink (n : Node) (data : Buf) (saddr : UInt32) (source : UInt16) : Link :=
  if n.myStatus.id = originId then ⟨n.currentNodeId, htonl saddr, htons source⟩
  else ⟨readU16 (data.drop 4), readU32 (data.drop 6), htons source⟩

/-- The node that a message's record names. -/
def readLink (data : Buf) : Link := (copyBytesToNodeStatus NodeStatus.zero data).link

theorem castSucc_eq_childSlot {s : LinkSlot} {i : Fin maxChildNum} :
    s.castSucc = childSlot i ↔ s = LinkSlot.child i := by
  revert s i
  decide

theorem childSlot_inj {i j : Fin maxChildNum} : childSlot i = childSlot j ↔ i = j := by
  revert i j
  decide

theorem childSlot_ne_myId (i : Fin maxChildNum) : childSlot i ≠ myId := by
  revert i
  decide

theorem castSucc_eq_parentId {s : LinkSlot} : s.castSucc = parentId ↔ s = LinkSlot.parent := by
  revert s
  decide

@[simp] theorem setChildStatus_links (i : Fin maxChildNum) (s : NodeStatus) (n : Node) :
    (n.setStatus (childSlot i) s).links
      = { n.links with link := Function.update n.links.link (LinkSlot.child i) s.link } := by
  simp only [Node.links, Node.setStatus, Links.mk.injEq, true_and, and_true]
  funext t
  simp only [Function.update_apply, castSucc_eq_childSlot]
  split <;> rfl

@[simp] theorem setParentStatus_links (s : NodeStatus) (n : Node) :
    (n.setStatus parentId s).links = n.links.record s.link := by
  simp only [Node.links, Node.setStatus, Links.record, Links.mk.injEq, true_and, and_true]
  funext t
  simp only [Function.update_apply, castSucc_eq_parentId]
  split <;> rfl

@[simp] theorem renewDstChild_links (ip : UInt32) (port : UInt16) (i : Fin maxChildNum) (n : Node) :
    (renewDstIPandMAC ip port (childSlot i) n).links = { n.links with
      address := Function.update n.links.address (LinkSlot.child i) (ip, port) } := by
  simp only [Node.links, renewDstIPandMAC, Links.mk.injEq, true_and]
  funext t
  simp only [Function.update_apply, castSucc_eq_childSlot]
  split <;> rfl

@[simp] theorem renewDstParent_links (ip : UInt32) (port : UInt16) (n : Node) :
    (renewDstIPandMAC ip port parentId n).links = n.links.redirect (ip, port) := by
  simp only [Node.links, renewDstIPandMAC, Links.redirect, Links.mk.injEq, true_and]
  funext t
  simp only [Function.update_apply, castSucc_eq_parentId]
  split <;> rfl

@[simp] theorem admitChild_links (env : Env) (i : Fin maxChildNum) (n : Node) :
    (admitChild env i n).links = { n.links with
      connected := n.links.connected + BitVec.twoPow 8 i, count := n.links.count + 1 } := by
  have hstamp : (n.setStatus (childSlot i)
      { n.nodesStatus (childSlot i) with timestamp := n.stamp env }).links = n.links := by
    rw [setChildStatus_links]
    simp only [Node.links, Links.mk.injEq, true_and, and_true]
    funext t
    rw [Function.update_apply]
    split
    · next h => rw [castSucc_eq_childSlot.mpr h]; rfl
    · rfl
  simp only [Node.links, Links.mk.injEq] at hstamp
  simp only [admitChild, Node.links, Node.connect, hstamp, Links.mk.injEq, and_true]
  rfl

@[simp] theorem sendWebMHeader_links (s : Slot) (n : Node) : (sendWebMHeader s n).links = n.links :=
  rfl

@[simp] theorem sendInitialStatus_links (s : Slot) (n : Node) :
    (sendInitialStatus s n).links = n.links := rfl

@[simp] theorem sendAccept_links (s : Slot) (n : Node) : (sendAccept s n).links = n.links := rfl

theorem setupChild_links (data : Buf) (saddr : UInt32) (source : UInt16) (i : Fin maxChildNum)
    (n : Node) : (setupChild data saddr (htons source) i n).links = { n.links with
      link := Function.update n.links.link (LinkSlot.child i)
        (setupLink n data saddr source) } := by
  rw [setupChild, setChildStatus_links, setupLink]
  by_cases h : n.myStatus.id = originId
  · simp only [if_pos h]
    rfl
  · simp only [if_neg h]
    rfl

theorem connectChild_links (data : Buf) (i : Fin maxChildNum) (n : Node) :
    (connectChild data i n).links = { n.links with
      link := Function.update n.links.link (LinkSlot.child i) (readLink data) } := by
  rw [connectChild, setChildStatus_links]
  rfl

/-- `NodeSetup` takes the sender as a child. -/
def AdmitsSetup (env : Env) (n : Node) : Prop :=
  generateRndID env.rand 0 (n.currentChildNum + 1) n = some myId ∧
    ¬ n.currentCache < defaultCache ∧ checkChildNum n ≠ none

/-- `NodeConnect` takes the sender as a child. -/
def AdmitsConnect (env : Env) (id : UInt16) (n : Node) : Prop :=
  ¬ n.currentCache < defaultCache ∧ checkChildNum n ≠ none ∧ isDuplicatedChild id env n = false

/-- The node that took the sender of a Setup into slot `i`. -/
def setupAdmission (env : Env) (data : Buf) (saddr : UInt32) (source : UInt16) (i : Fin maxChildNum)
    (n : Node) : Node :=
  admitChild env i (sendWebMHeader (childSlot i) (sendInitialStatus (childSlot i)
    (setupChild data saddr (htons source) i
      (renewDstIPandMAC saddr (htons source) (childSlot i) n))))

/-- The node that took the sender of a Connect into slot `i`. -/
def connectAdmission (env : Env) (data : Buf) (i : Fin maxChildNum) (n : Node) : Node :=
  admitChild env i (sendAccept (childSlot i) (connectChild data i
    (renewDstIPandMAC (htonl (readLink data).ipaddr) (readLink data).port (childSlot i) n)))

/-- A Setup is answered with an Advertise, or its sender is taken as a child. -/
theorem nodeSetup_cases {env : Env} {data : Buf} {saddr : UInt32} {source : UInt16} {n n' : Node}
    (h : nodeSetup env data saddr source n = .ok n') :
    (¬ AdmitsSetup env n ∧ ∃ ad, n' = sendAdvertise env tmpId ad
        (renewDstIPandMAC saddr (htons source) tmpId n)) ∨
      (AdmitsSetup env n ∧ ∃ i, checkChildNum n = some i ∧
        n' = setupAdmission env data saddr source i n) := by
  simp only [nodeSetup] at h
  split at h
  · next hrnd =>
    cases h
    exact .inl ⟨fun hadm => hrnd hadm.1, _, rfl⟩
  · next hrnd =>
    split at h
    · next hcache =>
      cases h
      exact .inl ⟨fun hadm => hadm.2.1 hcache, _, rfl⟩
    · next hcache =>
      split at h
      · next hnone =>
        cases h
        exact .inl ⟨fun hadm => hadm.2.2 hnone, _, rfl⟩
      · next i hchild =>
        split at h
        · cases h
        · cases h
          exact .inr ⟨⟨not_not.mp hrnd, hcache, by simp [hchild]⟩, i, hchild, rfl⟩

/-- A Connect is answered with an Unaccept or, of a child, with nothing, or its sender is taken as a
child. -/
theorem nodeConnect_cases {env : Env} {data : Buf} {n n' : Node}
    (h : nodeConnect env data n = .ok n') :
    (¬ AdmitsConnect env (readLink data).id n ∧ (n' = n ∨ n' = sendUnaccept tmpId
        (renewDstIPandMAC (htonl (readLink data).ipaddr) (readLink data).port tmpId n))) ∨
      (AdmitsConnect env (readLink data).id n ∧ ∃ i, checkChildNum n = some i ∧
        n' = connectAdmission env data i n) := by
  simp only [nodeConnect] at h
  split at h
  · next hcache =>
    cases h
    exact .inl ⟨fun hadm => hadm.1 hcache, .inr rfl⟩
  · next hcache =>
    split at h
    · next hnone =>
      cases h
      exact .inl ⟨fun hadm => hadm.2.1 hnone, .inr rfl⟩
    · next i hchild =>
      split at h
      · next hdup =>
        cases h
        exact .inl ⟨fun hadm => Bool.eq_false_iff.mp hadm.2.2 hdup, .inl rfl⟩
      · next hdup =>
        split at h
        · cases h
        · cases h
          exact .inr ⟨⟨hcache, by simp [hchild], Bool.eq_false_iff.mpr hdup⟩, i, hchild, rfl⟩

theorem nodeSetup_links {env : Env} {data : Buf} {saddr : UInt32} {source : UInt16} {n n' : Node}
    (h : nodeSetup env data saddr source n = .ok n') :
    (¬ AdmitsSetup env n ∧ n'.links = n.links) ∨
      (AdmitsSetup env n ∧ ∃ i, checkChildNum n = some i ∧
        n'.links = n.links.admitNode i (setupLink n data saddr source) (saddr, htons source)) := by
  rcases nodeSetup_cases h with ⟨hnot, ad, rfl⟩ | ⟨hadm, i, hi, rfl⟩
  · exact .inl ⟨hnot, (sendAdvertise_talks env saddr (htons source) ad n).links⟩
  · refine .inr ⟨hadm, i, hi, ?_⟩
    rw [setupAdmission, admitChild_links, sendWebMHeader_links, sendInitialStatus_links,
      setupChild_links, renewDstChild_links]
    rfl

theorem nodeConnect_links {env : Env} {data : Buf} {n n' : Node}
    (h : nodeConnect env data n = .ok n') :
    (¬ AdmitsConnect env (readLink data).id n ∧ n'.links = n.links) ∨
      (AdmitsConnect env (readLink data).id n ∧ ∃ i, checkChildNum n = some i ∧
        n'.links = n.links.admitNode i (readLink data)
          (htonl (readLink data).ipaddr, (readLink data).port)) := by
  rcases nodeConnect_cases h with ⟨hnot, rfl | rfl⟩ | ⟨hadm, i, hi, rfl⟩
  · exact .inl ⟨hnot, rfl⟩
  · exact .inl ⟨hnot, (sendUnaccept_talks _ _ n).links⟩
  · refine .inr ⟨hadm, i, hi, ?_⟩
    rw [connectAdmission, admitChild_links, sendAccept_links, connectChild_links,
      renewDstChild_links]
    rfl

theorem departChild_links (id : UInt16) (i : Fin maxChildNum) (n : Node) (seq : UInt16) :
    (departChild id i n seq).1.links =
      if (n.links.link (LinkSlot.child i)).id = id then n.links.drop (childSlot i)
      else n.links := by
  have hlink : (n.links.link (LinkSlot.child i)).id = (n.nodesStatus (childSlot i)).id := by
    rw [← castSucc_eq_childSlot.mpr rfl]
    rfl
  rw [hlink, departChild]
  split <;> rfl

theorem nodeDepart_links {env : Env} {data : Buf} {n n' : Node}
    (h : nodeDepart env data n = .ok n') : n'.links = n.links.depart (readLink data).id := by
  simp only [nodeDepart] at h
  split at h
  · cases h
  · cases h
    simp only [sendDetach, sendData_links, renewDst_links, departChild_links]
    rfl

theorem nodeInitialStatus_links (env : Env) (data : Buf) (k : UInt16) (n : Node) :
    (nodeInitialStatus env data k n).links =
      (n.links.record (readLink (data.drop (nodeStatusBytes + 8)))).join := by
  let my := copyBytesToNodeStatus n.myStatus (data.drop 8)
  let parent := copyBytesToNodeStatus (n.nodesStatus parentId) (data.drop (nodeStatusBytes + 8))
  show ((n.setStatus myId my).setStatus parentId
    { parent with timestamp := n.stamp env }).links.join = _
  rw [setParentStatus_links, setMyStatus_links]
  rfl

theorem nodeAdvertise_links (env : Env) (data : Buf) (k : UInt16) (n : Node) :
    (nodeAdvertise env data k n).links = n.links.redirect
      (htonl (gtoPIP (copyBytesToNodeStatus NodeStatus.zero data) n), (readLink data).port) := by
  refine (nodeAdvertise_talks env data k n).links.trans ?_
  exact renewDstParent_links (htonl (gtoPIP (copyBytesToNodeStatus NodeStatus.zero data) n))
    (readLink data).port n

theorem nodeAccept_links (env : Env) (data : Buf) (n : Node) :
    (nodeAccept env data n).links =
      if n.isConnected parentId then n.links.record (readLink data)
      else (n.links.record (readLink data)).join := by
  obtain ⟨parent, offset, connected, hafter, hparent, -, hconnected⟩ :=
    nodeAccept_changes env data n
  have hrecorded : ((n.setStatus parentId parent).setStatus myId
      { n.myStatus with layer := parent.layer + 1 }).links = n.links.record (readLink data) := by
    rw [setMyStatus_links, setParentStatus_links, hparent]
    rfl
  have hlinks : (nodeAccept env data n).links =
      { n.links.record (readLink data) with connected := connected } := by
    rw [hafter, ← hrecorded]
    rfl
  rw [hlinks, hconnected]
  unfold Node.isConnected
  split <;> rfl

theorem nodeRetry_links {env : Env} {n n' : Node} (h : nodeRetry env n = .ok n') :
    n'.links = n.links := by
  obtain ⟨prior, _, _, -, -, rfl⟩ := nodeRetry_asks h
  exact (connectTo_talks prior _).links.trans (setMyStatus_links ..)

theorem nodeDetach_links {env : Env} {data : Buf} {n n' : Node}
    (h : nodeDetach env data n = .ok n') :
    ∃ id, n'.links = (n.links.record { n.links.link LinkSlot.parent with id := id }).leave := by
  obtain ⟨prior, _, -, rfl⟩ := nodeDetach_asks h
  refine ⟨prior.id, (connectTo_talks prior _).links.trans ?_⟩
  rw [setParentStatus_links, setMyStatus_links]
  rfl

theorem timeout_links {env : Env} {s : Slot} {n n' : Node} (h : timeout env s n = .ok n') :
    n'.links = if isTimedOut env s n then n.links.drop s else n.links := by
  rcases timeout_cases h with ⟨hin, rfl⟩ | ⟨hout, ⟨-, rfl⟩ | ⟨-, hretry⟩⟩
  · rw [hin]
    rfl
  · rw [hout]
    rfl
  · rw [hout, nodeRetry_links hretry]
    rfl

/-! ## The start -/

/-- No slot is connected at the start, and each holds the address that its record names. -/
theorem Started.links {program : Program} {n : Node} (h : Started program n) :
    n.links.connected = 0#8 ∧ n.links.count = 0 ∧
      ∀ s, n.links.address s = (htonl (n.links.link s).ipaddr, (n.links.link s).port) := by
  cases h with
  | origin srcIp file start blocks current prev =>
      have hlinks : (originStart srcIp file start blocks current prev).links
          = ⟨0#8, 0, fun _ => ⟨0, 0, 0⟩, fun _ => (0, 0)⟩ := by
        let my := { NodeStatus.zero with
          ipaddr := htonl srcIp, pIpaddr := htonl srcIp, port := osPort, id := originId }
        show ((Node.boot srcIp osPort file start blocks).setStatus myId my).links = _
        rw [setMyStatus_links]
        rfl
      rw [hlinks]
      exact ⟨rfl, rfl, fun _ => by rw [htonl_zero]⟩
  | peer env srcIp originIp srcPort start blocks =>
      let boot := Node.boot srcIp srcPort [] start blocks
      let parent := { NodeStatus.zero with
        ipaddr := htonl originIp, port := osPort, id := originId }
      have hlinks : (peerStart env srcIp originIp srcPort start blocks).links
          = (boot.links.redirect (originIp, osPort)).record parent.link := by
        refine (sendSetup_talks _).links.trans ?_
        show (((renewDstIPandMAC originIp osPort parentId boot).setStatus parentId parent).setStatus
          myId _).links = _
        rw [setMyStatus_links, setParentStatus_links, renewDstParent_links]
      rw [hlinks]
      refine ⟨rfl, rfl, fun s => ?_⟩
      simp only [Links.redirect, Links.record, Function.update_apply]
      split
      · simp [parent, NodeStatus.link]
      · show ((0, 0) : UInt32 × UInt16) = (htonl 0, 0)
        rw [htonl_zero]

/-! ## What an event does -/

theorem receiveSetup_links (program : Program) (k : UInt16) (saddr : UInt32) (source : UInt16)
    (n : Node) : (receiveSetup program k saddr source n).links = n.links := by
  cases program with
  | origin =>
      simp only [receiveSetup]
      split
      · rw [sendID, sendData_links, renewDst_links]
        rfl
      · rfl
  | peer => rfl

theorem receiveSetup_webm (program : Program) (k : UInt16) (saddr : UInt32) (source : UInt16)
    (n : Node) : (receiveSetup program k saddr source n).webm = n.webm := by
  cases program with
  | origin =>
      simp only [receiveSetup]
      split <;> rfl
  | peer => rfl

theorem checkChildNum_receiveSetup (program : Program) (k : UInt16) (saddr : UInt32)
    (source : UInt16) (n : Node) :
    checkChildNum (receiveSetup program k saddr source n) = checkChildNum n := by
  cases program with
  | origin =>
      simp only [receiveSetup]
      split <;> rfl
  | peer => rfl

theorem admitsSetup_receiveSetup (env : Env) (program : Program) (k : UInt16) (saddr : UInt32)
    (source : UInt16) (n : Node) :
    AdmitsSetup env (receiveSetup program k saddr source n) ↔ AdmitsSetup env n := by
  cases program with
  | origin =>
      simp only [receiveSetup]
      split <;> rfl
  | peer => rfl

theorem checkChildNum_clear {n : Node} {i : Fin maxChildNum} (h : checkChildNum n = some i) :
    n.links.isConnected (LinkSlot.child i) = false := by
  unfold checkChildNum at h
  split at h
  · have hfree := List.find?_some h
    rwa [Bool.not_eq_true'] at hfree
  · cases h

theorem isConnected_of_isTimedOut {env : Env} {s : Slot} {n : Node}
    (h : isTimedOut env s n = true) : n.links.connected.getLsbD s = true := by
  unfold isTimedOut at h
  exact (Bool.and_eq_true_iff.mp (Bool.and_eq_true_iff.mp h).1).1

/-- The links after an event; events that are not named leave them alone. -/
def LinksAfter (program : Program) (env : Env) (n : Node) (l : Links) : Event → Prop
  | .setup data k saddr source => (¬ AdmitsSetup env n ∧ l = n.links) ∨
      (AdmitsSetup env n ∧ ∃ i, checkChildNum n = some i ∧
        l = n.links.admitNode i
          (setupLink (receiveSetup program k saddr source n) data saddr source)
          (saddr, htons source))
  | .connect data => (¬ AdmitsConnect env (readLink data).id n ∧ l = n.links) ∨
      (AdmitsConnect env (readLink data).id n ∧ ∃ i, checkChildNum n = some i ∧
        l = n.links.admitNode i (readLink data)
          (htonl (readLink data).ipaddr, (readLink data).port))
  | .initialStatus data _ =>
      l = (n.links.record (readLink (data.drop (nodeStatusBytes + 8)))).join
  | .advertise data _ => l = n.links.redirect
      (htonl (gtoPIP (copyBytesToNodeStatus NodeStatus.zero data) n), (readLink data).port)
  | .depart data => l = n.links.depart (readLink data).id
  | .detach _ =>
      ∃ id, l = (n.links.record { n.links.link LinkSlot.parent with id := id }).leave
  | .accept data =>
      match program with
      | .origin => l = n.links
      | .peer => l = if n.isConnected parentId then n.links.record (readLink data)
          else (n.links.record (readLink data)).join
  | .timeout s => l = if isTimedOut env s n then n.links.drop s else n.links
  | _ => l = n.links

theorem timeCache_links (env : Env) (n : Node) : (timeCache env n).links = n.links := by
  obtain ⟨_, _, _, _, _, _, hafter⟩ := timeCache_changes env n
  rw [hafter]
  rfl

theorem nodeKeepAliveRes_links (env : Env) (data : Buf) (n : Node) :
    (nodeKeepAliveRes env data n).links = n.links := by
  simp only [nodeKeepAliveRes, Node.links, Links.mk.injEq, true_and, and_true]
  funext s
  split <;> rfl

/-- What an event does to the links. -/
theorem step_links {program : Program} {env : Env} {n n' : Node} {e : Event}
    (h : n.step program env e = .ok n') : LinksAfter program env n n'.links e := by
  cases e with
  | setup data k saddr source =>
      rcases nodeSetup_links h with ⟨hno, hsame⟩ | ⟨hyes, i, hchild, hadm⟩
      · rw [admitsSetup_receiveSetup] at hno
        exact Or.inl ⟨hno, hsame.trans (receiveSetup_links program k saddr source n)⟩
      · rw [admitsSetup_receiveSetup] at hyes
        rw [checkChildNum_receiveSetup] at hchild
        refine Or.inr ⟨hyes, i, hchild, ?_⟩
        rw [hadm, receiveSetup_links]
  | id data =>
      cases program with
      | origin => cases h; rfl
      | peer => cases h; exact setMyStatus_links _ n
  | initialStatus data k => cases h; exact nodeInitialStatus_links env data k n
  | advertise data k => cases h; exact nodeAdvertise_links env data k n
  | block data k =>
      cases program with
      | origin => cases h; rfl
      | peer =>
          obtain ⟨webm, -, h⟩ := bind_eq_ok.mp h
          cases h
          rfl
  | connect data => exact nodeConnect_links h
  | depart data => exact nodeDepart_links h
  | detach data => exact nodeDetach_links h
  | reqList data => cases h; exact (nodeReqList_talks data n).links
  | resList data k => cases program <;> cases h <;> rfl
  | accept data =>
      cases program with
      | origin => cases h; rfl
      | peer => cases h; exact nodeAccept_links env data n
  | unaccept data =>
      cases program with
      | origin => cases h; rfl
      | peer =>
          obtain ⟨prior, _, _, -, -, rfl⟩ := nodeUnaccept_asks h
          exact (connectTo_talks prior _).links
  | keepAlive data => cases h; exact (nodeKeepAlive_talks data n).links
  | keepAliveRes data => cases h; exact nodeKeepAliveRes_links env data n
  | mulStream => exact (step_mulStream_distributes h).links
  | timeKeepAlive => cases h; exact (timeKeepAlive_talks env n).links
  | timeSetup => cases h; exact (timeSetup_talks env n).links
  | timeout s => exact timeout_links h
  | timeList => cases h; exact (timeList_talks env n).links
  | timeRetry =>
      rcases timeRetry_cases h with ⟨-, hretry⟩ | ⟨-, rfl⟩
      · exact nodeRetry_links hretry
      · rfl
  | timeCache => cases h; exact timeCache_links env n
  | timeDepart => cases h; exact (timeDepart_talks env n).links
  | main webm => cases h; rfl

end P2PStream
