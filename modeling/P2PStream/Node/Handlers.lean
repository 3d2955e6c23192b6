/-
# `P2PStream.Node.Handlers` — the handlers of received packets

One definition for each `Node…` and `Send…` function of `p2p.c`.  `data` is the
memory behind the protocol number of the packet; it is read as far as the
handler goes, whatever the length of the packet was.

`InitNodeStatus` takes its argument by value and so clears a copy: the calls that
should clear an entry of `NODES_STATUS` leave it as it is.
-/
import P2PStream.Node.Lists
import P2PStream.Node.Stream

namespace P2PStream

open Lib

/-- The eight bytes of `TIMECODE_OFFSET`, lowest first. -/
def timecodeOffsetBytes (n : Node) : List UInt8 := (toBe 8 n.webm.timecodeOffset.toNat).reverse

/-- `(data[i]) << 8*i` in an `int` of 32 bits, whose shift count is taken modulo 32,
widened to a `u64`. -/
def shiftedByte (b : UInt8) (i : Nat) : UInt64 :=
  ⟨((b.toBitVec.setWidth 32) <<< (8 * i % 32)).signExtend 64⟩

/-- `NODE_TIMECODE_OFFSET += …` over the eight bytes at `data`. -/
def addTimecodeOffset (data : Buf) (acc : UInt64) : UInt64 :=
  (List.range 8).foldl (fun acc i => acc + shiftedByte (data i) i) acc

/-- `InitNodeStatus`: a copy is cleared. -/
def initNodeStatus (n : Node) (_ : Slot) : Node := n

/-! ## Setup -/

/-- `SendSetup`. -/
def sendSetup (n : Node) : Node :=
  let pIpaddr := toBe 4 n.myStatus.pIpaddr.toNat
  if 0 < n.myStatus.id then
    sendData (setupProto :: pIpaddr ++ toBe 2 n.myStatus.id.toNat ++ toBe 4 n.myStatus.ipaddr.toNat)
      11 parentId n
  else
    sendData (setupProto :: pIpaddr) 5 parentId n

/-- The connected slots other than `s` and `MY_ID`, in order. -/
def otherSlots (n : Node) (s : Slot) : List Slot :=
  ([0, 1, 2] : List Slot).filter fun i => i ≠ s ∧ n.isConnected i

/-- `SendAdvertise`; the slot advertised is `none` for `-1`. -/
def sendAdvertise (env : Env) (dst : Slot) (ad : Option Slot) (n : Node) : Node :=
  let records := match ad with
    | some s => n.nodesStatus s :: (if s = myId then [] else [n.myStatus]) ++
        (otherSlots n s).map n.nodesStatus
    | none => env.below :: n.myStatus :: (otherSlots n myId).map n.nodesStatus
  sendData (advertiseProto :: records.flatMap copyNodeStatusToBytes)
    (1 + nodeStatusBytes * (n.currentChildNum + 1)) dst n

/-- `SendInitialStatus`. -/
def sendInitialStatus (dst : Slot) (n : Node) : Node :=
  let statusNum := if n.isConnected parentId then n.currentChildNum + 1 + 1 + 1
    else n.currentChildNum + 1 + 1
  let records := n.nodesStatus dst :: n.myStatus :: (otherSlots n dst).map n.nodesStatus
  sendData (initialStatusProto :: timecodeOffsetBytes n ++ records.flatMap copyNodeStatusToBytes)
    (1 + nodeStatusBytes * statusNum + 8) dst n

/-- The cursor and the status of a child admitted by `NodeSetup`. -/
def setupChild (data : Buf) (ipaddr : UInt32) (nodePort : UInt16) (i : Fin maxChildNum)
    (n : Node) : Node :=
  let block := n.webm.currentChildBlock i
  let block := renewBlock { block with info := { block.info with
    clusterSeq := n.webm.prevCluster.seq.toUInt16 } }
  let block := { block with prev := { block.prev with clusterSeq := block.prev.clusterSeq - 1 } }
  let status := n.nodesStatus (childSlot i)
  let status := { status with
    toBlockInfo := { block.prev with layer := n.myStatus.layer + 1 }
    port := nodePort
    pIpaddr := readU32 data
    id := if n.myStatus.id = originId then n.currentNodeId else readU16 (data.drop 4)
    ipaddr := if n.myStatus.id = originId then htonl ipaddr else readU32 (data.drop 6) }
  { n with webm := n.webm.setChildBlock i block }.setStatus (childSlot i) status

/-- The end of an admission: the time, the bit and the counter. -/
def admitChild (env : Env) (i : Fin maxChildNum) (n : Node) : Node :=
  let n := n.setStatus (childSlot i)
    { n.nodesStatus (childSlot i) with timestamp := n.stamp env }
  { n.connect (childSlot i) with currentChildNum := n.currentChildNum + 1 }

/-- `NodeSetup`. -/
def nodeSetup (env : Env) (data : Buf) (ipaddr : UInt32) (port : UInt16) (n : Node) :
    Except Fault Node :=
  let nodePort := htons port
  let advertise (s : Option Slot) :=
    sendAdvertise env tmpId s (renewDstIPandMAC ipaddr nodePort tmpId n)
  let rndChildId := generateRndID env.rand 0 (n.currentChildNum + 1) n
  if rndChildId ≠ some myId then
    .ok (advertise rndChildId)
  else if n.currentCache < defaultCache then
    .ok (advertise (some myId))
  else
    match checkChildNum n with
    | none => .ok (advertise (generateRndID env.redraw 1 n.currentChildNum n))
    | some i =>
        if !(n.webm.clusterAllocated && n.webm.childBlocksAllocated) then
          .error .segv
        else
          let n := setupChild data ipaddr nodePort i
            (renewDstIPandMAC ipaddr nodePort (childSlot i) n)
          .ok (admitChild env i
            (sendWebMHeader (childSlot i) (sendInitialStatus (childSlot i) n)))

/-! ## Ids -/

/-- `SendID`. -/
def sendID (ipaddr : UInt32) (port : UInt16) (n : Node) : Node :=
  let n := { n with currentNodeId := n.currentNodeId + 1 }
  let n := renewDstIPandMAC ipaddr (htons port) tmpId n
  sendData (idProto :: toBe 2 n.currentNodeId.toNat ++ (toBe 4 ipaddr.toNat).reverse) 7 tmpId n

/-- `NodeID`. -/
def nodeID (data : Buf) (n : Node) : Node :=
  n.setStatus myId { n.myStatus with id := readU16 data, ipaddr := readU32 (data.drop 2) }

/-! ## Initial status -/

/-- `NodeInitialStatus`. -/
def nodeInitialStatus (env : Env) (data : Buf) (dataBytes : UInt16) (n : Node) : Node :=
  let statusNum := ((dataBytes.toNat : Int) - 8).tdiv nodeStatusBytes
  let listNum := (statusNum - 2).toNat
  let my := copyBytesToNodeStatus n.myStatus (data.drop 8)
  let parent := copyBytesToNodeStatus (n.nodesStatus parentId) (data.drop (nodeStatusBytes + 8))
  let webm := initCluster env.freshCluster env.freshPrevCluster { n.webm with
    nodeTimecodeOffset := addTimecodeOffset data n.webm.nodeTimecodeOffset }
  let webm := { webm with
    blockAllocated := true
    currentBlock := ⟨{ initBlock.info with clusterSeq := my.clusterSeq },
      { initBlock.prev with clusterSeq := my.clusterSeq }⟩
    isGetTimecodeOffset := false }
  let n := { n with webm }.setStatus myId my
  let n := (n.setStatus parentId { parent with timestamp := n.stamp env }).connect parentId
  { n with
    nodesList := pushNew n.nodesList
      (readStatuses (data.drop (nodeStatusBytes * 2 + 8)) listNum)
    listupdateTimestamp := n.stamp env
    departTimestamp := n.stamp env
    isSetup := false }

/-! ## Advertise -/

/-- `NodeAdvertise`. -/
def nodeAdvertise (env : Env) (data : Buf) (dataBytes : UInt16) (n : Node) : Node :=
  let statusNum := dataBytes.toNat / nodeStatusBytes
  let ad := copyBytesToNodeStatus NodeStatus.zero data
  let statuses := readStatuses (data.drop nodeStatusBytes) (statusNum - 1)
  let n := { n with nodesList := pushNew n.nodesList statuses }
  let n := renewDstFor ad parentId n
  sendSetup { n with setupTimestamp := n.stamp env }

/-! ## Connect -/

/-- `SendConnect`; it always sends to `TMP_ID`. -/
def sendConnect (_ : Slot) (n : Node) : Node :=
  sendData (connectProto :: copyNodeStatusToBytes n.myStatus) (1 + nodeStatusBytes) tmpId n

/-- `SendAccept`. -/
def sendAccept (dst : Slot) (n : Node) : Node :=
  sendData (acceptProto :: copyNodeStatusToBytes n.myStatus ++ timecodeOffsetBytes n)
    (1 + nodeStatusBytes + 8) dst n

/-- `SendUnaccept`. -/
def sendUnaccept (dst : Slot) (n : Node) : Node :=
  sendData (unacceptProto :: toBe 2 n.myStatus.id.toNat) 3 dst n

/-- The cursor and the status of a child admitted by `NodeConnect`. -/
def connectChild (data : Buf) (i : Fin maxChildNum) (n : Node) : Node :=
  let status := copyBytesToNodeStatus (n.nodesStatus (childSlot i)) data
  let block := n.webm.currentChildBlock i
  let block := renewBlock { block with info := { block.info with clusterSeq := status.clusterSeq } }
  { n with webm := n.webm.setChildBlock i block }.setStatus (childSlot i)
    { status with toBlockInfo := { block.prev with layer := n.myStatus.layer + 1 } }

/-- `NodeConnect`. -/
def nodeConnect (env : Env) (data : Buf) (n : Node) : Except Fault Node :=
  let status := copyBytesToNodeStatus NodeStatus.zero data
  let unaccept := sendUnaccept tmpId
    (renewDstIPandMAC (htonl status.ipaddr) status.port tmpId n)
  if n.currentCache < defaultCache then
    .ok unaccept
  else
    match checkChildNum n with
    | none => .ok unaccept
    | some i =>
        if isDuplicatedChild status.id env n then
          .ok n
        else if !n.webm.childBlocksAllocated then
          .error .segv
        else
          let n := connectChild data i
            (renewDstIPandMAC (htonl status.ipaddr) status.port (childSlot i) n)
          .ok (admitChild env i (sendAccept (childSlot i) n))

/-! ## Depart and detach -/

/-- `SendDepart`. -/
def sendDepart (n : Node) : Node :=
  sendData (departProto :: copyNodeStatusToBytes n.myStatus) (1 + nodeStatusBytes) parentId n

/-- `SendDetach`; `clusterSeq` is in network order already. -/
def sendDetach (dst : Slot) (clusterSeq : UInt16) (n : Node) : Node :=
  sendData (detachProto :: (toBe 2 clusterSeq.toNat).reverse) 3 dst n

/-- One round of the loop of `NodeDepart`, with the local `cluster_seq`. -/
def departChild (id : UInt16) (i : Fin maxChildNum) (n : Node) (clusterSeq : UInt16) :
    Node × UInt16 :=
  if (n.nodesStatus (childSlot i)).id = id then
    let n := { n with currentChildNum := n.currentChildNum - 1 }.disconnect (childSlot i)
    (initNodeStatus n (childSlot i), htons (n.webm.currentChildBlock i).prev.clusterSeq)
  else
    (n, clusterSeq)

/-- `NodeDepart`. -/
def nodeDepart (env : Env) (data : Buf) (n : Node) : Except Fault Node :=
  let status := copyBytesToNodeStatus NodeStatus.zero data
  let isChild := (List.finRange maxChildNum).any fun i =>
    (n.nodesStatus (childSlot i)).id = status.id
  if isChild && !n.webm.childBlocksAllocated then
    .error .segv
  else
    let ip := htonl (gtoPIP status n)
    let (n, clusterSeq) := departChild status.id 0 n env.uninitSeq
    let (n, clusterSeq) := departChild status.id 1 n clusterSeq
    .ok (sendDetach tmpId clusterSeq (renewDstIPandMAC ip status.port tmpId n))

/-- The Connect that `NodeDetach`, `NodeUnaccept` and `NodeRetry` send to a candidate. -/
def connectTo (status : NodeStatus) (n : Node) : Node :=
  sendConnect tmpId (renewDstFor status tmpId n)

/-- `NodeDetach`. -/
def nodeDetach (env : Env) (data : Buf) (n : Node) : Except Fault Node := do
  let n := { n with isBeginStreaming := false, departTimestamp := n.stamp env }.disconnect parentId
  let n := initNodeStatus n parentId
  let n := n.setStatus myId { n.myStatus with clusterSeq := readU16 data }
  let (prior, _) ← candidate n
  let n := { n with retryTimestamp := n.stamp env }
  return connectTo prior
    (n.setStatus parentId { n.nodesStatus parentId with id := prior.id })

/-! ## Accept, unaccept, retry -/

/-- The bit of the parent, added only when it is clear. -/
def connectParent (n : Node) : Node :=
  if n.isConnected parentId then n else n.connect parentId

/-- `NodeAccept`. -/
def nodeAccept (env : Env) (data : Buf) (n : Node) : Node :=
  let parent := copyBytesToNodeStatus
    { n.nodesStatus parentId with timestamp := n.stamp env } data
  let n := { n with isRetry := false }.setStatus parentId parent
  let n := n.mapWebm fun w =>
    { w with nodeTimecodeOffset := addTimecodeOffset (data.drop nodeStatusBytes) 0 }
  let n := connectParent (n.setStatus myId { n.myStatus with layer := parent.layer + 1 })
  { n with exceptList := [] }

/-- The choice of `NodeUnaccept` and `NodeRetry`: a candidate outside the except list, which is
emptied when there is none. -/
def nextCandidate (n : Node) : Except Fault (NodeStatus × Node) := do
  let (prior, found) ← candidate n
  return (prior, if found then n else { n with exceptList := [] })

/-- `NodeUnaccept`. -/
def nodeUnaccept (data : Buf) (n : Node) : Except Fault Node := do
  let (prior, n) ← nextCandidate
    { n with exceptList := exceptListPush n.myStatus.id n.exceptList (readU16 data) }
  return connectTo prior n

/-- `NodeRetry`. -/
def nodeRetry (env : Env) (n : Node) : Except Fault Node := do
  let (prior, n) ← nextCandidate { n with
    isRetry := true
    retryTimestamp := n.stamp env
    exceptList := exceptListPush n.myStatus.id n.exceptList (n.nodesStatus parentId).id }
  if !n.webm.clusterAllocated then .error .segv
  else .ok (connectTo prior (n.setStatus myId
    { n.myStatus with clusterSeq := n.webm.currentCluster.seq.toUInt16 }))

/-! ## Keep-alive and lists -/

/-- The last connected slot that holds the id, which the handlers of requests answer. -/
def requester (id : UInt16) (n : Node) : Option Slot :=
  (List.finRange 4).reverse.find? fun s => n.isConnected s && (n.nodesStatus s).id = id

/-- A packet of the node's own id, as `SendKeepAlive`, `SendKeepAliveRes` and `SendReqList`
build it. -/
def sendOwnId (proto : UInt8) (dst : Slot) (n : Node) : Node :=
  sendData (proto :: toBe 2 n.myStatus.id.toNat) 3 dst n

def sendKeepAlive (dst : Slot) (n : Node) : Node := sendOwnId keepaliveProto dst n
def sendKeepAliveRes (dst : Slot) (n : Node) : Node := sendOwnId keepaliveresProto dst n
def sendReqList (dst : Slot) (n : Node) : Node := sendOwnId reqListProto dst n

/-- `NodeKeepAlive`. -/
def nodeKeepAlive (data : Buf) (n : Node) : Node :=
  match requester (readU16 data) n with
  | none => n
  | some s => sendKeepAliveRes s n

/-- `NodeKeepAliveRes`. -/
def nodeKeepAliveRes (env : Env) (data : Buf) (n : Node) : Node :=
  { n with nodesStatus := fun s =>
    if n.isConnected s && (n.nodesStatus s).id = readU16 data then
      { n.nodesStatus s with timestamp := n.stamp env }
    else n.nodesStatus s }

/-- `SendResList`. -/
def sendResList (dst : Slot) (n : Node) : Node :=
  let children := ([0, 1] : List Slot).filter fun i => i ≠ dst ∧ n.isConnected i
  let list := n.nodesList.filter fun s => s.id ≠ (n.nodesStatus dst).id
  let records := children.map n.nodesStatus ++ list
  sendData (resListProto :: records.flatMap copyNodeStatusToBytes)
    (1 + nodeStatusBytes * (n.currentChildNum - 1 + list.length)) dst n

/-- `NodeReqList`. -/
def nodeReqList (data : Buf) (n : Node) : Node :=
  match requester (readU16 data) n with
  | none => n
  | some s => sendResList s n

/-- `NodeResList`. -/
def nodeResList (data : Buf) (dataBytes : UInt16) (n : Node) : Node :=
  let statuses := readStatuses data (dataBytes.toNat / nodeStatusBytes)
  { n with nodesList := pushOrUpdate n.nodesList statuses }

end P2PStream
