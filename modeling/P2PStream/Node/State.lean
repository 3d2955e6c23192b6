/-
# `P2PStream.Node.State` — the globals of `p2p.c` and the packets sent

A node keeps four slots: two children, the parent, and one that is scratch in the
address table (`TMP_ID`) and its own record in the status table (`MY_ID`).  Which
slots are taken is the byte `CONNECTED_NODES`, updated by `+=` and `-=` of a
power of two.

Addresses are 32-bit words as the machine holds them: `iphdr->saddr` and
`DST_IP` are in network order, the addresses of a status record in host order.
`inet_pton` undoes `inet_ntoa`, so an address that goes through its text is
unchanged.
-/
import P2PStream.Webm.Assemble

namespace P2PStream

open Lib

/-- `struct timeval`. -/
structure Timeval where
  sec : Int
  usec : Int
  deriving DecidableEq, Repr

def Timeval.zero : Timeval := ⟨0, 0⟩

/-- `struct NodeStatus`, less its padding; its front is laid out like a `BlockInfo`. -/
structure NodeStatus extends BlockInfo where
  id : UInt16
  ipaddr : UInt32
  pIpaddr : UInt32
  port : UInt16
  timestamp : Timeval
  deriving DecidableEq, Repr

def NodeStatus.zero : NodeStatus := ⟨BlockInfo.zero, 0, 0, 0, 0, Timeval.zero⟩

def nodeStatusBytes : Nat := 30

/-- An index of `NODES_STATUS`, `DST_IP`, `DST_PORT`: `MAX_NODE_NUM = 4`. -/
abbrev Slot := Fin 4

instance slot_neZero : NeZero 4 := ⟨by decide⟩

def parentId : Slot := 2
def tmpId : Slot := 3
def myId : Slot := 3
def originId : UInt16 := 0
def osPort : UInt16 := 12345

/-- A child's slot. -/
def childSlot (i : Fin maxChildNum) : Slot := i.castLE (by decide)

def defaultCache : Int := 200
/-- `(u32)(DEFAULT_CACHE * 0.8)`. -/
def cacheTlv : Int := 160
/-- `(u64)(BUFFERING_MBPS*(1000)*(1000)/(8*MAX_BLOCK_BYTES))`. -/
def bufferDtSec : UInt64 := 1

def maxDataBytes : Nat := 1019

/-! ## Protocol numbers -/

def setupProto : UInt8 := 0
def blockProto : UInt8 := 1
def initialStatusProto : UInt8 := 2
def advertiseProto : UInt8 := 3
def connectProto : UInt8 := 4
def departProto : UInt8 := 5
def detachProto : UInt8 := 6
def acceptProto : UInt8 := 7
def unacceptProto : UInt8 := 8
def reqListProto : UInt8 := 9
def resListProto : UInt8 := 10
def idProto : UInt8 := 11
def keepaliveProto : UInt8 := 12
def keepaliveresProto : UInt8 := 13

/-! ## The node -/

/-- A packet handed to the socket: addresses in the headers, ports in host order, and
the data from the protocol number on. -/
structure Packet where
  saddr : UInt32
  source : UInt16
  daddr : UInt32
  dest : UInt16
  data : List UInt8
  deriving DecidableEq, Repr

/-- The globals of `p2p.h`; `sent` is what went to the socket. -/
structure Node where
  webm : Webm
  srcIp : UInt32
  srcPort : UInt16
  dstIp : Slot → UInt32
  dstPort : Slot → UInt16
  isSetup : Bool
  currentChildNum : Int
  connectedNodes : BitVec 8
  isBeginStreaming : Bool
  isBeginPlaying : Bool
  nodesStatus : Slot → NodeStatus
  nodesList : List NodeStatus
  exceptList : List UInt16
  isRetry : Bool
  currentCache : Int
  totalBuffer : UInt64
  playedBuffer : UInt64
  currentNodeId : UInt16
  startTimestamp : Timeval
  timestamp : Timeval
  setupTimestamp : Timeval
  listupdateTimestamp : Timeval
  departTimestamp : Timeval
  retryTimestamp : Timeval
  playedTimestamp : Timeval
  sent : List Packet

/-- What a handler finds outside the node: the clock, `rand()` behind each of the two
`srand` calls of a handler, memory nobody wrote, and what `malloc` returns. -/
structure Env where
  now : Timeval
  rand : Nat
  redraw : Nat
  /-- `NODES_STATUS[k]` for `k ≥ MAX_NODE_NUM`. -/
  stray : Nat → NodeStatus
  /-- `NODES_STATUS[-1]`. -/
  below : NodeStatus
  /-- The local `cluster_seq` of `NodeDepart`. -/
  uninitSeq : UInt16
  freshCluster : Cluster
  freshPrevCluster : Cluster
  /-- The local `file_buf` of `CalOffset`. -/
  fileBuf : Buf
  /-- Behind the local `data` of `SendCacheBlock`. -/
  past : Buf

namespace Node

variable (n : Node)

/-- `(CONNECTED_NODES >> s) & 0x01`. -/
def isConnected (s : Slot) : Bool := n.connectedNodes.getLsbD s

/-- `NODES_STATUS[MY_ID]`. -/
def myStatus : NodeStatus := n.nodesStatus myId

/-- `NODES_STATUS[s] = status`. -/
def setStatus (s : Slot) (status : NodeStatus) : Node :=
  { n with nodesStatus := Function.update n.nodesStatus s status }

/-- `CONNECTED_NODES += (0x01 << s)`. -/
def connect (s : Slot) : Node :=
  { n with connectedNodes := n.connectedNodes + BitVec.twoPow 8 s }

/-- `CONNECTED_NODES -= (0x01 << s)`. -/
def disconnect (s : Slot) : Node :=
  { n with connectedNodes := n.connectedNodes - BitVec.twoPow 8 s }

/-- An update of the WebM globals. -/
def mapWebm (f : Webm → Webm) : Node := { n with webm := f n.webm }

end Node

/-! ## Time -/

/-- `UpdateTimestamp`, with its base of 100000 for a negative microsecond part. -/
def updateTimestamp (start now : Timeval) : Timeval :=
  let sec := now.sec - start.sec
  let usec := now.usec - start.usec
  if usec < 0 then ⟨sec - 1, usec + 100000⟩ else ⟨sec, usec⟩

/-- `DiffCurrentTime`. -/
def diffCurrentTime (start now timestamp : Timeval) : Timeval :=
  let current := updateTimestamp start now
  ⟨current.sec - timestamp.sec, current.usec - timestamp.usec⟩

/-- `IsExceedTime`. -/
def isExceedTime (exceedTime tv : Timeval) : Bool :=
  exceedTime.sec > tv.sec || (exceedTime.sec = tv.sec && exceedTime.usec > tv.usec)

/-- `UpdateTimestamp` at a node. -/
def Node.stamp (n : Node) (env : Env) : Timeval := updateTimestamp n.startTimestamp env.now

/-- `DiffCurrentTime` and `IsExceedTime` at a node. -/
def Node.exceeds (n : Node) (env : Env) (timestamp interval : Timeval) : Bool :=
  isExceedTime (diffCurrentTime n.startTimestamp env.now timestamp) interval

/-! ## Byte order -/

/-- `htonl`, and `ntohl`. -/
def htonl (x : UInt32) : UInt32 := UInt32.ofNat (ofBe (toBe 4 x.toNat).reverse)

@[simp] theorem htonl_htonl (x : UInt32) : htonl (htonl x) = x := by
  have hlen : (toBe 4 x.toNat).reverse.length = 4 := by simp
  have hlt : ofBe (toBe 4 x.toNat).reverse < UInt32.size := by
    have := ofBe_lt (toBe 4 x.toNat).reverse
    rwa [hlen] at this
  have hbytes : toBe 4 (htonl x).toNat = (toBe 4 x.toNat).reverse := by
    rw [htonl, UInt32.toNat_ofNat_of_lt' hlt]
    calc toBe 4 (ofBe (toBe 4 x.toNat).reverse)
        = toBe (toBe 4 x.toNat).reverse.length (ofBe (toBe 4 x.toNat).reverse) := by rw [hlen]
      _ = (toBe 4 x.toNat).reverse := toBe_ofBe _
  rw [htonl, hbytes, List.reverse_reverse, ofBe_toBe_of_lt x.toNat_lt, UInt32.ofNat_toNat]

theorem htonl_zero : htonl 0 = 0 := by decide

/-- `htons`, and `ntohs`. -/
def htons (x : UInt16) : UInt16 := UInt16.ofNat (ofBe (toBe 2 x.toNat).reverse)

/-- `ntohs` of the two bytes at `data`. -/
def readU16 (data : Buf) : UInt16 := UInt16.ofNat (ofBe (data.take 2))

/-- `ntohl` of the four bytes at `data`. -/
def readU32 (data : Buf) : UInt32 := UInt32.ofNat (ofBe (data.take 4))

/-! ## The wire form of a status -/

/-- `CopyNodeStatusToBytes`. -/
def copyNodeStatusToBytes (status : NodeStatus) : List UInt8 :=
  copyBlockInfoToBytes status.toBlockInfo ++ toBe 2 status.id.toNat ++
    toBe 4 status.ipaddr.toNat ++ toBe 4 status.pIpaddr.toNat ++ toBe 2 status.port.toNat

/-- `CopyBytesToNodeStatus` over the record `old`, whose timestamp is not sent. -/
def copyBytesToNodeStatus (old : NodeStatus) (data : Buf) : NodeStatus where
  toBlockInfo := copyBytesToBlockInfo data
  id := readU16 (data.drop blockinfoBytes)
  ipaddr := readU32 (data.drop (blockinfoBytes + 2))
  pIpaddr := readU32 (data.drop (blockinfoBytes + 6))
  port := readU16 (data.drop (blockinfoBytes + 10))
  timestamp := old.timestamp

/-! ## Sending -/

/-- `RenewDstIPandMAC`, less the MAC address, which is always the gateway's. -/
def renewDstIPandMAC (ip : UInt32) (port : UInt16) (s : Slot) (n : Node) : Node :=
  { n with
    dstIp := Function.update n.dstIp s ip
    dstPort := Function.update n.dstPort s port }

/-- The addresses `PacketGenerate` puts into a packet for slot `s`. -/
def packetGenerate (data : List UInt8) (s : Slot) (n : Node) : Packet :=
  ⟨n.srcIp, n.srcPort, n.dstIp s, n.dstPort s, data⟩

/-- `SendPacket`. -/
def sendPacket (data : List UInt8) (s : Slot) (n : Node) : Node :=
  { n with sent := n.sent ++ [packetGenerate data s n] }

/-- `SendPacket` of the first `dataBytes` bytes of a `bzero`ed `data` array that starts with `l`. -/
def sendData (l : List UInt8) (dataBytes : Int) (s : Slot) (n : Node) : Node :=
  sendPacket ((Buf.zero.overlay l).take (UInt16.ofInt dataBytes).toNat) s n

/-- `GtoPIP`: the private address of a node behind the same global one. -/
def gtoPIP (status : NodeStatus) (n : Node) : UInt32 :=
  if n.myStatus.ipaddr = status.ipaddr then status.pIpaddr else status.ipaddr

/-- `RenewDstIPandMAC` for a slot, with the address `GtoPIP` picks. -/
def renewDstFor (status : NodeStatus) (s : Slot) (n : Node) : Node :=
  renewDstIPandMAC (htonl (gtoPIP status n)) status.port s n

end P2PStream
