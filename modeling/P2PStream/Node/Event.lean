/-
# `P2PStream.Node.Event` — the steps of a node

A node takes one step at a time: it handles a packet, passes a section of the
timer loop, or streams.  The two programs, the origin source and the peer, share
the handlers and differ in their dispatchers (`Receive`): the origin hands out
ids and ignores what only a peer can get.

Packets may be lost, repeated and reordered, so a run is any sequence of events.
A handler that stops the process ends the run.
-/
import P2PStream.Lib.Trace
import P2PStream.Node.Timer

namespace P2PStream

open Lib

/-- `originsource/main.c` and `peer/main.c`. -/
inductive Program where
  | origin
  | peer
  deriving DecidableEq, Repr

inductive Event where
  | setup (data : Buf) (dataBytes : UInt16) (saddr : UInt32) (source : UInt16)
  | id (data : Buf)
  | initialStatus (data : Buf) (dataBytes : UInt16)
  | advertise (data : Buf) (dataBytes : UInt16)
  | block (data : Buf) (dataBytes : UInt16)
  | connect (data : Buf)
  | depart (data : Buf)
  | detach (data : Buf)
  | reqList (data : Buf)
  | resList (data : Buf) (dataBytes : UInt16)
  | accept (data : Buf)
  | unaccept (data : Buf)
  | keepAlive (data : Buf)
  | keepAliveRes (data : Buf)
  | mulStream
  | timeKeepAlive
  | timeSetup
  | timeout (s : Slot)
  | timeList
  | timeRetry
  | timeCache
  | timeDepart
  /-- The main loop of the origin, which leaves the children's cursors alone. -/
  | main (webm : Webm)

/-- `Receive` of the origin hands out an id for a first Setup, before `NodeSetup` sees it. -/
def receiveSetup (program : Program) (dataBytes : UInt16) (saddr : UInt32) (source : UInt16)
    (n : Node) : Node :=
  match program with
  | .origin => if dataBytes = 4 then sendID saddr source n else n
  | .peer => n

/-- One step of a node. -/
def Node.step (program : Program) (env : Env) (n : Node) : Event → Except Fault Node
  | .setup data dataBytes saddr source =>
      nodeSetup env data saddr source (receiveSetup program dataBytes saddr source n)
  | .id data =>
      match program with
      | .origin => .ok n
      | .peer => .ok (nodeID data n)
  | .initialStatus data dataBytes => .ok (nodeInitialStatus env data dataBytes n)
  | .advertise data dataBytes => .ok (nodeAdvertise env data dataBytes n)
  | .block data dataBytes =>
      match program with
      | .origin => .ok n
      | .peer => do
          let webm ← assembleBlock data dataBytes n.webm
          return { n with webm }
  | .connect data => nodeConnect env data n
  | .depart data => nodeDepart env data n
  | .detach data => nodeDetach env data n
  | .reqList data => .ok (nodeReqList data n)
  | .resList data dataBytes =>
      match program with
      | .origin => .ok n
      | .peer => .ok (nodeResList data dataBytes n)
  | .accept data =>
      match program with
      | .origin => .ok n
      | .peer => .ok (nodeAccept env data n)
  | .unaccept data =>
      match program with
      | .origin => .ok n
      | .peer => nodeUnaccept data n
  | .keepAlive data => .ok (nodeKeepAlive data n)
  | .keepAliveRes data => .ok (nodeKeepAliveRes env data n)
  | .mulStream => (·.1) <$> sendMulStream env n
  | .timeKeepAlive => .ok (P2PStream.timeKeepAlive env n)
  | .timeSetup => .ok (P2PStream.timeSetup env n)
  | .timeout s => P2PStream.timeout env s n
  | .timeList => .ok (P2PStream.timeList env n)
  | .timeRetry => P2PStream.timeRetry env n
  | .timeCache => .ok (P2PStream.timeCache env n)
  | .timeDepart => .ok (P2PStream.timeDepart env n)
  | .main webm =>
      .ok { n with webm := { webm with currentChildBlock := n.webm.currentChildBlock } }

/-- The labelled steps of a node: what it finds outside, and the event. -/
def NodeStep (program : Program) (n : Node) (l : Env × Event) (n' : Node) : Prop :=
  n.step program l.1 l.2 = .ok n'

/-- The steps of a run, computed. -/
def Node.exec (program : Program) : Node → List (Env × Event) → Except Fault Node
  | n, [] => .ok n
  | n, (env, e) :: ls =>
      match n.step program env e with
      | .error fault => .error fault
      | .ok n' => n'.exec program ls

theorem Node.exec_eq_ok_iff {program : Program} {n n' : Node} {ls : List (Env × Event)} :
    n.exec program ls = .ok n' ↔ Run (NodeStep program) n ls n' := by
  constructor
  · intro h
    induction ls generalizing n with
    | nil =>
        cases h
        exact .nil _
    | cons l ls ih =>
        rw [Node.exec] at h
        cases hstep : n.step program l.1 l.2 with
        | error fault =>
            rw [hstep] at h
            cases h
        | ok n₁ =>
            rw [hstep] at h
            exact .cons hstep (ih h)
  · intro h
    induction h with
    | nil n => rfl
    | @cons n n₁ n' l ls hfirst hrest ih =>
        have hstep : n.step program l.1 l.2 = .ok n₁ := hfirst
        rw [Node.exec, hstep]
        exact ih

/-- The node behind an event, if the event does not stop its process. -/
def Node.after (program : Program) (env : Env) (e : Event) (n : Node) : Node :=
  match n.step program env e with
  | .ok n' => n'
  | .error _ => n

theorem Node.after_step {program : Program} {env : Env} {e : Event} {n : Node}
    (h : (n.step program env e).isOk = true) :
    NodeStep program n (env, e) (n.after program env e) := by
  rw [Node.after]
  cases hstep : n.step program env e with
  | ok n' => exact hstep
  | error fault =>
      rw [hstep] at h
      cases h

/-! ## Start -/

/-- A clock, and everything else outside the node zero. -/
def Env.clock (now : Timeval) : Env where
  now := now
  rand := 0
  redraw := 0
  stray := fun _ => NodeStatus.zero
  below := NodeStatus.zero
  uninitSeq := 0
  freshCluster := Cluster.zero
  freshPrevCluster := Cluster.zero
  fileBuf := Buf.zero
  past := Buf.zero

/-- The globals at program start: `srcIp` in network order, and what `InitChildBlocks`
leaves in the children's cursors. -/
def Node.boot (srcIp : UInt32) (srcPort : UInt16) (file : List UInt8) (start : Timeval)
    (blocks : Fin maxChildNum → Block) : Node where
  webm := { Webm.start file with childBlocksAllocated := true, currentChildBlock := blocks }
  srcIp := srcIp
  srcPort := srcPort
  dstIp := fun _ => 0
  dstPort := fun _ => 0
  isSetup := true
  currentChildNum := 0
  connectedNodes := 0#8
  isBeginStreaming := false
  isBeginPlaying := false
  nodesStatus := fun _ => NodeStatus.zero
  nodesList := []
  exceptList := []
  isRetry := false
  currentCache := 0
  totalBuffer := 0
  playedBuffer := 0
  currentNodeId := 0
  startTimestamp := start
  timestamp := Timeval.zero
  setupTimestamp := Timeval.zero
  listupdateTimestamp := Timeval.zero
  departTimestamp := Timeval.zero
  retryTimestamp := Timeval.zero
  playedTimestamp := Timeval.zero
  sent := []

/-- The origin behind the start-up of its `main`, the clusters and blocks allocated. -/
def originStart (srcIp : UInt32) (file : List UInt8) (start : Timeval)
    (blocks : Fin maxChildNum → Block) (current prev : Cluster) : Node :=
  let n := Node.boot srcIp osPort file start blocks
  let my := { NodeStatus.zero with
    ipaddr := htonl srcIp, pIpaddr := htonl srcIp, port := osPort, id := originId }
  let webm := { initCluster current prev n.webm with
    blockAllocated := true, currentBlock := initBlock }
  { n.setStatus myId my with
    webm := webm
    isSetup := false
    totalBuffer := 200
    nodesList := listPush [] my }

/-- A peer behind the start-up of its `main`: its Setup is sent to the origin at `originIp`. -/
def peerStart (env : Env) (srcIp originIp : UInt32) (srcPort : UInt16) (start : Timeval)
    (blocks : Fin maxChildNum → Block) : Node :=
  let n := renewDstIPandMAC originIp osPort parentId (Node.boot srcIp srcPort [] start blocks)
  let parent := { NodeStatus.zero with ipaddr := htonl originIp, port := osPort, id := originId }
  let my := { NodeStatus.zero with pIpaddr := htonl srcIp }
  let n := { (n.setStatus parentId parent).setStatus myId my with nodesList := listPush [] parent }
  sendSetup { n with setupTimestamp := n.stamp env }

/-- A node as its program starts. -/
inductive Started : Program → Node → Prop
  | origin (srcIp : UInt32) (file : List UInt8) (start : Timeval)
      (blocks : Fin maxChildNum → Block) (current prev : Cluster) :
      Started .origin (originStart srcIp file start blocks current prev)
  | peer (env : Env) (srcIp originIp : UInt32) (srcPort : UInt16) (start : Timeval)
      (blocks : Fin maxChildNum → Block) :
      Started .peer (peerStart env srcIp originIp srcPort start blocks)

/-! ## A small network -/

/-- The cursors in fresh memory. -/
def freshBlocks : Fin maxChildNum → Block := fun _ => ⟨BlockInfo.zero, BlockInfo.zero⟩

/-- The origin at 10.0.0.1. -/
def firstOrigin : Node :=
  originStart 0x0100000a [] Timeval.zero freshBlocks Cluster.zero Cluster.zero

/-- A peer at 10.0.0.2. -/
def firstPeer : Node :=
  peerStart (Env.clock ⟨0, 0⟩) 0x0200000a 0x0100000a 12346 Timeval.zero freshBlocks

/-- The status of a node whose address is 10.0.0.`k`. -/
def statusOf (id : UInt16) (k : UInt32) (port : UInt16) (layer : UInt8) : NodeStatus :=
  { NodeStatus.zero with id, ipaddr := 0x0a000000 + k, pIpaddr := 0x0a000000 + k, port, layer }

/-- The data of a packet. -/
def packetData (l : List UInt8) : Buf := Buf.zero.overlay l

/-- The data of an InitialStatus: the offset of the timecodes, the child's status and the
parent's, and the statuses of other nodes. -/
def initialStatusData (statuses : List NodeStatus) : Buf :=
  packetData (List.replicate 8 0 ++ statuses.flatMap copyNodeStatusToBytes)

end P2PStream
