/-
# `P2PStream.Node.Timer` — the sections of the timer thread (`TimeProcess`)

Each section of the loop body is one step; the reading thread may run a handler
between any two of them.  The keep-alive section is one step for each slot.
-/
import P2PStream.Node.Handlers

namespace P2PStream

open Lib

/-- `INTARVAL_SEC`, `INTARVAL_MSEC`. -/
def timeprocessInterval : Timeval := ⟨3, 5000⟩
/-- `KEEPALIVE_SEC`, `LISTUPDATE_SEC` and `DEPART_SEC` are all 5. -/
def fiveSeconds : Timeval := ⟨5, 0⟩
def playedInterval : Timeval := ⟨1, 0⟩

/-- A keep-alive to every connected slot. -/
def timeKeepAlive (env : Env) (n : Node) : Node :=
  if n.exceeds env n.timestamp timeprocessInterval then
    ((List.finRange 4).filter fun s => n.isConnected s).foldl (fun n s => sendKeepAlive s n)
      { n with timestamp := n.stamp env }
  else n

/-- Setup, sent again until `InitialStatus` arrives. -/
def timeSetup (env : Env) (n : Node) : Node :=
  if n.isSetup && n.exceeds env n.setupTimestamp fiveSeconds then
    sendSetup { n with setupTimestamp := n.stamp env }
  else n

/-- Whether the keep-alive loop drops slot `s`. -/
def isTimedOut (env : Env) (s : Slot) (n : Node) : Bool :=
  n.isConnected s && (n.nodesStatus s).timestamp ≠ Timeval.zero &&
    n.exceeds env (n.nodesStatus s).timestamp fiveSeconds

/-- One round of the keep-alive loop. -/
def timeout (env : Env) (s : Slot) (n : Node) : Except Fault Node :=
  if isTimedOut env s n then
    let n := n.disconnect s
    let n := initNodeStatus { n with currentChildNum := n.currentChildNum - 1 } s
    if s = parentId then nodeRetry env n else .ok n
  else
    .ok n

/-- List requests to the parent and to every listed node. -/
def timeList (env : Env) (n : Node) : Node :=
  if n.exceeds env n.listupdateTimestamp fiveSeconds && n.isConnected parentId then
    n.nodesList.foldl (fun n s => sendReqList tmpId (renewDstFor s tmpId n))
      (sendReqList parentId { n with listupdateTimestamp := n.stamp env })
  else n

/-- Another attempt after `NodeRetry`. -/
def timeRetry (env : Env) (n : Node) : Except Fault Node :=
  if n.isRetry && n.exceeds env n.retryTimestamp fiveSeconds then nodeRetry env n else .ok n

/-- `CalPlayedBuffer`. -/
def calPlayedBuffer (env : Env) (n : Node) : Node :=
  if n.myStatus.id = originId then n
  else
    let n := { n with totalBuffer := n.webm.totalBlockNum }
    if n.isBeginPlaying && n.exceeds env n.playedTimestamp playedInterval then
      { n with
        playedTimestamp := n.stamp env
        playedBuffer := n.playedBuffer + bufferDtSec }
    else n

/-- The cache, and the flags that are built when it is exactly full. -/
def timeCache (env : Env) (n : Node) : Node :=
  let n := calPlayedBuffer env n
  let n := { n with currentCache := (n.totalBuffer - n.playedBuffer).toBitVec.toInt }
  if n.currentCache = defaultCache then
    { n with
      isBeginStreaming := true
      isBeginPlaying := true
      playedTimestamp := n.stamp env }
  else n

/-- Leaving a parent that is too slow. -/
def timeDepart (env : Env) (n : Node) : Node :=
  if n.currentCache < cacheTlv && n.isBeginStreaming && n.exceeds env n.departTimestamp fiveSeconds
  then
    let n := { n with departTimestamp := n.stamp env }
    if n.isConnected parentId then sendDepart n else n
  else n

end P2PStream
