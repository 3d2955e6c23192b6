/-
# `P2PStream.Node.Stream` — sending stored blocks to the children

`SendMulStream` gives every connected child its next block, if the block before
it is old by `IsOldBlockSeq`, and puts the reading position back.  The next block
is found from the record of the one before alone: `CalOffset` walks the cluster
headers of the file to its cluster, and `pos + bytes`, a 32-bit sum, leads to the
byte behind it.
-/
import P2PStream.Node.State

namespace P2PStream

open Lib

/-- `SendWebMHeader`. -/
def sendWebMHeader (s : Slot) (n : Node) : Node :=
  let header := n.webm.webmHeaderData.take n.webm.webmHeaderTotalBytes.toNat
  sendData (blockProto :: List.replicate blockinfoBytes 0 ++ header)
    (n.webm.webmHeaderTotalBytes.toNat + blockinfoBytes + 1) s n

/-- The local `data` of `SendCacheBlock` from its payload on: `MAX_BLOCK_BYTES` zeros. -/
def cacheBuf (env : Env) : Buf := fun i => if i < maxBlockBytes.toNat then 0 else env.past i

/-- `SendCacheBlock` before the packet is sent: the block, its status and the payload. -/
def readCacheBlock (env : Env) (block : Block) (w : Webm) :
    Except Fault (Webm × Block × Int × List UInt8) :=
  let (w, offset) := seekABSForNextBlock env.fileBuf block w
  let (w, data) := searchWebM (cacheBuf env) maxBlockBytes.toNat offset w
  match getNextBlockByBytes block maxBlockBytes data with
  | none => .error .hang
  | some (block, status) => .ok (w, block, status, data.take block.info.bytes.toNat)

/-- `SendCacheBlock` for the child in slot `i`, whose cursor it fills in; and the status. -/
def sendCacheBlock (env : Env) (i : Fin maxChildNum) (n : Node) : Except Fault (Node × Int) := do
  let (w, block, status, payload) ← readCacheBlock env (n.webm.currentChildBlock i) n.webm
  let dataBytes := block.info.bytes + UInt16.ofNat (blockinfoBytes + 1)
  let data := (blockProto :: copyBlockInfoToBytes block.info ++ payload).take dataBytes.toNat
  return (sendPacket data (childSlot i) { n with webm := w.setChildBlock i block }, status)

/-- One round of the loop of `SendMulStream`; and whether the child is not served. -/
def sendMulStreamChild (env : Env) (i : Fin maxChildNum) (n : Node) :
    Except Fault (Node × Nat) :=
  if n.isConnected (childSlot i) then
    if !(n.webm.clusterAllocated && n.webm.childBlocksAllocated) then
      .error .segv
    else if isOldBlockSeq (n.webm.currentChildBlock i).prev n.webm then do
      let (n, status) ← sendCacheBlock env i n
      let block := n.webm.currentChildBlock i
      let block := if status = clusterEnd then renewBlock block else shiftToPreBlock block
      return ({ n with webm := n.webm.setChildBlock i block }, 0)
    else
      return (n, 1)
  else
    return (n, 0)

/-- `SendMulStream`, and its result. -/
def sendMulStream (env : Env) (n : Node) : Except Fault (Node × Int) := do
  let offset := n.webm.fp
  let n := { n with webm := { n.webm with currentFposR := offset } }
  let (n, count₁) ← sendMulStreamChild env 0 n
  let (n, count₂) ← sendMulStreamChild env 1 n
  let ret := if ((count₁ + count₂ : Nat) : Int) = n.currentChildNum then 0 else 1
  return ({ n with webm := seekABSWebM offset n.webm }, ret)

/-- `SendMulStream` ends the cluster of the child in slot `i`. -/
def EndsCluster (env : Env) (i : Fin maxChildNum) (n : Node) : Prop :=
  n.isConnected (childSlot i) = true ∧
    isOldBlockSeq (n.webm.currentChildBlock i).prev n.webm = true ∧
    ∃ w block payload,
      readCacheBlock env (n.webm.currentChildBlock i) n.webm = .ok (w, block, clusterEnd, payload)

end P2PStream
