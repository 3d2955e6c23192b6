/-
# `P2PStream.Overlay.Stream` — from the origin's file to a peer's

The origin streams its file; a peer asks it for a place and is admitted.  Packets of the
origin come to the peer in the order they were sent, and between them either side does
whatever else it does: the origin's main loop and its other children, the peer's timers,
its own children and the packets of other nodes.

What a peer has in its file is the WebM header and clusters of the origin's file, from the
cluster it was admitted at on, with their Timecodes rebased.  Where blocks are lost, the
others are still stored, each once and in order, and none of them stops the peer.
-/
import P2PStream.Overlay.Link

namespace P2PStream

open Lib

/-! ## The origin as the sender -/

/-- The origin, which gets no other Setup from the address. -/
abbrev originTo (f : OriginFile) (a : Addr) : Sender where
  State := Streaming
  Label := OriginLabel ⊕ (Env × Event)
  step := Guarded (ServeStep f) fun _ l => NoSetupFrom a l
  node := Streaming.node

/-- The steps of the origin, of the peer at the address and of the link between them. -/
abbrev OriginHopStep (f : OriginFile) (a : Addr) :=
  HopStep (originTo f a) a

/-- The origin has just admitted the peer at the address into slot `i`, with cluster `first`.
Older packets to the peer may still be on their way. -/
inductive Admits (f : OriginFile) (a : Addr) (i : Fin maxChildNum) (first : UInt16) :
    Hop (originTo f a) → Prop
  | intro {srcIp : UInt32} {start : Timeval} {blocks : Fin maxChildNum → Block}
      {current prev : Cluster} {total : Int} {ls : List (OriginLabel ⊕ (Env × Event))}
      {s t : Streaming} {env : Env} {data : Buf} {k : UInt16} {saddr : UInt32} {source : UInt16}
      {older : List Packet} {n : Node} :
      total ≤ f.bytes.length →
      Run (ServeStep f) (streamStart f srcIp start blocks current prev total) ls s →
      s.node.isConnected (childSlot i) = false →
      (∀ j, s.node.isConnected (childSlot j) = true → s.node.route (childSlot j) ≠ a) →
      OriginStep f s (.setup env data k saddr source) t →
      setupFrom saddr source = a →
      t.node.isConnected (childSlot i) = true →
      s.node.webm.prevCluster.seq.toUInt16 = first →
      (∀ p ∈ older, p.Beside) →
      Waits n →
      Admits f a i first
        ⟨t, older ++ (t.node.log a).drop (s.node.log a).length, [], n⟩

section Origin

variable {f : OriginFile} {a : Addr} {i : Fin maxChildNum} {first : UInt16} {lossless : Prop}
variable {s : Hop (originTo f a)}

theorem Serves.cluster_lt {infos : List BlockInfo} {s : Streaming} (h : Serves f a i first infos s)
    {p : Place} (hat : CursorAt f (s.node.webm.currentChildBlock i) p) :
    p.cluster < f.clusters.length := by
  obtain ⟨done, hloop, hserved⟩ := h.ok
  obtain ⟨hdone, c, k, hstands, -, hc, -⟩ := hserved i h.alone.connected
  obtain ⟨-, -, hlt, -⟩ := hloop.completed.some hdone
  have hsame : p.cluster = c := hat.standsAt.cluster.symm.trans hstands.cluster
  omega

theorem feeds_origin (hsmall : f.Small) :
    Feeds (originTo f a) f a i first (Serves f a i first) where
  sending h := h.toSending
  cluster_lt h _ hat := h.cluster_lt hat
  step h hstep := serve_step hsmall h hstep.1 hstep.2

theorem beforeJoin_start (f : OriginFile) (srcIp : UInt32) (start : Timeval)
    (blocks : Fin maxChildNum → Block) (current prev : Cluster) {total : Int}
    (htotal : total ≤ f.bytes.length) :
    BeforeJoin f (streamStart f srcIp start blocks current prev total) where
  ok := streamOk_start f srcIp start blocks current prev htotal
  counted := (Started.origin srcIp f.bytes start blocks current prev).counted
  header := rfl

theorem Admits.ok (hsmall : f.Small)
    (hfits : f.HeaderFits)
    (h : Admits f a i first s) : HopOk f first (Serves f a i first) lossless s := by
  obtain ⟨htotal, hrun, hfree, hothers, hstep, rfl, hi, rfl, holder, hwaits⟩ := h
  rename_i srcIp start blocks current prev total ls s₀ t env data k saddr source older n
  have hkeep : ∀ s l t, BeforeJoin f s → ServeStep f s l t → BeforeJoin f t :=
    fun _ _ _ hs hstep => beforeJoin_step hsmall hs hstep
  have hbefore := hrun.invariant hkeep
    (beforeJoin_start f srcIp start blocks current prev htotal)
  obtain ⟨ids, initial, header, hlog, hids, -, hinitial, hheader, hserves⟩ :=
    admission hbefore hfits hfree hothers hstep hi
  exact hopOk_admitted hserves hwaits hlog holder hids hinitial hheader

end Origin

/-! ## A run -/

end P2PStream
