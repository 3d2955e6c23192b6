/-
# `P2PStream.Origin.Ahead` — cursors that move forward

A child's cursor holds the number of its cluster in 16 bits, and `RenewBlock` adds one.
Behind the end of cluster `2 ^ 16 - 1` it stands at cluster 0: `IsOldBlockSeq` finds it
behind the cluster that is open, and `CalOffset` leads back to the head of the file.
While no child is sent that end, each is read its blocks at increasing file offsets,
provided that it was admitted once the first cluster was completed: before that a cursor
stands at the cluster that is still written, and is read at offsets that go back.

Here the origin handles every packet and timer, in a file of any number of clusters.
`offsets` collects for each slot where the blocks were read that the child in it was
sent since it was admitted, the empty ones left out.
-/
import P2PStream.Origin.InOrder
import P2PStream.Peer.Cursors
import P2PStream.Webm.Unknown

namespace P2PStream

open Lib

/-! ## The machine -/

/-- The origin, and the offsets at which it has read for each child. -/
structure Logged where
  origin : Streaming
  offsets : Fin maxChildNum → List Int

/-- The connected children keep their logs. -/
def Logged.kept (s : Logged) (i : Fin maxChildNum) : List Int :=
  if s.origin.node.isConnected (childSlot i) then s.offsets i else []

/-- The logs behind a step of the loop, of `SendMulStream` or of `NodeSetup`. -/
def Logged.read (s : Logged) : OriginLabel → Fin maxChildNum → List Int
  | .sendMulStream env => fun i => s.kept i ++
      if mulStreamPayload env s.origin.node i = [] then []
      else [mulStreamOffset env s.origin.node i]
  | _ => s.kept

/-- The child with cursor `block` was read at increasing offsets, all of them before its
cursor; or its cursor is at a cluster that is not there, and it was not read at all. -/
def Advanced (f : StreamFile) (block : Block) (offsets : List Int) : Prop :=
  (f.clusters.length ≤ block.prev.clusterSeq.toNat ∧ offsets = []) ∨
    ∃ c k, StandsAt f block c k ∧ c < f.clusters.length ∧ offsets.Pairwise (· < ·) ∧
      ∀ o ∈ offsets, o < (f.clusterStart c + clusterHeaderBytes + k : Nat)

section Advanced

variable {f : StreamFile} {block block' : Block} {offsets : List Int}

theorem Advanced.placed (h : Advanced f block offsets) : Placed f block :=
  h.imp And.left fun ⟨c, k, hat, _⟩ => ⟨c, k, hat⟩

end Advanced

/-! ## The steps -/

/-- The loop stands somewhere, and every child was read at increasing offsets. -/
def LoggedOk (f : StreamFile) (s : Logged) : Prop :=
  ∃ done, LoopOk f s.origin.node.webm s.origin.phase done ∧
    ∀ i, s.origin.node.isConnected (childSlot i) = true →
      0 < done ∧ Advanced f (s.origin.node.webm.currentChildBlock i) (s.offsets i)

section Steps

variable {f : StreamFile} {s : Logged} {n : Node}

theorem Logged.kept_of_connected {i : Fin maxChildNum}
    (h : s.origin.node.isConnected (childSlot i) = true) : s.kept i = s.offsets i := if_pos h

theorem Logged.kept_of_free {i : Fin maxChildNum}
    (h : s.origin.node.isConnected (childSlot i) = false) : s.kept i = [] :=
  if_neg (by rw [h]; decide)

/-- Where the WebM globals stay and no slot is connected, nothing changes. -/
theorem LoggedOk.beside (h : LoggedOk f s) (hwebm : n.webm = s.origin.node.webm)
    (hconnected : ∀ i, n.isConnected (childSlot i) = true →
      s.origin.node.isConnected (childSlot i) = true) :
    LoggedOk f ⟨{ s.origin with node := n }, s.kept⟩ := by
  obtain ⟨done, hloop, hchildren⟩ := h
  refine ⟨done, hwebm ▸ hloop, fun i hi => ?_⟩
  show 0 < done ∧ Advanced f (n.webm.currentChildBlock i) (s.kept i)
  rw [hwebm, Logged.kept_of_connected (hconnected i hi)]
  exact hchildren i (hconnected i hi)

theorem LoggedOk.admit (h : LoggedOk f s) {delivered : Fin maxChildNum → List UInt8}
    {i : Fin maxChildNum} {block : Block}
    (hfirst : s.origin.node.PastFirst)
    (hfree : s.origin.node.isConnected (childSlot i) = false)
    (hbits : n.connectedNodes = s.origin.node.connectedNodes + BitVec.twoPow 8 i)
    (hwebm : n.webm = s.origin.node.webm.setChildBlock i block)
    (hhead : Advanced f block []) :
    LoggedOk f ⟨{ s.origin with node := n, delivered }, s.kept⟩ := by
  obtain ⟨done, hloop, hchildren⟩ := h
  have hdone : 0 < done := Nat.pos_of_ne_zero fun h0 => hfirst (hloop.completed.none h0)
  refine ⟨done, hwebm ▸ hloop.setChildBlock i block, fun j hj => ⟨hdone, ?_⟩⟩
  show Advanced f (n.webm.currentChildBlock j) (s.kept j)
  have hcursor : n.webm.currentChildBlock =
      Function.update s.origin.node.webm.currentChildBlock i block := by rw [hwebm]; rfl
  rw [hcursor]
  by_cases hji : j = i
  · subst hji
    rw [Function.update_self, Logged.kept_of_free hfree]
    exact hhead
  · have hold := (isConnected_of_admission hfree hbits hj).resolve_left hji
    rw [Function.update_of_ne hji, Logged.kept_of_connected hold]
    exact (hchildren j hold).2

end Steps

/-! ## Runs of the streaming alone -/

theorem length_smallClusters (n : Nat) :
    ((List.replicate n smallPayload).flatMap ClusterPayload.clusterBytes).length = 21 * n := by
  induction n with
  | zero => rfl
  | succ n ih =>
      rw [List.replicate_succ, List.flatMap_cons, List.length_append, ih,
        ClusterPayload.length_clusterBytes, length_smallPayload]
      show 12 + 9 + 21 * n = _
      omega

/-- Clusters of a Timecode and one SimpleBlock. -/
def smallClusters (n : Nat) (h : n ≤ 2 ^ 17) : StreamFile where
  header := []
  clusters := List.replicate n smallPayload
  header_lt := nil_header_lt
  size_lt := by
    intro p hp
    rw [List.eq_of_mem_replicate hp, length_smallPayload]
    decide
  length_lt := by
    rw [length_smallClusters, List.length_nil]
    omega

section Small

variable {n : Nat} {h : n ≤ 2 ^ 17}

theorem Serving.isConnected {s : Streaming} {done : Nat} (hs : Serving (smallClusters n h) s done) :
    s.node.isConnected (childSlot 0) = true := by
  rw [Node.isConnected, hs.connected]
  rfl

theorem Serving.read {s : Streaming} {done : Nat} (hs : Serving (smallClusters n h) s done)
    {env : Env} {offset : Int} (hpayload : mulStreamPayload env s.node 0 ≠ [])
    (hoffset : mulStreamOffset env s.node 0 = offset) (offsets : Fin maxChildNum → List Int) :
    Logged.read ⟨s, offsets⟩ (.sendMulStream env) 0 = offsets 0 ++ [offset] := by
  show Logged.kept ⟨s, offsets⟩ 0 ++ (if _ = [] then [] else _) = _
  rw [if_neg hpayload, hoffset, Logged.kept_of_connected hs.isConnected]

end Small

/-! ## Runs -/

end P2PStream
