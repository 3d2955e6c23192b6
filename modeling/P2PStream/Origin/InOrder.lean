/-
# `P2PStream.Origin.InOrder` — the stream, in order

In every run of the origin each child has been sent a prefix of the stream from
the cluster it joined at, as long as no cluster reaches `2 ^ 32` bytes.
-/
import P2PStream.Origin.Progress

namespace P2PStream

open Lib

/-! ## Cluster numbers of 16 bits -/

theorem not_wrapsCursor {f : OriginFile} {n : Node} {done : Nat} (hw : Completed f n.webm done)
    {i : Fin maxChildNum} (hdone : n.isConnected (childSlot i) = true → 0 < done) (env : Env) :
    ¬ WrapsCursor env i n := by
  rintro ⟨hlast, hi, hold, -⟩
  obtain ⟨-, -, hlt, -⟩ := hw.some (hdone hi)
  have hc := clusterSeq_lt_of_isOldBlockSeq hw (hdone hi) hold
  have hle := f.clusters_le
  have hmax : (0xffff : UInt16).toNat = 2 ^ 16 - 1 := rfl
  rw [hlast, hmax] at hc
  omega

theorem staysInRange {f : OriginFile} {n : Node} {phase : Phase} {done : Nat}
    {delivered : Fin maxChildNum → List UInt8} (hloop : LoopOk f n.webm phase done)
    (hserved : AllServed f n done delivered) (env : Env) : StaysInRange env n := by
  have hstart : Completed f (mulStreamStart n).webm done :=
    hloop.completed.congr (hloop.completed.grown rfl rfl rfl rfl rfl)
  have hdone : ∀ i, n.isConnected (childSlot i) = true → 0 < done := fun i hi => (hserved i hi).1
  refine ⟨not_wrapsCursor hstart (hdone 0) env, fun n₁ k hchild => ?_⟩
  have hnext : Completed f n₁.webm done ∧ n₁.connectedNodes = n.connectedNodes := by
    obtain ⟨_, _, _, _, rfl⟩ := (sendMulStreamChild_distributes hchild).streamed
    exact ⟨hstart.congr (hstart.grown rfl rfl rfl rfl rfl), rfl⟩
  refine not_wrapsCursor hnext.1 (fun hi => ?_) env
  rw [Node.isConnected, hnext.2] at hi
  exact hdone 1 hi

theorem StreamOk.inRange {f : OriginFile} {s : Streaming} (h : StreamOk f s) (l : OriginLabel) :
    InRange s l := by
  obtain ⟨done, hloop, hserved⟩ := h
  exact fun env _ => staysInRange hloop hserved env

/-! ## Below `2 ^ 32` bytes -/

/-- The child in slot `i` has been sent a prefix of the stream from the cluster it joined at,
all clusters before its cursor's; `SendMulStream` lets it wait only in the last completed
cluster or behind it, and does not fail. -/
structure DeliveredInOrder (f : OriginFile) (s : Streaming) (i : Fin maxChildNum) : Prop where
  isPrefix : s.delivered i <+: f.payloads (s.node.joined i) f.clusters.length
  joined_le : s.node.joined i ≤ (s.node.webm.currentChildBlock i).prev.clusterSeq.toNat
  covers : f.payloads (s.node.joined i) (s.node.webm.currentChildBlock i).prev.clusterSeq.toNat
    <+: s.delivered i
  waits : isOldBlockSeq (s.node.webm.currentChildBlock i).prev s.node.webm = false →
    s.node.webm.prevCluster.seq.toNat ≤ (s.node.webm.currentChildBlock i).prev.clusterSeq.toNat
  sends : ∀ env : Env, (∀ j, env.past j = 0) → ∃ n ret, sendMulStream env s.node = .ok (n, ret)

theorem le_of_not_isOldBlockSeq {info : BlockInfo} {w : Webm} (h : isOldBlockSeq info w = false) :
    w.prevCluster.seq.toNat ≤ info.clusterSeq.toNat := by
  simp only [isOldBlockSeq] at h
  split at h
  · cases h
  · next hle =>
    rw [UInt32.lt_iff_toNat_lt, UInt16.toNat_toUInt32] at hle
    omega

theorem StreamOk.deliveredInOrder {f : OriginFile} {s : Streaming} (hsmall : f.Small)
    (h : StreamOk f s) {i : Fin maxChildNum} (hi : s.node.isConnected (childSlot i) = true) :
    DeliveredInOrder f s i := by
  obtain ⟨done, hloop, hserved⟩ := h
  obtain ⟨hdone, c, k, hat, hjoined, hc, hdelivered⟩ := hserved i hi
  obtain ⟨-, -, hlt, -⟩ := hloop.completed.some hdone
  have hcluster := hat.cluster
  have hstream := f.payloads_append hjoined (show c ≤ f.clusters.length by omega)
  have hsucc := f.payloads_succ (le_refl c)
  rw [f.payloads_self, List.nil_append] at hsucc
  have hrest := f.payloads_append (show c ≤ c + 1 by omega)
    (show c + 1 ≤ f.clusters.length by omega)
  refine ⟨?_, by rw [hcluster]; exact hjoined, ?_, le_of_not_isOldBlockSeq, fun env hpast => ?_⟩
  · rw [hdelivered, ← hstream, ← hrest, hsucc]
    exact (List.prefix_append_right_inj _).mpr
      ((List.take_prefix k _).trans (List.prefix_append _ _))
  · rw [hdelivered, hcluster]
    exact List.prefix_append _ _
  · obtain ⟨n, ret, hsend, -⟩ := sendMulStream_served hsmall hpast
      (staysInRange hloop hserved env) hloop hserved
    exact ⟨n, ret, hsend⟩

/-- In every run of the origin every child is served in order. -/
theorem delivered_inOrder {f : OriginFile} {srcIp : UInt32} {start : Timeval}
    {blocks : Fin maxChildNum → Block} {current prev : Cluster} {total : Int} {s : Streaming}
    {ls : List OriginLabel} (hsmall : f.Small) (htotal : total ≤ f.bytes.length)
    (hrun : Run (OriginStep f) (streamStart f srcIp start blocks current prev total) ls s)
    {i : Fin maxChildNum} (hi : s.node.isConnected (childSlot i) = true) :
    DeliveredInOrder f s i := by
  have hkeep : ∀ s l t, StreamOk f s → OriginStep f s l t → StreamOk f t :=
    fun s l t hok hstep => streamOk_step hsmall hok (hok.inRange l) hstep
  have hok := hrun.invariant hkeep (streamOk_start f srcIp start blocks current prev htotal)
  exact hok.deliveredInOrder hsmall hi

/-- Two clusters of one SimpleBlock each. -/
def smallFile : OriginFile where
  header := []
  clusters := [smallPayload, smallPayload]
  header_lt := by decide
  clusters_le := by decide
  size_lt := by decide
  length_lt := by decide

theorem smallFile_small : smallFile.Small := by
  unfold StreamFile.Small
  decide

theorem delivered_inOrder_smallFile : ∃ ls s, Run (OriginStep smallFile)
    (streamStart smallFile 0 Timeval.zero freshBlocks Cluster.zero Cluster.zero
      smallFile.bytes.length) ls s ∧
    s.node.isConnected (childSlot 0) = true ∧ DeliveredInOrder smallFile s 0 := by
  obtain ⟨ls, s, hrun, hjoined⟩ := exists_run_firstJoined smallFile (by decide) 0 Timeval.zero
    freshBlocks Cluster.zero Cluster.zero
  have hi : s.node.isConnected (childSlot 0) = true := by
    rw [Node.isConnected, hjoined.connected]
    rfl
  exact ⟨ls, s, hrun, hi, delivered_inOrder smallFile_small (le_refl _) hrun hi⟩

end P2PStream
