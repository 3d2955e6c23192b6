/-
# `P2PStream.Peer.Resume` — where a node goes on under its next parent

A node that loses its parent writes a cluster number to its own record, and its Connect
carries that record to the next parent.  `NodeDetach` takes the number from the Detach:
it is the cluster in which the old parent's cursor stands.  `NodeRetry` takes the number
of the open cluster.  Only a join (`NodeInitialStatus`) writes it besides.
-/
import P2PStream.Node.Depart
import P2PStream.Node.Ids
import P2PStream.Peer.Run

namespace P2PStream

open Lib

/-- `NODES_STATUS[MY_ID].cluster_seq`. -/
def Node.resumeSeq (n : Node) : UInt16 := n.myStatus.clusterSeq

/-! ## Records -/

theorem setStatus_resumeSeq {s : Slot} (hs : s ≠ myId) (status : NodeStatus) (n : Node) :
    (n.setStatus s status).resumeSeq = n.resumeSeq := by
  have hmy : (n.setStatus s status).myStatus = n.myStatus := Function.update_of_ne hs.symm ..
  exact congrArg (fun s : NodeStatus => s.clusterSeq) hmy

theorem setMyStatus_resumeSeq (status : NodeStatus) (n : Node) :
    (n.setStatus myId status).resumeSeq = status.clusterSeq := by
  have hmy : (n.setStatus myId status).myStatus = status := by
    show Function.update n.nodesStatus myId status myId = status
    exact Function.update_self ..
  exact congrArg (fun s : NodeStatus => s.clusterSeq) hmy

theorem admitChild_resumeSeq (env : Env) (i : Fin maxChildNum) (n : Node) :
    (admitChild env i n).resumeSeq = n.resumeSeq :=
  setStatus_resumeSeq (childSlot_ne_myId i) _ n

theorem Talks.resumeSeq {n n' : Node} (h : Talks n n') : n'.resumeSeq = n.resumeSeq := by
  obtain ⟨ip, port, ps, rfl, -⟩ := h
  rfl

/-! ## The Connect -/

/-- The last packet sent is a Connect with the node's own record. -/
def AsksFor (n : Node) : Prop :=
  lastData n = connectProto :: copyNodeStatusToBytes n.myStatus

theorem connectTo_asksFor (status : NodeStatus) (n : Node) : AsksFor (connectTo status n) := by
  have hlength : (connectProto :: copyNodeStatusToBytes n.myStatus).length =
      1 + nodeStatusBytes := by
    rw [List.length_cons, length_copyNodeStatusToBytes]
    rfl
  have hsent := lastData_sendData (connectProto :: copyNodeStatusToBytes n.myStatus)
    (k := 1 + nodeStatusBytes) (Nat.le_of_eq hlength.symm) (by decide) tmpId
    (renewDstFor status tmpId n)
  rw [List.take_of_length_le (Nat.le_of_eq hlength)] at hsent
  exact hsent

theorem AsksFor.clusterSeq {n : Node} {data : Buf} (h : AsksFor n)
    (hdata : data.Holds (lastData n).tail) :
    (copyBytesToBlockInfo data).clusterSeq = n.resumeSeq := by
  rw [h, List.tail_cons] at hdata
  exact congrArg (fun s : NodeStatus => s.clusterSeq)
    (copyBytesToNodeStatus_of_holds NodeStatus.zero hdata)

theorem nodeUnaccept_resume {data : Buf} {n n' : Node} (h : nodeUnaccept data n = .ok n') :
    n'.resumeSeq = n.resumeSeq ∧ AsksFor n' := by
  obtain ⟨prior, _, _, -, -, rfl⟩ := nodeUnaccept_asks h
  exact ⟨rfl, connectTo_asksFor ..⟩

theorem nodeRetry_resume {env : Env} {n n' : Node} (h : nodeRetry env n = .ok n') :
    n'.resumeSeq = n.webm.currentCluster.seq.toUInt16 ∧ AsksFor n' := by
  obtain ⟨prior, _, _, -, -, rfl⟩ := nodeRetry_asks h
  exact ⟨(connectTo_talks prior _).resumeSeq.trans (setMyStatus_resumeSeq ..), connectTo_asksFor ..⟩

theorem timeout_resume {env : Env} {n n' : Node} (hout : isTimedOut env parentId n = true)
    (h : timeout env parentId n = .ok n') :
    n'.resumeSeq = n.webm.currentCluster.seq.toUInt16 ∧ AsksFor n' := by
  rcases timeout_cases h with ⟨hin, -⟩ | ⟨-, ⟨hs, -⟩ | ⟨-, hretry⟩⟩
  · rw [hout] at hin
    cases hin
  · exact absurd rfl hs
  · obtain ⟨hresume, hasks⟩ := nodeRetry_resume hretry
    exact ⟨hresume, hasks⟩

theorem timeRetry_resume {env : Env} {n n' : Node}
    (hdue : (n.isRetry && n.exceeds env n.retryTimestamp fiveSeconds) = true)
    (h : timeRetry env n = .ok n') :
    n'.resumeSeq = n.webm.currentCluster.seq.toUInt16 ∧ AsksFor n' := by
  rcases timeRetry_cases h with ⟨-, hretry⟩ | ⟨hnot, -⟩
  · exact nodeRetry_resume hretry
  · rw [hdue] at hnot
    cases hnot

theorem nodeDetach_resume {env : Env} {data : Buf} {n n' : Node}
    (h : nodeDetach env data n = .ok n') : n'.resumeSeq = readU16 data ∧ AsksFor n' := by
  obtain ⟨prior, _, -, rfl⟩ := nodeDetach_asks h
  refine ⟨?_, connectTo_asksFor ..⟩
  have hmine := setMyStatus_resumeSeq { n.myStatus with clusterSeq := readU16 data } n
  exact (setStatus_resumeSeq (by decide) _ _).trans hmine

/-! ## The other handlers -/

theorem nodeSetup_resumeSeq {env : Env} {data : Buf} {saddr : UInt32} {source : UInt16}
    {n n' : Node} (h : nodeSetup env data saddr source n = .ok n') :
    n'.resumeSeq = n.resumeSeq := by
  rcases nodeSetup_cases h with ⟨-, ad, rfl⟩ | ⟨-, i, -, rfl⟩
  · rfl
  · rw [setupAdmission, admitChild_resumeSeq]
    exact setStatus_resumeSeq (childSlot_ne_myId i) ..

theorem nodeConnect_resumeSeq {env : Env} {data : Buf} {n n' : Node}
    (h : nodeConnect env data n = .ok n') : n'.resumeSeq = n.resumeSeq := by
  rcases nodeConnect_cases h with ⟨-, rfl | rfl⟩ | ⟨-, i, -, rfl⟩
  · rfl
  · rfl
  · rw [connectAdmission, admitChild_resumeSeq]
    exact setStatus_resumeSeq (childSlot_ne_myId i) ..

theorem nodeDepart_resumeSeq {env : Env} {data : Buf} {n n' : Node}
    (h : nodeDepart env data n = .ok n') : n'.resumeSeq = n.resumeSeq :=
  congrArg (fun f : Slot → NodeStatus => (f myId).clusterSeq) (nodeDepart_spec h).1

theorem nodeAccept_resumeSeq (env : Env) (data : Buf) (n : Node) :
    (nodeAccept env data n).resumeSeq = n.resumeSeq := by
  obtain ⟨parent, _, _, hafter, -⟩ := nodeAccept_changes env data n
  rw [hafter]
  exact setMyStatus_resumeSeq { n.myStatus with layer := parent.layer + 1 }
    (n.setStatus parentId parent)

theorem nodeKeepAliveRes_resumeSeq (env : Env) (data : Buf) (n : Node) :
    (nodeKeepAliveRes env data n).resumeSeq = n.resumeSeq := by
  simp only [nodeKeepAliveRes, Node.resumeSeq, Node.myStatus]
  split <;> rfl

/-! ## Steps -/

/-- The events that write the number: the node joins, or it loses its parent. -/
def setsResume (env : Env) (n : Node) : Event → Bool
  | .initialStatus .. | .detach _ => true
  | .timeout s => s = parentId && isTimedOut env s n
  | .timeRetry => n.isRetry && n.exceeds env n.retryTimestamp fiveSeconds
  | _ => false

theorem timeout_resumeSeq {env : Env} {s : Slot} {n n' : Node} (h : timeout env s n = .ok n')
    (hs : setsResume env n (.timeout s) = false) : n'.resumeSeq = n.resumeSeq := by
  rcases timeout_cases h with ⟨-, rfl⟩ | ⟨hout, ⟨-, rfl⟩ | ⟨hparent, -⟩⟩
  · rfl
  · rfl
  · rw [setsResume, hout, decide_eq_true hparent] at hs
    cases hs

theorem step_resumeSeq {env : Env} {n n' : Node} {e : Event} (he : setsResume env n e = false)
    (h : n.step .peer env e = .ok n') : n'.resumeSeq = n.resumeSeq := by
  cases e with
  | initialStatus | detach => cases he
  | setup data k saddr source => exact nodeSetup_resumeSeq h
  | id data => cases h; exact setMyStatus_resumeSeq ..
  | advertise data k => cases h; exact (nodeAdvertise_talks env data k n).resumeSeq
  | block data k =>
      obtain ⟨webm, -, h⟩ := bind_eq_ok.mp h
      cases h
      rfl
  | connect data => exact nodeConnect_resumeSeq h
  | depart data => exact nodeDepart_resumeSeq h
  | reqList data => cases h; exact (nodeReqList_talks data n).resumeSeq
  | resList data k => cases h; rfl
  | accept data => cases h; exact nodeAccept_resumeSeq env data n
  | unaccept data => exact (nodeUnaccept_resume h).1
  | keepAlive data => cases h; exact (nodeKeepAlive_talks data n).resumeSeq
  | keepAliveRes data => cases h; exact nodeKeepAliveRes_resumeSeq env data n
  | mulStream =>
      obtain ⟨_, _, _, _, rfl, -⟩ := step_mulStream_distributes h
      rfl
  | timeKeepAlive => cases h; exact (timeKeepAlive_talks env n).resumeSeq
  | timeSetup => cases h; exact (timeSetup_talks env n).resumeSeq
  | timeout s => exact timeout_resumeSeq h he
  | timeList => cases h; exact (timeList_talks env n).resumeSeq
  | timeRetry =>
      rcases timeRetry_cases h with ⟨hdue, -⟩ | ⟨-, rfl⟩
      · rw [setsResume, hdue] at he
        cases he
      · rfl
  | timeCache =>
      cases h
      obtain ⟨_, _, _, _, _, _, hafter⟩ := timeCache_changes env n
      rw [hafter]
      rfl
  | timeDepart => cases h; exact (timeDepart_talks env n).resumeSeq
  | main webm => cases h; rfl

theorem run_resumeSeq {n n' : Node} {ls : List (Env × Event)}
    (hrun : Run (Guarded (NodeStep .peer) fun n l => setsResume l.1 n l.2 = false) n ls n') :
    n'.resumeSeq = n.resumeSeq := by
  have hkeep : ∀ s l t, s.resumeSeq = n.resumeSeq → setsResume l.1 s l.2 = false →
      NodeStep .peer s l t → t.resumeSeq = n.resumeSeq :=
    fun s l t hsame hnot hstep => (step_resumeSeq hnot hstep).trans hsame
  exact hrun.guarded_invariant hkeep rfl

end P2PStream
