/-
# `P2PStream.Node.Steady` — what leaves the layers and the playback alone

Few events move a layer in the status table, and only the timer moves what the cache is
computed from.  `Steady` says that an event does neither; `step_steady` says which do
neither.
-/
import P2PStream.Node.Links

namespace P2PStream

open Lib

/-- The layers in the status table. -/
def Node.layers (n : Node) : Slot → UInt8 := fun s => (n.nodesStatus s).layer

/-- Whether blocks are played, and the two counts whose difference is the cache. -/
structure Playback where
  isBeginPlaying : Bool
  totalBuffer : UInt64
  playedBuffer : UInt64

def Node.playback (n : Node) : Playback := ⟨n.isBeginPlaying, n.totalBuffer, n.playedBuffer⟩

/-- Layers and playback are the same. -/
structure Steady (n n' : Node) : Prop where
  layers : n'.layers = n.layers
  playback : n'.playback = n.playback

theorem Steady.refl (n : Node) : Steady n n := ⟨rfl, rfl⟩

theorem Steady.trans {n₁ n₂ n₃ : Node} (h : Steady n₁ n₂) (h' : Steady n₂ n₃) : Steady n₁ n₃ :=
  ⟨h'.layers.trans h.layers, h'.playback.trans h.playback⟩

@[simp] theorem setStatus_layers (s : Slot) (status : NodeStatus) (n : Node) :
    (n.setStatus s status).layers = Function.update n.layers s status.layer := by
  funext t
  simp only [Node.layers, Node.setStatus, Function.update_apply]
  split <;> rfl

theorem setStatus_steady {s : Slot} {status : NodeStatus} {n : Node}
    (h : status.layer = (n.nodesStatus s).layer) : Steady n (n.setStatus s status) := by
  refine ⟨?_, rfl⟩
  rw [setStatus_layers, h]
  exact Function.update_eq_self s n.layers

theorem Talks.steady {n n' : Node} (h : Talks n n') : Steady n n' := by
  obtain ⟨ip, port, ps, rfl, -⟩ := h
  exact ⟨rfl, rfl⟩

theorem Talks.steady_behind {n m n' : Node} (h : Talks m n') (hm : Steady n m) : Steady n n' :=
  hm.trans h.steady

theorem nodeRetry_steady {env : Env} {n n' : Node} (h : nodeRetry env n = .ok n') :
    Steady n n' := by
  obtain ⟨prior, _, _, -, -, rfl⟩ := nodeRetry_asks h
  have hmy : Steady n (n.setStatus myId
      { n.myStatus with clusterSeq := n.webm.currentCluster.seq.toUInt16 }) := setStatus_steady rfl
  exact (connectTo_talks prior _).steady_behind ⟨hmy.layers, hmy.playback⟩

/-! ## The other events -/

/-- The events that record a layer, and the one that computes the cache. -/
def isSteady : Event → Bool
  | .setup .. | .initialStatus .. | .connect .. | .accept .. | .timeCache => false
  | _ => true

theorem step_steady {program : Program} {env : Env} {n n' : Node} {e : Event}
    (he : isSteady e = true) (h : n.step program env e = .ok n') : Steady n n' := by
  cases e with
  | id data =>
      cases program with
      | origin => cases h; exact .refl n
      | peer => cases h; exact setStatus_steady rfl
  | advertise data k => cases h; exact (nodeAdvertise_talks env data k n).steady_behind ⟨rfl, rfl⟩
  | block data k =>
      cases program with
      | origin => cases h; exact .refl n
      | peer =>
          obtain ⟨webm, -, h⟩ := bind_eq_ok.mp h
          cases h
          exact ⟨rfl, rfl⟩
  | depart data =>
      obtain ⟨count, connected, htalks⟩ := nodeDepart_talks h
      exact htalks.steady_behind ⟨rfl, rfl⟩
  | detach data =>
      obtain ⟨prior, _, -, rfl⟩ := nodeDetach_asks h
      let my := n.setStatus myId { n.myStatus with clusterSeq := readU16 data }
      have hmy : Steady n my := setStatus_steady rfl
      have hparent : Steady my (my.setStatus parentId
          { my.nodesStatus parentId with id := prior.id }) :=
        setStatus_steady rfl
      have hboth := hmy.trans hparent
      exact (connectTo_talks prior _).steady_behind ⟨hboth.layers, hboth.playback⟩
  | reqList data => cases h; exact (nodeReqList_talks data n).steady
  | resList data k => cases program <;> cases h <;> exact ⟨rfl, rfl⟩
  | unaccept data =>
      cases program with
      | origin => cases h; exact .refl n
      | peer =>
          obtain ⟨prior, _, _, -, -, rfl⟩ := nodeUnaccept_asks h
          exact (connectTo_talks prior _).steady_behind ⟨rfl, rfl⟩
  | keepAlive data => cases h; exact (nodeKeepAlive_talks data n).steady
  | keepAliveRes data =>
      cases h
      refine ⟨funext fun s => ?_, rfl⟩
      simp only [Node.layers, nodeKeepAliveRes]
      split <;> rfl
  | mulStream =>
      obtain ⟨_, _, _, _, rfl, -⟩ := step_mulStream_distributes h
      exact ⟨rfl, rfl⟩
  | timeKeepAlive => cases h; exact (timeKeepAlive_talks env n).steady_behind ⟨rfl, rfl⟩
  | timeSetup => cases h; exact (timeSetup_talks env n).steady_behind ⟨rfl, rfl⟩
  | timeout s =>
      rcases timeout_cases h with ⟨-, rfl⟩ | ⟨-, ⟨-, rfl⟩ | ⟨-, hretry⟩⟩
      · exact .refl n'
      · exact ⟨rfl, rfl⟩
      · have hdropped := nodeRetry_steady hretry
        exact ⟨hdropped.layers, hdropped.playback⟩
  | timeList => cases h; exact (timeList_talks env n).steady_behind ⟨rfl, rfl⟩
  | timeRetry =>
      rcases timeRetry_cases h with ⟨-, hretry⟩ | ⟨-, rfl⟩
      · exact nodeRetry_steady hretry
      · exact .refl n'
  | timeDepart => cases h; exact (timeDepart_talks env n).steady_behind ⟨rfl, rfl⟩
  | main webm => cases h; exact ⟨rfl, rfl⟩
  | setup | initialStatus | connect | accept | timeCache => cases he

end P2PStream
