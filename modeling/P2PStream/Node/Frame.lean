/-
# `P2PStream.Node.Frame` — the events that store nothing

Most events send packets and move links.  They touch neither the file and its
cursors, nor the node list, nor the counter of ids: `SameStore`.
-/
import P2PStream.Node.Links

namespace P2PStream

open Lib

/-- What is stored is the same. -/
structure SameStore (n n' : Node) : Prop where
  webm : n'.webm = n.webm
  nodesList : n'.nodesList = n.nodesList
  currentNodeId : n'.currentNodeId = n.currentNodeId

theorem SameStore.refl (n : Node) : SameStore n n := ⟨rfl, rfl, rfl⟩

theorem SameStore.trans {n₁ n₂ n₃ : Node} (h : SameStore n₁ n₂) (h' : SameStore n₂ n₃) :
    SameStore n₁ n₃ :=
  ⟨h'.webm.trans h.webm, h'.nodesList.trans h.nodesList, h'.currentNodeId.trans h.currentNodeId⟩

theorem Talks.sameStore {n n' : Node} (h : Talks n n') : SameStore n n' := by
  obtain ⟨ip, port, ps, rfl, -⟩ := h
  exact ⟨rfl, rfl, rfl⟩

theorem Talks.sameStore_behind {n m n' : Node} (h : Talks m n') (hm : SameStore n m) :
    SameStore n n' := hm.trans h.sameStore

theorem nodeRetry_sameStore {env : Env} {n n' : Node} (h : nodeRetry env n = .ok n') :
    SameStore n n' := by
  obtain ⟨prior, _, _, -, -, rfl⟩ := nodeRetry_asks h
  exact (connectTo_talks prior _).sameStore_behind ⟨rfl, rfl, rfl⟩

theorem nodeDepart_sameStore {env : Env} {data : Buf} {n n' : Node}
    (h : nodeDepart env data n = .ok n') : SameStore n n' := by
  obtain ⟨count, connected, htalks⟩ := nodeDepart_talks h
  exact htalks.sameStore_behind ⟨rfl, rfl, rfl⟩

/-! ## Quiet events -/

/-- The events of a peer that store nothing. -/
def isQuiet : Event → Bool
  | .setup .. | .initialStatus .. | .advertise .. | .block .. | .connect .. | .resList .. |
    .accept .. | .mulStream | .main .. => false
  | _ => true

theorem step_sameStore {env : Env} {n n' : Node} {e : Event} (he : isQuiet e = true)
    (h : n.step .peer env e = .ok n') : SameStore n n' := by
  cases e with
  | id data => cases h; exact ⟨rfl, rfl, rfl⟩
  | depart data => exact nodeDepart_sameStore h
  | detach data =>
      obtain ⟨prior, _, -, rfl⟩ := nodeDetach_asks h
      exact (connectTo_talks prior _).sameStore_behind ⟨rfl, rfl, rfl⟩
  | reqList data => cases h; exact (nodeReqList_talks data n).sameStore
  | unaccept data =>
      obtain ⟨prior, _, _, -, -, rfl⟩ := nodeUnaccept_asks h
      exact (connectTo_talks prior _).sameStore_behind ⟨rfl, rfl, rfl⟩
  | keepAlive data => cases h; exact (nodeKeepAlive_talks data n).sameStore
  | keepAliveRes data => cases h; exact ⟨rfl, rfl, rfl⟩
  | timeKeepAlive => cases h; exact (timeKeepAlive_talks env n).sameStore_behind ⟨rfl, rfl, rfl⟩
  | timeSetup => cases h; exact (timeSetup_talks env n).sameStore_behind ⟨rfl, rfl, rfl⟩
  | timeout s =>
      rcases timeout_cases h with ⟨-, rfl⟩ | ⟨-, ⟨-, rfl⟩ | ⟨-, hretry⟩⟩
      · exact .refl n'
      · exact ⟨rfl, rfl, rfl⟩
      · have hdropped := nodeRetry_sameStore hretry
        exact ⟨hdropped.webm, hdropped.nodesList, hdropped.currentNodeId⟩
  | timeList => cases h; exact (timeList_talks env n).sameStore_behind ⟨rfl, rfl, rfl⟩
  | timeRetry =>
      rcases timeRetry_cases h with ⟨-, hretry⟩ | ⟨-, rfl⟩
      · exact nodeRetry_sameStore hretry
      · exact .refl n'
  | timeCache =>
      cases h
      obtain ⟨_, _, _, _, _, _, hafter⟩ := timeCache_changes env n
      rw [hafter]
      exact ⟨rfl, rfl, rfl⟩
  | timeDepart => cases h; exact (timeDepart_talks env n).sameStore_behind ⟨rfl, rfl, rfl⟩
  | _ => cases he

end P2PStream
