/-
# `P2PStream.Node.ParentBit` — the parent's bit

InitialStatus and Accept add the parent's bit to `CONNECTED_NODES`, Detach and the
parent's timeout subtract it.  Accept looks at the bit first, and a timeout needs it
set.  The other two do not look: a repeated InitialStatus carries out of the
parent's bit, and a repeated Detach borrows into it.
-/
import P2PStream.Node.Links

namespace P2PStream

open Lib

/-- The events of the link to the parent; a timeout is one only when it fires. -/
def ParentEvent (env : Env) (n : Node) : Event → Prop
  | .initialStatus _ _ | .accept _ | .detach _ => True
  | .timeout s => s = parentId ∧ isTimedOut env s n
  | _ => False

/-- A step of a peer's link to its parent. -/
def ParentStep (n : Node) (l : Env × Event) (n' : Node) : Prop :=
  ParentEvent l.1 n l.2 ∧ NodeStep .peer n l n'

/-- Whether the parent is linked after the event. -/
def linksParent : Event → Bool
  | .initialStatus _ _ | .accept _ => true
  | _ => false

/-- The parent's bit tells the event, and no other bit moves. -/
structure ParentBit (n : Node) (l : Env × Event) (n' : Node) : Prop where
  parent : n'.isConnected parentId = linksParent l.2
  others : ∀ j, j ≠ parentId.val → n'.connectedNodes.getLsbD j = n.connectedNodes.getLsbD j

/-- InitialStatus finds the bit clear, and Detach finds it set. -/
def ParentGuard (n : Node) (l : Env × Event) : Prop :=
  match l.2 with
  | .initialStatus _ _ => n.isConnected parentId = false
  | .detach _ => n.isConnected parentId = true
  | _ => True

theorem add_parent_iff (x : BitVec 8) :
    ((x + BitVec.twoPow 8 2).getLsbD 2 = true ∧
      ∀ j, j ≠ 2 → (x + BitVec.twoPow 8 2).getLsbD j = x.getLsbD j) ↔ x.getLsbD 2 = false := by
  constructor
  · rintro ⟨hset, -⟩
    rw [SlotBits.getLsbD_add_twoPow_self (by decide)] at hset
    exact (Bool.not_eq_true' _).mp hset
  · intro hclear
    refine ⟨?_, fun j hj => ?_⟩
    · rw [SlotBits.getLsbD_add_twoPow_self (by decide), hclear]
      rfl
    · rw [SlotBits.getLsbD_add_twoPow_of_clear hclear, decide_eq_false fun h => hj h.2.symm,
        Bool.or_false]

theorem sub_parent_iff (x : BitVec 8) :
    ((x - BitVec.twoPow 8 2).getLsbD 2 = false ∧
      ∀ j, j ≠ 2 → (x - BitVec.twoPow 8 2).getLsbD j = x.getLsbD j) ↔ x.getLsbD 2 = true := by
  constructor
  · rintro ⟨hclear, -⟩
    rw [SlotBits.getLsbD_sub_twoPow_self (by decide)] at hclear
    exact (Bool.not_eq_false' _).mp hclear
  · intro hset
    refine ⟨?_, fun j hj => ?_⟩
    · rw [SlotBits.getLsbD_sub_twoPow_self (by decide), hset]
      rfl
    · rw [SlotBits.getLsbD_sub_twoPow_of_set hset, decide_eq_true (Ne.symm hj), Bool.and_true]

/-- One event of the link moves the parent's bit alone, and as it should, exactly under
the guard. -/
theorem parentBit_step_iff {n n' : Node} {l : Env × Event} (hstep : ParentStep n l n') :
    ParentBit n l n' ↔ ParentGuard n l := by
  obtain ⟨env, e⟩ := l
  obtain ⟨hevent, hstep⟩ := hstep
  have hafter : LinksAfter .peer env n n'.links e := step_links hstep
  have hbit : ParentBit n (env, e) n' ↔ n'.links.connected.getLsbD 2 = linksParent e ∧
      ∀ j, j ≠ 2 → n'.links.connected.getLsbD j = n.links.connected.getLsbD j :=
    ⟨fun h => ⟨h.parent, h.others⟩, fun h => ⟨h.1, h.2⟩⟩
  rw [hbit]
  cases e with
  | initialStatus data k =>
      have hjoin : n'.links = (n.links.record _).join := hafter
      rw [hjoin]
      exact add_parent_iff n.connectedNodes
  | accept data =>
      have haccept : n'.links = if n.isConnected parentId then n.links.record (readLink data)
        else (n.links.record (readLink data)).join := hafter
      refine iff_of_true ?_ trivial
      rw [haccept]
      split
      · next hset => exact ⟨hset, fun j _ => rfl⟩
      · next hclear =>
        exact (add_parent_iff n.connectedNodes).mpr (Bool.eq_false_iff.mpr hclear)
  | detach data =>
      obtain ⟨id, hleave⟩ := hafter
      rw [hleave]
      exact sub_parent_iff n.connectedNodes
  | timeout s =>
      obtain ⟨rfl, ht⟩ := hevent
      have hdrop : n'.links = if isTimedOut env parentId n then n.links.drop parentId
        else n.links := hafter
      rw [hdrop, if_pos ht]
      refine iff_of_true ?_ trivial
      exact (sub_parent_iff n.connectedNodes).mpr (isConnected_of_isTimedOut ht)
  | _ => exact hevent.elim

/-- Over every sequence of the events of the link, from any state of a peer: each of them moves
the parent's bit alone, and as it should, exactly when each meets the guard. -/
theorem parentBit_iff_guarded {n n' : Node} {ls : List (Env × Event)} :
    Run (Guarded ParentStep ParentGuard) n ls n' ↔ Run (Safe ParentStep ParentBit) n ls n' := by
  refine Run.guarded_iff_safe (fun _ => True) ?_ ?_ trivial
  · intro s l t _ hguard hstep
    exact ⟨trivial, (parentBit_step_iff hstep).mpr hguard⟩
  · intro s l t _ hstep hbit
    exact (parentBit_step_iff hstep).mp hbit

/-- A repeated InitialStatus: the parent's bit is clear again, and bit 3 is set. -/
theorem initialStatus_twice :
    let initialStatus := (Env.clock ⟨1, 0⟩, Event.initialStatus
      (initialStatusData [statusOf 1 2 12346 1, statusOf 0 1 12345 0]) 68)
    ∃ n n', Run ParentStep firstPeer [initialStatus] n ∧ ParentStep n initialStatus n' ∧
      n'.isConnected parentId = false ∧ n.connectedNodes.getLsbD 3 = false ∧
      n'.connectedNodes.getLsbD 3 = true := by
  refine ⟨_, _, .cons ⟨trivial, rfl⟩ (.nil _), ⟨trivial, rfl⟩, ?_⟩
  decide +kernel

end P2PStream
