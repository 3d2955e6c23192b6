/-
# `P2PStream.Node.Closest` — the candidate for a new parent

`GetPriorList` is to find a node near the own layer that is not on the except list.
`GetCloestLayer` goes over the whole list, excluded nodes included, and keeps the
difference of the last entry: the candidate is the first on *its* layer.
-/
import P2PStream.Lib.KeyedList
import P2PStream.Node.Event

namespace P2PStream

open Lib

/-! ## The candidates -/

/-- The listed nodes that are not in `EXCEPT_LIST`. -/
def candidates (n : Node) : List NodeStatus :=
  n.nodesList.filter fun s => !isExceptListContains n.exceptList s.id

/-- How far the layer of `s` is from the node's own. -/
def layerDistance (n : Node) (s : NodeStatus) : Nat :=
  ((s.layer.toNat : Int) - n.myStatus.layer.toNat).natAbs

/-- The first of the candidates nearest to the own layer, or `NULL` when there is none. -/
def ClosestCandidate (n : Node) (prior : Option NodeStatus) : Prop :=
  prior = (candidates n).argmin (layerDistance n)

theorem layerDistance_congr {n : Node} {s t : NodeStatus} (h : s.layer = t.layer) :
    layerDistance n s = layerDistance n t := by
  rw [layerDistance, layerDistance, h]

/-! ## What `GetPriorList` finds -/

theorem getCloestLayer_concat (layer : UInt8) (l : List NodeStatus) (last : NodeStatus) :
    getCloestLayer layer (l ++ [last]) = last.layer := by
  have hdiff :
      (layer.toNat : Int) + ((last.layer.toNat : Int) - layer.toNat) = last.layer.toNat := by
    omega
  have hlt := last.layer.toNat_lt
  have hbyte : ((last.layer.toNat : Int) % 2 ^ 8).toNat = last.layer.toNat := by omega
  simp only [getCloestLayer, List.foldl_append, List.foldl_cons, List.foldl_nil, hdiff, UInt8.ofInt,
    hbyte, UInt8.ofNat_toNat]

theorem getPriorList_concat {n : Node} {l : List NodeStatus} {last : NodeStatus}
    (h : n.nodesList = l ++ [last]) :
    getPriorList n = (candidates n).find? fun s => s.layer = last.layer := by
  have hlayer : getCloestLayer n.myStatus.layer n.nodesList = last.layer := by
    rw [h, getCloestLayer_concat]
  simp only [getPriorList, candidates, List.find?_filter, hlayer, Bool.decide_and,
    Bool.decide_eq_true]

/-- `GetPriorList` finds the closest candidate where it lies on the layer of the last entry. -/
theorem getPriorList_closest_iff (n : Node) :
    ClosestCandidate n (getPriorList n) ↔
      ∀ closest ∈ (candidates n).argmin (layerDistance n), ∀ last ∈ n.nodesList.getLast?,
        closest.layer = last.layer := by
  rw [ClosestCandidate]
  rcases List.eq_nil_or_concat' n.nodesList with hnil | ⟨l, last, hlist⟩
  · have hprior : getPriorList n = none := by rw [getPriorList, hnil, List.find?_nil]
    have hcandidates : candidates n = [] := by rw [candidates, hnil, List.filter_nil]
    rw [hprior, hcandidates]
    exact iff_of_true rfl nofun
  · rw [getPriorList_concat hlist, hlist, List.getLast?_concat]
    constructor
    · intro h closest hclosest _ hlast
      obtain rfl := Option.some.inj hlast
      rw [Option.mem_def.mp hclosest] at h
      have hfound := List.find?_some h
      exact of_decide_eq_true hfound
    · intro h
      cases hclosest : (candidates n).argmin (layerDistance n) with
      | none =>
          rw [List.argmin_eq_none.mp hclosest, List.find?_nil]
      | some closest =>
          rw [← h closest hclosest last rfl]
          exact find?_key_of_mem_argmin (fun _ => layerDistance_congr) hclosest

/-- A node that the last listed node has refused. -/
def refusedNode : Node := { firstPeer with
  nodesList := [statusOf 0 1 osPort 0, statusOf 2 3 12347 1]
  exceptList := [2] }

/-- The other listed node is not found, though it is on the node's own layer. -/
theorem prior_missed : ¬ ClosestCandidate refusedNode (getPriorList refusedNode) := by
  rw [ClosestCandidate]
  decide

end P2PStream
