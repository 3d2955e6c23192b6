/-
# `P2PStream.Node.Lists` — the node list, the except list and the random choice of a slot

`GetList` does not advance: unless the list is empty or its head has the id, it
loops for ever.  `GetCloestLayer` keeps the difference to the *last* entry only,
so the layer it computes is that entry's.
-/
import P2PStream.Node.State

namespace P2PStream

open Lib

/-! ## `NODES_LIST` -/

/-- `IsListContains`. -/
def isListContains (id : UInt16) (list : List NodeStatus) : Bool := list.any fun s => s.id = id

/-- `ListPush`: at the end; a list entry has no timestamp. -/
def listPush (list : List NodeStatus) (status : NodeStatus) : List NodeStatus :=
  list ++ [{ status with timestamp := Timeval.zero }]

/-- `ListUpdate`. -/
def listUpdate (list : List NodeStatus) (status : NodeStatus) : List NodeStatus :=
  list.map fun s => if s.id = status.id then { status with timestamp := s.timestamp } else s

/-- The loops of `NodeInitialStatus` and `NodeAdvertise`: records whose id is new. -/
def pushNew (list : List NodeStatus) (statuses : List NodeStatus) : List NodeStatus :=
  statuses.foldl (fun list s => if isListContains s.id list then list else listPush list s) list

/-- The loop of `NodeResList`. -/
def pushOrUpdate (list : List NodeStatus) (statuses : List NodeStatus) : List NodeStatus :=
  statuses.foldl
    (fun list s => if isListContains s.id list then listUpdate list s else listPush list s) list

/-- The records of a message, `count` of them from `data` on. -/
def readStatuses (data : Buf) (count : Nat) : List NodeStatus :=
  (List.range count).map fun i =>
    copyBytesToNodeStatus NodeStatus.zero (data.drop (nodeStatusBytes * i))

/-- `GetList`. -/
def getList (list : List NodeStatus) (id : UInt16) : Except Fault (Option NodeStatus) :=
  match list with
  | [] => .ok none
  | s :: _ => if s.id = id then .ok (some s) else .error .hang

/-- The loop of `GetList`, `fuel` rounds of it; `none` when they do not end it.  A round that finds
another id leaves the pointer where it is. -/
def getListLoop : Nat → List NodeStatus → UInt16 → Option (Option NodeStatus)
  | 0, _, _ => none
  | _ + 1, [], _ => some none
  | fuel + 1, s :: list, id => if s.id = id then some (some s) else getListLoop fuel (s :: list) id

theorem getListLoop_stays {s : NodeStatus} {id : UInt16} (hs : s.id ≠ id) (list : List NodeStatus)
    (fuel : Nat) : getListLoop fuel (s :: list) id = none := by
  induction fuel with
  | zero => rfl
  | succ fuel ih => rw [getListLoop, if_neg hs, ih]

theorem getList_eq_ok_iff {list : List NodeStatus} {id : UInt16} {found : Option NodeStatus} :
    getList list id = .ok found ↔ ∃ fuel, getListLoop fuel list id = some found := by
  cases list with
  | nil =>
      constructor
      · intro h
        cases h
        exact ⟨1, rfl⟩
      · rintro ⟨fuel, hfuel⟩
        cases fuel with
        | zero => cases hfuel
        | succ fuel =>
            cases hfuel
            rfl
  | cons s list =>
      by_cases hs : s.id = id
      · rw [getList, if_pos hs]
        constructor
        · intro h
          cases h
          exact ⟨1, if_pos hs⟩
        · rintro ⟨fuel, hfuel⟩
          cases fuel with
          | zero => cases hfuel
          | succ fuel =>
              rw [getListLoop, if_pos hs] at hfuel
              exact congrArg _ (Option.some.inj hfuel)
      · rw [getList, if_neg hs]
        constructor
        · intro h
          cases h
        · rintro ⟨fuel, hfuel⟩
          rw [getListLoop_stays hs] at hfuel
          cases hfuel

/-- The lookup ends, with the first entry that has the id, exactly in the empty list and in one
whose head has it. -/
theorem getListLoop_finds_iff (list : List NodeStatus) (id : UInt16) :
    (∃ fuel, getListLoop fuel list id = some (list.find? fun s => s.id = id)) ↔
      ∀ s ∈ list.head?, s.id = id := by
  cases list with
  | nil => exact iff_of_true ⟨1, rfl⟩ (by simp)
  | cons s list =>
      have hhead : (∀ t ∈ (s :: list).head?, t.id = id) ↔ s.id = id := by
        simp
      rw [hhead]
      constructor
      · rintro ⟨fuel, hfuel⟩
        by_contra hs
        rw [getListLoop_stays hs] at hfuel
        cases hfuel
      · intro hs
        refine ⟨1, ?_⟩
        have hfound : (s :: list).find? (fun s => s.id = id) = some s :=
          List.find?_cons_of_pos (decide_eq_true hs)
        rw [getListLoop, if_pos hs, hfound]

/-- The origin's entry behind another: it is in the list, and the lookup does not end. -/
theorem getListLoop_hangs :
    let list := [{ NodeStatus.zero with id := 1 }, NodeStatus.zero]
    list.find? (fun s => s.id = originId) = some NodeStatus.zero ∧
      ∀ fuel, getListLoop fuel list originId = none :=
  ⟨rfl, getListLoop_stays (by decide) _⟩

/-! ## `EXCEPT_LIST` -/

/-- `IsExceptListContains`. -/
def isExceptListContains (list : List UInt16) (id : UInt16) : Bool := list.any fun e => e = id

/-- `ExceptListPush`: an empty list gets the node's own id first. -/
def exceptListPush (myStatusId : UInt16) (list : List UInt16) (id : UInt16) : List UInt16 :=
  (if list = [] then [myStatusId] else list) ++ [id]

/-! ## Choosing a candidate -/

/-- `GetCloestLayer`. -/
def getCloestLayer (myLayer : UInt8) (list : List NodeStatus) : UInt8 :=
  let diffLayers := list.foldl (fun (_ : Int) s => (s.layer.toNat : Int) - myLayer.toNat) 0
  UInt8.ofInt (myLayer.toNat + diffLayers)

/-- `GetPriorList`. -/
def getPriorList (n : Node) : Option NodeStatus :=
  let cloestLayer := getCloestLayer n.myStatus.layer n.nodesList
  n.nodesList.find? fun s => !isExceptListContains n.exceptList s.id && s.layer = cloestLayer

/-- The candidate for a new parent, and whether it came from `GetPriorList`; otherwise it
is the origin's entry, which is followed even when there is none. -/
def candidate (n : Node) : Except Fault (NodeStatus × Bool) :=
  match getPriorList n with
  | some s => .ok (s, true)
  | none => do
      match ← getList n.nodesList originId with
      | some s => return (s, false)
      | none => throw .segv

/-! ## Choosing a slot -/

/-- The loop of `GenerateRndID`: the slot of the `rndVal`-th connected child. -/
def nthChild (n : Node) (rndVal : Int) : Option Slot :=
  (List.finRange maxChildNum).findSome? fun i =>
    let childCount := ((List.finRange maxChildNum).filter fun j =>
      j ≤ i ∧ n.isConnected (childSlot j)).length
    if (childCount : Int) = rndVal then some (childSlot i) else none

/-- `GenerateRndID` for the value `rand` of `rand()`; `none` is its `-1`. -/
def generateRndID (rand : Nat) (initVal range : Int) (n : Node) : Option Slot :=
  let rndVal := if range ≠ 0 then (rand : Int).tmod range + initVal else initVal
  if rndVal = 0 then some myId else nthChild n rndVal

/-- `CheckChildNum`: a child slot whose bit is clear; `none` is its `-1`. -/
def checkChildNum (n : Node) : Option (Fin maxChildNum) :=
  if n.currentChildNum < maxChildNum then
    (List.finRange maxChildNum).find? fun i => !n.isConnected (childSlot i)
  else none

/-- `NODES_STATUS[k]` for an index that need not be in the array. -/
def statusAt (n : Node) (env : Env) (k : Nat) : NodeStatus :=
  if h : k < 4 then n.nodesStatus ⟨k, h⟩ else env.stray k

/-- `IsDuplicatedChild`, which indexes the table with the id. -/
def isDuplicatedChild (id : UInt16) (env : Env) (n : Node) : Bool :=
  (List.finRange maxChildNum).any fun i =>
    n.isConnected (childSlot i) && id = (statusAt n env id.toNat).id

end P2PStream
