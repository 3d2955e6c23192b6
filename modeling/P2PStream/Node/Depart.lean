/-
# `P2PStream.Node.Depart` — a child that departs

`NodeDepart` looks for the id in the records of both child slots, not only of the
connected ones, and leaves the record in place: `InitNodeStatus` clears a copy.  So a
second Depart, or one for a child that timed out, subtracts a bit that is clear and
counts a child that is gone.
-/
import P2PStream.Node.Join

namespace P2PStream

open Lib

/-! ## The handler -/

/-- The record of child slot `i` has the id. -/
def Names (n : Node) (id : UInt16) (i : Fin maxChildNum) : Prop :=
  (n.nodesStatus (childSlot i)).id = id

instance (n : Node) (id : UInt16) (i : Fin maxChildNum) : Decidable (Names n id i) :=
  inferInstanceAs (Decidable (_ = _))

/-- The child slots whose record has the id, counted. -/
def namesCount (n : Node) (id : UInt16) : Int :=
  (if Names n id 0 then 1 else 0) + if Names n id 1 then 1 else 0

/-- The local `cluster_seq` behind the loop of `NodeDepart`. -/
def departSeq (env : Env) (id : UInt16) (n : Node) : UInt16 :=
  if Names n id 1 then htons (n.webm.currentChildBlock 1).prev.clusterSeq
  else if Names n id 0 then htons (n.webm.currentChildBlock 0).prev.clusterSeq
  else env.uninitSeq

theorem departChild_eq (id : UInt16) (i : Fin maxChildNum) (n : Node) (seq : UInt16) :
    departChild id i n seq =
      ({ n with
        currentChildNum := n.currentChildNum - if Names n id i then 1 else 0
        connectedNodes := n.connectedNodes - if Names n id i then BitVec.twoPow 8 i else 0#8 },
      if Names n id i then htons (n.webm.currentChildBlock i).prev.clusterSeq else seq) := by
  by_cases h : Names n id i
  · have h' : (n.nodesStatus (childSlot i)).id = id := h
    simp only [departChild, if_pos h', if_pos h]
    rfl
  · have h' : ¬ (n.nodesStatus (childSlot i)).id = id := h
    simp only [departChild, if_neg h', if_neg h, Int.sub_zero, BitVec.sub_zero]

/-- What `NodeDepart` does to the members, and what it answers. -/
theorem nodeDepart_spec {env : Env} {data : Buf} {n n' : Node}
    (h : nodeDepart env data n = .ok n') :
    n'.nodesStatus = n.nodesStatus ∧
    n'.connectedNodes = n.connectedNodes -
      (if Names n (readLink data).id 0 then BitVec.twoPow 8 0 else 0#8) -
      (if Names n (readLink data).id 1 then BitVec.twoPow 8 1 else 0#8) ∧
    n'.currentChildNum = n.currentChildNum - namesCount n (readLink data).id ∧
    n'.webm = n.webm ∧
    lastData n' = detachProto :: (toBe 2 (departSeq env (readLink data).id n).toNat).reverse := by
  have hid : (copyBytesToNodeStatus NodeStatus.zero data).id = (readLink data).id := rfl
  simp only [nodeDepart, hid] at h
  split at h
  · cases h
  · cases h
    simp only [departChild_eq, sendDetach, lastData_eq_take]
    refine ⟨rfl, rfl, ?_, rfl, ?_⟩
    · show n.currentChildNum - _ - _ = n.currentChildNum - (_ + _)
      rw [Int.sub_sub]
      rfl
    · rfl

theorem exists_nodeDepart {env : Env} {data : Buf} {n : Node}
    (hblocks : n.webm.childBlocksAllocated = true) : ∃ n', nodeDepart env data n = .ok n' := by
  simp only [nodeDepart, hblocks, Bool.not_true, Bool.and_false]
  exact ⟨_, rfl⟩

theorem nodeDepart_allocated {env : Env} {data : Buf} {n n' : Node}
    (h : nodeDepart env data n = .ok n') {i : Fin maxChildNum} (hi : Names n (readLink data).id i) :
    n.webm.childBlocksAllocated = true := by
  have hchild : ((List.finRange maxChildNum).any fun i =>
      (n.nodesStatus (childSlot i)).id = (copyBytesToNodeStatus NodeStatus.zero data).id) = true :=
    List.any_eq_true.mpr ⟨i, List.mem_finRange i, decide_eq_true hi⟩
  simp only [nodeDepart, hchild, Bool.true_and] at h
  split at h
  · cases h
  · next halloc => simpa using halloc

theorem reverse_toBe_htons (x : UInt16) : (toBe 2 (htons x).toNat).reverse = toBe 2 x.toNat := by
  have hlt : ofBe (toBe 2 x.toNat).reverse < UInt16.size := by
    have := ofBe_lt (toBe 2 x.toNat).reverse
    rwa [List.length_reverse, length_toBe] at this
  have hbytes : toBe 2 (htons x).toNat = (toBe 2 x.toNat).reverse := by
    have hinv := toBe_ofBe (toBe 2 x.toNat).reverse
    rw [List.length_reverse, length_toBe] at hinv
    rw [htons, UInt16.toNat_ofNat_of_lt' hlt, hinv]
  rw [hbytes, List.reverse_reverse]

/-! ## What it should do -/

/-- The members are as they were. -/
structure SameMembers (n n' : Node) : Prop where
  connected : n'.connectedNodes = n.connectedNodes
  count : n'.currentChildNum = n.currentChildNum
  status : n'.nodesStatus = n.nodesStatus

/-- Child slot `i` is left, and nothing else; the answer carries the child's cursor. -/
structure Departed (n : Node) (i : Fin maxChildNum) (n' : Node) : Prop where
  bits : ∀ j, n'.connectedNodes.getLsbD j = (n.connectedNodes.getLsbD j && decide (i.val ≠ j))
  count : n'.currentChildNum = n.currentChildNum - 1
  others : ∀ s, s ≠ childSlot i → n'.nodesStatus s = n.nodesStatus s
  reply : lastData n' =
    detachProto :: toBe 2 (n.webm.currentChildBlock i).prev.clusterSeq.toNat

/-- A Depart of `id`, but for the record of the child that left. -/
structure DepartsMember (n : Node) (id : UInt16) (n' : Node) : Prop where
  member : ∀ i, n.isConnected (childSlot i) = true → Names n id i → Departed n i n'
  stranger : (∀ i, n.isConnected (childSlot i) = true → ¬ Names n id i) → SameMembers n n'

/-- A Depart of `id`, after which the same Depart changes nothing. -/
structure DepartsOnce (program : Program) (n : Node) (data : Buf) (n' : Node) : Prop extends
    DepartsMember n (readLink data).id n' where
  cleared : ∀ i, n.isConnected (childSlot i) = true → Names n (readLink data).id i →
    n'.nodesStatus (childSlot i) = NodeStatus.zero
  again : ∀ env n'', NodeStep program n' (env, .depart data) n'' → SameMembers n' n''

/-! ## When it does -/

/-- One child slot alone records the id, and it is connected. -/
def NamesMember (n : Node) (id : UInt16) : Prop :=
  ∃ i, n.isConnected (childSlot i) = true ∧ Names n id i ∧ ∀ j, j ≠ i → ¬ Names n id j

section Steps

variable {program : Program} {env : Env} {data : Buf} {n n' : Node}

theorem namesCount_eq_zero_iff (n : Node) (id : UInt16) :
    namesCount n id = 0 ↔ ∀ i, ¬ Names n id i := by
  have hboth : (∀ i, ¬ Names n id i) ↔ ¬ Names n id 0 ∧ ¬ Names n id 1 := Fin.forall_fin_two
  rw [hboth, namesCount]
  by_cases h₀ : Names n id 0 <;> by_cases h₁ : Names n id 1 <;> simp [h₀, h₁]

theorem namesCount_eq_one {id : UInt16} {i : Fin maxChildNum} (hi : Names n id i)
    (hcount : namesCount n id = 1) : ∀ j, j ≠ i → ¬ Names n id j := by
  intro j hj hnames
  have hone : i = 0 ∧ j = 1 ∨ i = 1 ∧ j = 0 := by
    rcases child_eq i with rfl | rfl <;> rcases child_eq j with rfl | rfl <;> simp at hj ⊢
  rw [namesCount] at hcount
  rcases hone with ⟨rfl, rfl⟩ | ⟨rfl, rfl⟩ <;> simp [hi, hnames] at hcount

theorem sameMembers_of_names (h : nodeDepart env data n = .ok n')
    (hnone : ∀ i, ¬ Names n (readLink data).id i) : SameMembers n n' := by
  obtain ⟨hstatus, hbits, hcount, -⟩ := nodeDepart_spec h
  rw [if_neg (hnone 0), if_neg (hnone 1), BitVec.sub_zero, BitVec.sub_zero] at hbits
  rw [(namesCount_eq_zero_iff _ _).mpr hnone, Int.sub_zero] at hcount
  exact ⟨hbits, hcount, hstatus⟩

theorem departed_of_names (h : nodeDepart env data n = .ok n') {i : Fin maxChildNum}
    (hconn : n.isConnected (childSlot i) = true) (hi : Names n (readLink data).id i)
    (hothers : ∀ j, j ≠ i → ¬ Names n (readLink data).id j) : Departed n i n' := by
  obtain ⟨hstatus, hbits, hcount, -, hreply⟩ := nodeDepart_spec h
  have hsub : n'.connectedNodes = n.connectedNodes - BitVec.twoPow 8 i ∧
      n'.currentChildNum = n.currentChildNum - 1 ∧ departSeq env (readLink data).id n =
        htons (n.webm.currentChildBlock i).prev.clusterSeq := by
    rcases child_eq i with rfl | rfl
    · have h₁ := hothers 1 (by decide)
      simp [hbits, hcount, namesCount, departSeq, hi, h₁]
    · have h₀ := hothers 0 (by decide)
      simp [hbits, hcount, namesCount, departSeq, hi, h₀]
  refine ⟨fun j => ?_, hsub.2.1, fun s _ => congrFun hstatus s, ?_⟩
  · rw [hsub.1]
    exact SlotBits.getLsbD_sub_twoPow_of_set hconn j
  · rw [hreply, hsub.2.2, reverse_toBe_htons]

/-- Apart from the record, a Depart is right exactly when its id is recorded nowhere, or once and
by a connected child. -/
theorem departsMember_iff (h : nodeDepart env data n = .ok n') :
    DepartsMember n (readLink data).id n' ↔
      (∀ i, ¬ Names n (readLink data).id i) ∨ NamesMember n (readLink data).id := by
  obtain ⟨-, -, hcount, -⟩ := nodeDepart_spec h
  constructor
  · intro hdeparts
    by_cases hmember : ∃ i, n.isConnected (childSlot i) = true ∧ Names n (readLink data).id i
    · obtain ⟨i, hconn, hi⟩ := hmember
      have hone := (hdeparts.member i hconn hi).count
      exact .inr ⟨i, hconn, hi, namesCount_eq_one hi (by omega)⟩
    · have hsame := (hdeparts.stranger fun i hconn hi => hmember ⟨i, hconn, hi⟩).count
      exact .inl ((namesCount_eq_zero_iff _ _).mp (by omega))
  · rintro (hnone | ⟨i, hconn, hi, hothers⟩)
    · exact ⟨fun i _ hi => absurd hi (hnone i), fun _ => sameMembers_of_names h hnone⟩
    · refine ⟨fun j hj hnames => ?_, fun hstranger => absurd hi (hstranger i hconn)⟩
      obtain rfl : j = i := by_contra fun hne => hothers j hne hnames
      exact departed_of_names h hconn hi hothers

/-- A Depart is right, and changes nothing when it is repeated, exactly when its id is recorded
nowhere. -/
theorem departsOnce_iff (h : nodeDepart env data n = .ok n') :
    DepartsOnce program n data n' ↔ ∀ i, ¬ Names n (readLink data).id i := by
  obtain ⟨hstatus, -, -, hwebm, -⟩ := nodeDepart_spec h
  have hnames : ∀ i, Names n' (readLink data).id i ↔ Names n (readLink data).id i := by
    intro i
    rw [Names, Names, hstatus]
  constructor
  · intro honce i hi
    have hblocks := nodeDepart_allocated h hi
    rw [← hwebm] at hblocks
    obtain ⟨n'', hagain⟩ : ∃ n'', nodeDepart env data n' = .ok n'' := exists_nodeDepart hblocks
    have hsame := (honce.again env n'' hagain).count
    obtain ⟨-, -, hcount, -⟩ := nodeDepart_spec hagain
    have hnone := (namesCount_eq_zero_iff _ _).mp
      (show namesCount n' (readLink data).id = 0 by omega)
    exact hnone i ((hnames i).mpr hi)
  · intro hnone
    refine ⟨(departsMember_iff h).mpr (.inl hnone), fun i _ hi => absurd hi (hnone i), ?_⟩
    intro env' n'' hagain
    exact sameMembers_of_names hagain fun i hi => hnone i ((hnames i).mp hi)

end Steps

/-! ## Runs -/

/-- No child slot records the id of a Depart. -/
def DepartGuard (n : Node) (l : Env × Event) : Prop :=
  ∀ data, l.2 = .depart data → ∀ i, ¬ Names n (readLink data).id i

/-- The id of a Depart is recorded nowhere, or once and by a connected child. -/
def DepartMemberGuard (n : Node) (l : Env × Event) : Prop :=
  ∀ data, l.2 = .depart data →
    (∀ i, ¬ Names n (readLink data).id i) ∨ NamesMember n (readLink data).id

/-- In a run every Depart removes the departing child once and nothing else, whatever the state it
finds, exactly when no child slot records its id; and it does so but for the record that stays
behind exactly when the id is recorded nowhere, or once and by a connected child. -/
theorem depart_iff_guarded {program : Program} {n n' : Node} {ls : List (Env × Event)} :
    (Run (Guarded (NodeStep program) DepartGuard) n ls n' ↔
      Run (Safe (NodeStep program) fun m l m' =>
        ∀ data, l.2 = .depart data → DepartsOnce program m data m') n ls n') ∧
    (Run (Guarded (NodeStep program) DepartMemberGuard) n ls n' ↔
      Run (Safe (NodeStep program) fun m l m' =>
        ∀ data, l.2 = .depart data → DepartsMember m (readLink data).id m') n ls n') := by
  constructor
  · refine Run.guarded_iff_safe (fun _ => True) ?_ ?_ trivial
    · rintro s ⟨env, e⟩ t - hguard hstep
      refine ⟨trivial, ?_⟩
      rintro data rfl
      exact (departsOnce_iff hstep).mpr (hguard data rfl)
    · rintro s ⟨env, e⟩ t - hstep hgood data rfl
      exact (departsOnce_iff hstep).mp (hgood data rfl)
  · refine Run.guarded_iff_safe (fun _ => True) ?_ ?_ trivial
    · rintro s ⟨env, e⟩ t - hguard hstep
      refine ⟨trivial, ?_⟩
      rintro data rfl
      exact (departsMember_iff hstep).mpr (hguard data rfl)
    · rintro s ⟨env, e⟩ t - hstep hgood data rfl
      exact (departsMember_iff hstep).mp (hgood data rfl)

/-- The Depart of a node. -/
def departData (id : UInt16) : Buf := packetData (copyNodeStatusToBytes (statusOf id 3 12347 0))

/-- The only child of the origin departs twice: the second Depart borrows, and the counter
falls below zero. -/
theorem depart_twice : ∃ n n' n'', Started .origin firstOrigin ∧
    Run (NodeStep .origin) firstOrigin connectOnce n ∧
    NodeStep .origin n (Env.clock ⟨3, 0⟩, .depart (departData 5)) n' ∧
    NodeStep .origin n' (Env.clock ⟨8, 0⟩, .depart (departData 5)) n'' ∧
    n.isConnected (childSlot 0) = true ∧ (n'.nodesStatus (childSlot 0)).id = 5 ∧
    n'.connectedNodes = 0#8 ∧ n'.currentChildNum = 0 ∧
    n''.connectedNodes = 0xff#8 ∧ n''.currentChildNum = -1 := by
  refine ⟨_, _, _, .origin _ _ _ _ _ _, Node.exec_eq_ok_iff.mp rfl, rfl, rfl, ?_⟩
  decide +kernel

end P2PStream
