/-
# `P2PStream.Node.Members` — the children of a node

Two facts about the child slots: `CURRENT_CHILD_NUM` counts them, and no node sits
in both.  Each is kept by every event but a few, and those are exactly the ones
the guards exclude: a parent that times out is counted as a child, a Depart is
answered for a slot whose child left before, and an admission looks for the
sender's id in the wrong place or nowhere.
-/
import Mathlib.Algebra.BigOperators.Fin
import P2PStream.Node.Links

namespace P2PStream

open Lib

/-! ## The counter -/

namespace Links

/-- The child slots whose bit is set. -/
def children (l : Links) : Finset (Fin maxChildNum) :=
  Finset.univ.filter fun i => l.isConnected (LinkSlot.child i)

/-- The counter is the number of connected children. -/
def Counted (l : Links) : Prop := l.count = l.children.card

/-- The two low bits, added. -/
def childBits (x : BitVec 8) : Nat := (x.getLsbD 0).toNat + (x.getLsbD 1).toNat

theorem card_children (l : Links) : l.children.card = childBits l.connected := by
  have hbit : ∀ b : Bool, (if b = true then 1 else 0) = b.toNat := by decide
  rw [children, Finset.card_filter, Fin.sum_univ_two, hbit, hbit]
  rfl

theorem counted_iff (l : Links) : l.Counted ↔ l.count = childBits l.connected := by
  rw [Counted, card_children]

theorem Counted.bounds {l : Links} (h : l.Counted) : 0 ≤ l.count ∧ l.count ≤ maxChildNum := by
  have hcard : l.children.card ≤ maxChildNum := by
    simpa using Finset.card_le_univ l.children
  rw [Counted] at h
  omega

theorem childBits_add_parent (x : BitVec 8) : childBits (x + BitVec.twoPow 8 2) = childBits x := by
  rw [childBits, SlotBits.getLsbD_add_twoPow_lt (by decide),
    SlotBits.getLsbD_add_twoPow_lt (by decide), childBits]

theorem childBits_sub_of_ge (x : BitVec 8) {s : Nat} (hs : 2 ≤ s) :
    childBits (x - BitVec.twoPow 8 s) = childBits x := by
  rw [childBits, SlotBits.getLsbD_sub_twoPow_lt (by omega),
    SlotBits.getLsbD_sub_twoPow_lt (by omega), childBits]

theorem childBits_add_child : ∀ (x : BitVec 8) (i : Fin maxChildNum), x.getLsbD i = false →
    childBits (x + BitVec.twoPow 8 i) = childBits x + 1 := by
  decide +kernel

/-- Subtracting the bits of some children counts them down when and only when all of
them are set. -/
theorem childBits_sub_iff : ∀ (x : BitVec 8) (b₀ b₁ : Bool),
    (childBits (x - (if b₀ then BitVec.twoPow 8 0 else 0) - (if b₁ then BitVec.twoPow 8 1 else 0))
      : Int) = childBits x - b₀.toNat - b₁.toNat ↔
    (b₀ → x.getLsbD 0) ∧ (b₁ → x.getLsbD 1) := by
  decide +kernel

theorem Counted.admitNode {l : Links} (h : l.Counted) {i : Fin maxChildNum} (k : Link)
    (a : UInt32 × UInt16) (hi : l.isConnected (LinkSlot.child i) = false) :
    (l.admitNode i k a).Counted := by
  rw [counted_iff] at h ⊢
  have hbits := childBits_add_child l.connected i hi
  simp only [Links.admitNode, hbits, h, Nat.cast_add, Nat.cast_one]

theorem counted_join (l : Links) : l.join.Counted ↔ l.Counted := by
  rw [counted_iff, counted_iff, join, childBits_add_parent]

theorem counted_leave (l : Links) : l.leave.Counted ↔ l.Counted := by
  rw [counted_iff, counted_iff, leave, childBits_sub_of_ge _ (Nat.le_refl 2)]

theorem counted_record (l : Links) (k : Link) : (l.record k).Counted ↔ l.Counted := Iff.rfl

theorem counted_redirect (l : Links) (a : UInt32 × UInt16) : (l.redirect a).Counted ↔ l.Counted :=
  Iff.rfl

/-- A connected slot is dropped: the counter is right again only for a child. -/
theorem Counted.drop_iff {l : Links} (h : l.Counted) {s : Slot}
    (hs : l.connected.getLsbD s = true) : (l.drop s).Counted ↔ s.val < maxChildNum := by
  rw [counted_iff] at h ⊢
  have hgoal : (l.drop s).count = childBits l.connected - 1 := by rw [← h]; rfl
  rw [hgoal]
  show _ = (childBits (l.connected - BitVec.twoPow 8 s) : Int) ↔ _
  by_cases hlt : s.val < maxChildNum
  · have hbits : ∀ (x : BitVec 8) (i : Fin maxChildNum), x.getLsbD i = true →
        (childBits x : Int) - 1 = childBits (x - BitVec.twoPow 8 i) := by
      decide +kernel
    exact iff_of_true (hbits _ ⟨s, hlt⟩ hs) hlt
  · rw [childBits_sub_of_ge _ (Nat.le_of_not_lt hlt)]
    omega

/-- A Depart keeps the counter when and only when the slots it names are connected. -/
theorem Counted.depart_iff {l : Links} (h : l.Counted) (id : UInt16) :
    (l.depart id).Counted ↔
      ∀ i, (l.link (LinkSlot.child i)).id = id → l.isConnected (LinkSlot.child i) := by
  rw [counted_iff] at h ⊢
  have hbits := childBits_sub_iff l.connected ((l.link 0).id = id) ((l.link 1).id = id)
  have hguard : (∀ i, (l.link (LinkSlot.child i)).id = id → l.isConnected (LinkSlot.child i)) ↔
      ((l.link 0).id = id → l.connected.getLsbD 0) ∧
        ((l.link 1).id = id → l.connected.getLsbD 1) :=
    Fin.forall_fin_two
  rw [hguard]
  simp only [decide_eq_true_eq] at hbits
  rw [← hbits, Links.depart]
  by_cases h₀ : (l.link 0).id = id <;> by_cases h₁ : (l.link 1).id = id <;>
    simp [h₀, h₁, Links.drop, h, eq_comm]

end Links

/-- No slot but a child's times out, and a Depart names connected slots only. -/
def CountGuard (n : Node) (l : Env × Event) : Prop :=
  match l.2 with
  | .timeout s => isTimedOut l.1 s n → s.val < maxChildNum
  | .depart data => ∀ i, (n.nodesStatus (childSlot i)).id = (readLink data).id →
      n.isConnected (childSlot i)
  | _ => True

/-- From a state that counts its children, a step leads to one exactly under the guard. -/
theorem counted_step_iff {program : Program} {n n' : Node} {l : Env × Event}
    (h : n.links.Counted) (hstep : NodeStep program n l n') :
    n'.links.Counted ↔ CountGuard n l := by
  obtain ⟨env, e⟩ := l
  have hafter : LinksAfter program env n n'.links e := step_links hstep
  cases e with
  | setup | connect =>
      refine iff_of_true ?_ trivial
      rcases hafter with ⟨-, hsame⟩ | ⟨-, i, hi, hadm⟩
      · rwa [hsame]
      · rw [hadm]
        exact h.admitNode _ _ (checkChildNum_clear hi)
  | depart data =>
      have hdepart : n'.links = n.links.depart (readLink data).id := hafter
      rw [hdepart]
      exact h.depart_iff _
  | timeout s =>
      have hdrop : n'.links = if isTimedOut env s n then n.links.drop s else n.links := hafter
      rw [hdrop]
      by_cases ht : isTimedOut env s n = true
      · rw [if_pos ht, h.drop_iff (isConnected_of_isTimedOut ht)]
        exact ⟨fun hlt _ => hlt, fun hguard => hguard ht⟩
      · rw [if_neg ht]
        exact iff_of_true h fun ht' => absurd ht' ht
  | initialStatus data k =>
      have hjoin : n'.links = (n.links.record _).join := hafter
      rw [hjoin, Links.counted_join, Links.counted_record]
      exact iff_of_true h trivial
  | detach data =>
      obtain ⟨id, hleave⟩ := hafter
      rw [hleave, Links.counted_leave, Links.counted_record]
      exact iff_of_true h trivial
  | advertise data k =>
      have hredirect : n'.links = n.links.redirect _ := hafter
      rw [hredirect, Links.counted_redirect]
      exact iff_of_true h trivial
  | accept data =>
      refine iff_of_true ?_ trivial
      cases program with
      | origin =>
          have hsame : n'.links = n.links := hafter
          rwa [hsame]
      | peer =>
          have haccept : n'.links = if n.isConnected parentId then n.links.record (readLink data)
            else (n.links.record (readLink data)).join := hafter
          rw [haccept]
          split
          · exact h
          · rwa [Links.counted_join]
  | _ =>
      have hsame : n'.links = n.links := hafter
      rw [hsame]
      exact iff_of_true h trivial

/-- The counter starts right. -/
theorem Started.counted {program : Program} {n : Node} (h : Started program n) :
    n.links.Counted := by
  obtain ⟨hconnected, hcount, -⟩ := h.links
  rw [Links.counted_iff, hconnected, hcount]
  rfl

/-- A run keeps `CURRENT_CHILD_NUM` equal to the number of connected children, in every state
it passes, exactly when each of its steps meets the guard. -/
theorem counted_iff_guarded {program : Program} {n n' : Node} {ls : List (Env × Event)}
    (hstart : Started program n) :
    Run (Guarded (NodeStep program) CountGuard) n ls n' ↔
      Run (Safe (NodeStep program) fun _ _ m => m.currentChildNum = m.links.children.card ∧
        0 ≤ m.currentChildNum ∧ m.currentChildNum ≤ maxChildNum) n ls n' := by
  refine Run.guarded_iff_safe (fun m => m.links.Counted) ?_ ?_ hstart.counted
  · intro s l t hs hguard hstep
    have hcounted := (counted_step_iff hs hstep).mpr hguard
    exact ⟨hcounted, hcounted, hcounted.bounds⟩
  · intro s l t hs hstep hgood
    exact (counted_step_iff hs hstep).mp hgood.1

/-- Node 5 connects to the origin, whose cache is full. -/
def connectOnce : List (Env × Event) := [
  (Env.clock ⟨1, 0⟩, .timeCache),
  (Env.clock ⟨2, 0⟩, .connect (packetData (copyNodeStatusToBytes (statusOf 5 3 12347 0))))]

theorem counted_iff_guarded_connectOnce : ∃ n, Run (Safe (NodeStep .origin) fun _ _ m =>
    m.currentChildNum = m.links.children.card ∧
      0 ≤ m.currentChildNum ∧ m.currentChildNum ≤ maxChildNum) firstOrigin connectOnce n :=
  ⟨_, (counted_iff_guarded (.origin _ _ _ _ _ _)).mp
    (.cons ⟨trivial, rfl⟩ (.cons ⟨trivial, rfl⟩ (.nil _)))⟩

/-- A peer whose parent is silent for six seconds: its counter is -1. -/
theorem parentTimeout_counted : ∃ n, Started .peer firstPeer ∧ Run (NodeStep .peer) firstPeer [
    (Env.clock ⟨1, 0⟩, .initialStatus
      (initialStatusData [statusOf 1 2 12346 1, statusOf 0 1 12345 0]) 68),
    (Env.clock ⟨7, 0⟩, .timeout parentId)] n ∧
    n.currentChildNum ≠ n.links.children.card ∧ ¬ 0 ≤ n.currentChildNum := by
  refine ⟨_, .peer _ _ _ _ _ _, Node.exec_eq_ok_iff.mp rfl, ?_⟩
  decide +kernel

/-! ## Who the children are -/

namespace Links

/-- A connected child slot records the id. -/
def HasChild (l : Links) (id : UInt16) : Prop :=
  ∃ i, l.isConnected (LinkSlot.child i) ∧ (l.link (LinkSlot.child i)).id = id

/-- No id is in two connected child slots. -/
def Distinct (l : Links) : Prop :=
  ∀ i j, l.isConnected (LinkSlot.child i) → l.isConnected (LinkSlot.child j) →
    (l.link (LinkSlot.child i)).id = (l.link (LinkSlot.child j)).id → i = j

theorem Distinct.of_subset {l m : Links} (h : l.Distinct)
    (hconnected : ∀ i, m.isConnected (LinkSlot.child i) → l.isConnected (LinkSlot.child i))
    (hlink : ∀ i, m.link (LinkSlot.child i) = l.link (LinkSlot.child i)) : m.Distinct := by
  intro i j hi hj hid
  rw [hlink, hlink] at hid
  exact h i j (hconnected i hi) (hconnected j hj) hid

theorem Distinct.admit_iff {l : Links} (h : l.Distinct) {i : Fin maxChildNum} (k : Link)
    (a : UInt32 × UInt16) (hi : l.isConnected (LinkSlot.child i) = false) :
    (l.admitNode i k a).Distinct ↔ ¬ l.HasChild k.id := by
  have hself : ((l.admitNode i k a).link (LinkSlot.child i)).id = k.id := by
    simp [Links.admitNode]
  have hother :
      ∀ j, j ≠ i → (l.admitNode i k a).link (LinkSlot.child j) = l.link (LinkSlot.child j) :=
    fun j hj => Function.update_of_ne (fun heq => hj (LinkSlot.child_inj.mp heq)) _ _
  constructor
  · rintro hdistinct ⟨j, hj, hid⟩
    have hne : j ≠ i := by
      rintro rfl
      rw [hi] at hj
      cases hj
    refine hne (hdistinct j i ?_ ?_ ?_)
    · rw [isConnected_admitNode k a hi, hj, Bool.true_or]
    · rw [isConnected_admitNode k a hi, decide_eq_true rfl, Bool.or_true]
    · rw [hother j hne, hself, hid]
  · intro hnone p q hp hq hid
    rw [isConnected_admitNode k a hi, Bool.or_eq_true, decide_eq_true_eq,
      LinkSlot.child_inj] at hp hq
    by_cases hpi : p = i
    · by_cases hqi : q = i
      · rw [hpi, hqi]
      · rw [hpi, hself, hother q hqi] at hid
        exact absurd ⟨q, hq.resolve_right (Ne.symm hqi), hid.symm⟩ hnone
    · by_cases hqi : q = i
      · rw [hqi, hself, hother p hpi] at hid
        exact absurd ⟨p, hp.resolve_right (Ne.symm hpi), hid⟩ hnone
      · rw [hother p hpi, hother q hqi] at hid
        exact h p q (hp.resolve_right (Ne.symm hpi)) (hq.resolve_right (Ne.symm hqi)) hid

theorem distinct_join {l : Links} (h : l.Distinct) : l.join.Distinct := by
  refine h.of_subset (fun i hi => ?_) fun i => rfl
  rwa [isConnected_join_child] at hi

theorem distinct_leave {l : Links} (h : l.Distinct) : l.leave.Distinct := by
  refine h.of_subset (fun i hi => ?_) fun i => rfl
  rwa [isConnected_leave_child] at hi

theorem distinct_record {l : Links} (h : l.Distinct) (k : Link) : (l.record k).Distinct := by
  exact h.of_subset (fun i hi => hi) fun i => Function.update_of_ne (child_ne_parent i) _ _

theorem distinct_drop {l : Links} (h : l.Distinct) {s : Slot}
    (hs : l.connected.getLsbD s = true) : (l.drop s).Distinct := by
  refine h.of_subset (fun i hi => ?_) fun i => rfl
  rw [isConnected_drop hs] at hi
  exact (Bool.and_eq_true_iff.mp hi).1

/-- Both slots record the id, and the one below is free: its subtraction borrows, and the
slot above comes back. -/
def Borrows (l : Links) (id : UInt16) : Prop :=
  l.isConnected 0 = false ∧ l.isConnected 1 = true ∧ (l.link 0).id = id ∧ (l.link 1).id = id

theorem distinct_iff (l : Links) :
    l.Distinct ↔ ¬ (l.isConnected 0 ∧ l.isConnected 1 ∧ (l.link 0).id = (l.link 1).id) := by
  constructor
  · rintro h ⟨h₀, h₁, hid⟩
    exact absurd (h 0 1 h₀ h₁ hid) (by decide)
  · intro h i j hi hj hid
    match i, j with
    | 0, 0 => rfl
    | 0, 1 => exact absurd ⟨hi, hj, hid⟩ h
    | 1, 0 => exact absurd ⟨hj, hi, hid.symm⟩ h
    | 1, 1 => rfl

theorem Distinct.depart_iff {l : Links} (h : l.Distinct) (id : UInt16) :
    (l.depart id).Distinct ↔ ¬ l.Borrows id := by
  rw [distinct_iff, depart_link]
  refine not_congr ?_
  by_cases h₀ : (l.link 0).id = id <;> by_cases h₁ : (l.link 1).id = id
  · have hbits : ∀ x : BitVec 8,
        ((x - BitVec.twoPow 8 0 - BitVec.twoPow 8 1).getLsbD 0 = true ∧
          (x - BitVec.twoPow 8 0 - BitVec.twoPow 8 1).getLsbD 1 = true) ↔
        (x.getLsbD 0 = false ∧ x.getLsbD 1 = true) := by
      decide +kernel
    have hconnected : (l.depart id).connected
        = l.connected - BitVec.twoPow 8 0 - BitVec.twoPow 8 1 := by
      simp only [depart, if_pos h₀]
      rw [if_pos (show ((l.drop 0).link 1).id = id from h₁)]
      rfl
    have := hbits l.connected
    rw [← hconnected] at this
    simp only [Borrows, isConnected, h₀, h₁, and_true] at this ⊢
    exact this
  · refine iff_of_false (fun hboth => h₁ ?_) fun hborrows => h₁ hborrows.2.2.2
    rw [← hboth.2.2, h₀]
  · refine iff_of_false (fun hboth => h₀ ?_) fun hborrows => h₀ hborrows.2.2.1
    rw [hboth.2.2, h₁]
  · have hsame : l.depart id = l := by
      simp only [depart, if_neg h₀, if_neg h₁]
    rw [hsame]
    refine iff_of_false (fun hboth => ?_) fun hborrows => h₀ hborrows.2.2.1
    exact (distinct_iff l).mp h hboth

end Links

/-- An admission names no connected child, and no Depart borrows between the children. -/
def MembersGuard (program : Program) (n : Node) (l : Env × Event) : Prop :=
  match l.2 with
  | .setup data k saddr source => AdmitsSetup l.1 n →
      ¬ n.links.HasChild (setupLink (receiveSetup program k saddr source n) data saddr source).id
  | .connect data => AdmitsConnect l.1 (readLink data).id n →
      ¬ n.links.HasChild (readLink data).id
  | .depart data => ¬ n.links.Borrows (readLink data).id
  | _ => True

/-- From a state with distinct children, a step leads to one exactly under the guard. -/
theorem distinct_step_iff {program : Program} {n n' : Node} {l : Env × Event}
    (h : n.links.Distinct) (hstep : NodeStep program n l n') :
    n'.links.Distinct ↔ MembersGuard program n l := by
  obtain ⟨env, e⟩ := l
  have hafter : LinksAfter program env n n'.links e := step_links hstep
  cases e with
  | setup | connect =>
      rcases hafter with ⟨hno, hsame⟩ | ⟨hyes, i, hi, hadm⟩
      · rw [hsame]
        exact iff_of_true h fun hyes => absurd hyes hno
      · rw [hadm, h.admit_iff _ _ (checkChildNum_clear hi)]
        exact ⟨fun hnone _ => hnone, fun hguard => hguard hyes⟩
  | depart data =>
      have hdepart : n'.links = n.links.depart (readLink data).id := hafter
      rw [hdepart]
      exact h.depart_iff _
  | timeout s =>
      have hdrop : n'.links = if isTimedOut env s n then n.links.drop s else n.links := hafter
      refine iff_of_true ?_ trivial
      rw [hdrop]
      split
      · next ht => exact Links.distinct_drop h (isConnected_of_isTimedOut ht)
      · exact h
  | initialStatus data k =>
      have hjoin : n'.links = (n.links.record _).join := hafter
      rw [hjoin]
      exact iff_of_true (Links.distinct_join (Links.distinct_record h _)) trivial
  | detach data =>
      obtain ⟨id, hleave⟩ := hafter
      rw [hleave]
      exact iff_of_true (Links.distinct_leave (Links.distinct_record h _)) trivial
  | advertise data k =>
      have hredirect : n'.links = n.links.redirect _ := hafter
      rw [hredirect]
      exact iff_of_true (h.of_subset (fun i hi => hi) fun i => rfl) trivial
  | accept data =>
      refine iff_of_true ?_ trivial
      cases program with
      | origin =>
          have hsame : n'.links = n.links := hafter
          rwa [hsame]
      | peer =>
          have haccept : n'.links = if n.isConnected parentId then n.links.record (readLink data)
            else (n.links.record (readLink data)).join := hafter
          rw [haccept]
          split
          · exact Links.distinct_record h _
          · exact Links.distinct_join (Links.distinct_record h _)
  | _ =>
      have hsame : n'.links = n.links := hafter
      rw [hsame]
      exact iff_of_true h trivial

/-- The children are as they were: the taken slots, the counter, and every child's status and
cursor. -/
structure SameChildren (n n' : Node) : Prop where
  connected : n'.connectedNodes = n.connectedNodes
  count : n'.currentChildNum = n.currentChildNum
  status : ∀ i, n'.nodesStatus (childSlot i) = n.nodesStatus (childSlot i)
  cursor : n'.webm.currentChildBlock = n.webm.currentChildBlock

theorem nodeConnect_sameChildren {env : Env} {data : Buf} {n n' : Node}
    (h : nodeConnect env data n = .ok n') (hno : ¬ AdmitsConnect env (readLink data).id n) :
    SameChildren n n' := by
  rcases nodeConnect_cases h with ⟨-, rfl | rfl⟩ | ⟨hadm, -⟩
  · exact ⟨rfl, rfl, fun _ => rfl, rfl⟩
  · exact ⟨rfl, rfl, fun _ => rfl, rfl⟩
  · exact absurd hadm hno

theorem Started.distinct {program : Program} {n : Node} (h : Started program n) :
    n.links.Distinct := by
  intro i j hi
  rw [Links.isConnected, h.links.1] at hi
  simp at hi

/-- A run keeps the ids of the connected children distinct, and leaves the children alone at
every Connect of one of them, exactly when each of its steps meets the guard. -/
theorem distinct_iff_guarded {program : Program} {n n' : Node} {ls : List (Env × Event)}
    (hstart : Started program n) :
    Run (Guarded (NodeStep program) (MembersGuard program)) n ls n' ↔
      Run (Safe (NodeStep program) fun m l m' => m'.links.Distinct ∧
        ∀ data, l.2 = .connect data → m.links.HasChild (readLink data).id → SameChildren m m')
        n ls n' := by
  refine Run.guarded_iff_safe (fun m => m.links.Distinct) ?_ ?_ hstart.distinct
  · rintro s ⟨env, e⟩ t hs hguard hstep
    have hdistinct := (distinct_step_iff hs hstep).mpr hguard
    refine ⟨hdistinct, hdistinct, ?_⟩
    rintro data rfl hchild
    exact nodeConnect_sameChildren hstep fun hyes => hguard hyes hchild
  · intro s l t hs hstep hgood
    exact (distinct_step_iff hs hstep).mp hgood.1

theorem distinct_iff_guarded_connectOnce : ∃ n, Run (Safe (NodeStep .origin) fun m l m' =>
    m'.links.Distinct ∧
      ∀ data, l.2 = .connect data → m.links.HasChild (readLink data).id → SameChildren m m')
    firstOrigin connectOnce n := by
  refine ⟨_, (distinct_iff_guarded (.origin _ _ _ _ _ _)).mp
    (.cons ⟨trivial, rfl⟩ (.cons ⟨fun _ => ?_, rfl⟩ (.nil _)))⟩
  unfold Links.HasChild
  decide +kernel

/-- A Connect that arrives twice: node 5 sits in both slots. -/
theorem connect_twice : ∃ n, Started .origin firstOrigin ∧ Run (NodeStep .origin) firstOrigin
    (connectOnce ++ [(Env.clock ⟨3, 0⟩,
      .connect (packetData (copyNodeStatusToBytes (statusOf 5 3 12347 0))))]) n ∧
    n.links.HasChild 5 ∧ ¬ n.links.Distinct := by
  refine ⟨_, .origin _ _ _ _ _ _, Node.exec_eq_ok_iff.mp rfl, ?_⟩
  unfold Links.HasChild Links.Distinct
  decide +kernel

end P2PStream
