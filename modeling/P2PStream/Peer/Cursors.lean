/-
# `P2PStream.Peer.Cursors` — the cursors of a peer's children

`CalOffset` subtracts `FIRST_CLUSTER_SEQ` from the cluster number of a child's cursor and
walks over as many Cluster headers.  The difference is unsigned: a cursor before the
first cluster stored sends it around.

A cursor is set by an admission and moved by `RenewBlock`.  What an admission sets it to
comes from elsewhere: the number in a Connect is the child's own history, and the one of
a Setup is the cluster before the open one, of which a peer in its first cluster has
none.
-/
import P2PStream.Peer.WellFormed

namespace P2PStream

open Lib

/-! ## Cursors -/

/-- The cluster number of a child's cursor. -/
def Webm.cursorSeq (w : Webm) (i : Fin maxChildNum) : UInt16 :=
  (w.currentChildBlock i).prev.clusterSeq

/-- How many Cluster headers `CalOffset` walks over for a child. -/
def Webm.cursorDistance (w : Webm) (i : Fin maxChildNum) : Nat :=
  ((w.cursorSeq i).toUInt32 - w.firstClusterSeq).toNat

/-- The cursors of the connected children are not before the first cluster. -/
def Node.CursorsAhead (n : Node) : Prop :=
  ∀ i, n.isConnected (childSlot i) = true → n.webm.firstClusterSeq ≤ (n.webm.cursorSeq i).toUInt32

@[simp] theorem cursorSeq_setChildBlock (w : Webm) (i : Fin maxChildNum) (b : Block)
    (j : Fin maxChildNum) :
    (w.setChildBlock i b).cursorSeq j = if j = i then b.prev.clusterSeq else w.cursorSeq j := by
  show (Function.update w.currentChildBlock i b j).prev.clusterSeq = _
  by_cases hj : j = i
  · subst hj
    rw [if_pos rfl, Function.update_self]
  · rw [if_neg hj, Function.update_of_ne hj]
    rfl

theorem currentChildBlock_setChildBlock (w : Webm) (i : Fin maxChildNum) (b : Block) :
    (w.setChildBlock i b).currentChildBlock i = b := Function.update_self ..

theorem readCacheBlock_cluster {env : Env} {block block' : Block} {w w' : Webm} {status : Int}
    {payload : List UInt8} (h : readCacheBlock env block w = .ok (w', block', status, payload)) :
    block'.info.clusterSeq = block.prev.clusterSeq := by
  simp only [readCacheBlock] at h
  split at h
  · cases h
  · next hblock =>
    cases h
    exact (getNextBlockByBytes_cluster hblock).1

theorem sendCacheBlock_cursor {env : Env} {i : Fin maxChildNum} {n n' : Node} {status : Int}
    (h : sendCacheBlock env i n = .ok (n', status)) :
    (∃ w block payload, readCacheBlock env (n.webm.currentChildBlock i) n.webm =
      .ok (w, block, status, payload)) ∧
    (n'.webm.currentChildBlock i).info.clusterSeq = n.webm.cursorSeq i ∧
    ∀ j, j ≠ i → n'.webm.cursorSeq j = n.webm.cursorSeq j := by
  obtain ⟨⟨w, block, st, payload⟩, hread, h⟩ := bind_eq_ok.mp h
  have hcluster := readCacheBlock_cluster hread
  obtain ⟨x, y, rfl⟩ := readCacheBlock_fp hread
  cases h
  refine ⟨⟨_, _, _, hread⟩, ?_, fun j hj => ?_⟩
  · show (Function.update n.webm.currentChildBlock i block i).info.clusterSeq = _
    rw [Function.update_self, hcluster]
    rfl
  · show (Function.update n.webm.currentChildBlock i block j).prev.clusterSeq = _
    rw [Function.update_of_ne hj]
    rfl

/-- One round of `SendMulStream` moves the child's cursor to the next cluster when its own
ends. -/
theorem sendMulStreamChild_cursor {env : Env} {i : Fin maxChildNum} {n n' : Node} {k : Nat}
    (h : sendMulStreamChild env i n = .ok (n', k)) (j : Fin maxChildNum) :
    n'.webm.cursorSeq j = n.webm.cursorSeq j ∨
      (j = i ∧ EndsCluster env i n ∧ n'.webm.cursorSeq j = n.webm.cursorSeq j + 1) := by
  unfold sendMulStreamChild at h
  split at h
  · next hconnected =>
    split at h
    · cases h
    · split at h
      · next hold =>
        obtain ⟨⟨n₁, status⟩, hsend, h⟩ := bind_eq_ok.mp h
        obtain ⟨hread, hcluster, hother⟩ := sendCacheBlock_cursor hsend
        cases h
        by_cases hj : j = i
        · subst hj
          by_cases hend : status = clusterEnd
          · subst hend
            refine .inr ⟨rfl, ⟨hconnected, hold, hread⟩, ?_⟩
            rw [if_pos rfl, cursorSeq_setChildBlock, if_pos rfl, ← hcluster]
            rfl
          · left
            rw [if_neg hend, cursorSeq_setChildBlock, if_pos rfl, ← hcluster]
            rfl
        · left
          rw [cursorSeq_setChildBlock, if_neg hj, hother j hj]
      · cases h
        exact .inl rfl
  · cases h
    exact .inl rfl

/-- A cursor that ends cluster 2^16 - 1 is sent around, to cluster 0. -/
def KeepsCursor (env : Env) (i : Fin maxChildNum) (n : Node) : Prop :=
  n.webm.cursorSeq i = 0xffff → EndsCluster env i n → n.webm.firstClusterSeq = 0

theorem sendMulStreamChild_ahead {env : Env} {i : Fin maxChildNum} {n n' : Node} {k : Nat}
    (h : sendMulStreamChild env i n = .ok (n', k)) (hkeeps : KeepsCursor env i n)
    (hahead : n.CursorsAhead) : n'.CursorsAhead := by
  have hcursor := sendMulStreamChild_cursor h
  obtain ⟨_, _, _, _, hn'⟩ := (sendMulStreamChild_distributes h).streamed
  have hfirst : n'.webm.firstClusterSeq = n.webm.firstClusterSeq := by rw [hn']
  intro j hj
  have hbefore := hahead j (by rw [hn'] at hj; exact hj)
  rw [hfirst]
  rcases hcursor j with hsame | ⟨rfl, hends, hnext⟩
  · rw [hsame]
    exact hbefore
  · rw [hnext]
    by_cases hlast : n.webm.cursorSeq j = 0xffff
    · rw [hkeeps hlast hends]
      exact UInt32.le_iff_toNat_le.mpr (Nat.zero_le _)
    · have hlt : (n.webm.cursorSeq j).toNat < 0xffff := by
        have hmax := (n.webm.cursorSeq j).toNat_lt
        have hne : (n.webm.cursorSeq j).toNat ≠ 0xffff := fun heq => hlast (UInt16.toNat_inj.mp heq)
        omega
      rw [UInt32.le_iff_toNat_le, UInt16.toNat_toUInt32] at hbefore ⊢
      rw [UInt16.toNat_add, show (1 : UInt16).toNat = 1 from rfl]
      omega

/-- What `SendMulStream` needs of the children it serves. -/
def KeepsCursors (env : Env) (n : Node) : Prop :=
  KeepsCursor env 0 (mulStreamStart n) ∧
    ∀ n₁ k, sendMulStreamChild env 0 (mulStreamStart n) = .ok (n₁, k) → KeepsCursor env 1 n₁

theorem sendMulStream_ahead {env : Env} {n n' : Node} {ret : Int}
    (h : sendMulStream env n = .ok (n', ret)) (hkeeps : KeepsCursors env n)
    (hahead : n.CursorsAhead) : n'.CursorsAhead := by
  obtain ⟨⟨n₁, k₁⟩, h₁, h⟩ := bind_eq_ok.mp h
  obtain ⟨⟨n₂, k₂⟩, h₂, h⟩ := bind_eq_ok.mp h
  have h₁' : sendMulStreamChild env 0 (mulStreamStart n) = .ok (n₁, k₁) := h₁
  have hfirst := sendMulStreamChild_ahead h₁' hkeeps.1 hahead
  have hsecond := sendMulStreamChild_ahead h₂ (hkeeps.2 n₁ k₁ h₁') hfirst
  cases h
  intro j hj
  have hbefore := hsecond j hj
  simp only [seekABSWebM, fsetpos]
  split <;> exact hbefore

/-! ## Admissions and departures -/

/-- The cursor of an admitted child, and its bit, are set; the others stay. -/
theorem ahead_admitNode {n n' : Node} {i : Fin maxChildNum} {b : Block}
    (hfree : n.isConnected (childSlot i) = false)
    (hbits : n'.connectedNodes = n.connectedNodes + BitVec.twoPow 8 i)
    (hwebm : n'.webm = n.webm.setChildBlock i b)
    (hb : n.webm.firstClusterSeq ≤ b.prev.clusterSeq.toUInt32) (hahead : n.CursorsAhead) :
    n'.CursorsAhead := by
  intro j hj
  have hadm := Links.isConnected_admitNode (l := n.links) ⟨0, 0, 0⟩ (0, 0) hfree (LinkSlot.child j)
  have hconnected : n'.isConnected (childSlot j) =
      (n.links.admitNode i ⟨0, 0, 0⟩ (0, 0)).isConnected (LinkSlot.child j) :=
    congrArg (fun x : BitVec 8 => x.getLsbD j) hbits
  have hfirst : n'.webm.firstClusterSeq = n.webm.firstClusterSeq := by rw [hwebm]; rfl
  rw [hfirst, hwebm, cursorSeq_setChildBlock]
  split
  · exact hb
  · next hne =>
    rw [hconnected, hadm, Bool.or_eq_true, decide_eq_true_eq, LinkSlot.child_inj] at hj
    exact hahead j (hj.resolve_right fun heq => hne heq.symm)

theorem connectedNodes_ne {x : BitVec 8} {i : Fin maxChildNum} (hfree : x.getLsbD i = false) :
    x + BitVec.twoPow 8 i ≠ x := by
  intro heq
  have hbit := SlotBits.getLsbD_add_twoPow_of_clear hfree i
  rw [heq, hfree] at hbit
  have hlt : i.val < 8 := Nat.lt_trans i.isLt (by decide)
  simp [hlt] at hbit

theorem isConnected_of_admitNode {n n' : Node} {i : Fin maxChildNum}
    (hfree : n.isConnected (childSlot i) = false)
    (hbits : n'.connectedNodes = n.connectedNodes + BitVec.twoPow 8 i) :
    n'.isConnected (childSlot i) = true := by
  show n'.connectedNodes.getLsbD i = true
  have hlt : i.val < 8 := Nat.lt_trans i.isLt (by decide)
  rw [hbits, SlotBits.getLsbD_add_twoPow_self hlt, Bool.not_eq_true']
  exact hfree

theorem nodeSetup_admitted {env : Env} {data : Buf} {saddr : UInt32} {source : UInt16} {n n' : Node}
    (h : nodeSetup env data saddr source n = .ok n') (hadmits : AdmitsSetup env n) :
    ∃ i, n'.isConnected (childSlot i) = true ∧
      n'.webm = n.webm.setChildBlock i (joinCursor n.webm) := by
  rcases nodeSetup_stream h with ⟨-, hbits, -⟩ | ⟨i, hfree, hbits, hwebm, -⟩
  · rcases nodeSetup_links h with ⟨hnot, -⟩ | ⟨-, i, hchild, hlinks⟩
    · exact absurd hadmits hnot
    · have hadm : n'.connectedNodes = n.connectedNodes + BitVec.twoPow 8 i :=
        congrArg Links.connected hlinks
      exact absurd (hadm.symm.trans hbits) (connectedNodes_ne (checkChildNum_clear hchild))
  · exact ⟨i, isConnected_of_admitNode hfree hbits, hwebm⟩

theorem nodeSetup_ahead {env : Env} {data : Buf} {saddr : UInt32} {source : UInt16} {n n' : Node}
    (h : nodeSetup env data saddr source n = .ok n')
    (hguard : AdmitsSetup env n →
      n.webm.firstClusterSeq ≤ n.webm.prevCluster.seq.toUInt16.toUInt32)
    (hahead : n.CursorsAhead) : n'.CursorsAhead := by
  rcases nodeSetup_stream h with ⟨hwebm, hbits, -⟩ | ⟨i, hfree, hbits, hwebm, -⟩
  · intro j hj
    rw [hwebm]
    exact hahead j ((congrArg (fun x : BitVec 8 => x.getLsbD j) hbits).symm.trans hj)
  · have hadmits : AdmitsSetup env n := by
      rcases nodeSetup_links h with ⟨-, hlinks⟩ | ⟨hadmits, -⟩
      · exact absurd (hbits.symm.trans (congrArg Links.connected hlinks)) (connectedNodes_ne hfree)
      · exact hadmits
    exact ahead_admitNode hfree hbits hwebm (hguard hadmits) hahead

theorem nodeConnect_ahead {env : Env} {data : Buf} {n n' : Node}
    (h : nodeConnect env data n = .ok n')
    (hguard : AdmitsConnect env (readLink data).id n →
      n.webm.firstClusterSeq ≤ ((copyBytesToBlockInfo data).clusterSeq + 1).toUInt32)
    (hahead : n.CursorsAhead) : n'.CursorsAhead := by
  rcases nodeConnect_stream h with ⟨hwebm, hbits⟩ | ⟨i, hfree, hbits, hwebm⟩
  · intro j hj
    rw [hwebm]
    exact hahead j ((congrArg (fun x : BitVec 8 => x.getLsbD j) hbits).symm.trans hj)
  · have hadmits : AdmitsConnect env (readLink data).id n := by
      rcases nodeConnect_links h with ⟨-, hlinks⟩ | ⟨hadmits, -⟩
      · exact absurd (hbits.symm.trans (congrArg Links.connected hlinks)) (connectedNodes_ne hfree)
      · exact hadmits
    exact ahead_admitNode hfree hbits hwebm (hguard hadmits) hahead

theorem exists_nodeConnect_admitNode (env : Env) (data : Buf) {n : Node} {i : Fin maxChildNum}
    (hcache : ¬ n.currentCache < defaultCache) (hchild : checkChildNum n = some i)
    (hnew : isDuplicatedChild (readLink data).id env n = false)
    (hblocks : n.webm.childBlocksAllocated = true) :
    ∃ n', nodeConnect env data n = .ok n' ∧
      n'.connectedNodes = n.connectedNodes + BitVec.twoPow 8 i ∧
      n'.webm = n.webm.setChildBlock i (renewBlock { n.webm.currentChildBlock i with
        info := { (n.webm.currentChildBlock i).info with
          clusterSeq := (copyBytesToBlockInfo data).clusterSeq } }) := by
  have hdup : ¬ isDuplicatedChild (copyBytesToNodeStatus NodeStatus.zero data).id env n = true :=
    Bool.eq_false_iff.mp hnew
  have hallocated : ¬ (!n.webm.childBlocksAllocated) = true := by rw [hblocks]; decide
  simp only [nodeConnect, if_neg hcache, hchild, if_neg hdup, if_neg hallocated]
  exact ⟨_, rfl, rfl, rfl⟩

theorem nodeConnect_admitted {env : Env} {data : Buf} {n n' : Node}
    (h : nodeConnect env data n = .ok n') (hadmits : AdmitsConnect env (readLink data).id n) :
    ∃ i, n'.isConnected (childSlot i) = true := by
  rcases nodeConnect_links h with ⟨hnot, -⟩ | ⟨-, i, hchild, hlinks⟩
  · exact absurd hadmits hnot
  · exact ⟨i,
      isConnected_of_admitNode (checkChildNum_clear hchild) (congrArg Links.connected hlinks)⟩

/-- The events that admit no child and subtract no clear bit of one. -/
def keepsChildren : Event → Bool
  | .setup .. | .connect .. | .depart .. | .main .. => false
  | _ => true

theorem connected_of_step {env : Env} {n n' : Node} {e : Event} (he : keepsChildren e = true)
    (h : n.step .peer env e = .ok n') (j : Fin maxChildNum)
    (hj : n'.isConnected (childSlot j) = true) : n.isConnected (childSlot j) = true := by
  have hafter : LinksAfter .peer env n n'.links e := step_links h
  have hbit : n'.links.isConnected (LinkSlot.child j) = true := hj
  show n.links.isConnected (LinkSlot.child j) = true
  cases e with
  | setup | connect | depart | main => cases he
  | initialStatus data k =>
      rw [hafter, Links.isConnected_join_child] at hbit
      exact hbit
  | advertise data k =>
      rw [hafter] at hbit
      exact hbit
  | detach data =>
      obtain ⟨id, hleave⟩ := hafter
      rw [hleave, Links.isConnected_leave_child] at hbit
      exact hbit
  | accept data =>
      have hlinks : n'.links = if n.isConnected parentId then n.links.record (readLink data)
        else (n.links.record (readLink data)).join := hafter
      rw [hlinks] at hbit
      split at hbit
      · exact hbit
      · rw [Links.isConnected_join_child] at hbit
        exact hbit
  | timeout s =>
      have hlinks : n'.links = if isTimedOut env s n then n.links.drop s else n.links := hafter
      rw [hlinks] at hbit
      split at hbit
      · next htimed =>
        rw [Links.isConnected_drop (isConnected_of_isTimedOut htimed)] at hbit
        exact (Bool.and_eq_true .. ▸ hbit).1
      · exact hbit
  | _ =>
      have hlinks : n'.links = n.links := hafter
      rw [hlinks] at hbit
      exact hbit

/-! ## The clusters stored -/

/-- The Cluster headers that a packet makes `RenewClusterForWrite` write. -/
def clustersWritten (w : Webm) : Event → Nat
  | .block data _ =>
      if data.take blockinfoBytes = blockinfoStart then 1
      else if isOldBlockSeq (copyBytesToBlockInfo data) w then 0
      else if w.currentBlock.prev.clusterSeq = (copyBytesToBlockInfo data).clusterSeq then 0
      else 1
  | _ => 0

/-- A step of a peer, and the number of Cluster headers in its file. -/
def ClusterStep (s : Node × Nat) (l : Env × Event) (t : Node × Nat) : Prop :=
  NodeStep .peer s.1 l t.1 ∧ t.2 = s.2 + clustersWritten s.1.webm l.2

/-- The cluster numbers known to a peer, against the clusters it has stored. -/
structure StoreBounds (w : Webm) (clusters : Nat) : Prop where
  before : w.isFirstCluster = true → w.firstClusterSeq = 0 ∧ w.prevCluster.seq = 0 ∧
    w.currentBlock.info.clusterSeq = w.currentBlock.prev.clusterSeq ∧
    w.currentCluster.seq.toNat ≤ w.currentBlock.prev.clusterSeq.toNat
  behind : w.isFirstCluster = false →
    w.currentBlock.prev.clusterSeq.toNat ≤ w.firstClusterSeq.toNat + clusters ∧
    w.prevCluster.seq.toNat ≤ w.firstClusterSeq.toNat + clusters ∧
    w.currentCluster.seq.toNat ≤ w.firstClusterSeq.toNat + clusters

/-- The number of the block stored next: not below the one InitialStatus announced and not
behind a child's cursor if it is the first, at most one more than the open cluster's else. -/
def NumberGuard (n : Node) (number : UInt16) : Prop :=
  if n.webm.isFirstCluster then
    n.webm.currentBlock.prev.clusterSeq ≤ number ∧
      ∀ i, n.isConnected (childSlot i) = true → number ≤ n.webm.cursorSeq i
  else number.toNat ≤ n.webm.currentBlock.prev.clusterSeq.toNat + 1

/-- What keeps the children's cursors inside of the clusters stored. -/
def CursorGuard (s : Node × Nat) (l : Env × Event) : Prop :=
  match l.2 with
  | .setup .. => AdmitsSetup l.1 s.1 →
      s.1.webm.firstClusterSeq ≤ s.1.webm.prevCluster.seq.toUInt16.toUInt32
  | .connect data => AdmitsConnect l.1 (readLink data).id s.1 →
      s.1.webm.firstClusterSeq ≤ ((copyBytesToBlockInfo data).clusterSeq + 1).toUInt32
  | .depart data => ∀ i, s.1.isConnected (childSlot i) = false →
      (s.1.links.depart (readLink data).id).isConnected (LinkSlot.child i) = true →
      s.1.webm.firstClusterSeq ≤ (s.1.webm.cursorSeq i).toUInt32
  | .mulStream => KeepsCursors l.1 s.1
  | .initialStatus .. => s.1.webm.isFirstCluster = true ∧ l.1.freshCluster.seq = 0 ∧
      l.1.freshPrevCluster.seq = 0
  | .block data _ =>
      if data.take blockinfoBytes = blockinfoStart then s.1.webm.isFirstCluster = true
      else isOldBlockSeq (copyBytesToBlockInfo data) s.1.webm = false →
        NumberGuard s.1 (copyBytesToBlockInfo data).clusterSeq
  | .main _ => False
  | _ => True

/-- No cursor of a connected child is before the first cluster, and where `SendMulStream` serves
the child `CalOffset` walks over no more headers than there are clusters. -/
structure CursorsInStore (s : Node × Nat) : Prop where
  ahead : s.1.CursorsAhead
  bounded : ∀ i, s.1.isConnected (childSlot i) = true →
    isOldBlockSeq (s.1.webm.currentChildBlock i).prev s.1.webm = true →
      s.1.webm.cursorDistance i ≤ s.2

theorem isOldBlockSeq_le {info : BlockInfo} {w : Webm} (h : isOldBlockSeq info w = true) :
    info.clusterSeq.toNat ≤ w.prevCluster.seq.toNat := by
  simp only [isOldBlockSeq] at h
  split at h
  · next hlt =>
    rw [UInt32.lt_iff_toNat_lt, UInt16.toNat_toUInt32] at hlt
    omega
  · split at h
    · next heq => rw [← heq, UInt16.toNat_toUInt32]
    · cases h

theorem StoreBounds.inStore {s : Node × Nat} (h : StoreBounds s.1.webm s.2)
    (hahead : s.1.CursorsAhead) : CursorsInStore s := by
  refine ⟨hahead, fun i hi hold => ?_⟩
  have hle := isOldBlockSeq_le hold
  have hfirst := hahead i hi
  have hcursor : (s.1.webm.currentChildBlock i).prev.clusterSeq = s.1.webm.cursorSeq i := rfl
  rw [hcursor] at hle
  rw [Webm.cursorDistance, UInt32.toNat_sub_of_le _ _ hfirst, UInt16.toNat_toUInt32]
  by_cases hisFirst : s.1.webm.isFirstCluster = true
  · obtain ⟨-, hprev, -⟩ := h.before hisFirst
    have hzero : s.1.webm.prevCluster.seq.toNat = 0 := by rw [hprev]; rfl
    omega
  · obtain ⟨-, hprev, -⟩ := h.behind (Bool.eq_false_iff.mpr hisFirst)
    omega

/-! ## Steps -/

theorem StoreBounds.sameWrites {w w' : Webm} {clusters : Nat} (h : StoreBounds w clusters)
    (hsame : SameWrites w w') : StoreBounds w' clusters := by
  obtain ⟨_, _, _, _, -, rfl⟩ := hsame
  exact ⟨h.before, h.behind⟩

theorem StoreBounds.header {w : Webm} {clusters : Nat} (h : StoreBounds w clusters)
    (hfirst : w.isFirstCluster = true) (l : List UInt8) (total : Int) :
    StoreBounds { renewClusterForWrite (updateWebM (writeWebMHeader l w)) with
      totalFileBytes := total } (clusters + 1) := by
  have hmarks := updateWebM_marks (writeWebMHeader l w)
  have hcounts := updateWebM_counts (writeWebMHeader l w)
  simp only [Webm.marks, Marks.mk.injEq] at hmarks
  simp only [Webm.counts, Counts.mk.injEq] at hcounts
  obtain ⟨hzero, hprev, hsame, -⟩ := h.before hfirst
  refine ⟨fun _ => ⟨?_, ?_, ?_, ?_⟩, fun hnot => ?_⟩
  · exact hcounts.2.1.trans hzero
  · exact hmarks.2.1.trans hprev
  · exact (congrArg (fun b : Block => b.info.clusterSeq) hmarks.2.2.2.1).trans
      (hsame.trans (congrArg (fun b : Block => b.prev.clusterSeq) hmarks.2.2.2.1).symm)
  · show ((updateWebM (writeWebMHeader l w)).currentBlock.info.clusterSeq.toUInt32).toNat ≤
      (updateWebM (writeWebMHeader l w)).currentBlock.prev.clusterSeq.toNat
    have hblock : (updateWebM (writeWebMHeader l w)).currentBlock = w.currentBlock :=
      hmarks.2.2.2.1
    rw [hblock, UInt16.toNat_toUInt32, hsame]
  · have hstill : w.isFirstCluster = false := hcounts.1.symm.trans hnot
    rw [hfirst] at hstill
    cases hstill

theorem StoreBounds.store {n : Node} {clusters : Nat} (h : StoreBounds n.webm clusters)
    {data : Buf} {k : UInt16} {w : Webm} (hstore : storeBlock data k n.webm = .ok w)
    (hnumber : NumberGuard n (copyBytesToBlockInfo data).clusterSeq) :
    StoreBounds w (clusters + if n.webm.currentBlock.prev.clusterSeq =
      (copyBytesToBlockInfo data).clusterSeq then 0 else 1) := by
  obtain ⟨hcounts, hmarks⟩ := storeBlock_counts hstore
  simp only [Webm.marks, Marks.mk.injEq] at hmarks
  simp only [Webm.counts, Counts.mk.injEq] at hcounts
  obtain ⟨hisFirst, hfirst, -⟩ := hcounts
  obtain ⟨-, hprevious, hcluster, hblock, -⟩ := hmarks
  generalize copyBytesToBlockInfo data = info at *
  have hopen : w.currentBlock.prev.clusterSeq = info.clusterSeq := by rw [hblock]; rfl
  refine ⟨fun hyes => absurd (hisFirst.symm.trans hyes) Bool.false_ne_true, fun _ => ?_⟩
  rw [hopen, hfirst, hprevious, hcluster]
  unfold NumberGuard at hnumber
  split at hnumber
  · next hyes =>
    obtain ⟨hzero, hprev, -, hcurrent⟩ := h.before hyes
    have hle := UInt16.le_iff_toNat_le.mp hnumber.1
    rw [if_pos hyes, hprev, UInt16.toNat_toUInt32]
    split
    · next heq =>
      rw [heq] at hcurrent
      exact ⟨Nat.le_add_right _ _, Nat.zero_le _, by omega⟩
    · rw [UInt16.toNat_toUInt32]
      exact ⟨Nat.le_add_right _ _, by omega, Nat.le_add_right _ _⟩
  · next hno =>
    obtain ⟨hopenLe, hprevLe, hcurrentLe⟩ := h.behind (Bool.eq_false_iff.mpr hno)
    rw [if_neg hno]
    split
    · next heq =>
      rw [← heq]
      exact ⟨hopenLe, hprevLe, hcurrentLe⟩
    · rw [UInt16.toNat_toUInt32]
      omega

theorem StoreBounds.initial {n : Node} {clusters : Nat} (h : StoreBounds n.webm clusters)
    {env : Env} (data : Buf) (k : UInt16) (hfirst : n.webm.isFirstCluster = true)
    (hcurrent : env.freshCluster.seq = 0) (hprev : env.freshPrevCluster.seq = 0) :
    StoreBounds (nodeInitialStatus env data k n).webm clusters := by
  refine ⟨fun _ => ⟨(h.before hfirst).1, hprev, rfl, ?_⟩, fun hnot => ?_⟩
  · show env.freshCluster.seq.toNat ≤ _
    rw [hcurrent]
    exact Nat.zero_le _
  · have hstill : n.webm.isFirstCluster = false := hnot
    rw [hfirst] at hstill
    cases hstill

theorem clusterStep_bounds {s t : Node × Nat} {l : Env × Event} (h : StoreBounds s.1.webm s.2)
    (hl : CursorGuard s l) (hstep : ClusterStep s l t) : StoreBounds t.1.webm t.2 := by
  obtain ⟨hnode, hclusters⟩ := hstep
  rw [hclusters]
  obtain ⟨env, e⟩ := l
  obtain ⟨n', clusters'⟩ := t
  cases e with
  | block data k =>
      obtain ⟨w, hassemble, hn⟩ := bind_eq_ok.mp hnode
      obtain rfl : { s.1 with webm := w } = n' := Except.ok.inj hn
      simp only [CursorGuard] at hl
      rw [clustersWritten]
      rcases assembleBlock_cases hassemble with
        ⟨hstart, rfl⟩ | ⟨hstart, hold, rfl⟩ | ⟨hstart, hnew, hstore⟩
      · rw [if_pos hstart] at hl ⊢
        exact h.header hl _ _
      · rw [if_neg hstart, if_pos hold]
        exact h
      · rw [if_neg hstart] at hl
        rw [if_neg hstart, hnew, if_neg Bool.false_ne_true]
        exact h.store hstore (hl hnew)
  | initialStatus data k =>
      cases hnode
      obtain ⟨hfirst, hcurrent, hprev⟩ := hl
      exact h.initial data k hfirst hcurrent hprev
  | main => cases hl
  | _ => exact h.sameWrites (step_sameWrites rfl hnode)

theorem nodeDepart_connected {env : Env} {data : Buf} {n n' : Node}
    (h : nodeDepart env data n = .ok n') (i : Fin maxChildNum) :
    n'.isConnected (childSlot i) =
      (n.links.depart (readLink data).id).isConnected (LinkSlot.child i) :=
  congrArg (fun k : Links => k.isConnected (LinkSlot.child i)) (nodeDepart_links h)

/-- Storing a block may set the first cluster, before any child is behind it. -/
theorem storeBlock_ahead {n : Node} {data : Buf} {k : UInt16} {w : Webm}
    (hstore : storeBlock data k n.webm = .ok w)
    (hnumber : NumberGuard n (copyBytesToBlockInfo data).clusterSeq) (hahead : n.CursorsAhead) :
    { n with webm := w }.CursorsAhead := by
  obtain ⟨hcounts, -⟩ := storeBlock_counts hstore
  simp only [Webm.counts, Counts.mk.injEq] at hcounts
  obtain ⟨-, hfirst, -, -, hchildren, -⟩ := hcounts
  intro i hi
  have hcursor : w.cursorSeq i = n.webm.cursorSeq i := by
    rw [Webm.cursorSeq, hchildren]
    rfl
  show w.firstClusterSeq ≤ (w.cursorSeq i).toUInt32
  rw [hfirst, hcursor]
  unfold NumberGuard at hnumber
  split at hnumber
  · next hyes =>
    have hle := UInt16.le_iff_toNat_le.mp (hnumber.2 i hi)
    rw [if_pos hyes, UInt32.le_iff_toNat_le, UInt16.toNat_toUInt32, UInt16.toNat_toUInt32]
    exact hle
  · next hno =>
    rw [if_neg hno]
    exact hahead i hi

/-- A step under the guard keeps the cursors behind the first cluster. -/
theorem clusterStep_ahead {s t : Node × Nat} {l : Env × Event} (hahead : s.1.CursorsAhead)
    (hl : CursorGuard s l) (hstep : ClusterStep s l t) : t.1.CursorsAhead := by
  obtain ⟨hnode, -⟩ := hstep
  obtain ⟨env, e⟩ := l
  obtain ⟨n', clusters'⟩ := t
  have hkept : keepsChildren e = true → n'.webm.firstClusterSeq = s.1.webm.firstClusterSeq →
      n'.webm.currentChildBlock = s.1.webm.currentChildBlock → n'.CursorsAhead := by
    intro he hfirst hblocks i hi
    rw [hfirst, Webm.cursorSeq, hblocks]
    exact hahead i (connected_of_step he hnode i hi)
  have hquiet : isQuiet e = true → keepsChildren e = true → n'.CursorsAhead := by
    intro he hchildren
    have hwebm := (step_sameStore he hnode).webm
    exact hkept hchildren (by rw [hwebm]) (by rw [hwebm])
  cases e with
  | setup data k saddr source => exact nodeSetup_ahead hnode hl hahead
  | connect data => exact nodeConnect_ahead hnode hl hahead
  | depart data =>
      have hwebm := (nodeDepart_sameStore hnode).webm
      intro i hi
      rw [hwebm]
      by_cases hbefore : s.1.isConnected (childSlot i) = true
      · exact hahead i hbefore
      · exact hl i (Bool.eq_false_iff.mpr hbefore) ((nodeDepart_connected hnode i).symm.trans hi)
  | mulStream =>
      obtain ⟨ret, hsend⟩ := step_mulStream hnode
      exact sendMulStream_ahead hsend hl hahead
  | block data k =>
      obtain ⟨w, hassemble, hn⟩ := bind_eq_ok.mp hnode
      obtain rfl : { s.1 with webm := w } = n' := Except.ok.inj hn
      simp only [CursorGuard] at hl
      rcases assembleBlock_cases hassemble with
        ⟨hstart, rfl⟩ | ⟨hstart, hold, rfl⟩ | ⟨hstart, hnew, hstore⟩
      · have hcounts := updateWebM_counts (writeWebMHeader
          ((data.drop blockinfoBytes).take (k - UInt16.ofNat blockinfoBytes).toNat) s.1.webm)
        simp only [Webm.counts, Counts.mk.injEq] at hcounts
        exact hkept rfl hcounts.2.1 hcounts.2.2.2.2.1
      · exact hahead
      · rw [if_neg hstart] at hl
        exact storeBlock_ahead hstore (hl hnew) hahead
  | initialStatus data k =>
      cases hnode
      exact hkept rfl rfl rfl
  | advertise data k =>
      cases hnode
      have hwebm : (nodeAdvertise env data k s.1).webm = s.1.webm :=
        (sendSetup_talks _).sameStore.webm
      exact hkept rfl (congrArg Webm.firstClusterSeq hwebm) (congrArg Webm.currentChildBlock hwebm)
  | accept data =>
      have hn : nodeAccept env data s.1 = n' := Except.ok.inj hnode
      exact hkept rfl (by rw [← hn, nodeAccept_webm]) (by rw [← hn, nodeAccept_webm])
  | resList data k =>
      cases hnode
      exact hkept rfl rfl rfl
  | main => cases hl
  | _ => exact hquiet rfl rfl

/-! ## Runs -/

theorem peerStart_bounds (env : Env) (srcIp originIp : UInt32) (srcPort : UInt16)
    (start : Timeval) (blocks : Fin maxChildNum → Block) :
    StoreBounds (peerStart env srcIp originIp srcPort start blocks).webm 0 := by
  rw [peerStart_webm]
  exact ⟨fun _ => ⟨rfl, rfl, rfl, Nat.le_refl 0⟩, fun h => nomatch h⟩

/-- In every run of a peer whose steps meet the guard the cursors stay inside of the store. -/
theorem run_cursorsInStore {env : Env} {srcIp originIp : UInt32} {srcPort : UInt16}
    {start : Timeval} {blocks : Fin maxChildNum → Block} {ls : List (Env × Event)} {t : Node × Nat}
    (hrun : Run (Guarded ClusterStep CursorGuard)
      (peerStart env srcIp originIp srcPort start blocks, 0) ls t) : CursorsInStore t := by
  have hstart : StoreBounds (peerStart env srcIp originIp srcPort start blocks).webm 0 ∧
      (peerStart env srcIp originIp srcPort start blocks).CursorsAhead := by
    refine ⟨peerStart_bounds env srcIp originIp srcPort start blocks, fun i _ => ?_⟩
    rw [peerStart_webm]
    exact UInt32.le_iff_toNat_le.mpr (Nat.zero_le _)
  have hkeep : ∀ s l u, StoreBounds s.1.webm s.2 ∧ s.1.CursorsAhead → CursorGuard s l →
      ClusterStep s l u → StoreBounds u.1.webm u.2 ∧ u.1.CursorsAhead :=
    fun s l u h hl hstep => ⟨clusterStep_bounds h.1 hl hstep, clusterStep_ahead h.2 hl hstep⟩
  obtain ⟨hbounds, hahead⟩ := hrun.guarded_invariant hkeep hstart
  exact hbounds.inStore hahead

/-! ## A child behind the store -/

/-- The peer that joined at cluster 5, behind `k` bytes of it. -/
structure HoldsBytes (k : Nat) (w : Webm) : Prop where
  takes : Takes byteOf5 w
  total : w.totalBlockNum = UInt64.ofNat k
  previous : w.prevCluster.seq = 0
  childBlocks : w.childBlocksAllocated = true
  first : if k = 0 then w.isFirstCluster = true
    else w.isFirstCluster = false ∧ w.firstClusterSeq = 5

theorem HoldsBytes.next {k : Nat} {w : Webm} (h : HoldsBytes k w) : ∃ w',
    storeBlock byteOf5.data (byteOf5.bytes - UInt16.ofNat blockinfoBytes) w = .ok w' ∧
      HoldsBytes (k + 1) w' := by
  obtain ⟨w', hw', htotal, hstore⟩ := h.takes.next
  obtain ⟨hcounts, hmarks⟩ := storeBlock_counts hstore
  simp only [Webm.counts, Counts.mk.injEq] at hcounts
  simp only [Webm.marks, Marks.mk.injEq] at hmarks
  obtain ⟨hisFirst, hfirst, -, -, -, hchildren, -⟩ := hcounts
  refine ⟨w', hstore, hw', ?_, ?_, hchildren.trans h.childBlocks, ?_⟩
  · rw [htotal, h.total, UInt64.ofNat_add]
    rfl
  · have hsame : w.currentBlock.prev.clusterSeq = (copyBytesToBlockInfo byteOf5.data).clusterSeq :=
      h.takes.block
    rw [hmarks.2.1, if_pos hsame]
    exact h.previous
  · have hwas := h.first
    rw [if_neg (Nat.succ_ne_zero k)]
    refine ⟨hisFirst, ?_⟩
    rw [hfirst]
    split at hwas
    · rw [if_pos hwas]
      rfl
    · rw [if_neg (by rw [hwas.1]; exact Bool.false_ne_true)]
      exact hwas.2

theorem initialPeer_not_connected (i : Fin maxChildNum) :
    (initialPeer 5).isConnected (childSlot i) = false := by
  revert i
  decide

theorem HoldsBytes.step {k : Nat} {w : Webm} (h : HoldsBytes k w) (env : Env) (clusters : Nat) :
    ∃ w', Guarded ClusterStep CursorGuard ({ initialPeer 5 with webm := w }, clusters)
      (env, .block byteOf5.data byteOf5.bytes) ({ initialPeer 5 with webm := w' }, clusters) ∧
      HoldsBytes (k + 1) w' := by
  obtain ⟨w', hstore, hw'⟩ := h.next
  have hnew : isOldBlockSeq (copyBytesToBlockInfo byteOf5.data) w = false :=
    isOldBlockSeq_eq_false h.takes.previous
  have hsame : w.currentBlock.prev.clusterSeq = (copyBytesToBlockInfo byteOf5.data).clusterSeq :=
    h.takes.block
  refine ⟨w', ⟨?_, ?_, ?_⟩, hw'⟩
  · simp only [CursorGuard, if_neg byteOf5.not_start]
    intro _
    unfold NumberGuard
    have hwas := h.first
    split at hwas
    · rw [if_pos hwas]
      refine ⟨?_, fun i hi => ?_⟩
      · show w.currentBlock.prev.clusterSeq ≤ _
        rw [hsame]
        exact UInt16.le_refl _
      · exact absurd ((initialPeer_not_connected i).symm.trans hi) Bool.false_ne_true
    · rw [if_neg (by rw [hwas.1]; exact Bool.false_ne_true)]
      show _ ≤ w.currentBlock.prev.clusterSeq.toNat + 1
      rw [hsame]
      exact Nat.le_succ _
  · show (do let webm ← assembleBlock byteOf5.data byteOf5.bytes w
             return { { initialPeer 5 with webm := w } with webm }) = _
    have hnot : ¬ isOldBlockSeq byteOf5.info w = true := Bool.eq_false_iff.mp hnew
    rw [assembleBlock_eq byteOf5 h.takes.allocated, if_neg hnot, hstore]
    rfl
  · show clusters = clusters + clustersWritten w (.block byteOf5.data byteOf5.bytes)
    rw [clustersWritten, if_neg byteOf5.not_start, if_neg (Bool.eq_false_iff.mp hnew), if_pos hsame]
    rfl

theorem timeCache_full {env : Env} {n : Node} (hid : n.myStatus.id ≠ originId)
    (hplaying : n.isBeginPlaying = false)
    (hcache : (n.webm.totalBlockNum - n.playedBuffer).toBitVec.toInt = defaultCache) :
    timeCache env n = { n with
      totalBuffer := n.webm.totalBlockNum
      currentCache := defaultCache
      isBeginStreaming := true
      isBeginPlaying := true
      playedTimestamp := n.stamp env } := by
  have hplayed : calPlayedBuffer env n = { n with totalBuffer := n.webm.totalBlockNum } := by
    simp only [calPlayedBuffer, if_neg hid, hplaying, Bool.false_and, Bool.false_eq_true, if_false]
  simp only [timeCache, hplayed, hcache, if_true]
  rfl

/-- The peer behind 200 blocks, with a full cache. -/
def cachedPeer (w : Webm) : Node :=
  { initialPeer 5 with
    webm := w
    totalBuffer := w.totalBlockNum
    currentCache := defaultCache
    isBeginStreaming := true
    isBeginPlaying := true
    playedTimestamp := (initialPeer 5).stamp (Env.clock ⟨3, 0⟩) }

theorem timeCache_cachedPeer {w : Webm} (h : w.totalBlockNum = 200) :
    timeCache (Env.clock ⟨3, 0⟩) { initialPeer 5 with webm := w } = cachedPeer w := by
  have hid : (initialPeer 5).myStatus.id ≠ originId := by decide
  have hfull : (w.totalBlockNum - (initialPeer 5).playedBuffer).toBitVec.toInt = defaultCache := by
    rw [h]
    decide
  rw [timeCache_full (n := { initialPeer 5 with webm := w }) hid rfl hfull]
  rfl

theorem exists_cachedPeer : ∃ ls w, Run (Guarded ClusterStep CursorGuard) (firstPeer, 0) ls
    (cachedPeer w, 1) ∧ HoldsBytes 200 w := by
  obtain ⟨data, k, w, hstart, hstep, hjoined, hprev, htotal, -⟩ :=
    exists_joinedWebm 5 footer (by decide)
  have hwebm := hjoined.webm
  have hstores := hwebm.stores
  have hempty : HoldsBytes 0 w := by
    refine ⟨⟨hstores.allocated, hstores.prev, ?_⟩, htotal, hprev, hwebm.childBlocks, hwebm.isFirst⟩
    show w.prevCluster.seq < _
    rw [hprev]
    decide
  have hnext : ∀ k s, (∃ w, s = ({ initialPeer 5 with webm := w }, 1) ∧ HoldsBytes k w) →
      ∃ t, Guarded ClusterStep CursorGuard s
        (Env.clock ⟨3, 0⟩, .block byteOf5.data byteOf5.bytes) t ∧
        ∃ w, t = ({ initialPeer 5 with webm := w }, 1) ∧ HoldsBytes (k + 1) w := by
    rintro k _ ⟨w, rfl, hw⟩
    obtain ⟨w', hstep, hw'⟩ := hw.step (Env.clock ⟨3, 0⟩) 1
    exact ⟨_, hstep, w', rfl, hw'⟩
  obtain ⟨_, hblocks, w', rfl, hw'⟩ := Run.exists_replicate hnext 200 0 _ ⟨w, rfl, hempty⟩
  have hinitial : Guarded ClusterStep CursorGuard (firstPeer, 0)
      (Env.clock ⟨1, 0⟩, .initialStatus (joinData 5) 68) (initialPeer 5, 0) :=
    ⟨⟨rfl, rfl, rfl⟩, rfl, rfl⟩
  have hheader : Guarded ClusterStep CursorGuard (initialPeer 5, 0)
      (Env.clock ⟨2, 0⟩, .block data k) ({ initialPeer 5 with webm := w }, 1) := by
    refine ⟨?_, hstep, ?_⟩
    · simp only [CursorGuard, if_pos hstart]
      rfl
    · simp only [clustersWritten, if_pos hstart]
  have hcache : Guarded ClusterStep CursorGuard ({ initialPeer 5 with webm := w' }, 1)
      (Env.clock ⟨3, 0⟩, .timeCache) (cachedPeer w', 1) := by
    refine ⟨trivial, ?_, rfl⟩
    show Except.ok (timeCache (Env.clock ⟨3, 0⟩) { initialPeer 5 with webm := w' }) = _
    rw [timeCache_cachedPeer hw'.total]
  exact ⟨_, w', .cons hinitial (.cons hheader (hblocks.append (.cons hcache (.nil _)))), hw'⟩

theorem cachedPeer_connected (w : Webm) (i : Fin maxChildNum) :
    (cachedPeer w).isConnected (childSlot i) = false := initialPeer_not_connected i

theorem cachedPeer_new (w : Webm) (id : UInt16) (env : Env) :
    isDuplicatedChild id env (cachedPeer w) = false := by
  simp only [isDuplicatedChild, cachedPeer_connected, Bool.false_and, List.any_eq_false]
  exact fun _ _ => Bool.false_ne_true

theorem cachedPeer_free (w : Webm) : checkChildNum (cachedPeer w) = some 0 := by
  show checkChildNum (initialPeer 5) = some 0
  decide

theorem exists_nodeSetup {w : Webm} (h : HoldsBytes 200 w) (data : Buf) (saddr : UInt32)
    (source : UInt16) :
    ∃ n, nodeSetup (Env.clock ⟨4, 0⟩) data saddr source (cachedPeer w) = .ok n := by
  have hrnd : generateRndID (Env.clock ⟨4, 0⟩).rand 0 ((cachedPeer w).currentChildNum + 1)
      (cachedPeer w) = some myId := rfl
  have hallocated : ((cachedPeer w).webm.clusterAllocated &&
      (cachedPeer w).webm.childBlocksAllocated) = true := by
    show (w.clusterAllocated && w.childBlocksAllocated) = true
    rw [h.childBlocks, Bool.and_true]
    exact (Bool.and_eq_true_iff.mp h.takes.allocated).1
  have hcache : ¬ (cachedPeer w).currentCache < defaultCache := Int.lt_irrefl _
  simp only [nodeSetup, hrnd, cachedPeer_free, hallocated, if_neg hcache, ne_eq, not_true, if_false,
    Bool.not_true, Bool.false_eq_true]
  exact ⟨_, rfl⟩

theorem cachedPeer_admits (w : Webm) : AdmitsSetup (Env.clock ⟨4, 0⟩) (cachedPeer w) :=
  ⟨rfl, Int.lt_irrefl _, by rw [cachedPeer_free]; exact Option.some_ne_none _⟩

/-- A peer that joined at cluster 5 and is still in it admits a node: the child's cursor is at
cluster 0, and sends `CalOffset` around. -/
theorem cursor_behindStore : ∃ ls t, Run ClusterStep (firstPeer, 0) ls t ∧ ¬ CursorsInStore t ∧
    ∃ i, t.1.isConnected (childSlot i) = true ∧ t.1.webm.cursorDistance i = 2 ^ 32 - 5 := by
  obtain ⟨ls, w, hrun, hw⟩ := exists_cachedPeer
  obtain ⟨n, hsetup⟩ := exists_nodeSetup hw Buf.zero 0x0300000a 12347
  obtain ⟨i, hconnected, hwebm⟩ := nodeSetup_admitted hsetup (cachedPeer_admits w)
  have hstep : ClusterStep (cachedPeer w, 1)
      (Env.clock ⟨4, 0⟩, .setup Buf.zero 4 0x0300000a 12347) (n, 1) := ⟨hsetup, rfl⟩
  have hfirst : n.webm.firstClusterSeq = 5 := by
    rw [hwebm]
    exact hw.first.2
  have hcursor : n.webm.cursorSeq i = 0 := by
    rw [hwebm, cursorSeq_setChildBlock, if_pos rfl]
    show w.prevCluster.seq.toUInt16 = 0
    rw [hw.previous]
    rfl
  refine ⟨_, _, (hrun.mono fun _ _ _ h => h.2).append (.cons hstep (.nil _)), fun hinside => ?_,
    i, hconnected, ?_⟩
  · have hle := hinside.ahead i hconnected
    rw [hfirst, hcursor] at hle
    exact absurd hle (by decide)
  · rw [Webm.cursorDistance, hfirst, hcursor]
    decide

/-- The Connect of a node that holds cluster 5. -/
def connectData : Buf :=
  packetData (copyNodeStatusToBytes { statusOf 2 3 12347 2 with clusterSeq := 5 })

theorem exists_nodeConnect {w : Webm} (h : HoldsBytes 200 w) :
    ∃ n, nodeConnect (Env.clock ⟨4, 0⟩) connectData (cachedPeer w) = .ok n := by
  obtain ⟨n, hconnect, -⟩ := exists_nodeConnect_admitNode (Env.clock ⟨4, 0⟩) connectData
    (Int.lt_irrefl _) (cachedPeer_free w) (cachedPeer_new w _ _) h.childBlocks
  exact ⟨n, hconnect⟩

/-- Under the guard, a node is admitted. -/
theorem run_cursorsInStore_connect : ∃ ls t,
    Run (Guarded ClusterStep CursorGuard) (firstPeer, 0) ls t ∧
    (∃ i, t.1.isConnected (childSlot i) = true) ∧ CursorsInStore t := by
  obtain ⟨ls, w, hrun, hw⟩ := exists_cachedPeer
  obtain ⟨n, hconnect⟩ := exists_nodeConnect hw
  have hadmits : AdmitsConnect (Env.clock ⟨4, 0⟩) (readLink connectData).id (cachedPeer w) := by
    exact ⟨Int.lt_irrefl _, by rw [cachedPeer_free]; exact Option.some_ne_none _,
      cachedPeer_new w _ _⟩
  obtain ⟨i, hconnected⟩ := nodeConnect_admitted hconnect hadmits
  have hguard : CursorGuard (cachedPeer w, 1) (Env.clock ⟨4, 0⟩, .connect connectData) := by
    intro _
    show w.firstClusterSeq ≤ _
    rw [hw.first.2]
    decide
  have hstep : ClusterStep (cachedPeer w, 1) (Env.clock ⟨4, 0⟩, .connect connectData) (n, 1) :=
    ⟨hconnect, rfl⟩
  have hall := hrun.append (.cons ⟨hguard, hstep⟩ (.nil _))
  exact ⟨_, _, hall, ⟨i, hconnected⟩, run_cursorsInStore hall⟩

end P2PStream
