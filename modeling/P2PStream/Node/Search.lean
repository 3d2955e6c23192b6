/-
# `P2PStream.Node.Search` — the search for a new parent

A node that has lost its parent sends a Connect to one candidate after another.  An
Unaccept excludes the node it comes from.  `NodeRetry` excludes the node that `PARENT_ID`
names: this is the lost parent, or the candidate of `NodeDetach`, which writes its id
there; `NodeRetry` and `NodeUnaccept` do not.  So a candidate of theirs that does not
answer is not excluded, and is asked again; and a parent that sent a Detach never is.
-/
import P2PStream.Node.Closest
import P2PStream.Node.Retry

namespace P2PStream

open Lib

/-! ## The except list -/

/-- `EXCEPT_LIST = ExceptListPush( EXCEPT_LIST , id )`. -/
def Node.excepting (id : UInt16) (n : Node) : Node :=
  { n with exceptList := exceptListPush n.myStatus.id n.exceptList id }

/-- The except list is empty, or the own id was pushed first. -/
def Seeded (n : Node) : Prop := n.exceptList = [] ∨ n.myStatus.id ∈ n.exceptList

section Except

variable {n : Node} {id x : UInt16}

theorem mem_excepting_self : x ∈ (n.excepting x).exceptList :=
  List.mem_append_right _ (List.mem_singleton_self x)

theorem mem_excepting_of_mem (h : id ∈ n.exceptList) : id ∈ (n.excepting x).exceptList := by
  refine List.mem_append_left _ ?_
  rwa [if_neg (List.ne_nil_of_mem h)]

theorem Seeded.own_mem (h : Seeded n) : n.myStatus.id ∈ (n.excepting x).exceptList := by
  rcases h with hnil | hmem
  · refine List.mem_append_left _ ?_
    rw [if_pos hnil]
    exact List.mem_singleton_self _
  · exact mem_excepting_of_mem hmem

end Except

/-! ## The candidate -/

/-- The candidate is found outside the except list, on the cloest layer, or it is the origin. -/
theorem candidate_eq_ok {n : Node} {prior : NodeStatus} {found : Bool}
    (h : candidate n = .ok (prior, found)) :
    (found = true ∧ getPriorList n = some prior) ∨
      (found = false ∧ getPriorList n = none ∧ prior.id = originId) := by
  unfold candidate at h
  split at h
  · next s hprior =>
    cases h
    exact .inl ⟨rfl, hprior⟩
  · next hprior =>
    obtain ⟨entry, hlist, h⟩ := bind_eq_ok.mp h
    cases entry with
    | none => cases h
    | some s =>
        cases h
        refine .inr ⟨rfl, hprior, ?_⟩
        unfold getList at hlist
        split at hlist
        · cases hlist
        · split at hlist
          · next hid =>
            cases hlist
            exact hid
          · cases hlist

theorem getPriorList_eq_some {n : Node} {prior : NodeStatus} (h : getPriorList n = some prior) :
    prior ∈ n.nodesList ∧ prior.id ∉ n.exceptList ∧
      prior.layer = getCloestLayer n.myStatus.layer n.nodesList := by
  have hfound := List.find?_some h
  simp only [Bool.and_eq_true, Bool.not_eq_true', decide_eq_true_eq] at hfound
  refine ⟨List.mem_of_find?_eq_some h, fun hmem => ?_, hfound.2⟩
  have hcontains : isExceptListContains n.exceptList prior.id = true :=
    List.any_eq_true.mpr ⟨_, hmem, decide_eq_true rfl⟩
  rw [hfound.1] at hcontains
  cases hcontains

/-! ## The machine -/

/-- A node that searches, with the node it contacted last, those contacted since the except list was
cleared, and all that `NodeUnaccept` and `NodeRetry` contacted. -/
structure Search where
  node : Node
  last : Option UInt16
  tried : List UInt16
  contacts : List UInt16

/-- `prior` is sent a Connect; the fall-back to the origin clears the except list. -/
def Search.contact (s : Search) (prior : NodeStatus) (found : Bool) (n : Node) : Search where
  node := n
  last := some prior.id
  tried := if found then s.tried ++ [prior.id] else []
  contacts := s.contacts ++ [prior.id]

inductive SearchLabel where
  | unaccept (data : Buf)
  | retry (env : Env)
  | resList (data : Buf) (dataBytes : UInt16)

/-- An Unaccept of the node contacted last, a time-out, or news of other nodes. -/
inductive SearchStep (s : Search) : SearchLabel → Search → Prop
  | unaccept {n : Node} {prior : NodeStatus} {found : Bool} (data : Buf) :
      s.last = some (readU16 data) →
      candidate (s.node.excepting (readU16 data)) = .ok (prior, found) →
      nodeUnaccept data s.node = .ok n → SearchStep s (.unaccept data) (s.contact prior found n)
  | retry {n : Node} {prior : NodeStatus} {found : Bool} (env : Env) :
      candidate (s.node.excepting (s.node.nodesStatus parentId).id) = .ok (prior, found) →
      nodeRetry env s.node = .ok n → SearchStep s (.retry env) (s.contact prior found n)
  | resList (data : Buf) (dataBytes : UInt16) :
      SearchStep s (.resList data dataBytes) { s with node := nodeResList data dataBytes s.node }

/-- The node has lost the parent with the id `lost`. -/
inductive Loss (n : Node) (lost : UInt16) : Search → Prop
  /-- The keep-alive loop drops it; `NodeRetry` follows. -/
  | timeout (env : Env) : isTimedOut env parentId n = true → (n.nodesStatus parentId).id = lost →
      Loss n lost ⟨{ n.disconnect parentId with currentChildNum := n.currentChildNum - 1 },
        none, [], []⟩
  /-- It sent a Detach; `NodeDetach` contacts a first candidate. -/
  | detach {n' : Node} {prior : NodeStatus} {found : Bool} (env : Env) (data : Buf) :
      (n.nodesStatus parentId).id = lost → candidate n = .ok (prior, found) →
      nodeDetach env data n = .ok n' → Loss n lost ⟨n', some prior.id, [prior.id], []⟩

/-- The lost parent is not what comes next: it is excluded, or it is not listed on the cloest layer;
and the origin, when nothing is found, is neither the lost parent nor the node itself. -/
def Spares (lost : UInt16) (n : Node) : Prop :=
  match getPriorList n with
  | some _ => lost ∈ n.exceptList ∨ ∀ s ∈ n.nodesList, s.id = lost →
      s.layer ≠ getCloestLayer n.myStatus.layer n.nodesList
  | none => lost ≠ originId ∧ n.myStatus.id ≠ originId

theorem spares_of_mem {lost : UInt16} {n : Node} (h : lost ∈ n.exceptList)
    (hfound : (getPriorList n).isSome = true) : Spares lost n := by
  obtain ⟨prior, hprior⟩ := Option.isSome_iff_exists.mp hfound
  simp only [Spares, hprior]
  exact .inl h

/-- `NodeRetry` excludes the node that was contacted last: `PARENT_ID` names it, or it is on the
list. -/
def ExcludesLast (s : Search) : Prop :=
  ∀ id, s.last = some id → id ∈ s.tried →
    id = (s.node.nodesStatus parentId).id ∨ id ∈ s.node.exceptList

/-- The condition on a step. -/
def SearchGuard (lost : UInt16) (s : Search) : SearchLabel → Prop
  | .unaccept data => Spares lost (s.node.excepting (readU16 data))
  | .retry _ => ExcludesLast s ∧ Spares lost (s.node.excepting (s.node.nodesStatus parentId).id)
  | .resList .. => True

/-! ## What a search keeps -/

/-- Neither the node itself nor the lost parent was contacted, and nobody twice. -/
structure FreshSearch (own lost : UInt16) (s : Search) : Prop where
  id : s.node.myStatus.id = own
  seeded : Seeded s.node
  excluded : ∀ id ∈ s.tried, id ∈ s.node.exceptList ∨ s.last = some id
  own_not_mem : own ∉ s.contacts
  lost_not_mem : lost ∉ s.contacts
  nodup : s.tried.Nodup

section Steps

variable {own lost x : UInt16} {s t : Search} {n : Node} {prior : NodeStatus} {found : Bool}

theorem FreshSearch.contact (h : FreshSearch own lost s)
    (htried : ∀ id ∈ s.tried, id ∈ (s.node.excepting x).exceptList)
    (hspares : Spares lost (s.node.excepting x))
    (hcandidate : candidate (s.node.excepting x) = .ok (prior, found))
    (hid : n.myStatus.id = s.node.myStatus.id)
    (hlist : n.exceptList = if found then (s.node.excepting x).exceptList else []) :
    FreshSearch own lost (s.contact prior found n) := by
  have hown : own ∈ (s.node.excepting x).exceptList := h.id ▸ h.seeded.own_mem
  have hfresh : prior.id ≠ own ∧ prior.id ≠ lost := by
    rcases candidate_eq_ok hcandidate with ⟨-, hprior⟩ | ⟨-, hprior, horigin⟩
    · obtain ⟨hmem, hnot, hlayer⟩ := getPriorList_eq_some hprior
      simp only [Spares, hprior] at hspares
      refine ⟨fun heq => hnot (heq ▸ hown), fun heq => ?_⟩
      rcases hspares with hlost | hother
      · exact hnot (heq ▸ hlost)
      · exact hother prior hmem heq hlayer
    · simp only [Spares, hprior] at hspares
      rw [horigin]
      exact ⟨fun heq => hspares.2 (h.id.trans heq.symm), hspares.1.symm⟩
  have hcontacts : ∀ {y : UInt16}, y ∉ s.contacts → prior.id ≠ y → y ∉ s.contacts ++ [prior.id] :=
    fun hnot hne hmem => (List.mem_append.mp hmem).elim hnot fun hlast =>
      hne (List.mem_singleton.mp hlast).symm
  rcases candidate_eq_ok hcandidate with ⟨rfl, hprior⟩ | ⟨rfl, -, -⟩
  · -- found outside the except list
    rw [if_pos rfl] at hlist
    have hnot := (getPriorList_eq_some hprior).2.1
    refine ⟨hid.trans h.id, .inr ?_, fun id hmem => ?_, hcontacts h.own_not_mem hfresh.1,
      hcontacts h.lost_not_mem hfresh.2, ?_⟩
    · show n.myStatus.id ∈ n.exceptList
      rw [hid, hlist, h.id]
      exact hown
    · show id ∈ n.exceptList ∨ some prior.id = some id
      rw [hlist]
      rcases List.mem_append.mp hmem with hmem | hmem
      · exact .inl (htried id hmem)
      · exact .inr (congrArg some (List.mem_singleton.mp hmem).symm)
    · refine List.nodup_append.mpr ⟨h.nodup, List.nodup_singleton _, fun id hmem y hy heq => ?_⟩
      rw [List.mem_singleton] at hy
      exact hnot (hy ▸ heq ▸ htried id hmem)
  · -- the fall-back
    exact ⟨hid.trans h.id, .inl (hlist.trans (if_neg Bool.false_ne_true)), nofun,
      hcontacts h.own_not_mem hfresh.1, hcontacts h.lost_not_mem hfresh.2, List.nodup_nil⟩

theorem nodeUnaccept_exceptList {data : Buf}
    (hcandidate : candidate (n.excepting (readU16 data)) = .ok (prior, found)) {n' : Node}
    (h : nodeUnaccept data n = .ok n') : n'.myStatus.id = n.myStatus.id ∧
      n'.exceptList = if found then (n.excepting (readU16 data)).exceptList else [] := by
  obtain ⟨_, _, list, hcandidate', hlist, rfl⟩ := nodeUnaccept_asks h
  cases hcandidate.symm.trans hcandidate'
  exact ⟨rfl, hlist⟩

theorem nodeRetry_exceptList {env : Env}
    (hcandidate : candidate (n.excepting (n.nodesStatus parentId).id) = .ok (prior, found))
    {n' : Node} (h : nodeRetry env n = .ok n') : n'.myStatus.id = n.myStatus.id ∧
      n'.exceptList =
        if found then (n.excepting (n.nodesStatus parentId).id).exceptList else [] := by
  obtain ⟨_, _, list, hcandidate', hlist, rfl⟩ := nodeRetry_asks h
  cases hcandidate.symm.trans hcandidate'
  exact ⟨rfl, hlist⟩

theorem nodeDetach_exceptList {env : Env} {data : Buf} {n' : Node}
    (h : nodeDetach env data n = .ok n') :
    n'.myStatus.id = n.myStatus.id ∧ n'.exceptList = n.exceptList := by
  obtain ⟨_, _, -, rfl⟩ := nodeDetach_asks h
  exact ⟨rfl, rfl⟩

theorem fresh_step {l : SearchLabel} (h : FreshSearch own lost s) (hguard : SearchGuard lost s l)
    (hstep : SearchStep s l t) : FreshSearch own lost t := by
  cases hstep with
  | unaccept data hlast hcandidate hnode =>
      obtain ⟨hid, hlist⟩ := nodeUnaccept_exceptList hcandidate hnode
      refine h.contact (fun id hmem => ?_) hguard hcandidate hid hlist
      rcases h.excluded id hmem with hexcluded | hid
      · exact mem_excepting_of_mem hexcluded
      · -- it was contacted last, so it is the node that refused
        rw [← Option.some.inj (hlast.symm.trans hid)]
        exact mem_excepting_self
  | retry env hcandidate hnode =>
      obtain ⟨hlast, hspares⟩ := hguard
      obtain ⟨hid, hlist⟩ := nodeRetry_exceptList hcandidate hnode
      refine h.contact (fun id hmem => ?_) hspares hcandidate hid hlist
      have hexcluded := (h.excluded id hmem).symm.imp_left fun hid => hlast id hid hmem
      rcases hexcluded with (hparent | hmem) | hmem
      · rw [hparent]
        exact mem_excepting_self
      · exact mem_excepting_of_mem hmem
      · exact mem_excepting_of_mem hmem
  | resList data dataBytes =>
      exact ⟨h.id, h.seeded, h.excluded, h.own_not_mem, h.lost_not_mem, h.nodup⟩

theorem Loss.freshSearch (hseeded : Seeded n) (h : Loss n lost s) :
    FreshSearch n.myStatus.id lost s := by
  cases h with
  | timeout env hout hlost => exact ⟨rfl, hseeded, nofun, nofun, nofun, List.nodup_nil⟩
  | @detach n' prior found env data hlost hcandidate hdetach =>
      obtain ⟨hid, hlist⟩ := nodeDetach_exceptList hdetach
      refine ⟨hid, ?_, fun id hmem => .inr ?_, nofun, nofun, List.nodup_singleton _⟩
      · rwa [Seeded, hid, hlist]
      · rw [List.mem_singleton.mp hmem]

end Steps

/-- What the keep-alive loop does when it drops the parent is the first `NodeRetry`. -/
theorem timeout_parent {env : Env} {n : Node} (h : isTimedOut env parentId n = true) :
    timeout env parentId n = nodeRetry env
      { n.disconnect parentId with currentChildNum := n.currentChildNum - 1 } := by
  simp only [timeout, if_pos h, if_true]
  rfl

/-! ## Runs -/

/-- Where every time-out finds the node that was contacted last in `PARENT_ID`, and the lost parent
is spared, no search contacts the node itself or the lost parent, nor anybody twice before the
fall-back to the origin. -/
theorem contacts_fresh {n : Node} {lost : UInt16} {s t : Search} {ls : List SearchLabel}
    (hseeded : Seeded n) (hloss : Loss n lost s)
    (hrun : Run (Guarded SearchStep (SearchGuard lost)) s ls t) :
    n.myStatus.id ∉ t.contacts ∧ lost ∉ t.contacts ∧ t.tried.Nodup := by
  have hkeep : ∀ s l t, FreshSearch n.myStatus.id lost s → SearchGuard lost s l → SearchStep s l t →
      FreshSearch n.myStatus.id lost t := fun s l t => fresh_step
  have hfresh := hrun.guarded_invariant hkeep (hloss.freshSearch hseeded)
  exact ⟨hfresh.own_not_mem, hfresh.lost_not_mem, hfresh.nodup⟩

/-- An InitialStatus of node 3, which tells of nodes 2 and 4. -/
def joinedData : Buf :=
  initialStatusData [statusOf 1 2 12346 1, statusOf 3 4 12348 0, statusOf 2 3 12347 1,
    statusOf 4 5 12349 1]

/-- A peer under node 3. -/
def joinedPeer : Node := firstPeer.after .peer (Env.clock ⟨1, 0⟩) (.initialStatus joinedData 128)

theorem joinedPeer_run : Run (NodeStep .peer) firstPeer
    [(Env.clock ⟨1, 0⟩, .initialStatus joinedData 128)] joinedPeer :=
  .cons (Node.after_step (by decide +kernel)) (.nil _)

theorem joinedPeer_seeded : Seeded joinedPeer := .inl (by decide +kernel)

/-- Node 3 is silent. -/
def lostParent : Search where
  node := { joinedPeer.disconnect parentId with currentChildNum := joinedPeer.currentChildNum - 1 }
  last := none
  tried := []
  contacts := []

theorem joinedPeer_loss : Loss joinedPeer 3 lostParent :=
  .timeout (Env.clock ⟨7, 0⟩) (by decide +kernel) (by decide +kernel)

/-- Node 2 is contacted. -/
def firstContact : Search :=
  lostParent.contact (statusOf 2 3 12347 1) true
    ((nodeRetry (Env.clock ⟨7, 0⟩) lostParent.node).toOption.getD lostParent.node)

theorem lostParent_retry : SearchStep lostParent (.retry (Env.clock ⟨7, 0⟩)) firstContact :=
  .retry _ (by decide +kernel) rfl

/-- It refuses, and node 4 is contacted. -/
theorem contacts_fresh_joinedPeer : ∃ (t : Search) (data : Buf), Loss joinedPeer 3 lostParent ∧
    Run (Guarded SearchStep (SearchGuard 3)) lostParent [.retry (Env.clock ⟨7, 0⟩), .unaccept data]
      t ∧
    t.contacts = [2, 4] ∧ joinedPeer.myStatus.id ∉ t.contacts ∧ 3 ∉ t.contacts ∧ t.tried.Nodup := by
  have hsecond := @SearchStep.unaccept firstContact _ (statusOf 4 5 12349 1) true
    (packetData [0, 2]) (by decide +kernel) (by decide +kernel) rfl
  have hretry : SearchGuard 3 lostParent (.retry (Env.clock ⟨7, 0⟩)) :=
    ⟨nofun, spares_of_mem (by decide +kernel) (by decide +kernel)⟩
  have hunaccept : SearchGuard 3 firstContact (.unaccept (packetData [0, 2])) :=
    show Spares 3 (firstContact.node.excepting (readU16 (packetData [0, 2]))) from
      spares_of_mem (by decide +kernel) (by decide +kernel)
  have hrun : Run (Guarded SearchStep (SearchGuard 3)) lostParent _ _ :=
    .cons ⟨hretry, lostParent_retry⟩ (.cons ⟨hunaccept, hsecond⟩ (.nil _))
  exact ⟨_, _, joinedPeer_loss, hrun, by decide +kernel,
    contacts_fresh joinedPeer_seeded joinedPeer_loss hrun⟩

/-- It does not answer, and is contacted again. -/
theorem contact_repeated : ∃ t : Search, Started .peer firstPeer ∧
    Run (NodeStep .peer) firstPeer [(Env.clock ⟨1, 0⟩, .initialStatus joinedData 128)] joinedPeer ∧
    Seeded joinedPeer ∧ Loss joinedPeer 3 lostParent ∧
    Run SearchStep lostParent [.retry (Env.clock ⟨7, 0⟩), .retry (Env.clock ⟨13, 0⟩)] t ∧
    t.contacts = [2, 2] ∧ ¬ t.tried.Nodup := by
  have hsecond := @SearchStep.retry firstContact _ (statusOf 2 3 12347 1) true (Env.clock ⟨13, 0⟩)
    (by decide +kernel) rfl
  exact ⟨_, .peer .., joinedPeer_run, joinedPeer_seeded, joinedPeer_loss,
    .cons lostParent_retry (.cons hsecond (.nil _)), by decide +kernel, by decide +kernel⟩

end P2PStream
