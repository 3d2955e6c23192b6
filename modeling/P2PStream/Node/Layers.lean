/-
# `P2PStream.Node.Layers` — the layers that a node records

A node is one layer below its parent and records each child one layer below itself.
`NodeSetup` and `NodeConnect` do so for a child, `NodeAccept` for the node.  Where the
layer of the node itself changes, the records of the children do not follow; and a bit
that Detach borrows brings a parent back that the node no longer belongs to.
-/
import P2PStream.Node.Join
import P2PStream.Node.Playing

namespace P2PStream

open Lib

/-- The recorded layers are true: they are `u8`, as their sums are. -/
structure Layered (n : Node) : Prop where
  child : ∀ i, n.isConnected (childSlot i) = true →
    (n.nodesStatus (childSlot i)).layer = n.myStatus.layer + 1
  parent : n.isConnected parentId = true → n.myStatus.layer = (n.nodesStatus parentId).layer + 1

/-- The layer in the record at `data`. -/
def readLayer (data : Buf) : UInt8 := (copyBytesToBlockInfo data).layer

/-! ## What the handlers do with layers -/

theorem admitChild_layers (env : Env) (i : Fin maxChildNum) (n : Node) :
    (admitChild env i n).layers = n.layers := by
  have hstamp : Steady n (n.setStatus (childSlot i)
      { n.nodesStatus (childSlot i) with timestamp := n.stamp env }) := setStatus_steady rfl
  exact hstamp.layers

theorem setupChild_layers (data : Buf) (ipaddr : UInt32) (port : UInt16) (i : Fin maxChildNum)
    (n : Node) : (setupChild data ipaddr port i n).layers =
      Function.update n.layers (childSlot i) (n.myStatus.layer + 1) :=
  setStatus_layers (childSlot i) _ _

theorem setupAdmission_layers (env : Env) (data : Buf) (saddr : UInt32) (source : UInt16)
    (i : Fin maxChildNum) (n : Node) : (setupAdmission env data saddr source i n).layers =
      Function.update n.layers (childSlot i) (n.myStatus.layer + 1) := by
  rw [setupAdmission, admitChild_layers]
  exact setupChild_layers data saddr (htons source) i _

theorem connectAdmission_layers (env : Env) (data : Buf) (i : Fin maxChildNum) (n : Node) :
    (connectAdmission env data i n).layers =
      Function.update n.layers (childSlot i) (n.myStatus.layer + 1) := by
  rw [connectAdmission, admitChild_layers]
  exact setStatus_layers (childSlot i) _ _

theorem nodeInitialStatus_layers (env : Env) (data : Buf) (k : UInt16) (n : Node) :
    (nodeInitialStatus env data k n).layers =
      Function.update (Function.update n.layers myId (readLayer (data.drop 8))) parentId
        (readLayer (data.drop (nodeStatusBytes + 8))) := by
  let my := copyBytesToNodeStatus n.myStatus (data.drop 8)
  let parent := copyBytesToNodeStatus (n.nodesStatus parentId) (data.drop (nodeStatusBytes + 8))
  show ((n.setStatus myId my).setStatus parentId
    { parent with timestamp := n.stamp env }).layers = _
  rw [setStatus_layers, setStatus_layers]
  rfl

theorem nodeAccept_layers (env : Env) (data : Buf) (n : Node) :
    (nodeAccept env data n).layers =
      Function.update (Function.update n.layers parentId (readLayer data)) myId
        (readLayer data + 1) := by
  obtain ⟨parent, _, _, hafter, hparent, -⟩ := nodeAccept_changes env data n
  have hlayer : parent.layer = readLayer data := by
    rw [hparent]
    rfl
  rw [hafter]
  show ((n.setStatus parentId parent).setStatus myId
    { n.myStatus with layer := parent.layer + 1 }).layers = _
  rw [setStatus_layers, setStatus_layers, hlayer]

/-- The layers after an event of a peer; events that are not named leave them alone. -/
def LayersAfter (env : Env) (n : Node) (layers : Slot → UInt8) : Event → Prop
  | .setup .. => (¬ AdmitsSetup env n ∧ layers = n.layers) ∨
      (AdmitsSetup env n ∧ ∃ i, checkChildNum n = some i ∧
        layers = Function.update n.layers (childSlot i) (n.myStatus.layer + 1))
  | .connect data => (¬ AdmitsConnect env (readLink data).id n ∧ layers = n.layers) ∨
      (AdmitsConnect env (readLink data).id n ∧ ∃ i, checkChildNum n = some i ∧
        layers = Function.update n.layers (childSlot i) (n.myStatus.layer + 1))
  | .initialStatus data _ =>
      layers = Function.update (Function.update n.layers myId (readLayer (data.drop 8))) parentId
        (readLayer (data.drop (nodeStatusBytes + 8)))
  | .accept data =>
      layers = Function.update (Function.update n.layers parentId (readLayer data)) myId
        (readLayer data + 1)
  | _ => layers = n.layers

theorem step_layers {env : Env} {n n' : Node} {e : Event} (h : n.step .peer env e = .ok n') :
    LayersAfter env n n'.layers e := by
  cases e with
  | setup data k saddr source =>
      rcases nodeSetup_cases h with ⟨hno, ad, rfl⟩ | ⟨hyes, i, hi, rfl⟩
      · exact .inl ⟨hno, rfl⟩
      · exact .inr ⟨hyes, i, hi, setupAdmission_layers env data saddr source i n⟩
  | connect data =>
      rcases nodeConnect_cases h with ⟨hno, rfl | rfl⟩ | ⟨hyes, i, hi, rfl⟩
      · exact .inl ⟨hno, rfl⟩
      · exact .inl ⟨hno, rfl⟩
      · exact .inr ⟨hyes, i, hi, connectAdmission_layers env data i n⟩
  | initialStatus data k => cases h; exact nodeInitialStatus_layers env data k n
  | accept data => cases h; exact nodeAccept_layers env data n
  | timeCache =>
      cases h
      obtain ⟨_, _, _, _, _, _, hafter⟩ := timeCache_changes env n
      rw [hafter]
      rfl
  | _ => exact (step_steady rfl h).layers

/-! ## Keeping them true -/

/-- What an InitialStatus says of the node and of its parent agrees, where it sets the parent's bit,
and it says of the node what its children were told.  An Accept comes from the layer above the
node where there are children.  A Detach that finds the parent's bit clear finds its record true. -/
def LayerGuard (n : Node) (l : Env × Event) : Prop :=
  match l.2 with
  | .initialStatus data _ =>
      (∀ i, n.isConnected (childSlot i) = true → readLayer (data.drop 8) = n.myStatus.layer) ∧
        (n.isConnected parentId = false →
          readLayer (data.drop 8) = readLayer (data.drop (nodeStatusBytes + 8)) + 1)
  | .accept data =>
      ∀ i, n.isConnected (childSlot i) = true → n.myStatus.layer = readLayer data + 1
  | .detach _ => n.isConnected parentId = false →
      n.myStatus.layer = (n.nodesStatus parentId).layer + 1
  | _ => True

variable {n n' : Node}

theorem layered_iff : Layered n ↔
    (∀ i, n.links.isConnected (LinkSlot.child i) = true →
      n.layers (childSlot i) = n.layers myId + 1) ∧
      (n.links.isConnected LinkSlot.parent = true → n.layers myId = n.layers parentId + 1) :=
  ⟨fun h => ⟨h.child, h.parent⟩, fun h => ⟨h.1, h.2⟩⟩

theorem Layered.of_subset (h : Layered n)
    (hconnected : ∀ s, n'.links.isConnected s = true → n.links.isConnected s = true)
    (hlayers : n'.layers = n.layers) : Layered n' := by
  rw [layered_iff] at h ⊢
  rw [hlayers]
  exact ⟨fun i hi => h.1 i (hconnected _ hi), fun hparent => h.2 (hconnected _ hparent)⟩

theorem Layered.of_links (h : Layered n) (hlinks : n'.links = n.links)
    (hlayers : n'.layers = n.layers) : Layered n' :=
  h.of_subset (fun _ hs => hlinks ▸ hs) hlayers

/-- Where a child's record is true of one layer of the node, it is true of no other. -/
theorem Layered.child_iff (h : Layered n) {i : Fin maxChildNum}
    (hi : n.links.isConnected (LinkSlot.child i) = true) {layer : UInt8} :
    n.layers (childSlot i) = layer + 1 ↔ layer = n.myStatus.layer := by
  have hrecord : n.layers (childSlot i) = n.myStatus.layer + 1 := h.child i hi
  rw [hrecord, UInt8.add_left_inj, eq_comm]

theorem parentId_ne_childSlot (i : Fin maxChildNum) : parentId ≠ childSlot i := by
  revert i
  decide

/-- A child that takes a free slot is recorded one layer below the node. -/
theorem Layered.admit (h : Layered n) {i : Fin maxChildNum} {k : Link} {a : UInt32 × UInt16}
    (hi : checkChildNum n = some i) (hlinks : n'.links = n.links.admitNode i k a)
    (hlayers : n'.layers = Function.update n.layers (childSlot i) (n.myStatus.layer + 1)) :
    Layered n' := by
  have hbits := Links.isConnected_admitNode k a (checkChildNum_clear hi)
  rw [layered_iff] at h ⊢
  rw [hlinks, hlayers, Function.update_of_ne (childSlot_ne_myId i).symm]
  refine ⟨fun j hj => ?_, fun hparent => ?_⟩
  · by_cases hji : j = i
    · rw [hji, Function.update_self]
      rfl
    · rw [Function.update_of_ne (mt childSlot_inj.mp hji)]
      rw [hbits, decide_eq_false (mt LinkSlot.child_inj.mp (Ne.symm hji)), Bool.or_false] at hj
      exact h.1 j hj
  · rw [Function.update_of_ne (parentId_ne_childSlot i)]
    rw [hbits, decide_eq_false (Links.child_ne_parent i), Bool.or_false] at hparent
    exact h.2 hparent

/-- The steps of a peer, but for a Depart, whose borrows are a matter of their own. -/
def LayerStep (n : Node) (l : Env × Event) (n' : Node) : Prop :=
  (∀ data, l.2 ≠ .depart data) ∧ NodeStep .peer n l n'

/-- From a state with true layers, a step leads to one exactly under the guard. -/
theorem layered_step_iff {l : Env × Event} (h : Layered n) (hstep : LayerStep n l n') :
    Layered n' ↔ LayerGuard n l := by
  obtain ⟨env, e⟩ := l
  obtain ⟨hdepart, hstep⟩ := hstep
  have hafter : LinksAfter .peer env n n'.links e := step_links hstep
  have hlayers : LayersAfter env n n'.layers e := step_layers hstep
  cases e with
  | setup | connect =>
      refine iff_of_true ?_ trivial
      rcases hafter with ⟨hno, hsame⟩ | ⟨hyes, i, hi, hadm⟩
      · rcases hlayers with ⟨-, hkept⟩ | ⟨hyes, -⟩
        · exact h.of_links hsame hkept
        · exact absurd hyes hno
      · rcases hlayers with ⟨hno, -⟩ | ⟨-, j, hj, hrecorded⟩
        · exact absurd hyes hno
        · rw [hi, Option.some.injEq] at hj
          exact h.admit hi hadm (hj ▸ hrecorded)
  | depart data => exact absurd rfl (hdepart data)
  | initialStatus data k =>
      have hjoin : n'.links = (n.links.record _).join := hafter
      have hrecorded : n'.layers = Function.update (Function.update n.layers myId
        (readLayer (data.drop 8))) parentId (readLayer (data.drop (nodeStatusBytes + 8))) := hlayers
      have hmy : n'.layers myId = readLayer (data.drop 8) := by
        rw [hrecorded, Function.update_of_ne (by decide), Function.update_self]
      have hparent : n'.layers parentId = readLayer (data.drop (nodeStatusBytes + 8)) := by
        rw [hrecorded, Function.update_self]
      have hchild : ∀ i, n'.layers (childSlot i) = n.layers (childSlot i) := fun i => by
        rw [hrecorded, Function.update_of_ne (parentId_ne_childSlot i).symm,
          Function.update_of_ne (childSlot_ne_myId i)]
      rw [layered_iff, hmy, hparent, hjoin, Links.isConnected_join_parent, Bool.not_eq_true']
      refine and_congr (forall_congr' fun i => ?_) Iff.rfl
      rw [Links.isConnected_join_child, hchild]
      exact forall_congr' fun hi => h.child_iff hi
  | accept data =>
      have haccept : n'.links = if n.isConnected parentId then n.links.record (readLink data)
        else (n.links.record (readLink data)).join := hafter
      have hrecorded : n'.layers = Function.update (Function.update n.layers parentId
        (readLayer data)) myId (readLayer data + 1) := hlayers
      have hmy : n'.layers myId = readLayer data + 1 := by
        rw [hrecorded, Function.update_self]
      have hparent : n'.layers parentId = readLayer data := by
        rw [hrecorded, Function.update_of_ne (by decide), Function.update_self]
      have hchild : ∀ i, n'.layers (childSlot i) = n.layers (childSlot i) := fun i => by
        rw [hrecorded, Function.update_of_ne (childSlot_ne_myId i),
          Function.update_of_ne (parentId_ne_childSlot i).symm]
      have hconnected : ∀ i, n'.links.isConnected (LinkSlot.child i) =
          n.links.isConnected (LinkSlot.child i) := fun i => by
        rw [haccept]
        split
        · rfl
        · exact Links.isConnected_join_child i
      rw [layered_iff, hmy, hparent]
      refine Iff.trans (and_iff_left fun _ => rfl) (forall_congr' fun i => ?_)
      rw [hconnected, hchild]
      exact forall_congr' fun hi => (h.child_iff hi).trans eq_comm
  | detach data =>
      obtain ⟨id, hleave⟩ := hafter
      have hkept : n'.layers = n.layers := hlayers
      rw [layered_iff, hkept, hleave, Links.isConnected_leave_parent, Bool.not_eq_true']
      refine Iff.trans (and_iff_right fun i hi => ?_) Iff.rfl
      rw [Links.isConnected_leave_child] at hi
      exact h.child i hi
  | timeout s =>
      have hdrop : n'.links = if isTimedOut env s n then n.links.drop s else n.links := hafter
      refine iff_of_true (h.of_subset (fun t ht => ?_) hlayers) trivial
      rw [hdrop] at ht
      split at ht
      · next hout =>
        rw [Links.isConnected_drop (isConnected_of_isTimedOut hout), Bool.and_eq_true] at ht
        exact ht.1
      · exact ht
  | advertise data k =>
      have hredirect : n'.links = n.links.redirect _ := hafter
      refine iff_of_true (h.of_subset (fun s hs => ?_) hlayers) trivial
      rw [hredirect] at hs
      exact hs
  | _ => exact iff_of_true (h.of_links hafter hlayers) trivial

theorem Started.layered {program : Program} (h : Started program n) : Layered n := by
  have hclear : ∀ s, n.links.isConnected s = false := fun s => by
    rw [Links.isConnected, h.links.1]
    exact BitVec.getLsbD_zero
  exact layered_iff.mpr ⟨fun i hi => absurd hi (by rw [hclear]; decide),
    fun hparent => absurd hparent (by rw [hclear]; decide)⟩

/-- The recorded layers are true in every state of a run, when and only when each of its steps meets
the guard. -/
theorem layers_iff_guarded {ls : List (Env × Event)} (hstart : Started .peer n) :
    Layered n ∧ (Run (Guarded LayerStep LayerGuard) n ls n' ↔
      Run (Safe LayerStep fun _ _ m => Layered m) n ls n') := by
  refine ⟨hstart.layered, Run.guarded_iff_safe Layered ?_ ?_ hstart.layered⟩
  · intro s l t hs hguard hstep
    have hlayered := (layered_step_iff hs hstep).mpr hguard
    exact ⟨hlayered, hlayered⟩
  · intro s l t hs hstep hgood
    exact (layered_step_iff hs hstep).mp hgood

/-- A peer leaves the origin and is accepted one layer below it. -/
theorem layers_iff_guarded_accept : ∃ n, Run (Safe LayerStep fun _ _ m => Layered m) firstPeer
    [joinOrigin, (Env.clock ⟨2, 0⟩, .detach (packetData [0, 3])), (Env.clock ⟨3, 0⟩,
      .accept (packetData (copyNodeStatusToBytes (statusOf 7 7 12347 1))))] n := by
  refine ⟨_, (layers_iff_guarded (.peer _ _ _ _ _ _)).2.mp
    (.cons ⟨⟨?_, ?_⟩, nofun, rfl⟩ (.cons ⟨?_, nofun, rfl⟩ (.cons ⟨?_, nofun, rfl⟩ (.nil _))))⟩
  · decide +kernel
  · decide +kernel
  · show _ = false → _
    decide +kernel
  · show ∀ i : Fin maxChildNum, _ = true → _ = _
    decide +kernel

/-- A peer with a child of its own loses the origin and is accepted one layer below it. -/
def moveWithChild : List (Env × Event) :=
  joinAndFill 200 ++ [(Env.clock ⟨3, 0⟩, .timeCache),
    (Env.clock ⟨4, 0⟩, .connect (packetData (copyNodeStatusToBytes (statusOf 9 9 12349 0)))),
    (Env.clock ⟨7, 0⟩, .timeout parentId),
    (Env.clock ⟨8, 0⟩, .accept (packetData (copyNodeStatusToBytes (statusOf 7 7 12347 1))))]

theorem layerStep_run {ls : List (Env × Event)} (hrun : Run (NodeStep .peer) n ls n')
    (hls : ∀ l ∈ ls, ∀ data, l.2 ≠ .depart data) : Run LayerStep n ls n' := by
  have hall : Run (Guarded (NodeStep .peer) fun _ _ => True) n ls n' :=
    hrun.mono fun _ _ _ h => ⟨trivial, h⟩
  exact (hall.guarded_labels hls).mono fun _ _ _ h => ⟨h.1.2, h.2⟩

/-- The node is in layer 2 then, and so is its child. -/
theorem child_layer_stale : Started .peer firstPeer ∧ ∃ n, Run LayerStep firstPeer moveWithChild n ∧
    n.isConnected (childSlot 0) = true ∧ n.myStatus.layer = 2 ∧
    (n.nodesStatus (childSlot 0)).layer = 2 ∧ ¬ Layered n := by
  have hexec : (firstPeer.exec .peer moveWithChild).toOption.any (fun n =>
      n.isConnected (childSlot 0) = true ∧ n.myStatus.layer = 2 ∧
        (n.nodesStatus (childSlot 0)).layer = 2) = true := by
    decide +kernel
  obtain ⟨n, hrun, hn⟩ := Node.exists_run_of_exec hexec
  obtain ⟨hconnected, hmy, hchild⟩ := of_decide_eq_true hn
  have hlabels : ∀ l ∈ moveWithChild, ∀ data, l.2 ≠ .depart data := by
    intro l hl data hdepart
    simp only [moveWithChild, joinAndFill, List.cons_append, List.mem_cons, List.mem_append,
      List.mem_replicate, List.not_mem_nil, or_false] at hl
    rcases hl with rfl | ⟨-, rfl⟩ | rfl | rfl | rfl | rfl <;> cases hdepart
  refine ⟨.peer _ _ _ _ _ _, n, layerStep_run hrun hlabels, hconnected, hmy, hchild, fun h => ?_⟩
  have hbelow := h.child 0 hconnected
  rw [hmy, hchild] at hbelow
  exact absurd hbelow (by decide)

/-! ## The message of the parent -/

/-- What an InitialStatus that answers a Setup says of the child and of the node agrees, wherever it
arrives. -/
theorem initialStatus_agrees (data : Buf) (ipaddr : UInt32) (port : UInt16)
    (hcount : n.links.Counted) {i : Fin maxChildNum} (hi : n.isConnected (childSlot i) = false)
    {buf : Buf} (hbuf : buf.Holds
      (lastData (sendInitialStatus (childSlot i) (setupChild data ipaddr port i n))).tail) :
    readLayer (buf.drop 8) = readLayer (buf.drop (nodeStatusBytes + 8)) + 1 := by
  let m := setupChild data ipaddr port i n
  have hm : m.links.Counted := (Links.counted_iff _).mpr ((Links.counted_iff _).mp hcount)
  have hmi : m.isConnected (childSlot i) = false := hi
  rw [lastData_sendInitialStatus hm hmi, List.tail_cons] at hbuf
  obtain ⟨-, hrecords⟩ := Buf.holds_append.mp hbuf
  rw [length_timecodeOffsetBytes, initialStatusCopied, List.flatMap_cons] at hrecords
  obtain ⟨hchild, hrest⟩ := Buf.holds_append.mp hrecords
  rw [length_copyNodeStatusToBytes, List.flatMap_cons, Buf.drop_drop] at hrest
  obtain ⟨hmy, -⟩ := Buf.holds_append.mp hrest
  have hread : ∀ {b : Buf} {status : NodeStatus}, b.Holds (copyNodeStatusToBytes status) →
      readLayer b = status.layer := fun h =>
    congrArg (fun status : NodeStatus => status.layer) (copyBytesToNodeStatus_of_holds .zero h)
  have hlayers : m.layers = Function.update n.layers (childSlot i) (n.myStatus.layer + 1) :=
    setupChild_layers data ipaddr port i n
  rw [hread hchild, Nat.add_comm, hread hmy]
  show m.layers (childSlot i) = m.layers myId + 1
  rw [hlayers, Function.update_self, Function.update_of_ne (childSlot_ne_myId i).symm]
  rfl

end P2PStream
