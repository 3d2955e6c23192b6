/-
# `P2PStream.Overlay.Ids` — the ids of the nodes that join at the origin

A node asks with a first Setup of 4 bytes, is given an id, and asks again with a Setup of
10 bytes that has the id in it.  The origin reads no id from it: the record of the child,
which InitialStatus sends back, gets `CURRENT_NODE_ID`, the last id given to anyone, and
the node takes over the id it is told.

So the ids agree while the origin gives one id to each node it admits, and none between
that and the admission.  Both fail as soon as two nodes wait for the origin's cache.
-/
import P2PStream.Node.Ids

namespace P2PStream

open Lib

/-- Where a node is, as the origin sees it: the address in network order, and the port. -/
abbrev Addr := UInt32 × UInt16

/-! ## What the origin has given -/

/-- The id has been given to the node at `a`. -/
def Ids.Gives (x : Ids) (a : Addr) (id : UInt16) : Prop :=
  ∃ p ∈ x.sent, p.IsTo a idProto ∧ p.givenId = id

/-- The node at `a` has been sent its status. -/
def Ids.Admitted (x : Ids) (a : Addr) : Prop := ∃ p ∈ x.sent, p.IsTo a initialStatusProto

/-- The ids given are the numbers counted, each to one node; and a node that has been sent its
status has been given the one id in it. -/
structure Ids.Ordered (x : Ids) : Prop where
  own : x.own = originId
  counted : ∀ a id, x.Gives a id → 1 ≤ id.toNat ∧ id.toNat ≤ x.counter.toNat
  apart : ∀ a b id, x.Gives a id → x.Gives b id → a = b
  only : ∀ a, ∀ p ∈ x.sent, p.IsTo a initialStatusProto →
    ∀ id, x.Gives a id ↔ id = p.recordedId
  idBytes : ∀ a, ∀ p ∈ x.sent, p.IsTo a idProto → 2 ≤ p.data.tail.length
  statusBytes : ∀ a, ∀ p ∈ x.sent, p.IsTo a initialStatusProto → 28 ≤ p.data.tail.length

theorem Packet.IsTo.proto_eq {p : Packet} {a b : Addr} {proto proto' : UInt8}
    (h : p.IsTo a proto) (h' : p.IsTo b proto') : proto = proto' :=
  Option.some.inj (h.2.2.symm.trans h'.2.2)

theorem Packet.IsTo.addr_eq {p : Packet} {a b : Addr} {proto proto' : UInt8}
    (h : p.IsTo a proto) (h' : p.IsTo b proto') : a = b :=
  Prod.ext (h.1.symm.trans h'.1) (h.2.1.symm.trans h'.2.1)

section Answers

variable {x : Ids} {a : Addr} {p : Packet}

/-- With one more id given. -/
def Ids.give (x : Ids) (p : Packet) : Ids := ⟨x.own, x.counter + 1, x.sent ++ [p]⟩

/-- With one more node told its status. -/
def Ids.join (x : Ids) (p : Packet) : Ids := { x with sent := x.sent ++ [p] }

theorem Ids.gives_give (hto : p.IsTo a idProto) (hid : p.givenId = x.counter + 1) (b : Addr)
    (id : UInt16) : (x.give p).Gives b id ↔ x.Gives b id ∨ b = a ∧ id = x.counter + 1 := by
  constructor
  · rintro ⟨q, hq, hqto, rfl⟩
    rcases List.mem_append.mp hq with hq | hq
    · exact Or.inl ⟨q, hq, hqto, rfl⟩
    · obtain rfl := List.mem_singleton.mp hq
      exact Or.inr ⟨hqto.addr_eq hto, hid⟩
  · rintro (⟨q, hq, hqto, hqid⟩ | ⟨rfl, rfl⟩)
    · exact ⟨q, List.mem_append_left _ hq, hqto, hqid⟩
    · exact ⟨p, List.mem_append_right _ (List.mem_singleton_self p), hto, hid⟩

theorem Ids.gives_join (hto : p.IsTo a initialStatusProto) (b : Addr) (id : UInt16) :
    (x.join p).Gives b id ↔ x.Gives b id := by
  constructor
  · rintro ⟨q, hq, hqto, hqid⟩
    rcases List.mem_append.mp hq with hq | hq
    · exact ⟨q, hq, hqto, hqid⟩
    · obtain rfl := List.mem_singleton.mp hq
      exact absurd (hqto.proto_eq hto) (by decide)
  · rintro ⟨q, hq, hqto, hqid⟩
    exact ⟨q, List.mem_append_left _ hq, hqto, hqid⟩

/-- Another id, to a node that has not been admitted; and the counter does not wrap. -/
theorem Ids.Ordered.give (h : x.Ordered) (hto : p.IsTo a idProto) (hid : p.givenId = x.counter + 1)
    (hbytes : 2 ≤ p.data.tail.length) (hwrap : x.counter ≠ 65535) (hnew : ¬ x.Admitted a) :
    (x.give p).Ordered := by
  have hnext : (x.counter + 1).toNat = x.counter.toNat + 1 := by
    have hlt := x.counter.toNat_lt
    have hne : x.counter.toNat ≠ 65535 := fun heq => hwrap (UInt16.toNat_inj.mp heq)
    rw [UInt16.toNat_add, Nat.mod_eq_of_lt (by simp; omega)]
    rfl
  have hfresh : ∀ b, ¬ x.Gives b (x.counter + 1) := by
    intro b hb
    have hle := (h.counted b _ hb).2
    omega
  refine ⟨h.own, fun b id hb => ?_, fun b c id hb hc => ?_, fun b q hq hqto id => ?_,
    fun b q hq hqto => ?_, fun b q hq hqto => ?_⟩
  · show 1 ≤ id.toNat ∧ id.toNat ≤ (x.counter + 1).toNat
    rcases (Ids.gives_give hto hid b id).mp hb with hb | ⟨-, rfl⟩
    · have hle := h.counted b id hb
      omega
    · omega
  · rcases (Ids.gives_give hto hid b id).mp hb with hb | ⟨rfl, rfl⟩
    · rcases (Ids.gives_give hto hid c id).mp hc with hc | ⟨rfl, rfl⟩
      · exact h.apart b c id hb hc
      · exact absurd hb (hfresh b)
    · rcases (Ids.gives_give hto hid c _).mp hc with hc | ⟨rfl, -⟩
      · exact absurd hc (hfresh c)
      · rfl
  · rcases List.mem_append.mp hq with hq | hq
    · have hb : b ≠ a := fun heq => hnew ⟨q, hq, heq ▸ hqto⟩
      rw [Ids.gives_give hto hid, ← h.only b q hq hqto id]
      exact or_iff_left fun heq => hb heq.1
    · obtain rfl := List.mem_singleton.mp hq
      exact absurd (hto.proto_eq hqto) (by decide)
  · rcases List.mem_append.mp hq with hq | hq
    · exact h.idBytes b q hq hqto
    · obtain rfl := List.mem_singleton.mp hq
      exact hbytes
  · rcases List.mem_append.mp hq with hq | hq
    · exact h.statusBytes b q hq hqto
    · obtain rfl := List.mem_singleton.mp hq
      exact absurd (hto.proto_eq hqto) (by decide)

theorem Ids.Ordered.join (h : x.Ordered) (hto : p.IsTo a initialStatusProto)
    (honly : ∀ id, x.Gives a id ↔ id = p.recordedId) (hbytes : 28 ≤ p.data.tail.length) :
    (x.join p).Ordered := by
  refine ⟨h.own, fun b id hb => ?_, fun b c id hb hc => ?_, fun b q hq hqto id => ?_,
    fun b q hq hqto => ?_, fun b q hq hqto => ?_⟩
  · exact h.counted b id ((Ids.gives_join hto b id).mp hb)
  · exact h.apart b c id ((Ids.gives_join hto b id).mp hb) ((Ids.gives_join hto c id).mp hc)
  · rw [Ids.gives_join hto]
    rcases List.mem_append.mp hq with hq | hq
    · exact h.only b q hq hqto id
    · obtain rfl := List.mem_singleton.mp hq
      rw [hqto.addr_eq hto]
      exact honly id
  · rcases List.mem_append.mp hq with hq | hq
    · exact h.idBytes b q hq hqto
    · obtain rfl := List.mem_singleton.mp hq
      exact absurd (hqto.proto_eq hto) (by decide)
  · rcases List.mem_append.mp hq with hq | hq
    · exact h.statusBytes b q hq hqto
    · obtain rfl := List.mem_singleton.mp hq
      exact hbytes

end Answers

/-! ## The network -/

/-- The origin, and the node at each address; `told` when the node has been told an id. -/
structure IdNet where
  origin : Node
  peer : Addr → Node
  told : Addr → Bool

inductive IdEvent where
  | origin (env : Env) (e : Event)
  | peer (a : Addr) (env : Env) (e : Event)
  | setup (env : Env) (data : Buf) (k : UInt16) (saddr : UInt32) (source : UInt16)
  | id (a : Addr) (env : Env) (data : Buf)
  | initialStatus (a : Addr) (env : Env) (data : Buf) (k : UInt16)

/-- The events that are not a Setup to the origin, nor one of its answers. -/
def isApart : Program → Event → Bool
  | .origin, .setup .. => false
  | .peer, .id .. => false
  | _, .initialStatus .. => false
  | _, _ => true

/-- A Setup is one that its node has sent to the origin, and an answer is one that the origin has
sent to the node: either may be lost, repeated and reordered. -/
inductive IdStep (s : IdNet) : IdEvent → IdNet → Prop
  | origin {env : Env} {e : Event} {n : Node} (he : isApart .origin e = true)
      (h : NodeStep .origin s.origin (env, e) n) :
      IdStep s (.origin env e) { s with origin := n }
  | peer {a : Addr} {env : Env} {e : Event} {n : Node} (he : isApart .peer e = true)
      (h : NodeStep .peer (s.peer a) (env, e) n) :
      IdStep s (.peer a env e) { s with peer := Function.update s.peer a n }
  | setup {p : Packet} {env : Env} {data : Buf} {saddr : UInt32} {source : UInt16} {n : Node}
      (hp : p ∈ (s.peer (saddr, htons source)).sent)
      (hto : p.IsTo (s.origin.srcIp, s.origin.srcPort) setupProto)
      (hdata : data.Holds p.data.tail)
      (h : NodeStep .origin s.origin
        (env, .setup data (UInt16.ofNat p.data.tail.length) saddr source) n) :
      IdStep s (.setup env data (UInt16.ofNat p.data.tail.length) saddr source)
        { s with origin := n }
  | id {p : Packet} {a : Addr} {env : Env} {data : Buf} {n : Node} (hp : p ∈ s.origin.sent)
      (hto : p.IsTo a idProto) (hdata : data.Holds p.data.tail)
      (h : NodeStep .peer (s.peer a) (env, .id data) n) :
      IdStep s (.id a env data)
        { s with peer := Function.update s.peer a n, told := Function.update s.told a true }
  | initialStatus {p : Packet} {a : Addr} {env : Env} {data : Buf} {n : Node}
      (hp : p ∈ s.origin.sent) (hto : p.IsTo a initialStatusProto) (hdata : data.Holds p.data.tail)
      (h : NodeStep .peer (s.peer a)
        (env, .initialStatus data (UInt16.ofNat p.data.tail.length)) n) :
      IdStep s (.initialStatus a env data (UInt16.ofNat p.data.tail.length))
        { s with peer := Function.update s.peer a n, told := Function.update s.told a true }

/-- Everyone as its program starts. -/
structure IdNet.Start (s : IdNet) : Prop where
  origin : Started .origin s.origin
  peer : ∀ a, Started .peer (s.peer a)
  told : ∀ a, s.told a = false

/-! ## What should hold -/

/-- The ids that nodes hold differ, and none is the origin's. -/
structure IdNet.Differ (s : IdNet) : Prop where
  apart : ∀ a b, s.told a = true → s.told b = true →
    (s.peer a).myStatus.id = (s.peer b).myStatus.id → a = b
  not_origin : ∀ a, s.told a = true → (s.peer a).myStatus.id ≠ originId

/-- A node that holds an id is admitted under it: in the child's record and in the status sent to
it; and its status leaves the id alone. -/
def AgreesOnId (s : IdNet) : IdEvent → IdNet → Prop
  | .setup env _ _ saddr source, t =>
      s.told (saddr, htons source) = true → AdmitsSetup env s.origin →
        (∃ i, checkChildNum s.origin = some i ∧ (t.origin.nodesStatus (childSlot i)).id =
          (s.peer (saddr, htons source)).myStatus.id) ∧
        t.origin.ids.Admitted (saddr, htons source) ∧
        ∀ p ∈ t.origin.ids.sent, p.IsTo (saddr, htons source) initialStatusProto →
          p.recordedId = (s.peer (saddr, htons source)).myStatus.id
  | .initialStatus a _ _ _, t =>
      s.told a = true → (t.peer a).myStatus.id = (s.peer a).myStatus.id
  | _, _ => True

/-- When `NodeSetup` is reached, behind the `SendID` of a first Setup: an id is given only to a
node that has not been admitted, and while the counter does not wrap; and a node is admitted
only when the last id given is the only one that it has been given.  The length of its status
counts the children, of whom there are not fewer than -1. -/
def OneIdEach (s : IdNet) : IdEvent → Prop
  | .setup env _ k saddr source =>
      (k = 4 → s.origin.currentNodeId ≠ 65535 ∧ ¬ s.origin.ids.Admitted (saddr, htons source)) ∧
      (AdmitsSetup env s.origin → -1 ≤ s.origin.currentChildNum ∧
        ∀ id, (receiveSetup .origin k saddr source s.origin).ids.Gives (saddr, htons source) id ↔
          id = (receiveSetup .origin k saddr source s.origin).currentNodeId)
  | _ => True

/-! ## One step -/

theorem nodeInitialStatus_id (env : Env) (data : Buf) (k : UInt16) (n : Node) :
    (nodeInitialStatus env data k n).myStatus.id =
      (copyBytesToNodeStatus NodeStatus.zero (data.drop 8)).id := rfl

theorem Started.ids {n : Node} (h : Started .origin n) : n.ids = ⟨originId, 0, []⟩ := by
  cases h
  rfl

theorem isApart_origin {env : Env} {n n' : Node} {e : Event} (he : isApart .origin e = true)
    (h : n.step .origin env e = .ok n') : n'.ids = n.ids := by
  cases e with
  | id data => cases h; rfl
  | setup | initialStatus => cases he
  | _ => exact step_ids rfl h

theorem nodeSetup_myStatus {env : Env} {data : Buf} {saddr : UInt32} {source : UInt16} {n n' : Node}
    (h : nodeSetup env data saddr source n = .ok n') : n'.myStatus = n.myStatus := by
  rcases nodeSetup_cases h with ⟨-, ad, rfl⟩ | ⟨-, i, -, rfl⟩
  · rfl
  · have hmy : myId ≠ childSlot i := (childSlot_ne_myId i).symm
    exact (Function.update_of_ne hmy ..).trans (Function.update_of_ne hmy ..)

theorem isApart_peer {env : Env} {n n' : Node} {e : Event} (he : isApart .peer e = true)
    (h : n.step .peer env e = .ok n') : n'.myStatus.id = n.myStatus.id := by
  cases e with
  | setup data k saddr source => exact congrArg NodeStatus.id (nodeSetup_myStatus h)
  | id | initialStatus => cases he
  | _ => exact congrArg Ids.own (step_ids rfl h)

theorem receiveSetup_ids (k : UInt16) (saddr : UInt32) (source : UInt16) (n : Node) :
    (k = 4 ∧ ∃ p : Packet, (receiveSetup .origin k saddr source n).ids = n.ids.give p ∧
      p.IsTo (saddr, htons source) idProto ∧ 2 ≤ p.data.tail.length ∧
      p.givenId = n.ids.counter + 1) ∨
    (k ≠ 4 ∧ (receiveSetup .origin k saddr source n).ids = n.ids) := by
  by_cases hk : k = 4
  · refine Or.inl ⟨hk, ?_⟩
    rw [receiveSetup, if_pos hk]
    exact sendID_ids saddr source n
  · refine Or.inr ⟨hk, ?_⟩
    rw [receiveSetup, if_neg hk]

theorem receiveSetup_childNum (k : UInt16) (saddr : UInt32) (source : UInt16) (n : Node) :
    (receiveSetup .origin k saddr source n).currentChildNum = n.currentChildNum := by
  simp only [receiveSetup]
  split <;> rfl

theorem Ids.Ordered.receiveSetup {k : UInt16} {saddr : UInt32} {source : UInt16} {n : Node}
    (h : n.ids.Ordered)
    (hfirst : k = 4 → n.currentNodeId ≠ 65535 ∧ ¬ n.ids.Admitted (saddr, htons source)) :
    (receiveSetup .origin k saddr source n).ids.Ordered ∧
      ∀ b id, n.ids.Gives b id →
        (P2PStream.receiveSetup .origin k saddr source n).ids.Gives b id := by
  rcases receiveSetup_ids k saddr source n with ⟨hk, p, hids, hto, hbytes, hid⟩ | ⟨-, hids⟩
  · obtain ⟨hwrap, hnew⟩ := hfirst hk
    rw [hids]
    exact ⟨h.give hto hid hbytes hwrap hnew,
      fun b id hb => (Ids.gives_give hto hid b id).mpr (Or.inl hb)⟩
  · rw [hids]
    exact ⟨h, fun _ _ hb => hb⟩

theorem setup_agrees {s : IdNet} {env : Env} {data : Buf} {k : UInt16} {saddr : UInt32}
    {source : UInt16} {n : Node} (hordered : s.origin.ids.Ordered)
    (hguard : OneIdEach s (.setup env data k saddr source))
    (h : NodeStep .origin s.origin (env, .setup data k saddr source) n) :
    n.ids.Ordered ∧ (∀ b id, s.origin.ids.Gives b id → n.ids.Gives b id) ∧
      (AdmitsSetup env s.origin → n.ids.Admitted (saddr, htons source) ∧
        ∃ i, checkChildNum s.origin = some i ∧ ∀ id, n.ids.Gives (saddr, htons source) id →
          (n.nodesStatus (childSlot i)).id = id) := by
  obtain ⟨hfirst, hadmits⟩ := hguard
  obtain ⟨hm, hgives⟩ := hordered.receiveSetup hfirst
  have hadm := admitsSetup_receiveSetup env .origin k saddr source s.origin
  have hnum := receiveSetup_childNum k saddr source s.origin
  have hchildNum := checkChildNum_receiveSetup .origin k saddr source s.origin
  have hsetup : nodeSetup env data saddr source (receiveSetup .origin k saddr source s.origin) =
      .ok n := h
  generalize receiveSetup .origin k saddr source s.origin = m at *
  rcases nodeSetup_ids hsetup (fun h => hnum ▸ (hadmits (hadm.mp h)).1) with
    ⟨hnot, hids⟩ | ⟨hyes, p, hids, hto, hbytes, hrecorded⟩
  · rw [hids]
    exact ⟨hm, hgives, fun h => absurd (hadm.mpr h) hnot⟩
  · have honly := (hadmits (hadm.mp hyes)).2
    have hown : m.myStatus.id = originId := hm.own
    have hlink : (setupLink m data saddr source).id = m.currentNodeId := by
      rw [setupLink, if_pos hown]
    have hadmitted : n.ids = m.ids.join p := hids
    rw [hadmitted]
    refine ⟨hm.join hto (fun id => (honly id).trans (by rw [hrecorded, hlink])) hbytes,
      fun b id hb => (Ids.gives_join hto b id).mpr (hgives b id hb),
      fun _ => ⟨⟨p, List.mem_append_right _ (List.mem_singleton_self p), hto⟩, ?_⟩⟩
    rcases nodeSetup_links hsetup with ⟨hnot, -⟩ | ⟨-, i, hchild, hlinks⟩
    · exact absurd hyes hnot
    · refine ⟨i, hchildNum ▸ hchild, fun id hid => ?_⟩
      have hrecord : (n.links.link (LinkSlot.child i)).id = m.currentNodeId := by
        rw [hlinks, ← hlink]
        exact congrArg Link.id (Function.update_self ..)
      have hslot : (n.nodesStatus (childSlot i)).id = (n.links.link (LinkSlot.child i)).id := by
        rw [← castSucc_eq_childSlot.mpr rfl]
        rfl
      rw [hslot, hrecord]
      exact ((honly id).mp ((Ids.gives_join hto _ id).mp hid)).symm

/-! ## Any run -/

/-- A node that has been told an id holds one that it was given. -/
structure IdNet.Given (s : IdNet) : Prop where
  ordered : s.origin.ids.Ordered
  held : ∀ a, s.told a = true → s.origin.ids.Gives a (s.peer a).myStatus.id

theorem IdNet.Start.given {s : IdNet} (h : s.Start) : s.Given := by
  have hids := h.origin.ids
  have hnone : ∀ p, ¬ p ∈ s.origin.ids.sent := by
    intro p
    rw [hids]
    exact List.not_mem_nil
  refine ⟨⟨by rw [hids], fun a id ⟨p, hp, _⟩ => absurd hp (hnone p),
    fun a b id ⟨p, hp, _⟩ => absurd hp (hnone p), fun a p hp => absurd hp (hnone p),
    fun a p hp => absurd hp (hnone p), fun a p hp => absurd hp (hnone p)⟩, fun a ha => ?_⟩
  rw [h.told a] at ha
  cases ha

theorem IdNet.Given.tell {s : IdNet} (h : s.Given) {a : Addr} {n : Node}
    (hgives : s.origin.ids.Gives a n.myStatus.id) :
    IdNet.Given { s with
      peer := Function.update s.peer a n, told := Function.update s.told a true } := by
  refine ⟨h.ordered, fun b hb => ?_⟩
  show s.origin.ids.Gives b (Function.update s.peer a n b).myStatus.id
  by_cases heq : b = a
  · subst heq
    rw [Function.update_self]
    exact hgives
  · rw [Function.update_of_ne heq]
    have hold : Function.update s.told a true b = true := hb
    rw [Function.update_of_ne heq] at hold
    exact h.held b hold

theorem mem_ids_sent {n : Node} {p : Packet} {a : Addr} {proto : UInt8} (hp : p ∈ n.sent)
    (hto : p.IsTo a proto) (hproto : proto = idProto ∨ proto = initialStatusProto) :
    p ∈ n.ids.sent := by
  refine List.mem_filter.mpr ⟨hp, ?_⟩
  rw [carriesId, Bool.or_eq_true, decide_eq_true_iff, decide_eq_true_iff, hto.2.2]
  exact hproto.imp (congrArg some) (congrArg some)

theorem idStep_given {s t : IdNet} {l : IdEvent} (h : s.Given) (hl : OneIdEach s l)
    (hstep : IdStep s l t) : t.Given ∧ AgreesOnId s l t := by
  cases hstep with
  | origin he hnode =>
      have hids := isApart_origin he hnode
      refine ⟨⟨?_, fun a ha => ?_⟩, trivial⟩
      · exact hids ▸ h.ordered
      · exact hids ▸ h.held a ha
  | @peer a env e n he hnode =>
      refine ⟨⟨h.ordered, fun b hb => ?_⟩, trivial⟩
      show s.origin.ids.Gives b (Function.update s.peer a n b).myStatus.id
      by_cases heq : b = a
      · subst heq
        rw [Function.update_self, isApart_peer he hnode]
        exact h.held b hb
      · rw [Function.update_of_ne heq]
        exact h.held b hb
  | @setup p env data saddr source n hp hto hdata hnode =>
      obtain ⟨hordered, hgives, hadmitted⟩ := setup_agrees h.ordered hl hnode
      refine ⟨⟨hordered, fun a ha => hgives a _ (h.held a ha)⟩, fun htold hadmits => ?_⟩
      obtain ⟨hadm, i, hchild, hslot⟩ := hadmitted hadmits
      have hheld := hgives _ _ (h.held _ htold)
      exact ⟨⟨i, hchild, hslot _ hheld⟩, hadm,
        fun q hq hqto => ((hordered.only _ q hq hqto _).mp hheld).symm⟩
  | @id p a env data n hp hto hdata hnode =>
      have hsent := mem_ids_sent hp hto (Or.inl rfl)
      have hid : n.myStatus.id = p.givenId := by
        cases hnode
        have hbytes := h.ordered.idBytes a p hsent hto
        have hread := readU16_of_holds hdata (i := 0) hbytes
        rw [Buf.drop_zero, Buf.drop_zero] at hread
        exact hread
      exact ⟨h.tell ⟨p, hsent, hto, hid.symm⟩, trivial⟩
  | @initialStatus p a env data n hp hto hdata hnode =>
      have hsent := mem_ids_sent hp hto (Or.inr rfl)
      have hid : n.myStatus.id = p.recordedId := by
        cases hnode
        have hbytes := h.ordered.statusBytes a p hsent hto
        exact (congrArg readU16 (Buf.drop_drop ..)).trans (readU16_of_holds hdata hbytes)
      have honly := h.ordered.only a p hsent hto
      refine ⟨h.tell ((honly _).mpr hid), fun htold => ?_⟩
      show (Function.update s.peer a n a).myStatus.id = _
      rw [Function.update_self, hid]
      exact ((honly _).mp (h.held a htold)).symm

theorem IdNet.Given.differ {s : IdNet} (h : s.Given) : s.Differ where
  apart a b ha hb heq := h.ordered.apart a b _ (h.held a ha) (heq ▸ h.held b hb)
  not_origin a ha heq := by
    have hpos := (h.ordered.counted a _ (h.held a ha)).1
    rw [heq] at hpos
    exact absurd hpos (by decide)

/-- In every run in which the origin gives one id to each node it admits, and none between that
and the admission, the ids agree at every step, and differ. -/
theorem run_ids {s t : IdNet} {ls : List IdEvent} (hstart : s.Start)
    (hrun : Run (Guarded IdStep OneIdEach) s ls t) :
    Run (Safe IdStep AgreesOnId) s ls t ∧ t.Differ := by
  have hkeep : ∀ s l t, IdNet.Given s → OneIdEach s l → IdStep s l t → t.Given ∧ AgreesOnId s l t :=
    fun _ _ _ => idStep_given
  have hgiven := hrun.guarded_invariant (fun s l t h hl hstep => (hkeep s l t h hl hstep).1)
    hstart.given
  exact ⟨hrun.safe_of_guarded hkeep hstart.given, hgiven.differ⟩

/-! ## A node that is admitted -/

/-- Everyone at the start, with the origin at 10.0.0.1. -/
def idStart : IdNet where
  origin := firstOrigin
  peer := fun a => peerStart (Env.clock ⟨0, 0⟩) a.1 0x0100000a a.2 Timeval.zero freshBlocks
  told := fun _ => false

theorem idStart_start : idStart.Start := ⟨.origin .., fun _ => .peer .., fun _ => rfl⟩

/-- The peers at 10.0.0.2 and at 10.0.0.3; 14896 is their port in network order. -/
def addr2 : Addr := (0x0200000a, 12346)
def addr3 : Addr := (0x0300000a, 12346)

/-- The first Setup of the peer at `a`. -/
def setupRequest (a : Addr) : Packet :=
  ⟨a.1, a.2, 0x0100000a, osPort, setupProto :: toBe 4 (htonl a.1).toNat⟩

/-- The Setup of the peer at `a` behind the id. -/
def setupAgain (a : Addr) (id : UInt16) : Packet :=
  ⟨a.1, a.2, 0x0100000a, osPort, setupProto ::
    (toBe 4 (htonl a.1).toNat ++ (toBe 2 id.toNat ++ toBe 4 (htonl a.1).toNat))⟩

/-- The answer to the first. -/
def idAnswer (a : Addr) (id : UInt16) : Packet :=
  ⟨0x0100000a, osPort, a.1, a.2, idProto :: (toBe 2 id.toNat ++ (toBe 4 a.1.toNat).reverse)⟩

/-- The event of a Setup. -/
def setupEvent (p : Packet) : Event :=
  .setup (packetData p.data.tail) (UInt16.ofNat p.data.tail.length) p.saddr 14896

/-- The origin behind a Setup. -/
def Node.afterSetup (now : Timeval) (p : Packet) (n : Node) : Node :=
  Node.after .origin (Env.clock now) (setupEvent p) n

theorem IdStep.ofSetup {s : IdNet} {p : Packet} (now : Timeval)
    (hp : p ∈ (s.peer (p.saddr, htons 14896)).sent)
    (hto : p.IsTo (s.origin.srcIp, s.origin.srcPort) setupProto)
    (hok : (s.origin.step .origin (Env.clock now) (setupEvent p)).isOk = true) :
    IdStep s (.setup (Env.clock now) (packetData p.data.tail) (UInt16.ofNat p.data.tail.length)
      p.saddr 14896) { s with origin := s.origin.afterSetup now p } :=
  .setup hp hto (Buf.overlay_holds _ _) (Node.after_step hok)

/-- The peer at `a` when it has been told its id. -/
def toldPeer (a : Addr) (id : UInt16) : Node :=
  nodeID (packetData (idAnswer a id).data.tail) (idStart.peer a)

/-- The origin with its cache full. -/
def cachedOrigin : Node := timeCache (Env.clock ⟨1, 0⟩) firstOrigin

theorem gives_first {n : Node} (hsent : n.ids.sent = []) (saddr : UInt32) (source : UInt16)
    (id : UInt16) :
    (receiveSetup .origin 4 saddr source n).ids.Gives (saddr, htons source) id ↔
      id = (receiveSetup .origin 4 saddr source n).currentNodeId := by
  rcases receiveSetup_ids 4 saddr source n with ⟨-, p, hids, hto, -, hid⟩ | ⟨hk, -⟩
  · have hcounter : (receiveSetup .origin 4 saddr source n).currentNodeId = n.ids.counter + 1 :=
      congrArg Ids.counter hids
    rw [hids, hcounter, Ids.gives_give hto hid]
    refine ⟨fun h => h.elim (fun ⟨q, hq, _⟩ => ?_) And.right, fun h => Or.inr ⟨rfl, h⟩⟩
    rw [hsent] at hq
    exact absurd hq List.not_mem_nil
  · exact absurd rfl hk

theorem IdStep.guarded {s t : IdNet} {l : IdEvent} (h : IdStep s l t) (hl : OneIdEach s l) :
    Guarded IdStep OneIdEach s l t := ⟨hl, h⟩

/-- A node that is given its id, admitted and told both. -/
theorem run_ids_one : ∃ (t : IdNet) (ls : List IdEvent),
    Run (Guarded IdStep OneIdEach) idStart ls t ∧ t.told addr2 = true ∧
      t.origin.ids.Admitted addr2 ∧ Run (Safe IdStep AgreesOnId) idStart ls t ∧ t.Differ := by
  have hids : cachedOrigin.ids.sent = [] :=
    congrArg Ids.sent (timeCache_ids (Env.clock ⟨1, 0⟩) firstOrigin)
  have hcache : IdStep idStart (.origin (Env.clock ⟨1, 0⟩) .timeCache)
      { idStart with origin := cachedOrigin } := .origin rfl rfl
  have hsetup := IdStep.ofSetup (s := { idStart with origin := cachedOrigin })
    (p := setupRequest addr2) ⟨2, 0⟩ (by decide +kernel) (by decide +kernel) (by decide +kernel)
  have hguard : OneIdEach { idStart with origin := cachedOrigin } (.setup (Env.clock ⟨2, 0⟩)
      (packetData (setupRequest addr2).data.tail) 4 addr2.1 14896) := by
    refine ⟨fun _ => ⟨by decide +kernel, fun ⟨p, hp, _⟩ => ?_⟩,
      fun _ => ⟨by decide +kernel, gives_first hids addr2.1 14896⟩⟩
    have hmem : p ∈ cachedOrigin.ids.sent := hp
    rw [hids] at hmem
    exact absurd hmem List.not_mem_nil
  let joinedOrigin := cachedOrigin.afterSetup ⟨2, 0⟩ (setupRequest addr2)
  have hid := @IdStep.id { idStart with origin := joinedOrigin } (idAnswer addr2 1) addr2
    (Env.clock ⟨3, 0⟩) _ _ (by decide +kernel) (by decide +kernel)
    (Buf.overlay_holds Buf.zero _) rfl
  obtain ⟨p, hp, hto⟩ : joinedOrigin.ids.Admitted addr2 := by
    show ∃ p ∈ joinedOrigin.ids.sent, p.IsTo addr2 initialStatusProto
    decide +kernel
  have hsent : p ∈ joinedOrigin.sent := (List.mem_filter.mp hp).1
  let toldPeers := Function.update idStart.peer addr2 (toldPeer addr2 1)
  have hstatus := @IdStep.initialStatus
    ⟨joinedOrigin, toldPeers, Function.update idStart.told addr2 true⟩ _ _ (Env.clock ⟨4, 0⟩) _ _
    hsent hto (Buf.overlay_holds Buf.zero _) rfl
  have hrun := Run.cons (hcache.guarded trivial) <| .cons (hsetup.guarded hguard) <|
    .cons (hid.guarded trivial) <| .cons (hstatus.guarded trivial) (.nil _)
  have htold : Function.update (Function.update idStart.told addr2 true) addr2 true addr2 = true :=
    Function.update_self ..
  exact ⟨_, _, hrun, htold, ⟨p, hp, hto⟩, run_ids idStart_start hrun⟩

/-! ## Two nodes that wait -/

/-- The origin when it has given id 1 to the one and id 2 to the other, and its cache is full. -/
def waitingOrigin : Node := timeCache (Env.clock ⟨2, 0⟩)
  ((firstOrigin.afterSetup ⟨1, 0⟩ (setupRequest addr2)).afterSetup ⟨1, 0⟩ (setupRequest addr3))

/-- The first of the two asks again. -/
def askingPeer : Node := timeSetup (Env.clock ⟨6, 0⟩) (toldPeer addr2 1)

/-- Both have been told, and the first asks again. -/
def waitingNet : IdNet where
  origin := waitingOrigin
  peer := Function.update (Function.update (Function.update idStart.peer addr3 (toldPeer addr3 2))
    addr2 (toldPeer addr2 1)) addr2 askingPeer
  told := Function.update (Function.update idStart.told addr3 true) addr2 true

theorem exists_run_waiting : ∃ ls, Run IdStep idStart ls waitingNet := by
  let firstPeers := Function.update idStart.peer addr3 (toldPeer addr3 2)
  let firstOrigin' := firstOrigin.afterSetup ⟨1, 0⟩ (setupRequest addr2)
  have h₁ := IdStep.ofSetup (s := idStart) (p := setupRequest addr2) ⟨1, 0⟩
    (by decide +kernel) (by decide +kernel) (by decide +kernel)
  have h₂ := IdStep.ofSetup (s := { idStart with origin := firstOrigin' }) (p := setupRequest addr3)
    ⟨1, 0⟩ (by decide +kernel) (by decide +kernel) (by decide +kernel)
  have h₃ : IdStep { idStart with origin := firstOrigin'.afterSetup ⟨1, 0⟩ (setupRequest addr3) }
      (.origin (Env.clock ⟨2, 0⟩) .timeCache) { idStart with origin := waitingOrigin } :=
    .origin rfl rfl
  have h₄ := @IdStep.id { idStart with origin := waitingOrigin } (idAnswer addr3 2) addr3
    (Env.clock ⟨3, 0⟩) _ _ (by decide +kernel) (by decide +kernel)
    (Buf.overlay_holds Buf.zero _) rfl
  have h₅ := @IdStep.id ⟨waitingOrigin, firstPeers, Function.update idStart.told addr3 true⟩
    (idAnswer addr2 1) addr2 (Env.clock ⟨3, 0⟩) _ _ (by decide +kernel) (by decide +kernel)
    (Buf.overlay_holds Buf.zero _) rfl
  have h₆ : IdStep { waitingNet with peer := Function.update firstPeers addr2 (toldPeer addr2 1) }
      (.peer addr2 (Env.clock ⟨6, 0⟩) .timeSetup) waitingNet := .peer rfl rfl
  exact ⟨_, .cons h₁ <| .cons h₂ <| .cons h₃ <| .cons h₄ <| .cons h₅ <| .cons h₆ (.nil _)⟩

/-- The Setup with id 1 is admitted when 2 is the last id given: the node is recorded under 2, its
status changes its id to 2, and 2 is the other's id. -/
theorem ids_collide : ∃ (ls : List IdEvent) (t u v : IdNet) (l l' : IdEvent),
    Run IdStep idStart ls t ∧ IdStep t l u ∧ ¬ AgreesOnId t l u ∧
      IdStep u l' v ∧ ¬ AgreesOnId u l' v ∧ ¬ v.Differ := by
  obtain ⟨ls, hrun⟩ := exists_run_waiting
  have hsetup := IdStep.ofSetup (s := waitingNet) (p := setupAgain addr2 1) ⟨7, 0⟩
    (by decide +kernel) (by decide +kernel) (by decide +kernel)
  obtain ⟨p, hp, hto, hrecorded⟩ :
      ∃ p ∈ (waitingOrigin.afterSetup ⟨7, 0⟩ (setupAgain addr2 1)).sent,
      p.IsTo addr2 initialStatusProto ∧ p.recordedId = 2 := by
    decide +kernel
  have hstatus := @IdStep.initialStatus
    { waitingNet with origin := waitingOrigin.afterSetup ⟨7, 0⟩ (setupAgain addr2 1) } p addr2
    (Env.clock ⟨8, 0⟩) _ _ hp hto (Buf.overlay_holds Buf.zero _) rfl
  have htold₂ : waitingNet.told addr2 = true := by decide
  have htold₂' : Function.update waitingNet.told addr2 true addr2 = true := Function.update_self ..
  have htold₃ : Function.update waitingNet.told addr2 true addr3 = true := by decide
  have htaken : (Function.update waitingNet.peer addr2 (nodeInitialStatus (Env.clock ⟨8, 0⟩)
      (packetData p.data.tail) (UInt16.ofNat p.data.tail.length) (waitingNet.peer addr2))
      addr2).myStatus.id = 2 := by
    rw [Function.update_self, nodeInitialStatus_id]
    exact hrecorded
  have hheld₂ : (waitingNet.peer addr2).myStatus.id = 1 := by decide +kernel
  have hheld₃ : (Function.update waitingNet.peer addr2 (nodeInitialStatus (Env.clock ⟨8, 0⟩)
      (packetData p.data.tail) (UInt16.ofNat p.data.tail.length) (waitingNet.peer addr2))
      addr3).myStatus.id = 2 := by
    rw [Function.update_of_ne (by decide)]
    decide +kernel
  refine ⟨ls, _, _, _, _, _, hrun, hsetup, fun h => ?_, hstatus, fun h => ?_, fun h => ?_⟩
  · have hadmits : AdmitsSetup (Env.clock ⟨7, 0⟩) waitingOrigin :=
      ⟨by decide +kernel, by decide +kernel, by decide +kernel⟩
    obtain ⟨⟨i, hi, hid⟩, -⟩ := h htold₂ hadmits
    have hchild : checkChildNum waitingOrigin = some 0 := by decide +kernel
    obtain rfl : 0 = i := Option.some.inj (hchild.symm.trans hi)
    revert hid
    decide +kernel
  · have hid := htaken.symm.trans (h htold₂)
    rw [hheld₂] at hid
    exact absurd hid (by decide)
  · have hsame := h.apart addr2 addr3 htold₂' htold₃ (htaken.trans hheld₃.symm)
    exact absurd hsame (by decide)

end P2PStream
