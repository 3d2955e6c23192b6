/-
# `P2PStream.Node.Address` — the address table and the status table

`DST_IP` and `DST_PORT` say where the packets for a slot go, `NODES_STATUS` says
who is in it.  A child's two entries are written together; the parent's are
not.  Advertise changes the address alone, InitialStatus and Accept the record
alone, and nothing compares them: after Accept, which is how a node changes its
parent, the address is still the old parent's.
-/
import P2PStream.Node.Links

namespace P2PStream

open Lib

/-! ## The tables -/

/-- The address that a record names, as the address table would hold it. -/
def Link.addressed (k : Link) : UInt32 × UInt16 := (htonl k.ipaddr, k.port)

namespace Links

/-- The two tables agree at a slot. -/
def AgreeAt (l : Links) (s : LinkSlot) : Prop := l.address s = (l.link s).addressed

/-- The two tables agree at every connected slot. -/
def Agree (l : Links) : Prop := ∀ s, l.isConnected s → l.AgreeAt s

/-- What a run keeps: a child's entries agree even when its slot is free. -/
structure Addressed (l : Links) : Prop where
  child : ∀ i, l.AgreeAt (LinkSlot.child i)
  parent : l.isConnected LinkSlot.parent → l.AgreeAt LinkSlot.parent

theorem Addressed.agree {l : Links} (h : l.Addressed) : l.Agree := by
  intro s hs
  match s with
  | 0 => exact h.child 0
  | 1 => exact h.child 1
  | 2 => exact h.parent hs

/-- The subtractions of a Depart borrow from the parent's bit. -/
def BorrowsParent (l : Links) (id : UInt16) : Prop :=
  l.connected.toNat % 4 <
    (decide ((l.link 0).id = id)).toNat + 2 * (decide ((l.link 1).id = id)).toNat

instance (l : Links) (id : UInt16) : Decidable (l.BorrowsParent id) :=
  inferInstanceAs (Decidable (_ < _))

theorem isConnected_depart_parent (l : Links) (id : UInt16) :
    (l.depart id).isConnected LinkSlot.parent
      = (l.isConnected LinkSlot.parent ^^ decide (l.BorrowsParent id)) := by
  have hbits : ∀ (x : BitVec 8) (b₀ b₁ : Bool),
      (x - (if b₀ then BitVec.twoPow 8 0 else 0)
        - (if b₁ then BitVec.twoPow 8 1 else 0)).getLsbD 2
        = (x.getLsbD 2 ^^ decide (x.toNat % 4 < b₀.toNat + 2 * b₁.toNat)) := by
    decide +kernel
  have hslots := hbits l.connected ((l.link 0).id = id) ((l.link 1).id = id)
  refine Eq.trans ?_ hslots
  simp only [decide_eq_true_eq, isConnected, depart]
  by_cases h₀ : (l.link 0).id = id <;> by_cases h₁ : (l.link 1).id = id <;>
    simp [h₀, h₁, drop, LinkSlot.parent]

theorem isConnected_admitNode_parent {l : Links} {i : Fin maxChildNum} (k : Link)
    (a : UInt32 × UInt16) (hi : l.isConnected (LinkSlot.child i) = false) :
    (l.admitNode i k a).isConnected LinkSlot.parent = l.isConnected LinkSlot.parent := by
  rw [isConnected_admitNode k a hi, decide_eq_false (child_ne_parent i), Bool.or_false]

theorem agreeAt_admit_self {l : Links} {i : Fin maxChildNum} {k : Link} {a : UInt32 × UInt16} :
    (l.admitNode i k a).AgreeAt (LinkSlot.child i) ↔ a = k.addressed := by
  simp [AgreeAt, Links.admitNode]

theorem agreeAt_admit_of_ne {l : Links} {i : Fin maxChildNum} {k : Link} {a : UInt32 × UInt16}
    {s : LinkSlot} (hs : s ≠ LinkSlot.child i) : (l.admitNode i k a).AgreeAt s ↔ l.AgreeAt s := by
  simp [AgreeAt, Links.admitNode, Function.update_of_ne hs]

theorem Addressed.admitNode {l : Links} (h : l.Addressed) {i : Fin maxChildNum} {k : Link}
    {a : UInt32 × UInt16} (hi : l.isConnected (LinkSlot.child i) = false) (ha : a = k.addressed) :
    (l.admitNode i k a).Addressed := by
  refine ⟨fun j => ?_, fun hp => ?_⟩
  · by_cases hj : j = i
    · subst hj
      exact agreeAt_admit_self.mpr ha
    · have hne : LinkSlot.child j ≠ LinkSlot.child i := fun heq => hj (LinkSlot.child_inj.mp heq)
      exact (agreeAt_admit_of_ne hne).mpr (h.child j)
  · rw [isConnected_admitNode_parent k a hi] at hp
    exact (agreeAt_admit_of_ne (child_ne_parent i).symm).mpr (h.parent hp)

theorem addressed_of_admitNode {l : Links} {i : Fin maxChildNum} {k : Link} {a : UInt32 × UInt16}
    (hi : l.isConnected (LinkSlot.child i) = false) (h : (l.admitNode i k a).Agree) :
    a = k.addressed := by
  refine agreeAt_admit_self.mp (h (LinkSlot.child i) ?_)
  rw [isConnected_admitNode k a hi, decide_eq_true rfl, Bool.or_true]

/-- Where the children's entries stay as they are, only the parent's matter. -/
theorem Addressed.of_parent {l m : Links} (h : l.Addressed) {guard : Prop}
    (hlink : ∀ i, m.link (LinkSlot.child i) = l.link (LinkSlot.child i))
    (haddress : ∀ i, m.address (LinkSlot.child i) = l.address (LinkSlot.child i))
    (hguard : guard ↔ (m.isConnected LinkSlot.parent → m.AgreeAt LinkSlot.parent)) :
    (guard → m.Addressed) ∧ (m.Agree → guard) := by
  refine ⟨fun hg => ⟨fun i => ?_, hguard.mp hg⟩, fun hagree => hguard.mpr (hagree _)⟩
  rw [AgreeAt, hlink, haddress]
  exact h.child i

theorem record_child (l : Links) (k : Link) (i : Fin maxChildNum) :
    (l.record k).link (LinkSlot.child i) = l.link (LinkSlot.child i) :=
  Function.update_of_ne (child_ne_parent i) _ _

theorem redirect_child (l : Links) (a : UInt32 × UInt16) (i : Fin maxChildNum) :
    (l.redirect a).address (LinkSlot.child i) = l.address (LinkSlot.child i) :=
  Function.update_of_ne (child_ne_parent i) _ _

theorem agreeAt_record {l : Links} {k : Link} :
    (l.record k).AgreeAt LinkSlot.parent ↔ l.address LinkSlot.parent = k.addressed := by
  simp [AgreeAt, Links.record]

theorem agreeAt_redirect {l : Links} {a : UInt32 × UInt16} :
    (l.redirect a).AgreeAt LinkSlot.parent ↔ a = (l.link LinkSlot.parent).addressed := by
  simp [AgreeAt, Links.redirect]

theorem agreeAt_join {l : Links} {s : LinkSlot} : l.join.AgreeAt s ↔ l.AgreeAt s := Iff.rfl

theorem agreeAt_leave {l : Links} {s : LinkSlot} : l.leave.AgreeAt s ↔ l.AgreeAt s := Iff.rfl

theorem agreeAt_depart {l : Links} {id : UInt16} {s : LinkSlot} :
    (l.depart id).AgreeAt s ↔ l.AgreeAt s := by
  rw [AgreeAt, depart_link, depart_address, AgreeAt]

end Links

/-! ## The parent's bit -/

/-- The parent's bit after an event. -/
def parentBitAfter (program : Program) (env : Env) (n : Node) : Event → Bool
  | .initialStatus .. | .detach _ => !n.isConnected parentId
  | .accept _ => n.isConnected parentId || decide (program = .peer)
  | .depart data => n.isConnected parentId ^^ decide (n.links.BorrowsParent (readLink data).id)
  | .timeout s => n.isConnected parentId && !(isTimedOut env s n && decide (s = parentId))
  | _ => n.isConnected parentId

theorem step_parentBit {program : Program} {env : Env} {n n' : Node} {e : Event}
    (h : n.step program env e = .ok n') :
    n'.isConnected parentId = parentBitAfter program env n e := by
  have hafter : LinksAfter program env n n'.links e := step_links h
  show n'.links.isConnected LinkSlot.parent = _
  cases e with
  | setup | connect =>
      rcases hafter with ⟨-, hsame⟩ | ⟨-, i, hi, hadm⟩
      · rw [hsame]
        rfl
      · rw [hadm, Links.isConnected_admitNode_parent _ _ (checkChildNum_clear hi)]
        rfl
  | initialStatus data k =>
      have hjoin : n'.links = (n.links.record _).join := hafter
      rw [hjoin, Links.isConnected_join_parent]
      rfl
  | detach data =>
      obtain ⟨id, hleave⟩ := hafter
      rw [hleave, Links.isConnected_leave_parent]
      rfl
  | depart data =>
      have hdepart : n'.links = n.links.depart (readLink data).id := hafter
      rw [hdepart, Links.isConnected_depart_parent]
      rfl
  | advertise data k =>
      have hredirect : n'.links = n.links.redirect _ := hafter
      rw [hredirect]
      rfl
  | accept data =>
      cases program with
      | origin =>
          have hsame : n'.links = n.links := hafter
          rw [hsame]
          exact (Bool.or_false _).symm
      | peer =>
          have haccept : n'.links = if n.isConnected parentId then n.links.record (readLink data)
            else (n.links.record (readLink data)).join := hafter
          rw [haccept]
          refine Eq.trans ?_ (Bool.or_true _).symm
          split
          · next hset => exact hset
          · next hclear =>
            rw [Links.isConnected_join_parent, Bool.not_eq_true']
            exact Bool.eq_false_iff.mpr hclear
  | timeout s =>
      have hdrop : n'.links = if isTimedOut env s n then n.links.drop s else n.links := hafter
      rw [hdrop]
      show _ = (n.isConnected parentId && !(isTimedOut env s n && decide (s = parentId)))
      by_cases ht : isTimedOut env s n = true
      · have hval : s.val = LinkSlot.parent.val ↔ s = parentId :=
          ⟨fun h => Fin.ext h, fun h => congrArg Fin.val h⟩
        rw [if_pos ht, ht, Links.isConnected_drop (isConnected_of_isTimedOut ht), Bool.true_and,
          decide_not, decide_eq_decide.mpr hval]
        rfl
      · rw [if_neg ht, Bool.eq_false_iff.mpr ht, Bool.false_and, Bool.not_false, Bool.and_true]
        rfl
  | _ =>
      have hsame : n'.links = n.links := hafter
      rw [hsame]
      rfl

/-! ## The guard -/

/-- The events that write one of the parent's entries, or link it, find the other in
agreement, and a Setup names the address it came from. -/
def AddressGuard (program : Program) (n : Node) (l : Env × Event) : Prop :=
  match l.2 with
  | .setup data k saddr source => AdmitsSetup l.1 n →
      (saddr, htons source)
        = (setupLink (receiveSetup program k saddr source n) data saddr source).addressed
  | .initialStatus data _ => n.isConnected parentId = false →
      n.links.address LinkSlot.parent = (readLink (data.drop (nodeStatusBytes + 8))).addressed
  | .advertise data _ => n.isConnected parentId = true →
      (htonl (gtoPIP (copyBytesToNodeStatus NodeStatus.zero data) n), (readLink data).port)
        = (n.links.link LinkSlot.parent).addressed
  | .accept data => program = .peer →
      n.links.address LinkSlot.parent = (readLink data).addressed
  | .detach _ => n.isConnected parentId = false → n.links.AgreeAt LinkSlot.parent
  | .depart data => n.isConnected parentId = false → n.links.BorrowsParent (readLink data).id →
      n.links.AgreeAt LinkSlot.parent
  | _ => True

/-- From tables in agreement: a step under the guard keeps them so, and one that keeps them so
is under the guard. -/
theorem addressed_step {program : Program} {n n' : Node} {l : Env × Event}
    (h : n.links.Addressed) (hstep : NodeStep program n l n') :
    (AddressGuard program n l → n'.links.Addressed) ∧
      (n'.links.Agree → AddressGuard program n l) := by
  obtain ⟨env, e⟩ := l
  have hafter : LinksAfter program env n n'.links e := step_links hstep
  cases e with
  | setup data k saddr source =>
      rcases hafter with ⟨hno, hsame⟩ | ⟨hyes, i, hi, hadm⟩
      · rw [hsame]
        exact ⟨fun _ => h, fun _ hyes => absurd hyes hno⟩
      · rw [hadm]
        exact ⟨fun hguard => h.admitNode (checkChildNum_clear hi) (hguard hyes),
          fun hagree _ => Links.addressed_of_admitNode (checkChildNum_clear hi) hagree⟩
  | connect data =>
      rcases hafter with ⟨-, hsame⟩ | ⟨-, i, hi, hadm⟩
      · rw [hsame]
        exact ⟨fun _ => h, fun _ => trivial⟩
      · rw [hadm]
        exact ⟨fun _ => h.admitNode (checkChildNum_clear hi) rfl, fun _ => trivial⟩
  | initialStatus data k =>
      have hjoin : n'.links = (n.links.record _).join := hafter
      rw [hjoin]
      refine h.of_parent (Links.record_child _ _) (fun _ => rfl) ?_
      rw [Links.isConnected_join_parent, Bool.not_eq_true']
      refine forall_congr' fun _ => ?_
      rw [Links.agreeAt_join, Links.agreeAt_record]
  | advertise data k =>
      have hredirect : n'.links = n.links.redirect _ := hafter
      rw [hredirect]
      refine h.of_parent (fun _ => rfl) (Links.redirect_child _ _) ?_
      refine forall_congr' fun _ => ?_
      rw [Links.agreeAt_redirect]
  | depart data =>
      have hdepart : n'.links = n.links.depart (readLink data).id := hafter
      rw [hdepart]
      refine h.of_parent (fun _ => by rw [Links.depart_link])
        (fun _ => by rw [Links.depart_address]) ?_
      rw [Links.isConnected_depart_parent, Links.agreeAt_depart]
      cases hparent : n.links.isConnected LinkSlot.parent with
      | true => exact iff_of_true (fun _ _ => h.parent hparent) fun _ => h.parent hparent
      | false =>
          rw [Bool.false_xor, decide_eq_true_eq]
          exact ⟨fun hguard => hguard hparent, fun hborrows _ => hborrows⟩
  | detach data =>
      obtain ⟨id, hleave⟩ := hafter
      rw [hleave]
      refine h.of_parent (Links.record_child _ _) (fun _ => rfl) ?_
      rw [Links.isConnected_leave_parent, Bool.not_eq_true']
      refine forall_congr' fun _ => ?_
      rw [Links.agreeAt_leave, Links.agreeAt_record]
      rfl
  | accept data =>
      cases program with
      | origin =>
          have hsame : n'.links = n.links := hafter
          rw [hsame]
          exact ⟨fun _ => h, fun _ hpeer => nomatch hpeer⟩
      | peer =>
          have haccept : n'.links = if n.isConnected parentId then n.links.record (readLink data)
            else (n.links.record (readLink data)).join := hafter
          have hlinked : n'.links.isConnected LinkSlot.parent = true :=
            (step_parentBit hstep).trans (Bool.or_true _)
          have hagree : n'.links.AgreeAt LinkSlot.parent ↔
              n.links.address LinkSlot.parent = (readLink data).addressed := by
            rw [haccept]
            split <;> exact Links.agreeAt_record
          refine h.of_parent (fun i => ?_) (fun i => ?_) ?_
          · rw [haccept]
            split <;> exact Links.record_child _ _ i
          · rw [haccept]
            split <;> rfl
          · rw [hagree]
            exact ⟨fun hguard _ => hguard rfl, fun hguard _ => hguard hlinked⟩
  | timeout s =>
      have hdrop : n'.links = if isTimedOut env s n then n.links.drop s else n.links := hafter
      rw [hdrop]
      refine ⟨fun _ => ?_, fun _ => trivial⟩
      split
      · next ht =>
        refine ⟨h.child, fun hparent => h.parent ?_⟩
        rw [Links.isConnected_drop (isConnected_of_isTimedOut ht)] at hparent
        exact (Bool.and_eq_true_iff.mp hparent).1
      · exact h
  | _ =>
      have hsame : n'.links = n.links := hafter
      rw [hsame]
      exact ⟨fun _ => h, fun _ => trivial⟩

/-! ## Where packets go -/

/-- The packet goes to the address in the record. -/
def Packet.Reaches (p : Packet) (s : NodeStatus) : Prop :=
  p.daddr = htonl s.ipaddr ∧ p.dest = s.port

/-- The events that send to linked nodes: KeepAlive, KeepAliveRes, ReqList, ResList, Depart and
Block. -/
def sendsToLinks : Event → Bool
  | .timeKeepAlive | .keepAlive _ | .timeList | .reqList _ | .timeDepart | .mulStream => true
  | _ => false

/-- The packets sent between two states all meet `Ok`. -/
def Sends (Ok : Packet → Prop) (n n' : Node) : Prop :=
  ∃ new, n'.sent = n.sent ++ new ∧ ∀ p ∈ new, Ok p

/-- A packet to a connected slot, or, through `TMP_ID`, to a node of the list. -/
def ToLinks (n : Node) (p : Packet) : Prop :=
  (∃ s data, n.isConnected s ∧ p = packetGenerate data s n) ∨
    ∃ st ∈ n.nodesList, p.daddr = htonl (gtoPIP st n) ∧ p.dest = st.port

theorem Sends.none {Ok : Packet → Prop} {n n' : Node} (h : n'.sent = n.sent) : Sends Ok n n' :=
  ⟨[], by rw [h, List.append_nil], fun _ hp => nomatch hp⟩

theorem Sends.one {Ok : Packet → Prop} {n n' : Node} {p : Packet} (h : n'.sent = n.sent ++ [p])
    (hp : Ok p) : Sends Ok n n' :=
  ⟨[p], h, fun q hq => by rwa [List.mem_singleton.mp hq]⟩

theorem Sends.trans {Ok : Packet → Prop} {n₁ n₂ n₃ : Node} (h : Sends Ok n₁ n₂)
    (h' : Sends Ok n₂ n₃) : Sends Ok n₁ n₃ := by
  obtain ⟨new, hnew, hok⟩ := h
  obtain ⟨new', hnew', hok'⟩ := h'
  refine ⟨new ++ new', by rw [hnew', hnew, List.append_assoc], fun p hp => ?_⟩
  rcases List.mem_append.mp hp with hp | hp
  · exact hok p hp
  · exact hok' p hp

theorem Sends.foldl {α : Type _} {Ok : Packet → Prop} (Inv : Node → Prop) {f : Node → α → Node}
    {as : List α} (hf : ∀ a ∈ as, ∀ n, Inv n → Sends Ok n (f n a) ∧ Inv (f n a)) {n : Node}
    (hn : Inv n) : Sends Ok n (as.foldl f n) := by
  induction as generalizing n with
  | nil => exact .none rfl
  | cons a as ih =>
      obtain ⟨hsends, hinv⟩ := hf a List.mem_cons_self n hn
      exact hsends.trans (ih (fun b hb => hf b (List.mem_cons_of_mem a hb)) hinv)

/-- What a packet to a slot is made from, and which slots are taken. -/
structure SameRoutes (n n' : Node) : Prop where
  srcIp : n'.srcIp = n.srcIp
  srcPort : n'.srcPort = n.srcPort
  dstIp : n'.dstIp = n.dstIp
  dstPort : n'.dstPort = n.dstPort
  connected : n'.connectedNodes = n.connectedNodes

theorem SameRoutes.packetGenerate_eq {n n' : Node} (h : SameRoutes n n') (data : List UInt8)
    (s : Slot) : packetGenerate data s n' = packetGenerate data s n := by
  rw [packetGenerate, h.srcIp, h.srcPort, h.dstIp, h.dstPort, packetGenerate]

theorem SameRoutes.trans {n₁ n₂ n₃ : Node} (h : SameRoutes n₁ n₂) (h' : SameRoutes n₂ n₃) :
    SameRoutes n₁ n₃ :=
  ⟨h'.srcIp.trans h.srcIp, h'.srcPort.trans h.srcPort, h'.dstIp.trans h.dstIp,
    h'.dstPort.trans h.dstPort, h'.connected.trans h.connected⟩

theorem SameRoutes.toLinks {n n' : Node} (h : SameRoutes n n') {data : List UInt8} {s : Slot}
    (hs : n.isConnected s = true) : ToLinks n (packetGenerate data s n') :=
  .inl ⟨s, data, hs, h.packetGenerate_eq data s⟩

theorem requester_connected {id : UInt16} {n : Node} {s : Slot} (h : requester id n = some s) :
    n.isConnected s = true := by
  unfold requester at h
  have hfound := List.find?_some h
  exact (Bool.and_eq_true_iff.mp hfound).1

theorem timeKeepAlive_sends (env : Env) (n : Node) : Sends (ToLinks n) n (timeKeepAlive env n) := by
  unfold timeKeepAlive
  split
  · let start := { n with timestamp := n.stamp env }
    have hstart : SameRoutes n start := ⟨rfl, rfl, rfl, rfl, rfl⟩
    refine (Sends.none rfl : Sends _ n start).trans
      (Sends.foldl (SameRoutes n) (fun s hs m hm => ⟨?_, ?_⟩) hstart)
    · exact .one rfl (hm.toLinks (List.mem_filter.mp hs).2)
    · exact hm.trans ⟨rfl, rfl, rfl, rfl, rfl⟩
  · exact .none rfl

theorem timeList_sends (env : Env) (n : Node) : Sends (ToLinks n) n (timeList env n) := by
  unfold timeList
  split
  · next hdue =>
    have hparent : n.isConnected parentId = true := (Bool.and_eq_true_iff.mp hdue).2
    have hfirst : Sends (ToLinks n) n
        (sendReqList parentId { n with listupdateTimestamp := n.stamp env }) :=
      .one rfl (.inl ⟨parentId, _, hparent, rfl⟩)
    refine hfirst.trans ?_
    refine Sends.foldl (fun m => m.myStatus = n.myStatus) (fun st hst m hm => ⟨?_, ?_⟩) rfl
    · refine .one rfl (.inr ⟨st, hst, ?_, ?_⟩)
      · show Function.update m.dstIp tmpId (htonl (gtoPIP st m)) tmpId = _
        rw [Function.update_self, gtoPIP, hm, gtoPIP]
      · show Function.update m.dstPort tmpId st.port tmpId = _
        rw [Function.update_self]
    · exact hm
  · exact .none rfl

theorem timeDepart_sends (env : Env) (n : Node) : Sends (ToLinks n) n (timeDepart env n) := by
  simp only [timeDepart]
  split
  · split
    · next hparent => exact .one rfl (.inl ⟨parentId, _, hparent, rfl⟩)
    · exact .none rfl
  · exact .none rfl

theorem nodeKeepAlive_sends (data : Buf) (n : Node) :
    Sends (ToLinks n) n (nodeKeepAlive data n) := by
  unfold nodeKeepAlive
  split
  · exact .none rfl
  · next s hs => exact .one rfl (.inl ⟨s, _, requester_connected hs, rfl⟩)

theorem nodeReqList_sends (data : Buf) (n : Node) : Sends (ToLinks n) n (nodeReqList data n) := by
  unfold nodeReqList
  split
  · exact .none rfl
  · next s hs => exact .one rfl (.inl ⟨s, _, requester_connected hs, rfl⟩)

theorem Distributes.sends {n n' : Node} (h : Distributes n n') : Sends (ToLinks n) n n' := by
  obtain ⟨_, _, _, ps, rfl, hps⟩ := h
  refine ⟨ps, rfl, fun p hp => ?_⟩
  obtain ⟨i, data, hconnected, rfl, -⟩ := hps p hp
  exact .inl ⟨childSlot i, data, hconnected, rfl⟩

/-- An event that sends to linked nodes sends to connected slots and to listed nodes only. -/
theorem sends_of_step {program : Program} {env : Env} {n n' : Node} {e : Event}
    (h : n.step program env e = .ok n') (he : sendsToLinks e = true) : Sends (ToLinks n) n n' := by
  cases e with
  | timeKeepAlive => cases h; exact timeKeepAlive_sends env n
  | timeList => cases h; exact timeList_sends env n
  | timeDepart => cases h; exact timeDepart_sends env n
  | keepAlive data => cases h; exact nodeKeepAlive_sends data n
  | reqList data => cases h; exact nodeReqList_sends data n
  | mulStream => exact (step_mulStream_distributes h).sends
  | _ => cases he

/-! ## Over runs -/

/-- The address of every connected slot is that of the node recorded in it. -/
def AddressesAgree (n : Node) : Prop :=
  ∀ s, s ≠ tmpId → n.isConnected s → n.dstIp s = htonl (n.nodesStatus s).ipaddr ∧
    n.dstPort s = (n.nodesStatus s).port

/-- A packet to a connected slot, which reaches the node recorded there, or to a listed node. -/
def ReachesLinks (n : Node) (p : Packet) : Prop :=
  (∃ s data, n.isConnected s ∧ p = packetGenerate data s n ∧
    (s ≠ tmpId → p.Reaches (n.nodesStatus s))) ∨
    ∃ st ∈ n.nodesList, p.daddr = htonl (gtoPIP st n) ∧ p.dest = st.port

theorem agree_iff_addressesAgree (n : Node) : n.links.Agree ↔ AddressesAgree n := by
  constructor
  · intro h s hs hconnected
    have hlt : s.val < 3 := by
      have := s.isLt
      exact Nat.lt_of_le_of_ne (by omega) fun heq => hs (Fin.ext heq)
    exact Prod.mk.injEq .. |>.mp (h ⟨s.val, hlt⟩ hconnected)
  · intro h s hconnected
    obtain ⟨hip, hport⟩ := h s.castSucc (castSucc_ne_scratch s).1 hconnected
    exact Prod.ext hip hport

theorem AddressesAgree.reachesLinks {n : Node} (h : AddressesAgree n) {p : Packet}
    (hp : ToLinks n p) : ReachesLinks n p := by
  rcases hp with ⟨s, data, hs, rfl⟩ | hlisted
  · exact .inl ⟨s, data, hs, rfl, fun hne => h s hne hs⟩
  · exact .inr hlisted

theorem Started.addressed {program : Program} {n : Node} (h : Started program n) :
    n.links.Addressed :=
  ⟨fun _ => h.links.2.2 _, fun _ => h.links.2.2 _⟩

/-- A run keeps the two tables in agreement, and sends every packet for a link to the node
recorded in its slot, exactly when each of its steps meets the guard. -/
theorem addresses_iff_guarded {program : Program} {n n' : Node} {ls : List (Env × Event)}
    (hstart : Started program n) :
    Run (Guarded (NodeStep program) (AddressGuard program)) n ls n' ↔
      Run (Safe (NodeStep program) fun m l m' => AddressesAgree m' ∧
        (sendsToLinks l.2 = true → Sends (ReachesLinks m) m m')) n ls n' := by
  refine Run.guarded_iff_safe (fun m => m.links.Addressed) ?_ ?_ hstart.addressed
  · intro s l t hs hguard hstep
    have haddressed := (addressed_step hs hstep).1 hguard
    refine ⟨haddressed, (agree_iff_addressesAgree t).mp haddressed.agree, fun hsends => ?_⟩
    obtain ⟨new, hnew, hlinks⟩ := sends_of_step hstep hsends
    have hagree := (agree_iff_addressesAgree s).mp hs.agree
    exact ⟨new, hnew, fun p hp => hagree.reachesLinks (hlinks p hp)⟩
  · intro s l t hs hstep hgood
    exact (addressed_step hs hstep).2 ((agree_iff_addressesAgree t).mpr hgood.1)

/-- The peer's InitialStatus, from the origin, with node 7 in the list. -/
def joinOrigin : Env × Event :=
  (Env.clock ⟨1, 0⟩, .initialStatus
    (initialStatusData [statusOf 1 2 12346 1, statusOf 0 1 12345 0, statusOf 7 7 12347 1]) 98)

theorem addresses_iff_guarded_joinOrigin : ∃ n, Run (Safe (NodeStep .peer) fun m l m' =>
    AddressesAgree m' ∧ (sendsToLinks l.2 = true → Sends (ReachesLinks m) m m'))
    firstPeer [joinOrigin, (Env.clock ⟨6, 0⟩, .timeKeepAlive)] n := by
  refine ⟨_, (addresses_iff_guarded (.peer _ _ _ _ _ _)).mp
    (.cons ⟨fun _ => ?_, rfl⟩ (.cons ⟨trivial, rfl⟩ (.nil _)))⟩
  decide +kernel

/-- The peer leaves the origin and is accepted by node 7: its packets for the parent still go
to the origin. -/
theorem accept_after_detach : ∃ n, Started .peer firstPeer ∧ Run (NodeStep .peer) firstPeer
    [joinOrigin, (Env.clock ⟨2, 0⟩, .detach (packetData [0, 3])),
      (Env.clock ⟨3, 0⟩, .accept (packetData (copyNodeStatusToBytes (statusOf 7 7 12347 1))))] n ∧
    (n.nodesStatus parentId).id = 7 ∧ n.dstIp parentId = 0x0100000a ∧ ¬ AddressesAgree n := by
  refine ⟨_, .peer _ _ _ _ _ _, Node.exec_eq_ok_iff.mp rfl, ?_⟩
  unfold AddressesAgree
  decide +kernel

end P2PStream
