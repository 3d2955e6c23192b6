/-
# `P2PStream.Overlay.Served` — what the origin sends to one address

A peer asks the origin for a place and is admitted.  From there on it is sent its
InitialStatus, the WebM header and then the blocks of the file, from the last completed
cluster on, each once and in order.  Between them lie packets that are no part of the
stream: keep-alives, their answers and lists.

This is a statement about the packets to one address, whatever the origin does for its
other child and for whoever else asks it: `serve_step` says what a step adds to them, and
`admission` what they start with.
-/
import P2PStream.Node.Admission
import P2PStream.Node.Join
import P2PStream.Origin.Sent
import P2PStream.Overlay.Frames
import P2PStream.Peer.Run

namespace P2PStream

open Lib

/-! ## Packets beside the stream -/

/-- The events that write nothing to the file of a peer and leave it its parent. -/
def leavesFile : Event → Bool
  | .accept _ => false
  | e => isAside e

/-- Neither a block, nor an InitialStatus, nor an Accept. -/
def IsBesideProto (protocol : UInt8) : Prop :=
  protocol ≠ blockProto ∧ protocol ≠ initialStatusProto ∧ protocol ≠ acceptProto

instance (protocol : UInt8) : Decidable (IsBesideProto protocol) :=
  inferInstanceAs (Decidable (_ ∧ _ ∧ _))

/-- The packet is no part of the stream. -/
def Packet.Beside (p : Packet) : Prop :=
  ∀ protocol, p.data.head? = some protocol → IsBesideProto protocol

theorem handler_beside {protocol : UInt8} {data : Buf} {k : UInt16} {saddr : UInt32}
    {source : UInt16} {e : Event} (h : IsBesideProto protocol)
    (he : handler protocol data k saddr source = some e) : leavesFile e = true := by
  obtain ⟨hblock, hinitial, haccept⟩ := h
  simp only [handler, if_neg hblock, if_neg hinitial, if_neg haccept] at he
  repeat' split at he
  all_goals cases he
  all_goals rfl

theorem Packet.Beside.event {p : Packet} (h : p.Beside) {rest : Buf} {e : Event}
    (he : p.event rest = some e) : leavesFile e = true := by
  obtain ⟨protocol, hhead, he⟩ := Option.bind_eq_some_iff.mp he
  exact handler_beside (h protocol hhead) he

theorem sendData_beside {c : UInt8} (hc : IsBesideProto c) (l : List UInt8) (k : Int) (s : Slot)
    (n : Node) : Sends Packet.Beside n (sendData (c :: l) k s n) :=
  .one rfl fun _ hhead => head?_take_cons hhead ▸ hc

/-! ## Packets of the stream -/

/-- The record of a block that the packet carries: a WebM header has none. -/
def Packet.record (p : Packet) : Option BlockInfo :=
  if p.data.head? = some blockProto ∧ p.data.tail.take blockinfoBytes ≠ blockinfoStart then
    some (copyBytesToBlockInfo (packetData p.data.tail))
  else none

/-- The packets carry these blocks in this order, and nothing else of the stream. -/
inductive Carries (f : StreamFile) : List Packet → List BlockInfo → Prop
  | nil : Carries f [] []
  | block {p : Packet} {ps : List Packet} {info : BlockInfo} {infos : List BlockInfo} {q : Place} :
      NextBlock f q info → p.data = f.blockData info → Carries f ps infos →
      Carries f (p :: ps) (info :: infos)
  | beside {p : Packet} {ps : List Packet} {infos : List BlockInfo} :
      p.Beside → Carries f ps infos → Carries f (p :: ps) infos

/-- The InitialStatus that gives the cluster number `first`. -/
def Packet.IsInitial (first : UInt16) (p : Packet) : Prop :=
  ∃ offset info rest,
    p.data = initialStatusProto :: (offset ++ (copyBlockInfoToBytes info ++ rest)) ∧
      offset.length = 8 ∧ info.clusterSeq = first

/-- `SendWebMHeader` copies no more than its array holds. -/
def StreamFile.HeaderFits (f : StreamFile) : Prop :=
  f.header.length + blockinfoBytes + dataHdrBytes ≤ maxDataBytes

/-- The packet with the WebM header. -/
def Packet.IsHeader (header : List UInt8) (p : Packet) : Prop :=
  p.data = blockProto :: (blockinfoStart ++ header)

section Packets

variable {f : StreamFile} {p : Packet} {ps ps' : List Packet} {infos infos' : List BlockInfo}

theorem Packet.Beside.record (h : p.Beside) : p.record = none := by
  rw [Packet.record, if_neg]
  exact fun hblock => (h _ hblock.1).1 rfl

theorem record_of_blockData {info : BlockInfo} {q : Place} (h : NextBlock f q info)
    (hdata : p.data = f.blockData info) : p.record = some info := by
  have htail : p.data.tail = copyBlockInfoToBytes info ++ f.cutBytes info := by
    rw [hdata]
    rfl
  have hholds : (packetData p.data.tail).Holds (copyBlockInfoToBytes info) := by
    rw [htail]
    exact (Buf.holds_append.mp (Buf.overlay_holds _ _)).1
  have hstart : p.data.tail.take blockinfoBytes ≠ blockinfoStart := by
    intro hzero
    rw [htail, List.take_left' (length_copyBlockInfoToBytes info)] at hzero
    have hinfo : copyBytesToBlockInfo (packetData blockinfoStart) = info :=
      copyBytesToBlockInfo_of_holds (hzero ▸ Buf.overlay_holds _ _)
    have hseq := h.seq
    have hnone : (copyBytesToBlockInfo (packetData blockinfoStart)).seq.toNat = 0 := by decide
    rw [hinfo] at hnone
    omega
  rw [Packet.record, if_pos ⟨by rw [hdata]; rfl, hstart⟩, copyBytesToBlockInfo_of_holds hholds]

theorem Carries.records (h : Carries f ps infos) : ps.filterMap Packet.record = infos := by
  induction h with
  | nil => rfl
  | block hnext hdata _ ih => rw [List.filterMap_cons_some (record_of_blockData hnext hdata), ih]
  | beside hbeside _ ih => rw [List.filterMap_cons_none hbeside.record, ih]

theorem Carries.append (h : Carries f ps infos) (h' : Carries f ps' infos') :
    Carries f (ps ++ ps') (infos ++ infos') := by
  induction h with
  | nil => exact h'
  | block hnext hdata _ ih => exact .block hnext hdata ih
  | beside hbeside _ ih => exact .beside hbeside ih

theorem carries_of_beside (h : ∀ p ∈ ps, p.Beside) : Carries f ps [] := by
  induction ps with
  | nil => exact .nil
  | cons p ps ih =>
      exact .beside (h p List.mem_cons_self) (ih fun q hq => h q (List.mem_cons_of_mem p hq))

end Packets

/-! ## Events beside the stream -/

/-- The events of a node that move no link and no child. -/
def isIdle : Event → Bool
  | .id _ | .resList .. | .unaccept _ | .keepAlive _ | .keepAliveRes _ | .reqList _ |
    .timeKeepAlive | .timeSetup | .timeList | .timeRetry | .timeDepart => true
  | _ => false

/-- The stream, the links and the clusters of the children are the same, and what is sent is
beside the stream. -/
structure KeepsStream (n n' : Node) : Prop where
  webm : n'.webm = n.webm
  links : n'.links = n.links
  joined : n'.joined = n.joined
  sends : Sends Packet.Beside n n'

section Idle

variable {n n' : Node}

theorem KeepsStream.refl (n : Node) : KeepsStream n n := ⟨rfl, rfl, rfl, .none rfl⟩

theorem KeepsStream.trans {n₁ n₂ n₃ : Node} (h : KeepsStream n₁ n₂) (h' : KeepsStream n₂ n₃) :
    KeepsStream n₁ n₃ :=
  ⟨h'.webm.trans h.webm, h'.links.trans h.links, h'.joined.trans h.joined, h.sends.trans h'.sends⟩

theorem Talks.keepsStream (h : Talks n n') : KeepsStream n n' := by
  have hlinks := h.links
  obtain ⟨ip, port, ps, rfl, hps⟩ := h
  refine ⟨rfl, hlinks, rfl, ps, rfl, fun p hp protocol hhead => ?_⟩
  obtain ⟨hblock, -, hstatus, haccept⟩ := (hps p hp).head protocol hhead
  exact ⟨hblock, hstatus, haccept⟩

theorem Talks.keepsStream_behind {m : Node} (h : Talks m n') (hm : KeepsStream n m) :
    KeepsStream n n' := hm.trans h.keepsStream

theorem setMyStatus_keepsStream (status : NodeStatus) (n : Node) :
    KeepsStream n (n.setStatus myId status) :=
  ⟨rfl, setMyStatus_links status n,
    funext fun i => by simp only [Node.joined, Node.setStatus, Function.update_of_ne
      (childSlot_ne_myId i)], .none rfl⟩

theorem nodeRetry_keepsStream {env : Env} (h : nodeRetry env n = .ok n') : KeepsStream n n' := by
  obtain ⟨prior, _, _, -, -, rfl⟩ := nodeRetry_asks h
  have hset := setMyStatus_keepsStream
    { n.myStatus with clusterSeq := n.webm.currentCluster.seq.toUInt16 } n
  exact (connectTo_talks prior _).keepsStream_behind ⟨hset.webm, hset.links, hset.joined, .none rfl⟩

theorem isIdle_keepsStream {program : Program} {env : Env} {e : Event} (he : isIdle e = true)
    (h : n.step program env e = .ok n') : KeepsStream n n' := by
  cases e with
  | id data =>
      cases program with
      | origin =>
          cases h
          exact .refl n
      | peer =>
          cases h
          exact setMyStatus_keepsStream _ n
  | resList data k =>
      cases program with
      | origin =>
          cases h
          exact .refl n
      | peer =>
          cases h
          exact ⟨rfl, rfl, rfl, .none rfl⟩
  | unaccept data =>
      cases program with
      | origin =>
          cases h
          exact .refl n
      | peer =>
          obtain ⟨prior, _, _, -, -, rfl⟩ := nodeUnaccept_asks h
          exact (connectTo_talks prior _).keepsStream_behind ⟨rfl, rfl, rfl, .none rfl⟩
  | keepAlive data => cases h; exact (nodeKeepAlive_talks data n).keepsStream
  | keepAliveRes data =>
      cases h
      refine ⟨rfl, nodeKeepAliveRes_links env data n, ?_, .none rfl⟩
      funext i
      simp only [Node.joined, nodeKeepAliveRes]
      split <;> rfl
  | reqList data => cases h; exact (nodeReqList_talks data n).keepsStream
  | timeKeepAlive =>
      cases h
      exact (timeKeepAlive_talks env n).keepsStream_behind ⟨rfl, rfl, rfl, .none rfl⟩
  | timeSetup =>
      cases h
      exact (timeSetup_talks env n).keepsStream_behind ⟨rfl, rfl, rfl, .none rfl⟩
  | timeList =>
      cases h
      exact (timeList_talks env n).keepsStream_behind ⟨rfl, rfl, rfl, .none rfl⟩
  | timeRetry =>
      rcases timeRetry_cases h with ⟨-, hretry⟩ | ⟨-, rfl⟩
      · exact nodeRetry_keepsStream hretry
      · exact .refl n'
  | timeDepart =>
      cases h
      exact (timeDepart_talks env n).keepsStream_behind ⟨rfl, rfl, rfl, .none rfl⟩
  | _ => cases he

end Idle

/-! ## The origin -/

theorem Sends.log_eq {a b : Addr} {n n' : Node} (h : Sends (Packet.To b) n n') (hne : b ≠ a) :
    n'.log a = n.log a := by
  obtain ⟨ps, hsent, hto⟩ := h
  have hnone : (ps.filter fun p => (p.daddr, p.dest) = a) = [] := by
    refine List.filter_eq_nil_iff.mpr fun p hp => ?_
    rw [decide_eq_true_eq]
    exact fun ha => hne ((hto p hp).symm.trans ha)
  rw [log_append hsent, hnone, List.append_nil]

theorem log_of_to {a : Addr} {n n' : Node} {ps : List Packet} (h : n'.sent = n.sent ++ ps)
    (hto : ∀ p ∈ ps, p.To a) : n'.log a = n.log a ++ ps := by
  have hall : (ps.filter fun p => (p.daddr, p.dest) = a) = ps := by
    refine List.filter_eq_self.mpr fun p hp => ?_
    rw [decide_eq_true_eq]
    exact hto p hp
  rw [log_append h, hall]

theorem log_eq_of_sent {a : Addr} {n n' : Node} (h : n'.sent = n.sent) : n'.log a = n.log a := by
  rw [Node.log, h]
  rfl

theorem timeCache_sent (env : Env) (n : Node) : (timeCache env n).sent = n.sent := by
  obtain ⟨_, _, _, _, _, _, hafter⟩ := timeCache_changes env n
  rw [hafter]

/-- The steps of the origin: those of its stream, and events beside it. -/
inductive ServeStep (f : OriginFile) (s : Streaming) :
    OriginLabel ⊕ (Env × Event) → Streaming → Prop
  | stream {l : OriginLabel} {t : Streaming} : OriginStep f s l t → ServeStep f s (.inl l) t
  | idle {env : Env} {e : Event} {n : Node} : isIdle e = true →
      s.node.step .origin env e = .ok n → ServeStep f s (.inr (env, e)) { s with node := n }

theorem KeepsStream.isConnected_eq {n n' : Node} (h : KeepsStream n n') (s : Slot) :
    n'.isConnected s = n.isConnected s := by
  have hconnected : n'.connectedNodes = n.connectedNodes := congrArg Links.connected h.links
  rw [Node.isConnected, hconnected]
  rfl

theorem StreamOk.keepsStream {f : StreamFile} {s : Streaming} {n : Node} (h : StreamOk f s)
    (hn : KeepsStream s.node n) : StreamOk f { s with node := n } := by
  obtain ⟨done, hloop, hserved⟩ := h
  refine ⟨done, ?_, fun i hi => ?_⟩
  · show LoopOk f n.webm s.phase done
    rw [hn.webm]
    exact hloop
  · show 0 < done ∧ Served f done (n.webm.currentChildBlock i) (n.joined i) (s.delivered i)
    rw [hn.webm, hn.joined]
    exact hserved i ((hn.isConnected_eq _).symm.trans hi)

/-- The origin before the peer is admitted. -/
structure BeforeJoin (f : OriginFile) (s : Streaming) : Prop where
  ok : StreamOk f s
  counted : s.node.links.Counted
  header : s.node.webm.webmHeaderData = f.header

theorem beforeJoin_origin {f : OriginFile} (hsmall : f.Small) {s t : Streaming} {l : OriginLabel}
    (h : BeforeJoin f s) (hstep : OriginStep f s l t) : BeforeJoin f t := by
  refine ⟨streamOk_step hsmall h.ok (h.ok.inRange l) hstep, ?_, ?_⟩
  · cases hstep.2 with
    | grow => exact h.counted
    | main => exact h.counted
    | sendMulStream env hsend =>
        obtain ⟨_, _, _, _, hn⟩ := (sendMulStream_distributes hsend).streamed
        show Links.Counted (Node.links _)
        rw [hn]
        exact h.counted
    | setup env data k saddr source hsetup =>
        exact (counted_step_iff (l := (env, .setup data k saddr source)) h.counted hsetup).mpr
          trivial
    | timeCache env =>
        show Links.Counted (Node.links _)
        rw [timeCache_links]
        exact h.counted
  · cases hstep.2 with
    | grow => exact h.header
    | main stale hmain =>
        obtain ⟨_, _, _, _, _, _, _, _, rfl⟩ := mainStep_looped hmain
        exact h.header
    | sendMulStream env hsend =>
        obtain ⟨_, _, _, _, hn⟩ := (sendMulStream_distributes hsend).streamed
        show Webm.webmHeaderData (Node.webm _) = _
        rw [hn]
        exact h.header
    | @setup n env data k saddr source hsetup =>
        have hwebm : n.webm.webmHeaderData =
            (receiveSetup .origin k saddr source s.node).webm.webmHeaderData := by
          rcases nodeSetup_stream hsetup with ⟨hw, -⟩ | ⟨i, -, -, hw, -⟩ <;> rw [hw]
          rfl
        show n.webm.webmHeaderData = _
        rw [hwebm, (receiveSetup_frame k saddr source s.node).1]
        exact h.header
    | timeCache env =>
        show (P2PStream.timeCache env s.node).webm.webmHeaderData = _
        rw [(timeCache_frame env s.node).1]
        exact h.header

theorem beforeJoin_step {f : OriginFile} (hsmall : f.Small) {s t : Streaming}
    {l : OriginLabel ⊕ (Env × Event)} (h : BeforeJoin f s) (hstep : ServeStep f s l t) :
    BeforeJoin f t := by
  cases hstep with
  | stream hstep => exact beforeJoin_origin hsmall h hstep
  | idle he hn =>
      have hkeeps := isIdle_keepsStream he hn
      refine ⟨h.ok.keepsStream hkeeps, ?_, ?_⟩
      · show Links.Counted (Node.links _)
        rw [hkeeps.links]
        exact h.counted
      · show Webm.webmHeaderData (Node.webm _) = _
        rw [hkeeps.webm]
        exact h.header

/-- The child in slot `i` has been sent the blocks `infos` of the file, from cluster `first` on,
and its cursor stands behind them. -/
structure Sending (f : StreamFile) (a : Addr) (i : Fin maxChildNum) (first : UInt16)
    (infos : List BlockInfo) (n : Node) : Prop where
  alone : AloneAt a i n
  sent : ∃ p, Run (CutStep f) ⟨first.toNat, 0, 0⟩ infos p ∧
    CursorAt f (n.webm.currentChildBlock i) p

/-- What is sent to the address on the way from `n` to `n'` are the blocks that follow. -/
def SendsOn (f : StreamFile) (a : Addr) (i : Fin maxChildNum) (first : UInt16)
    (infos : List BlockInfo) (n n' : Node) : Prop :=
  ∃ new later, n'.log a = n.log a ++ new ∧ Carries f new later ∧
    Sending f a i first (infos ++ later) n'

/-- The origin, which sends them. -/
structure Serves (f : OriginFile) (a : Addr) (i : Fin maxChildNum) (first : UInt16)
    (infos : List BlockInfo) (s : Streaming) : Prop extends
    Sending f a i first infos s.node where
  ok : StreamOk f s

section Origin

variable {f : OriginFile} {a : Addr} {i : Fin maxChildNum} {first : UInt16}
variable {infos : List BlockInfo} {s t : Streaming} {n n' : Node}

theorem AloneAt.links (h : AloneAt a i n) (hlinks : n'.links = n.links) : AloneAt a i n' := by
  have hbit : ∀ j, n'.isConnected (childSlot j) = n.isConnected (childSlot j) := fun j => by
    have hconnected : n'.connectedNodes = n.connectedNodes := congrArg Links.connected hlinks
    rw [Node.isConnected, hconnected]
    rfl
  have hroute : ∀ j, n'.route (childSlot j) = n.route (childSlot j) := fun j =>
    congrFun (congrArg Links.address hlinks) (LinkSlot.child j)
  exact ⟨(hbit i).trans h.connected, (hroute i).trans h.route,
    fun j hj hjc => by rw [hroute]; exact h.others j hj ((hbit j).symm.trans hjc)⟩

theorem nodeSetup_alone {env : Env} {data : Buf} {saddr : UInt32} {source : UInt16}
    (h : nodeSetup env data saddr source n = .ok n') (halone : AloneAt a i n)
    (hne : (saddr, htons source) ≠ a) :
    AloneAt a i n' ∧ n'.webm.currentChildBlock i = n.webm.currentChildBlock i := by
  rcases nodeSetup_cases h with ⟨-, ad, rfl⟩ | ⟨-, j, hj, rfl⟩
  · exact ⟨halone.links (renewDst_links saddr (htons source) n), rfl⟩
  · have hadmitted : Admitted (.setup data saddr source) j n
        (setupAdmission env data saddr source j n) := setupAdmission_admitted hj
    obtain ⟨hconnected, -, ⟨hip, hport⟩, hcursor⟩ := hadmitted.sameChild halone.connected
    refine ⟨⟨hconnected, (Prod.ext hip hport).trans halone.route, fun c hc hcon => ?_⟩, hcursor⟩
    by_cases hcj : c = j
    · subst hcj
      exact fun ha => hne (hadmitted.address.symm.trans ha)
    · have hold : n.isConnected (childSlot c) = true := by
        have hbit := hadmitted.bits (childSlot c)
        have hne' : ¬ j.val = (childSlot c).val := fun heq => hcj (Fin.ext heq.symm)
        rw [decide_eq_false hne', Bool.or_false] at hbit
        exact hbit.symm.trans hcon
      obtain ⟨-, -, ⟨hip', hport'⟩, -⟩ := hadmitted.sameChild hold
      exact fun ha => halone.others c hc hold ((Prod.ext hip' hport').symm.trans ha)

/-- The steps of the origin that are not a Setup from the address. -/
def NoSetupFrom (a : Addr) (l : OriginLabel ⊕ (Env × Event)) : Prop :=
  ∀ env data k saddr source, l = .inl (.setup env data k saddr source) → (saddr, htons source) ≠ a

section Node

variable {f : StreamFile}

theorem Sending.keep (h : Sending f a i first infos n) (halone : AloneAt a i n')
    (hcursor : n'.webm.currentChildBlock i = n.webm.currentChildBlock i)
    (hlog : n'.log a = n.log a) : SendsOn f a i first infos n n' := by
  obtain ⟨p, hrun, hat⟩ := h.sent
  refine ⟨[], [], by rw [hlog, List.append_nil], .nil, halone, p, ?_, hcursor ▸ hat⟩
  rw [List.append_nil]
  exact hrun

theorem Sending.keepsStream (h : Sending f a i first infos n) (hkeeps : KeepsStream n n') :
    SendsOn f a i first infos n n' := by
  obtain ⟨ps, hsent, hbeside⟩ := hkeeps.sends
  obtain ⟨p, hrun, hat⟩ := h.sent
  refine ⟨_, [], log_append hsent,
    carries_of_beside fun p hp => hbeside p (List.mem_filter.mp hp).1,
    h.alone.links hkeeps.links, p, ?_, ?_⟩
  · rw [List.append_nil]
    exact hrun
  · rw [hkeeps.webm]
    exact hat

theorem Sending.setup (h : Sending f a i first infos n) {program : Program} {env : Env}
    {data : Buf} {k : UInt16} {saddr : UInt32} {source : UInt16}
    (hne : (saddr, htons source) ≠ a)
    (hsetup : n.step program env (.setup data k saddr source) = .ok n') :
    SendsOn f a i first infos n n' := by
  have hbefore := h.alone.links (receiveSetup_links program k saddr source n)
  obtain ⟨halone, hcursor⟩ := nodeSetup_alone hsetup hbefore hne
  refine h.keep halone ?_ ?_
  · rw [hcursor, receiveSetup_webm]
  · exact ((receiveSetup_sends program k saddr source n).trans (nodeSetup_sends hsetup)).log_eq hne

theorem Sending.mulStream (h : Sending f a i first infos n) {env : Env} {ret : Int}
    (hread : ∀ p, CursorAt f (n.webm.currentChildBlock i) p → ∀ m, Streamed n m →
      m.webm.currentChildBlock i = n.webm.currentChildBlock i →
      isOldBlockSeq (m.webm.currentChildBlock i).prev m.webm = true →
      ReadsNext f env p (m.webm.currentChildBlock i) m.webm)
    (hsend : sendMulStream env n = .ok (n', ret)) : SendsOn f a i first infos n n' := by
  obtain ⟨p, hrun, hat⟩ := h.sent
  have halone := h.alone.streamed (sendMulStream_distributes hsend).streamed
  rcases sendMulStream_reads h.alone.connected (hread p hat) hsend with
    ⟨hcursor, -, hlog⟩ | ⟨info, q, -, hcut, hnext, hlog⟩
  · exact h.keep halone hcursor (hlog a h.alone)
  · exact ⟨[_], [info], hlog a h.alone, .block hcut.next rfl .nil, halone, q,
      hrun.append (.cons hcut (.nil q)), hnext⟩

theorem Sending.timeCache (h : Sending f a i first infos n) (env : Env) :
    SendsOn f a i first infos n (timeCache env n) := by
  refine h.keep (h.alone.links (timeCache_links env n)) ?_ (log_eq_of_sent (timeCache_sent env n))
  rw [(timeCache_frame env n).1]

end Node

/-- What a step of the origin sends to the address: the blocks that follow. -/
theorem serve_step (hsmall : f.Small) (h : Serves f a i first infos s)
    {l : OriginLabel ⊕ (Env × Event)} (hl : NoSetupFrom a l) (hstep : ServeStep f s l t) :
    ∃ new later, t.node.log a = s.node.log a ++ new ∧ Carries f new later ∧
      Serves f a i first (infos ++ later) t := by
  have hok : StreamOk f t ∧ SendsOn f a i first infos s.node t.node := by
    cases hstep with
    | idle he hn =>
        have hkeeps := isIdle_keepsStream he hn
        exact ⟨h.ok.keepsStream hkeeps, h.toSending.keepsStream hkeeps⟩
    | @stream l t hstep =>
        refine ⟨streamOk_step hsmall h.ok (h.ok.inRange l) hstep, ?_⟩
        obtain ⟨horderly, hstep⟩ := hstep
        cases hstep with
        | grow total => exact h.toSending.keep (h.alone.links rfl) rfl rfl
        | main stale hmain =>
            obtain ⟨done, hloop, -⟩ := h.ok
            obtain ⟨-, -, -, hblocks⟩ := hloop.main horderly hmain
            exact h.toSending.keep (h.alone.links rfl) (congrFun hblocks i) rfl
        | sendMulStream env hsend =>
            obtain ⟨done, hloop, hserved⟩ := h.ok
            obtain ⟨hdone, -⟩ := hserved i h.alone.connected
            obtain ⟨-, -, hlt, -⟩ := hloop.completed.some hdone
            have hmax := f.clusters_le
            exact h.toSending.mulStream
              (fun p hat _ => hat.readsNext hsmall horderly hloop hdone (by omega)) hsend
        | setup env data k saddr source hsetup =>
            exact h.toSending.setup (hl env data k saddr source rfl) hsetup
        | timeCache env => exact h.toSending.timeCache env
  obtain ⟨hok, new, later, hlog, hcarries, hsending⟩ := hok
  exact ⟨new, later, hlog, hcarries, hsending, hok⟩

/-! ## Admission -/

theorem setupAdmission_sent {f : StreamFile} (env : Env) (data : Buf) (saddr : UInt32)
    (source : UInt16)
    (hcounted : n.links.Counted) (hfree : n.isConnected (childSlot i) = false)
    (hheader : n.webm.webmHeaderData = f.header)
    (hheaderBytes : n.webm.webmHeaderTotalBytes.toNat = f.header.length) (hfits : f.HeaderFits) :
    ∃ initial header,
      (setupAdmission env data saddr source i n).sent = n.sent ++ [initial, header] ∧
      initial.To (saddr, htons source) ∧ header.To (saddr, htons source) ∧
      initial.IsInitial n.webm.prevCluster.seq.toUInt16 ∧ header.IsHeader f.header := by
  let m := setupChild data saddr (htons source) i
    (renewDstIPandMAC saddr (htons source) (childSlot i) n)
  have hcountedm : m.links.Counted := by
    rw [counted_node_iff] at hcounted ⊢
    exact hcounted
  have hfreem : m.isConnected (childSlot i) = false := hfree
  have hseq : (m.nodesStatus (childSlot i)).clusterSeq = n.webm.prevCluster.seq.toUInt16 := by
    have hjoined : m.joined i = _ := congrFun (setupChild_joined data saddr (htons source) i
      (renewDstIPandMAC saddr (htons source) (childSlot i) n)) i
    rw [Function.update_self] at hjoined
    exact UInt16.toNat_inj.mp hjoined
  have hinitial := lastData_sendInitialStatus hcountedm hfreem
  have hmax : maxDataBytes = 1019 := rfl
  have hbytes : blockinfoBytes = 18 := rfl
  have hhdr : dataHdrBytes = 1 := rfl
  have hlength : f.header.length + blockinfoBytes + dataHdrBytes ≤ maxDataBytes := hfits
  let m' := sendInitialStatus (childSlot i) m
  have hwebm : m'.webm.webmHeaderData = f.header ∧
      m'.webm.webmHeaderTotalBytes.toNat = f.header.length := ⟨hheader, hheaderBytes⟩
  have hlast : lastData (sendWebMHeader (childSlot i) m') =
      blockProto :: (blockinfoStart ++ f.header) := by
    have hsend := lastData_sendData (blockProto :: (blockinfoStart ++ f.header))
      (k := f.header.length + blockinfoBytes + 1) (by simp [blockinfoStart]; omega) (by omega)
      (childSlot i) m'
    rw [List.take_of_length_le (by simp [blockinfoStart]; omega)] at hsend
    rw [← hsend, sendWebMHeader, hwebm.1, hwebm.2, List.take_length]
    rfl
  refine ⟨packetGenerate (lastData m') (childSlot i) m,
    packetGenerate (lastData (sendWebMHeader (childSlot i) m')) (childSlot i) m',
    ?_, ?_, ?_, ?_, ?_⟩
  · show (m.sent ++ [_]) ++ [_] = n.sent ++ [_, _]
    rw [List.append_assoc]
    simp only [m', lastData, sendWebMHeader, sendInitialStatus, sendData, sendPacket,
      List.getLast?_append, List.getLast?_singleton, Option.some_or, Option.map_some,
      Option.getD_some, packetGenerate]
    rfl
  · exact Prod.ext (Function.update_self ..) (Function.update_self ..)
  · exact Prod.ext (Function.update_self ..) (Function.update_self ..)
  · refine ⟨timecodeOffsetBytes m, (m.nodesStatus (childSlot i)).toBlockInfo, ?_, ?_,
      length_timecodeOffsetBytes m, hseq⟩
    rotate_left
    · show lastData m' = _
      rw [hinitial, initialStatusCopied, List.flatMap_cons, copyNodeStatusToBytes]
      simp only [List.append_assoc]
      rfl
  · exact hlast

theorem receiveSetup_beside (program : Program) (k : UInt16) (saddr : UInt32) (source : UInt16)
    (n : Node) : Sends Packet.Beside n (receiveSetup program k saddr source n) := by
  cases program with
  | peer => exact .none rfl
  | origin =>
      simp only [receiveSetup]
      split
      · have hsent : Sends Packet.Beside n (renewDstIPandMAC saddr (htons source) tmpId
          { n with currentNodeId := n.currentNodeId + 1 }) := .none rfl
        exact hsent.trans (sendData_beside (by decide) _ _ tmpId _)
      · exact .none rfl

/-- The address of whoever asks for a place. -/
def setupFrom (saddr : UInt32) (source : UInt16) : Addr := (saddr, htons source)

/-- Who is admitted is sent its InitialStatus and the WebM header, and its cursor is at the head of
the last closed cluster. -/
theorem setup_admission {f : StreamFile} {program : Program} {env : Env} {data : Buf} {k : UInt16}
    {saddr : UInt32} {source : UInt16} (hcounted : n.links.Counted)
    (hheader : n.webm.webmHeaderData = f.header)
    (hbytes : n.webm.webmHeaderTotalBytes.toNat = f.header.length) (hfits : f.HeaderFits)
    (hlt : n.webm.prevCluster.seq.toUInt16.toNat < f.clusters.length)
    (hfree : n.isConnected (childSlot i) = false)
    (hothers : ∀ j, n.isConnected (childSlot j) = true →
      n.route (childSlot j) ≠ setupFrom saddr source)
    (hsetup : n.step program env (.setup data k saddr source) = .ok n')
    (hi : n'.isConnected (childSlot i) = true) :
    ∃ ids initial header, n'.log (setupFrom saddr source) =
        n.log (setupFrom saddr source) ++ (ids ++ [initial, header]) ∧
      (∀ p ∈ ids, p.Beside) ∧ (k ≠ 4 → ids = []) ∧
      initial.IsInitial n.webm.prevCluster.seq.toUInt16 ∧ header.IsHeader f.header ∧
      Sending f (setupFrom saddr source) i n.webm.prevCluster.seq.toUInt16 [] n' := by
  -- the id of a first Setup is sent before
  let n₀ := receiveSetup program k saddr source n
  have hlinks : n₀.links = n.links := receiveSetup_links program k saddr source n
  have hwebm : n₀.webm = n.webm := receiveSetup_webm program k saddr source n
  have hbit : ∀ j, n₀.isConnected j = n.isConnected j := fun j => by
    have hconnected : n₀.connectedNodes = n.connectedNodes := congrArg Links.connected hlinks
    rw [Node.isConnected, hconnected]
    rfl
  have hroute : ∀ j, n₀.route (childSlot j) = n.route (childSlot j) := fun j =>
    congrFun (congrArg Links.address hlinks) (LinkSlot.child j)
  obtain ⟨ids, hids, hbeside, htoIds, hnone⟩ : ∃ ids, n₀.sent = n.sent ++ ids ∧
      (∀ p ∈ ids, p.Beside) ∧ (∀ p ∈ ids, p.To (setupFrom saddr source)) ∧
      (k ≠ 4 → ids = []) := by
    obtain ⟨ids, hids, hto⟩ := receiveSetup_sends program k saddr source n
    obtain ⟨ids', hids', hbeside⟩ := receiveSetup_beside program k saddr source n
    have hsame : ids' = ids := List.append_cancel_left (hids'.symm.trans hids)
    refine ⟨ids, hids, hsame ▸ hbeside, hto, fun hk => ?_⟩
    have hnothing : (receiveSetup program k saddr source n).sent = n.sent := by
      cases program with
      | peer => rfl
      | origin => rw [receiveSetup, if_neg hk]
    exact List.self_eq_append_right.mp (hnothing.symm.trans hids)
  rcases nodeSetup_cases hsetup with ⟨-, ad, rfl⟩ | ⟨-, j, hj, rfl⟩
  · exact absurd ((hbit (childSlot i)).symm.trans hi) (by rw [hfree]; exact Bool.false_ne_true)
  · have hadmitted : Admitted (.setup data saddr source) j n₀
        (setupAdmission env data saddr source j n₀) := setupAdmission_admitted hj
    have hij : i = j := by
      have hnew := hadmitted.bits (childSlot i)
      have hold : n₀.connectedNodes.getLsbD (childSlot i) = false :=
        (hbit (childSlot i)).trans hfree
      rw [hold, Bool.false_or] at hnew
      exact Fin.ext (of_decide_eq_true (hnew.symm.trans hi)).symm
    subst hij
    obtain ⟨initial, header, hsent, hto, hto', hinitial, hisHeader⟩ := setupAdmission_sent
      env data saddr source (f := f) (n := n₀) (by rw [hlinks]; exact hcounted) hadmitted.free
      (by rw [hwebm]; exact hheader) (by rw [hwebm]; exact hbytes) hfits
    have hall : ∀ p ∈ ids ++ [initial, header], p.To (setupFrom saddr source) := by
      intro p hp
      rcases List.mem_append.mp hp with hp | hp
      · exact htoIds p hp
      · rcases List.mem_cons.mp hp with rfl | hp
        · exact hto
        · exact List.mem_singleton.mp hp ▸ hto'
    rw [hids, List.append_assoc] at hsent
    rw [hwebm] at hinitial
    refine ⟨ids, initial, header, log_of_to hsent hall, hbeside, hnone, hinitial, hisHeader,
      ⟨hi, hadmitted.address, fun c hc hcon => ?_⟩, _, .nil _, ?_⟩
    · have hold : n₀.isConnected (childSlot c) = true := by
        have hnew := hadmitted.bits (childSlot c)
        have hne : ¬ i.val = (childSlot c).val := fun heq => hc (Fin.ext heq)
        rw [decide_eq_false hne, Bool.or_false] at hnew
        exact hnew.symm.trans hcon
      obtain ⟨-, -, ⟨hip, hport⟩, -⟩ := hadmitted.sameChild hold
      have haway := hothers c ((hbit (childSlot c)).symm.trans hold)
      rw [← hroute] at haway
      exact fun ha => haway ((Prod.ext hip hport).symm.trans ha)
    · have hcursor : (setupAdmission env data saddr source i n₀).webm =
          n₀.webm.setChildBlock i (joinCursor n₀.webm) :=
        setupChild_webm data saddr (htons source) i
          (renewDstIPandMAC saddr (htons source) (childSlot i) n₀)
      rw [hcursor, hwebm]
      simp only [Webm.setChildBlock, Function.update_self]
      exact cursorAt_joinCursor hlt

/-- Who is admitted by the origin is sent the blocks from the last completed cluster on. -/
theorem admission (h : BeforeJoin f s) (hfits : f.HeaderFits)
    (hfree : s.node.isConnected (childSlot i) = false)
    {env : Env} {data : Buf} {k : UInt16} {saddr : UInt32} {source : UInt16}
    (hothers : ∀ j, s.node.isConnected (childSlot j) = true →
      s.node.route (childSlot j) ≠ setupFrom saddr source)
    (hstep : OriginStep f s (.setup env data k saddr source) t)
    (hi : t.node.isConnected (childSlot i) = true) :
    ∃ ids initial header, t.node.log (setupFrom saddr source) =
        s.node.log (setupFrom saddr source) ++ (ids ++ [initial, header]) ∧
      (∀ p ∈ ids, p.Beside) ∧ (k ≠ 4 → ids = []) ∧
      initial.IsInitial s.node.webm.prevCluster.seq.toUInt16 ∧ header.IsHeader f.header ∧
      Serves f (setupFrom saddr source) i s.node.webm.prevCluster.seq.toUInt16 [] t := by
  obtain ⟨hfirst, hmove⟩ := hstep
  cases hmove with
  | setup _ _ _ _ _ hsetup =>
      have hok := streamOk_setup h.ok hfirst hsetup
      obtain ⟨done, hloop, -⟩ := id h.ok
      have hdone : 0 < done := Nat.pos_of_ne_zero fun h0 => hfirst (hloop.completed.none h0)
      obtain ⟨-, -, hlt, -⟩ := hloop.completed.some hdone
      have hseq := hloop.completed.seq_lt hdone
      have hcluster : s.node.webm.prevCluster.seq.toUInt16.toNat < f.clusters.length := by
        rw [UInt32.toNat_toUInt16]
        omega
      obtain ⟨ids, initial, header, hlog, hbeside, hnone, hinitial, hheader, hsending⟩ :=
        setup_admission h.counted h.header hloop.completed.onFile.header hfits
          hcluster hfree hothers hsetup hi
      exact ⟨ids, initial, header, hlog, hbeside, hnone, hinitial, hheader, hsending, hok⟩

end Origin

end P2PStream
