/-
# `P2PStream.Overlay.Link` — a peer behind whoever sends it the stream

A node sends a file to a peer that it has admitted: first its InitialStatus and the WebM
header, then the blocks, and between them packets that are no part of the stream.  They come to
the peer in the order they were sent, and between them the peer does whatever else it does:
its timers, its own children and the packets of other nodes.

Nothing here depends on who the sender is.  It `Feeds` the link when what each of its steps
sends to the address of the peer are the blocks that follow; from this the state of the peer
follows from step to step, and what it has in its file.
-/
import P2PStream.Overlay.Served
import P2PStream.Peer.Serve

namespace P2PStream

open Lib

/-! ## The link -/

/-- Whoever sends a stream: its states and steps, and the node that has the child. -/
structure Sender where
  State : Type
  Label : Type
  step : State → Label → State → Prop
  node : State → Node

/-- The sender, the packets on their way to the peer, those that the peer has handled, and the
peer. -/
structure Hop (S : Sender) where
  parent : S.State
  wire : List Packet
  handled : List Packet
  peer : Node

section Link

variable {S : Sender}

/-- The blocks that the peer has handled. -/
def Hop.got (s : Hop S) : List BlockInfo := s.handled.filterMap Packet.record

/-- The blocks that are on their way. -/
def Hop.inFlight (s : Hop S) : List BlockInfo := s.wire.filterMap Packet.record

end Link

/-- A peer handles the packet, or prints it when its protocol is unknown. -/
def Packet.HandledBy (p : Packet) (env : Env) (rest : Buf) (n n' : Node) : Prop :=
  match p.event rest with
  | some e => NodeStep .peer n (env, e) n'
  | none => n' = n

inductive HopLabel (S : Sender) where
  | parent (l : S.Label)
  | deliver (env : Env) (rest : Buf)
  | lose
  | peer (env : Env) (e : Event)

/-- The steps of both sides and of the link to the address, which keeps the order.  The peer gets
neither blocks nor an InitialStatus from elsewhere. -/
inductive HopStep (S : Sender) (a : Addr) (s : Hop S) : HopLabel S → Hop S → Prop
  | parent {l : S.Label} {t : S.State} : S.step s.parent l t →
      HopStep S a s (.parent l) { s with
        parent := t, wire := s.wire ++ ((S.node t).log a).drop ((S.node s.parent).log a).length }
  | deliver {env : Env} {rest : Buf} {p : Packet} {wire : List Packet} {n : Node} :
      s.wire = p :: wire → p.HandledBy env rest s.peer n →
      HopStep S a s (.deliver env rest) { s with wire, handled := s.handled ++ [p], peer := n }
  /-- A block is lost. -/
  | lose {p : Packet} {before after : List Packet} :
      s.wire = before ++ p :: after → p.record.isSome = true →
      HopStep S a s .lose { s with wire := before ++ after }
  | peer {env : Env} {e : Event} {n : Node} :
      leavesFile e = true → NodeStep .peer s.peer (env, e) n →
      HopStep S a s (.peer env e) { s with peer := n }

/-- A peer that waits for its InitialStatus. -/
def Waits (n : Node) : Prop :=
  ∃ env srcIp originIp srcPort start blocks ls,
    Run AsideStep (peerStart env srcIp originIp srcPort start blocks) ls n

/-- What `malloc` left in the number of the previous cluster is not above the first one. -/
def FreshBelow {S : Sender} (first : UInt16) : HopLabel S → Prop
  | .deliver env _ => env.freshPrevCluster.seq ≤ first.toUInt32
  | _ => True

/-- No block is lost. -/
def Unlost {S : Sender} (first : UInt16) (l : HopLabel S) : Prop := FreshBelow first l ∧ l ≠ .lose

/-! ## The peer -/

/-- A peer behind its InitialStatus, which waits for the WebM header. -/
def Told (first : UInt16) (n : Node) : Prop :=
  (∃ n₁ n₂ env data k ls, Waits n₁ ∧ NodeStep .peer n₁ (env, .initialStatus data k) n₂ ∧
    (copyBytesToBlockInfo (data.drop 8)).clusterSeq = first ∧ Run AsideStep n₂ ls n) ∧
    n.webm.prevCluster.seq ≤ first.toUInt32

/-- How far the peer is, and what is on its way to it. -/
inductive PeerOk (f : StreamFile) (first : UInt16) (left : List BlockInfo) :
    List BlockInfo → Node → List Packet → Prop
  | waiting {n : Node} {older wire : List Packet} {initial header : Packet} :
      Waits n → (∀ p ∈ older, p.Beside) → initial.IsInitial first → header.IsHeader f.header →
      Carries f wire left → PeerOk f first left [] n (older ++ initial :: header :: wire)
  | told {n : Node} {wire : List Packet} {header : Packet} :
      Told first n → header.IsHeader f.header → Carries f wire left →
      PeerOk f first left [] n (header :: wire)
  | streaming {n : Node} {wire : List Packet} {got : List BlockInfo} :
      Stores f.header (Stored.of first (f.stored got)) n.webm → Receiving f first got n.webm →
      Indexes f first got n.webm → Carries f wire left → PeerOk f first left got n wire

section Peer

variable {f : StreamFile} {first : UInt16} {left got : List BlockInfo}
variable {n n' : Node} {p : Packet} {wire : List Packet}

theorem isAside_of_leavesFile {e : Event} (he : leavesFile e = true) : isAside e = true := by
  cases e with
  | accept data => cases he
  | _ => exact he

theorem step_nodeTimecodeOffset {env : Env} {e : Event} (he : leavesFile e = true)
    (h : n.step .peer env e = .ok n') :
    n'.webm.nodeTimecodeOffset = n.webm.nodeTimecodeOffset := by
  by_cases hquiet : isQuiet e = true
  · rw [(step_sameStore hquiet h).webm]
  · cases e with
    | setup data k saddr source =>
        rcases nodeSetup_stream h with ⟨hwebm, -⟩ | ⟨i, -, -, hwebm, -⟩
        · exact congrArg Webm.nodeTimecodeOffset hwebm
        · exact (congrArg Webm.nodeTimecodeOffset hwebm).trans rfl
    | advertise data k =>
        cases h
        exact congrArg Webm.nodeTimecodeOffset (sendSetup_talks _).sameStore.webm
    | connect data =>
        rcases nodeConnect_stream h with ⟨hwebm, -⟩ | ⟨i, -, -, hwebm⟩
        · exact congrArg Webm.nodeTimecodeOffset hwebm
        · exact (congrArg Webm.nodeTimecodeOffset hwebm).trans rfl
    | resList data k =>
        cases h
        rfl
    | mulStream =>
        obtain ⟨_, _, _, _, rfl, -⟩ := step_mulStream_distributes h
        rfl
    | initialStatus | block | accept | main => cases he
    | _ => exact absurd rfl hquiet

theorem Receiving.sameWrites {w w' : Webm} (h : Receiving f first got w) (hsame : SameWrites w w')
    (hoffset : w'.nodeTimecodeOffset = w.nodeTimecodeOffset) : Receiving f first got w' := by
  obtain ⟨_, _, _, _, -, rfl⟩ := hsame
  obtain ⟨previous, hmarks⟩ := h.marks
  refine ⟨⟨previous, hmarks.allocated, hmarks.previous, hmarks.cluster, hmarks.block,
    hmarks.latest, hmarks.previous_le⟩, h.isGet, fun hget => ?_⟩
  rw [hoffset]
  exact h.offset hget

theorem Waits.aside {env : Env} {e : Event} (h : Waits n) (he : isAside e = true)
    (hstep : NodeStep .peer n (env, e) n') : Waits n' := by
  obtain ⟨_, _, _, _, _, _, _, hrun⟩ := h
  exact ⟨_, _, _, _, _, _, _, hrun.append (.cons ⟨he, hstep⟩ (.nil n'))⟩

theorem Told.aside {env : Env} {e : Event} (h : Told first n) (he : isAside e = true)
    (hstep : NodeStep .peer n (env, e) n') : Told first n' := by
  obtain ⟨⟨n₁, n₂, env₁, data, k, ls, hwaits, hinitial, hseq, hrun⟩, hprev⟩ := h
  refine ⟨⟨n₁, n₂, env₁, data, k, _, hwaits, hinitial, hseq,
    hrun.append (.cons ⟨he, hstep⟩ (.nil n'))⟩, ?_⟩
  obtain ⟨_, _, _, _, -, hwebm⟩ := step_sameWrites he hstep
  rw [hwebm]
  exact hprev

theorem PeerOk.beside {env : Env} {e : Event} (h : PeerOk f first left got n wire)
    (he : leavesFile e = true) (hstep : NodeStep .peer n (env, e) n') :
    PeerOk f first left got n' wire := by
  have haside := isAside_of_leavesFile he
  cases h with
  | waiting hwaits holder hinitial hheader hcarries =>
      exact .waiting (hwaits.aside haside hstep) holder hinitial hheader hcarries
  | told htold hheader hcarries => exact .told (htold.aside haside hstep) hheader hcarries
  | streaming hstores hreceiving hindexes hcarries =>
      have hsame := step_sameWrites haside hstep
      exact .streaming (hstores.sameWrites hsame)
        (hreceiving.sameWrites hsame (step_nodeTimecodeOffset he hstep))
        (hindexes.sameWrites hsame) hcarries

theorem PeerOk.handled_beside {env : Env} {rest : Buf} (h : PeerOk f first left got n wire)
    (hp : p.Beside) (hstep : p.HandledBy env rest n n') : PeerOk f first left got n' wire := by
  rw [Packet.HandledBy] at hstep
  split at hstep
  · next e he => exact h.beside (hp.event he) hstep
  · next => exact hstep ▸ h

theorem IsInitial.event (h : p.IsInitial first) (rest : Buf) :
    ∃ data k, p.event rest = some (.initialStatus data k) ∧
      (copyBytesToBlockInfo (data.drop 8)).clusterSeq = first := by
  obtain ⟨offset, info, more, hdata, hoffset, hseq⟩ := h
  refine ⟨rest.overlay p.data.tail, UInt16.ofNat p.data.tail.length, ?_, ?_⟩
  · rw [Packet.event, hdata]
    rfl
  · have hholds := Buf.overlay_holds rest p.data.tail
    rw [hdata, List.tail_cons] at hholds ⊢
    have hinfo := (Buf.holds_append.mp hholds).2
    rw [hoffset] at hinfo
    rw [copyBytesToBlockInfo_of_holds (Buf.holds_append.mp hinfo).1]
    exact hseq

theorem IsHeader.event {header : List UInt8} (h : p.IsHeader header)
    (hlength : header.length + blockinfoBytes < 2 ^ 16) (rest : Buf) :
    ∃ data k, p.event rest = some (.block data k) ∧ data.take blockinfoBytes = blockinfoStart ∧
      (data.drop blockinfoBytes).take (k - UInt16.ofNat blockinfoBytes).toNat = header := by
  have htail : p.data.tail = blockinfoStart ++ header := by rw [h]; rfl
  have hstart : blockinfoStart.length = blockinfoBytes := by decide
  obtain ⟨hfirst, hsecond⟩ :=
    Buf.holds_append.mp (Buf.overlay_holds rest (blockinfoStart ++ header))
  refine ⟨rest.overlay p.data.tail, UInt16.ofNat p.data.tail.length, ?_, ?_, ?_⟩
  · rw [Packet.event, h]
    rfl
  · rw [htail]
    exact Buf.holds_take.mp hfirst
  · have hk : (UInt16.ofNat p.data.tail.length - UInt16.ofNat blockinfoBytes).toNat =
        header.length := by
      have hsize : header.length < UInt16.size := by
        have : UInt16.size = 2 ^ 16 := rfl
        omega
      rw [htail, List.length_append, hstart, Nat.add_comm, UInt16.ofNat_add, UInt16.add_sub_cancel,
        UInt16.toNat_ofNat_of_lt' hsize]
    rw [hk, htail, ← hstart]
    exact Buf.holds_take.mp hsecond

theorem blockData_event {info : BlockInfo} (h : p.data = f.blockData info) (rest : Buf) :
    p.event rest = some (.block (rest.overlay (f.blockData info).tail)
      (UInt16.ofNat (f.blockData info).tail.length)) := by
  rw [Packet.event, h]
  rfl

theorem Waits.file (h : Waits n) : n.webm.file = [] := by
  obtain ⟨env, srcIp, originIp, srcPort, start, blocks, ls, hrun⟩ := h
  obtain ⟨_, _, _, _, -, hwebm⟩ := run_sameWrites hrun
  rw [hwebm, peerStart_webm]
  rfl

theorem Told.file (h : Told first n) : n.webm.file = [] := by
  obtain ⟨⟨n₁, n₂, env, data, k, ls, hwaits, hinitial, -, hrun⟩, -⟩ := h
  obtain ⟨_, _, _, _, -, hwebm⟩ := run_sameWrites hrun
  cases hinitial
  rw [hwebm]
  exact hwaits.file

theorem Told.total (h : Told first n) : n.webm.totalBlockNum = 0 := by
  obtain ⟨⟨n₁, n₂, env, data, k, ls, hwaits, hinitial, -, hrun⟩, -⟩ := h
  obtain ⟨_, _, _, _, _, _, _, hbefore⟩ := hwaits
  obtain ⟨_, _, _, _, -, hwebm⟩ := run_sameWrites hrun
  obtain ⟨_, _, _, _, -, hwebm₁⟩ := run_sameWrites hbefore
  cases hinitial
  rw [hwebm]
  show n₁.webm.totalBlockNum = 0
  rw [hwebm₁, peerStart_webm]
  rfl

theorem Told.header {env : Env} {rest : Buf} (h : Told first n) (hp : p.IsHeader f.header)
    (hlength : f.header.length + blockinfoBytes < 2 ^ 16) (hstep : p.HandledBy env rest n n') :
    Stores f.header (Stored.start first) n'.webm ∧ Receiving f first [] n'.webm ∧
      Indexes f first [] n'.webm := by
  have hnone := h.total
  obtain ⟨⟨n₁, n₂, env₁, data₁, k₁, ls, hwaits, hinitial, hseq, hrun⟩, hprev⟩ := h
  obtain ⟨_, _, _, _, _, _, _, hbefore⟩ := hwaits
  obtain ⟨data, k, hevent, hstart, hheader⟩ := IsHeader.event hp hlength rest
  rw [Packet.HandledBy, hevent] at hstep
  have hw := (Joined.intro hbefore hinitial hseq hrun hstart hheader hstep).webm
  obtain ⟨w, hassemble, hn⟩ := bind_eq_ok.mp hstep
  cases hn
  have halloc : (n.webm.clusterAllocated && n.webm.blockAllocated) = true := by
    by_contra hnot
    rw [assembleBlock, Bool.eq_false_iff.mpr hnot] at hassemble
    cases hassemble
  have hopened := hassemble
  rw [assembleBlock_start halloc hstart, hheader] at hopened
  have hdata : w.webmHeaderData = f.header := by
    rw [← Except.ok.inj hopened]
    exact seekABSWebMW_headerData _ _
  obtain ⟨w', hassemble', hprev', htotal, -⟩ := exists_assembleBlock_start (k := k) halloc hstart
  rw [hassemble] at hassemble'
  cases hassemble'
  have hsize : n.webm.prevCluster.seq.toNat < 2 ^ 16 := by
    have hle := UInt32.le_iff_toNat_le.mp hprev
    have hfirst := first.toNat_lt
    rw [UInt16.toNat_toUInt32] at hle
    omega
  refine ⟨hw.stores, ⟨⟨n.webm.prevCluster.seq.toUInt16, hw.stores.allocated, ?_, hw.stores.seq,
    hw.stores.prev, hw.latest, ?_⟩, hw.timecode, fun hget => ?_⟩,
    hw.indexes hdata (htotal.trans hnone)⟩
  · rw [hprev', ← UInt32.toNat_inj, UInt16.toNat_toUInt32, UInt32.toNat_toUInt16]
    exact (Nat.mod_eq_of_lt hsize).symm
  · rw [UInt16.le_iff_toNat_le, UInt32.toNat_toUInt16]
    have hle := UInt32.le_iff_toNat_le.mp hprev
    rw [UInt16.toNat_toUInt32] at hle
    show _ ≤ first.toNat
    omega
  · exact Bool.noConfusion (hget.symm.trans hw.timecode)

theorem PeerOk.block (env : Env) (rest : Buf) {info : BlockInfo} {left : List BlockInfo} {q : Place}
    (hstores : Stores f.header (Stored.of first (f.stored got)) n.webm)
    (hreceiving : Receiving f first got n.webm) (hindexes : Indexes f first got n.webm)
    (hnext : NextBlock f q info) (hp : p.data = f.blockData info)
    (hsel : Selection f first.toNat (got ++ info :: left)) (hcarries : Carries f wire left) :
    ∃ n₁, p.HandledBy env rest n n₁ ∧ ∀ n', p.HandledBy env rest n n' →
      PeerOk f first left (got ++ [info]) n' wire := by
  have hone : Selection f first.toNat (got ++ [info]) := hsel.sublist
    ((List.Sublist.refl got).append (List.singleton_sublist.mpr List.mem_cons_self))
  have hdata := holdsBlock_of_blockData f info rest
  let k := UInt16.ofNat (f.blockData info).tail.length
  have hevent := blockData_event hp rest
  -- a block has a sequence number, the WebM header has none
  have hstart : (rest.overlay (f.blockData info).tail).take blockinfoBytes ≠ blockinfoStart := by
    intro hstart
    have hinfo : copyBytesToBlockInfo (packetData blockinfoStart) = info := by
      refine (copyBytesToBlockInfo_congr ?_).trans hdata.record
      rw [hstart]
      exact Buf.holds_take.mp (Buf.overlay_holds _ _)
    have hseq := hnext.seq
    have hnone : (copyBytesToBlockInfo (packetData blockinfoStart)).seq.toNat = 0 := by decide
    rw [hinfo] at hnone
    omega
  obtain ⟨w, hstore, hreceiving', hassemble, hnew⟩ :=
    hreceiving.step (s := (n, f.stored got)) rfl hone hdata env k
  have hdescribed : Described first f.header (n, f.stored got) := hstores
  have hstreams : Streams (n, f.stored got)
      (env, .block (rest.overlay (f.blockData info).tail) k) := hstart
  have hkeep := storeStep_described hdescribed hstreams hstore
  have hindexes' : Indexes f first (got ++ [info]) w := by
    rcases assembleBlock_cases hassemble with ⟨hopens, -⟩ | ⟨-, hold, -⟩ | ⟨-, -, hblock⟩
    · exact absurd hopens hstart
    · rw [hdata.record] at hold
      exact Bool.noConfusion (hold.symm.trans hnew)
    · exact hindexes.store hreceiving hone.newer hdata.record hblock
  refine ⟨{ n with webm := w }, ?_, fun n' hn' => ?_⟩
  · rw [Packet.HandledBy, hevent]
    exact hstore.1
  · rw [Packet.HandledBy, hevent] at hn'
    have hsame : n' = { n with webm := w } := Except.ok.inj (hn'.symm.trans hstore.1)
    rw [hsame]
    exact .streaming hkeep hreceiving' hindexes' hcarries

theorem IsInitial.record (h : p.IsInitial first) : p.record = none := by
  obtain ⟨offset, info, more, hdata, -⟩ := h
  rw [Packet.record, if_neg]
  rw [hdata]
  exact fun hblock => absurd (Option.some.inj hblock.1) (by decide)

theorem IsHeader.record {header : List UInt8} (h : p.IsHeader header) : p.record = none := by
  rw [Packet.record, if_neg]
  rw [h]
  exact fun hblock => hblock.2 (List.take_left' (by decide))

theorem PeerOk.deliver {env : Env} {rest : Buf} (h : PeerOk f first left got n (p :: wire))
    (hlength : f.header.length + blockinfoBytes < 2 ^ 16)
    (hsel : Selection f first.toNat (got ++ left))
    (hfresh : env.freshPrevCluster.seq ≤ first.toUInt32) (hstep : p.HandledBy env rest n n') :
    ∃ left', left = p.record.toList ++ left' ∧
      PeerOk f first left' (got ++ p.record.toList) n' wire := by
  generalize hw : p :: wire = packets at h
  cases h with
  | @waiting _ older wire' initial header hwaits holder hinitial hheader hcarries =>
      cases older with
      | nil =>
          obtain ⟨rfl, rfl⟩ := List.cons.inj hw
          obtain ⟨data, k, hevent, hseq⟩ := IsInitial.event hinitial rest
          rw [Packet.HandledBy, hevent] at hstep
          rw [IsInitial.record hinitial]
          refine ⟨left, rfl, .told ⟨⟨n, n', env, data, k, [], hwaits, hstep, hseq, .nil _⟩, ?_⟩
            hheader hcarries⟩
          cases hstep
          exact hfresh
      | cons q older =>
          obtain ⟨rfl, rfl⟩ := List.cons.inj hw
          have hbeside := holder p List.mem_cons_self
          rw [hbeside.record]
          have hpeer : PeerOk f first left [] n (older ++ initial :: header :: wire') :=
            .waiting hwaits (fun r hr => holder r (List.mem_cons_of_mem p hr)) hinitial hheader
              hcarries
          exact ⟨left, rfl, hpeer.handled_beside hbeside hstep⟩
  | told htold hheader hcarries =>
      obtain ⟨rfl, rfl⟩ := List.cons.inj hw
      rw [IsHeader.record hheader]
      obtain ⟨hstores, hreceiving, hindexes⟩ := htold.header hheader hlength hstep
      exact ⟨left, rfl, .streaming hstores hreceiving hindexes hcarries⟩
  | streaming hstores hreceiving hindexes hcarries =>
      subst hw
      cases hcarries with
      | @block _ _ info infos q hnext hdata hcarries =>
          obtain ⟨-, -, hkeep⟩ :=
            PeerOk.block env rest hstores hreceiving hindexes hnext hdata hsel hcarries
          rw [record_of_blockData hnext hdata]
          exact ⟨infos, rfl, hkeep n' hstep⟩
      | beside hbeside hcarries =>
          rw [hbeside.record, Option.toList_none, List.append_nil]
          have hpeer : PeerOk f first left got n wire :=
            .streaming hstores hreceiving hindexes hcarries
          exact ⟨left, rfl, hpeer.handled_beside hbeside hstep⟩

/-- A block never stops the peer. -/
theorem PeerOk.progress (env : Env) (rest : Buf) (h : PeerOk f first left got n (p :: wire))
    (hsel : Selection f first.toNat (got ++ left)) (hp : p.record.isSome = true) :
    ∃ n', p.HandledBy env rest n n' := by
  have hnone : ∀ {q : Packet}, q.record = none → p = q → False := by
    rintro q hq rfl
    rw [hq] at hp
    cases hp
  generalize hw : p :: wire = packets at h
  cases h with
  | @waiting _ older wire' initial header hwaits holder hinitial hheader hcarries =>
      cases older with
      | nil => exact (hnone (IsInitial.record hinitial) (List.cons.inj hw).1).elim
      | cons q older =>
          exact (hnone (holder q List.mem_cons_self).record (List.cons.inj hw).1).elim
  | told htold hheader hcarries =>
      exact (hnone (IsHeader.record hheader) (List.cons.inj hw).1).elim
  | streaming hstores hreceiving hindexes hcarries =>
      subst hw
      cases hcarries with
      | block hnext hdata hcarries =>
          obtain ⟨n', hn', -⟩ :=
            PeerOk.block env rest hstores hreceiving hindexes hnext hdata hsel hcarries
          exact ⟨n', hn'⟩
      | beside hbeside => exact (hnone hbeside.record rfl).elim

theorem PeerOk.inFlight (h : PeerOk f first left got n wire) :
    wire.filterMap Packet.record = left := by
  cases h with
  | @waiting _ older wire initial header _ holder hinitial hheader hcarries =>
      rw [List.filterMap_append, (carries_of_beside (f := f) holder).records, List.nil_append,
        List.filterMap_cons_none (IsInitial.record hinitial),
        List.filterMap_cons_none (IsHeader.record hheader), hcarries.records]
  | told _ hheader hcarries =>
      rw [List.filterMap_cons_none (IsHeader.record hheader), hcarries.records]
  | streaming _ _ _ hcarries => exact hcarries.records

theorem PeerOk.append {new : List Packet} {later : List BlockInfo}
    (h : PeerOk f first left got n wire) (hnew : Carries f new later) :
    PeerOk f first (left ++ later) got n (wire ++ new) := by
  cases h with
  | waiting hwaits holder hinitial hheader hcarries =>
      rw [List.append_assoc]
      exact .waiting hwaits holder hinitial hheader (hcarries.append hnew)
  | told htold hheader hcarries => exact .told htold hheader (hcarries.append hnew)
  | streaming hstores hreceiving hindexes hcarries =>
      exact .streaming hstores hreceiving hindexes (hcarries.append hnew)

theorem Carries.lose {before after : List Packet} {infos : List BlockInfo}
    (h : Carries f (before ++ p :: after) infos) :
    ∃ infos', infos'.Sublist infos ∧ Carries f (before ++ after) infos' := by
  induction before generalizing infos with
  | nil =>
      cases h with
      | block _ _ hcarries => exact ⟨_, List.sublist_cons_self _ _, hcarries⟩
      | beside _ hcarries => exact ⟨_, .refl _, hcarries⟩
  | cons q before ih =>
      cases h with
      | block hnext hdata hcarries =>
          obtain ⟨infos', hsub, hcarries⟩ := ih hcarries
          exact ⟨_, hsub.cons_cons _, .block hnext hdata hcarries⟩
      | beside hbeside hcarries =>
          obtain ⟨infos', hsub, hcarries⟩ := ih hcarries
          exact ⟨_, hsub, .beside hbeside hcarries⟩

theorem exists_append_of_record {front wire before after : List Packet}
    (h : front ++ wire = before ++ p :: after) (hfront : ∀ q ∈ front, q.record = none)
    (hp : p.record.isSome = true) :
    ∃ middle, before = front ++ middle ∧ wire = middle ++ p :: after := by
  rcases List.append_eq_append_iff.mp h with ⟨middle, hbefore, hwire⟩ | ⟨middle, hfrontEq, hrest⟩
  · exact ⟨middle, hbefore, hwire⟩
  · cases middle with
    | nil => exact ⟨[], by rw [hfrontEq, List.append_nil, List.append_nil], hrest.symm⟩
    | cons q middle =>
        obtain ⟨rfl, -⟩ := List.cons.inj hrest
        have hnone := hfront p (hfrontEq ▸ List.mem_append_right before List.mem_cons_self)
        rw [hnone] at hp
        cases hp

theorem PeerOk.lose {before after : List Packet}
    (h : PeerOk f first left got n (before ++ p :: after)) (hp : p.record.isSome = true) :
    ∃ left', left'.Sublist left ∧ PeerOk f first left' got n (before ++ after) := by
  generalize hw : before ++ p :: after = packets at h
  cases h with
  | @waiting _ older wire' initial header hwaits holder hinitial hheader hcarries =>
      have hfront : ∀ q ∈ older ++ [initial, header], q.record = none := by
        intro q hq
        rcases List.mem_append.mp hq with hq | hq
        · exact (holder q hq).record
        · rcases List.mem_cons.mp hq with rfl | hq
          · exact IsInitial.record hinitial
          · exact List.mem_singleton.mp hq ▸ IsHeader.record hheader
      have happend : (older ++ [initial, header]) ++ wire' = before ++ p :: after := by
        rw [List.append_assoc]
        exact hw.symm
      obtain ⟨middle, rfl, rfl⟩ := exists_append_of_record happend hfront hp
      obtain ⟨left', hsub, hcarries⟩ := hcarries.lose
      refine ⟨left', hsub, ?_⟩
      have hpeer : PeerOk f first left' [] n (older ++ initial :: header :: (middle ++ after)) :=
        .waiting hwaits holder hinitial hheader hcarries
      rwa [List.append_assoc, List.append_assoc]
  | @told _ wire' header htold hheader hcarries =>
      have hfront : ∀ q ∈ [header], q.record = none := fun q hq =>
        List.mem_singleton.mp hq ▸ IsHeader.record hheader
      have happend : [header] ++ wire' = before ++ p :: after := hw.symm
      obtain ⟨middle, rfl, rfl⟩ := exists_append_of_record happend hfront hp
      obtain ⟨left', hsub, hcarries⟩ := hcarries.lose
      exact ⟨left', hsub, .told htold hheader hcarries⟩
  | streaming hstores hreceiving hindexes hcarries =>
      subst hw
      obtain ⟨left', hsub, hcarries⟩ := hcarries.lose
      exact ⟨left', hsub, .streaming hstores hreceiving hindexes hcarries⟩

end Peer

/-! ## Both sides -/

theorem StreamFile.HeaderFits.lt {f : StreamFile} (h : f.HeaderFits) :
    f.header.length + blockinfoBytes < 2 ^ 16 := by
  have hmax : maxDataBytes = 1019 := rfl
  have hlength : f.header.length + blockinfoBytes + dataHdrBytes ≤ maxDataBytes := h
  omega

theorem PeerOk.file {f : StreamFile} {first : UInt16} {left got : List BlockInfo} {n : Node}
    {wire : List Packet} (h : PeerOk f first left got n wire) :
    (got = [] ∧ n.webm.file = []) ∨
      n.webm.file = (Stored.of first (f.stored got)).fileBytes f.header := by
  cases h with
  | waiting hwaits => exact .inl ⟨rfl, hwaits.file⟩
  | told htold => exact .inl ⟨rfl, htold.file⟩
  | streaming hstores => exact .inr hstores.file

/-- In the states `Ok`, the sender's child in slot `i` is at the address and is sent the blocks of
the file from cluster `first` on. -/
structure Feeds (S : Sender) (f : StreamFile) (a : Addr) (i : Fin maxChildNum) (first : UInt16)
    (Ok : List BlockInfo → S.State → Prop) : Prop where
  sending : ∀ {infos s}, Ok infos s → Sending f a i first infos (S.node s)
  cluster_lt : ∀ {infos s}, Ok infos s →
    ∀ {p}, CursorAt f ((S.node s).webm.currentChildBlock i) p → p.cluster < f.clusters.length
  step : ∀ {infos s l t}, Ok infos s → S.step s l t →
    ∃ new later, (S.node t).log a = (S.node s).log a ++ new ∧ Carries f new later ∧
      Ok (infos ++ later) t

/-- The sender has sent the blocks `infos`; the peer has handled some of them, and others are on
their way.  Without loss these are all. -/
structure HopOk {S : Sender} (f : StreamFile) (first : UInt16)
    (Ok : List BlockInfo → S.State → Prop) (lossless : Prop) (s : Hop S) : Prop where
  sides : ∃ infos left, Ok infos s.parent ∧ (s.got ++ left).Sublist infos ∧
    (lossless → s.got ++ left = infos) ∧ PeerOk f first left s.got s.peer s.wire

section Both

variable {S : Sender} {f : StreamFile} {a : Addr} {i : Fin maxChildNum} {first : UInt16}
variable {Ok : List BlockInfo → S.State → Prop} {lossless : Prop} {s t : Hop S}
variable {ls : List (HopLabel S)}

theorem Feeds.selection (hfeeds : Feeds S f a i first Ok) {infos : List BlockInfo} {s : S.State}
    (h : Ok infos s) : Selection f first.toNat infos := by
  obtain ⟨p, hrun, -⟩ := (hfeeds.sending h).sent
  exact selection_of_run hrun

theorem hopOk_step (hfeeds : Feeds S f a i first Ok) (hfits : f.HeaderFits) {l : HopLabel S}
    (h : HopOk f first Ok lossless s) (hfresh : FreshBelow first l) (hloss : lossless → l ≠ .lose)
    (hstep : HopStep S a s l t) : HopOk f first Ok lossless t := by
  obtain ⟨infos, left, hok, hsub, hall, hpeer⟩ := h.sides
  have hsel := (hfeeds.selection hok).sublist hsub
  have hlength := hfits.lt
  cases hstep with
  | parent hparent =>
      obtain ⟨new, later, hlog, hcarries, hok'⟩ := hfeeds.step hok hparent
      refine ⟨infos ++ later, left ++ later, hok', ?_, fun hk => ?_, ?_⟩
      · rw [← List.append_assoc]
        exact hsub.append (.refl later)
      · rw [← List.append_assoc]
        exact congrArg (· ++ later) (hall hk)
      · show PeerOk f first _ s.got s.peer (s.wire ++ List.drop _ _)
        rw [hlog, List.drop_left]
        exact hpeer.append hcarries
  | @deliver env rest p wire n hwire hhandled =>
      rw [hwire] at hpeer
      obtain ⟨left', rfl, hpeer'⟩ := hpeer.deliver hlength hsel hfresh hhandled
      have hgot : (s.handled ++ [p]).filterMap Packet.record = s.got ++ p.record.toList := by
        rw [List.filterMap_append, Hop.got]
        cases hrecord : p.record with
        | none => rw [List.filterMap_cons_none hrecord]; rfl
        | some info => rw [List.filterMap_cons_some hrecord]; rfl
      rw [← List.append_assoc] at hsub hall
      refine ⟨infos, left', hok, ?_, ?_, ?_⟩
      · show ((s.handled ++ [p]).filterMap Packet.record ++ left').Sublist infos
        rwa [hgot]
      · show lossless → (s.handled ++ [p]).filterMap Packet.record ++ left' = infos
        rwa [hgot]
      · show PeerOk f first left' ((s.handled ++ [p]).filterMap Packet.record) n wire
        rwa [hgot]
  | lose hwire hp =>
      rw [hwire] at hpeer
      obtain ⟨left', hsub', hpeer'⟩ := hpeer.lose hp
      exact ⟨infos, left', hok, ((List.Sublist.refl s.got).append hsub').trans hsub,
        fun hk => absurd rfl (hloss hk), hpeer'⟩
  | peer he hnode => exact ⟨infos, left, hok, hsub, hall, hpeer.beside he hnode⟩

theorem hopOk_run (hfeeds : Feeds S f a i first Ok) (hfits : f.HeaderFits)
    (hrun : Run (Guarded (HopStep S a)
      fun _ l => FreshBelow first l ∧ (lossless → l ≠ .lose)) s ls t)
    (h : HopOk f first Ok lossless s) : HopOk f first Ok lossless t :=
  hrun.guarded_invariant
    (fun _ _ _ hs hl hstep => hopOk_step hfeeds hfits hs hl.1 hl.2 hstep) h

theorem HopOk.run (h : HopOk f first Ok True s) (hfeeds : Feeds S f a i first Ok)
    (hfits : f.HeaderFits)
    (hrun : Run (Guarded (HopStep S a) fun _ l => FreshBelow first l ∧ l ≠ .lose) s ls t) :
    HopOk f first Ok True t :=
  hopOk_run hfeeds hfits (hrun.mono fun _ _ _ hl => ⟨⟨hl.1.1, fun _ => hl.1.2⟩, hl.2⟩) h

theorem hopOk_admitted {parent : S.State} {sent older ids : List Packet} {initial header : Packet}
    {n : Node} (hok : Ok [] parent) (hwaits : Waits n)
    (hlog : (S.node parent).log a = sent ++ (ids ++ [initial, header]))
    (holder : ∀ p ∈ older, p.Beside) (hids : ∀ p ∈ ids, p.Beside)
    (hinitial : initial.IsInitial first) (hheader : header.IsHeader f.header) :
    HopOk f first Ok lossless
      ⟨parent, older ++ ((S.node parent).log a).drop sent.length, [], n⟩ := by
  refine ⟨[], [], hok, .refl _, fun _ => rfl, ?_⟩
  have hpeer : PeerOk f first [] [] n ((older ++ ids) ++ initial :: header :: []) :=
    .waiting hwaits (fun p hp => (List.mem_append.mp hp).elim (holder p) (hids p)) hinitial hheader
      .nil
  rw [List.append_assoc] at hpeer
  show PeerOk f first [] [] n (older ++ List.drop _ _)
  rwa [hlog, List.drop_left]

/-- What was cut for the peer are the blocks that it has handled and those on their way, and others
that are lost; its file is what they describe, and no block ever stops it. -/
theorem HopOk.handled (h : HopOk f first Ok lossless t) (hfeeds : Feeds S f a i first Ok) :
    (∃ infos p, Run (CutStep f) ⟨first.toNat, 0, 0⟩ infos p ∧
      CursorAt f ((S.node t.parent).webm.currentChildBlock i) p ∧
      (t.got ++ t.inFlight).Sublist infos) ∧
    ((t.got = [] ∧ t.peer.webm.file = []) ∨
      t.peer.webm.file = (Stored.of first (f.stored t.got)).fileBytes f.header) ∧
    ∀ p wire, t.wire = p :: wire → p.record.isSome = true →
      ∀ env rest, ∃ u, HopStep S a t (.deliver env rest) u := by
  obtain ⟨infos, left, hok, hsub, -, hpeer⟩ := h.sides
  obtain ⟨p, hcut, hat⟩ := (hfeeds.sending hok).sent
  refine ⟨⟨infos, p, hcut, hat, ?_⟩, hpeer.file, ?_⟩
  · rw [Hop.inFlight, hpeer.inFlight]
    exact hsub
  · intro p wire hwire hp env rest
    rw [hwire] at hpeer
    obtain ⟨n, hn⟩ := hpeer.progress env rest ((hfeeds.selection hok).sublist hsub) hp
    exact ⟨_, .deliver hwire hn⟩

end Both

/-! ## Without loss -/

/-- The file has the header and the clusters of `f` from `first` on, as far as `p`.  The last of
them is open. -/
structure CopyTo (f : StreamFile) (first : Nat) (p : Place) (last : StoredCluster)
    (file : List UInt8) : Prop where
  file_eq : file = f.header ++ ((f.clusters.drop first).take (last.seq.toNat - first)).flatMap
    ClusterPayload.clusterBytes ++ last.openBytes
  first_le : first ≤ last.seq.toNat
  open_eq : (last.seq.toNat = p.cluster ∧ last.payload = (f.payload p.cluster).take p.bytes) ∨
    (last.seq.toNat + 1 = p.cluster ∧ p.bytes = 0 ∧ last.payload = f.payload last.seq.toNat)

/-- The cluster that is opened first is the one the stream starts at. -/
theorem base_of_run {f : StreamFile} {first : Nat} {info : BlockInfo} {got : List BlockInfo}
    {r : Place} (hrun : Run (CutStep f) ⟨first, 0, 0⟩ (info :: got) r) :
    f.base (info :: got) = f.timecode first := by
  cases hrun with
  | cons hfirst _ =>
      have hseq := hfirst.next.seq_eq_first_iff.mpr rfl
      have hopened : firstOpened (info :: got) = some info :=
        List.find?_cons_of_pos (by rw [hseq]; rfl)
      rw [StreamFile.base, hopened, Option.map_some, Option.getD_some, hfirst.next.cluster]

theorem copiedTo_of_run {f : StreamFile} {first : UInt16} {got : List BlockInfo} {r : Place}
    (hrun : Run (CutStep f) ⟨first.toNat, 0, 0⟩ got r) :
    CopiedTo (f.rebased (f.timecode first.toNat)) first.toNat r
      (Stored.of first (f.stored got)) := by
  cases got with
  | nil =>
      cases hrun
      exact copiedTo_start _ first
  | cons info got => exact base_of_run hrun ▸ copiedTo_stored hrun

theorem CopiedTo.copyTo {f : StreamFile} {first : Nat} {p : Place} {s : Stored}
    (h : CopiedTo f first p s) (hp : p.cluster ≤ f.clusters.length) :
    CopyTo f first p s.last (s.fileBytes f.header) where
  file_eq := by
    have hle : s.last.seq.toNat ≤ f.clusters.length := by
      rcases h.last with ⟨hseq, -⟩ | ⟨hseq, -⟩ <;> omega
    rw [Stored.fileBytes, Stored.front, h.closedBytes_eq hle]
  first_le := h.first_le
  open_eq := h.last

theorem exists_run_of_append {f : StreamFile} {p q : Place} {infos later : List BlockInfo}
    (h : Run (CutStep f) p (infos ++ later) q) :
    ∃ r, Run (CutStep f) p infos r ∧ Run (CutStep f) r later q := by
  induction infos generalizing p with
  | nil => exact ⟨p, .nil p, h⟩
  | cons info infos ih =>
      cases h with
      | cons hfirst hrest =>
          obtain ⟨r, hrun, hlater⟩ := ih hrest
          exact ⟨r, .cons hfirst hrun, hlater⟩

section Lossless

variable {S : Sender} {f : StreamFile} {a : Addr} {i : Fin maxChildNum} {first : UInt16}
variable {Ok : List BlockInfo → S.State → Prop} {s t : Hop S} {ls : List (HopLabel S)}

/-- What was cut for a peer is what it has handled and what is on its way. -/
theorem HopOk.cut (h : HopOk f first Ok True t) (hfeeds : Feeds S f a i first Ok) :
    ∃ r p, Run (CutStep f) ⟨first.toNat, 0, 0⟩ t.got r ∧ Run (CutStep f) r t.inFlight p ∧
      CursorAt f ((S.node t.parent).webm.currentChildBlock i) p ∧
      p.cluster < f.clusters.length := by
  obtain ⟨infos, left, hok, -, hall, hpeer⟩ := h.sides
  obtain ⟨p, hcut, hat⟩ := (hfeeds.sending hok).sent
  rw [← hall trivial, ← hpeer.inFlight] at hcut
  obtain ⟨r, hgot, hflight⟩ := exists_run_of_append hcut
  exact ⟨r, p, hgot, hflight, hat, hfeeds.cluster_lt hok hat⟩

theorem HopOk.copyTo (h : HopOk f first Ok True t) {r : Place}
    (hrun : Run (CutStep f) ⟨first.toNat, 0, 0⟩ t.got r) (hr : r.cluster < f.clusters.length) :
    (t.got = [] ∧ t.peer.webm.file = []) ∨
      ∃ last, CopyTo (f.rebased (f.timecode first.toNat)) first.toNat r last
        t.peer.webm.file := by
  obtain ⟨infos, left, -, -, -, hpeer⟩ := h.sides
  have hlength : r.cluster ≤ (f.rebased (f.timecode first.toNat)).clusters.length := by
    rw [StreamFile.rebased, List.length_map]
    exact Nat.le_of_lt hr
  refine hpeer.file.imp id fun hfile => ⟨(Stored.of first (f.stored t.got)).last, ?_⟩
  rw [hfile]
  exact (copiedTo_of_run hrun).copyTo hlength

theorem HopOk.copied (h : HopOk f first Ok True t) (hfeeds : Feeds S f a i first Ok) :
    ∃ r p, Run (CutStep f) ⟨first.toNat, 0, 0⟩ t.got r ∧ Run (CutStep f) r t.inFlight p ∧
      CursorAt f ((S.node t.parent).webm.currentChildBlock i) p ∧
      ((t.got = [] ∧ t.peer.webm.file = []) ∨
        ∃ last, CopyTo (f.rebased (f.timecode first.toNat)) first.toNat r last
          t.peer.webm.file) := by
  obtain ⟨r, p, hgot, hflight, hat, hlt⟩ := h.cut hfeeds
  have hle := run_cluster_le hflight
  exact ⟨r, p, hgot, hflight, hat, h.copyTo hgot (by omega)⟩

end Lossless

/-! ## A run -/

section Run

variable {S : Sender} {f : StreamFile} {a : Addr} {i : Fin maxChildNum} {first : UInt16}
variable {Ok : List BlockInfo → S.State → Prop} {s : Hop S}

end Run

end P2PStream
