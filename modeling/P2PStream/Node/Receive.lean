/-
# `P2PStream.Node.Receive` — what the handlers read of a frame

`Receive` of the peer reads a frame into `packet`, tests three fields of its headers
and calls the handler of the protocol number.  The result of `read` is dropped, so no
handler knows how many bytes came: each reads the stretches of `packet` that its
protocol, the UDP length and the contents say.

`handlerReads` lists these stretches as the handlers read them.  The list is complete,
since the outcome depends on no other byte, and its end has a closed form for each
protocol.  So a handler stays inside the frame when and only when the frame is that
long.
-/
import P2PStream.Node.Links
import P2PStream.Node.Wire
import P2PStream.Webm.Region

namespace P2PStream

open Lib

/-! ## The dispatcher -/

def ethPIp : UInt16 := 0x0800
def udpHdrBytes : Nat := 8
def dataHdrBytes : Nat := 1
/-- The headers before `data`: Ethernet, IP, UDP and the protocol number. -/
def headerBytes : Nat := 14 + 20 + udpHdrBytes + dataHdrBytes

namespace Frame

variable (packet : Buf)

def etherType : UInt16 := readU16 (packet.drop 12)
def saddr : UInt32 := htonl (readU32 (packet.drop 26))
def daddr : UInt32 := htonl (readU32 (packet.drop 30))
def source : UInt16 := htons (readU16 (packet.drop 34))
def dest : UInt16 := readU16 (packet.drop 36)
def len : UInt16 := readU16 (packet.drop 38)
def protocol : UInt8 := packet 42
def data : Buf := packet.drop headerBytes

/-- `data_bytes`, an `int` that is passed on as a `u16`. -/
def dataBytes : UInt16 := UInt16.ofInt ((len packet).toNat - udpHdrBytes - dataHdrBytes)

end Frame

/-- The tests of the dispatcher. -/
def Addressed (n : Node) (packet : Buf) : Prop :=
  Frame.etherType packet = ethPIp ∧ Frame.daddr packet = n.srcIp ∧ Frame.dest packet = n.srcPort

/-- The handler that `Receive` of the peer calls for a protocol number; `none` is an unknown
one, whose data is printed. -/
def handler (protocol : UInt8) (data : Buf) (dataBytes : UInt16) (saddr : UInt32)
    (source : UInt16) : Option Event :=
  if protocol = setupProto then some (.setup data dataBytes saddr source)
  else if protocol = idProto then some (.id data)
  else if protocol = initialStatusProto then some (.initialStatus data dataBytes)
  else if protocol = advertiseProto then some (.advertise data dataBytes)
  else if protocol = blockProto then some (.block data dataBytes)
  else if protocol = connectProto then some (.connect data)
  else if protocol = departProto then some (.depart data)
  else if protocol = detachProto then some (.detach data)
  else if protocol = reqListProto then some (.reqList data)
  else if protocol = resListProto then some (.resList data dataBytes)
  else if protocol = acceptProto then some (.accept data)
  else if protocol = unacceptProto then some (.unaccept data)
  else if protocol = keepaliveProto then some (.keepAlive data)
  else if protocol = keepaliveresProto then some (.keepAliveRes data)
  else none

def dispatch (packet : Buf) : Option Event :=
  handler (Frame.protocol packet) (Frame.data packet) (Frame.dataBytes packet)
    (Frame.saddr packet) (Frame.source packet)

/-- A frame handled by a peer. -/
def handleFrame (env : Env) (packet : Buf) (n : Node) : Except Fault Node :=
  match dispatch packet with
  | some e => n.step .peer env e
  | none => .ok n

/-! ## The bytes read -/

/-- The regions of `count` records from `start` on. -/
def statusRegions (start count : Nat) : List Region :=
  (List.range count).map fun i => ⟨start + nodeStatusBytes * i, nodeStatusBytes⟩

/-- What `ChangeTimecode` reads of the data of a block. -/
def changeTimecodeReads (data : Buf) : List Region :=
  let timecode := getChank (data.drop blockinfoBytes)
  ⟨blockinfoBytes, timecode.dataHeaderPosition⟩ ::
    if timecode.id = timecodeId then
      [⟨blockinfoBytes + timecode.dataHeaderPosition, timecode.dataBytes⟩]
    else []

/-- What `AssembleBlock` reads.  The regions behind the record are those it writes to the
file, but for a Timecode's. -/
def assembleBlockReads (data : Buf) (bytes : UInt16) (w : Webm) : List Region :=
  ⟨0, blockinfoBytes⟩ ::
    if data.take blockinfoBytes = blockinfoStart then
      [⟨blockinfoBytes, (bytes - UInt16.ofNat blockinfoBytes).toNat⟩]
    else if data.take blockinfoBytes = blockinfoEnd then []
    else
      let info := copyBytesToBlockInfo data
      if !(w.clusterAllocated && w.blockAllocated) || isOldBlockSeq info w then []
      else
        let payload : Region := ⟨blockinfoBytes, info.bytes.toNat⟩
        if info.seq = firstBlockSeq then
          changeTimecodeReads data ++
            if (getChank (data.drop blockinfoBytes)).id = timecodeId then [payload] else []
        else [payload]

instance (env : Env) (n : Node) : Decidable (AdmitsSetup env n) :=
  inferInstanceAs (Decidable (_ ∧ _ ∧ _))

/-- The bytes that a handler reads of the data of a packet. -/
def handlerReads (env : Env) (n : Node) : Event → List Region
  | .setup .. =>
      if AdmitsSetup env n ∧ n.webm.clusterAllocated ∧ n.webm.childBlocksAllocated then
        ⟨0, 4⟩ :: if n.myStatus.id = originId then [] else [⟨4, 2⟩, ⟨6, 4⟩]
      else []
  | .id _ => [⟨0, 2⟩, ⟨2, 4⟩]
  | .initialStatus _ k =>
      let statusNum := ((k.toNat : Int) - 8).tdiv nodeStatusBytes
      ⟨0, 8⟩ :: ⟨8, nodeStatusBytes⟩ :: ⟨nodeStatusBytes + 8, nodeStatusBytes⟩ ::
        statusRegions (nodeStatusBytes * 2 + 8) (statusNum - 2).toNat
  | .advertise _ k =>
      ⟨0, nodeStatusBytes⟩ :: statusRegions nodeStatusBytes (k.toNat / nodeStatusBytes - 1)
  | .block data k => assembleBlockReads data k n.webm
  | .connect _ => [⟨0, nodeStatusBytes⟩]
  | .depart _ => [⟨0, nodeStatusBytes⟩]
  | .detach _ => [⟨0, 2⟩]
  | .reqList _ => [⟨0, 2⟩]
  | .resList _ k => statusRegions 0 (k.toNat / nodeStatusBytes)
  | .accept _ => [⟨0, nodeStatusBytes⟩, ⟨nodeStatusBytes, 8⟩]
  | .unaccept _ => [⟨0, 2⟩]
  | .keepAlive _ => [⟨0, 2⟩]
  | .keepAliveRes _ => [⟨0, 2⟩]
  | _ => []

/-- What `Receive` and the handler read of the data of a frame. -/
def frameReads (env : Env) (n : Node) (packet : Buf) : List Region :=
  match dispatch packet with
  | some e => handlerReads env n e
  | none => [⟨0, (Frame.len packet).toNat - udpHdrBytes⟩]

/-! ## How far they reach -/

/-- How far `AssembleBlock` reads. -/
def assembleBlockNeeds (data : Buf) (bytes : UInt16) (w : Webm) : Nat :=
  let info := copyBytesToBlockInfo data
  let timecode := getChank (data.drop blockinfoBytes)
  if data.take blockinfoBytes = blockinfoStart then
    blockinfoBytes + (bytes - UInt16.ofNat blockinfoBytes).toNat
  else if data.take blockinfoBytes = blockinfoEnd ∨ w.clusterAllocated = false ∨
      w.blockAllocated = false ∨ isOldBlockSeq info w then
    blockinfoBytes
  else if info.seq ≠ firstBlockSeq then blockinfoBytes + info.bytes.toNat
  else if timecode.id ≠ timecodeId then blockinfoBytes + timecode.dataHeaderPosition
  else blockinfoBytes +
    max (timecode.dataHeaderPosition + timecode.dataBytes) info.bytes.toNat

/-- How far a handler reads. -/
def handlerNeeds (env : Env) (n : Node) : Event → Nat
  | .setup .. =>
      if AdmitsSetup env n ∧ n.webm.clusterAllocated ∧ n.webm.childBlocksAllocated then
        if n.myStatus.id = originId then 4 else 10
      else 0
  | .id _ => 6
  | .initialStatus _ k => 8 + nodeStatusBytes * max 2 ((k.toNat - 8) / nodeStatusBytes)
  | .advertise _ k => nodeStatusBytes * max 1 (k.toNat / nodeStatusBytes)
  | .block data k => assembleBlockNeeds data k n.webm
  | .connect _ => nodeStatusBytes
  | .depart _ => nodeStatusBytes
  | .detach _ => 2
  | .reqList _ => 2
  | .resList _ k => nodeStatusBytes * (k.toNat / nodeStatusBytes)
  | .accept _ => nodeStatusBytes + 8
  | .unaccept _ => 2
  | .keepAlive _ => 2
  | .keepAliveRes _ => 2
  | _ => 0

/-- How far a frame's data is read. -/
def frameNeeds (env : Env) (n : Node) (packet : Buf) : Nat :=
  match dispatch packet with
  | some e => handlerNeeds env n e
  | none => (Frame.len packet).toNat - udpHdrBytes

theorem statusRegions_inside (start count k : Nat) :
    (∀ r ∈ statusRegions start count, r.Inside k) ↔
      count = 0 ∨ start + nodeStatusBytes * count ≤ k := by
  have hbytes : nodeStatusBytes = 30 := rfl
  simp only [statusRegions, List.forall_mem_map, List.mem_range, Region.Inside, hbytes]
  constructor
  · intro h
    cases count with
    | zero => exact .inl rfl
    | succ count =>
        have hlast := h count (Nat.lt_succ_self count)
        omega
  · intro h i hi
    omega

theorem assembleBlockReads_inside (data : Buf) (bytes : UInt16) (w : Webm) (k : Nat) :
    (∀ r ∈ assembleBlockReads data bytes w, r.Inside k) ↔
      assembleBlockNeeds data bytes w ≤ k := by
  have hbytes : blockinfoBytes = 18 := rfl
  unfold assembleBlockReads assembleBlockNeeds
  rw [List.forall_mem_cons]
  by_cases hstart : data.take blockinfoBytes = blockinfoStart
  · rw [if_pos hstart, if_pos hstart, List.forall_mem_singleton]
    simp only [Region.Inside, hbytes]
    omega
  rw [if_neg hstart, if_neg hstart]
  by_cases hdrop : data.take blockinfoBytes = blockinfoEnd ∨ w.clusterAllocated = false ∨
      w.blockAllocated = false ∨ isOldBlockSeq (copyBytesToBlockInfo data) w = true
  · rw [if_pos hdrop]
    have hnil : (if data.take blockinfoBytes = blockinfoEnd then [] else
        if (!(w.clusterAllocated && w.blockAllocated) ||
          isOldBlockSeq (copyBytesToBlockInfo data) w) = true then ([] : List Region)
        else if (copyBytesToBlockInfo data).seq = firstBlockSeq then
          changeTimecodeReads data ++
            if (getChank (data.drop blockinfoBytes)).id = timecodeId then
              [⟨blockinfoBytes, (copyBytesToBlockInfo data).bytes.toNat⟩] else []
        else [⟨blockinfoBytes, (copyBytesToBlockInfo data).bytes.toNat⟩]) = [] := by
      rcases hdrop with h | h | h | h <;> simp [h]
    simp only [hnil, List.not_mem_nil, false_implies, implies_true, and_true, Region.Inside]
    omega
  · rw [if_neg hdrop]
    simp only [not_or, Bool.not_eq_false, Bool.not_eq_true] at hdrop
    obtain ⟨hend, hcluster, hblock, hold⟩ := hdrop
    rw [if_neg hend]
    simp only [hcluster, hblock, hold, Bool.and_self, Bool.not_true, Bool.or_self,
      Bool.false_eq_true, if_false, ne_eq]
    by_cases hseq : (copyBytesToBlockInfo data).seq = firstBlockSeq
    · unfold changeTimecodeReads
      generalize getChank (data.drop blockinfoBytes) = timecode
      by_cases hid : timecode.id = timecodeId
      · simp [hseq, hid, Region.Inside]
        omega
      · simp [hseq, hid, Region.Inside]
        omega
    · simp [hseq, Region.Inside]
      omega

theorem handlerReads_inside (env : Env) (n : Node) (e : Event) (k : Nat) :
    (∀ r ∈ handlerReads env n e, r.Inside k) ↔ handlerNeeds env n e ≤ k := by
  have hbytes : nodeStatusBytes = 30 := rfl
  cases e with
  | setup data k saddr source =>
      simp only [handlerReads, handlerNeeds]
      split
      · split
        · simp [Region.Inside]
        · simp [Region.Inside]
          omega
      · simp
  | initialStatus data k =>
      have hnum : (((k.toNat : Int) - 8).tdiv nodeStatusBytes - 2).toNat =
          max 2 ((k.toNat - 8) / nodeStatusBytes) - 2 := by
        rcases Nat.lt_or_ge k.toNat 8 with hlt | hge
        · have hneg : ((k.toNat : Int) - 8).tdiv nodeStatusBytes ≤ 0 := by
            have hpos := Int.tdiv_nonneg (a := 8 - (k.toNat : Int)) (b := nodeStatusBytes)
              (by omega) (by omega)
            rw [← Int.neg_sub, Int.neg_tdiv]
            omega
          have hzero : (k.toNat - 8) / nodeStatusBytes = 0 := by
            rw [Nat.sub_eq_zero_of_le hlt.le, Nat.zero_div]
          omega
        · rw [Int.tdiv_eq_ediv_of_nonneg (by omega), hbytes]
          omega
      simp only [handlerReads, handlerNeeds, List.forall_mem_cons, statusRegions_inside, hnum]
      simp only [Region.Inside, hbytes]
      omega
  | advertise data k =>
      simp only [handlerReads, handlerNeeds, List.forall_mem_cons, statusRegions_inside]
      simp only [Region.Inside, hbytes]
      omega
  | block data k => exact assembleBlockReads_inside data k n.webm _
  | resList data k =>
      simp only [handlerReads, handlerNeeds, statusRegions_inside, hbytes]
      omega
  | id data =>
      simp [handlerReads, handlerNeeds, Region.Inside]
      omega
  | accept data =>
      simp [handlerReads, handlerNeeds, Region.Inside, hbytes]
      omega
  | _ => simp [handlerReads, handlerNeeds, Region.Inside, hbytes]

/-! ## Nothing else is read -/

section Same

variable {d e : Buf}

theorem readU16_same {k : Nat} (h : Region.Same d e ⟨k, 2⟩) :
    readU16 (d.drop k) = readU16 (e.drop k) := by
  rw [readU16, readU16, take_same h]

theorem readU32_same {k : Nat} (h : Region.Same d e ⟨k, 4⟩) :
    readU32 (d.drop k) = readU32 (e.drop k) := by
  rw [readU32, readU32, take_same h]

/-- A record is decoded from its own bytes: it is what encodes to them. -/
theorem copyBytesToBlockInfo_same {k : Nat} (h : Region.Same d e ⟨k, blockinfoBytes⟩) :
    copyBytesToBlockInfo (d.drop k) = copyBytesToBlockInfo (e.drop k) := by
  refine copyBytesToBlockInfo_of_holds (Buf.holds_take.mpr ?_)
  rw [copyBlockInfoToBytes_copyBytes, Buf.length_take]
  exact take_same h

theorem copyBytesToNodeStatus_same (old : NodeStatus) {k : Nat}
    (h : Region.Same d e ⟨k, nodeStatusBytes⟩) :
    copyBytesToNodeStatus old (d.drop k) = copyBytesToNodeStatus old (e.drop k) := by
  have hholds :
      (d.drop k).Holds (copyNodeStatusToBytes (copyBytesToNodeStatus old (e.drop k))) := by
    rw [copyNodeStatusToBytes_copyBytes, Buf.holds_take, Buf.length_take]
    exact take_same h
  rw [copyBytesToNodeStatus_of_holds old hholds]
  rfl

theorem readStatuses_same {k count : Nat} (h : ∀ r ∈ statusRegions k count, r.Same d e) :
    readStatuses (d.drop k) count = readStatuses (e.drop k) count := by
  refine List.map_congr_left fun i hi => ?_
  rw [Buf.drop_drop, Buf.drop_drop]
  exact copyBytesToNodeStatus_same _ (h _ (List.mem_map.mpr ⟨i, hi, rfl⟩))

theorem addTimecodeOffset_same (acc : UInt64) {k : Nat} (h : Region.Same d e ⟨k, 8⟩) :
    addTimecodeOffset (d.drop k) acc = addTimecodeOffset (e.drop k) acc := by
  refine List.foldl_ext _ _ _ fun acc i hi => ?_
  have hbyte : (d.drop k) i = (e.drop k) i := h i (List.mem_range.mp hi)
  rw [hbyte]

/-! ## Blocks -/

theorem changeTimecode_same (w : Webm) (h : ∀ r ∈ changeTimecodeReads d, r.Same d e) :
    (∃ fault, changeTimecode (d.drop blockinfoBytes) w = .error fault ∧
      changeTimecode (e.drop blockinfoBytes) w = .error fault) ∨
    ∃ w' k l, (getChank (d.drop blockinfoBytes)).id = timecodeId ∧
      w'.currentBlock = w.currentBlock ∧
      changeTimecode (d.drop blockinfoBytes) w = .ok (w', (d.drop blockinfoBytes).put k l) ∧
      changeTimecode (e.drop blockinfoBytes) w = .ok (w', (e.drop blockinfoBytes).put k l) := by
  have hheader := h _ List.mem_cons_self
  have hchank : getChank (d.drop blockinfoBytes) = getChank (e.drop blockinfoBytes) :=
    getChank_same hheader.drop
  simp only [changeTimecode, ← hchank]
  by_cases hid : (getChank (d.drop blockinfoBytes)).id = timecodeId
  · have hdata := h ⟨blockinfoBytes + (getChank (d.drop blockinfoBytes)).dataHeaderPosition,
        (getChank (d.drop blockinfoBytes)).dataBytes⟩ (by
      rw [changeTimecodeReads, if_pos hid]
      exact List.mem_cons_of_mem _ List.mem_cons_self)
    simp only [if_pos hid, accumulate_same hdata.drop]
    refine .inr ⟨_, _, _, hid, ?_, rfl, rfl⟩
    split <;> rfl
  · simp only [if_neg hid]
    exact .inl ⟨_, rfl, rfl⟩

theorem endBlock_same (k : UInt16) {w : Webm} (hinfo : Region.Same d e ⟨0, blockinfoBytes⟩)
    (hpayload : Region.Same d e ⟨blockinfoBytes, w.currentBlock.info.bytes.toNat⟩) :
    endBlock d k w = endBlock e k w := by
  have hrecord := copyBytesToBlockInfo_same hinfo
  simp only [Buf.drop_zero] at hrecord
  simp only [endBlock, insertBlockToCluster, hrecord, take_same hpayload]

/-- A first block keeps its record, and its payload agrees where it did. -/
theorem splice_put_same {k n : Nat} {l : List UInt8} (hinfo : Region.Same d e ⟨0, blockinfoBytes⟩)
    (hpayload : Region.Same d e ⟨blockinfoBytes, n⟩) :
    Region.Same (d.splice blockinfoBytes ((d.drop blockinfoBytes).put k l))
        (e.splice blockinfoBytes ((e.drop blockinfoBytes).put k l)) ⟨0, blockinfoBytes⟩ ∧
      Region.Same (d.splice blockinfoBytes ((d.drop blockinfoBytes).put k l))
        (e.splice blockinfoBytes ((e.drop blockinfoBytes).put k l)) ⟨blockinfoBytes, n⟩ := by
  constructor
  · intro i hi
    have hi' : 0 + i < blockinfoBytes := by simpa using hi
    simp only [Buf.splice, if_pos hi']
    exact hinfo i hi
  · intro i hi
    have hbyte : (d.drop blockinfoBytes) i = (e.drop blockinfoBytes) i := hpayload i hi
    simp only [Buf.splice, Nat.not_lt.mpr (Nat.le_add_right _ i), if_false,
      Nat.add_sub_cancel_left, Buf.put, hbyte]

theorem storeBlock_same (k : UInt16) {w : Webm}
    (hinfo : Region.Same d e ⟨0, blockinfoBytes⟩)
    (hreads : ∀ r ∈ (if (copyBytesToBlockInfo d).seq = firstBlockSeq then
        changeTimecodeReads d ++ if (getChank (d.drop blockinfoBytes)).id = timecodeId then
          [⟨blockinfoBytes, (copyBytesToBlockInfo d).bytes.toNat⟩] else []
      else [⟨blockinfoBytes, (copyBytesToBlockInfo d).bytes.toNat⟩]), r.Same d e) :
    storeBlock d k w = storeBlock e k w := by
  have hrecord := copyBytesToBlockInfo_same hinfo
  simp only [Buf.drop_zero] at hrecord
  have hbegin : (beginBlock (copyBytesToBlockInfo e) w).currentBlock.info =
      copyBytesToBlockInfo e := rfl
  simp only [storeBlock, changeFirstBlock, hrecord, hbegin] at hreads ⊢
  by_cases hseq : (copyBytesToBlockInfo e).seq = firstBlockSeq
  · simp only [if_pos hseq] at hreads ⊢
    have htimecode : ∀ r ∈ changeTimecodeReads d, r.Same d e := fun r hr =>
      hreads r (List.mem_append_left _ hr)
    rcases changeTimecode_same (beginBlock (copyBytesToBlockInfo e) w) htimecode with
      ⟨fault, hd, he⟩ | ⟨w', j, l, hid, hblock, hd, he⟩
    · rw [hd, he]
      rfl
    · have hpayload := hreads ⟨blockinfoBytes, (copyBytesToBlockInfo e).bytes.toNat⟩ (by
        rw [if_pos hid]
        exact List.mem_append_right _ List.mem_cons_self)
      obtain ⟨hinfo', hpayload'⟩ := splice_put_same (k := j) (l := l) hinfo hpayload
      have hend := endBlock_same k (w := w') hinfo' (by rw [hblock, hbegin]; exact hpayload')
      rw [hd, he]
      exact congrArg Except.ok hend
  · simp only [if_neg hseq] at hreads ⊢
    exact congrArg Except.ok (endBlock_same k hinfo (hreads _ List.mem_cons_self))

theorem assembleBlock_same {k : UInt16} {w : Webm}
    (h : ∀ r ∈ assembleBlockReads d k w, r.Same d e) :
    assembleBlock d k w = assembleBlock e k w := by
  have hinfo := h _ List.mem_cons_self
  have hrest := fun r hr => h r (List.mem_cons_of_mem _ hr)
  have htake : d.take blockinfoBytes = e.take blockinfoBytes := take_same hinfo
  have hrecord := copyBytesToBlockInfo_same hinfo
  simp only [Buf.drop_zero] at hrecord
  unfold assembleBlock
  simp only [← htake, ← hrecord]
  by_cases halloc : (!(w.clusterAllocated && w.blockAllocated)) = true
  · rw [if_pos halloc, if_pos halloc]
  rw [if_neg halloc, if_neg halloc]
  by_cases hstart : d.take blockinfoBytes = blockinfoStart
  · rw [if_pos hstart] at hrest
    rw [if_pos hstart, if_pos hstart, take_same (hrest _ List.mem_cons_self)]
  rw [if_neg hstart, if_neg hstart]
  by_cases hend : d.take blockinfoBytes = blockinfoEnd
  · rw [if_pos hend, if_pos hend]
  rw [if_neg hend, if_neg hend]
  by_cases hold : isOldBlockSeq (copyBytesToBlockInfo d) w = true
  · rw [if_pos hold, if_pos hold]
  rw [if_neg hold, if_neg hold]
  rw [if_neg hstart, if_neg hend] at hrest
  simp only [halloc, hold, Bool.false_eq_true, Bool.or_self, if_false] at hrest
  exact storeBlock_same _ hinfo hrest

end Same

/-! ## Every handler -/

/-- The data of a packet. -/
def Event.data : Event → Buf
  | .setup data .. | .id data | .initialStatus data _ | .advertise data _ | .block data _ |
    .connect data | .depart data | .detach data | .reqList data | .resList data _ |
    .accept data | .unaccept data | .keepAlive data | .keepAliveRes data => data
  | _ => Buf.zero

/-- The packet with other data. -/
def Event.withData (data : Buf) : Event → Event
  | .setup _ k saddr source => .setup data k saddr source
  | .id _ => .id data
  | .initialStatus _ k => .initialStatus data k
  | .advertise _ k => .advertise data k
  | .block _ k => .block data k
  | .connect _ => .connect data
  | .depart _ => .depart data
  | .detach _ => .detach data
  | .reqList _ => .reqList data
  | .resList _ k => .resList data k
  | .accept _ => .accept data
  | .unaccept _ => .unaccept data
  | .keepAlive _ => .keepAlive data
  | .keepAliveRes _ => .keepAliveRes data
  | e => e

section Handlers

variable {d e : Buf}

theorem readU16_same_zero (h : Region.Same d e ⟨0, 2⟩) : readU16 d = readU16 e := by
  have hdrop := readU16_same h
  rwa [Buf.drop_zero, Buf.drop_zero] at hdrop

theorem readU32_same_zero (h : Region.Same d e ⟨0, 4⟩) : readU32 d = readU32 e := by
  have hdrop := readU32_same h
  rwa [Buf.drop_zero, Buf.drop_zero] at hdrop

theorem copyBytesToNodeStatus_same_zero (old : NodeStatus)
    (h : Region.Same d e ⟨0, nodeStatusBytes⟩) :
    copyBytesToNodeStatus old d = copyBytesToNodeStatus old e := by
  have hdrop := copyBytesToNodeStatus_same old h
  rwa [Buf.drop_zero, Buf.drop_zero] at hdrop

theorem setupChild_same {n : Node} (ip : UInt32) (port : UInt16) (i : Fin maxChildNum)
    (hip : Region.Same d e ⟨0, 4⟩)
    (hid : n.myStatus.id ≠ originId → Region.Same d e ⟨4, 2⟩ ∧ Region.Same d e ⟨6, 4⟩) :
    setupChild d ip port i n = setupChild e ip port i n := by
  simp only [setupChild, readU32_same_zero hip]
  by_cases horigin : n.myStatus.id = originId
  · simp only [if_pos horigin]
  · simp only [if_neg horigin, readU16_same (hid horigin).1, readU32_same (hid horigin).2]

theorem nodeSetup_same {env : Env} {saddr : UInt32} {source : UInt16} {n : Node}
    (h : AdmitsSetup env n ∧ n.webm.clusterAllocated ∧ n.webm.childBlocksAllocated →
      Region.Same d e ⟨0, 4⟩ ∧
        (n.myStatus.id ≠ originId → Region.Same d e ⟨4, 2⟩ ∧ Region.Same d e ⟨6, 4⟩)) :
    nodeSetup env d saddr source n = nodeSetup env e saddr source n := by
  simp only [nodeSetup]
  split
  · rfl
  · next hdraw =>
    split
    · rfl
    · next hcache =>
      cases hfree : checkChildNum n with
      | none => rfl
      | some i =>
          dsimp only
          split
          · rfl
          · next halloc =>
            have hadmits : AdmitsSetup env n :=
              ⟨not_not.mp hdraw, hcache, by rw [hfree]; exact Option.some_ne_none i⟩
            have hallocated : n.webm.clusterAllocated ∧ n.webm.childBlocksAllocated := by
              simpa using halloc
            obtain ⟨hip, hid⟩ := h ⟨hadmits, hallocated⟩
            rw [setupChild_same (n := renewDstIPandMAC _ _ _ n) _ _ i hip hid]

theorem nodeInitialStatus_same (env : Env) (n : Node) {k : UInt16}
    (h : ∀ r ∈ handlerReads env n (.initialStatus d k), r.Same d e) :
    nodeInitialStatus env d k n = nodeInitialStatus env e k n := by
  obtain ⟨htimecode, hmy, hparent, hlist⟩ : Region.Same d e ⟨0, 8⟩ ∧
      Region.Same d e ⟨8, nodeStatusBytes⟩ ∧
      Region.Same d e ⟨nodeStatusBytes + 8, nodeStatusBytes⟩ ∧
      ∀ r ∈ statusRegions (nodeStatusBytes * 2 + 8)
        (((k.toNat : Int) - 8).tdiv nodeStatusBytes - 2).toNat, r.Same d e := by
    simpa only [handlerReads, List.forall_mem_cons] using h
  have hoffset := fun acc => addTimecodeOffset_same acc htimecode
  simp only [Buf.drop_zero] at hoffset
  simp only [nodeInitialStatus, hoffset, copyBytesToNodeStatus_same _ hmy,
    copyBytesToNodeStatus_same _ hparent, readStatuses_same hlist]

theorem nodeAdvertise_same (env : Env) (n : Node) {k : UInt16}
    (h : ∀ r ∈ handlerReads env n (.advertise d k), r.Same d e) :
    nodeAdvertise env d k n = nodeAdvertise env e k n := by
  obtain ⟨had, hlist⟩ : Region.Same d e ⟨0, nodeStatusBytes⟩ ∧
      ∀ r ∈ statusRegions nodeStatusBytes (k.toNat / nodeStatusBytes - 1), r.Same d e := by
    simpa only [handlerReads, List.forall_mem_cons] using h
  simp only [nodeAdvertise, copyBytesToNodeStatus_same_zero _ had, readStatuses_same hlist]

theorem nodeConnect_same (env : Env) (n : Node) (h : Region.Same d e ⟨0, nodeStatusBytes⟩) :
    nodeConnect env d n = nodeConnect env e n := by
  simp only [nodeConnect, connectChild, copyBytesToNodeStatus_same_zero _ h]

theorem nodeAccept_same (env : Env) (n : Node) (h : Region.Same d e ⟨0, nodeStatusBytes⟩)
    (h' : Region.Same d e ⟨nodeStatusBytes, 8⟩) : nodeAccept env d n = nodeAccept env e n := by
  simp only [nodeAccept, copyBytesToNodeStatus_same_zero _ h, addTimecodeOffset_same _ h']

end Handlers

theorem step_same {env : Env} {n : Node} {e : Event} {d : Buf}
    (h : ∀ r ∈ handlerReads env n e, r.Same e.data d) :
    n.step .peer env (e.withData d) = n.step .peer env e := by
  cases e with
  | setup data k saddr source =>
      refine (nodeSetup_same (n := n) fun hadmits => ?_).symm
      rw [handlerReads, if_pos hadmits, List.forall_mem_cons] at h
      refine ⟨h.1, fun hid => ?_⟩
      have hrest := h.2
      rw [if_neg hid] at hrest
      exact ⟨hrest _ List.mem_cons_self, hrest _ (List.mem_cons_of_mem _ List.mem_cons_self)⟩
  | id data =>
      have hid := readU16_same_zero (h _ List.mem_cons_self)
      have hip := readU32_same (h _ (List.mem_cons_of_mem _ List.mem_cons_self))
      simp only [Event.data] at hid hip
      simp only [Event.withData, Node.step, nodeID, hid, hip]
  | initialStatus data k => exact congrArg Except.ok (nodeInitialStatus_same env n h).symm
  | advertise data k => exact congrArg Except.ok (nodeAdvertise_same env n h).symm
  | block data k =>
      have hsame := assembleBlock_same (k := k) (w := n.webm) h
      simp only [Event.withData, Node.step, hsame]
  | connect data => exact (nodeConnect_same env n (h _ List.mem_cons_self)).symm
  | depart data =>
      have hstatus := copyBytesToNodeStatus_same_zero NodeStatus.zero (h _ List.mem_cons_self)
      simp only [Event.data] at hstatus
      simp only [Event.withData, Node.step, nodeDepart, hstatus]
  | detach data =>
      have hseq := readU16_same_zero (h _ List.mem_cons_self)
      simp only [Event.data] at hseq
      simp only [Event.withData, Node.step, nodeDetach, hseq]
  | reqList data =>
      have hid := readU16_same_zero (h _ List.mem_cons_self)
      simp only [Event.data] at hid
      simp only [Event.withData, Node.step, nodeReqList, hid]
  | resList data k =>
      have hlist := readStatuses_same h
      simp only [Buf.drop_zero, Event.data] at hlist
      simp only [Event.withData, Node.step, nodeResList, hlist]
  | accept data =>
      exact congrArg Except.ok (nodeAccept_same env n (h _ List.mem_cons_self)
        (h _ (List.mem_cons_of_mem _ List.mem_cons_self))).symm
  | unaccept data =>
      have hid := readU16_same_zero (h _ List.mem_cons_self)
      simp only [Event.data] at hid
      simp only [Event.withData, Node.step, nodeUnaccept, hid]
  | keepAlive data =>
      have hid := readU16_same_zero (h _ List.mem_cons_self)
      simp only [Event.data] at hid
      simp only [Event.withData, Node.step, nodeKeepAlive, hid]
  | keepAliveRes data =>
      have hid := readU16_same_zero (h _ List.mem_cons_self)
      simp only [Event.data] at hid
      simp only [Event.withData, Node.step, nodeKeepAliveRes, hid]
  | _ => rfl

/-! ## Frames -/

theorem handler_withData (protocol : UInt8) (d e : Buf) (k : UInt16) (saddr : UInt32)
    (source : UInt16) :
    handler protocol e k saddr source =
      (handler protocol d k saddr source).map (Event.withData e) := by
  simp only [handler, apply_ite (Option.map (Event.withData e)), Option.map_some, Option.map_none,
    Event.withData]

theorem handler_data (protocol : UInt8) (d : Buf) (k : UInt16) (saddr : UInt32)
    (source : UInt16) :
    (handler protocol d k saddr source).map Event.data =
      (handler protocol d k saddr source).map fun _ => d := by
  simp only [handler, apply_ite (Option.map Event.data), apply_ite (Option.map fun _ => d),
    Option.map_some, Option.map_none, Event.data]

theorem dispatch_same {f g : Buf} (h : ∀ i, i < headerBytes → f i = g i) :
    dispatch g = (dispatch f).map (Event.withData (Frame.data g)) ∧ Frame.len g = Frame.len f := by
  have hregion : ∀ k n, k + n ≤ headerBytes → Region.Same g f ⟨k, n⟩ := by
    intro k n hk i hi
    have hi' : i < n := hi
    exact (h (k + i) (by omega)).symm
  have hlen : Frame.len g = Frame.len f := readU16_same (hregion 38 2 (by decide))
  have hsaddr : Frame.saddr g = Frame.saddr f :=
    congrArg htonl (readU32_same (hregion 26 4 (by decide)))
  have hsource : Frame.source g = Frame.source f :=
    congrArg htons (readU16_same (hregion 34 2 (by decide)))
  have hprotocol : Frame.protocol g = Frame.protocol f := (h 42 (by decide)).symm
  have hdataBytes : Frame.dataBytes g = Frame.dataBytes f := by
    rw [Frame.dataBytes, hlen, Frame.dataBytes]
  refine ⟨?_, hlen⟩
  rw [dispatch, hsaddr, hsource, hprotocol, hdataBytes]
  exact handler_withData _ _ _ _ _ _

theorem dispatch_data {f : Buf} {e : Event} (h : dispatch f = some e) : e.data = Frame.data f := by
  have hdata := handler_data (Frame.protocol f) (Frame.data f) (Frame.dataBytes f) (Frame.saddr f)
    (Frame.source f)
  rw [← dispatch, h, Option.map_some, Option.map_some] at hdata
  exact Option.some.inj hdata

theorem frameReads_inside (env : Env) (n : Node) (f : Buf) (k : Nat) :
    (∀ r ∈ frameReads env n f, r.Inside k) ↔ frameNeeds env n f ≤ k := by
  unfold frameReads frameNeeds
  cases hevent : dispatch f with
  | some e => exact handlerReads_inside env n e k
  | none =>
      rw [List.forall_mem_singleton]
      simp only [Region.Inside]
      omega

/-- The handler of a frame of `received` bytes reads received bytes only when and only
when the frame is as long as the handler needs; and then the outcome, the stored file
included, is a function of the bytes received. -/
theorem receive_inside_frame {env : Env} {n : Node} {f : Buf} {received : Nat}
    (haddressed : Addressed n f) :
    ((∀ r ∈ frameReads env n f, ∀ i, i < r.bytes → headerBytes + (r.start + i) < received) ↔
      frameNeeds env n f ≤ received - headerBytes) ∧
    (frameNeeds env n f ≤ received - headerBytes →
      ∀ g : Buf, (∀ i, i < max headerBytes received → f i = g i) →
        Addressed n g ∧ handleFrame env g n = handleFrame env f n) := by
  have hinside : (∀ r ∈ frameReads env n f,
      ∀ i, i < r.bytes → headerBytes + (r.start + i) < received) ↔
      frameNeeds env n f ≤ received - headerBytes := by
    rw [← frameReads_inside]
    refine forall₂_congr fun r _ => ?_
    constructor
    · intro hall
      rcases Nat.eq_zero_or_pos r.bytes with hzero | hpos
      · exact .inl hzero
      · have hlast := hall (r.bytes - 1) (by omega)
        exact .inr (by omega)
    · rintro (hzero | hend) i hi
      · omega
      · omega
  refine ⟨hinside, fun hneeds g hsame => ?_⟩
  have hheader : ∀ i, i < headerBytes → f i = g i := fun i hi =>
    hsame i (lt_of_lt_of_le hi (le_max_left _ _))
  have hregion : ∀ k m, k + m ≤ headerBytes → Region.Same g f ⟨k, m⟩ := by
    intro k m hk i hi
    have hi' : i < m := hi
    exact (hheader (k + i) (by omega)).symm
  obtain ⟨hdispatch, hlen⟩ := dispatch_same hheader
  constructor
  · obtain ⟨htype, hdaddr, hdest⟩ := haddressed
    exact ⟨(readU16_same (hregion 12 2 (by decide))).trans htype,
      (congrArg htonl (readU32_same (hregion 30 4 (by decide)))).trans hdaddr,
      (readU16_same (hregion 36 2 (by decide))).trans hdest⟩
  · have hreads := hinside.mpr hneeds
    unfold frameReads at hreads
    unfold handleFrame
    rw [hdispatch]
    cases hevent : dispatch f with
    | none => rfl
    | some e =>
        rw [hevent] at hreads
        refine step_same fun r hr i hi => ?_
        rw [dispatch_data hevent]
        exact hsame _ (lt_of_lt_of_le (hreads r hr i hi) (le_max_right _ _))

/-! ## Two frames -/

/-- A frame from 10.0.0.1 for the peer at 10.0.0.2. -/
def frameOf (protocol : UInt8) (len : UInt16) (data : List UInt8) : Buf :=
  packetData (List.replicate 12 0 ++ [0x08, 0x00] ++ List.replicate 12 0 ++ [10, 0, 0, 1] ++
    [10, 0, 0, 2] ++ toBe 2 12345 ++ toBe 2 12346 ++ toBe 2 len.toNat ++ [0, 0, protocol] ++ data)

/-- An ID message, all of its 49 bytes received. -/
def idFrame : Buf := frameOf idProto 15 (toBe 2 7 ++ [10, 0, 0, 2])

theorem receive_inside_frame_id : Addressed firstPeer idFrame ∧
    frameNeeds (Env.clock ⟨1, 0⟩) firstPeer idFrame = 6 ∧
    ∀ g : Buf, (∀ i, i < 49 → idFrame i = g i) →
      handleFrame (Env.clock ⟨1, 0⟩) g firstPeer
        = handleFrame (Env.clock ⟨1, 0⟩) idFrame firstPeer := by
  have haddressed : Addressed firstPeer idFrame := by
    unfold Addressed
    decide +kernel
  have hneeds : frameNeeds (Env.clock ⟨1, 0⟩) firstPeer idFrame = 6 := by rfl
  have hfits : frameNeeds (Env.clock ⟨1, 0⟩) firstPeer idFrame ≤ 49 - headerBytes := by
    rw [hneeds]
    decide
  refine ⟨haddressed, hneeds, fun g hsame => ?_⟩
  exact ((receive_inside_frame haddressed).2 hfits g hsame).2

/-- A WebM header message that announces four bytes of header in its UDP length.  Only 61
bytes are received: the four bytes are what lies in `packet`. -/
def shortFrame (stale : UInt8) : Buf :=
  frameOf blockProto 31 (blockinfoStart ++ List.replicate 4 stale)

/-- Bytes that were not received are read, and written to the file. -/
theorem shortFrame_stale : ∃ n, Run (NodeStep .peer) firstPeer
      [(Env.clock ⟨1, 0⟩,
        .initialStatus (initialStatusData [statusOf 5 2 12346 1, statusOf 0 1 12345 0]) 68)] n ∧
    (Addressed n (shortFrame 1) ∧ Addressed n (shortFrame 2) ∧
      ∀ i, i < 61 → shortFrame 1 i = shortFrame 2 i) ∧
    (∃ r ∈ frameReads (Env.clock ⟨2, 0⟩) n (shortFrame 1),
      ∃ i, i < r.bytes ∧ 61 ≤ headerBytes + (r.start + i)) ∧
    (handleFrame (Env.clock ⟨2, 0⟩) (shortFrame 1) n).map (·.webm.file) ≠
      (handleFrame (Env.clock ⟨2, 0⟩) (shortFrame 2) n).map (·.webm.file) := by
  refine ⟨_, .cons rfl (.nil _), ⟨?_, ?_, ?_⟩, ⟨⟨18, 4⟩, ?_, 0, by decide, by decide⟩, ?_⟩
  · unfold Addressed
    decide +kernel
  · unfold Addressed
    decide +kernel
  · decide +kernel
  · decide +kernel
  · decide +kernel

end P2PStream
