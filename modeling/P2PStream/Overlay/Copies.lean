/-
# `P2PStream.Overlay.Copies` — the origin and a relay cut a cluster alike

The origin cuts a cluster while it reads it, and finds the next block by what it has
read.  A relay cuts its own copy of the cluster, whose Timecode it has rewritten, and
finds the next block by the record of the one before; between two calls its file and the
child may have changed in any way that leaves the cluster in the file, and the child may
have gone to another relay.

The two agree while `SearchWebM` is not cut by the relay's `TOTAL_FILE_BYTES` and the
32-bit sum `pos + bytes` does not wrap.
-/
import P2PStream.Overlay.Timecodes
import P2PStream.Peer.Relay
import P2PStream.Webm.Alike

namespace P2PStream

open Lib

/-! ## Cutting a relay's copy -/

/-- The node, with the cursor of the child in slot `i`. -/
def Node.withCursor (n : Node) (i : Fin maxChildNum) (block : Block) : Node :=
  { n with webm := n.webm.setChildBlock i block }

@[simp] theorem Node.withCursor_cursor (n : Node) (i : Fin maxChildNum) (block : Block) :
    (n.withCursor i block).webm.currentChildBlock i = block := Function.update_self ..

/-- `SendCacheBlock` until it answers `CLUSTER_END`, with the cursor moved as in
`SendMulStream`: the records, and the cursor at the next cluster.  `view fuel` is the relay
that the child has in a round. -/
def relayCluster (i : Fin maxChildNum) (view : Nat → Env × Node) :
    Nat → Block → Except Fault (List BlockInfo × Block)
  | 0, _ => .error .hang
  | fuel + 1, block => do
      let (n, status) ← sendCacheBlock (view fuel).1 i ((view fuel).2.withCursor i block)
      let block' := n.webm.currentChildBlock i
      if status = clusterEnd then
        return ([block'.info], renewBlock block')
      else
        let (rest, last) ← relayCluster i view fuel (shiftToPreBlock block')
        return (block'.info :: rest, last)

section Rounds

variable {i : Fin maxChildNum} {view : Nat → Env × Node} {fuel : Nat} {block : Block} {n : Node}
variable {status : Int}

theorem relayCluster_end (h : sendCacheBlock (view fuel).1 i ((view fuel).2.withCursor i block) =
    .ok (n, clusterEnd)) : relayCluster i view (fuel + 1) block =
      .ok ([(n.webm.currentChildBlock i).info], renewBlock (n.webm.currentChildBlock i)) := by
  simp only [relayCluster, h, bind, Except.bind]
  rfl

theorem relayCluster_cons (h : sendCacheBlock (view fuel).1 i ((view fuel).2.withCursor i block) =
    .ok (n, status)) (hstatus : status ≠ clusterEnd) {rest : List BlockInfo} {last : Block}
    (hrest : relayCluster i view fuel (shiftToPreBlock (n.webm.currentChildBlock i)) =
      .ok (rest, last)) :
    relayCluster i view (fuel + 1) block =
      .ok ((n.webm.currentChildBlock i).info :: rest, last) := by
  simp only [relayCluster, h, bind, Except.bind, if_neg hstatus, hrest]
  rfl

end Rounds

/-- `P` holds at each of these calls: of the number of bytes cut before, and of the relay. -/
def EachCall (P : Nat → Env → Node → Prop) (i : Fin maxChildNum) (view : Nat → Env × Node) :
    Nat → Nat → Block → Prop
  | 0, _, _ => True
  | fuel + 1, k, block => P k (view fuel).1 ((view fuel).2.withCursor i block) ∧
      ∀ n status, sendCacheBlock (view fuel).1 i ((view fuel).2.withCursor i block) =
          .ok (n, status) → status ≠ clusterEnd →
        EachCall P i view fuel (k + (n.webm.currentChildBlock i).info.bytes.toNat)
          (shiftToPreBlock (n.webm.currentChildBlock i))

/-! ## What a call needs -/

/-- What a call of `SendCacheBlock` behind `k` bytes of the cluster needs: the cluster is in the
file, `TOTAL_FILE_BYTES` lies neither inside of what is left of it in the window nor inside of
the id behind it, and the position of the block fits 32 bits. -/
structure CutsWhole (bytes : List UInt8) (i : Fin maxChildNum) (k : Nat) (env : Env) (n : Node) :
    Prop where
  copy : ∃ f : Surroundings, f.Hold bytes (n.webm.currentChildBlock i).prev.clusterSeq n.webm ∧
    Uncut n.webm.totalFileBytes (f.start + k) (min 1000 (bytes.length - k + 4))
  fits : clusterHeaderBytes + k < 2 ^ 32
  past : ∀ j, env.past j = 0

theorem CutsWhole.send {bytes : List UInt8} {i : Fin maxChildNum} {k : Nat} {env : Env} {n : Node}
    (h : CutsWhole bytes i k env n) (hk : k ≤ bytes.length)
    (hpos : (n.webm.currentChildBlock i).prev.pos +
      (n.webm.currentChildBlock i).prev.bytes.toUInt32 = UInt32.ofNat (clusterHeaderBytes + k)) :
    ∃ data stop, IsStop stop ∧ Window data (bytes.drop k ++ stop) 1000 ∧
      ∀ block ret, getNextBlockByBytes (n.webm.currentChildBlock i) maxBlockBytes data =
          some (block, ret) → block.info.bytes.toNat ≤ 1000 →
        ∃ n', sendCacheBlock env i n = .ok (n', ret) ∧
          (n'.webm.currentChildBlock i).info = block.info := by
  obtain ⟨f, hf, huncut⟩ := h.copy
  have hoffset := hf.calOffset _ hk hpos h.fits env.fileBuf
  rw [← List.length_drop] at huncut
  refine ⟨_, f.behind.take 4, hf.stop.take,
    relayWindow_cut h.past (hf.drop_file hk) hf.stop huncut, fun block ret hblock hle => ?_⟩
  obtain ⟨w, hread⟩ := readCacheBlock_eq hoffset hblock
  obtain ⟨n', hsend, hinfo, -⟩ := sendCacheBlock_payload hread hle (readCacheBlock_length hread)
  exact ⟨n', hsend, hinfo⟩

/-! ## One round -/

/-- From here on the origin and the relay make the same records. -/
def RunsAlike (stale : Nat → Buf) (i : Fin maxChildNum) (view : Nat → Env × Node) (fuel : Nat)
    (w : Webm) (x y : Block) : Prop :=
  ∃ blocks w' x' infos last, readCluster stale fuel w x = some (blocks, w', x') ∧
    relayCluster i view fuel y = .ok (infos, last) ∧
    infos.map BlockInfo.record = blocks.map fun b => b.2.record

section Round

variable {stale : Nat → Buf} {i : Fin maxChildNum} {view : Nat → Env × Node} {fuel : Nat}
variable {w w' : Webm} {x x' y : Block} {n : Node} {ret : Int}

theorem RunsAlike.cons (hread : readBlock (stale fuel) x w = some (w', x', ret))
    (hsend : sendCacheBlock (view fuel).1 i ((view fuel).2.withCursor i y) = .ok (n, ret))
    (hrecord : (n.webm.currentChildBlock i).info.record = x'.info.record)
    (hnext : ret ≠ clusterEnd → RunsAlike stale i view fuel (seekForNextBlock x' w')
      (shiftToPreBlock x') (shiftToPreBlock (n.webm.currentChildBlock i))) :
    RunsAlike stale i view (fuel + 1) w x y := by
  by_cases hend : ret = clusterEnd
  · rw [hend] at hread hsend
    refine ⟨_, _, _, _, _, readCluster_end hread, relayCluster_end hsend, ?_⟩
    rw [List.map_singleton, List.map_singleton, hrecord]
  · obtain ⟨blocks, w'', x'', infos, last, hloop, hrelay, hmap⟩ := hnext hend
    refine ⟨_, _, _, _, _, readCluster_cons hread hend hloop, relayCluster_cons hsend hend hrelay,
      ?_⟩
    rw [List.map_cons, List.map_cons, hrecord, hmap]

/-- What the origin has read of the cluster, and what the relay has cut of its copy. -/
structure Together (w : Webm) (rest stop : List UInt8) (x y : Block) (k : Nat) : Prop where
  reading : Reading w rest stop
  cursor : Cursor x.prev rest
  bytes : x.info.bytes = 0
  pieceBytes : x.info.totalPieceBytes = 0
  pos : y.prev.pos + y.prev.bytes.toUInt32 = UInt32.ofNat (clusterHeaderBytes + k)

variable {rest stop bytes : List UInt8} {k : Nat}

theorem Together.round (h : Together w rest stop x y k) (hstop : IsStop stop)
    (hstale : ∀ k j, 1000 ≤ j → stale k j = 0)
    (hpos : (if x.prev.status = statusInit then UInt32.ofNat clusterHeaderBytes
      else x.prev.pos + x.prev.bytes.toUInt32) = UInt32.ofNat (clusterHeaderBytes + k))
    (hcall : CutsWhole bytes i k (view fuel).1 ((view fuel).2.withCursor i y))
    (hk : k ≤ bytes.length)
    (halike : ∀ b c stop', IsStop stop' → Window b (rest ++ stop.take 4) 1000 →
      Window c (bytes.drop k ++ stop') 1000 →
      AnswerAlike (getNextBlockByBytes x maxBlockBytes b) (getNextBlockByBytes y maxBlockBytes c)) :
    ∃ w' info n ret, readBlock (stale fuel) x w = some (w', ⟨info, x.prev⟩, ret) ∧
      sendCacheBlock (view fuel).1 i ((view fuel).2.withCursor i y) = .ok (n, ret) ∧
      (n.webm.currentChildBlock i).info.record = info.record ∧
      info.pos = UInt32.ofNat (clusterHeaderBytes + k) ∧ Cut rest info ret := by
  have hwindow := h.reading.window hstop (hstale fuel)
  obtain ⟨info, ret, hnext, hinfoPos, -, -, hcut⟩ :=
    getNextBlockByBytes_step x hstop.take h.cursor hwindow h.bytes h.pieceBytes
  obtain ⟨data, stop', hstop', hdata, hsend⟩ := hcall.send hk (by
    rw [Node.withCursor_cursor]
    exact h.pos)
  obtain ⟨a, b, ret', hx, hy, hrecord⟩ := halike _ _ _ hstop' hwindow hdata
  rw [hnext] at hx
  cases hx
  have hbytes : b.info.bytes = info.bytes := congrArg CutRecord.bytes hrecord
  rw [Node.withCursor_cursor] at hsend
  obtain ⟨n, hn, hinfo⟩ := hsend b ret hy (by rw [hbytes]; exact hcut.bytes_le)
  exact ⟨_, info, n, ret, readBlock_eq hnext, hn, by rw [hinfo]; exact hrecord,
    hinfoPos.trans hpos, hcut⟩

theorem Together.next (h : Together w rest stop x y k) {stale : Buf} {info : BlockInfo}
    (hread : readBlock stale x w = some (w', ⟨info, x.prev⟩, ret))
    (hrecord : (n.webm.currentChildBlock i).info.record = info.record)
    (hpos : info.pos = UInt32.ofNat (clusterHeaderBytes + k)) (hcut : Cut rest info ret)
    (hend : ret ≠ clusterEnd) :
    Together (seekForNextBlock ⟨info, x.prev⟩ w') (rest.drop info.bytes.toNat) stop
      (shiftToPreBlock ⟨info, x.prev⟩) (shiftToPreBlock (n.webm.currentChildBlock i))
      (k + info.bytes.toNat) := by
  obtain ⟨before, -, hfp⟩ := h.reading.before
  obtain ⟨r, hnext⟩ := seekForNextBlock_readBlock (by omega) hread
  have hadvance := h.reading.advance (seekForNextBlock ⟨info, x.prev⟩ w') hcut.bytes_le_rest
    (by rw [hnext]) (by rw [hnext]) (by rw [hnext]) (by rw [hnext])
  refine ⟨hadvance, (hcut.next hend).2, rfl, rfl, ?_⟩
  have hpos' : (n.webm.currentChildBlock i).info.pos = info.pos := congrArg CutRecord.pos hrecord
  have hbytes : (n.webm.currentChildBlock i).info.bytes = info.bytes :=
    congrArg CutRecord.bytes hrecord
  show (n.webm.currentChildBlock i).info.pos + (n.webm.currentChildBlock i).info.bytes.toUInt32 = _
  rw [hpos', hbytes, hpos, ← UInt32.ofNat_uInt16ToNat, ← UInt32.ofNat_add, Nat.add_assoc]

/-! ## The whole cluster -/

theorem Together.runsAlike (bytes : List UInt8) (hstop : IsStop stop)
    (hstale : ∀ k j, 1000 ≤ j → stale k j = 0) :
    ∀ (fuel : Nat) (w : Webm) (rest : List UInt8) (x y : Block) (k : Nat),
      rest.length < fuel → Together w rest stop x y k → x.prev.status ≠ statusInit →
      y.info.record = x.info.record → y.prev.record = x.prev.record → bytes.drop k = rest →
      k ≤ bytes.length → EachCall (CutsWhole bytes i) i view fuel k y →
      RunsAlike stale i view fuel w x y := by
  intro fuel
  induction fuel with
  | zero => intro _ rest _ _ _ hlt; exact absurd hlt (Nat.not_lt_zero _)
  | succ fuel ih =>
      intro w rest x y k hlt h hx hinfo hprev hrest hk hcalls
      obtain ⟨hcall, hlater⟩ := hcalls
      have hpos : (if x.prev.status = statusInit then UInt32.ofNat clusterHeaderBytes
          else x.prev.pos + x.prev.bytes.toUInt32) = UInt32.ofNat (clusterHeaderBytes + k) := by
        have hxpos : y.prev.pos = x.prev.pos := congrArg CutRecord.pos hprev
        have hxbytes : y.prev.bytes = x.prev.bytes := congrArg CutRecord.bytes hprev
        rw [if_neg hx, ← hxpos, ← hxbytes]
        exact h.pos
      obtain ⟨w', info, n, ret, hread, hsend, hrecord, hinfoPos, hcut⟩ :=
        h.round hstop hstale hpos hcall hk fun b c stop' hstop' hb hc =>
          getNextBlockByBytes_later_alike hstop.take hstop' h.cursor hx hb (hrest ▸ hc) hinfo hprev
      refine RunsAlike.cons hread hsend hrecord fun hend => ?_
      have hbytes : (n.webm.currentChildBlock i).info.bytes = info.bytes :=
        congrArg CutRecord.bytes hrecord
      have hle := hcut.bytes_le_rest
      have hpos0 := (hcut.next hend).1
      have hlength := congrArg List.length hrest
      rw [List.length_drop] at hlength
      refine ih _ _ _ _ (k + info.bytes.toNat) (by rw [List.length_drop]; omega)
        (h.next hread hrecord hinfoPos hcut hend) ?_ rfl hrecord ?_ (by omega) ?_
      · show info.status ≠ statusInit
        rcases hcut.status_mem with h | h | h <;> rw [h] <;> decide
      · rw [← List.drop_drop, hrest]
      · have hrun := hlater n ret hsend hend
        rw [hbytes] at hrun
        exact hrun

end Round

/-- The origin cuts a cluster, and a relay its copy of it, whose Timecode has other data: while
every call of the relay cuts the whole of what it needs, both loops end, with the same records. -/
theorem relayCluster_records (p : ClusterPayload) {data : List UInt8}
    (hdata : data.length = p.timecode.data.length) (before stop : List UInt8) {w : Webm}
    {x : Block} {stale : Nat → Buf} (hstop : IsStop stop)
    (hfile : w.file = before ++ (p.bytes ++ stop)) (hfp : w.fp = before.length)
    (hfpos : w.currentFposR ≤ w.fp) (htotal : w.fp + p.bytes.length + 4 ≤ w.totalFileBytes)
    (hstale : ∀ k j, 1000 ≤ j → stale k j = 0) (hx : x.prev.status = statusInit)
    (hbytes : x.info.bytes = 0) (hpiece : x.info.totalPieceBytes = 0) {fuel : Nat}
    (hfuel : p.bytes.length < fuel) {i : Fin maxChildNum} {view : Nat → Env × Node}
    (number : UInt16)
    (hcalls : EachCall (CutsWhole (p.withTimecode data hdata).bytes i) i view fuel 0
      ⟨BlockInfo.zero, clusterCursor number⟩) :
    RunsAlike stale i view fuel w x ⟨BlockInfo.zero, clusterCursor number⟩ := by
  obtain ⟨fuel, rfl⟩ : ∃ k, fuel = k + 1 := ⟨fuel - 1, by omega⟩
  obtain ⟨hcall, hlater⟩ := hcalls
  have hstart : Together w p.bytes stop x ⟨BlockInfo.zero, clusterCursor number⟩ 0 :=
    ⟨⟨⟨before, hfile, hfp⟩, hfpos, htotal⟩, .atStart p hx, hbytes, hpiece, rfl⟩
  obtain ⟨w', info, n, ret, hread, hsend, hrecord, hinfoPos, hcut⟩ :=
    hstart.round hstop hstale (by rw [if_pos hx]; rfl) hcall (Nat.zero_le _)
      fun b c stop' hstop' hb hc =>
        getNextBlockByBytes_first_alike p hdata hstop.take hstop' hb (by rwa [List.drop_zero] at hc)
          hx rfl hbytes rfl
  refine RunsAlike.cons hread hsend hrecord fun hend => ?_
  have htimecode := getNextBlockByBytes_timecode_le p hstop.take
    (hstart.reading.window hstop (hstale fuel)) hx hbytes (getNextBlockByBytes_of_readBlock hread)
  have hrecordBytes : (n.webm.currentChildBlock i).info.bytes = info.bytes :=
    congrArg CutRecord.bytes hrecord
  have hle := hcut.bytes_le_rest
  have hpos0 := (hcut.next hend).1
  have hlength := p.length_withTimecode hdata
  have hbehind := hstart.next hread hrecord hinfoPos hcut hend
  refine Together.runsAlike (p.withTimecode data hdata).bytes hstop hstale fuel _ _ _ _ _
    ?_ hbehind ?_ rfl hrecord ?_ ?_ ?_
  · rw [List.length_drop]
    omega
  · show info.status ≠ statusInit
    rcases hcut.status_mem with h | h | h <;> rw [h] <;> decide
  · rw [Nat.zero_add]
    exact p.drop_withTimecode hdata htimecode
  · omega
  · have hrun := hlater n ret hsend hend
    rw [hrecordBytes] at hrun
    exact hrun

/-! ## A cluster cut apart -/

/-- Cluster 6 at the origin. -/
def originOf6 : ClusterPayload where
  timecode := openingTimecode.element
  blocks := [simpleElement]
  isTimecode := ⟨by decide, by decide⟩
  areSimple := payloadOf6.areSimple
  first_le := by
    intro e he
    rw [← Option.mem_some_iff.mp he]
    decide
  rest_le := payloadOf6.rest_le

theorem originOf6_withTimecode : (originOf6.withTimecode [0] rfl).bytes = stored6 := by decide

/-- The origin at the head of its cluster 6. -/
def originCopy : Webm :=
  { Webm.start (originOf6.bytes ++ footer) with totalFileBytes := 32 }

theorem originCopy_reading : Reading originCopy originOf6.bytes footer where
  before := ⟨[], rfl, rfl⟩
  fpos := le_refl _
  total := by decide

theorem readCluster_originCopy (stale : Nat → Buf) (hstale : ∀ k j, 1000 ≤ j → stale k j = 0)
    (fuel : Nat) : ∃ block w' x',
      readCluster stale (fuel + 1) originCopy initBlock = some ([block], w', x') := by
  have hstop : IsStop footer := .inl (List.prefix_append _ _)
  have hwindow := originCopy_reading.window hstop (hstale fuel)
  have hholds := Window.holds (y := []) (by rwa [List.append_nil]) (by decide)
  obtain ⟨info, hnext, -⟩ := getNextBlockByBytes_inView initBlock hstop
    (Cursor.atStart originOf6 rfl) rfl (by decide) hholds
  exact ⟨_, _, _, readCluster_end (readBlock_eq hnext)⟩

theorem Node.withCursor_self {n : Node} {i : Fin maxChildNum} {block : Block}
    (h : n.webm.currentChildBlock i = block) : n.withCursor i block = n := by
  rw [← h]
  simp only [Node.withCursor, Webm.setChildBlock, Function.update_eq_self]

theorem calOffset_cutBlock {n : Node} {next : List UInt8} (h : Relaying next n) (stale : Buf) :
    (calOffset stale cutBlock (n.withCursor 0 ⟨BlockInfo.zero, cutBlock⟩).webm).2 =
      ((3456 : Nat) : Int) := by
  have hf := h.hold
  have hold : (relaySurroundings next).Hold stored6 6
      (n.withCursor 0 ⟨BlockInfo.zero, cutBlock⟩).webm :=
    ⟨hf.file, hf.mark, hf.stop, hf.size, hf.length, hf.headerBytes, hf.count, hf.view⟩
  have hoffset := hold.calOffset cutBlock (k := 20) (le_refl _) (by decide) (by decide) stale
  rw [relaySurroundings_start] at hoffset
  exact hoffset

/-- A relay whose `TOTAL_FILE_BYTES` lies inside of cluster 6 does not see its end, and makes two
records of it. -/
theorem Relaying.two {n : Node} (h : Relaying (simpleBytes 15) n) (now : Timeval) (fuel : Nat) :
    ∃ info last, relayCluster 0 (fun _ => (Env.clock now, n)) (fuel + 2)
      ⟨BlockInfo.zero, clusterCursor 6⟩ = .ok ([cutBlock, info], last) := by
  obtain ⟨n₁, hfirst, hinfo, -⟩ := h.cut now
  have hsend : sendCacheBlock (Env.clock now) 0
      (n.withCursor 0 ⟨BlockInfo.zero, clusterCursor 6⟩) = .ok (n₁, 1) := by
    rw [Node.withCursor_self h.cursor]
    exact hfirst
  have hnext : shiftToPreBlock (n₁.webm.currentChildBlock 0) = ⟨BlockInfo.zero, cutBlock⟩ :=
    congrArg (Block.mk BlockInfo.zero) hinfo
  let m := n.withCursor 0 ⟨BlockInfo.zero, cutBlock⟩
  have hcursor : m.webm.currentChildBlock 0 = ⟨BlockInfo.zero, cutBlock⟩ :=
    Node.withCursor_cursor ..
  have hstop : IsStop (footer ++ simpleBytes 15) := .inl (List.prefix_append _ _)
  have hfile : m.webm.file.drop 3456 = [] ++ (footer ++ simpleBytes 15) := by
    have hdrop := h.hold.drop_file (k := 20) (le_refl _)
    rw [relaySurroundings_start] at hdrop
    exact hdrop
  have hholds : (relayWindow (Env.clock now) m.webm 3456).Holds
      ([] ++ (footer ++ simpleBytes 15).take 4) := by
    refine relayWindow_inView hfile hstop (by decide) (.inl ?_)
    show n.webm.totalFileBytes < _
    rw [h.total]
    decide
  have hat : Cursor (m.webm.currentChildBlock 0).prev (payload []) := by
    rw [hcursor]
    exact .atElement [] (by decide) (fun hpiece => absurd hpiece (by decide))
      (fun _ he => absurd he List.not_mem_nil) (fun _ he => absurd he List.not_mem_nil)
  obtain ⟨info, hblock, hbytes⟩ := getNextBlockByBytes_inView (m.webm.currentChildBlock 0) hstop
    hat (by rw [hcursor]; rfl) (by decide) hholds
  obtain ⟨w, hread⟩ := readCacheBlock_eq
    (by rw [hcursor]; exact calOffset_cutBlock h _) hblock
  obtain ⟨n₂, hsecond, -, -⟩ := sendCacheBlock_payload hread (by rw [hbytes]; decide)
    (readCacheBlock_length hread)
  have hend : relayCluster 0 (fun _ => (Env.clock now, n)) (fuel + 1)
      (shiftToPreBlock (n₁.webm.currentChildBlock 0)) =
        .ok ([(n₂.webm.currentChildBlock 0).info], renewBlock (n₂.webm.currentChildBlock 0)) := by
    rw [hnext]
    exact relayCluster_end hsecond
  have hall : relayCluster 0 (fun _ => (Env.clock now, n)) (fuel + 1 + 1) _ = _ :=
    relayCluster_cons hsend (by decide) hend
  rw [hinfo] at hall
  exact ⟨_, _, hall⟩

/-- A relay whose `TOTAL_FILE_BYTES` lies behind cluster 6 makes the origin's records. -/
theorem relayCluster_records_long : ∃ ls n, Run (NodeStep .peer) firstPeer ls n ∧
    RunsAlike (fun _ => Buf.zero) 0 (fun _ => (Env.clock ⟨7, 0⟩, mulStreamStart n)) 21 originCopy
      initBlock ⟨BlockInfo.zero, clusterCursor 6⟩ := by
  obtain ⟨ls, n, hrun, h⟩ :=
    exists_relaying longOf7 (by decide) (by decide) (by decide) (by decide)
  have hnext : (longOf7.data.drop blockinfoBytes).take longOf7.info.bytes.toNat =
      simpleBytes 60 := by decide
  rw [hnext] at h
  refine ⟨ls, n, hrun.mono fun _ _ _ h => h.2, relayCluster_records originOf6
    (show [0].length = originOf6.timecode.data.length from rfl) []
    footer (.inl (List.prefix_append _ _)) rfl rfl (le_refl _) (by decide)
    (fun _ _ _ => rfl) rfl rfl rfl (by decide) 6 ⟨?_, fun n' status hsend hend => ?_⟩⟩
  · rw [originOf6_withTimecode, Node.withCursor_self h.cursor]
    refine ⟨⟨relaySurroundings (simpleBytes 60), ?_, .inr ?_⟩, by decide, fun _ => rfl⟩
    · rw [h.cursor]
      exact h.hold
    · rw [relaySurroundings_start, h.total]
      decide
  · obtain ⟨n₁, hsent⟩ := h.exists_send (Env.clock ⟨7, 0⟩)
    have hsend' : sendCacheBlock (Env.clock ⟨7, 0⟩) 0 (mulStreamStart n) = .ok (n', status) := by
      rw [← Node.withCursor_self h.cursor]
      exact hsend
    rw [hsent] at hsend'
    cases hsend'
    exact absurd rfl hend

/-- The origin makes one record of its cluster 6, and the relay two of its copy. -/
theorem relayed_apart : ∃ ls n, Run (NodeStep .peer) firstPeer ls n ∧
    (relaySurroundings (simpleBytes 15)).Hold (originOf6.withTimecode [0] rfl).bytes 6
      (mulStreamStart n).webm ∧
    ∃ blocks w' x' infos last,
      readCluster (fun _ => Buf.zero) 21 originCopy initBlock = some (blocks, w', x') ∧
      relayCluster 0 (fun _ => (Env.clock ⟨7, 0⟩, mulStreamStart n)) 21
        ⟨BlockInfo.zero, clusterCursor 6⟩ = .ok (infos, last) ∧
      infos.map BlockInfo.record ≠ blocks.map fun b => b.2.record := by
  obtain ⟨ls, n, hrun, h⟩ :=
    exists_relaying shortOf7 (by decide) (by decide) (by decide) (by decide)
  have hnext : (shortOf7.data.drop blockinfoBytes).take shortOf7.info.bytes.toNat =
      simpleBytes 15 := by decide
  rw [hnext] at h
  obtain ⟨block, w', x', horigin⟩ :=
    readCluster_originCopy (fun _ => Buf.zero) (fun _ _ _ => rfl) 20
  obtain ⟨info, last, hrelay⟩ := h.two ⟨7, 0⟩ 19
  refine ⟨ls, n, hrun.mono fun _ _ _ h => h.2, ?_, _, _, _, _, _, horigin, hrelay, ?_⟩
  · rw [originOf6_withTimecode]
    exact h.hold
  · intro heq
    exact absurd (congrArg List.length heq) (by simp)

end P2PStream
