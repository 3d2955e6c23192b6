/-
# `P2PStream.Origin.Overrun` — a cluster of `2 ^ 32` bytes

From `2 ^ 32` bytes on the sum `pos + bytes` of a cursor wraps.  `longFile` has a
cluster whose blocks are cut so that the sum wraps to 0: `CalOffset` then leads
back to the header of the cluster, which ends it for the child.  The child goes
on with the next cluster, and the SimpleBlock that was left is never sent.
-/
import P2PStream.Origin.InOrder

namespace P2PStream

open Lib

/-! ## Blocks of whole elements -/

theorem walk_greedy {r : Nat} {done rest front es : List Element} {e : Element}
    (hsplit : front ++ e :: es = done ++ rest) (hle : (payload done).length ≤ r)
    (hfront : (payload front).length ≤ r) (hlong : r < (payload front).length + e.bytes.length)
    (hend : rest = [] ∨ Blocked r done rest) : done = front := by
  rcases List.append_eq_append_iff.mp hsplit with ⟨more, rfl, hmore⟩ | ⟨more, rfl, hmore⟩
  · cases more with
    | nil => exact List.append_nil front
    | cons x xs =>
        obtain ⟨rfl, -⟩ := List.cons_eq_cons.mp hmore
        rw [payload_append, payload_cons, List.length_append, List.length_append] at hle
        omega
  · cases more with
    | nil => exact (List.append_nil done).symm
    | cons x xs =>
        rw [payload_append, payload_cons, List.length_append, List.length_append] at hfront
        rw [hmore] at hend
        rcases hend with hnil | ⟨hnil, -⟩ | ⟨y, ys, hrest, hlt⟩
        · cases hnil
        · cases hnil
        · obtain ⟨rfl, -⟩ := List.cons_eq_cons.mp hrest
          omega

section Blocks

variable (block : Block) {b : Buf} {stop : List UInt8} {e : Element} {es : List Element}

/-- A SimpleBlock of 1000 bytes in front of another makes a block of its own. -/
theorem getSimpleBlocksOrPiece_full (hstop : IsStop stop)
    (hsimple : ∀ x ∈ e :: es, IsSimpleBlock x) (he : e.bytes.length = 1000) (hes : es ≠ [])
    (hw : Window b (payload (e :: es) ++ stop) 1000) (hbytes : block.info.bytes = 0) :
    ∃ info ret, getSimpleBlocksOrPiece block maxBlockBytes b = some (⟨info, block.prev⟩, ret) ∧
      info.bytes.toNat = 1000 ∧ info.status = statusSimpleblock ∧ ret ≠ clusterEnd := by
  obtain ⟨x, xs, rfl⟩ := List.exists_cons_of_ne_nil hes
  have hreq : maxBlockBytes.toNat = 1000 := rfl
  have hx : 0 < x.bytes.length := List.length_pos_iff.mpr x.bytes_ne_nil
  obtain ⟨done, rest, status, hsplit, hle, hloop, hend⟩ :=
    walk_simpleBlocks hstop (show 1000 < 2 ^ 16 by decide) hsimple 0 1000 1002 0 rfl (by decide)
      (by simpa using hw)
  obtain rfl : done = [e] := walk_greedy (show [e] ++ x :: xs = done ++ rest from hsplit) hle
    (by simp [he]) (by simp [he, hx]) (hend.imp And.left And.left)
  obtain rfl : x :: xs = rest := (List.cons_eq_cons.mp hsplit).2
  obtain ⟨hnil, -⟩ | ⟨-, hstatus⟩ := hend
  · cases hnil
  rw [if_neg (List.cons_ne_nil e [])] at hstatus
  subst hstatus
  rw [Nat.zero_add] at hloop
  simp only [getSimpleBlocksOrPiece, getChankByBytes_eq _ maxBlockBytes hloop, Option.bind_eq_bind,
    Option.bind_some]
  rw [if_pos (by decide)]
  refine ⟨_, _, rfl, ?_, rfl, by decide⟩
  show (UInt16.ofNat (block.info.bytes.toNat + (payload [e]).length)).toNat = 1000
  rw [hbytes, payload_cons, payload_nil, List.append_nil, he]
  rfl

/-- A Timecode and a SimpleBlock in front of one that does not fit make the first block. -/
theorem getFirstBlock_full (p : ClusterPayload) {x : Element} (hblocks : p.blocks = e :: x :: es)
    (hfit : p.timecode.bytes.length + e.bytes.length ≤ 1000)
    (hlong : 1000 < p.timecode.bytes.length + e.bytes.length + x.bytes.length)
    (hstop : IsStop stop) (hw : Window b (p.bytes ++ stop) 1000) (hbytes : block.info.bytes = 0) :
    ∃ info ret, getFirstBlock block maxBlockBytes b = some (⟨info, block.prev⟩, ret) ∧
      info.bytes.toNat = p.timecode.bytes.length + e.bytes.length ∧
      info.status = statusSimpleblock ∧ ret ≠ clusterEnd := by
  obtain ⟨done, rest, status, hsplit, hle, hloop, hend⟩ := firstBlock_walk p hstop hw
  rw [hblocks] at hsplit
  obtain rfl : done = [e] := walk_greedy hsplit hle (by simp; omega) (by simp; omega)
    (hend.imp And.left And.left)
  obtain rfl : x :: es = rest := (List.cons_eq_cons.mp hsplit).2
  obtain ⟨hnil, -⟩ | ⟨-, hstatus⟩ := hend
  · cases hnil
  rw [if_neg (List.cons_ne_nil e [])] at hstatus
  subst hstatus
  simp only [getFirstBlock, getChankByBytes_eq _ maxBlockBytes hloop, Option.bind_eq_bind,
    Option.bind_some]
  rw [if_neg (by decide), if_neg (by decide)]
  refine ⟨_, _, rfl, ?_, rfl, by decide⟩
  show (UInt16.ofNat (block.info.bytes.toNat
    + (p.timecode.bytes.length + (payload [e]).length))).toNat = _
  have hzero : (0 : UInt16).toNat = 0 := rfl
  rw [hbytes, hzero, payload_cons, payload_nil, List.append_nil, UInt16.toNat_ofNat']
  omega

theorem getNextBlockByBytes_full {info : BlockInfo} {ret : Int}
    (hstatus : block.prev.status = statusSimpleblock) (hbytes : block.info.bytes = 0)
    (hstop : IsStop stop) (hsimple : ∀ x ∈ e :: es, IsSimpleBlock x) (he : e.bytes.length = 1000)
    (hes : es ≠ []) (hw : Window b (payload (e :: es) ++ stop) 1000)
    (hnext : getNextBlockByBytes block maxBlockBytes b = some (⟨info, block.prev⟩, ret)) :
    info.bytes.toNat = 1000 ∧ info.status = statusSimpleblock ∧ ret ≠ clusterEnd := by
  have hinit : block.prev.status ≠ statusInit := by rw [hstatus]; decide
  have hpiece : block.prev.status ≠ statusPiece := by rw [hstatus]; decide
  simp only [getNextBlockByBytes, if_neg hinit, getLaterBlock, if_neg hpiece] at hnext
  obtain ⟨info', ret', hfull, hfacts⟩ := getSimpleBlocksOrPiece_full ({ block with
    info := { block.info with
      clusterSeq := block.prev.clusterSeq
      seq := block.prev.seq + 1
      pos := block.prev.pos + block.prev.bytes.toUInt32 } }) hstop hsimple he hes hw hbytes
  obtain ⟨⟨rfl, -⟩, rfl⟩ : (info' = info ∧ block.prev = block.prev) ∧ ret' = ret := by
    simpa using hfull.symm.trans hnext
  exact hfacts

theorem getNextBlockByBytes_first {info : BlockInfo} {ret : Int} (p : ClusterPayload) {x : Element}
    (hblocks : p.blocks = e :: x :: es) (hfit : p.timecode.bytes.length + e.bytes.length ≤ 1000)
    (hlong : 1000 < p.timecode.bytes.length + e.bytes.length + x.bytes.length)
    (hstatus : block.prev.status = statusInit) (hbytes : block.info.bytes = 0)
    (hstop : IsStop stop) (hw : Window b (p.bytes ++ stop) 1000)
    (hnext : getNextBlockByBytes block maxBlockBytes b = some (⟨info, block.prev⟩, ret)) :
    info.bytes.toNat = p.timecode.bytes.length + e.bytes.length ∧
      info.status = statusSimpleblock ∧ ret ≠ clusterEnd := by
  simp only [getNextBlockByBytes, if_pos hstatus] at hnext
  obtain ⟨info', ret', hfull, hfacts⟩ := getFirstBlock_full ({ block with
    info := { block.info with clusterSeq := block.prev.clusterSeq } }) p hblocks hfit hlong hstop hw
      hbytes
  obtain ⟨⟨rfl, -⟩, rfl⟩ : (info' = info ∧ block.prev = block.prev) ∧ ret' = ret := by
    simpa using hfull.symm.trans hnext
  exact hfacts

end Blocks

/-! ## The file -/

def shortBlock : Element := zeroBlock 278 (by decide)
def fullBlock : Element := zeroBlock 997 (by decide)

theorem length_shortBlock : shortBlock.bytes.length = 281 := length_zeroBlock 278 _
theorem length_fullBlock : fullBlock.bytes.length = 1000 := length_zeroBlock 997 _

theorem length_payload_fullBlocks (k : Nat) :
    (payload (List.replicate k fullBlock)).length = 1000 * k := by
  induction k with
  | zero => rfl
  | succ k ih =>
      rw [List.replicate_succ, payload_cons, List.length_append, ih, length_fullBlock]
      omega

theorem isSimple_of_mem_fullBlocks {k : Nat} :
    ∀ e ∈ List.replicate k fullBlock, IsSimpleBlock e := by
  intro e he
  rw [List.eq_of_mem_replicate he]
  exact zeroBlock_isSimple 997 _

/-- 284 bytes, which make the first block, and `n + 1` blocks of 1000 bytes. -/
def longPayload (n : Nat) : ClusterPayload where
  timecode := smallPayload.timecode
  blocks := shortBlock :: List.replicate (n + 1) fullBlock
  isTimecode := smallPayload.isTimecode
  areSimple := List.forall_mem_cons.mpr ⟨zeroBlock_isSimple 278 _, isSimple_of_mem_fullBlocks⟩
  first_le := by
    intro e he
    obtain rfl : shortBlock = e := Option.some.inj he
    rw [length_shortBlock]
    exact (Nat.add_le_add_right smallPayload.isTimecode.length_le 281).trans (by decide)
  rest_le := by
    refine List.forall_mem_cons.mpr ⟨by rw [length_shortBlock]; decide, fun e he => ?_⟩
    rw [List.eq_of_mem_replicate he, length_fullBlock]
    decide

theorem length_timecode : smallPayload.timecode.bytes.length = 3 := by
  simp [Element.length_bytes, smallPayload]

theorem longPayload_drop (n : Nat) {m : Nat} (hm : m ≤ n + 1) :
    (longPayload n).bytes.drop (284 + 1000 * m)
      = payload (List.replicate (n + 1 - m) fullBlock) := by
  have hsplit : List.replicate (n + 1) fullBlock
      = List.replicate m fullBlock ++ List.replicate (n + 1 - m) fullBlock := by
    rw [List.replicate_append_replicate, Nat.add_sub_cancel' hm]
  have hfront : (payload (smallPayload.timecode :: shortBlock ::
      List.replicate m fullBlock)).length = 284 + 1000 * m := by
    rw [payload_cons, payload_cons, List.length_append, List.length_append, length_timecode,
      length_shortBlock, length_payload_fullBlocks]
    omega
  have hbytes : (longPayload n).bytes = payload (smallPayload.timecode :: shortBlock ::
      List.replicate m fullBlock) ++ payload (List.replicate (n + 1 - m) fullBlock) := by
    rw [← payload_append, List.cons_append, List.cons_append, ← hsplit]
    rfl
  rw [hbytes, ← hfront, List.drop_left]

theorem length_longPayload (n : Nat) : (longPayload n).bytes.length = 284 + 1000 * (n + 1) := by
  have hdrop := congrArg List.length (longPayload_drop n (Nat.zero_le (n + 1)))
  rw [List.length_drop, length_payload_fullBlocks] at hdrop
  omega

/-- A cluster of `1284 + 1000 * n` bytes, its header included twelve more, and two small ones. -/
def longFile (n : Nat) (h : n < 2 ^ 23) : OriginFile where
  header := []
  clusters := [longPayload n, smallPayload, smallPayload]
  header_lt := nil_header_lt
  clusters_le := (by decide : 3 ≤ 2 ^ 16)
  size_lt := by
    have hunknown : unknownSize = 2 ^ 56 - 1 := by decide
    have hsmall := length_smallPayload
    have hlong := length_longPayload n
    intro p hp
    simp only [List.mem_cons, List.not_mem_nil, or_false] at hp
    rcases hp with rfl | rfl | rfl <;> omega
  length_lt := by
    have h12 : clusterHeaderBytes = 12 := rfl
    simp only [List.flatMap_cons, List.flatMap_nil, List.append_nil, List.length_append,
      ClusterPayload.length_clusterBytes, length_longPayload, length_smallPayload, h12,
      List.length_nil]
    omega

/-! ## The run -/

section LongRun

variable {n : Nat} {h : n < 2 ^ 23}

theorem longFile_total {w : Webm} (htotal : w.totalFileBytes = (longFile n h).bytes.length)
    {c : Nat} (hc : c < 3) :
    (longFile n h).clusterStart c + clusterHeaderBytes ≤ w.totalFileBytes := by
  have hnext := (longFile n h).clusterStart_succ (c := c) hc
  have hle := (longFile n h).clusterStart_le (c + 1)
  omega

/-- The child has been sent the first block of the long cluster and `m` blocks more. -/
structure Halfway (s : Streaming) (m : Nat) : Prop where
  serving : Serving (longFile n h) s 2
  total : s.node.webm.totalFileBytes = (longFile n h).bytes.length
  joined : s.node.joined 0 = 0
  stands : StandsAt (longFile n h) s.cursor 0 (284 + 1000 * m)
  status : s.cursor.prev.status = statusSimpleblock
  delivered : s.delivered 0 = (longPayload n).bytes.take (284 + 1000 * m)

theorem isOldBlockSeq_first {f : OriginFile} {w : Webm} {info : BlockInfo} (hw : Completed f w 2)
    (hinfo : info.clusterSeq.toNat = 0) : isOldBlockSeq info w = true := by
  have hseq := hw.seq_succ Nat.two_pos (by decide)
  have hlt : info.clusterSeq.toUInt32 < w.prevCluster.seq := by
    rw [UInt32.lt_iff_toNat_lt, UInt16.toNat_toUInt32]
    omega
  rw [isOldBlockSeq, if_pos hlt]

theorem FirstJoined.halfway {s : Streaming} (hs : FirstJoined (longFile n h) s) :
    ∃ ls t, Run (OriginStep (longFile n h)) s ls t ∧ Halfway (n := n) (h := h) t 0 := by
  have h12 : clusterHeaderBytes = 12 := rfl
  have hnext := longFile_total hs.total (show 1 + 1 < 3 by decide)
  have hstart := longFile_total hs.total (show 0 + 1 < 3 by decide)
  obtain ⟨ls, w, hrun, hlooped, hloop⟩ := hs.loop.exists_run s (by decide : 1 < 3) hnext
  have hs' : s.loopTo s.node.webm .opening = s := by rw [← hs.phase]; rfl
  rw [hs'] at hrun
  have hserving : Serving (longFile n h) (s.loopTo w .opening) 2 := ⟨hloop, hs.connected⟩
  have hcursor : (s.loopTo w .opening).cursor = s.cursor := by
    obtain ⟨_, _, _, _, _, _, _, _, rfl⟩ := hlooped
    rfl
  have htotal : (s.loopTo w .opening).node.webm.totalFileBytes = s.node.webm.totalFileBytes := by
    obtain ⟨_, _, _, _, _, _, _, _, rfl⟩ := hlooped
    rfl
  have hstands : StandsAt (longFile n h) (s.loopTo w .opening).cursor 0 0 := by
    rw [hcursor]
    exact hs.cursor
  have hstatus : (s.loopTo w .opening).cursor.prev.status = statusInit := by
    rw [hcursor]
    exact hs.status
  have hold := isOldBlockSeq_first hloop.completed hstands.cluster
  obtain ⟨t, data, info, ret, hsent⟩ := hserving.send hstands hold (by decide : 1 < 3) (by decide)
    (by omega) (by decide)
  obtain ⟨stop, hstop, hwindow⟩ := hsent.window
  obtain ⟨hbytes, hinfo, hret⟩ := getNextBlockByBytes_first _ (longPayload n) rfl
    (by rw [length_shortBlock]; exact length_timecode ▸ (by decide))
    (by rw [length_shortBlock, length_fullBlock]; exact length_timecode ▸ (by decide)) hstatus
    hstands.bytes hstop hwindow hsent.next
  have hbytes : info.bytes.toNat = 284 := by
    rw [hbytes, length_shortBlock]
    exact length_timecode ▸ rfl
  have hnext := hsent.stands
  rw [if_neg hret, hbytes] at hnext
  refine ⟨_, t, hrun.append (.cons hsent.step (.nil t)), hsent.serving, ?_, ?_, hnext, ?_, ?_⟩
  · exact hsent.total.trans (htotal.trans hs.total)
  · rw [hsent.joined]
    exact hs.joined
  · rw [hsent.cursor, nextCursor, if_neg hret]
    exact hinfo
  · rw [hsent.delivered, hbytes]
    show s.delivered 0 ++ _ = _
    rw [hs.delivered]
    rfl

/-- Every block behind it is 1000 bytes long, up to the one whose end wraps. -/
theorem Halfway.next {s : Streaming} {m : Nat} (hs : Halfway (n := n) (h := h) s m) (hm : m < n)
    (hn : 296 + 1000 * n = 2 ^ 32) :
    ∃ t, OriginStep (longFile n h) s (.sendMulStream (Env.clock Timeval.zero)) t ∧
      Halfway (n := n) (h := h) t (m + 1) := by
  have h12 : clusterHeaderBytes = 12 := rfl
  have hold := isOldBlockSeq_first hs.serving.loop.completed hs.stands.cluster
  have hstart := longFile_total hs.total (show 0 + 1 < 3 by decide)
  obtain ⟨t, data, info, ret, hsent⟩ :=
    hs.serving.send hs.stands hold (by decide : 1 < 3) (by decide)
      (by omega) (by omega)
  have hdrop : ((longFile n h).payload 0).drop (284 + 1000 * m)
      = payload (fullBlock :: List.replicate (n - m) fullBlock) := by
    rw [← List.replicate_succ, ← Nat.sub_add_comm (Nat.le_of_lt hm)]
    exact longPayload_drop n (by omega)
  obtain ⟨stop, hstop, hwindow⟩ := hsent.window
  rw [hdrop] at hwindow
  have hsimple : ∀ x ∈ fullBlock :: List.replicate (n - m) fullBlock, IsSimpleBlock x := by
    rw [← List.replicate_succ]
    exact isSimple_of_mem_fullBlocks
  have hmore : List.replicate (n - m) fullBlock ≠ [] := by
    rw [Ne, List.replicate_eq_nil_iff]
    omega
  obtain ⟨hbytes, hstatus, hret⟩ :=
    getNextBlockByBytes_full s.cursor hs.status hs.stands.bytes hstop
      hsimple length_fullBlock hmore hwindow hsent.next
  have hstands := hsent.stands
  rw [if_neg hret, hbytes] at hstands
  have hsucc : 284 + 1000 * (m + 1) = 284 + 1000 * m + 1000 := by omega
  refine ⟨t, hsent.step, hsent.serving, hsent.total.trans hs.total, ?_, ?_, ?_, ?_⟩
  · rw [hsent.joined, hs.joined]
  · rw [hsucc]
    exact hstands
  · rw [hsent.cursor, nextCursor, if_neg hret]
    exact hstatus
  · rw [hsent.delivered, hs.delivered, hbytes, hsucc]
    exact List.take_add.symm

theorem Halfway.exists_run {s : Streaming} (hs : Halfway (n := n) (h := h) s 0)
    (hn : 296 + 1000 * n = 2 ^ 32) (m : Nat) (hm : m ≤ n) :
    ∃ ls t, Run (OriginStep (longFile n h)) s ls t ∧ Halfway (n := n) (h := h) t m := by
  induction m with
  | zero => exact ⟨[], s, .nil s, hs⟩
  | succ m ih =>
      obtain ⟨ls, t, hrun, ht⟩ := ih (by omega)
      obtain ⟨u, hstep, hu⟩ := ht.next (by omega) hn
      exact ⟨_, u, hrun.append (.cons hstep (.nil u)), hu⟩

/-- The sum has wrapped to 0: nothing is sent, and the child is led to the next cluster. -/
theorem Halfway.wrap {s : Streaming} (hs : Halfway (n := n) (h := h) s n)
    (hn : 296 + 1000 * n = 2 ^ 32) :
    ∃ t, OriginStep (longFile n h) s (.sendMulStream (Env.clock Timeval.zero)) t ∧
      Serving (longFile n h) t 2 ∧ StandsAt (longFile n h) t.cursor 1 0 ∧ t.cursor.prev.seq = 0 ∧
      t.delivered 0 = s.delivered 0 ∧ t.node.joined = s.node.joined ∧
      t.node.webm.totalFileBytes = s.node.webm.totalFileBytes := by
  have h12 : clusterHeaderBytes = 12 := rfl
  have hpast : ∀ i, (Env.clock Timeval.zero).past i = 0 := fun _ => rfl
  have hw : OnFile (longFile n h) (mulStreamStart s.node).webm :=
    hs.serving.loop.completed.onFile.congr rfl rfl rfl
  have hold := isOldBlockSeq_first hs.serving.loop.completed hs.stands.cluster
  have hstart := longFile_total hs.total (show 0 < 3 by decide)
  have hzero : (longFile n h).clusterStart 0 = 0 := (longFile n h).clusterStart_zero
  have hwrap : (clusterHeaderBytes + (284 + 1000 * n)) % 2 ^ 32 = 0 := by omega
  obtain ⟨x, hoffset⟩ := calOffset_cluster hw hs.stands (by decide : 0 < 3)
    (show (longFile n h).clusterStart 0 ≤ s.node.webm.totalFileBytes by omega) (by omega) Buf.zero
  rw [hwrap, Nat.add_zero] at hoffset
  have hstop : IsStop ((longFile n h).bytes.drop ((longFile n h).clusterStart 0)) := by
    rw [(longFile n h).drop_clusterStart]
    exact (longFile n h).isStop_next (by decide : 0 < 3)
  have hfile : (mulStreamStart s.node).webm.file.drop ((longFile n h).clusterStart 0)
      = [] ++ (longFile n h).bytes.drop ((longFile n h).clusterStart 0) := by
    rw [hw.file, List.nil_append]
  obtain ⟨data, hwindow, hread⟩ := readCacheBlock_window hpast hoffset hfile hstop
    (show ((longFile n h).clusterStart 0 : Int) + 0 + 4 ≤ s.node.webm.totalFileBytes by omega)
  have hcursor : Cursor s.cursor.prev [] := by
    refine .atElement [] ?_ ?_ (by simp) (by simp)
    · rw [hs.status]
      decide
    · rw [hs.status]
      exact fun h => absurd h (by decide)
  obtain ⟨info, ret, hnext, -, -, hcluster, hcut⟩ := getNextBlockByBytes_step s.cursor hstop.take
    hcursor hwindow hs.stands.bytes hs.stands.pieceBytes
  have hnone : info.bytes.toNat = 0 := Nat.le_zero.mp hcut.bytes_le_rest
  have hend : ret = clusterEnd := by
    by_contra hne
    exact absurd (hcut.next hne).1 (by omega)
  obtain ⟨x, y, hread⟩ := hread info ret hnext hcut.bytes_le hcut.bytes_le_rest
  obtain ⟨t, hstep, hserving, hcursor, hdelivered, hjoined, htotal⟩ :=
    hs.serving.serve hpast hold hread (by rw [List.take_nil, hnone]; rfl) hcut.bytes_le
  rw [nextCursor, if_pos hend] at hcursor
  rw [List.take_nil, List.append_nil] at hdelivered
  refine ⟨t, hstep, hserving, ?_, by rw [hcursor]; rfl, hdelivered, hjoined, htotal⟩
  rw [hcursor]
  refine StandsAt.head (by decide : 1 < 3) ?_ rfl rfl rfl rfl
  show (info.clusterSeq + 1).toNat = 1
  rw [hcluster, UInt16.toNat_add, hs.stands.cluster]
  rfl

/-- The child is sent the next cluster, with a SimpleBlock of the long one left. -/
theorem Halfway.overrun {s : Streaming} (hs : Halfway (n := n) (h := h) s n)
    (hn : 296 + 1000 * n = 2 ^ 32) :
    ∃ ls t k, Run (OriginStep (longFile n h)) s ls t ∧ t.node.connectedNodes = 1#8 ∧
      t.node.joined 0 = 0 ∧ 0 < k ∧
      t.delivered 0 = (longPayload n).bytes.take (284 + 1000 * n) ++ smallPayload.bytes.take k := by
  have h12 : clusterHeaderBytes = 12 := rfl
  obtain ⟨t, hstep, hserving, hstands, hseq, hdelivered, hjoined, htotal⟩ := hs.wrap hn
  have hprev := hserving.loop.completed.seq_succ Nat.two_pos (by decide)
  have hold : isOldBlockSeq t.cursor.prev t.node.webm = true := by
    have heq : t.cursor.prev.clusterSeq.toUInt32 = t.node.webm.prevCluster.seq := by
      rw [← UInt32.toNat_inj, UInt16.toNat_toUInt32, hstands.cluster]
      omega
    simp only [isOldBlockSeq, heq, if_true, hseq, UInt32.zero_le, decide_true, ite_self]
  have hstart := longFile_total (htotal.trans hs.total) (show 1 + 1 < 3 by decide)
  obtain ⟨u, data, info, ret, hsent⟩ := hserving.send hstands hold (by decide : 2 < 3) (by decide)
    (by omega) (by decide)
  have hpos : 0 < info.bytes.toNat := by
    by_cases hend : ret = clusterEnd
    · rw [hsent.cut.last hend]
      show 0 < smallPayload.bytes.length
      rw [length_smallPayload]
      decide
    · exact (hsent.cut.next hend).1
  refine ⟨_, u, info.bytes.toNat, .cons hstep (.cons hsent.step (.nil u)), hsent.serving.connected,
    ?_, hpos, ?_⟩
  · rw [hsent.joined, hjoined, hs.joined]
  · rw [hsent.delivered, hdelivered, hs.delivered]
    rfl

theorem overrun_not_prefix {k : Nat} (hk : 0 < k) :
    ¬ (longPayload n).bytes.take (284 + 1000 * n) ++ smallPayload.bytes.take k
      <+: (longFile n h).payloads 0 3 := by
  have hlast : (longPayload n).bytes.drop (284 + 1000 * n) = payload [fullBlock] := by
    rw [longPayload_drop n (Nat.le_succ n), Nat.add_sub_cancel_left, List.replicate_one]
  have hfirst : (longFile n h).payloads 0 1
      = (longPayload n).bytes.take (284 + 1000 * n) ++ payload [fullBlock] := by
    rw [(longFile n h).payloads_succ (le_refl 0), (longFile n h).payloads_self, List.nil_append,
      ← hlast, List.take_append_drop]
    rfl
  have hsmall : smallPayload.bytes.head? = some 0xe7 := by decide
  have hfull : fullBlock.bytes.head? = some 0xa3 := rfl
  rw [← (longFile n h).payloads_append (Nat.zero_le 1) (by decide : 1 ≤ 3), hfirst,
    List.append_assoc]
  intro hprefix
  obtain ⟨more, hmore⟩ := (List.prefix_append_right_inj _).mp hprefix
  -- a Timecode where the stream has a SimpleBlock
  have hhead := congrArg List.head? hmore
  rw [List.head?_append, List.head?_take, if_neg hk.ne', hsmall, List.head?_append, payload_cons,
    List.head?_append, hfull] at hhead
  exact absurd (Option.some.inj hhead) (by decide)

theorem longFile_overrun (hn : 296 + 1000 * n = 2 ^ 32) : ∃ ls s, Run (OriginStep (longFile n h))
    (streamStart (longFile n h) 0 Timeval.zero freshBlocks Cluster.zero Cluster.zero
      (longFile n h).bytes.length) ls s ∧
    s.node.isConnected (childSlot 0) = true ∧ s.node.joined 0 = 0 ∧
    ¬ s.delivered 0 <+: (longFile n h).payloads 0 3 := by
  obtain ⟨ls₁, s₁, hrun₁, hjoined⟩ := exists_run_firstJoined (longFile n h) (by decide : 1 < 3) 0
    Timeval.zero freshBlocks Cluster.zero Cluster.zero
  obtain ⟨ls₂, s₂, hrun₂, hfirst⟩ := hjoined.halfway
  obtain ⟨ls₃, s₃, hrun₃, hlast⟩ := hfirst.exists_run hn n (le_refl n)
  obtain ⟨ls₄, s, k, hrun₄, hconnected, hcluster, hk, hdelivered⟩ := hlast.overrun hn
  refine ⟨_, s, ((hrun₁.append hrun₂).append hrun₃).append hrun₄, ?_, hcluster, ?_⟩
  · rw [Node.isConnected, hconnected]
    rfl
  · rw [hdelivered]
    exact overrun_not_prefix hk

end LongRun

theorem longFile_lt : 4294967 < 2 ^ 23 := by decide

/-- A cluster of `2 ^ 32 + 988` bytes, all within what the parser takes. -/
theorem longFile_outOfOrder : ∃ ls s, Run (OriginStep (longFile 4294967 longFile_lt))
    (streamStart (longFile 4294967 longFile_lt) 0 Timeval.zero freshBlocks Cluster.zero Cluster.zero
      (longFile 4294967 longFile_lt).bytes.length) ls s ∧
    s.node.isConnected (childSlot 0) = true ∧ s.node.joined 0 = 0 ∧
    ¬ s.delivered 0 <+: (longFile 4294967 longFile_lt).payloads 0 3 :=
  longFile_overrun (by decide)

end P2PStream
