/-
# `P2PStream.Peer.Relay` — what a peer relays is what it stored

`SendCacheBlock` reads a window of `MAX_BLOCK_BYTES` at the position that `CalOffset`
gives, over a buffer of zeros, and sends the front of it.  `SearchWebM` stops at
`TOTAL_FILE_BYTES`, where the origin's file ends.  A peer's `TOTAL_FILE_BYTES` counts the
payloads of the packets and not the Cluster headers that `RenewClusterForWrite` puts
between them, so it lies before the end of the file, by twelve bytes for each cluster:
a window that it lies in is cut, and the zeros behind it are sent for what is stored
there.
-/
import P2PStream.Peer.Cursors
import P2PStream.Peer.Offsets
import P2PStream.Peer.Timecode
import P2PStream.Peer.Total
import P2PStream.Webm.Bounds

namespace P2PStream

open Lib

/-! ## Windows that are not cut -/

/-- `SearchWebM` reads `length` bytes at `start`, of a request that is not shorter. -/
def Uncut (total : Int) (start length : Nat) : Prop :=
  total < start ∨ (start : Int) + length ≤ total

theorem Uncut.le_clampBytes {total : Int} {start length : Nat} (bytes : Nat)
    (h : Uncut total start length) (hle : length ≤ bytes) :
    length ≤ clampBytes bytes (total - start) := by
  unfold clampBytes
  rcases h with h | h <;> split <;> omega

theorem calOffset_fp (stale : Buf) (info : BlockInfo) (w : Webm) :
    ∃ x, (calOffset stale info w).1 = { w with fp := x } :=
  calOffsetLoop_fp _ stale _ w

/-- What `SendCacheBlock` has in its buffer. -/
def relayWindow (env : Env) (w : Webm) (start : Nat) : Buf :=
  (cacheBuf env).overlay
    ((w.file.drop start).take (clampBytes maxBlockBytes.toNat (w.totalFileBytes - start)))

theorem readCacheBlock_relayWindow {env : Env} {block block' : Block} {w w' : Webm} {status : Int}
    {payload : List UInt8} {start : Nat}
    (hoffset : (calOffset env.fileBuf block.prev w).2 = (start : Int))
    (h : readCacheBlock env block w = .ok (w', block', status, payload)) :
    getNextBlockByBytes block maxBlockBytes (relayWindow env w start) =
        some (block', status) ∧
      payload = (relayWindow env w start).take block'.info.bytes.toNat := by
  obtain ⟨x, hx⟩ := calOffset_fp env.fileBuf block.prev w
  simp only [readCacheBlock, seekABSForNextBlock, hx, hoffset, seekABSWebM, fsetpos,
    if_pos (Int.natCast_nonneg start), searchWebM, fread, Webm.readBytes, Int.toNat_natCast] at h
  split at h
  · cases h
  · next hblock =>
    cases h
    exact ⟨hblock, rfl⟩

theorem readCacheBlock_eq {env : Env} {block block' : Block} {w : Webm} {status : Int} {start : Nat}
    (hoffset : (calOffset env.fileBuf block.prev w).2 = (start : Int))
    (hblock : getNextBlockByBytes block maxBlockBytes (relayWindow env w start) =
      some (block', status)) :
    ∃ w', readCacheBlock env block w =
      .ok (w', block', status, (relayWindow env w start).take block'.info.bytes.toNat) := by
  obtain ⟨x, hx⟩ := calOffset_fp env.fileBuf block.prev w
  simp only [readCacheBlock, seekABSForNextBlock, hx, hoffset, seekABSWebM, fsetpos,
    if_pos (Int.natCast_nonneg start), searchWebM, fread, Webm.readBytes, Int.toNat_natCast]
  rw [relayWindow] at hblock ⊢
  rw [hblock]
  exact ⟨_, rfl⟩

theorem relayWindow_take {env : Env} {w : Webm} {start n : Nat}
    (hclamp : n ≤ clampBytes maxBlockBytes.toNat (w.totalFileBytes - start))
    (hfile : start + n ≤ w.file.length) :
    (relayWindow env w start).take n = (w.file.drop start).take n := by
  have hholds := Buf.overlay_holds (cacheBuf env)
    ((w.file.drop start).take (clampBytes maxBlockBytes.toNat (w.totalFileBytes - start)))
  have hlength : n ≤ ((w.file.drop start).take
      (clampBytes maxBlockBytes.toNat (w.totalFileBytes - start))).length := by
    rw [List.length_take, List.length_drop]
    omega
  rw [relayWindow, hholds.take_eq hlength, List.take_take, Nat.min_eq_left hclamp]

/-- What is left of a cluster, when it is in the window and read, with the id behind it. -/
theorem relayWindow_inView {env : Env} {w : Webm} {start : Nat} {rest behind : List UInt8}
    (hfile : w.file.drop start = rest ++ behind) (hstop : IsStop behind)
    (hview : rest.length + 4 ≤ 1000) (huncut : Uncut w.totalFileBytes start (rest.length + 4)) :
    (relayWindow env w start).Holds (rest ++ behind.take 4) := by
  have hclamp : rest.length + 4 ≤ clampBytes maxBlockBytes.toNat (w.totalFileBytes - start) :=
    huncut.le_clampBytes 1000 hview
  have hlength := congrArg List.length hfile
  rw [List.length_drop, List.length_append] at hlength
  have hfour := hstop.length_take
  rw [List.length_take] at hfour
  have hshown : (w.file.drop start).take (rest.length + 4) = rest ++ behind.take 4 := by
    rw [hfile, List.take_append, List.take_of_length_le (Nat.le_add_right _ _),
      Nat.add_sub_cancel_left]
  refine Buf.holds_take.mpr ?_
  rw [List.length_append, hstop.length_take, relayWindow_take hclamp (by omega), hshown]

/-- What is left of a cluster, as far as it is in the window, with the id behind it. -/
theorem relayWindow_cut {env : Env} {w : Webm} {start : Nat} {rest behind : List UInt8}
    (hpast : ∀ j, env.past j = 0) (hfile : w.file.drop start = rest ++ behind)
    (hstop : IsStop behind) (huncut : Uncut w.totalFileBytes start (min 1000 (rest.length + 4))) :
    Window (relayWindow env w start) (rest ++ behind.take 4) 1000 := by
  have hview : rest ++ behind.take 4 <+: w.file.drop start := by
    rw [hfile]
    exact (List.prefix_append_right_inj _).mpr (List.take_prefix 4 _)
  have hstale : ∀ j, 1000 ≤ j → cacheBuf env j = 0 := by
    intro j hj
    rw [cacheBuf, if_neg (by rw [toNat_maxBlockBytes]; omega), hpast]
  refine window_overlay hstale hview (clampBytes_le _ _) fun hshort => ?_
  have hle := huncut.le_clampBytes 1000 (Nat.min_le_left _ _)
  rw [toNat_maxBlockBytes] at hshort ⊢
  rw [List.length_append, hstop.length_take]
  omega

/-- What a peer needs to relay the block behind a child's cursor as it is stored: the whole window
is in the file and is read, and a last piece fits it; or what is left of the cluster, whole
elements up to the id behind it, is in the window and is read. -/
inductive RelaysWhole (env : Env) (block : Block) (w : Webm) : Prop
  | inFile {start : Nat} : (calOffset env.fileBuf block.prev w).2 = (start : Int) →
      start + 1000 ≤ w.file.length → Uncut w.totalFileBytes start 1000 →
      LastPieceFits block.prev → RelaysWhole env block w
  | inView {start : Nat} {rest behind : List UInt8} :
      (calOffset env.fileBuf block.prev w).2 = (start : Int) →
      w.file.drop start = rest ++ behind → IsStop behind → Cursor block.prev rest →
      rest.length + 4 ≤ 1000 → Uncut w.totalFileBytes start (rest.length + 4) →
      RelaysWhole env block w

/-- The bytes relayed are those of the file at `CalOffset`. -/
def StoredPayload (env : Env) (block : Block) (w : Webm) (info : BlockInfo)
    (payload : List UInt8) : Prop :=
  ∃ start : Nat, (calOffset env.fileBuf block.prev w).2 = (start : Int) ∧
    start + info.bytes.toNat ≤ w.file.length ∧
    payload = (w.file.drop start).take info.bytes.toNat

theorem RelaysWhole.storedPayload {env : Env} {block block' : Block} {w w' : Webm} {status : Int}
    {payload : List UInt8} (hbytes : block.info.bytes = 0) (h : RelaysWhole env block w)
    (hread : readCacheBlock env block w = .ok (w', block', status, payload)) :
    block'.info.bytes.toNat ≤ 1000 ∧ StoredPayload env block w block'.info payload := by
  cases h with
  | @inFile start hoffset hfile huncut hfits =>
      obtain ⟨hblock, rfl⟩ := readCacheBlock_relayWindow hoffset hread
      have hle := getNextBlockByBytes_bytes_le hbytes hfits hblock
      have hclamp := huncut.le_clampBytes 1000 (le_refl _)
      refine ⟨hle, start, hoffset, by omega, relayWindow_take ?_ (by omega)⟩
      exact Nat.le_trans hle hclamp
  | @inView start rest behind hoffset hfile hstop hcursor hview huncut =>
      obtain ⟨hblock, rfl⟩ := readCacheBlock_relayWindow hoffset hread
      have hholds : (relayWindow env w start).Holds (rest ++ behind.take 4) :=
        relayWindow_inView hfile hstop hview huncut
      obtain ⟨info, hwhole, hall⟩ :=
        getNextBlockByBytes_inView block hstop hcursor hbytes hview hholds
      rw [hwhole] at hblock
      cases hblock
      have hbytes' : (⟨info, block.prev⟩ : Block).info.bytes.toNat = rest.length := hall
      rw [hbytes']
      have hlength := congrArg List.length hfile
      have hfour := hstop.length_take
      rw [List.length_take] at hfour
      rw [List.length_drop, List.length_append] at hlength
      have hclamp := huncut.le_clampBytes 1000 hview
      have hread : rest.length ≤ clampBytes maxBlockBytes.toNat (w.totalFileBytes - start) :=
        Nat.le_trans (Nat.le_add_right _ 4) hclamp
      refine ⟨by omega, start, hoffset, by omega, ?_⟩
      rw [hall]
      exact relayWindow_take hread (by omega)

/-! ## A cluster in the file -/

/-- What lies around a cluster in a file: the clusters before it, its header, and what is
behind it. -/
structure Surroundings where
  header : List UInt8
  payloads : List (List UInt8)
  mark : List UInt8
  behind : List UInt8

namespace Surroundings

variable (f : Surroundings)

def front : List UInt8 := f.header ++ f.payloads.flatMap clusterBytes

/-- The file position of the payload. -/
def start : Nat := f.front.length + clusterHeaderBytes

/-- The cluster `number` with the payload `bytes` is in the file, and `CalOffset` can walk to it. -/
structure Hold (bytes : List UInt8) (number : UInt16) (w : Webm) : Prop where
  file : w.file = f.front ++ f.mark ++ (bytes ++ f.behind)
  mark : f.mark.length = clusterHeaderBytes
  stop : IsStop f.behind
  size : ∀ p ∈ f.payloads, p.length < unknownSize
  length : w.file.length < 2 ^ 63
  headerBytes : w.webmHeaderTotalBytes.toNat = f.header.length
  count : (number.toUInt32 - w.firstClusterSeq).toNat = f.payloads.length
  view : ∀ j < f.payloads.length, InView w.totalFileBytes (clusterOffset f.header f.payloads j)

end Surroundings

theorem Surroundings.Hold.drop_file {f : Surroundings} {bytes : List UInt8} {number : UInt16}
    {w : Webm} (h : f.Hold bytes number w) {k : Nat} (hk : k ≤ bytes.length) :
    w.file.drop (f.start + k) = bytes.drop k ++ f.behind := by
  have hstart : f.start = (f.front ++ f.mark).length := by
    rw [List.length_append, h.mark]
    rfl
  rw [h.file, hstart, ← List.drop_drop, List.drop_left, List.drop_append_of_le_length hk]

theorem Surroundings.Hold.calOffset {f : Surroundings} {bytes : List UInt8} (prev : BlockInfo)
    {w : Webm} (h : f.Hold bytes prev.clusterSeq w) {k : Nat} (hk : k ≤ bytes.length)
    (hpos : prev.pos + prev.bytes.toUInt32 = UInt32.ofNat (clusterHeaderBytes + k))
    (hfits : clusterHeaderBytes + k < 2 ^ 32) (stale : Buf) :
    (calOffset stale prev w).2 = ((f.start + k : Nat) : Int) := by
  have hsum : (prev.pos + prev.bytes.toUInt32).toNat = clusterHeaderBytes + k := by
    rw [hpos, UInt32.toNat_ofNat', Nat.mod_eq_of_lt hfits]
  have hoffset : clusterOffset f.header f.payloads f.payloads.length = f.front.length := by
    rw [clusterOffset, List.take_length, Surroundings.front, List.length_append]
  have hlength := h.length
  have hfile := congrArg List.length h.file
  rw [List.length_append, List.length_append, List.length_append, h.mark] at hfile
  have hprefix : f.header ++ f.payloads.flatMap clusterBytes <+: w.file := by
    rw [h.file, List.append_assoc]
    exact List.prefix_append _ _
  obtain ⟨x, hcal⟩ := calOffset_clusters stale h.size hprefix hlength h.headerBytes h.count
    (le_refl _) h.view (by rw [hsum, hoffset]; omega)
  rw [hcal, hsum, hoffset, Surroundings.start, Nat.add_assoc]

/-! ## Packets -/

/-- A block that is sent carries the bytes it was cut from. -/
def RelaysStored (env : Env) (i : Fin maxChildNum) (n : Node) : Prop :=
  ∀ n' status, sendCacheBlock env i n = .ok (n', status) →
    StoredPayload env (n.webm.currentChildBlock i) n.webm (n'.webm.currentChildBlock i).info
      (blockPayloads n n')

/-- What a peer needs to relay the next block of child `i` as it is stored. -/
structure RelayGuard (env : Env) (i : Fin maxChildNum) (n : Node) : Prop where
  cleared : (n.webm.currentChildBlock i).info.bytes = 0
  whole : RelaysWhole env (n.webm.currentChildBlock i) n.webm

/-- The packet that `SendCacheBlock` sends carries the payload that was read. -/
theorem sendCacheBlock_payload {env : Env} {i : Fin maxChildNum} {n : Node} {w : Webm}
    {block : Block} {status : Int} {payload : List UInt8}
    (hread : readCacheBlock env (n.webm.currentChildBlock i) n.webm =
      .ok (w, block, status, payload)) (hle : block.info.bytes.toNat ≤ 1000)
    (hlength : payload.length = block.info.bytes.toNat) :
    ∃ n', sendCacheBlock env i n = .ok (n', status) ∧
      (n'.webm.currentChildBlock i).info = block.info ∧ blockPayloads n n' = payload := by
  have hcursor : (Function.update w.currentChildBlock i block i) = block := Function.update_self ..
  have hsize : (block.info.bytes + UInt16.ofNat (blockinfoBytes + 1)).toNat =
      (blockProto :: copyBlockInfoToBytes block.info ++ payload).length := by
    have h19 : (UInt16.ofNat (blockinfoBytes + 1)).toNat = 19 := rfl
    have h18 : blockinfoBytes = 18 := rfl
    rw [UInt16.toNat_add, h19, List.cons_append, List.length_cons, List.length_append,
      length_copyBlockInfoToBytes, hlength, h18]
    omega
  have hpayload : (blockProto :: copyBlockInfoToBytes block.info ++ payload).drop
      (blockinfoBytes + 1) = payload := by
    rw [List.cons_append, List.drop_succ_cons, ← length_copyBlockInfoToBytes block.info,
      List.drop_left]
  rw [sendCacheBlock, hread]
  refine ⟨_, rfl, congrArg Block.info hcursor, ?_⟩
  simp only [blockPayloads, sendPacket, hsize, List.take_length, List.drop_left,
    List.flatMap_singleton, packetGenerate]
  exact hpayload

theorem readCacheBlock_length {env : Env} {block block' : Block} {w w' : Webm} {status : Int}
    {payload : List UInt8} (h : readCacheBlock env block w = .ok (w', block', status, payload)) :
    payload.length = block'.info.bytes.toNat := by
  simp only [readCacheBlock] at h
  split at h
  · cases h
  · cases h
    exact Buf.length_take _ _

theorem RelayGuard.relaysStored {env : Env} {i : Fin maxChildNum} {n : Node}
    (h : RelayGuard env i n) : RelaysStored env i n := by
  intro n' status hsend
  obtain ⟨⟨w, block, st, payload⟩, hread, -⟩ := bind_eq_ok.mp hsend
  obtain ⟨hle, hstored⟩ := h.whole.storedPayload h.cleared hread
  obtain ⟨n₁, hsend₁, hinfo, hpayload⟩ :=
    sendCacheBlock_payload hread hle (readCacheBlock_length hread)
  rw [hsend₁] at hsend
  cases hsend
  rw [hinfo, hpayload]
  exact hstored

/-! ## Runs -/

/-- `SendMulStream` calls `SendCacheBlock` for the child in slot `i`. -/
def IsServed (i : Fin maxChildNum) (n : Node) : Prop :=
  n.isConnected (childSlot i) = true ∧ isOldBlockSeq (n.webm.currentChildBlock i).prev n.webm = true

/-- `P` holds at each call of `SendCacheBlock`; the second child is served behind the first. -/
def EachServed (P : Env → Fin maxChildNum → Node → Prop) (n : Node) (l : Env × Event) : Prop :=
  match l.2 with
  | .mulStream => (IsServed 0 (mulStreamStart n) → P l.1 0 (mulStreamStart n)) ∧
      ∀ n₁ k, sendMulStreamChild l.1 0 (mulStreamStart n) = .ok (n₁, k) →
        IsServed 1 n₁ → P l.1 1 n₁
  | _ => True

theorem EachServed.mono {P Q : Env → Fin maxChildNum → Node → Prop} {n : Node} {l : Env × Event}
    (h : EachServed P n l) (himp : ∀ i n, P l.1 i n → Q l.1 i n) : EachServed Q n l := by
  obtain ⟨env, e⟩ := l
  cases e with
  | mulStream =>
      exact ⟨fun hserved => himp 0 _ (h.1 hserved),
        fun n₁ k hchild hserved => himp 1 _ (h.2 n₁ k hchild hserved)⟩
  | _ => exact trivial

theorem EachServed.of_ne {P : Env → Fin maxChildNum → Node → Prop} {n : Node} {l : Env × Event}
    (h : l.2 ≠ .mulStream) : EachServed P n l := by
  obtain ⟨env, e⟩ := l
  cases e with
  | mulStream => exact absurd rfl h
  | _ => exact trivial

theorem exists_sendMulStreamChild {env : Env} {i : Fin maxChildNum} {n n' : Node} {status : Int}
    (hserved : IsServed i n)
    (hallocated : (n.webm.clusterAllocated && n.webm.childBlocksAllocated) = true)
    (hsend : sendCacheBlock env i n = .ok (n', status)) :
    ∃ n₁, sendMulStreamChild env i n = .ok (n₁, 0) := by
  rw [sendMulStreamChild, if_pos hserved.1, if_neg (by rw [hallocated]; decide),
    if_pos hserved.2, hsend]
  exact ⟨_, rfl⟩

theorem sendMulStreamChild_free {env : Env} {i : Fin maxChildNum} {n : Node}
    (h : n.isConnected (childSlot i) = false) : sendMulStreamChild env i n = .ok (n, 0) :=
  if_neg (Bool.eq_false_iff.mp h)

/-- In every run of a peer whose steps meet the guard every block relayed carries the stored
bytes. -/
theorem run_relaysStored {s t : Node} {ls : List (Env × Event)}
    (hrun : Run (Guarded (NodeStep .peer) (EachServed RelayGuard)) s ls t) :
    Run (Safe (NodeStep .peer) fun n l _ => EachServed RelaysStored n l) s ls t :=
  hrun.mono fun _ _ _ h => ⟨h.1.mono fun _ _ hguard => hguard.relaysStored, h.2⟩

/-! ## A window that is cut -/

/-- Packets that are not first blocks leave the offsets alone, and the children's blocks where they
are. -/
theorem run_later {s t : Node × History} {ls : List (Env × Event)}
    (hrun : Run (Guarded StoreStep Streams) s ls t)
    (hlater : ∀ l ∈ ls, ∃ data k, l.2 = .block data k ∧
      (copyBytesToBlockInfo data).seq ≠ firstBlockSeq) :
    t.1.webm.offsets = s.1.webm.offsets ∧
      t.1.webm.childBlocksAllocated = s.1.webm.childBlocksAllocated := by
  induction hrun with
  | nil s => exact ⟨rfl, rfl⟩
  | @cons s u t l ls hfirst _ ih =>
      obtain ⟨hl, hls⟩ := List.forall_mem_cons.mp hlater
      obtain ⟨⟨env, e⟩, hguard, hnode, -⟩ := l, hfirst
      obtain ⟨data, k, rfl, hseq⟩ := hl
      obtain ⟨w, hassemble, hn⟩ := bind_eq_ok.mp hnode
      have hwebm : u.1 = { s.1 with webm := w } := (Except.ok.inj hn).symm
      rw [(ih hls).1, (ih hls).2, hwebm]
      rcases assembleBlock_cases hassemble with ⟨hstart, -⟩ | ⟨-, -, rfl⟩ | ⟨-, -, hstore⟩
      · exact absurd hstart hguard
      · exact ⟨rfl, rfl⟩
      · obtain ⟨hcounts, -⟩ := storeBlock_counts hstore
        simp only [Webm.counts, Counts.mk.injEq] at hcounts
        exact ⟨storeBlock_offsets hstore hseq, hcounts.2.2.2.2.2.1⟩

/-- A SimpleBlock of `n + 2` bytes, below 127. -/
def simpleBytes (n : Nat) : List UInt8 := 0xa3 :: UInt8.ofNat (0x80 + n) :: List.replicate n 1

/-- A block that is one SimpleBlock. -/
def simpleData (cluster : UInt16) (n : Nat) : Buf :=
  packetData (copyBlockInfoToBytes
    ⟨12, 2, UInt16.ofNat (n + 2), 0, cluster, 0, 0, statusSimpleblock, 0⟩ ++ simpleBytes n)

def simpleOf5 : BlockPacket 0 where
  data := simpleData 5 15
  bytes := 35
  first_le := by decide
  seq_pos := by decide
  timecode := fun h => absurd h (by decide)
  not_end := by decide

def openingTimecode : Timecode where
  width := 1
  data := [6]
  width_pos := Nat.one_pos
  width_le := one_le_eight
  data_le := by decide

/-- The first block of cluster 6: its Timecode and a SimpleBlock. -/
def openingOf6 : BlockPacket 0 where
  data := packetData (copyBlockInfoToBytes ⟨12, 1, 20, 0, 6, 0, 0, statusSimpleblock, 0⟩ ++
    (openingTimecode.bytes ++ simpleBytes 15))
  bytes := 38
  first_le := by decide
  seq_pos := by decide
  timecode := fun _ => by decide
  not_end := by decide

def shortOf7 : BlockPacket 0 where
  data := simpleData 7 15
  bytes := 35
  first_le := by decide
  seq_pos := by decide
  timecode := fun h => absurd h (by decide)
  not_end := by decide

def longOf7 : BlockPacket 0 where
  data := simpleData 7 60
  bytes := 80
  first_le := by decide
  seq_pos := by decide
  timecode := fun h => absurd h (by decide)
  not_end := by decide

/-- What is stored of cluster 6. -/
def stored6 : List UInt8 := (openingTimecode.withValue 0).bytes ++ simpleBytes 15

/-- What lies around it. -/
def relaySurroundings (next : List UInt8) : Surroundings where
  header := footer
  payloads := [(⟨5, List.replicate 200 (simpleBytes 15)⟩ : StoredCluster).payload]
  mark := StoredCluster.mark ++ toBe 7 20
  behind := footer ++ next

theorem length_relayPayload :
    (⟨5, List.replicate 200 (simpleBytes 15)⟩ : StoredCluster).payload.length = 3400 := by
  rw [StoredCluster.payload, List.length_flatten, List.map_replicate, List.sum_replicate_nat]
  rfl

theorem relaySurroundings_start (next : List UInt8) : (relaySurroundings next).start = 3436 := by
  rw [Surroundings.start, Surroundings.front, relaySurroundings, List.length_append,
    List.flatMap_singleton, length_clusterBytes, length_relayPayload]
  rfl

/-- The peer joined at cluster 5.  When its cache was full, behind 200 blocks, it admitted a child
at the head of cluster 6; one block of that is stored, and `next` is the first of cluster 7. -/
structure Relaying (next : List UInt8) (n : Node) : Prop where
  connected : n.isConnected (childSlot 0) = true
  free : n.isConnected (childSlot 1) = false
  allocated : (n.webm.clusterAllocated && n.webm.childBlocksAllocated) = true
  cursor : n.webm.currentChildBlock 0 = ⟨BlockInfo.zero, clusterCursor 6⟩
  previous : n.webm.prevCluster.seq = 6
  hold : (relaySurroundings next).Hold stored6 6 n.webm
  total : n.webm.totalFileBytes = (3432 + next.length : Nat)

/-- The history behind it. -/
def relayHistory (next : List UInt8) : History :=
  List.replicate 200 (5, simpleBytes 15) ++ [(6, stored6)] ++ [(7, next)]

/-- The clusters it makes. -/
def relayStored (next : List UInt8) : Stored :=
  ⟨[⟨5, List.replicate 200 (simpleBytes 15)⟩, ⟨6, [stored6]⟩], ⟨7, [next]⟩⟩

theorem Stored.of_relayHistory (next : List UInt8) :
    Stored.of 5 (relayHistory next) = relayStored next := by
  rw [relayHistory, Stored.of_concat, Stored.of_concat, Stored.of_replicate]
  rfl

section RelayHistory

variable {n : Node} {next : List UInt8}

theorem relayHistory_total (hcounted : Counted footer (n, relayHistory next)) :
    n.webm.totalFileBytes = (3432 + next.length : Nat) := by
  have htotal : n.webm.totalFileBytes = (footer.length +
    ((relayHistory next).map fun b => b.2.length).sum : Nat) := hcounted.total
  have hsum : ((relayHistory next).map fun b => b.2.length).sum = 3420 + next.length := by
    rw [relayHistory, List.map_append, List.map_append, List.sum_append, List.sum_append,
      List.map_replicate, List.sum_replicate_nat]
    rfl
  have hfooter : footer.length = 12 := rfl
  rw [htotal, hsum, hfooter]
  omega

theorem relayHistory_hold (hdescribed : Described 5 footer (n, relayHistory next))
    (hcounted : Counted footer (n, relayHistory next)) (hnext : next.length ≤ 1000) :
    (relaySurroundings next).Hold stored6 6 n.webm := by
  have hstores : Stores footer (Stored.of 5 (relayHistory next)) n.webm := hdescribed
  have hhead : (5, simpleBytes 15) ∈ (relayHistory next).head? := rfl
  obtain ⟨-, hfirst⟩ := hcounted.first _ hhead
  have hopen := StoredCluster.openBytes_singleton 7 next
  have hsix : (⟨6, [stored6]⟩ : StoredCluster).closedBytes =
      StoredCluster.mark ++ toBe 7 20 ++ stored6 := rfl
  have hfive : (⟨5, List.replicate 200 (simpleBytes 15)⟩ : StoredCluster).closedBytes =
      clusterBytes (⟨5, List.replicate 200 (simpleBytes 15)⟩ : StoredCluster).payload :=
    StoredCluster.closedBytes_eq_bytes (by rw [length_relayPayload]; decide)
  have hfile : n.webm.file = (relaySurroundings next).front ++ (relaySurroundings next).mark ++
      (stored6 ++ (relaySurroundings next).behind) := by
    rw [hstores.file, Stored.of_relayHistory, Stored.fileBytes, Stored.front, relayStored,
      List.flatMap_cons, List.flatMap_singleton, hsix, hopen, hfive, Surroundings.front,
      relaySurroundings, List.flatMap_singleton]
    simp only [List.append_assoc]
  have hstart := relaySurroundings_start next
  have hlength : n.webm.file.length = 3468 + next.length := by
    have hmark : (relaySurroundings next).mark.length = clusterHeaderBytes := rfl
    have hstored : stored6.length = 20 := rfl
    have hbehind : (relaySurroundings next).behind.length = 12 + next.length := List.length_append
    rw [Surroundings.start] at hstart
    rw [hfile, List.length_append, List.length_append, List.length_append, hmark, hstart, hstored,
      hbehind]
    omega
  refine ⟨hfile, rfl, .inl (List.prefix_append _ _), ?_, by rw [hlength]; omega,
    hcounted.headerBytes, ?_, ?_⟩
  · intro payload hpayload
    rw [List.mem_singleton.mp hpayload, length_relayPayload]
    decide
  · rw [hfirst]
    rfl
  · intro j hj
    obtain rfl : j = 0 := Nat.lt_one_iff.mp hj
    have hzero : clusterOffset (relaySurroundings next).header (relaySurroundings next).payloads 0 =
        12 := clusterOffset_zero
    have h12 : clusterHeaderBytes = 12 := rfl
    right
    rw [hzero, relayHistory_total hcounted]
    omega

end RelayHistory

/-- What the peer handles behind the WebM header. -/
def relayEvents (p : BlockPacket 0) : List (Env × Event) :=
  List.replicate 200 (Env.clock ⟨3, 0⟩, .block simpleOf5.data simpleOf5.bytes) ++
    [(Env.clock ⟨3, 0⟩, .timeCache), (Env.clock ⟨4, 0⟩, .connect connectData),
      (Env.clock ⟨5, 0⟩, .block openingOf6.data openingOf6.bytes),
      (Env.clock ⟨6, 0⟩, .block p.data p.bytes)]

/-- Those that fill its cache. -/
def fillEvents : List (Env × Event) :=
  List.replicate 200 (Env.clock ⟨3, 0⟩, .block simpleOf5.data simpleOf5.bytes) ++
    [(Env.clock ⟨3, 0⟩, .timeCache)]

theorem relayEvents_eq (p : BlockPacket 0) :
    relayEvents p = fillEvents ++ [(Env.clock ⟨4, 0⟩, .connect connectData),
      (Env.clock ⟨5, 0⟩, .block openingOf6.data openingOf6.bytes),
      (Env.clock ⟨6, 0⟩, .block p.data p.bytes)] := by
  rw [fillEvents, List.append_assoc]
  rfl

theorem relayEvents_sized (p : BlockPacket 0)
    (hsize : p.info.bytes = p.bytes - UInt16.ofNat blockinfoBytes) :
    ∀ l ∈ relayEvents p, l.2 ≠ .mulStream ∧ ∀ data k, l.2 = .block data k →
      (copyBytesToBlockInfo data).bytes = k - UInt16.ofNat blockinfoBytes := by
  intro l hl
  rcases List.mem_append.mp hl with hl | hl
  · obtain rfl := List.eq_of_mem_replicate hl
    refine ⟨Event.noConfusion, fun data k hdata => ?_⟩
    cases hdata
    decide
  · simp only [List.mem_cons, List.not_mem_nil, or_false] at hl
    rcases hl with rfl | rfl | rfl | rfl
    · exact ⟨Event.noConfusion, fun _ _ => Event.noConfusion⟩
    · exact ⟨Event.noConfusion, fun _ _ => Event.noConfusion⟩
    · refine ⟨Event.noConfusion, fun data k hdata => ?_⟩
      cases hdata
      decide
    · refine ⟨Event.noConfusion, fun data k hdata => ?_⟩
      cases hdata
      exact hsize

theorem replicate_seq {n : Node} {block : List UInt8} {count : Nat}
    (h : Described 5 footer (n, List.replicate count (5, block))) :
    n.webm.currentCluster.seq = 5 := by
  have hstores : Stores footer (Stored.of 5 (List.replicate count (5, block))) n.webm := h
  rw [hstores.seq, Stored.of_replicate]
  rfl

theorem exists_relaying_connect (p : BlockPacket 0) (hseq : p.info.seq ≠ firstBlockSeq)
    (hcluster : p.info.clusterSeq = 7)
    (hsize : p.info.bytes = p.bytes - UInt16.ofNat blockinfoBytes)
    (hle : p.info.bytes.toNat ≤ 1000) :
    ∃ ls ms w n' n, Run (Guarded (NodeStep .peer) fun _ l => l.2 ≠ .mulStream) firstPeer ls
        (cachedPeer w) ∧
      nodeConnect (Env.clock ⟨4, 0⟩) connectData (cachedPeer w) = .ok n' ∧
      Run (Guarded (NodeStep .peer) fun m l =>
        l.2 ≠ .mulStream ∧ m.isConnected (childSlot 0) = true) n' ms n ∧
      Relaying ((p.data.drop blockinfoBytes).take p.info.bytes.toNat) (mulStreamStart n) := by
  obtain ⟨data, k, w, hstart, hheader, hjoined, hprev, htotal, htimecode⟩ :=
    exists_joinedWebm 5 footer (by decide)
  have hwebm := hjoined.webm
  have hstores := hwebm.stores
  have htakes : Takes simpleOf5 w := ⟨hstores.allocated, hstores.prev, by
    show w.prevCluster.seq < _
    rw [hprev]
    decide⟩
  obtain ⟨w₁, hw₁, htotal₁, hblocks⟩ := exists_run_replicate simpleOf5 (by decide)
    (Env.clock ⟨3, 0⟩) 200 ({ initialPeer 5 with webm := w }, []) htakes
  have hpair : (simpleOf5.info.clusterSeq,
      (simpleOf5.data.drop blockinfoBytes).take simpleOf5.info.bytes.toNat) =
        (5, simpleBytes 15) := by decide
  rw [hpair, List.nil_append] at hblocks
  obtain ⟨hoffsets, hchildren⟩ := run_later hblocks fun l hl => by
    obtain rfl := List.eq_of_mem_replicate hl
    exact ⟨_, _, rfl, by decide⟩
  have hfull : w₁.totalBlockNum = 200 := by
    rw [htotal₁]
    show w.totalBlockNum + UInt64.ofNat 200 = 200
    rw [htotal]
    rfl
  have hcache := timeCache_cachedPeer hfull
  obtain ⟨n₂, hconnect, hbits, hwebm₂⟩ := exists_nodeConnect_admitNode (Env.clock ⟨4, 0⟩)
    connectData (n := cachedPeer w₁) (Int.lt_irrefl _) (cachedPeer_free w₁)
    (cachedPeer_new w₁ _ _) (hchildren.trans hwebm.childBlocks)
  have hcursor : n₂.webm.currentChildBlock 0 = ⟨BlockInfo.zero, clusterCursor 6⟩ := by
    have hseq : (copyBytesToBlockInfo connectData).clusterSeq + 1 = 6 := by decide
    rw [hwebm₂, currentChildBlock_setChildBlock]
    simp only [renewBlock, hseq, clusterCursor]
  have halloc₂ : (n₂.webm.clusterAllocated && n₂.webm.blockAllocated) = true := by
    rw [hwebm₂]
    exact hw₁.allocated
  have hprev₂ : n₂.webm.prevCluster.seq < openingOf6.info.clusterSeq.toUInt32 := by
    rw [hwebm₂]
    exact UInt32.lt_trans hw₁.previous (by decide)
  have hoffsets₂ : n₂.webm.offsets = ⟨w.timecodeOffset, false, 0⟩ := by
    have hnode : w.nodeTimecodeOffset = 0 := by
      rw [htimecode]
      decide
    have hsame : n₂.webm.offsets = w₁.offsets := by rw [hwebm₂]; rfl
    have hget : w.isGetTimecodeOffset = false := hwebm.timecode
    rw [hsame, hoffsets, Webm.offsets, hget, hnode]
  obtain ⟨w₃, hstore₃, -⟩ := storeBlock_marks openingOf6
    (openingOf6.bytes - UInt16.ofNat blockinfoBytes) n₂.webm
  have hstep₃ := storeStep_packet openingOf6
    (s := (n₂, List.replicate 200 (5, simpleBytes 15))) (Env.clock ⟨5, 0⟩) halloc₂
    (isOldBlockSeq_eq_false hprev₂) hstore₃
  have hwritten : writtenBlock openingOf6.data n₂.webm = stored6 := by
    simp only [Webm.offsets, Offsets.mk.injEq] at hoffsets₂
    have hholds : (openingOf6.data.drop blockinfoBytes).Holds
        (openingTimecode.bytes ++ simpleBytes 15) := Buf.holds_take.mpr (by decide)
    have hown : openingTimecode.value + n₂.webm.nodeTimecodeOffset.toNat =
        if n₂.webm.isGetTimecodeOffset then n₂.webm.timecodeOffset.toNat
        else openingTimecode.value + n₂.webm.nodeTimecodeOffset.toNat := by
      rw [hoffsets₂.2.1]
      rfl
    have hw := writtenBlock_timecode openingTimecode (by decide) (by decide) hholds hown
      (le_refl _) (by rw [hoffsets₂.2.2]; decide)
    rw [hw, Nat.sub_self, stored6]
  rw [hwritten] at hstep₃
  obtain ⟨hcounts₃, hmarks₃⟩ := storeBlock_counts hstore₃
  simp only [Webm.counts, Counts.mk.injEq] at hcounts₃
  simp only [Webm.marks, Marks.mk.injEq] at hmarks₃
  have hblock₂ : n₂.webm.currentBlock.prev.clusterSeq = 5 := by
    rw [hwebm₂]
    exact hw₁.block
  have hother : ¬ n₂.webm.currentBlock.prev.clusterSeq =
      (copyBytesToBlockInfo openingOf6.data).clusterSeq := by
    rw [hblock₂]
    decide
  have hcluster₂ : n₂.webm.currentCluster.seq = 5 := by
    have hopen := replicate_seq (run_described hjoined hblocks)
    rw [hwebm₂]
    exact hopen
  have hprev₃ : w₃.prevCluster.seq = 5 := by rw [hmarks₃.2.1, if_neg hother, hcluster₂]
  have hcluster₃ : w₃.currentCluster.seq = 6 := by
    rw [hmarks₃.2.2.1, if_neg hother]
    decide
  obtain ⟨w₄, hstore₄, hstep₄⟩ := exists_storeStep p hseq
    (s := ({ n₂ with webm := w₃ }, List.replicate 200 (5, simpleBytes 15) ++ [(6, stored6)]))
    (Env.clock ⟨6, 0⟩) (hmarks₃.1.trans halloc₂) (by rw [hprev₃, hcluster]; decide)
  obtain ⟨hcounts₄, hmarks₄⟩ := storeBlock_counts hstore₄
  simp only [Webm.counts, Counts.mk.injEq] at hcounts₄
  simp only [Webm.marks, Marks.mk.injEq] at hmarks₄
  have hprev₄ : w₄.prevCluster.seq = 6 := by
    have hnext : ¬ w₃.currentBlock.prev.clusterSeq = (copyBytesToBlockInfo p.data).clusterSeq := by
      have hseven : (copyBytesToBlockInfo p.data).clusterSeq = 7 := hcluster
      rw [hmarks₃.2.2.2.1, hseven]
      show (copyBytesToBlockInfo openingOf6.data).clusterSeq ≠ 7
      decide
    rw [hmarks₄.2.1, if_neg hnext, hcluster₃]
  rw [hcluster] at hstep₄
  let next := (p.data.drop blockinfoBytes).take p.info.bytes.toNat
  let n := { n₂ with webm := w₄ }
  have hfill : Guarded StoreStep Streams
      ({ initialPeer 5 with webm := w₁ }, List.replicate 200 (5, simpleBytes 15))
      (Env.clock ⟨3, 0⟩, .timeCache) (cachedPeer w₁, List.replicate 200 (5, simpleBytes 15)) :=
    ⟨rfl, congrArg Except.ok hcache, (List.append_nil _).symm⟩
  have hadm : Guarded StoreStep Streams
      (cachedPeer w₁, List.replicate 200 (5, simpleBytes 15))
      (Env.clock ⟨4, 0⟩, .connect connectData) (n₂, List.replicate 200 (5, simpleBytes 15)) :=
    ⟨rfl, hconnect, (List.append_nil _).symm⟩
  have hrun : Run (Guarded StoreStep Streams) ({ initialPeer 5 with webm := w }, [])
      (relayEvents p) (n, relayHistory next) :=
    hblocks.append (.cons hfill (.cons hadm (.cons hstep₃ (.cons hstep₄ (.nil _)))))
  have hlabels := relayEvents_sized p hsize
  have hstart₁ : NodeStep .peer firstPeer (Env.clock ⟨1, 0⟩, .initialStatus (joinData 5) 68)
      (initialPeer 5) := rfl
  have hfront : Run (Guarded StoreStep Streams) ({ initialPeer 5 with webm := w }, []) fillEvents
      (cachedPeer w₁, List.replicate 200 (5, simpleBytes 15)) :=
    hblocks.append (.cons hfill (.nil _))
  have hfilled : Run (Guarded (NodeStep .peer) fun _ l => l.2 ≠ .mulStream)
      { initialPeer 5 with webm := w } fillEvents (cachedPeer w₁) := by
    refine (hfront.guarded_labels fun l hl => (hlabels l ?_).1).map Prod.fst
      fun _ _ _ h => ⟨h.1.2, h.2.1⟩
    rw [relayEvents_eq]
    exact List.mem_append_left _ hl
  have hall : Run (Guarded (NodeStep .peer) fun _ l => l.2 ≠ .mulStream) firstPeer
      ((Env.clock ⟨1, 0⟩, .initialStatus (joinData 5) 68) ::
        (Env.clock ⟨2, 0⟩, .block data k) :: fillEvents) (cachedPeer w₁) :=
    .cons ⟨Event.noConfusion, hstart₁⟩ (.cons ⟨Event.noConfusion, hheader⟩ hfilled)
  have hconnected : n₂.isConnected (childSlot 0) = true :=
    isConnected_of_admitNode (cachedPeer_connected w₁ 0) hbits
  have hbehind : Run (Guarded (NodeStep .peer) fun m l =>
      l.2 ≠ .mulStream ∧ m.isConnected (childSlot 0) = true) n₂
      [(Env.clock ⟨5, 0⟩, .block openingOf6.data openingOf6.bytes),
        (Env.clock ⟨6, 0⟩, .block p.data p.bytes)] n :=
    .cons ⟨⟨Event.noConfusion, hconnected⟩, hstep₃.2.1⟩
      (.cons ⟨⟨Event.noConfusion, hconnected⟩, hstep₄.2.1⟩ (.nil _))
  have hcounted : Counted footer (n, relayHistory next) :=
    run_counted hjoined (hrun.guarded_labels fun l hl => (hlabels l hl).2)
  have hcounted' : Counted footer (mulStreamStart n, relayHistory next) :=
    ⟨hcounted.headerBytes, hcounted.fresh, hcounted.first, hcounted.total⟩
  have hdescribed : Stores footer (Stored.of 5 (relayHistory next)) (mulStreamStart n).webm :=
    (run_described hjoined hrun).sameWrites ⟨_, _, _, _, fun _ => rfl, rfl⟩
  have hlength : next.length = p.info.bytes.toNat := Buf.length_take _ _
  refine ⟨_, _, w₁, n₂, n, hall, hconnect, hbehind, hconnected, ?_, ?_, ?_, hprev₄,
    relayHistory_hold hdescribed hcounted' (by rw [hlength]; exact hle),
    relayHistory_total hcounted'⟩
  · show n₂.connectedNodes.getLsbD 1 = false
    rw [hbits]
    show ((initialPeer 5).connectedNodes + BitVec.twoPow 8 0).getLsbD 1 = false
    decide
  · have hallocated : w₄.clusterAllocated = true :=
      (Bool.and_eq_true_iff.mp (hmarks₄.1.trans (hmarks₃.1.trans halloc₂))).1
    have hblocks₄ : w₄.childBlocksAllocated = true := by
      rw [hcounts₄.2.2.2.2.2.1, hcounts₃.2.2.2.2.2.1, hwebm₂]
      exact hchildren.trans hwebm.childBlocks
    show (w₄.clusterAllocated && w₄.childBlocksAllocated) = true
    rw [hallocated, hblocks₄]
    rfl
  · show w₄.currentChildBlock 0 = _
    rw [hcounts₄.2.2.2.2.1, hcounts₃.2.2.2.2.1]
    exact hcursor

theorem exists_relaying (p : BlockPacket 0) (hseq : p.info.seq ≠ firstBlockSeq)
    (hcluster : p.info.clusterSeq = 7)
    (hsize : p.info.bytes = p.bytes - UInt16.ofNat blockinfoBytes)
    (hle : p.info.bytes.toNat ≤ 1000) :
    ∃ ls n, Run (Guarded (NodeStep .peer) fun _ l => l.2 ≠ .mulStream) firstPeer ls n ∧
      Relaying ((p.data.drop blockinfoBytes).take p.info.bytes.toNat) (mulStreamStart n) := by
  obtain ⟨ls, ms, w, n', n, hrun, hconnect, hblocks, hrelaying⟩ :=
    exists_relaying_connect p hseq hcluster hsize hle
  have hbehind := hblocks.mono fun _ _ _ h => (⟨h.1.1, h.2⟩ : Guarded (NodeStep .peer)
    (fun _ l => l.2 ≠ .mulStream) _ _ _)
  have hstep : Guarded (NodeStep .peer) (fun _ l => l.2 ≠ .mulStream) (cachedPeer w)
      (Env.clock ⟨4, 0⟩, .connect connectData) n' := ⟨nofun, hconnect⟩
  exact ⟨_, n, hrun.append (.cons hstep hbehind), hrelaying⟩

section Relaying

variable {next : List UInt8} {n : Node}

theorem Relaying.served (h : Relaying next n) : IsServed 0 n := by
  refine ⟨h.connected, ?_⟩
  have hseq : (clusterCursor 6).seq ≤ n.webm.latestBlockSeq :=
    UInt32.le_iff_toNat_le.mpr (Nat.zero_le _)
  rw [isOldBlockSeq, h.cursor, h.previous, if_neg (by decide), if_pos (by decide)]
  exact decide_eq_true hseq

theorem Relaying.calOffset (h : Relaying next n) (stale : Buf) :
    (calOffset stale (n.webm.currentChildBlock 0).prev n.webm).2 = ((3436 : Nat) : Int) := by
  have hoffset := h.hold.calOffset (clusterCursor 6) (k := 0) (Nat.zero_le _) rfl
    (by decide) stale
  rw [relaySurroundings_start] at hoffset
  rw [h.cursor]
  exact hoffset

theorem Relaying.stored (h : Relaying next n) :
    n.webm.file.drop 3436 = stored6 ++ (footer ++ next) := by
  have hdrop := h.hold.drop_file (k := 0) (Nat.zero_le _)
  rw [relaySurroundings_start] at hdrop
  exact hdrop

end Relaying

theorem cacheBuf_clock (now : Timeval) : cacheBuf (Env.clock now) = Buf.zero := by
  funext i
  show (if i < maxBlockBytes.toNat then 0 else 0 : UInt8) = 0
  split <;> rfl

/-- The block that is cut from the first 13 bytes of cluster 6. -/
def cutBlock : BlockInfo := ⟨12, 1, 20, 0, 6, 0, 0, statusSimpleblock, 0⟩

theorem getNextBlockByBytes_cut :
    getNextBlockByBytes ⟨BlockInfo.zero, clusterCursor 6⟩ maxBlockBytes
      (packetData (stored6.take 13)) = some (⟨cutBlock, clusterCursor 6⟩, 1) := by decide

/-- The bytes that a child is sent for cluster 6, when cluster 7 has 17 bytes. -/
theorem Relaying.cut {n : Node} (h : Relaying (simpleBytes 15) n) (now : Timeval) : ∃ n',
    sendCacheBlock (Env.clock now) 0 n = .ok (n', 1) ∧
      (n'.webm.currentChildBlock 0).info = cutBlock ∧
      blockPayloads n n' = stored6.take 13 ++ List.replicate 7 0 := by
  have hwindow : relayWindow (Env.clock now) n.webm 3436 = packetData (stored6.take 13) := by
    have hclamp : clampBytes maxBlockBytes.toNat (n.webm.totalFileBytes - (3436 : Nat)) = 13 := by
      rw [h.total]
      decide
    rw [relayWindow, hclamp, h.stored, cacheBuf_clock]
    have hshort : (stored6 ++ (footer ++ simpleBytes 15)).take 13 = stored6.take 13 := by decide
    rw [hshort, packetData]
  have hblock := getNextBlockByBytes_cut
  rw [← hwindow, ← h.cursor] at hblock
  obtain ⟨w, hread⟩ := readCacheBlock_eq (h.calOffset _) hblock
  have hpayload : (packetData (stored6.take 13)).take cutBlock.bytes.toNat =
      stored6.take 13 ++ List.replicate 7 0 := by decide
  rw [hwindow, hpayload] at hread
  exact sendCacheBlock_payload hread (by decide) (by decide)

/-- `TOTAL_FILE_BYTES` lies behind 13 of the 20 bytes of cluster 6: a child is sent zeros for the
others. -/
theorem relayed_cut : ∃ ls n, Run (NodeStep .peer) firstPeer ls n ∧ IsServed 0 (mulStreamStart n) ∧
    ¬ RelaysStored (Env.clock ⟨7, 0⟩) 0 (mulStreamStart n) := by
  obtain ⟨ls, n, hrun, h⟩ :=
    exists_relaying shortOf7 (by decide) (by decide) (by decide) (by decide)
  have hnext : (shortOf7.data.drop blockinfoBytes).take shortOf7.info.bytes.toNat =
      simpleBytes 15 := by decide
  rw [hnext] at h
  refine ⟨ls, n, hrun.mono fun _ _ _ h => h.2, h.served, fun hstored => ?_⟩
  obtain ⟨n', hsend, hinfo, hpayload⟩ := h.cut ⟨7, 0⟩
  obtain ⟨start, hstart, -, hbytes⟩ := hstored n' 1 hsend
  obtain rfl : 3436 = start := Int.ofNat_inj.mp ((h.calOffset _).symm.trans hstart)
  rw [hinfo, hpayload, h.stored] at hbytes
  exact absurd hbytes (by decide)

/-- The SimpleBlock of cluster 6. -/
def simpleElement : Element where
  idWidth := 1
  idValue := 0x23
  width := 1
  data := List.replicate 15 1
  idWidth_pos := Nat.one_pos
  idWidth_le := one_le_four
  idValue_lt := simpleblock_lt
  width_pos := Nat.one_pos
  width_le := one_le_eight
  size_lt := by decide

def payloadOf6 : ClusterPayload where
  timecode := (openingTimecode.withValue 0).element
  blocks := [simpleElement]
  isTimecode := ⟨by decide, by decide⟩
  areSimple := by
    intro e he
    rw [List.mem_singleton.mp he]
    show simpleElement.id = simpleblockId
    decide
  first_le := by
    intro e he
    rw [← Option.mem_some_iff.mp he]
    decide
  rest_le := by
    intro e he
    rw [List.mem_singleton.mp he]
    decide

theorem Relaying.atStart {next : List UInt8} {n : Node} (h : Relaying next n) :
    Cursor (n.webm.currentChildBlock 0).prev stored6 := by
  have hpayload : payloadOf6.bytes = stored6 := by decide
  rw [← hpayload]
  refine Cursor.atStart payloadOf6 ?_
  rw [h.cursor]
  rfl

theorem Relaying.guard {n : Node} (h : Relaying (simpleBytes 60) n) (env : Env) :
    RelayGuard env 0 n := by
  have hlength : stored6.length = 20 := rfl
  have hnext : (simpleBytes 60).length = 62 := rfl
  refine ⟨by rw [h.cursor]; rfl, .inView (h.calOffset _) h.stored ?_ h.atStart ?_ ?_⟩
  · exact .inl (List.prefix_append _ _)
  · rw [hlength]
    decide
  · right
    rw [h.total, hlength, hnext]
    decide

theorem Relaying.exists_send {n : Node} (h : Relaying (simpleBytes 60) n) (env : Env) :
    ∃ n', sendCacheBlock env 0 n = .ok (n', clusterEnd) := by
  have hstop : IsStop (footer ++ simpleBytes 60) := .inl (List.prefix_append _ _)
  have hholds : (relayWindow env n.webm 3436).Holds
      (stored6 ++ (footer ++ simpleBytes 60).take 4) :=
    relayWindow_inView h.stored hstop (by decide) (.inr (by rw [h.total]; decide))
  obtain ⟨info, hblock, hbytes⟩ := getNextBlockByBytes_inView (n.webm.currentChildBlock 0) hstop
    h.atStart (by rw [h.cursor]; rfl) (by decide) hholds
  obtain ⟨w, hread⟩ := readCacheBlock_eq (h.calOffset _) hblock
  have hle : info.bytes.toNat ≤ 1000 := by
    rw [hbytes]
    decide
  obtain ⟨n', hsend, -⟩ := sendCacheBlock_payload hread hle (readCacheBlock_length hread)
  exact ⟨n', hsend⟩

theorem Relaying.exists_step {n : Node} (h : Relaying (simpleBytes 60) (mulStreamStart n))
    (env : Env) :
    ∃ n', Guarded (NodeStep .peer) (EachServed RelayGuard) n (env, .mulStream) n' := by
  obtain ⟨n', hsend⟩ := h.exists_send env
  obtain ⟨n₁, hchild⟩ := exists_sendMulStreamChild h.served h.allocated hsend
  obtain ⟨_, _, _, _, hn₁⟩ := (sendMulStreamChild_distributes hchild).streamed
  have hfree : n₁.isConnected (childSlot 1) = false := by
    rw [hn₁]
    exact h.free
  have hsecond : sendMulStreamChild env 1 n₁ = .ok (n₁, 0) := sendMulStreamChild_free hfree
  refine ⟨{ n₁ with webm := seekABSWebM n.webm.fp n₁.webm },
    ⟨fun _ => h.guard env, fun n₂ k h₂ hserved => ?_⟩, ?_⟩
  · rw [hchild] at h₂
    cases h₂
    exact absurd (hfree.symm.trans hserved.1) Bool.false_ne_true
  · show Except.map Prod.fst (sendMulStream env n) = _
    have hfirst : sendMulStreamChild env 0 { n with webm := { n.webm with
        currentFposR := n.webm.fp } } = .ok (n₁, 0) := hchild
    simp only [sendMulStream, hfirst, bind, Except.bind, hsecond]
    rfl

/-- A child is sent a whole cluster, under the guard. -/
theorem run_relaysStored_long : ∃ ls n n',
    Run (Guarded (NodeStep .peer) (EachServed RelayGuard)) firstPeer ls n ∧
    IsServed 0 (mulStreamStart n) ∧ NodeStep .peer n (Env.clock ⟨7, 0⟩, .mulStream) n' ∧
    Run (Safe (NodeStep .peer) fun n l _ => EachServed RelaysStored n l) firstPeer
      (ls ++ [(Env.clock ⟨7, 0⟩, .mulStream)]) n' := by
  obtain ⟨ls, n, hrun, h⟩ :=
    exists_relaying longOf7 (by decide) (by decide) (by decide) (by decide)
  have hnext : (longOf7.data.drop blockinfoBytes).take longOf7.info.bytes.toNat =
      simpleBytes 60 := by decide
  rw [hnext] at h
  have hbefore : Run (Guarded (NodeStep .peer) (EachServed RelayGuard)) firstPeer ls n :=
    hrun.mono fun _ _ _ h => ⟨EachServed.of_ne h.1, h.2⟩
  obtain ⟨n', hstep⟩ := h.exists_step (Env.clock ⟨7, 0⟩)
  exact ⟨ls, n, n', hbefore, h.served, hstep.2,
    run_relaysStored (hbefore.append (.cons hstep (.nil _)))⟩

end P2PStream
