/-
# `P2PStream.Overlay.Timecodes` — the timecodes along a chain of relays

The origin sends the first block of a cluster with the cluster's own Timecode.  A relay
stores it less its `TIMECODE_OFFSET`, tells that offset to its children, and sends on what
it has stored.  Any number of relays take steps in any order: each handles whatever a
peer handles, and the first blocks among that have been sent by the origin or by another
relay before.  They may be lost, repeated and reordered.

What a first block in flight says, and the offset of the node that sent it, add up to the
origin's Timecode.  That is the invariant, and the induction over the depth of the chain
is in it: a relay's block is made from one in flight, and becomes one.

InitialStatus makes a node start over: it takes its offset from the next first block.
-/
import P2PStream.Peer.WellFormed
import P2PStream.Peer.Timecode

namespace P2PStream

open Lib

/-! ## First blocks -/

/-- The bytes of a first block of the origin's cluster with the Timecode `t`, at a node with
the offset `offset`. -/
def Encodes (t : Timecode) (bytes : List UInt8) (offset : Nat) : Prop :=
  ∃ (u : Timecode) (rest : List UInt8), bytes = u.bytes ++ rest ∧ u.width = t.width ∧
    u.data.length = t.data.length ∧ u.value + offset = t.value

/-- A first block in flight: its cluster at the origin, its bytes, and the `TIMECODE_OFFSET`
of the node that sent it. -/
structure FirstBlock where
  cluster : Nat
  bytes : List UInt8
  offset : UInt64

/-- The packet of a first block. -/
structure FirstBlock.Carried (m : FirstBlock) (data : Buf) : Prop where
  seq : (copyBytesToBlockInfo data).seq = firstBlockSeq
  clusterSeq : (copyBytesToBlockInfo data).clusterSeq = UInt16.ofNat m.cluster
  length : (copyBytesToBlockInfo data).bytes.toNat = m.bytes.length
  holds : (data.drop blockinfoBytes).Holds m.bytes

/-- Storing a first block whose Timecode is not before the one that the offset comes from. -/
theorem storeBlock_first {t : Timecode} {m : FirstBlock} {data : Buf} {k : UInt16} {w w' : Webm}
    {own : Nat} (h : storeBlock data k w = .ok w') (hm : m.Carried data)
    (hencodes : Encodes t m.bytes m.offset.toNat) (hparent : w.nodeTimecodeOffset = m.offset)
    (hown : own = if w.isGetTimecodeOffset then w.timecodeOffset.toNat else t.value)
    (hle : own ≤ t.value) :
    w'.isGetTimecodeOffset = true ∧ w'.timecodeOffset.toNat = own ∧
      Encodes t (writtenBlock data w) own := by
  obtain ⟨u, rest, hbytes, hwidth, hlength, hsum⟩ := hencodes
  have hvalue : u.value + w.nodeTimecodeOffset.toNat = t.value := by rw [hparent, hsum]
  have hholds : (data.drop blockinfoBytes).Holds (u.bytes ++ rest) := hbytes ▸ hm.holds
  have hsize : (copyBytesToBlockInfo data).bytes.toNat = (u.bytes ++ rest).length := by
    rw [hm.length, hbytes]
  rw [← hvalue] at hown hle
  have hlt : u.value + w.nodeTimecodeOffset.toNat < 2 ^ 64 := by
    rw [hvalue]
    exact t.value_lt_u64
  obtain ⟨data', hfirst, -⟩ := changeFirstBlock_timecode u hm.seq hholds hown hle hlt
  have hwritten := writtenBlock_timecode u hm.seq hsize hholds hown hle hlt
  rw [storeBlock, hfirst] at h
  have hstore := Except.ok.inj h
  have hend := endBlock_offsets data' k
    { beginBlock (copyBytesToBlockInfo data) w with
      timecodeOffset := UInt64.ofNat own
      isGetTimecodeOffset := true }
  rw [hstore] at hend
  simp only [Webm.offsets, Offsets.mk.injEq] at hend
  refine ⟨hend.2.1, ?_, u.withValue (u.value + w.nodeTimecodeOffset.toNat - own), rest, hwritten,
    hwidth, ?_, ?_⟩
  · rw [hend.1, UInt64.toNat_ofNat_of_lt' (Nat.lt_of_le_of_lt hle hlt)]
  · rw [u.length_withValue_data, hlength]
  · rw [hvalue] at hle ⊢
    have hfits : t.value - own < 256 ^ u.data.length := by
      rw [hlength]
      exact Nat.lt_of_le_of_lt (Nat.sub_le _ _) t.value_lt
    have hnew : (u.withValue (t.value - own)).value = t.value - own := ofBe_toBe_of_lt hfits
    rw [hnew, Nat.sub_add_cancel hle]

/-! ## Relays -/

section Relays

variable {ι : Type*}

/-- Any number of relays.  `stored` is what a relay has stored of first blocks since its last
InitialStatus, oldest first: the cluster, and the bytes in its file. -/
structure Relays (ι : Type*) where
  node : ι → Node
  stored : ι → List (Nat × List UInt8)
  sent : List FirstBlock

/-- The node stores a first block when it handles the event. -/
def opensCluster (n : Node) : Event → Bool
  | .block data _ => data.take blockinfoBytes ≠ blockinfoStart ∧
      isOldBlockSeq (copyBytesToBlockInfo data) n.webm = false ∧
      (copyBytesToBlockInfo data).seq = firstBlockSeq
  | _ => false

inductive RelayEvent (ι : Type*) where
  | origin (cluster : Nat) (rest : List UInt8)
  | relay (p : ι) (block : Nat × List UInt8)
  | handle (i : ι) (env : Env) (e : Event)
  | deliver (i : ι) (env : Env) (m : FirstBlock) (data : Buf) (k : UInt16)

/-- What InitialStatus leaves of the first blocks. -/
def keptBlocks (stored : List (Nat × List UInt8)) : Event → List (Nat × List UInt8)
  | .initialStatus .. => []
  | _ => stored

/-- One step of the relays below an origin whose cluster `c` has the Timecode `T c`. -/
inductive RelayStep [DecidableEq ι] (T : Nat → Timecode) : Relays ι → RelayEvent ι → Relays ι → Prop
  /-- The origin, which assigns no `TIMECODE_OFFSET`. -/
  | origin (s : Relays ι) (cluster : Nat) (rest : List UInt8) :
      RelayStep T s (.origin cluster rest)
        { s with sent := ⟨cluster, (T cluster).bytes ++ rest, 0⟩ :: s.sent }
  /-- A relay sends on what it has stored. -/
  | relay {s : Relays ι} {p : ι} {block : Nat × List UInt8} : block ∈ s.stored p →
      RelayStep T s (.relay p block)
        { s with sent := ⟨block.1, block.2, (s.node p).webm.timecodeOffset⟩ :: s.sent }
  /-- Whatever a peer handles, short of the origin's main loop. -/
  | handle {s : Relays ι} {i : ι} {env : Env} {e : Event} {n : Node} :
      opensCluster (s.node i) e = false → (∀ webm, e ≠ .main webm) →
      NodeStep .peer (s.node i) (env, e) n →
      RelayStep T s (.handle i env e)
        { s with
          node := Function.update s.node i n
          stored := Function.update s.stored i (keptBlocks (s.stored i) e) }
  /-- A first block that was sent. -/
  | deliver {s : Relays ι} {i : ι} {env : Env} {m : FirstBlock} {data : Buf} {k : UInt16}
      {n : Node} : m ∈ s.sent → m.Carried data → opensCluster (s.node i) (.block data k) = true →
      NodeStep .peer (s.node i) (env, .block data k) n →
      RelayStep T s (.deliver i env m data k)
        { s with
          node := Function.update s.node i n
          stored := Function.update s.stored i
            (s.stored i ++ [(m.cluster, writtenBlock data (s.node i).webm)]) }

/-- First blocks come in the order of their clusters, and while `NODE_TIMECODE_OFFSET` is the
offset of their sender. -/
def InStep (s : Relays ι) : RelayEvent ι → Prop
  | .deliver i _ m _ _ => (s.node i).webm.nodeTimecodeOffset = m.offset ∧
      ∀ block ∈ s.stored i, block.1 ≤ m.cluster
  | _ => True

/-- Peers as their programs start. -/
structure Relays.Start (s : Relays ι) : Prop where
  node : ∀ i, Started .peer (s.node i)
  stored : ∀ i, s.stored i = []
  sent : s.sent = []

/-- The offset of a relay is the Timecode of the first cluster it stored, and its Timecodes are
the origin's less that. -/
def TimecodesAgree (T : Nat → Timecode) (n : Node) (stored : List (Nat × List UInt8)) : Prop :=
  ∀ first ∈ stored.head?, n.webm.timecodeOffset.toNat = (T first.1).value ∧
    ∀ block ∈ stored, Encodes (T block.1) block.2 (T first.1).value

/-- The invariant. -/
structure Consistent (T : Nat → Timecode) (s : Relays ι) : Prop where
  node : ∀ i, TimecodesAgree T (s.node i) (s.stored i)
  isGet : ∀ i, (s.node i).webm.isGetTimecodeOffset = !(s.stored i).isEmpty
  sent : ∀ m ∈ s.sent, Encodes (T m.cluster) m.bytes m.offset.toNat

variable {T : Nat → Timecode}

theorem started_offsets {n : Node} (h : Started .peer n) : n.webm.offsets = ⟨0, false, 0⟩ := by
  cases h
  rw [peerStart_webm]
  rfl

theorem Relays.Start.consistent {s : Relays ι} (h : s.Start) : Consistent T s := by
  refine ⟨fun i => ?_, fun i => ?_, fun m hm => ?_⟩
  · rw [h.stored i]
    exact fun first hfirst => nomatch hfirst
  · rw [h.stored i]
    exact congrArg Offsets.isGet (started_offsets (h.node i))
  · rw [h.sent] at hm
    cases hm

theorem encodes_origin (t : Timecode) (rest : List UInt8) : Encodes t (t.bytes ++ rest) 0 :=
  ⟨t, rest, rfl, rfl, rfl, Nat.add_zero _⟩

/-- Other than InitialStatus and first blocks, events leave the offset taken. -/
theorem step_offset {env : Env} {e : Event} {n n' : Node} (h : NodeStep .peer n (env, e) n')
    (hopens : opensCluster n e = false) (hmain : ∀ webm, e ≠ .main webm)
    (hinitial : ∀ data k, e ≠ .initialStatus data k) :
    n'.webm.timecodeOffset = n.webm.timecodeOffset ∧
      n'.webm.isGetTimecodeOffset = n.webm.isGetTimecodeOffset := by
  by_cases haside : isAside e = true
  · obtain ⟨_, _, _, _, -, hwebm⟩ := step_sameWrites haside h
    rw [hwebm]
    exact ⟨rfl, rfl⟩
  · have hoffsets : n'.webm.offsets = n.webm.offsets := by
      cases e with
      | block data k =>
          obtain ⟨w, hassemble, hn⟩ := bind_eq_ok.mp h
          have hwebm : n' = { n with webm := w } := (Except.ok.inj hn).symm
          rw [hwebm]
          rcases assembleBlock_cases hassemble with
            ⟨-, rfl⟩ | ⟨-, -, rfl⟩ | ⟨hstart, hnew, hstore⟩
          · exact updateWebM_offsets (writeWebMHeader _ n.webm)
          · rfl
          · refine storeBlock_offsets hstore fun hseq => ?_
            exact absurd (decide_eq_true (And.intro hstart (And.intro hnew hseq)))
              (Bool.eq_false_iff.mp hopens)
      | initialStatus data k => exact absurd rfl (hinitial data k)
      | main webm => exact absurd rfl (hmain webm)
      | _ => exact absurd rfl haside
    simp only [Webm.offsets, Offsets.mk.injEq] at hoffsets
    exact ⟨hoffsets.1, hoffsets.2.1⟩

theorem keptBlocks_eq {e : Event} (hinitial : ∀ data k, e ≠ .initialStatus data k)
    (stored : List (Nat × List UInt8)) : keptBlocks stored e = stored := by
  cases e with
  | initialStatus data k => exact absurd rfl (hinitial data k)
  | _ => rfl

theorem Consistent.handle {s : Relays ι} (h : Consistent T s) {i : ι} {env : Env} {e : Event}
    {n : Node} (hopens : opensCluster (s.node i) e = false) (hmain : ∀ webm, e ≠ .main webm)
    (hstep : NodeStep .peer (s.node i) (env, e) n) :
    TimecodesAgree T n (keptBlocks (s.stored i) e) ∧
      n.webm.isGetTimecodeOffset = !(keptBlocks (s.stored i) e).isEmpty := by
  by_cases hinitial : ∃ data k, e = .initialStatus data k
  · obtain ⟨data, k, rfl⟩ := hinitial
    cases hstep
    exact ⟨fun first hfirst => (nomatch hfirst), rfl⟩
  · have hother : ∀ data k, e ≠ .initialStatus data k := fun data k he => hinitial ⟨data, k, he⟩
    obtain ⟨hown, hget⟩ := step_offset hstep hopens hmain hother
    rw [keptBlocks_eq hother]
    refine ⟨fun first hfirst => ?_, by rw [hget, h.isGet i]⟩
    rw [hown]
    exact h.node i first hfirst

theorem Consistent.deliver (hmono : Monotone fun c => (T c).value) {s : Relays ι}
    (h : Consistent T s) {i : ι} {env : Env} {m : FirstBlock} {data : Buf} {k : UInt16} {n : Node}
    (hm : m ∈ s.sent) (hcarried : m.Carried data)
    (hopens : opensCluster (s.node i) (.block data k) = true)
    (hparent : (s.node i).webm.nodeTimecodeOffset = m.offset)
    (horder : ∀ block ∈ s.stored i, block.1 ≤ m.cluster)
    (hstep : NodeStep .peer (s.node i) (env, .block data k) n) :
    TimecodesAgree T n (s.stored i ++ [(m.cluster, writtenBlock data (s.node i).webm)]) ∧
      n.webm.isGetTimecodeOffset =
        !(s.stored i ++ [(m.cluster, writtenBlock data (s.node i).webm)]).isEmpty := by
  obtain ⟨hnotStart, hnotOld, -⟩ := of_decide_eq_true hopens
  obtain ⟨w, hassemble, hn⟩ := bind_eq_ok.mp hstep
  obtain rfl : { s.node i with webm := w } = n := Except.ok.inj hn
  have hstore : storeBlock data (k - UInt16.ofNat blockinfoBytes) (s.node i).webm = .ok w := by
    rcases assembleBlock_cases hassemble with ⟨hstart, -⟩ | ⟨-, hold, -⟩ | ⟨-, -, hstore⟩
    · exact absurd hstart hnotStart
    · rw [hnotOld] at hold
      cases hold
    · exact hstore
  have hsent := h.sent m hm
  have hget := h.isGet i
  have hnode := h.node i
  cases hstored : s.stored i with
  | nil =>
      -- The first one: the offset is its Timecode.
      rw [hstored] at hget
      have hown : (T m.cluster).value = if (s.node i).webm.isGetTimecodeOffset
          then (s.node i).webm.timecodeOffset.toNat else (T m.cluster).value := by
        rw [hget]
        rfl
      obtain ⟨hisGet, hown, hencodes⟩ :=
        storeBlock_first hstore hcarried hsent hparent hown (le_refl _)
      refine ⟨fun first hfirst => ?_, hisGet⟩
      obtain rfl : first = (m.cluster, writtenBlock data (s.node i).webm) :=
        (Option.mem_some.mp hfirst).symm
      refine ⟨hown, fun block hblock => ?_⟩
      obtain rfl := List.mem_singleton.mp hblock
      exact hencodes
  | cons first rest =>
      rw [hstored] at hget hnode horder
      obtain ⟨hfirstOwn, hblocks⟩ := hnode first rfl
      have hle : (T first.1).value ≤ (T m.cluster).value := hmono (horder first List.mem_cons_self)
      have hown : (T first.1).value = if (s.node i).webm.isGetTimecodeOffset
          then (s.node i).webm.timecodeOffset.toNat else (T m.cluster).value := by
        rw [hget]
        exact hfirstOwn.symm
      obtain ⟨hisGet, hown, hencodes⟩ := storeBlock_first hstore hcarried hsent hparent hown hle
      refine ⟨fun first' hfirst' => ?_, hisGet⟩
      obtain rfl : first = first' := Option.mem_some.mp hfirst'
      refine ⟨hown, fun block hblock => ?_⟩
      rcases List.mem_append.mp hblock with hbefore | hlast
      · exact hblocks block hbefore
      · obtain rfl := List.mem_singleton.mp hlast
        exact hencodes

variable [DecidableEq ι]

theorem Consistent.update {s : Relays ι} (h : Consistent T s) {i : ι} {n : Node}
    {stored : List (Nat × List UInt8)} (hnode : TimecodesAgree T n stored)
    (hisGet : n.webm.isGetTimecodeOffset = !stored.isEmpty) :
    Consistent T { s with
      node := Function.update s.node i n
      stored := Function.update s.stored i stored } := by
  refine ⟨fun j => ?_, fun j => ?_, h.sent⟩
  · show TimecodesAgree T (Function.update s.node i n j) (Function.update s.stored i stored j)
    by_cases hj : j = i
    · subst hj
      rw [Function.update_self, Function.update_self]
      exact hnode
    · rw [Function.update_of_ne hj, Function.update_of_ne hj]
      exact h.node j
  · show (Function.update s.node i n j).webm.isGetTimecodeOffset =
      !(Function.update s.stored i stored j).isEmpty
    by_cases hj : j = i
    · subst hj
      rw [Function.update_self, Function.update_self]
      exact hisGet
    · rw [Function.update_of_ne hj, Function.update_of_ne hj]
      exact h.isGet j

theorem relayStep_consistent (hmono : Monotone fun c => (T c).value) {s t : Relays ι}
    {l : RelayEvent ι} (h : Consistent T s) (hl : InStep s l) (hstep : RelayStep T s l t) :
    Consistent T t := by
  cases hstep with
  | origin cluster rest =>
      refine ⟨h.node, h.isGet, fun m hm => ?_⟩
      rcases List.mem_cons.mp hm with rfl | hm
      · exact encodes_origin _ _
      · exact h.sent m hm
  | @relay p block hblock =>
      refine ⟨h.node, h.isGet, fun m hm => ?_⟩
      rcases List.mem_cons.mp hm with rfl | hm
      · obtain ⟨first, rest, hstored⟩ := List.exists_cons_of_ne_nil (List.ne_nil_of_mem hblock)
        obtain ⟨hown, hblocks⟩ := h.node p first (by rw [hstored]; rfl)
        show Encodes (T block.1) block.2 (s.node p).webm.timecodeOffset.toNat
        rw [hown]
        exact hblocks block hblock
      · exact h.sent m hm
  | handle hopens hmain hnode =>
      obtain ⟨hagree, hisGet⟩ := h.handle hopens hmain hnode
      exact h.update hagree hisGet
  | deliver hm hcarried hopens hnode =>
      obtain ⟨hagree, hisGet⟩ := h.deliver hmono hm hcarried hopens hl.1 hl.2 hnode
      exact h.update hagree hisGet

theorem run_consistent (hmono : Monotone fun c => (T c).value) {s t : Relays ι}
    {ls : List (RelayEvent ι)} (hstart : s.Start)
    (hrun : Run (Guarded (RelayStep T) InStep) s ls t) : Consistent T t :=
  hrun.guarded_invariant (fun _ _ _ h hl hstep => relayStep_consistent hmono h hl hstep)
    hstart.consistent

/-- In every run, at every relay: the Timecodes stored are the origin's, less the one that the
relay took its offset from. -/
theorem run_timecodes (hmono : Monotone fun c => (T c).value) {s t : Relays ι}
    {ls : List (RelayEvent ι)} (hstart : s.Start)
    (hrun : Run (Guarded (RelayStep T) InStep) s ls t) (i : ι) :
    TimecodesAgree T (t.node i) (t.stored i) :=
  (run_consistent hmono hstart hrun).node i

end Relays

/-! ## A lost first block -/

/-- The Timecode of cluster `c` in one byte, which stays at 255. -/
def byteTimecode (c : Nat) : Timecode where
  width := 1
  data := [UInt8.ofNat (min c 255)]
  width_pos := Nat.one_pos
  width_le := one_le_eight
  data_le := Nat.le_of_ble_eq_true rfl

theorem byteTimecode_value (c : Nat) : (byteTimecode c).value = min c 255 := by
  have hlt : min c 255 < 256 := by omega
  show 0 * 256 + (UInt8.ofNat (min c 255)).toNat = _
  rw [UInt8.toNat_ofNat_of_lt' hlt, Nat.zero_mul, Nat.zero_add]

theorem byteTimecode_mono : Monotone fun c => (byteTimecode c).value := by
  intro c d hle
  show (byteTimecode c).value ≤ (byteTimecode d).value
  rw [byteTimecode_value, byteTimecode_value]
  omega

/-- The first block of cluster `c`, which is its Timecode alone. -/
def firstBlockData (c : Nat) : Buf :=
  packetData (copyBlockInfoToBytes ⟨12, 1, 3, 0, UInt16.ofNat c, 0, 0, statusSimpleblock, 0⟩ ++
    (byteTimecode c).bytes)

def firstOf5 : BlockPacket 0 where
  data := firstBlockData 5
  bytes := 21
  first_le := by decide
  seq_pos := by decide
  timecode := fun _ => by decide
  not_end := by decide

def firstOf6 : BlockPacket 0 where
  data := firstBlockData 6
  bytes := 21
  first_le := by decide
  seq_pos := by decide
  timecode := fun _ => by decide
  not_end := by decide

theorem exists_block {first : UInt16} (p : BlockPacket first) {n : Node} (env : Env)
    (halloc : (n.webm.clusterAllocated && n.webm.blockAllocated) = true)
    (hprevious : n.webm.prevCluster.seq < p.info.clusterSeq.toUInt32) :
    ∃ w, storeBlock p.data (p.bytes - UInt16.ofNat blockinfoBytes) n.webm = .ok w ∧
      NodeStep .peer n (env, .block p.data p.bytes) { n with webm := w } := by
  obtain ⟨w, hstore, -⟩ := storeBlock_marks p (p.bytes - UInt16.ofNat blockinfoBytes) n.webm
  have hstep := storeStep_packet p (s := (n, [])) env halloc (isOldBlockSeq_eq_false hprevious)
      hstore
  exact ⟨w, hstore, hstep.2.1⟩

/-- One relay below the origin. -/
def oneRelay (n : Node) (stored : List (Nat × List UInt8)) (sent : List FirstBlock) :
    Relays Unit := ⟨fun _ => n, fun _ => stored, sent⟩

theorem oneRelay_start : (oneRelay firstPeer [] []).Start :=
  ⟨fun _ => .peer .., fun _ => rfl, rfl⟩

section OneRelay

variable {n n' : Node} (stored : List (Nat × List UInt8)) (sent : List FirstBlock) {env : Env}

theorem update_unit {α : Type*} (a b : α) : Function.update (fun _ : Unit => a) () b = fun _ => b :=
  funext fun _ => Function.update_self ..

theorem oneRelay_handle {e : Event} (hopens : opensCluster n e = false)
    (hmain : ∀ webm, e ≠ .main webm) (h : NodeStep .peer n (env, e) n') :
    Guarded (RelayStep byteTimecode) InStep (oneRelay n stored sent) (.handle () env e)
      (oneRelay n' (keptBlocks stored e) sent) := by
  have hstep := RelayStep.handle (T := byteTimecode) (s := oneRelay n stored sent) (i := ())
    hopens hmain h
  simp only [oneRelay, update_unit] at hstep
  exact ⟨trivial, hstep⟩

theorem oneRelay_origin (cluster : Nat) :
    Guarded (RelayStep byteTimecode) InStep (oneRelay n stored sent) (.origin cluster [])
      (oneRelay n stored (⟨cluster, (byteTimecode cluster).bytes ++ [], 0⟩ :: sent)) :=
  ⟨trivial, .origin _ cluster []⟩

theorem oneRelay_deliver {sent : List FirstBlock} {m : FirstBlock} {data : Buf} {k : UInt16}
    (hm : m ∈ sent)
    (hcarried : m.Carried data) (hopens : opensCluster n (.block data k) = true)
    (h : NodeStep .peer n (env, .block data k) n') (hparent : n.webm.nodeTimecodeOffset = m.offset)
    (horder : ∀ block ∈ stored, block.1 ≤ m.cluster) :
    Guarded (RelayStep byteTimecode) InStep (oneRelay n stored sent) (.deliver () env m data k)
      (oneRelay n' (stored ++ [(m.cluster, writtenBlock data n.webm)]) sent) := by
  have hstep := RelayStep.deliver (T := byteTimecode) (s := oneRelay n stored sent) (i := ())
    hm hcarried hopens h
  simp only [oneRelay, update_unit] at hstep
  exact ⟨⟨hparent, horder⟩, hstep⟩

end OneRelay

theorem exists_run_header : ∃ (w : Webm) (ls : List (RelayEvent Unit)),
    Run (Guarded (RelayStep byteTimecode) InStep) (oneRelay firstPeer [] []) ls
      (oneRelay { initialPeer 5 with webm := w } [] []) ∧
    (w.clusterAllocated && w.blockAllocated) = true ∧ w.prevCluster.seq = 0 ∧
    w.isFirstCluster = true ∧ w.currentBlock.prev.clusterSeq = 5 ∧ w.nodeTimecodeOffset = 0 := by
  obtain ⟨data, k, w, hstart, hstep, hjoined, hprev, -, htimecode⟩ :=
    exists_joinedWebm 5 footer (by decide)
  have hstores := hjoined.webm.stores
  have hjoin : NodeStep .peer firstPeer (Env.clock ⟨1, 0⟩, .initialStatus (joinData 5) 68)
      (initialPeer 5) := rfl
  have hinitial := oneRelay_handle (e := .initialStatus (joinData 5) 68) [] [] rfl
    (fun _ he => nomatch he) hjoin
  have hnotFirst : opensCluster (initialPeer 5) (.block data k) = false :=
    decide_eq_false fun h => h.1 hstart
  have hheader := oneRelay_handle [] [] hnotFirst (fun _ he => nomatch he) hstep
  exact ⟨w, _, .cons hinitial (.cons hheader (.nil _)), hstores.allocated, hprev,
    hjoined.webm.isFirst, hstores.prev, htimecode.trans (by decide)⟩

theorem carried_firstOf5 :
    FirstBlock.Carried ⟨5, (byteTimecode 5).bytes ++ [], 0⟩ firstOf5.data where
  seq := by decide
  clusterSeq := by decide
  length := by decide
  holds := Buf.holds_take.mpr (by decide)

theorem carried_firstOf6 :
    FirstBlock.Carried ⟨6, (byteTimecode 6).bytes ++ [], 0⟩ firstOf6.data where
  seq := by decide
  clusterSeq := by decide
  length := by decide
  holds := Buf.holds_take.mpr (by decide)

theorem opensCluster_first {first : UInt16} (p : BlockPacket first) {n : Node}
    (hseq : p.info.seq = firstBlockSeq)
    (hprevious : n.webm.prevCluster.seq < p.info.clusterSeq.toUInt32) :
    opensCluster n (.block p.data p.bytes) = true :=
  decide_eq_true ⟨p.not_start, isOldBlockSeq_eq_false hprevious, hseq⟩

/-- The origin sends the first block of a cluster, and the relay stores it. -/
theorem exists_run_firstBlock {c : Nat} (p : BlockPacket 0)
    (hcarried : FirstBlock.Carried ⟨c, (byteTimecode c).bytes ++ [], 0⟩ p.data) {w : Webm}
    (stored : List (Nat × List UInt8)) (sent : List FirstBlock)
    (halloc : (w.clusterAllocated && w.blockAllocated) = true)
    (hprevious : w.prevCluster.seq < p.info.clusterSeq.toUInt32)
    (hparent : w.nodeTimecodeOffset = 0) (horder : ∀ block ∈ stored, block.1 ≤ c) :
    ∃ w' ls sent', storeBlock p.data (p.bytes - UInt16.ofNat blockinfoBytes) w = .ok w' ∧
      Run (Guarded (RelayStep byteTimecode) InStep)
        (oneRelay { initialPeer 5 with webm := w } stored sent) ls
        (oneRelay { initialPeer 5 with webm := w' }
          (stored ++ [(c, writtenBlock p.data w)]) sent') := by
  obtain ⟨w', hstore, hstep⟩ := exists_block p (n := { initialPeer 5 with webm := w })
    (Env.clock ⟨3, 0⟩) halloc hprevious
  have hopens := opensCluster_first p (n := { initialPeer 5 with webm := w }) hcarried.seq hprevious
  have hsent : (⟨c, (byteTimecode c).bytes ++ [], 0⟩ : FirstBlock) ∈
      ⟨c, (byteTimecode c).bytes ++ [], 0⟩ :: sent := List.mem_cons_self
  have hdeliver := oneRelay_deliver stored hsent hcarried hopens hstep hparent horder
  exact ⟨w', _, _, hstore, .cons (oneRelay_origin stored sent c) (.cons hdeliver (.nil _))⟩

/-- Clusters 5 and 6 from their first blocks on. -/
theorem run_timecodes_two : ∃ (t : Relays Unit) (ls : List (RelayEvent Unit)),
    Run (Guarded (RelayStep byteTimecode) InStep) (oneRelay firstPeer [] []) ls t ∧
    (t.stored ()).map Prod.fst = [5, 6] ∧
      TimecodesAgree byteTimecode (t.node ()) (t.stored ()) := by
  obtain ⟨w, ls, hrun, halloc, hprev, -, hopen, hparent⟩ := exists_run_header
  obtain ⟨w₅, ls₅, sent₅, hstore, hrun₅⟩ := exists_run_firstBlock firstOf5 carried_firstOf5 [] []
    halloc (by rw [hprev]; decide) hparent (fun _ h => nomatch h)
  obtain ⟨hcounts, hmarks⟩ := storeBlock_counts hstore
  simp only [Webm.counts, Counts.mk.injEq] at hcounts
  simp only [Webm.marks, Marks.mk.injEq] at hmarks
  have hprev₅ : w₅.prevCluster.seq = 0 := by
    rw [hmarks.2.1, if_pos (by rw [hopen]; decide), hprev]
  have horder : ∀ block ∈ [(5, writtenBlock firstOf5.data w)], block.1 ≤ 6 := by
    intro block hblock
    obtain rfl := List.mem_singleton.mp hblock
    exact Nat.le_succ 5
  obtain ⟨w₆, ls₆, sent₆, -, hrun₆⟩ := exists_run_firstBlock firstOf6 carried_firstOf6 _ sent₅
    (hmarks.1.trans halloc) (by rw [hprev₅]; decide) (hcounts.2.2.2.2.2.2.trans hparent) horder
  have hall := hrun.append (hrun₅.append hrun₆)
  exact ⟨_, _, hall, rfl, run_timecodes byteTimecode_mono oneRelay_start hall ()⟩

/-- The first block of cluster 5 is lost, and another of its blocks is stored: the offset is that
of cluster 6. -/
theorem lostFirstBlock_offset : ∃ (t : Relays Unit) (ls : List (RelayEvent Unit)),
    Run (Guarded (RelayStep byteTimecode) InStep) (oneRelay firstPeer [] []) ls t ∧
    (t.node ()).webm.firstClusterSeq = 5 ∧ (t.stored ()).map Prod.fst = [6] ∧
    (t.node ()).webm.timecodeOffset.toNat ≠ (byteTimecode 5).value := by
  obtain ⟨w, ls, hrun, halloc, hprev, hisFirst, hopen, hparent⟩ := exists_run_header
  obtain ⟨w₅, hstore, hstep⟩ := exists_block byteOf5 (n := { initialPeer 5 with webm := w })
    (Env.clock ⟨3, 0⟩) halloc (by rw [hprev]; decide)
  obtain ⟨hcounts, hmarks⟩ := storeBlock_counts hstore
  simp only [Webm.counts, Counts.mk.injEq] at hcounts
  simp only [Webm.marks, Marks.mk.injEq] at hmarks
  have hprev₅ : w₅.prevCluster.seq = 0 := by
    rw [hmarks.2.1, if_pos (by rw [hopen]; decide), hprev]
  have hnotFirst : opensCluster { initialPeer 5 with webm := w }
      (.block byteOf5.data byteOf5.bytes) = false :=
    decide_eq_false fun h => absurd h.2.2 (by decide)
  have hlater := oneRelay_handle [] [] hnotFirst (fun _ he => Event.noConfusion he) hstep
  obtain ⟨w₆, ls₆, sent₆, hstore₆, hrun₆⟩ := exists_run_firstBlock firstOf6 carried_firstOf6 [] []
    (hmarks.1.trans halloc) (by rw [hprev₅]; decide)
    (hcounts.2.2.2.2.2.2.trans hparent) (fun _ h => absurd h List.not_mem_nil)
  obtain ⟨hcounts₆, -⟩ := storeBlock_counts hstore₆
  simp only [Webm.counts, Counts.mk.injEq] at hcounts₆
  have hall := hrun.append (.cons hlater hrun₆)
  refine ⟨_, _, hall, ?_, rfl, ?_⟩
  · show w₆.firstClusterSeq = 5
    rw [hcounts₆.2.1, if_neg (by rw [hcounts.1]; decide), hcounts.2.1, if_pos hisFirst]
    decide
  · have hagree := (run_consistent byteTimecode_mono oneRelay_start hall).node () _ rfl
    have hown : w₆.timecodeOffset.toNat = (byteTimecode 6).value := hagree.1
    show w₆.timecodeOffset.toNat ≠ _
    rw [hown, byteTimecode_value, byteTimecode_value]
    decide

end P2PStream
