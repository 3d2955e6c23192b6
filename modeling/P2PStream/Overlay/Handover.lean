/-
# `P2PStream.Overlay.Handover` — a node that changes its parent

A node that departs is told the cluster in which the old parent's cursor stands, and one
that drops its parent takes the number of its own open cluster.  Its Connect carries the
number to the new parent, which goes on at the head of the cluster behind: `RenewBlock`
adds one.  `NodeSetup` takes the one back, `NodeConnect` does not.  So what the node still
lacks of the cluster is not sent again.
-/
import Mathlib.Data.Prod.Lex
import P2PStream.Peer.Relay
import P2PStream.Peer.Resume

namespace P2PStream

open Lib

/-! ## Positions in the stream -/

/-- The number of a cluster and that of a block in it, in lexicographic order. -/
abbrev Position := Lex (Nat × Nat)

/-- The block behind the one at `p`, when cluster `c` has `count c` blocks. -/
def successor (count : Nat → Nat) (p : Position) : Position :=
  if (ofLex p).2 < count (ofLex p).1 then toLex ((ofLex p).1, (ofLex p).2 + 1)
  else toLex ((ofLex p).1 + 1, 1)

/-- The cluster lies before `p` to its end. -/
def EndsBefore (count : Nat → Nat) (c : Nat) (p : Position) : Prop :=
  c < (ofLex p).1 ∨ c = (ofLex p).1 ∧ count c ≤ (ofLex p).2

/-- The head of the next cluster leaves no gap exactly when the cluster is over. -/
theorem next_le_successor_iff (count : Nat → Nat) (c : Nat) (p : Position) :
    toLex (c + 1, 1) ≤ successor count p ↔ EndsBefore count c p := by
  obtain ⟨k, s⟩ := p
  by_cases hmore : s < count k
  · have hsucc : successor count (k, s) = toLex (k, s + 1) := if_pos hmore
    rw [hsucc, Prod.Lex.toLex_le_toLex]
    show c + 1 < k ∨ c + 1 = k ∧ 1 ≤ s + 1 ↔ c < k ∨ c = k ∧ count c ≤ s
    constructor
    · intro h
      exact .inl (by omega)
    · rintro (h | ⟨rfl, h⟩)
      · omega
      · omega
  · have hsucc : successor count (k, s) = toLex (k + 1, 1) := if_neg hmore
    rw [hsucc, Prod.Lex.toLex_le_toLex]
    show c + 1 < k + 1 ∨ c + 1 = k + 1 ∧ 1 ≤ 1 ↔ c < k ∨ c = k ∧ count c ≤ s
    constructor
    · rintro (h | ⟨h, -⟩)
      · exact .inl (by omega)
      · obtain rfl : c = k := by omega
        exact .inr ⟨rfl, by omega⟩
    · rintro (h | ⟨rfl, -⟩)
      · exact .inl (by omega)
      · exact .inr ⟨rfl, le_refl 1⟩

theorem head_le_successor (count : Nat → Nat) (p : Position) :
    toLex (0, 1) ≤ successor count p := by
  obtain ⟨k, s⟩ := p
  unfold successor
  split
  · rw [Prod.Lex.toLex_le_toLex]
    rcases Nat.eq_zero_or_pos k with rfl | hpos
    · exact .inr ⟨rfl, Nat.le_add_left 1 s⟩
    · exact .inl hpos
  · exact (Prod.Lex.toLex_le_toLex ..).mpr (.inl (Nat.succ_pos k))

/-- `(cluster_seq, seq)`. -/
def BlockInfo.position (info : BlockInfo) : Position :=
  toLex (info.clusterSeq.toNat, info.seq.toNat)

/-- The last block that the node has stored; behind a join, the head of a cluster. -/
def Node.lastStored (n : Node) : Position := n.webm.currentBlock.prev.position

/-! ## The head of a cluster -/

theorem getChankByBytes_seq {block block' : Block} {buf : Buf} {req : UInt16} {ret : Int}
    (h : getChankByBytes block buf req = some (block', ret)) :
    block'.info.seq = block.info.seq := by
  simp only [getChankByBytes, Option.bind_eq_bind, Option.bind_eq_some_iff] at h
  obtain ⟨_, -, h⟩ := h
  cases h
  rfl

theorem getFirstBlock_seq {block block' : Block} {req : UInt16} {head : Buf} {ret : Int}
    (h : getFirstBlock block req head = some (block', ret)) :
    block'.info.seq = firstBlockSeq := by
  simp only [getFirstBlock, Option.bind_eq_bind, Option.bind_eq_some_iff, Prod.exists] at h
  obtain ⟨walked, status, hwalked, h⟩ := h
  have hseq : walked.info.seq = firstBlockSeq := getChankByBytes_seq hwalked
  split at h
  · cases h
    exact hseq
  · split at h
    · cases h
      exact hseq
    · cases h
      exact hseq

theorem sendCacheBlock_head {env : Env} {i : Fin maxChildNum} {n n' : Node} {status : Int}
    {number : UInt16} (hcursor : (n.webm.currentChildBlock i).prev = clusterCursor number)
    (h : sendCacheBlock env i n = .ok (n', status)) :
    (n'.webm.currentChildBlock i).info.position = toLex (number.toNat, 1) := by
  obtain ⟨⟨w, block, st, payload⟩, hread, h⟩ := bind_eq_ok.mp h
  have hcluster := readCacheBlock_cluster hread
  cases h
  have hblock : (w.setChildBlock i block).currentChildBlock i = block :=
    currentChildBlock_setChildBlock w i block
  have hseq : block.info.seq = firstBlockSeq := by
    simp only [readCacheBlock] at hread
    split at hread
    · cases hread
    · next hnext =>
      cases hread
      have hinit : (n.webm.currentChildBlock i).prev.status = statusInit := by rw [hcursor]; rfl
      simp only [getNextBlockByBytes, if_pos hinit] at hnext
      exact getFirstBlock_seq hnext
  show ((w.setChildBlock i block).currentChildBlock i).info.position = _
  rw [hblock, BlockInfo.position, hcluster, hseq, hcursor]
  rfl

/-! ## A child that is not served yet -/

/-- Child slot `i` stays with its child, which is not served. -/
def Idles (i : Fin maxChildNum) (n : Node) (l : Env × Event) : Prop :=
  n.isConnected (childSlot i) = true ∧ EachServed (fun _ j _ => j ≠ i) n l

section Idle

variable {program : Program} {env : Env} {i : Fin maxChildNum} {n n' : Node}

theorem sendMulStreamChild_other {j : Fin maxChildNum} {k : Nat}
    (h : sendMulStreamChild env j n = .ok (n', k)) (hj : IsServed j n → j ≠ i) :
    n'.webm.currentChildBlock i = n.webm.currentChildBlock i := by
  unfold sendMulStreamChild at h
  split at h
  · next hconnected =>
    split at h
    · cases h
    · split at h
      · next hold =>
        obtain ⟨⟨n₁, status⟩, hsend, h⟩ := bind_eq_ok.mp h
        obtain ⟨⟨w, block, st, payload⟩, hread, hsend⟩ := bind_eq_ok.mp hsend
        obtain ⟨x, y, rfl⟩ := readCacheBlock_fp hread
        have hne := hj ⟨hconnected, hold⟩
        cases h
        cases hsend
        exact (Function.update_of_ne hne.symm ..).trans (Function.update_of_ne hne.symm ..)
      · cases h
        rfl
  · cases h
    rfl

theorem sendMulStream_idle {ret : Int} (hidle : EachServed (fun _ j _ => j ≠ i) n (env, .mulStream))
    (h : sendMulStream env n = .ok (n', ret)) :
    n'.webm.currentChildBlock i = n.webm.currentChildBlock i := by
  obtain ⟨⟨n₁, k₁⟩, h₁, h⟩ := bind_eq_ok.mp h
  obtain ⟨⟨n₂, k₂⟩, h₂, h⟩ := bind_eq_ok.mp h
  have hfirst := sendMulStreamChild_other h₁ hidle.1
  have hsecond := sendMulStreamChild_other h₂ (hidle.2 n₁ k₁ h₁)
  cases h
  simp only [seekABSWebM, fsetpos]
  split <;> exact hsecond.trans hfirst

theorem setChildBlock_other {j : Fin maxChildNum} {w : Webm} (block : Block)
    (hi : n.isConnected (childSlot i) = true) (hj : n.isConnected (childSlot j) = false) :
    (w.setChildBlock j block).currentChildBlock i = w.currentChildBlock i := by
  have hne : i ≠ j := by
    rintro rfl
    exact absurd (hi.symm.trans hj) (by decide)
  exact Function.update_of_ne hne ..

theorem step_idle {e : Event} (hidle : Idles i n (env, e)) (h : n.step program env e = .ok n') :
    n'.webm.currentChildBlock i = n.webm.currentChildBlock i := by
  have hquiet : ∀ {m : Node} {f : Event}, isQuiet f = true → m.step .peer env f = .ok n' →
      n'.webm.currentChildBlock i = m.webm.currentChildBlock i := by
    intro m f hf hstep
    rw [(step_sameStore hf hstep).webm]
  cases e with
  | setup data k saddr source =>
      have hbits := congrArg Links.connected (receiveSetup_links program k saddr source n)
      have hi : (receiveSetup program k saddr source n).isConnected (childSlot i) = true :=
        (congrArg (fun x : BitVec 8 => x.getLsbD (childSlot i)) hbits).trans hidle.1
      rcases nodeSetup_stream h with ⟨hwebm, -⟩ | ⟨j, hj, -, hwebm, -⟩
      · rw [hwebm, receiveSetup_webm]
      · rw [hwebm, setChildBlock_other _ hi hj, receiveSetup_webm]
  | initialStatus data k => cases h; rfl
  | advertise data k =>
      cases h
      exact congrFun (congrArg Webm.currentChildBlock (sendSetup_talks _).sameStore.webm) i
  | connect data =>
      rcases nodeConnect_stream h with ⟨hwebm, -⟩ | ⟨j, hj, -, hwebm⟩
      · rw [hwebm]
      · rw [hwebm, setChildBlock_other _ hidle.1 hj]
  | mulStream =>
      obtain ⟨ret, hsend⟩ := step_mulStream h
      exact sendMulStream_idle hidle.2 hsend
  | main webm => cases h; rfl
  | block data k =>
      cases program with
      | origin => cases h; rfl
      | peer =>
          obtain ⟨webm, hassemble, h⟩ := bind_eq_ok.mp h
          cases h
          exact congrFun (assembleBlock_children hassemble) i
  | id data => cases program <;> cases h <;> rfl
  | resList data k => cases program <;> cases h <;> rfl
  | accept data =>
      cases program with
      | origin => cases h; rfl
      | peer => cases h; rw [nodeAccept_webm]
  | unaccept data =>
      cases program with
      | origin => cases h; rfl
      | peer => exact hquiet (f := .unaccept data) rfl h
  | depart data => exact hquiet (f := .depart data) rfl h
  | detach data => exact hquiet (f := .detach data) rfl h
  | reqList data => exact hquiet (f := .reqList data) rfl h
  | keepAlive data => exact hquiet (f := .keepAlive data) rfl h
  | keepAliveRes data => exact hquiet (f := .keepAliveRes data) rfl h
  | timeKeepAlive => exact hquiet (f := .timeKeepAlive) rfl h
  | timeSetup => exact hquiet (f := .timeSetup) rfl h
  | timeout s => exact hquiet (f := .timeout s) rfl h
  | timeList => exact hquiet (f := .timeList) rfl h
  | timeRetry => exact hquiet (f := .timeRetry) rfl h
  | timeCache => exact hquiet (f := .timeCache) rfl h
  | timeDepart => exact hquiet (f := .timeDepart) rfl h

theorem run_idle {ls : List (Env × Event)}
    (hrun : Run (Guarded (NodeStep program) (Idles i)) n ls n') :
    n'.webm.currentChildBlock i = n.webm.currentChildBlock i := by
  have hkeep : ∀ s l t, s.webm.currentChildBlock i = n.webm.currentChildBlock i → Idles i s l →
      NodeStep program s l t → t.webm.currentChildBlock i = n.webm.currentChildBlock i :=
    fun s l t hsame hidle hstep => (step_idle hidle hstep).trans hsame
  exact hrun.guarded_invariant hkeep rfl

end Idle

/-! ## The hand-over -/

/-- In the step from `n` to `n'` the node loses its parent, and goes on in cluster `c`. -/
inductive LosesParent (n n' : Node) : UInt16 → Prop
  /-- Its Depart is answered; when both child slots of the old parent record the id of the Depart,
  the second counts. -/
  | detach {d d' p p' : Node} {program : Program} {env env' env'' : Env} {depart detach : Buf}
      {i : Fin maxChildNum} {ls : List (Env × Event)}
      (hleave : NodeStep .peer d (env, .timeDepart) d') (hsent : d'.sent ≠ d.sent)
      (hdepart : depart.Holds (lastData d').tail)
      (hnames : Names p (readLink depart).id i)
      (hlast : ∀ j, i < j → ¬ Names p (readLink depart).id j)
      (hold : NodeStep program p (env', .depart depart) p')
      (hrun : Run (NodeStep .peer) d' ls n)
      (hdetach : detach.Holds (lastData p').tail)
      (h : NodeStep .peer n (env'', .detach detach) n') : LosesParent n n' (p.webm.cursorSeq i)
  /-- Its parent times out. -/
  | timeout {env : Env} (hout : isTimedOut env parentId n = true)
      (h : NodeStep .peer n (env, .timeout parentId) n') :
      LosesParent n n' n.webm.currentCluster.seq.toUInt16
  /-- Nobody has answered since. -/
  | retry {env : Env} (hdue : (n.isRetry && n.exceeds env n.retryTimestamp fiveSeconds) = true)
      (h : NodeStep .peer n (env, .timeRetry) n') :
      LosesParent n n' n.webm.currentCluster.seq.toUInt16

/-- The node has sent the Connect that is accepted: as it left, or when another candidate had
refused it. -/
inductive Asks (n : Node) : Node → Prop
  | leaving : Asks n n
  | refused {m m' : Node} {env : Env} {data : Buf} {ls : List (Env × Event)}
      (hrun : Run (Guarded (NodeStep .peer) fun m l => setsResume l.1 m l.2 = false) n ls m)
      (h : NodeStep .peer m (env, .unaccept data) m') : Asks n m'

/-- `SendMulStream` comes to the child in slot `i`, in this state. -/
inductive Turn (env : Env) (n : Node) : Fin maxChildNum → Node → Prop
  | first : Turn env n 0 (mulStreamStart n)
  | second {n₁ : Node} {k : Nat} (h : sendMulStreamChild env 0 (mulStreamStart n) = .ok (n₁, k)) :
      Turn env n 1 n₁

/-- The new parent accepts the Connect, and the first block that it sends to the child is `info`. -/
inductive SendsFirst (program : Program) (p : Node) (data : Buf) : BlockInfo → Prop
  | intro {q m t t' : Node} {env env' : Env} {i : Fin maxChildNum} {status : Int}
      {ls : List (Env × Event)}
      (hadmits : AdmitsConnect env (readLink data).id p) (hfree : checkChildNum p = some i)
      (haccept : NodeStep program p (env, .connect data) q)
      (hrun : Run (Guarded (NodeStep program) (Idles i)) q ls m)
      (hturn : Turn env' m i t) (hserved : IsServed i t)
      (hsend : sendCacheBlock env' i t = .ok (t', status)) :
      SendsFirst program p data (t'.webm.currentChildBlock i).info

/-- A node loses its parent and goes on in cluster `c`; `p` is its new parent, as the Connect comes,
and `m` is the node when `p` sends it `info`, the first block. -/
inductive HandsOver (c : UInt16) (p m : Node) (info : BlockInfo) : Prop
  | intro {n n' asking : Node} {program : Program} {data : Buf} {ls : List (Env × Event)}
      (hloses : LosesParent n n' c) (hasks : Asks n' asking)
      (hrun : Run (NodeStep .peer) asking ls m)
      (hdata : data.Holds (lastData asking).tail) (hfirst : SendsFirst program p data info)

theorem departSeq_eq {env : Env} {id : UInt16} {n : Node} {i : Fin maxChildNum}
    (hi : Names n id i) (hlast : ∀ j, i < j → ¬ Names n id j) :
    departSeq env id n = htons (n.webm.cursorSeq i) := by
  rcases child_eq i with rfl | rfl
  · rw [departSeq, if_neg (hlast 1 (by decide)), if_pos hi]
    rfl
  · rw [departSeq, if_pos hi]
    rfl

theorem nodeDepart_detach {program : Program} {env : Env} {depart detach : Buf} {n n' : Node}
    {i : Fin maxChildNum} (h : NodeStep program n (env, .depart depart) n')
    (hi : Names n (readLink depart).id i) (hlast : ∀ j, i < j → ¬ Names n (readLink depart).id j)
    (hdetach : detach.Holds (lastData n').tail) : readU16 detach = n.webm.cursorSeq i := by
  obtain ⟨-, -, -, -, hreply⟩ := nodeDepart_spec h
  rw [departSeq_eq hi hlast, reverse_toBe_htons] at hreply
  rw [hreply, List.tail_cons] at hdetach
  have hbytes := Buf.holds_take.mp hdetach
  rw [length_toBe] at hbytes
  rw [readU16, hbytes, ofNat_ofBe_toBe_u16]

theorem LosesParent.resume {n n' : Node} {c : UInt16} (h : LosesParent n n' c) :
    n'.resumeSeq = c ∧ AsksFor n' := by
  cases h with
  | detach _ _ _ hnames hlast hold _ hdetach h =>
      obtain ⟨hresume, hasks⟩ := nodeDetach_resume h
      exact ⟨hresume.trans (nodeDepart_detach hold hnames hlast hdetach), hasks⟩
  | timeout hout h => exact timeout_resume hout h
  | retry hdue h => exact timeRetry_resume hdue h

theorem Asks.resume {n m : Node} (h : Asks n m) (hn : AsksFor n) :
    m.resumeSeq = n.resumeSeq ∧ AsksFor m := by
  cases h with
  | leaving => exact ⟨rfl, hn⟩
  | refused hrun h =>
      obtain ⟨hresume, hasks⟩ := nodeUnaccept_resume h
      exact ⟨hresume.trans (run_resumeSeq hrun), hasks⟩

theorem Turn.currentChildBlock {env : Env} {n t : Node} {i : Fin maxChildNum}
    (h : Turn env n i t) : t.webm.currentChildBlock i = n.webm.currentChildBlock i := by
  cases h with
  | first => rfl
  | second h =>
      have hne : (0 : Fin maxChildNum) ≠ 1 := by decide
      have hother := sendMulStreamChild_other h fun _ => hne
      exact hother

theorem nodeConnect_cursor {env : Env} {data : Buf} {n n' : Node} {i : Fin maxChildNum}
    (hadmits : AdmitsConnect env (readLink data).id n) (hfree : checkChildNum n = some i)
    (h : nodeConnect env data n = .ok n') :
    n'.webm.currentChildBlock i =
      ⟨BlockInfo.zero, clusterCursor ((copyBytesToBlockInfo data).clusterSeq + 1)⟩ := by
  obtain ⟨hcache, -, hnew⟩ := hadmits
  have hdup : ¬ isDuplicatedChild (copyBytesToNodeStatus NodeStatus.zero data).id env n = true :=
    Bool.eq_false_iff.mp hnew
  simp only [nodeConnect, if_neg hcache, hfree, if_neg hdup] at h
  split at h
  · cases h
  · cases h
    exact currentChildBlock_setChildBlock n.webm i _

theorem SendsFirst.position {program : Program} {p : Node} {data : Buf} {info : BlockInfo}
    (h : SendsFirst program p data info) :
    info.position = toLex (((copyBytesToBlockInfo data).clusterSeq + 1).toNat, 1) := by
  cases h with
  | intro hadmits hfree haccept hrun hturn _ hsend =>
      have hcursor := hturn.currentChildBlock.trans (run_idle hrun)
      rw [nodeConnect_cursor hadmits hfree haccept] at hcursor
      exact sendCacheBlock_head (congrArg Block.prev hcursor) hsend

/-! ## What should hold -/

/-- The first block that the new parent sends is not behind the successor of the last block that
the node has stored. -/
def NoGap (count : Nat → Nat) (m : Node) (info : BlockInfo) : Prop :=
  info.position ≤ successor count m.lastStored

instance (count : Nat → Nat) (m : Node) (info : BlockInfo) : Decidable (NoGap count m info) :=
  inferInstanceAs (Decidable (_ ≤ _))

/-- A change of parent leaves no gap exactly when the node has stored the cluster in which it goes
on, to its end, or when that has the last number. -/
theorem handsOver_iff {c : UInt16} {p m : Node} {info : BlockInfo} (h : HandsOver c p m info)
    (count : Nat → Nat) :
    NoGap count m info ↔ EndsBefore count c.toNat m.lastStored ∨ c = 65535 := by
  cases h with
  | intro hloses hasks _ hdata hfirst =>
      obtain ⟨hleft, hconnects⟩ := hloses.resume
      obtain ⟨hasked, hconnect⟩ := hasks.resume hconnects
      have hposition := hfirst.position
      rw [hconnect.clusterSeq hdata, hasked, hleft] at hposition
      rw [NoGap, hposition]
      by_cases hlast : c = 65535
      · subst hlast
        exact iff_of_true (head_le_successor count m.lastStored) (.inr rfl)
      · have hlt : c.toNat < 65535 := by
          have hmax := c.toNat_lt
          have hne : c.toNat ≠ 65535 := fun heq => hlast (UInt16.toNat_inj.mp heq)
          omega
        have hnext : (c + 1).toNat = c.toNat + 1 := by
          rw [UInt16.toNat_add, show (1 : UInt16).toNat = 1 from rfl]
          omega
        rw [hnext, next_le_successor_iff, or_iff_left hlast]

/-! ## A gap -/

/-- A peer at 10.0.0.3. -/
def leaverStart : Node :=
  peerStart (Env.clock ⟨0, 0⟩) 0x0300000a 0x0100000a 12347 Timeval.zero freshBlocks

/-- It joins under a node at 10.0.0.4 and is told of the first peer. -/
def leaverData : Buf :=
  initialStatusData [{ statusOf 2 3 12347 2 with clusterSeq := 5 }, statusOf 3 4 12348 1,
    statusOf 1 2 12346 1]

/-- It is sent the WebM header and a block of cluster 5. -/
def leaverEvents : List (Env × Event) :=
  [(Env.clock ⟨1, 0⟩, .initialStatus leaverData 98),
    (Env.clock ⟨2, 0⟩, .block (packetData (List.replicate blockinfoBytes 0 ++ footer)) 30),
    (Env.clock ⟨3, 0⟩, .block simpleOf5.data simpleOf5.bytes)]

def leaver : Node := leaverEvents.foldl (fun n l => n.after .peer l.1 l.2) leaverStart

/-- Its parent is silent. -/
def leaverAsking : Node := leaver.after .peer (Env.clock ⟨7, 0⟩) (.timeout parentId)

theorem leaverStart_run : Run (NodeStep .peer) leaverStart leaverEvents leaver := by
  refine .cons (Node.after_step ?_) (.cons (Node.after_step ?_)
    (.cons (Node.after_step ?_) (.nil _))) <;> decide +kernel

theorem leaver_timeout :
    NodeStep .peer leaver (Env.clock ⟨7, 0⟩, .timeout parentId) leaverAsking :=
  Node.after_step (by decide +kernel)

theorem leaver_losesParent : LosesParent leaver leaverAsking 5 := by
  have hseq : leaver.webm.currentCluster.seq.toUInt16 = 5 := by decide +kernel
  have hloses := LosesParent.timeout (by decide +kernel) leaver_timeout
  rwa [hseq] at hloses

theorem leaver_connectData : connectData.Holds (lastData leaverAsking).tail := by
  have hsent : (lastData leaverAsking).tail =
      copyNodeStatusToBytes { statusOf 2 3 12347 2 with clusterSeq := 5 } := by decide +kernel
  rw [hsent]
  exact Buf.overlay_holds Buf.zero _

theorem exists_handsOver : ∃ ls p, Run (NodeStep .peer) firstPeer ls p ∧
    HandsOver 5 p leaverAsking cutBlock := by
  obtain ⟨ls, ms, w, n', n, hrun, hconnect, hblocks, hrelaying⟩ :=
    exists_relaying_connect shortOf7 (by decide) (by decide) (by decide) (by decide)
  have hnext : (shortOf7.data.drop blockinfoBytes).take shortOf7.info.bytes.toNat =
      simpleBytes 15 := by decide
  rw [hnext] at hrelaying
  obtain ⟨n'', hsend, hinfo, -⟩ := hrelaying.cut ⟨7, 0⟩
  have hadmits : AdmitsConnect (Env.clock ⟨4, 0⟩) (readLink connectData).id (cachedPeer w) :=
    ⟨Int.lt_irrefl _, by rw [cachedPeer_free]; exact Option.some_ne_none _, cachedPeer_new w _ _⟩
  have hidles : Run (Guarded (NodeStep .peer) (Idles 0)) n' ms n :=
    hblocks.mono fun _ _ _ h => ⟨⟨h.1.2, .of_ne h.1.1⟩, h.2⟩
  have hfirst : SendsFirst .peer (cachedPeer w) connectData cutBlock := hinfo ▸
    .intro hadmits (cachedPeer_free w) hconnect hidles .first hrelaying.served hsend
  exact ⟨ls, _, hrun.mono fun _ _ _ h => h.2, .intro leaver_losesParent .leaving (.nil _)
    leaver_connectData hfirst⟩

/-- When cluster 5 has two blocks, the node lacks none. -/
theorem handsOver_whole : ∃ p, HandsOver 5 p leaverAsking cutBlock ∧
    NoGap (fun _ => 2) leaverAsking cutBlock := by
  obtain ⟨-, p, -, hover⟩ := exists_handsOver
  have hends : EndsBefore (fun _ => 2) 5 leaverAsking.lastStored := .inr (by decide +kernel)
  exact ⟨p, hover, (handsOver_iff hover fun _ => 2).mpr (.inl hends)⟩

/-- The node has stored block 2 of cluster 5 when its parent times out; its new parent goes on with
block 1 of cluster 6, and block 3 of cluster 5 is skipped. -/
theorem handsOver_gap : ∃ ls ls' p, Started .peer leaverStart ∧ Started .peer firstPeer ∧
    Run (NodeStep .peer) leaverStart ls leaverAsking ∧ Run (NodeStep .peer) firstPeer ls' p ∧
    HandsOver 5 p leaverAsking cutBlock ∧ leaverAsking.lastStored = toLex (5, 2) ∧
    cutBlock.position = toLex (6, 1) ∧ successor (fun _ => 3) (toLex (5, 2)) = toLex (5, 3) ∧
    ¬ NoGap (fun _ => 3) leaverAsking cutBlock := by
  obtain ⟨ls, p, hrun, hover⟩ := exists_handsOver
  have hlast : leaverAsking.lastStored = toLex (5, 2) := by decide +kernel
  refine ⟨_, ls, p, .peer .., .peer .., leaverStart_run.append (.cons leaver_timeout (.nil _)),
    hrun, hover, hlast, by decide, by decide, ?_⟩
  rw [NoGap, hlast]
  decide

end P2PStream
