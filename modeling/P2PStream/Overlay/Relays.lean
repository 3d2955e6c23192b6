/-
# `P2PStream.Overlay.Relays` — the stream through a chain of peers

A peer that lacks no block of its parent's stream, and has closed a cluster, is to its own
children what the origin is to it: it sends them the file it has, from the cluster they were
admitted at on.  So a link whose sender is the peer of another link is again a link that is
fed: `feeds_relay`.  By induction on the chain every peer has the header and the clusters of
the origin's file, from its own first one on.

Each peer takes the Timecode of its first cluster from all others.  Where Timecodes do not
fall, that of the first one alone is left of it: a peer at any depth has the file it would
have as a child of the origin.
-/
import P2PStream.Overlay.Catchup

namespace P2PStream

open Lib

/-! ## Rebased twice -/

namespace StreamFile

variable (f : StreamFile)

end StreamFile

/-- The file of a peer that lacks no block from cluster `first` on. -/
def StreamFile.from (f : StreamFile) (first : UInt16) : StreamFile :=
  f.rebased (f.timecode first.toNat)

theorem StreamFile.Small.from {f : StreamFile} (h : f.Small) (first : UInt16) :
    (f.from first).Small := by
  intro p hp
  obtain ⟨q, hq, rfl⟩ := List.mem_map.mp hp
  rw [q.length_rebased]
  exact h q hq

theorem StreamFile.HeaderFits.from {f : StreamFile} (h : f.HeaderFits) (first : UInt16) :
    (f.from first).HeaderFits := h

theorem StreamFile.length_from (f : StreamFile) (first : UInt16) :
    (f.from first).clusters.length = f.clusters.length := List.length_map ..

/-- What a peer with a child at `b` does while it is followed here: it handles the blocks that it
is sent, and packets that move no link and no child; it streams, where `TOTAL_FILE_BYTES` clips
nothing that is read for the child; its timers run, and it answers the Setup of others. -/
def PassesOn {S : Sender} (f : StreamFile) (first : UInt16) (b : Addr) (j : Fin maxChildNum)
    (s : Hop S) : HopLabel S → Prop
  | .parent _ => True
  | .deliver env rest => env.freshPrevCluster.seq ≤ first.toUInt32 ∧
      ∀ p wire e, s.wire = p :: wire → p.event rest = some e →
        isIdle e = true ∨ ∃ data k, e = .block data k
  | .lose => False
  | .peer env e => isIdle e = true ∨ e = .timeCache ∨
      (∃ data k saddr source, e = .setup data k saddr source ∧ setupFrom saddr source ≠ b) ∨
      (e = .mulStream ∧ (∀ i, env.past i = 0) ∧
        ∀ p, CursorAt f (s.peer.webm.currentChildBlock j) p →
          Unclipped f first.toNat p s.peer.webm.totalFileBytes)

/-- The peer of a link, for its child at `b` in slot `j`. -/
abbrev relayTo (S : Sender) (a : Addr) (f : StreamFile) (first : UInt16) (b : Addr)
    (j : Fin maxChildNum) : Sender where
  State := Hop S
  Label := HopLabel S
  step := Guarded (HopStep S a) (PassesOn f first b j)
  node := Hop.peer

/-- The peer lacks no block and has closed a cluster; its child has been sent the blocks `infos`
of its file, from cluster `c` on. -/
structure RelayOk {S : Sender} (f : StreamFile) (first : UInt16)
    (Ok : List BlockInfo → S.State → Prop) (b : Addr) (j : Fin maxChildNum) (c : UInt16)
    (infos : List BlockInfo) (s : Hop S) : Prop where
  hop : HopOk f first Ok True s
  sending : Sending (f.from first) b j c infos s.peer
  first_le : first ≤ c
  got_ne : s.got ≠ []
  closed : first.toUInt32 < s.peer.webm.currentCluster.seq
  place : (s.peer.webm.currentChildBlock j).prev.clusterSeq.toNat ≤
    s.peer.webm.currentCluster.seq.toNat

section Relay

variable {S : Sender} {f : StreamFile} {a b : Addr} {i j : Fin maxChildNum} {first c : UInt16}
variable {Ok : List BlockInfo → S.State → Prop} {lossless : Prop} {infos : List BlockInfo}
variable {s t : Hop S}

theorem HopOk.streams (h : HopOk f first Ok lossless s) (hgot : s.got ≠ []) :
    Stores f.header (Stored.of first (f.stored s.got)) s.peer.webm ∧
      Receiving f first s.got s.peer.webm ∧ Indexes f first s.got s.peer.webm := by
  obtain ⟨infos, left, -, -, -, hpeer⟩ := h.sides
  generalize s.got = got at hpeer hgot ⊢
  generalize s.wire = wire at hpeer
  cases hpeer with
  | waiting | told => exact absurd rfl hgot
  | streaming hstores hreceiving hindexes _ => exact ⟨hstores, hreceiving, hindexes⟩

theorem HopOk.currentCluster (h : HopOk f first Ok lossless s) (hgot : s.got ≠ []) :
    s.peer.webm.currentCluster.seq =
      ((s.got.map BlockInfo.pair).getLastD (first, 0)).1.toUInt32 := by
  obtain ⟨-, hreceiving, -⟩ := h.streams hgot
  obtain ⟨previous, hmatches⟩ := hreceiving.marks
  exact hmatches.cluster

theorem HopOk.opened (h : HopOk f first Ok True s) (hfeeds : Feeds S f a i first Ok)
    (hgot : s.got ≠ []) (hclosed : first.toUInt32 < s.peer.webm.currentCluster.seq) :
    ∃ r stored, CopiedTo (f.from first) first.toNat r stored ∧
      Stores f.header stored s.peer.webm ∧ Indexed (f.from first) first s.peer.webm ∧
      stored.last.seq.toNat < f.clusters.length ∧
      first.toUInt32 ≤ s.peer.webm.prevCluster.seq ∧
      s.peer.webm.prevCluster.seq < s.peer.webm.currentCluster.seq := by
  obtain ⟨r, p, hrun, hflight, -, hlt⟩ := h.cut hfeeds
  have hle := run_cluster_le hflight
  have hcopied := copiedTo_of_run hrun
  obtain ⟨hstores, -, hindexes⟩ := h.streams hgot
  have hclosed : first.toUInt32 ≤ s.peer.webm.prevCluster.seq ∧
      s.peer.webm.prevCluster.seq < s.peer.webm.currentCluster.seq :=
    hindexes.clusters.resolve_left fun heq => UInt32.lt_irrefl _ (heq ▸ hclosed)
  have hindexed : Indexed (f.from first) first s.peer.webm := by
    generalize s.got = got at hrun hgot hindexes
    cases hrun with
    | nil => exact absurd rfl hgot
    | cons hfirst _ =>
        obtain ⟨hdata, hbytes, hisFirst, hnumber⟩ :=
          hindexes.indexed (UInt16.toNat_inj.mp hfirst.next.cluster)
        exact ⟨hdata, hbytes, hisFirst, hnumber⟩
  refine ⟨r, _, hcopied, hstores, hindexed, ?_, hclosed⟩
  rcases hcopied.last with ⟨hlast, -⟩ | ⟨hlast, -⟩ <;> omega

theorem HopOk.prevCluster (h : HopOk f first Ok True s) (hfeeds : Feeds S f a i first Ok)
    (hgot : s.got ≠ []) (hclosed : first.toUInt32 < s.peer.webm.currentCluster.seq) :
    s.peer.webm.prevCluster.seq.toUInt16.toNat = s.peer.webm.prevCluster.seq.toNat ∧
      s.peer.webm.prevCluster.seq.toNat < f.clusters.length := by
  obtain ⟨-, stored, -, hstores, -, hlast, -, hprev⟩ := h.opened hfeeds hgot hclosed
  have hseq := congrArg UInt32.toNat hstores.seq
  rw [UInt16.toNat_toUInt32] at hseq
  have hprev := UInt32.lt_iff_toNat_lt.mp hprev
  have hmax := stored.last.seq.toNat_lt
  rw [UInt32.toNat_toUInt16]
  exact ⟨Nat.mod_eq_of_lt (by omega), by omega⟩

theorem HopOk.currentCluster_le (hfeeds : Feeds S f a i first Ok) (h : HopOk f first Ok True s)
    (h' : HopOk f first Ok True t) (hgot : s.got ≠ []) (hgrows : s.got <+: t.got) :
    s.peer.webm.currentCluster.seq ≤ t.peer.webm.currentCluster.seq ∧ t.got ≠ [] := by
  obtain ⟨rest, hrest⟩ := hgrows
  have hgot' : t.got ≠ [] := by
    rw [← hrest]
    exact fun hnil => hgot (List.append_eq_nil_iff.mp hnil).1
  refine ⟨?_, hgot'⟩
  obtain ⟨r, p, hrun, -⟩ := h'.cut hfeeds
  have hincreasing := (selection_of_run hrun).increasing
  rw [h.currentCluster hgot, h'.currentCluster hgot', ← hrest]
  rw [← hrest, List.map_append, List.pairwise_append] at hincreasing
  rcases List.eq_nil_or_concat rest with rfl | ⟨rest, last, rfl⟩
  · rw [List.append_nil]
    exact UInt32.le_refl _
  · rcases List.eq_nil_or_concat s.got with hnil | ⟨got, newest, heq⟩
    · exact absurd hnil hgot
    · rw [heq, List.concat_eq_append, List.concat_eq_append] at hincreasing ⊢
      have hbefore := hincreasing.2.2 newest.pair (by simp) last.pair (by simp)
      rw [← List.append_assoc, List.map_append, List.map_append, List.map_singleton,
        List.map_singleton, List.getLastD_concat, List.getLastD_concat, UInt16.toUInt32_le]
      rcases hbefore with hlt | ⟨heq, -⟩
      · exact UInt16.le_of_lt hlt
      · exact UInt16.le_of_eq heq

theorem Sending.relay (hfeeds : Feeds S f a i first Ok) (hsmall : f.Small)
    (h : RelayOk f first Ok b j c infos s) {env : Env} {n : Node} {ret : Int}
    (hpast : ∀ i, env.past i = 0)
    (hclear : ∀ p, CursorAt (f.from first) (s.peer.webm.currentChildBlock j) p →
      Unclipped (f.from first) first.toNat p s.peer.webm.totalFileBytes)
    (hsend : sendMulStream env s.peer = .ok (n, ret)) :
    SendsOn (f.from first) b j c infos s.peer n ∧
      (n.webm.currentChildBlock j).prev.clusterSeq.toNat ≤
        s.peer.webm.currentCluster.seq.toNat := by
  obtain ⟨r, stored, hcopied, hstores, hindexed, hlast, -, hprev⟩ :=
    h.hop.opened hfeeds h.got_ne h.closed
  obtain ⟨q, hrun, hat⟩ := h.sending.sent
  have hle : c.toNat ≤ q.cluster := run_cluster_le hrun
  have hfirst := UInt16.le_iff_toNat_le.mp h.first_le
  have hseq := congrArg UInt32.toNat hstores.seq
  rw [UInt16.toNat_toUInt32] at hseq
  have hprev := UInt32.lt_iff_toNat_lt.mp hprev
  have hlength : (f.from first).clusters.length = f.clusters.length := List.length_map ..
  have hread : ∀ p, CursorAt (f.from first) (s.peer.webm.currentChildBlock j) p →
      ∀ m, Streamed s.peer m →
      m.webm.currentChildBlock j = s.peer.webm.currentChildBlock j →
      isOldBlockSeq (m.webm.currentChildBlock j).prev m.webm = true →
      ReadsNext (f.from first) env p (m.webm.currentChildBlock j) m.webm := by
    intro p hp m hstreamed hcursor hold
    have hcluster : p.cluster = q.cluster :=
      hp.standsAt.cluster.symm.trans hat.standsAt.cluster
    have hold := isOldBlockSeq_le hold
    rw [hcursor, hp.standsAt.cluster] at hold
    obtain ⟨_, _, _, _, rfl⟩ := hstreamed
    have hold : p.cluster ≤ s.peer.webm.prevCluster.seq.toNat := hold
    have hsize := hsmall.payload_lt (show p.cluster < f.clusters.length by omega)
    rw [hcursor]
    exact hp.relay hpast hcopied hstores.file (hlength ▸ hlast)
      ⟨hindexed.headerData, hindexed.headerBytes, hindexed.isFirst, hindexed.first⟩
      (by omega) (by omega) (by rw [StreamFile.from, f.length_rebased_payload]; exact hsize)
      (hclear p hp)
  refine ⟨h.sending.mulStream hread hsend, ?_⟩
  rcases sendMulStream_reads h.sending.alone.connected (hread q hat) hsend with
    ⟨hcursor, -⟩ | ⟨info, p, hold, hcut, hnext, -⟩
  · rw [hcursor]
    exact h.place
  · have hold := isOldBlockSeq_le hold
    rw [hat.standsAt.cluster] at hold
    rw [hnext.standsAt.cluster]
    have hstep : p.cluster ≤ q.cluster + 1 := by
      cases hcut with
      | block => exact Nat.le_succ _
      | ends => exact le_refl _
    omega

theorem PassesOn.unlost {l : HopLabel S} (h : PassesOn (f.from first) first b j s l) :
    Unlost first l := by
  cases l with
  | parent => exact ⟨trivial, nofun⟩
  | deliver => exact ⟨h.1, nofun⟩
  | lose => exact h.elim
  | peer => exact ⟨trivial, nofun⟩

theorem Sending.block {g : StreamFile} {n n' : Node} (h : Sending g b j c infos n) {env : Env}
    {data : Buf} {k : UInt16} (hstep : n.step .peer env (.block data k) = .ok n') :
    SendsOn g b j c infos n n' := by
  obtain ⟨w, hassemble, hn⟩ := bind_eq_ok.mp hstep
  cases hn
  exact h.keep (h.alone.links rfl) (congrFun (assembleBlock_children hassemble) j) rfl

theorem relay_sendsOn (hfeeds : Feeds S f a i first Ok) (hsmall : f.Small)
    (h : RelayOk f first Ok b j c infos s) {l : HopLabel S}
    (hl : PassesOn (f.from first) first b j s l) (hstep : HopStep S a s l t) :
    SendsOn (f.from first) b j c infos s.peer t.peer ∧
      ((t.peer.webm.currentChildBlock j).prev.clusterSeq =
          (s.peer.webm.currentChildBlock j).prev.clusterSeq ∨
        (t.peer.webm.currentChildBlock j).prev.clusterSeq.toNat ≤
          s.peer.webm.currentCluster.seq.toNat) := by
  have hkeeps : ∀ {n}, KeepsStream s.peer n →
      SendsOn (f.from first) b j c infos s.peer n ∧
        (n.webm.currentChildBlock j).prev.clusterSeq =
          (s.peer.webm.currentChildBlock j).prev.clusterSeq := fun hn =>
    ⟨h.sending.keepsStream hn, by rw [hn.webm]⟩
  cases hstep with
  | parent => exact (hkeeps (.refl s.peer)).imp id .inl
  | lose => exact hl.elim
  | @deliver env rest p wire n hwire hhandled =>
      rw [Packet.HandledBy] at hhandled
      split at hhandled
      · next e he =>
        rcases hl.2 p wire e hwire he with hidle | ⟨data, k, rfl⟩
        · exact (hkeeps (isIdle_keepsStream hidle hhandled)).imp id .inl
        · refine ⟨h.sending.block hhandled, .inl ?_⟩
          obtain ⟨w, hassemble, hn⟩ := bind_eq_ok.mp hhandled
          cases hn
          exact congrArg (·.prev.clusterSeq) (congrFun (assembleBlock_children hassemble) j)
      · next => exact (hkeeps (hhandled ▸ .refl s.peer)).imp id .inl
  | @peer env e n he hnode =>
      rcases hl with hidle | rfl | ⟨data, k, saddr, source, rfl, hne⟩ | ⟨rfl, hpast, hclear⟩
      · exact (hkeeps (isIdle_keepsStream hidle hnode)).imp id .inl
      · cases hnode
        refine ⟨h.sending.timeCache env, .inl ?_⟩
        show ((timeCache env s.peer).webm.currentChildBlock j).prev.clusterSeq = _
        rw [(timeCache_frame env s.peer).1]
      · refine ⟨h.sending.setup hne hnode, .inl ?_⟩
        have hbefore := h.sending.alone.links (receiveSetup_links .peer k saddr source s.peer)
        exact congrArg (·.prev.clusterSeq) (nodeSetup_alone hnode hbefore hne).2
      · obtain ⟨ret, hsend⟩ := step_mulStream hnode
        exact (Sending.relay hfeeds hsmall h hpast hclear hsend).imp id .inr

theorem HopStep.got_grows {l : HopLabel S} (hstep : HopStep S a s l t) : s.got <+: t.got := by
  cases hstep with
  | deliver => exact (List.prefix_append _ _).filterMap _
  | parent | lose | peer => exact List.prefix_rfl

theorem feeds_relay (hfeeds : Feeds S f a i first Ok) (hsmall : f.Small) (hfits : f.HeaderFits) :
    Feeds (relayTo S a (f.from first) first b j) (f.from first) b j c
      (RelayOk f first Ok b j c) where
  sending h := h.sending
  cluster_lt {infos s} h p hat := by
    obtain ⟨r, stored, -, hstores, -, hlast, -⟩ := h.hop.opened hfeeds h.got_ne h.closed
    have hseq := congrArg UInt32.toNat hstores.seq
    rw [UInt16.toNat_toUInt32] at hseq
    have hplace := h.place
    have hcluster : (s.peer.webm.currentChildBlock j).prev.clusterSeq.toNat = p.cluster :=
      hat.standsAt.cluster
    have hlength : (f.from first).clusters.length = f.clusters.length := List.length_map ..
    omega
  step {infos s l t} h hstep := by
    obtain ⟨hl, hstep⟩ := hstep
    have hunlost := hl.unlost
    have hop := hopOk_step hfeeds hfits h.hop hunlost.1 (fun _ => hunlost.2) hstep
    obtain ⟨hle, hgot⟩ := h.hop.currentCluster_le hfeeds hop h.got_ne hstep.got_grows
    obtain ⟨⟨new, later, hlog, hcarries, hsending⟩, hplace⟩ :=
      relay_sendsOn hfeeds hsmall h hl hstep
    refine ⟨new, later, hlog, hcarries, hop, hsending, h.first_le, hgot,
      UInt32.lt_of_lt_of_le h.closed hle, ?_⟩
    have hle := UInt32.le_iff_toNat_le.mp hle
    have hbefore := h.place
    rcases hplace with heq | hlt
    · rw [heq]
      omega
    · omega

end Relay

/-! ## Chains -/

/-- The peer of a link, which has closed a cluster, has just admitted another at `b` into slot `j`,
with cluster `c`.  Older packets to that one may still be on their way. -/
inductive AdmitsNext {S : Sender} (a : Addr) (f : StreamFile) (first : UInt16) (s : Hop S)
    (b : Addr) (j : Fin maxChildNum) (c : UInt16) :
    Hop (relayTo S a (f.from first) first b j) → Prop
  | intro {env : Env} {data : Buf} {k : UInt16} {saddr : UInt32} {source : UInt16} {m n : Node}
      {older : List Packet} :
      s.got ≠ [] →
      first.toUInt32 < s.peer.webm.currentCluster.seq →
      s.peer.links.Counted →
      s.peer.isConnected (childSlot j) = false →
      (∀ i, s.peer.isConnected (childSlot i) = true → s.peer.route (childSlot i) ≠ b) →
      NodeStep .peer s.peer (env, .setup data k saddr source) m →
      setupFrom saddr source = b →
      m.isConnected (childSlot j) = true →
      s.peer.webm.prevCluster.seq.toUInt16 = c →
      (∀ p ∈ older, p.Beside) →
      Waits n →
      AdmitsNext a f first s b j c
        ⟨{ s with peer := m }, older ++ (m.log b).drop (s.peer.log b).length, [], n⟩

/-- A chain of links without loss from the origin on: `S` sends the file `g`, from cluster `first`
on, to the peer at the address. -/
inductive Chain (f : OriginFile) :
    (S : Sender) → (g : StreamFile) → (a : Addr) → (first : UInt16) → Hop S → Prop
  | origin {a : Addr} {i : Fin maxChildNum} {first : UInt16} {s t : Hop (originTo f a)}
      {ls : List (HopLabel (originTo f a))} :
      Admits f a i first s →
      Run (Guarded (OriginHopStep f a) fun _ l => Unlost first l) s ls t →
      Chain f (originTo f a) f a first t
  | relay {S : Sender} {g : StreamFile} {a b : Addr} {j : Fin maxChildNum} {first c : UInt16}
      {s : Hop S} {u t : Hop (relayTo S a (g.from first) first b j)}
      {ls : List (HopLabel (relayTo S a (g.from first) first b j))} :
      Chain f S g a first s →
      AdmitsNext a g first s b j c u →
      Run (Guarded (HopStep (relayTo S a (g.from first) first b j) b)
        fun _ l => Unlost c l) u ls t →
      Chain f (relayTo S a (g.from first) first b j) (g.from first) b c t

section Chains

theorem AdmitsNext.ok {S : Sender} {f : StreamFile} {a b : Addr} {i j : Fin maxChildNum}
    {first c : UInt16} {Ok : List BlockInfo → S.State → Prop} {s : Hop S}
    {u : Hop (relayTo S a (f.from first) first b j)} (hfeeds : Feeds S f a i first Ok)
    (hfits : f.HeaderFits) (hs : HopOk f first Ok True s)
    (h : AdmitsNext a f first s b j c u) :
    HopOk (f.from first) c (RelayOk f first Ok b j c) True u := by
  obtain ⟨hgot, hclosed, hcounted, hfree, hothers, hstep, rfl, hi, rfl, holder, hwaits⟩ := h
  rename_i env data k saddr source m n older
  obtain ⟨-, -, -, -, hindexed, -, hle, hprev⟩ := hs.opened hfeeds hgot hclosed
  obtain ⟨hnumber, hlt⟩ := hs.prevCluster hfeeds hgot hclosed
  obtain ⟨ids, initial, header, hlog, hids, -, hinitial, hheader, hsending⟩ :=
    setup_admission (f := f.from first) hcounted hindexed.headerData hindexed.headerBytes hfits
      (by rw [hnumber, f.length_from]; exact hlt) hfree hothers hstep hi
  have hsetup : HopStep S a s (.peer env (.setup data k saddr source)) { s with peer := m } :=
    .peer rfl hstep
  have hfresh : FreshBelow first (.peer env (.setup data k saddr source) : HopLabel S) := trivial
  have hop := hopOk_step hfeeds hfits hs hfresh (fun _ => by nofun) hsetup
  obtain ⟨_, _, _, _, -, hwebm⟩ := step_sameWrites (e := .setup data k saddr source) rfl hstep
  have hcurrent : m.webm.currentCluster = s.peer.webm.currentCluster := by rw [hwebm]
  have hplace : (m.webm.currentChildBlock j).prev.clusterSeq.toNat =
      s.peer.webm.prevCluster.seq.toNat := by
    obtain ⟨p, hrun, hat⟩ := hsending.sent
    cases hrun
    exact hat.standsAt.cluster.trans hnumber
  have hok : RelayOk f first Ok (setupFrom saddr source) j s.peer.webm.prevCluster.seq.toUInt16 []
      { s with peer := m } := by
    refine ⟨hop, hsending, ?_, hgot, ?_, ?_⟩
    · rw [UInt16.le_iff_toNat_le, hnumber]
      have hle := UInt32.le_iff_toNat_le.mp hle
      rwa [UInt16.toNat_toUInt32] at hle
    · show first.toUInt32 < m.webm.currentCluster.seq
      rw [hcurrent]
      exact hclosed
    · show (m.webm.currentChildBlock j).prev.clusterSeq.toNat ≤ m.webm.currentCluster.seq.toNat
      rw [hplace, hcurrent]
      exact Nat.le_of_lt (UInt32.lt_iff_toNat_lt.mp hprev)
  exact hopOk_admitted hok hwaits hlog holder hids hinitial hheader

theorem Chain.ok {f : OriginFile} {S : Sender} {g : StreamFile} {a : Addr} {first : UInt16}
    {t : Hop S} (hsmall : f.Small) (hfits : f.HeaderFits) (h : Chain f S g a first t) :
    g.Small ∧ g.HeaderFits ∧ ∃ i Ok, Feeds S g a i first Ok ∧ HopOk g first Ok True t := by
  induction h with
  | @origin a i first s t ls hadmits hrun =>
      have hfeeds : Feeds (originTo f a) f a i first (Serves f a i first) := feeds_origin hsmall
      exact ⟨hsmall, hfits, i, _, hfeeds, (hadmits.ok hsmall hfits).run hfeeds hfits hrun⟩
  | @relay S g a b j first c s u t ls _ hadmits hrun ih =>
      obtain ⟨hsmallg, hfitsg, i, Ok, hfeeds, hok⟩ := ih
      have hrelay := feeds_relay (b := b) (j := j) (c := c) hfeeds hsmallg hfitsg
      exact ⟨hsmallg.from first, hfitsg, j, _, hrelay,
        (hadmits.ok hfeeds hfitsg hok).run hrelay hfitsg hrun⟩

end Chains

end P2PStream
