/-
# `P2PStream.Webm.InView` — what lies behind the window (`webm_parser.c`)

`GetChankByBytes` parses a header before it looks whether the window still has one.  A
Cluster or Cues id ends the block wherever it stands, behind the window too; and the
size of an element whose header is cut can wrap, which takes the walk on.

What the walk does at a header is decided by the window when no bytes behind the window
change it.  A header in the window is; so is an id that the walk does not step over, and
an element whose size field has at most eight bytes.
-/
import P2PStream.Webm.Bounds
import P2PStream.Webm.Forward
import P2PStream.Webm.Region

namespace P2PStream

open Lib

/-! ## One round -/

/-- What a round of `GetChankByBytes` does: a Cluster or Cues id ends the loop, or the loop is left
with the status it had, or it goes on. -/
inductive Round where
  | ends
  | leaves
  | goesOn (status : Int) (total : Nat)
  deriving DecidableEq, Repr

/-- The round at `total`. -/
def chankRound (buf : Buf) (req total : Nat) : Round :=
  let chank := getChank (buf.drop total)
  if chank.id = clusterId ∨ chank.id = cueId then .ends
  else if req < (total + chank.chankBytes) % 2 ^ 64 then .leaves
  else if chank.id = timecodeId then .goesOn onlyTimecode ((total + chank.chankBytes) % 2 ^ 64)
  else if chank.id = simpleblockId then .goesOn 1 ((total + chank.chankBytes) % 2 ^ 64)
  else .leaves

theorem getChankByBytesLoop_succ (buf : Buf) (req fuel total : Nat) (status : Int) :
    getChankByBytesLoop buf req (fuel + 1) total status =
      match chankRound buf req total with
      | .ends => some (clusterEnd, total)
      | .leaves => some (status, total)
      | .goesOn status' total' => getChankByBytesLoop buf req fuel total' status' := by
  rw [getChankByBytesLoop]
  simp only [chankRound]
  by_cases hcluster : (getChank (buf.drop total)).id = clusterId
  · rw [if_pos hcluster, if_pos (.inl hcluster)]
  · by_cases hcue : (getChank (buf.drop total)).id = cueId
    · rw [if_neg hcluster, if_pos hcue, if_pos (.inr hcue)]
    · rw [if_neg hcluster, if_neg hcue, if_neg (not_or.mpr ⟨hcluster, hcue⟩)]
      split
      · rfl
      · split
        · rfl
        · split <;> rfl

theorem chankRound_of_goesOn {buf : Buf} {req p : Nat} (h : (chankWalk buf req).goesOn p) :
    ∃ status, chankRound buf req p = .goesOn status ((chankWalk buf req).next p) := by
  obtain ⟨hid, hle⟩ := h
  have hnotEnd : ¬ ((getChank (buf.drop p)).id = clusterId ∨
      (getChank (buf.drop p)).id = cueId) := by
    rcases hid with hid | hid <;> rw [hid] <;> decide
  simp only [chankWalk_next, chankRound, if_neg hnotEnd, if_neg (Nat.not_lt_of_le hle)]
  by_cases htimecode : (getChank (buf.drop p)).id = timecodeId
  · exact ⟨_, if_pos htimecode⟩
  · rw [if_neg htimecode, if_pos (hid.resolve_left htimecode)]
    exact ⟨_, rfl⟩

theorem goesOn_of_chankRound {buf : Buf} {req p total : Nat} {status : Int}
    (h : chankRound buf req p = .goesOn status total) :
    (chankWalk buf req).goesOn p ∧ total = (chankWalk buf req).next p := by
  rw [chankWalk_next]
  simp only [chankRound] at h
  split at h
  · cases h
  · split at h
    · cases h
    · next hle =>
      have hfit := Nat.le_of_not_lt hle
      split at h
      · next htimecode =>
        cases h
        exact ⟨⟨.inl htimecode, hfit⟩, rfl⟩
      · split at h
        · next hsimple =>
          cases h
          exact ⟨⟨.inr hsimple, hfit⟩, rfl⟩
        · cases h

theorem status_of_chankRound {buf : Buf} {req p total : Nat} {status : Int}
    (h : chankRound buf req p = .goesOn status total) : status ≠ clusterEnd := by
  simp only [chankRound] at h
  repeat' split at h
  all_goals cases h
  all_goals decide

/-! ## Fuel -/

section Fuel

variable {buf : Buf} {req fuel total total' : Nat} {status status' : Int}

/-- A walk that has left the loop leaves it with more rounds as well. -/
theorem getChankByBytesLoop_mono {result : Int × Nat}
    (h : getChankByBytesLoop buf req fuel total status = some result) (more : Nat) :
    getChankByBytesLoop buf req (fuel + more) total status = some result := by
  induction fuel generalizing total status with
  | zero => cases h
  | succ fuel ih =>
      rw [Nat.succ_add, getChankByBytesLoop_succ]
      rw [getChankByBytesLoop_succ] at h
      cases hround : chankRound buf req total with
      | ends => simpa only [hround] using h
      | leaves => simpa only [hround] using h
      | goesOn status' total' =>
          simp only [hround] at h ⊢
          exact ih h

theorem not_goesOn_of_left
    (h : getChankByBytesLoop buf req fuel total status = some (status', total')) :
    ¬ (chankWalk buf req).goesOn total' := by
  induction fuel generalizing total status with
  | zero => cases h
  | succ fuel ih =>
      rw [getChankByBytesLoop_succ] at h
      cases hround : chankRound buf req total with
      | ends =>
          simp only [hround] at h
          cases h
          intro hgo
          obtain ⟨st, hgoes⟩ := chankRound_of_goesOn hgo
          rw [hround] at hgoes
          cases hgoes
      | leaves =>
          simp only [hround] at h
          cases h
          intro hgo
          obtain ⟨st, hgoes⟩ := chankRound_of_goesOn hgo
          rw [hround] at hgoes
          cases hgoes
      | goesOn st t =>
          simp only [hround] at h
          exact ih h

theorem left_unique {fuel' : Nat} {result result' : Int × Nat}
    (h : getChankByBytesLoop buf req fuel total status = some result)
    (h' : getChankByBytesLoop buf req fuel' total status = some result') : result = result' := by
  have hmore := getChankByBytesLoop_mono h fuel'
  rw [Nat.add_comm, getChankByBytesLoop_mono h' fuel] at hmore
  exact (Option.some.inj hmore).symm

end Fuel

/-- The rounds of `GetChankByBytes` are enough for every walk that ends. -/
theorem getChankByBytesLoop_of_left {buf : Buf} {req : UInt16} {fuel : Nat} {result : Int × Nat}
    (h : getChankByBytesLoop buf req.toNat fuel 0 0 = some result) :
    getChankByBytesLoop buf req.toNat (req.toNat + 2) 0 0 = some result := by
  cases hloop : getChankByBytesLoop buf req.toNat (req.toNat + 2) 0 0 with
  | some result' => exact congrArg some (left_unique hloop h)
  | none =>
      have hhangs : getChankByBytes initBlock buf req = none := by
        simp only [getChankByBytes, hloop, Option.bind_eq_bind, Option.bind_none]
      rw [getChankByBytes_hangs_iff.mp hhangs fuel] at h
      cases h

theorem left_of_rounds {buf : Buf} {req : UInt16} {p rounds : Nat} {status : Int}
    (hwalk : getChankByBytesLoop buf req.toNat (rounds + 1) 0 0 =
      getChankByBytesLoop buf req.toNat 1 p status) :
    (chankRound buf req.toNat p = .ends →
        getChankByBytesLoop buf req.toNat (req.toNat + 2) 0 0 = some (clusterEnd, p)) ∧
      (chankRound buf req.toNat p = .leaves →
        getChankByBytesLoop buf req.toNat (req.toNat + 2) 0 0 = some (status, p)) := by
  rw [getChankByBytesLoop_succ buf req.toNat 0 p status] at hwalk
  constructor
  · intro hends
    rw [hends] at hwalk
    exact getChankByBytesLoop_of_left hwalk
  · intro hleaves
    rw [hleaves] at hwalk
    exact getChankByBytesLoop_of_left hwalk

/-- The status and the bytes added tell the walks apart, and nothing else does. -/
theorem getChankByBytes_eq_iff {block : Block} {a b : Buf} {req : UInt16} :
    getChankByBytes block a req = getChankByBytes block b req ↔
      getChankByBytesLoop a req.toNat (req.toNat + 2) 0 0 =
        getChankByBytesLoop b req.toNat (req.toNat + 2) 0 0 := by
  refine ⟨fun h => ?_, fun h => by simp only [getChankByBytes, h]⟩
  cases ha : getChankByBytesLoop a req.toNat (req.toNat + 2) 0 0 with
  | none =>
      cases hb : getChankByBytesLoop b req.toNat (req.toNat + 2) 0 0 with
      | none => rfl
      | some rb => simp [getChankByBytes, ha, hb] at h
  | some ra =>
      cases hb : getChankByBytesLoop b req.toNat (req.toNat + 2) 0 0 with
      | none => simp [getChankByBytes, ha, hb] at h
      | some rb =>
          obtain ⟨sa, ta⟩ := ra
          obtain ⟨sb, tb⟩ := rb
          have hta := (walk_bounds ha (Nat.zero_le _)).1
          have htb := (walk_bounds hb (Nat.zero_le _)).1
          have hreq := req.toNat_lt
          simp only [getChankByBytes, ha, hb, Option.bind_eq_bind, Option.bind_some,
            Option.pure_def, Option.some.injEq, Prod.mk.injEq, Block.mk.injEq, BlockInfo.mk.injEq,
            and_true, true_and] at h
          have hcount := congrArg UInt16.toNat h.1
          rw [UInt16.toNat_ofNat', UInt16.toNat_ofNat'] at hcount
          simp only [Option.some.injEq, Prod.mk.injEq]
          exact ⟨h.2, by omega⟩

/-! ## Decided headers -/

/-- No byte behind the window changes what the walk does at `p`. -/
def HeaderDecided (buf : Buf) (req p : Nat) : Prop :=
  ∀ buf', Region.Same buf buf' ⟨0, req⟩ → chankRound buf' req p = chankRound buf req p

section Headers

variable {buf : Buf} {req p : Nat}

theorem getChank_eq_of_inView {buf' : Buf}
    (hheader : p + (getChank (buf.drop p)).dataHeaderPosition ≤ req)
    (hsame : Region.Same buf buf' ⟨0, req⟩) : getChank (buf'.drop p) = getChank (buf.drop p) :=
  (getChank_same
    (hsame.part (Nat.zero_le p) (by omega) : Region.Same buf buf' ⟨p + 0, _⟩).drop).symm

theorem headerDecided_of_inView
    (hheader : p + (getChank (buf.drop p)).dataHeaderPosition ≤ req) : HeaderDecided buf req p := by
  intro buf' hsame
  simp only [chankRound, getChank_eq_of_inView hheader hsame]

theorem getChank_id_of_inView {buf' : Buf} (hid : p + markerLength (buf p) ≤ req)
    (hsame : Region.Same buf buf' ⟨0, req⟩) :
    (getChank (buf'.drop p)).id = (getChank (buf.drop p)).id := by
  have hfield : Region.Same (buf.drop p) (buf'.drop p) ⟨0, markerLength (buf.drop p 0)⟩ := by
    refine (hsame.part (Nat.zero_le _) ?_).drop
    show p + 0 + markerLength (buf p) ≤ 0 + req
    omega
  rw [getChank_id, getChank_id, getEBMLID_same hfield]

/-- An id in the window is enough, but for a Timecode or a SimpleBlock. -/
theorem headerDecided_of_id (hid : p + markerLength (buf p) ≤ req)
    (htimecode : (getChank (buf.drop p)).id ≠ timecodeId)
    (hsimple : (getChank (buf.drop p)).id ≠ simpleblockId) : HeaderDecided buf req p := by
  intro buf' hsame
  have hidSame := getChank_id_of_inView hid hsame
  simp only [chankRound, hidSame, if_neg htimecode, if_neg hsimple, ite_self]

theorem getChank_dataBytes_of_marked (hmarked : buf (p + markerLength (buf p)) ≠ 0) :
    (getChank (buf.drop p)).dataBytes < 2 ^ 56 := by
  have hfield : ((buf.drop p).drop (getEBMLID (buf.drop p)).2) 0 ≠ 0 := hmarked
  obtain ⟨hlt, hlength⟩ := getDataBytes_lt hfield
  have hpow : (2 : Nat) ^ (7 * markerLength (((buf.drop p).drop (getEBMLID (buf.drop p)).2) 0)) ≤
      2 ^ 56 := Nat.pow_le_pow_right (by decide) (by omega)
  simp only [getChank]
  split
  · exact Nat.two_pow_pos 56
  · exact Nat.lt_of_lt_of_le hlt hpow

/-- An element whose header is cut is too long, when its size field has at most eight bytes. -/
theorem chankRound_of_cut (hreq : req < 2 ^ 16) (hp : p ≤ req)
    (hid : (getChank (buf.drop p)).id = timecodeId ∨ (getChank (buf.drop p)).id = simpleblockId)
    (hmarked : buf (p + markerLength (buf p)) ≠ 0)
    (hcut : req < p + (getChank (buf.drop p)).dataHeaderPosition) :
    chankRound buf req p = .leaves := by
  have hnotEnd : ¬ ((getChank (buf.drop p)).id = clusterId ∨
      (getChank (buf.drop p)).id = cueId) := by
    rcases hid with hid | hid <;> rw [hid] <;> decide
  have hdata := getChank_dataBytes_of_marked hmarked
  have hheader := (getChank_header_le (buf.drop p)).2
  have hlong : req < (p + (getChank (buf.drop p)).chankBytes) % 2 ^ 64 := by
    rw [getChank_chankBytes_mod, Nat.add_mod_mod, Nat.mod_eq_of_lt (by omega)]
    omega
  simp only [chankRound, if_neg hnotEnd, if_pos hlong]

/-- The id and a first byte of the size field that is not zero are enough for all. -/
theorem headerDecided_of_size (hreq : req < 2 ^ 16) (hsize : p + markerLength (buf p) < req)
    (hmarked : buf (p + markerLength (buf p)) ≠ 0) : HeaderDecided buf req p := by
  by_cases hview : p + (getChank (buf.drop p)).dataHeaderPosition ≤ req
  · exact headerDecided_of_inView hview
  by_cases hid : (getChank (buf.drop p)).id = timecodeId ∨
      (getChank (buf.drop p)).id = simpleblockId
  · intro b hsame
    have hfirst : b p = buf p := (hsame.byte (by omega)).symm
    have hsecond := (hsame.byte hsize).symm
    have hidSame := getChank_id_of_inView (Nat.le_of_lt hsize) hsame
    have hheader : (getChank (b.drop p)).dataHeaderPosition =
        (getChank (buf.drop p)).dataHeaderPosition := by
      simp only [getChank_dataHeaderPosition, Buf.drop_apply, Nat.add_zero, hfirst, hsecond]
    rw [chankRound_of_cut hreq (by omega) hid hmarked (by omega), chankRound_of_cut hreq (by omega)
      (hidSame ▸ hid) (by rw [hfirst, hsecond]; exact hmarked) (by omega)]
  · obtain ⟨htimecode, hsimple⟩ := not_or.mp hid
    exact headerDecided_of_id (Nat.le_of_lt hsize) htimecode hsimple

/-- Where the window ends, nothing is decided: a Cluster may stand there. -/
theorem not_headerDecided_of_end : ¬ HeaderDecided buf req req := by
  intro h
  have hsplice : ∀ c, Region.Same buf (buf.splice req c) ⟨0, req⟩ ∧
      (buf.splice req c).drop req = c := by
    refine fun c => ⟨fun i hi => ?_, funext fun i => ?_⟩
    · have hi' : 0 + i < req := by
        rw [Nat.zero_add]
        exact hi
      exact (if_pos hi').symm
    · rw [Buf.drop_apply, Buf.splice, if_neg (by omega), Nat.add_sub_cancel_left]
  have hcluster := h _ (hsplice (Buf.zero.overlay (toBe 4 clusterId))).1
  have hzero := h _ (hsplice Buf.zero).1
  rw [← hzero] at hcluster
  have hid : (getChank (Buf.zero.overlay (toBe 4 clusterId))).id = clusterId ∧
      (getChank Buf.zero).id ≠ clusterId ∧ (getChank Buf.zero).id ≠ cueId ∧
      (getChank Buf.zero).id ≠ timecodeId ∧ (getChank Buf.zero).id ≠ simpleblockId := by decide
  simp only [chankRound, (hsplice _).2, hid, true_or, if_true, or_self, if_false, ite_self]
    at hcluster
  cases hcluster

end Headers

end P2PStream
