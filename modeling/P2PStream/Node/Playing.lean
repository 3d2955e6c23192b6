/-
# `P2PStream.Node.Playing` — when a peer starts to play

The timer compares the cache with `DEFAULT_CACHE` by `==`.  Until a peer plays it has
played nothing, and its cache is the number of blocks stored: playing starts where the
timer finds exactly that many, and not where it finds more.
-/
import P2PStream.Node.Address
import P2PStream.Node.Steady

namespace P2PStream

open Lib

variable {env : Env} {n n' : Node}

/-! ## What moves the playback -/

theorem step_playback {e : Event} (he : e ≠ .timeCache) (h : n.step .peer env e = .ok n') :
    n'.playback = n.playback := by
  cases e with
  | setup data k saddr source =>
      rcases nodeSetup_cases h with ⟨-, ad, rfl⟩ | ⟨-, i, -, rfl⟩ <;> rfl
  | connect data =>
      rcases nodeConnect_cases h with ⟨-, rfl | rfl⟩ | ⟨-, i, -, rfl⟩ <;> rfl
  | initialStatus data k => cases h; rfl
  | accept data =>
      cases h
      obtain ⟨_, _, _, hafter, -⟩ := nodeAccept_changes env data n
      rw [hafter]
      rfl
  | timeCache => exact absurd rfl he
  | _ => exact (step_steady rfl h).playback

/-- What `CalPlayedBuffer` leaves in `TOTAL_BUFFER`. -/
def totalAfter (n : Node) : UInt64 :=
  if n.myStatus.id = originId then n.totalBuffer else n.webm.totalBlockNum

/-- An iteration of the timer at a peer that does not play: the cache is what is stored less what
was played, and the peer plays from then on where it is exactly `DEFAULT_CACHE`. -/
theorem timeCache_unplayed (env : Env) (h : n.isBeginPlaying = false) :
    (timeCache env n).currentCache = (totalAfter n - n.playedBuffer).toBitVec.toInt ∧
      (timeCache env n).playback = ⟨decide ((timeCache env n).currentCache = defaultCache),
        totalAfter n, n.playedBuffer⟩ := by
  have hplayed : calPlayedBuffer env n = { n with totalBuffer := totalAfter n } := by
    unfold calPlayedBuffer totalAfter
    split
    · rfl
    · rw [if_neg (by simp [h])]
  simp only [timeCache, hplayed]
  split
  · next hfull => exact ⟨rfl, by rw [hfull]; rfl⟩
  · next hother => exact ⟨rfl, by rw [decide_eq_false hother, ← h]; rfl⟩

theorem timeCache_playing (env : Env) (h : n.isBeginPlaying = true) :
    (timeCache env n).isBeginPlaying = true := by
  have hplayed : (calPlayedBuffer env n).isBeginPlaying = true := by
    obtain ⟨_, _, hafter⟩ := calPlayedBuffer_changes env n
    rw [hafter]
    exact h
  simp only [timeCache]
  split
  · rfl
  · exact hplayed

/-! ## Runs -/

/-- Until a peer plays, it has played nothing and the cache has not been full. -/
def Filling (n : Node) : Prop :=
  n.isBeginPlaying = false →
    n.playedBuffer = 0 ∧ n.totalBuffer.toBitVec.toInt < defaultCache

/-- Where the cache is full, the peer plays. -/
def PlaysWhenFull (l : Env × Event) (n' : Node) : Prop :=
  match l.2 with
  | .timeCache => defaultCache ≤ n'.currentCache → n'.isBeginPlaying = true
  | _ => True

/-- The timer does not come when more than `DEFAULT_CACHE` blocks are stored and none is played. -/
def PlayGuard (n : Node) (l : Env × Event) : Prop :=
  match l.2 with
  | .timeCache => n.myStatus.id = originId ∨ n.isBeginPlaying = true ∨
      n.webm.totalBlockNum.toBitVec.toInt ≤ defaultCache
  | _ => True

theorem filling_congr (h : n'.playback = n.playback) : Filling n' ↔ Filling n := by
  have hplaying : n'.isBeginPlaying = n.isBeginPlaying := congrArg Playback.isBeginPlaying h
  have htotal : n'.totalBuffer = n.totalBuffer := congrArg Playback.totalBuffer h
  have hplayed : n'.playedBuffer = n.playedBuffer := congrArg Playback.playedBuffer h
  rw [Filling, hplaying, htotal, hplayed, Filling]

/-- Of a peer that does not play, the blocks stored are at most `DEFAULT_CACHE` exactly under the
guard. -/
theorem totalAfter_le_iff (env : Env) (h : Filling n) (hplaying : n.isBeginPlaying = false) :
    (totalAfter n).toBitVec.toInt ≤ defaultCache ↔ PlayGuard n (env, .timeCache) := by
  have hguard : PlayGuard n (env, .timeCache) ↔
      n.myStatus.id = originId ∨ n.webm.totalBlockNum.toBitVec.toInt ≤ defaultCache := by
    simp [PlayGuard, hplaying]
  rw [hguard, totalAfter]
  by_cases hid : n.myStatus.id = originId
  · rw [if_pos hid]
    exact iff_of_true (Int.le_of_lt (h hplaying).2) (.inl hid)
  · rw [if_neg hid]
    exact (or_iff_right hid).symm

theorem filling_timeCache (h : Filling n) (hplaying : n.isBeginPlaying = false) :
    (PlayGuard n (env, .timeCache) → Filling (timeCache env n)) ∧
      (PlaysWhenFull (env, .timeCache) (timeCache env n) ↔ PlayGuard n (env, .timeCache)) := by
  obtain ⟨hcache, hplayback⟩ := timeCache_unplayed env hplaying
  have hplayed : n.playedBuffer = 0 := (h hplaying).1
  have hstarts : (timeCache env n).isBeginPlaying =
      decide ((timeCache env n).currentCache = defaultCache) :=
    congrArg Playback.isBeginPlaying hplayback
  have htotal : (timeCache env n).totalBuffer = totalAfter n :=
    congrArg Playback.totalBuffer hplayback
  have hkept : (timeCache env n).playedBuffer = n.playedBuffer :=
    congrArg Playback.playedBuffer hplayback
  rw [hplayed, UInt64.sub_zero] at hcache
  rw [← totalAfter_le_iff env h hplaying, ← hcache]
  constructor
  · intro hle hnot
    rw [hstarts, decide_eq_false_iff_not] at hnot
    rw [hkept, htotal, ← hcache]
    exact ⟨hplayed, lt_of_le_of_ne hle hnot⟩
  · show (_ → _) ↔ _
    rw [hstarts, decide_eq_true_eq]
    exact ⟨fun hfull => not_lt.mp fun hlt => absurd (hfull hlt.le) hlt.ne',
      fun hle hge => le_antisymm hle hge⟩

/-- From a peer that plays or fills its cache, a step leads to such a peer under the guard, and does
what it should exactly under the guard. -/
theorem filling_step {l : Env × Event} (h : Filling n) (hstep : NodeStep .peer n l n') :
    (PlayGuard n l → Filling n') ∧ (PlaysWhenFull l n' ↔ PlayGuard n l) := by
  obtain ⟨env, e⟩ := l
  have hother : e ≠ .timeCache → Filling n' := fun he =>
    (filling_congr (step_playback he hstep)).mpr h
  cases e with
  | timeCache =>
      have hn' : n' = timeCache env n := (Except.ok.inj hstep).symm
      rw [hn']
      by_cases hplaying : n.isBeginPlaying = true
      · have hgoes := timeCache_playing env hplaying
        refine ⟨fun _ hnot => ?_, iff_of_true (fun _ => hgoes) (.inr (.inl hplaying))⟩
        rw [hgoes] at hnot
        cases hnot
      · exact filling_timeCache h (Bool.eq_false_iff.mpr hplaying)
  | _ => exact ⟨fun _ => hother Event.noConfusion, iff_of_true trivial trivial⟩

theorem Started.filling (h : Started .peer n) : Filling n := by
  cases h with
  | peer env srcIp originIp srcPort start blocks =>
      have hsetup : (peerStart env srcIp originIp srcPort start blocks).playback = ⟨false, 0, 0⟩ :=
        (sendSetup_talks _).steady.playback
      exact fun _ => ⟨congrArg Playback.playedBuffer hsetup, by
        rw [show (peerStart env srcIp originIp srcPort start blocks).totalBuffer = 0 from
          congrArg Playback.totalBuffer hsetup]
        decide⟩

/-- After every iteration of the timer that finds the cache full the peer plays, when and only when
no iteration comes too late. -/
theorem playing_iff_guarded {ls : List (Env × Event)} (hstart : Started .peer n) :
    Run (Guarded (NodeStep .peer) PlayGuard) n ls n' ↔
      Run (Safe (NodeStep .peer) fun _ l m => PlaysWhenFull l m) n ls n' := by
  refine Run.guarded_iff_safe Filling ?_ ?_ hstart.filling
  · intro s l t hs hguard hstep
    obtain ⟨hkeep, hexact⟩ := filling_step hs hstep
    exact ⟨hkeep hguard, hexact.mpr hguard⟩
  · intro s l t hs hstep hgood
    exact (filling_step hs hstep).2.mp hgood

/-! ## Two caches -/

/-- A peer that has joined at the origin is sent a block `count` times. -/
def joinAndFill (count : Nat) : List (Env × Event) :=
  joinOrigin :: List.replicate count (Env.clock ⟨2, 0⟩, .block (packetData
    (copyBlockInfoToBytes { BlockInfo.zero with seq := 2, clusterSeq := 1 })) 18)

/-- The timer comes behind one block. -/
theorem playing_iff_guarded_join : ∃ n, Run (Safe (NodeStep .peer) fun _ l m => PlaysWhenFull l m)
    firstPeer (joinAndFill 1 ++ [(Env.clock ⟨3, 0⟩, .timeCache)]) n := by
  refine ⟨_, (playing_iff_guarded (.peer _ _ _ _ _ _)).mp
    (.cons ⟨trivial, rfl⟩ (.cons ⟨trivial, rfl⟩ (.cons ⟨.inr (.inr ?_), rfl⟩ (.nil _))))⟩
  decide +kernel

theorem Node.exists_run_of_exec {program : Program} {ls : List (Env × Event)} {check : Node → Bool}
    (h : (n.exec program ls).toOption.any check = true) :
    ∃ n', Run (NodeStep program) n ls n' ∧ check n' = true := by
  cases hexec : n.exec program ls with
  | error fault =>
      rw [hexec] at h
      cases h
  | ok n' =>
      rw [hexec] at h
      exact ⟨n', Node.exec_eq_ok_iff.mp hexec, h⟩

/-- The timer comes behind 201 blocks: the cache is full, and the peer does not play. -/
theorem cache_passes_threshold : Started .peer firstPeer ∧ ∃ n, Run (NodeStep .peer) firstPeer
    (joinAndFill 201 ++ [(Env.clock ⟨3, 0⟩, .timeCache)]) n ∧
    defaultCache ≤ n.currentCache ∧ n.isBeginPlaying = false := by
  have hexec : (firstPeer.exec .peer
      (joinAndFill 201 ++ [(Env.clock ⟨3, 0⟩, .timeCache)])).toOption.any
      (fun n => defaultCache ≤ n.currentCache ∧ n.isBeginPlaying = false) = true := by
    decide +kernel
  obtain ⟨n, hrun, hn⟩ := Node.exists_run_of_exec hexec
  exact ⟨.peer _ _ _ _ _ _, n, hrun, of_decide_eq_true hn⟩

end P2PStream
