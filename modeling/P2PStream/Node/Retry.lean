/-
# `P2PStream.Node.Retry` — the retry of a peer without a parent

A lost Connect is sent again by the timer, as long as `IS_RETRY` is set.
`NodeRetry` sets it and `NodeAccept` clears it; `NodeDetach`, which also leaves the
node without a parent, does not.
-/
import P2PStream.Node.Address
import P2PStream.Node.Depart

namespace P2PStream

open Lib

/-! ## The flag -/

theorem Talks.isRetry {n n' : Node} (h : Talks n n') : n'.isRetry = n.isRetry := by
  obtain ⟨ip, port, ps, rfl, -⟩ := h
  rfl

theorem nodeRetry_isRetry {env : Env} {n n' : Node} (h : nodeRetry env n = .ok n') :
    n'.isRetry = true := by
  obtain ⟨prior, _, _, -, -, rfl⟩ := nodeRetry_asks h
  exact (connectTo_talks prior _).isRetry

theorem nodeDetach_isRetry {env : Env} {data : Buf} {n n' : Node}
    (h : nodeDetach env data n = .ok n') : n'.isRetry = n.isRetry := by
  obtain ⟨prior, _, -, rfl⟩ := nodeDetach_asks h
  exact (connectTo_talks prior _).isRetry

theorem nodeDepart_isRetry {env : Env} {data : Buf} {n n' : Node}
    (h : nodeDepart env data n = .ok n') : n'.isRetry = n.isRetry := by
  obtain ⟨count, connected, htalks⟩ := nodeDepart_talks h
  exact htalks.isRetry

theorem timeout_isRetry {env : Env} {s : Slot} {n n' : Node} (h : timeout env s n = .ok n') :
    n'.isRetry = (n.isRetry || decide (s = parentId) && isTimedOut env s n) := by
  rcases timeout_cases h with ⟨hin, rfl⟩ | ⟨hout, ⟨hs, rfl⟩ | ⟨hs, hretry⟩⟩
  · rw [hin, Bool.and_false, Bool.or_false]
  · rw [decide_eq_false hs, Bool.false_and, Bool.or_false]
    rfl
  · rw [nodeRetry_isRetry hretry, hout, decide_eq_true hs, Bool.and_true, Bool.or_true]

/-- The flag after an event of a peer; events that are not named leave it alone. -/
def retryAfter (env : Env) (n : Node) : Event → Bool
  | .accept _ => false
  | .timeout s => n.isRetry || decide (s = parentId) && isTimedOut env s n
  | _ => n.isRetry

theorem step_isRetry {env : Env} {n n' : Node} {e : Event} (h : n.step .peer env e = .ok n') :
    n'.isRetry = retryAfter env n e := by
  cases e with
  | setup data k saddr source =>
      rcases nodeSetup_cases h with ⟨-, ad, rfl⟩ | ⟨-, i, -, rfl⟩ <;> rfl
  | id data => cases h; rfl
  | initialStatus data k => cases h; rfl
  | advertise data k => cases h; exact (nodeAdvertise_talks env data k n).isRetry
  | block data k =>
      obtain ⟨webm, -, h⟩ := bind_eq_ok.mp h
      cases h
      rfl
  | connect data => rcases nodeConnect_cases h with ⟨-, rfl | rfl⟩ | ⟨-, i, -, rfl⟩ <;> rfl
  | depart data => exact nodeDepart_isRetry h
  | detach data => exact nodeDetach_isRetry h
  | reqList data => cases h; exact (nodeReqList_talks data n).isRetry
  | resList data k => cases h; rfl
  | accept data =>
      cases h
      obtain ⟨_, _, _, hafter, -⟩ := nodeAccept_changes env data n
      rw [hafter]
      rfl
  | unaccept data =>
      obtain ⟨prior, _, _, -, -, rfl⟩ := nodeUnaccept_asks h
      exact (connectTo_talks prior _).isRetry
  | keepAlive data => cases h; exact (nodeKeepAlive_talks data n).isRetry
  | keepAliveRes data => cases h; rfl
  | mulStream =>
      obtain ⟨_, _, _, _, rfl, -⟩ := step_mulStream_distributes h
      rfl
  | timeKeepAlive => cases h; exact (timeKeepAlive_talks env n).isRetry
  | timeSetup => cases h; exact (timeSetup_talks env n).isRetry
  | timeout s => exact timeout_isRetry h
  | timeList => cases h; exact (timeList_talks env n).isRetry
  | timeRetry =>
      rcases timeRetry_cases h with ⟨hdue, hretry⟩ | ⟨-, rfl⟩
      · exact (nodeRetry_isRetry hretry).trans (Bool.and_eq_true_iff.mp hdue).1.symm
      · rfl
  | timeCache =>
      cases h
      obtain ⟨_, _, _, _, _, _, hafter⟩ := timeCache_changes env n
      rw [hafter]
      rfl
  | timeDepart => cases h; exact (timeDepart_talks env n).isRetry
  | main webm => cases h; rfl

/-! ## No orphan -/

/-- A node without a parent tries again. -/
def NoOrphan (n : Node) : Prop := n.isConnected parentId = false → n.isRetry = true

instance (n : Node) : Decidable (NoOrphan n) := inferInstanceAs (Decidable (_ → _))

/-- What a Depart of the id subtracts from `CONNECTED_NODES`. -/
def departBits (n : Node) (id : UInt16) : Nat :=
  (if Names n id 0 then 1 else 0) + if Names n id 1 then 2 else 0

/-- Unless a retry is pending, InitialStatus and Detach find the parent's bit clear, and a Depart
does not borrow from it. -/
def RetryGuard (n : Node) (l : Env × Event) : Prop :=
  n.isRetry = true ∨ match l.2 with
    | .initialStatus _ _ | .detach _ => n.isConnected parentId = false
    | .depart data => departBits n (readLink data).id ≤ n.connectedNodes.toNat % 4
    | _ => True

theorem timeRetry_pending {env : Env} {n : Node} (h : n.isRetry = true)
    (hdue : n.exceeds env n.retryTimestamp fiveSeconds = true) :
    timeRetry env n = nodeRetry env n := by
  rw [timeRetry, h, hdue]
  rfl

/-- An orphan waits in vain. -/
theorem timeRetry_orphan {n : Node} (h : n.isRetry = false) (env : Env) :
    timeRetry env n = .ok n := by
  rw [timeRetry, h]
  rfl

/-- The children's bits below a set parent's bit: it is kept when they cover what is subtracted. -/
theorem sub_children_iff : ∀ (first second : Bool) (x : BitVec 8), x.getLsbD 2 = true →
    ((x - (if first then BitVec.twoPow 8 0 else 0#8) -
      (if second then BitVec.twoPow 8 1 else 0#8)).getLsbD 2 = true ↔
      (if first then 1 else 0) + (if second then 2 else 0) ≤ x.toNat % 4) := by
  decide +kernel

section Steps

variable {env : Env} {n n' : Node}

theorem noOrphan_iff_or : NoOrphan n ↔ n.isRetry = true ∨ n.isConnected parentId = true := by
  rw [NoOrphan, ← Bool.not_eq_true, ← imp_iff_or_not.symm]
  tauto

/-- Where the parent's bit flips and the flag stays, the bit has to be clear or a retry pending. -/
theorem noOrphan_flip_iff (hretry : n'.isRetry = n.isRetry)
    (hbit : n'.isConnected parentId = !n.isConnected parentId) :
    NoOrphan n' ↔ n.isRetry = true ∨ n.isConnected parentId = false := by
  rw [noOrphan_iff_or, hretry, hbit, Bool.not_eq_true']

theorem noOrphan_initialStatus_iff {data : Buf} {k : UInt16}
    (hstep : NodeStep .peer n (env, .initialStatus data k) n') :
    NoOrphan n' ↔ RetryGuard n (env, .initialStatus data k) :=
  noOrphan_flip_iff (step_isRetry hstep) (step_parentBit hstep)

theorem noOrphan_depart_iff {data : Buf} (hs : NoOrphan n)
    (hstep : NodeStep .peer n (env, .depart data) n') :
    NoOrphan n' ↔ RetryGuard n (env, .depart data) := by
  obtain ⟨-, hbits, -⟩ := nodeDepart_spec hstep
  have hretry : n'.isRetry = n.isRetry := step_isRetry hstep
  rw [noOrphan_iff_or, hretry]
  by_cases hpending : n.isRetry = true
  · exact iff_of_true (.inl hpending) (.inl hpending)
  · have hset : n.connectedNodes.getLsbD 2 = true :=
      (noOrphan_iff_or.mp hs).resolve_left hpending
    have hkept := sub_children_iff (decide (Names n (readLink data).id 0))
      (decide (Names n (readLink data).id 1)) n.connectedNodes hset
    simp only [decide_eq_true_eq] at hkept
    rw [← hbits] at hkept
    exact or_congr_right hkept

/-- The timer flags the loss of a parent in the step that clears its bit. -/
theorem noOrphan_timeout {s : Slot} (hs : NoOrphan n)
    (hstep : NodeStep .peer n (env, .timeout s) n') : NoOrphan n' := by
  have hretry : n'.isRetry = (n.isRetry || decide (s = parentId) && isTimedOut env s n) :=
    step_isRetry hstep
  have hbit : n'.isConnected parentId =
      (n.isConnected parentId && !(isTimedOut env s n && decide (s = parentId))) :=
    step_parentBit hstep
  intro hclear
  rw [hretry]
  rw [hbit, Bool.and_eq_false_iff] at hclear
  rcases hclear with hunset | hdropped
  · rw [hs hunset, Bool.true_or]
  · rw [Bool.not_eq_false', Bool.and_comm] at hdropped
    rw [hdropped, Bool.or_true]

/-- A node that is no orphan is none after a step exactly under the guard. -/
theorem noOrphan_step_iff {e : Event} (hs : NoOrphan n) (hstep : NodeStep .peer n (env, e) n') :
    NoOrphan n' ↔ RetryGuard n (env, e) := by
  have hretry : n'.isRetry = retryAfter env n e := step_isRetry hstep
  have hbit : n'.isConnected parentId = parentBitAfter .peer env n e := step_parentBit hstep
  cases e with
  | initialStatus data k => exact noOrphan_initialStatus_iff hstep
  | detach data => exact noOrphan_flip_iff hretry hbit
  | depart data => exact noOrphan_depart_iff hs hstep
  | timeout s => exact iff_of_true (noOrphan_timeout hs hstep) (.inr trivial)
  | accept data =>
      have hset : n'.isConnected parentId = true := hbit.trans (Bool.or_true _)
      refine iff_of_true (fun hclear => ?_) (.inr trivial)
      exact Bool.noConfusion (hset.symm.trans hclear)
  | _ =>
      -- neither the flag nor the bit moves
      refine iff_of_true (fun hclear => ?_) (.inr trivial)
      exact hretry.trans (hs (hbit.symm.trans hclear))

end Steps

/-! ## Runs -/

/-- In a run from the first InitialStatus on, whatever is lost, no state is an orphan's exactly
when every step meets the guard. -/
theorem noOrphan_iff_guarded {n n' : Node} {env : Env} {data : Buf} {k : UInt16}
    {ls : List (Env × Event)} :
    Run (Guarded (NodeStep .peer) RetryGuard) n ((env, .initialStatus data k) :: ls) n' ↔
      Run (Safe (NodeStep .peer) fun _ _ m => NoOrphan m) n
        ((env, .initialStatus data k) :: ls) n' := by
  have hruns : ∀ m, NoOrphan m → (Run (Guarded (NodeStep .peer) RetryGuard) m ls n' ↔
      Run (Safe (NodeStep .peer) fun _ _ t => NoOrphan t) m ls n') := by
    intro m hm
    refine Run.guarded_iff_safe NoOrphan ?_ ?_ hm
    · rintro s ⟨env, e⟩ t hs hguard hstep
      have ht := (noOrphan_step_iff hs hstep).mpr hguard
      exact ⟨ht, ht⟩
    · rintro s ⟨env, e⟩ t hs hstep ht
      exact (noOrphan_step_iff hs hstep).mp ht
  constructor
  · rintro (_ | ⟨⟨hguard, hfirst⟩, hrest⟩)
    have hm := (noOrphan_initialStatus_iff hfirst).mpr hguard
    exact .cons ⟨hm, hfirst⟩ ((hruns _ hm).mp hrest)
  · rintro (_ | ⟨⟨hm, hfirst⟩, hrest⟩)
    exact .cons ⟨(noOrphan_initialStatus_iff hfirst).mp hm, hfirst⟩ ((hruns _ hm).mpr hrest)

/-- The Connect that a Detach sends is lost: the peer has neither a parent nor a retry, and its
timer never makes one. -/
theorem detach_orphan : ∃ n n', Started .peer firstPeer ∧
    Run (NodeStep .peer) firstPeer [(Env.clock ⟨1, 0⟩, .initialStatus
      (initialStatusData [statusOf 1 2 12346 1, statusOf 0 1 12345 0]) 68)] n ∧
    NodeStep .peer n (Env.clock ⟨9, 0⟩, .detach (packetData [0, 0])) n' ∧
    ¬ NoOrphan n' ∧ ∀ env, NodeStep .peer n' (env, .timeRetry) n' := by
  refine ⟨_, _, .peer _ _ _ _ _ _, .cons rfl (.nil _), rfl, ?_, fun env => ?_⟩
  · decide +kernel
  · exact timeRetry_orphan rfl env

end P2PStream
