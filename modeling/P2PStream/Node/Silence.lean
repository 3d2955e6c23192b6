/-
# `P2PStream.Node.Silence` — how long a node waits

A clock that was restarted at one instant is asked at another whether an interval is over.
The stamps are up to 0.9 s off, so the answer is a no for 0.9 s less than the interval and a
yes from 0.9 s more on, whatever happens in between.  A neighbour is kept for 4.1 s after it
was heard last, and dropped at the first check after 5.9 s; and each section of the timer
loop keeps its distance.
-/
import P2PStream.Node.Clocks
import P2PStream.Node.Elapsed
import P2PStream.Node.Host

namespace P2PStream

open Lib

/-- A time that `gettimeofday` can return. -/
def Timeval.Valid (t : Timeval) : Prop := 0 ≤ t.usec ∧ t.usec < microsPerSec

instance (t : Timeval) : Decidable t.Valid := inferInstanceAs (Decidable (_ ∧ _))

/-- The error of a stamp: the nine tenths of a second that a borrow loses. -/
def stampError : Int := 900000

section Bounds

variable {start s t v : Timeval}

theorem timerExpires_early (hstart : start.Valid) (hs : s.Valid) (ht : t.Valid)
    (hv : 0 ≤ v.usec ∧ v.usec ≤ stampError) (h : timerExpires start s t v = true) :
    v.micros - stampError < t.micros - s.micros := by
  simp only [Timeval.Valid, microsPerSec, stampError] at hstart hs ht hv
  simp only [timerExpires, isExceedTime, diffCurrentTime, updateTimestamp, Bool.or_eq_true,
    Bool.and_eq_true] at h
  simp only [Timeval.micros, microsPerSec, stampError]
  split at h <;> split at h <;> simp only [decide_eq_true_eq] at h <;> omega

theorem timerExpires_late (hstart : start.Valid) (hs : s.Valid) (ht : t.Valid)
    (hv : 0 ≤ v.usec) (h : v.micros + stampError < t.micros - s.micros) :
    timerExpires start s t v = true := by
  simp only [Timeval.Valid, microsPerSec] at hstart hs ht
  simp only [Timeval.micros, microsPerSec, stampError] at h
  simp only [timerExpires, isExceedTime, diffCurrentTime, updateTimestamp, Bool.or_eq_true,
    Bool.and_eq_true]
  split <;> split <;> simp only [decide_eq_true_eq] <;> omega

end Bounds

/-! ## A clock along a run -/

/-- No event of the run restarts the clock. -/
def LeavesClock (program : Program) (c : Clock) (n : Node) (l : Env × Event) : Prop :=
  restarted program l.1 n l.2 c = false

/-- All times of the run are valid, and none is before `t`. -/
def After (t : Timeval) (ls : List (Env × Event)) : Prop :=
  ∀ l ∈ ls, l.1.now.Valid ∧ t.micros ≤ l.1.now.micros

section Clocks

variable {program : Program} {n n' m m' : Node} {ls : List (Env × Event)} {env env' : Env}
  {e : Event} {c : Clock} {v : Timeval}

theorem step_start (h : n.step program env e = .ok n') : n'.startTimestamp = n.startTimestamp :=
  congrArg Host.startTimestamp (step_speaks h).host

theorem run_start (h : Run (NodeStep program) n ls m) : m.startTimestamp = n.startTimestamp := by
  induction h with
  | nil n => rfl
  | cons hfirst _ ih => exact ih.trans (step_start hfirst)

/-- A clock that was restarted at `t`, or later, holds the time of its last restart. -/
theorem run_clock_after (hrun : Run (NodeStep program) n ls m) {t u : Timeval}
    (hafter : After t ls) (hu : u.Valid) (hle : t.micros ≤ u.micros)
    (hclock : n.clocks c = updateTimestamp n.startTimestamp u) :
    ∃ u : Timeval, u.Valid ∧ t.micros ≤ u.micros ∧
      m.clocks c = updateTimestamp m.startTimestamp u := by
  induction hrun generalizing u with
  | nil n => exact ⟨u, hu, hle, hclock⟩
  | cons hfirst _ ih =>
      obtain ⟨hnow, hafter⟩ := List.forall_mem_cons.mp hafter
      have hstep := step_clocks hfirst c
      split at hstep
      · rw [Node.stamp, ← step_start hfirst] at hstep
        exact ih hafter hnow.1 hnow.2 hstep
      · rw [hclock, ← step_start hfirst] at hstep
        exact ih hafter hu hle hstep

theorem run_clock_left (hrun : Run (Guarded (NodeStep program) (LeavesClock program c)) n ls m) :
    m.clocks c = n.clocks c := by
  induction hrun with
  | nil n => rfl
  | cons hfirst _ ih =>
      have hstep := step_clocks hfirst.2 c
      rw [hfirst.1] at hstep
      exact ih.trans hstep

theorem restarted_clock (h : n.step program env e = .ok n')
    (hrestart : restarted program env n e c = true) :
    n'.clocks c = updateTimestamp n'.startTimestamp env.now := by
  have hstep := step_clocks h c
  rw [if_pos hrestart, Node.stamp, ← step_start h] at hstep
  exact hstep

/-- The clock does not run out before the interval, less the error of a stamp. -/
theorem exceeds_early (hstart : n.startTimestamp.Valid) (hstep : n.step program env e = .ok n')
    (hrestart : restarted program env n e c = true) (hrun : Run (NodeStep program) n' ls m)
    (hnow : env.now.Valid) (hafter : After env.now ls) (hnow' : env'.now.Valid)
    (hv : 0 ≤ v.usec ∧ v.usec ≤ stampError)
    (hsoon : env'.now.micros - env.now.micros ≤ v.micros - stampError) :
    m.exceeds env' (m.clocks c) v = false := by
  obtain ⟨u, hu, hle, hclock⟩ := run_clock_after hrun hafter hnow (le_refl _)
    (restarted_clock hstep hrestart)
  have hvalid : m.startTimestamp.Valid := by
    rw [run_start hrun, step_start hstep]
    exact hstart
  rw [Node.exceeds, hclock]
  refine Bool.eq_false_iff.mpr fun hexpired => ?_
  have hlate := timerExpires_early hvalid hu hnow' hv hexpired
  omega

/-- A clock that is not restarted has run out behind the interval and the error of a stamp. -/
theorem exceeds_late (hstart : n.startTimestamp.Valid) (hstep : n.step program env e = .ok n')
    (hrestart : restarted program env n e c = true)
    (hrun : Run (Guarded (NodeStep program) (LeavesClock program c)) n' ls m)
    (hnow : env.now.Valid) (hnow' : env'.now.Valid) (hv : 0 ≤ v.usec)
    (hlate : v.micros + stampError < env'.now.micros - env.now.micros) :
    m.exceeds env' (m.clocks c) v = true := by
  have hsame : m.startTimestamp = n'.startTimestamp :=
    run_start (hrun.mono fun _ _ _ h => h.2)
  have hvalid : n'.startTimestamp.Valid := by
    rw [step_start hstep]
    exact hstart
  rw [Node.exceeds, run_clock_left hrun, restarted_clock hstep hrestart, hsame]
  exact timerExpires_late hvalid hnow hnow' hv hlate

/-! ## Neighbours -/

theorem timeout_isConnected {s : Slot} (h : timeout env s n = .ok n') :
    n'.isConnected s = (n.isConnected s && !isTimedOut env s n) := by
  have hcleared : isTimedOut env s n = true → (n.disconnect s).isConnected s = false := by
    intro hout
    have hset : n.connectedNodes.getLsbD s = true := isConnected_of_isTimedOut hout
    rw [Node.isConnected, Node.disconnect, SlotBits.getLsbD_sub_twoPow_of_set hset]
    simp
  rcases timeout_cases h with ⟨hin, rfl⟩ | ⟨hout, ⟨-, rfl⟩ | ⟨-, hretry⟩⟩
  · rw [hin, Bool.not_false, Bool.and_true]
  · rw [hout, Bool.not_true, Bool.and_false]
    exact hcleared hout
  · rw [hout, Bool.not_true, Bool.and_false]
    have hconnected := congrArg Links.connected (nodeRetry_links hretry)
    exact (congrArg (fun x => BitVec.getLsbD x s) hconnected).trans (hcleared hout)

/-- A neighbour that was heard at one time and is checked at another: up to 4.1 s later it is
kept, whatever happens in between, and more than 5.9 s later it is dropped, if it was not heard
again. -/
theorem silence_bounds {s : Slot} (hstart : n.startTimestamp.Valid)
    (hheard : n.step program env e = .ok n') (hslot : restarted program env n e (.slot s) = true)
    (hrun : Run (NodeStep program) n' ls m) (hnow : env.now.Valid) (hafter : After env.now ls)
    (hnow' : env'.now.Valid) (hcheck : m.step program env' (.timeout s) = .ok m') :
    (env'.now.micros - env.now.micros ≤ 4100000 → m'.isConnected s = m.isConnected s) ∧
    (Run (Guarded (NodeStep program) (LeavesClock program (.slot s))) n' ls m →
      updateTimestamp n.startTimestamp env.now ≠ Timeval.zero →
      5900000 < env'.now.micros - env.now.micros → m'.isConnected s = false) := by
  have hfive : fiveSeconds.micros = 5000000 := rfl
  have herror : stampError = 900000 := rfl
  rw [timeout_isConnected hcheck]
  constructor
  · intro hsoon
    have hkept : m.exceeds env' (m.nodesStatus s).timestamp fiveSeconds = false :=
      exceeds_early hstart hheard hslot hrun hnow hafter hnow' ⟨by decide, by decide⟩ (by omega)
    rw [isTimedOut, hkept, Bool.and_false, Bool.not_false, Bool.and_true]
  · intro hquiet hstamped hlate
    have hdue : m.exceeds env' (m.nodesStatus s).timestamp fiveSeconds = true :=
      exceeds_late hstart hheard hslot hquiet hnow hnow' (by decide) (by omega)
    have hclock : (m.nodesStatus s).timestamp = updateTimestamp n.startTimestamp env.now := by
      have hlast : m.clocks (.slot s) = n'.clocks (.slot s) := run_clock_left hquiet
      rw [restarted_clock hheard hslot, step_start hheard] at hlast
      exact hlast
    rw [isTimedOut, hdue, hclock, decide_eq_true hstamped, Bool.and_true, Bool.and_true]
    exact Bool.and_not_self _

end Clocks

/-- A peer that joined at the origin at 1 s and heard nothing since keeps it at 5 s, and leaves it
at 8 s. -/
theorem silence_bounds_origin : ∃ n m m', NodeStep .peer firstPeer joinOrigin n ∧
    NodeStep .peer n (Env.clock ⟨5, 0⟩, .timeout parentId) m ∧
    NodeStep .peer n (Env.clock ⟨8, 0⟩, .timeout parentId) m' ∧
    m.isConnected parentId = n.isConnected parentId ∧ m'.isConnected parentId = false := by
  let joined := firstPeer.after .peer joinOrigin.1 joinOrigin.2
  have hjoined : NodeStep .peer firstPeer joinOrigin joined := Node.after_step (by decide +kernel)
  have hfive : NodeStep .peer joined (Env.clock ⟨5, 0⟩, .timeout parentId) _ :=
    Node.after_step (by decide +kernel)
  have height : NodeStep .peer joined (Env.clock ⟨8, 0⟩, .timeout parentId) _ :=
    Node.after_step (by decide +kernel)
  have hstart : firstPeer.startTimestamp.Valid := by decide
  have hnone : After joinOrigin.1.now [] := fun l hl => absurd hl List.not_mem_nil
  exact ⟨joined, _, _, hjoined, hfive, height,
    (silence_bounds hstart hjoined rfl (.nil _) (by decide) hnone (by decide) hfive).1 (by decide),
    (silence_bounds hstart hjoined rfl (.nil _) (by decide) hnone (by decide) height).2 (.nil _)
      (by decide) (by decide)⟩

/-! ## Sections of the timer loop -/

section Sections

variable {program : Program} {n n' m m' : Node} {ls : List (Env × Event)} {env env' : Env}
  {e : Event} {c : Clock} {v : Timeval}

/-- The clock that a section of the timer loop waits for, and how long. -/
def waitsFor : Event → Option (Clock × Timeval)
  | .timeKeepAlive => some (.keepAlive, timeprocessInterval)
  | .timeSetup => some (.setup, fiveSeconds)
  | .timeList => some (.list, fiveSeconds)
  | .timeRetry => some (.retry, fiveSeconds)
  | .timeDepart => some (.depart, fiveSeconds)
  | _ => none

/-- What else a section asks for. -/
def isReady (n : Node) : Event → Bool
  | .timeSetup => n.isSetup
  | .timeList => n.isConnected parentId
  | .timeRetry => n.isRetry
  | .timeDepart => n.currentCache < cacheTlv && n.isBeginStreaming
  | _ => true

theorem restarted_section (hwaits : waitsFor e = some (c, v)) :
    restarted program env n e c = (isReady n e && n.exceeds env (n.clocks c) v) := by
  cases e with
  | timeKeepAlive | timeSetup | timeList | timeRetry | timeDepart =>
      obtain ⟨rfl, rfl⟩ := Prod.mk.injEq .. |>.mp (Option.some.inj hwaits)
      simp [restarted, isReady, Node.clocks, Bool.and_comm]
  | _ => cases hwaits

theorem section_idle (hwaits : waitsFor e = some (c, v)) (h : n.step program env e = .ok n')
    (hidle : n.exceeds env (n.clocks c) v = false) : n' = n := by
  cases e with
  | timeKeepAlive | timeSetup | timeList | timeRetry | timeDepart =>
      obtain ⟨rfl, rfl⟩ := Prod.mk.injEq .. |>.mp (Option.some.inj hwaits)
      simp only [Node.clocks] at hidle
      simp only [Node.step, timeKeepAlive, timeSetup, timeList, timeRetry, timeDepart, hidle,
        Bool.and_false, Bool.false_and, Bool.false_eq_true, if_false] at h
      exact (Except.ok.inj h).symm
  | _ => cases hwaits

/-- A section of the timer loop whose clock was restarted at one time, by itself or a handler,
and that is passed at another: earlier than its interval less 0.9 s it does nothing, and later
than its interval and 0.9 s it restarts the clock, if the section is ready and nothing restarted
the clock in between. -/
theorem section_bounds (hstart : n.startTimestamp.Valid) (hstep : n.step program env e = .ok n')
    (hrestart : restarted program env n e c = true) (hrun : Run (NodeStep program) n' ls m)
    (hnow : env.now.Valid) (hafter : After env.now ls) (hnow' : env'.now.Valid) {e' : Event}
    (hwaits : waitsFor e' = some (c, v)) (hpass : m.step program env' e' = .ok m') :
    (m' ≠ m → v.micros - stampError < env'.now.micros - env.now.micros) ∧
    (Run (Guarded (NodeStep program) (LeavesClock program c)) n' ls m → isReady m e' = true →
      v.micros + stampError < env'.now.micros - env.now.micros →
      m'.clocks c = m.stamp env') := by
  have hv : 0 ≤ v.usec ∧ v.usec ≤ stampError := by
    cases e' with
    | timeKeepAlive | timeSetup | timeList | timeRetry | timeDepart =>
        obtain ⟨-, rfl⟩ := Prod.mk.injEq .. |>.mp (Option.some.inj hwaits)
        decide
    | _ => cases hwaits
  constructor
  · intro hacts
    by_contra hsoon
    exact hacts (section_idle hwaits hpass
      (exceeds_early hstart hstep hrestart hrun hnow hafter hnow' hv (not_lt.mp hsoon)))
  · intro hquiet hready hlate
    have hdue : restarted program env' m e' c = true := by
      rw [restarted_section hwaits, hready,
        exceeds_late hstart hstep hrestart hquiet hnow hnow' hv.1 hlate]
      rfl
    have hclock := step_clocks hpass c
    rwa [if_pos hdue] at hclock

end Sections

/-- A peer that sent its keep-alives at 4 s does so again at 8 s, and not at 6 s. -/
theorem section_bounds_keepAlive : ∃ n m m',
    NodeStep .peer firstPeer (Env.clock ⟨4, 0⟩, .timeKeepAlive) n ∧
    NodeStep .peer n (Env.clock ⟨6, 0⟩, .timeKeepAlive) m ∧
    NodeStep .peer n (Env.clock ⟨8, 0⟩, .timeKeepAlive) m' ∧
    m = n ∧ m'.clocks .keepAlive = ⟨8, 0⟩ := by
  let first := firstPeer.after .peer (Env.clock ⟨4, 0⟩) .timeKeepAlive
  have hfirst : NodeStep .peer firstPeer (Env.clock ⟨4, 0⟩, .timeKeepAlive) first :=
    Node.after_step (by decide +kernel)
  have hsix : NodeStep .peer first (Env.clock ⟨6, 0⟩, .timeKeepAlive) _ :=
    Node.after_step (by decide +kernel)
  have height : NodeStep .peer first (Env.clock ⟨8, 0⟩, .timeKeepAlive) _ :=
    Node.after_step (by decide +kernel)
  have hstart : firstPeer.startTimestamp.Valid := by decide
  have hnone : After ⟨4, 0⟩ [] := fun l hl => absurd hl List.not_mem_nil
  refine ⟨first, _, _, hfirst, hsix, height, ?_, ?_⟩
  · by_contra hacts
    have hlate := (section_bounds hstart hfirst rfl (.nil _) (by decide) hnone (by decide) rfl
      hsix).1 hacts
    exact absurd hlate (by decide)
  · exact (section_bounds hstart hfirst rfl (.nil _) (by decide) hnone (by decide) rfl height).2
      (.nil _) rfl (by decide)

end P2PStream
