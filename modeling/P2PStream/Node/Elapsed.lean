/-
# `P2PStream.Node.Elapsed` — what the timers measure

`UpdateTimestamp` borrows 100000 µs from a second, a tenth of one: an instant whose
microseconds are below those of the start is stamped 0.9 s too early.  Between two stamps
with a borrow each, or with none, the errors cancel; `DiffCurrentTime` then leaves its
microseconds negative, and `IsExceedTime` compares them as they are.
-/
import P2PStream.Node.Timer

namespace P2PStream

open Lib

/-- `1000000`. -/
def microsPerSec : Int := 1000000

/-- A time in microseconds. -/
def Timeval.micros (t : Timeval) : Int := t.sec * microsPerSec + t.usec

/-- What `gettimeofday` returns, and the intervals of the timers. -/
structure Instant extends Timeval where
  usec_nonneg : 0 ≤ usec
  usec_lt : usec < microsPerSec

/-- `t` is the time from `start` to `now`, in seconds and microseconds. -/
structure IsElapsed (start now t : Timeval) : Prop where
  nonneg : 0 ≤ t.usec
  lt : t.usec < microsPerSec
  micros : t.micros = now.micros - start.micros

/-- A timer stamped at `s`, asked at `n` whether the interval `v` is over. -/
def timerExpires (start s n v : Timeval) : Bool :=
  isExceedTime (diffCurrentTime start n (updateTimestamp start s)) v

/-- The timer answers exactly, from the true times since the start. -/
structure ExactTimer (start s n v : Timeval) : Prop where
  expires : timerExpires start s n v = true ↔ v.micros < n.micros - s.micros
  stamp : IsElapsed start s (updateTimestamp start s)
  current : IsElapsed start n (updateTimestamp start n)
  mono : (updateTimestamp start s).micros ≤ (updateTimestamp start n).micros

/-- Where the microseconds went down and the seconds are one more than the interval's, those
of the interval are over. -/
def BorrowCovered (s n v : Timeval) : Prop :=
  n.usec < s.usec → n.sec - s.sec = v.sec + 1 → v.usec < microsPerSec + (n.usec - s.usec)

section Elapsed

variable {start s n v : Instant}

/-- The stamp is right exactly where there is nothing to borrow. -/
theorem updateTimestamp_elapsed_iff {now : Instant} :
    IsElapsed start.toTimeval now.toTimeval (updateTimestamp start.toTimeval now.toTimeval) ↔
      start.usec ≤ now.usec := by
  have hnow := now.usec_lt
  have hstart := start.usec_nonneg
  by_cases hborrow : now.usec - start.usec < 0
  · have hstamp : updateTimestamp start.toTimeval now.toTimeval =
        ⟨now.sec - start.sec - 1, now.usec - start.usec + 100000⟩ := if_pos hborrow
    rw [hstamp]
    refine ⟨fun h => ?_, fun h => absurd hborrow (by omega)⟩
    have hmicros := h.micros
    simp only [Timeval.micros, microsPerSec] at hmicros
    omega
  · have hstamp : updateTimestamp start.toTimeval now.toTimeval =
        ⟨now.sec - start.sec, now.usec - start.usec⟩ := if_neg hborrow
    rw [hstamp]
    refine ⟨fun _ => by omega, fun h => ⟨?_, ?_, ?_⟩⟩
    · show 0 ≤ now.usec - start.usec
      omega
    · show now.usec - start.usec < microsPerSec
      omega
    · simp only [Timeval.micros, microsPerSec]
      omega

/-- Two stamps of one kind differ by the difference of the clocks, without a borrow. -/
theorem diffCurrentTime_alike {start s n : Timeval}
    (h : s.usec < start.usec ↔ n.usec < start.usec) :
    diffCurrentTime start n (updateTimestamp start s) = ⟨n.sec - s.sec, n.usec - s.usec⟩ := by
  have halike : s.usec - start.usec < 0 ↔ n.usec - start.usec < 0 := by omega
  simp only [diffCurrentTime, updateTimestamp, halike]
  split <;> simp only [Timeval.mk.injEq] <;> omega

/-- Between them the timer is exact, unless the missing borrow decides. -/
theorem timerExpires_alike_iff (h : s.usec < start.usec ↔ n.usec < start.usec) :
    (timerExpires start.toTimeval s.toTimeval n.toTimeval v.toTimeval = true ↔
        v.micros < n.micros - s.micros) ↔
      BorrowCovered s.toTimeval n.toTimeval v.toTimeval := by
  have hs := s.usec_lt
  have hs' := s.usec_nonneg
  have hn := n.usec_lt
  have hn' := n.usec_nonneg
  have hv := v.usec_lt
  have hv' := v.usec_nonneg
  simp only [timerExpires, diffCurrentTime_alike h, isExceedTime, BorrowCovered, Timeval.micros,
    microsPerSec, Bool.or_eq_true, Bool.and_eq_true, decide_eq_true_eq] at *
  omega

/-- The timers of a node are exact where neither instant is stamped with a borrow and the missing
borrow of the difference does not decide. -/
theorem exactTimer_iff (start s n v : Instant) (hle : s.micros ≤ n.micros) :
    ExactTimer start.toTimeval s.toTimeval n.toTimeval v.toTimeval ↔
      start.usec ≤ s.usec ∧ start.usec ≤ n.usec ∧
        BorrowCovered s.toTimeval n.toTimeval v.toTimeval := by
  have halike : start.usec ≤ s.usec → start.usec ≤ n.usec →
      (s.usec < start.usec ↔ n.usec < start.usec) := fun hs hn =>
    iff_of_false (not_lt.mpr hs) (not_lt.mpr hn)
  constructor
  · intro h
    have hs := updateTimestamp_elapsed_iff.mp h.stamp
    have hn := updateTimestamp_elapsed_iff.mp h.current
    exact ⟨hs, hn, (timerExpires_alike_iff (halike hs hn)).mp h.expires⟩
  · rintro ⟨hs, hn, hcovered⟩
    have hstamp := updateTimestamp_elapsed_iff.mpr hs
    have hcurrent := updateTimestamp_elapsed_iff.mpr hn
    refine ⟨(timerExpires_alike_iff (halike hs hn)).mpr hcovered, hstamp, hcurrent, ?_⟩
    rw [hstamp.micros, hcurrent.micros]
    omega

end Elapsed

/-- A keep-alive of seven seconds ago. -/
theorem exactTimer_late :
    ExactTimer ⟨0, 0⟩ ⟨1, 0⟩ ⟨8, 0⟩ fiveSeconds ∧
      timerExpires ⟨0, 0⟩ ⟨1, 0⟩ ⟨8, 0⟩ fiveSeconds = true := by
  have hexact : ExactTimer ⟨0, 0⟩ ⟨1, 0⟩ ⟨8, 0⟩ fiveSeconds :=
    (exactTimer_iff ⟨⟨0, 0⟩, by decide, by decide⟩ ⟨⟨1, 0⟩, by decide, by decide⟩
      ⟨⟨8, 0⟩, by decide, by decide⟩ ⟨fiveSeconds, by decide, by decide⟩
      (by decide)).mpr ⟨by decide, by decide, fun h => absurd h (by decide)⟩
  exact ⟨hexact, by decide⟩

/-- A node that started at 0.5 s and heard a keep-alive at 1.0 s drops the peer at 5.5 s, half a
second early. -/
theorem timer_early : ¬ ∀ start s n v : Instant, start.micros ≤ s.micros → s.micros ≤ n.micros →
    ExactTimer start.toTimeval s.toTimeval n.toTimeval v.toTimeval := by
  intro h
  have hexact := h ⟨⟨0, 500000⟩, by decide, by decide⟩ ⟨⟨1, 0⟩, by decide, by decide⟩
    ⟨⟨5, 500000⟩, by decide, by decide⟩ ⟨fiveSeconds, by decide, by decide⟩ (by decide) (by decide)
  exact absurd (hexact.expires.mp (by decide)) (by decide)

end P2PStream
