/-
# `P2PStream.Lib.KeyedList` — a list of records, searched by key

A record is written at the end of the list when its key is not in it; when it is,
the record is ignored, or it takes the place of the entry.  So keys stay where they
are and are never lost, they stay distinct, and what a key finds is told by the
writes for that key alone: the first of them, or the last after it that overwrites.
-/
import Mathlib.Data.List.Basic
import Mathlib.Data.List.Infix
import Mathlib.Data.List.MinMax
import Mathlib.Data.List.Nodup

namespace P2PStream.Lib

/-- A record to be written, and whether over the entry that has its key. -/
structure Write (α : Type _) where
  record : α
  overwrites : Bool

section KeyedList

variable {α κ : Type _} [DecidableEq κ] (key : α → κ)

def write (l : List α) (w : Write α) : List α :=
  if key w.record ∈ l.map key then
    if w.overwrites then l.map fun x => if key x = key w.record then w.record else x else l
  else l ++ [w.record]

def writeAll (l : List α) (ws : List (Write α)) : List α := ws.foldl (write key) l

/-- The record that the writes leave for a key. -/
def lastWritten (k : κ) (ws : List (Write α)) : Option α :=
  match ws.filter fun w => key w.record = k with
  | [] => none
  | w :: rest => some ((rest.filter (·.overwrites)).getLast?.getD w).record

variable {key}

theorem writeAll_append (l : List α) (ws ws' : List (Write α)) :
    writeAll key l (ws ++ ws') = writeAll key (writeAll key l ws) ws' := List.foldl_append

/-! ## Keys -/

theorem keys_write (l : List α) (w : Write α) : (write key l w).map key =
    if key w.record ∈ l.map key then l.map key else l.map key ++ [key w.record] := by
  unfold write
  split
  · split
    · rw [List.map_map]
      refine List.map_congr_left fun x _ => ?_
      by_cases h : key x = key w.record
      · simp [h]
      · simp [h]
    · rfl
  · simp

theorem keys_prefix_write (l : List α) (w : Write α) : l.map key <+: (write key l w).map key := by
  rw [keys_write]
  split
  · exact List.prefix_refl _
  · exact List.prefix_append _ _

theorem nodup_write {l : List α} (h : (l.map key).Nodup) (w : Write α) :
    ((write key l w).map key).Nodup := by
  rw [keys_write]
  split
  · exact h
  · next hnew =>
    refine List.nodup_append.mpr ⟨h, List.nodup_singleton _, fun k hk k' hk' heq => hnew ?_⟩
    rw [List.mem_singleton] at hk'
    rwa [← hk', ← heq]

theorem mem_keys_write {l : List α} {w : Write α} {k : κ} :
    k ∈ (write key l w).map key ↔ k ∈ l.map key ∨ key w.record = k := by
  rw [keys_write]
  split
  · next hold =>
    refine ⟨Or.inl, fun h => h.elim id fun heq => heq ▸ hold⟩
  · rw [List.mem_append, List.mem_singleton, eq_comm]

theorem keys_prefix_writeAll (l : List α) (ws : List (Write α)) :
    l.map key <+: (writeAll key l ws).map key := by
  induction ws generalizing l with
  | nil => exact List.prefix_refl _
  | cons w ws ih => exact (keys_prefix_write l w).trans (ih (write key l w))

theorem nodup_writeAll {l : List α} (h : (l.map key).Nodup) (ws : List (Write α)) :
    ((writeAll key l ws).map key).Nodup := by
  induction ws generalizing l with
  | nil => exact h
  | cons w ws ih => exact ih (nodup_write h w)

theorem nodup_writeAll_nil (ws : List (Write α)) : ((writeAll key [] ws).map key).Nodup :=
  nodup_writeAll (l := []) List.nodup_nil ws

theorem mem_keys_writeAll {l : List α} {ws : List (Write α)} {k : κ} :
    k ∈ (writeAll key l ws).map key ↔ k ∈ l.map key ∨ ∃ w ∈ ws, key w.record = k := by
  induction ws generalizing l with
  | nil => simp [writeAll]
  | cons w ws ih =>
      have hstep : writeAll key l (w :: ws) = writeAll key (write key l w) ws := rfl
      rw [hstep, ih, mem_keys_write, List.exists_mem_cons_iff, or_assoc]

/-! ## Records -/

theorem find?_write (l : List α) (w : Write α) (k : κ) :
    (write key l w).find? (fun x => key x = k) =
      if key w.record = k then
        some (if w.overwrites then w.record
          else (l.find? fun x => key x = k).getD w.record)
      else l.find? fun x => key x = k := by
  have hsome : k ∈ l.map key → ∃ x, l.find? (fun x => key x = k) = some x ∧ key x = k := by
    intro hk
    obtain ⟨y, hy, hyk⟩ := List.mem_map.mp hk
    have hfound : (l.find? fun x => key x = k).isSome := List.find?_isSome.mpr ⟨y, hy, by simpa⟩
    obtain ⟨x, hx⟩ := Option.isSome_iff_exists.mp hfound
    exact ⟨x, hx, by simpa using List.find?_some hx⟩
  unfold write
  split
  · next hold =>
    split
    · have hkey : ∀ x, key (if key x = key w.record then w.record else x) = key x := by
        intro x
        split
        · next heq => exact heq.symm
        · rfl
      have hpred : ((fun x => decide (key x = k)) ∘ fun x =>
          if key x = key w.record then w.record else x) = fun x => decide (key x = k) := by
        funext x
        simp only [Function.comp_apply, hkey]
      rw [List.find?_map, hpred]
      split
      · next hk =>
        obtain ⟨x, hx, hxk⟩ := hsome (hk ▸ hold)
        rw [hx, Option.map_some, if_pos (hxk.trans hk.symm)]
      · next hk =>
        cases hx : l.find? fun x => key x = k with
        | none => rfl
        | some x =>
            have hxk : key x = k := by simpa using List.find?_some hx
            rw [Option.map_some, if_neg fun heq => hk (heq.symm.trans hxk)]
    · split
      · next hk =>
        obtain ⟨x, hx, -⟩ := hsome (hk ▸ hold)
        rw [hx, Option.getD_some]
      · rfl
  · next hnew =>
    rw [List.find?_append]
    split
    · next hk =>
      have hnone : l.find? (fun x => key x = k) = none := by
        refine List.find?_eq_none.mpr fun x hx hxk => hnew ?_
        rw [hk]
        exact List.mem_map.mpr ⟨x, hx, by simpa using hxk⟩
      rw [hnone, Option.none_or, Option.getD_none, ite_self]
      exact List.find?_cons_of_pos (by simpa using hk)
    · next hk =>
      rw [List.find?_cons_of_neg (by simpa using hk), List.find?_nil, Option.or_none]

theorem lastWritten_concat (k : κ) (ws : List (Write α)) (w : Write α) :
    lastWritten key k (ws ++ [w]) =
      if key w.record = k then
        some (if w.overwrites then w.record else (lastWritten key k ws).getD w.record)
      else lastWritten key k ws := by
  unfold lastWritten
  rw [List.filter_append, List.filter_singleton]
  by_cases hk : key w.record = k
  · rw [if_pos hk]
    simp only [hk, decide_true]
    cases ws.filter fun w => key w.record = k with
    | nil => cases w.overwrites <;> simp
    | cons first rest =>
        cases hw : w.overwrites with
        | false => simp [List.filter_append, hw]
        | true => simp [List.filter_append, hw]
  · simp [hk]

theorem find?_writeAll (ws : List (Write α)) (k : κ) :
    (writeAll key [] ws).find? (fun x => key x = k) = lastWritten key k ws := by
  induction ws using List.reverseRecOn with
  | nil => rfl
  | append_singleton ws w ih =>
      rw [writeAll_append, lastWritten_concat, ← ih]
      exact find?_write _ w k

theorem lastWritten_of_mem {ws : List (Write α)} {x : α} (h : x ∈ writeAll key [] ws) :
    lastWritten key (key x) ws = some x := by
  have hnodup : ((writeAll key [] ws).map key).Nodup := nodup_writeAll_nil ws
  have hfound : ((writeAll key [] ws).find? fun y => key y = key x).isSome :=
    List.find?_isSome.mpr ⟨x, h, by simp⟩
  obtain ⟨y, hy⟩ := Option.isSome_iff_exists.mp hfound
  have hkey : key y = key x := by simpa using List.find?_some hy
  have heq : y = x := List.inj_on_of_nodup_map hnodup (List.mem_of_find?_eq_some hy) h hkey
  rw [← find?_writeAll, hy, heq]

/-! ## Searching for a least record by its key -/

/-- Records with the key of the first least record are least, so it is the first of them. -/
theorem find?_key_of_mem_argmin {β : Type _} [LinearOrder β] {f : α → β} {m : α}
    (hkey : ∀ a, key a = key m → f a = f m) {l : List α} (hm : m ∈ l.argmin f) :
    l.find? (fun a => key a = key m) = some m := by
  induction l with
  | nil => cases hm
  | cons a l ih =>
      rw [List.argmin_cons] at hm
      cases hrest : l.argmin f with
      | none =>
          rw [hrest] at hm
          obtain rfl : a = m := Option.some.inj hm
          exact List.find?_cons_of_pos (decide_eq_true rfl)
      | some c =>
          simp only [hrest] at hm
          by_cases hlt : f c < f a
          · rw [if_pos hlt] at hm
            obtain rfl : c = m := Option.some.inj hm
            have hne : decide (key a = key c) = false :=
              decide_eq_false fun h => absurd (hkey a h) (ne_of_gt hlt)
            simp only [List.find?_cons, hne]
            exact ih hrest
          · rw [if_neg hlt] at hm
            obtain rfl : a = m := Option.some.inj hm
            exact List.find?_cons_of_pos (decide_eq_true rfl)

end KeyedList

end P2PStream.Lib
