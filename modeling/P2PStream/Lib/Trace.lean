/-
# `P2PStream.Lib.Trace` — runs of a labelled transition system

A run is a sequence of labelled steps.  A *guarded* run is one in which every
step meets a condition on its label and on the state before it.  What a guarded
step keeps, a guarded run keeps: this is the only induction over runs that
invariant proofs need.
-/
namespace P2PStream.Lib

section Runs

variable {State Label : Type _} (step : State → Label → State → Prop)

/-- A run from `s` through the labels `ls`. -/
inductive Run : State → List Label → State → Prop
  | nil (s : State) : Run s [] s
  | cons {s t u : State} {l : Label} {ls : List Label} :
      step s l t → Run t ls u → Run s (l :: ls) u

/-- The steps of `step` that meet `guard`. -/
def Guarded (guard : State → Label → Prop) (s : State) (l : Label) (t : State) : Prop :=
  guard s l ∧ step s l t

/-- The steps of `step` that do what they should. -/
def Safe (Good : State → Label → State → Prop) (s : State) (l : Label) (t : State) : Prop :=
  Good s l t ∧ step s l t

variable {step} {guard : State → Label → Prop} {Inv : State → Prop}

/-- What every step keeps, every run keeps. -/
theorem Run.invariant (hstep : ∀ s l t, Inv s → step s l t → Inv t) {s t : State}
    {ls : List Label} (hrun : Run step s ls t) (hs : Inv s) : Inv t := by
  induction hrun with
  | nil s => exact hs
  | cons hfirst _ ih => exact ih (hstep _ _ _ hs hfirst)

/-- What every guarded step keeps, every guarded run keeps. -/
theorem Run.guarded_invariant (hstep : ∀ s l t, Inv s → guard s l → step s l t → Inv t)
    {s t : State} {ls : List Label} (hrun : Run (Guarded step guard) s ls t) (hs : Inv s) :
    Inv t :=
  hrun.invariant (fun s l t hinv hl => hstep s l t hinv hl.1 hl.2) hs

/-- Where guarded steps are good and keep the invariant, all steps of a guarded run are good. -/
theorem Run.safe_of_guarded {Good : State → Label → State → Prop}
    (hkeep : ∀ s l t, Inv s → guard s l → step s l t → Inv t ∧ Good s l t)
    {s t : State} {ls : List Label} (hrun : Run (Guarded step guard) s ls t) (hs : Inv s) :
    Run (Safe step Good) s ls t := by
  induction hrun with
  | nil s => exact .nil s
  | cons hfirst _ ih =>
      obtain ⟨hinv, hgood⟩ := hkeep _ _ _ hs hfirst.1 hfirst.2
      exact .cons ⟨hgood, hfirst.2⟩ (ih hinv)

/-- An exact guard: from a state with the invariant, the good steps are those that meet
the guard, and they keep the invariant. -/
theorem Run.guarded_iff_safe (Inv : State → Prop) {Good : State → Label → State → Prop}
    (hkeep : ∀ s l t, Inv s → guard s l → step s l t → Inv t ∧ Good s l t)
    (hexact : ∀ s l t, Inv s → step s l t → Good s l t → guard s l)
    {s t : State} {ls : List Label} (hs : Inv s) :
    Run (Guarded step guard) s ls t ↔ Run (Safe step Good) s ls t := by
  constructor
  · exact fun hrun => hrun.safe_of_guarded hkeep hs
  · intro hrun
    induction hrun with
    | nil s => exact .nil s
    | cons hfirst _ ih =>
        have hguard := hexact _ _ _ hs hfirst.2 hfirst.1
        exact .cons ⟨hguard, hfirst.2⟩ (ih (hkeep _ _ _ hs hguard hfirst.2).1)

theorem Run.append {s t u : State} {ls ms : List Label} (h : Run step s ls t)
    (h' : Run step t ms u) : Run step s (ls ++ ms) u := by
  induction h with
  | nil s => exact h'
  | cons hfirst _ ih => exact .cons hfirst (ih h')

theorem Run.map {State' : Type _} {step' : State' → Label → State' → Prop} (f : State → State')
    (h : ∀ s l t, step s l t → step' (f s) l (f t)) {s t : State} {ls : List Label}
    (hrun : Run step s ls t) : Run step' (f s) ls (f t) := by
  induction hrun with
  | nil s => exact .nil (f s)
  | cons hfirst _ ih => exact .cons (h _ _ _ hfirst) ih

theorem Run.mono {step' : State → Label → State → Prop} (h : ∀ s l t, step s l t → step' s l t)
    {s t : State} {ls : List Label} (hrun : Run step s ls t) : Run step' s ls t :=
  hrun.map id h

/-- Where every step is matched by a run, every run is. -/
theorem Run.simulation {State' Label' : Type _} {step' : State' → Label' → State' → Prop}
    {Rel : State → State' → Prop}
    (h : ∀ s s' l t, Rel s s' → step s l t → ∃ ls' t', Run step' s' ls' t' ∧ Rel t t')
    {s t : State} {ls : List Label} (hrun : Run step s ls t) {s' : State'} (hs : Rel s s') :
    ∃ ls' t', Run step' s' ls' t' ∧ Rel t t' := by
  induction hrun generalizing s' with
  | nil s => exact ⟨[], s', .nil s', hs⟩
  | cons hfirst _ ih =>
      obtain ⟨ls₁, t₁, hrun₁, ht₁⟩ := h _ _ _ _ hs hfirst
      obtain ⟨ls₂, t₂, hrun₂, ht₂⟩ := ih ht₁
      exact ⟨ls₁ ++ ls₂, t₂, hrun₁.append hrun₂, ht₂⟩

theorem Run.guarded_labels {Q : Label → Prop} {s t : State} {ls : List Label}
    (hrun : Run (Guarded step guard) s ls t) (h : ∀ l ∈ ls, Q l) :
    Run (Guarded step fun s l => guard s l ∧ Q l) s ls t := by
  induction hrun with
  | nil s => exact .nil s
  | cons hfirst _ ih =>
      obtain ⟨hl, hls⟩ := List.forall_mem_cons.mp h
      exact .cons ⟨⟨hfirst.1, hl⟩, hfirst.2⟩ (ih hls)

/-- A budget that each marked step lowers and no other step raises is lower by the marked steps
of the run. -/
theorem Run.budget {Within : Nat → State → Prop} {marked : Label → Bool}
    (hstep : ∀ b s l t, Within b s → step s l t → Within (if marked l then b - 1 else b) t)
    {s t : State} {ls : List Label} (hrun : Run step s ls t) {b : Nat} (hs : Within b s) :
    Within (b - ls.countP marked) t := by
  induction hrun generalizing b with
  | nil s => exact hs
  | @cons s t u l ls hfirst _ ih =>
      have hnext := ih (hstep b s l t hs hfirst)
      rw [List.countP_cons]
      cases hl : marked l with
      | false =>
          rw [hl] at hnext
          exact hnext
      | true =>
          rw [hl, if_pos rfl, Nat.sub_sub, Nat.add_comm] at hnext
          exact hnext

theorem Run.exists_replicate {After : Nat → State → Prop} {l : Label}
    (hnext : ∀ k s, After k s → ∃ t, step s l t ∧ After (k + 1) t) (count : Nat) :
    ∀ k s, After k s → ∃ t, Run step s (List.replicate count l) t ∧ After (k + count) t := by
  induction count with
  | zero => exact fun k s hs => ⟨s, .nil s, hs⟩
  | succ count ih =>
      intro k s hs
      obtain ⟨t, hfirst, ht⟩ := hnext k s hs
      obtain ⟨u, hrest, hu⟩ := ih (k + 1) t ht
      have hcount : k + (count + 1) = k + 1 + count := by omega
      exact ⟨u, .cons hfirst hrest, hcount ▸ hu⟩

end Runs

end P2PStream.Lib
