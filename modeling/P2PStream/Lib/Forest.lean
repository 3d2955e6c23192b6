/-
# `P2PStream.Lib.Forest` — links that never lead back

Each node of a graph follows its links.  They are acyclic when nobody comes back to
where it started, and then in every finite group somebody has no link into the group.

Replacing the links of one node by a single one keeps this exactly when the new link
does not lead to a node from which one comes to the first.
-/
import Mathlib.Data.Fintype.Card
import Mathlib.Data.Fintype.EquivFin
import Mathlib.Logic.Relation
import Mathlib.Order.WellFounded

namespace P2PStream.Lib

open Relation

variable {α : Type _} {r : α → α → Prop}

/-- Following the links never leads back. -/
def Acyclic (r : α → α → Prop) : Prop := ∀ a, ¬ TransGen r a a

theorem Acyclic.mono {r' : α → α → Prop} (h : Acyclic r) (hle : ∀ x y, r' x y → r x y) :
    Acyclic r' :=
  fun a hback => h a (TransGen.mono (fun x y => hle x y) a a hback)

theorem Acyclic.exists_sink (h : Acyclic r) {G : Finset α} (hG : G.Nonempty) :
    ∃ a ∈ G, ∀ b ∈ G, ¬ r a b := by
  let below : G → G → Prop := fun x y => TransGen r y x
  have htrans : IsTrans G below := ⟨fun _ _ _ hxy hyz => hyz.trans hxy⟩
  have hirrefl : Std.Irrefl below := ⟨fun x => h x⟩
  have hwf : WellFounded below := Finite.wellFounded_of_trans_of_irrefl below
  obtain ⟨g, hg⟩ := hG
  obtain ⟨a, -, hmin⟩ := hwf.has_min Set.univ ⟨⟨g, hg⟩, trivial⟩
  exact ⟨a, a.2, fun b hb hlink => hmin ⟨b, hb⟩ trivial (.single hlink)⟩

/-- The links, with those of `a` replaced by one to `b`. -/
def relink (r : α → α → Prop) (a b : α) (x y : α) : Prop := x = a ∧ y = b ∨ x ≠ a ∧ r x y

theorem relink_reaches {a x : α} (b : α) (h : ReflTransGen r x a) :
    ReflTransGen (relink r a b) x a := by
  induction h using ReflTransGen.head_induction_on with
  | refl => exact .refl
  | @head x y hxy _ ih =>
      by_cases hx : x = a
      · rw [hx]
      · exact .head (.inr ⟨hx, hxy⟩) ih

/-- Where no way leads from `b` to `a`, the new link is used once at most. -/
theorem relink_splits {a b x y : α} (hback : ¬ ReflTransGen r b a)
    (h : TransGen (relink r a b) x y) :
    TransGen r x y ∨ (ReflTransGen r x a ∧ ReflTransGen r b y) := by
  induction h with
  | single hxy =>
      rcases hxy with ⟨rfl, rfl⟩ | ⟨-, hxy⟩
      · exact .inr ⟨.refl, .refl⟩
      · exact .inl (.single hxy)
  | tail _ hyz ih =>
      rcases hyz with ⟨rfl, rfl⟩ | ⟨-, hyz⟩
      · rcases ih with hold | ⟨-, hba⟩
        · exact .inr ⟨hold.to_reflTransGen, .refl⟩
        · exact absurd hba hback
      · rcases ih with hold | ⟨hxa, hby⟩
        · exact .inl (hold.tail hyz)
        · exact .inr ⟨hxa, hby.tail hyz⟩

/-- The new link closes a cycle exactly when a way leads from its end to its start. -/
theorem acyclic_relink_iff (h : Acyclic r) (a b : α) :
    Acyclic (relink r a b) ↔ ¬ ReflTransGen r b a := by
  constructor
  · intro hnew hback
    exact hnew a (.head' (.inl ⟨rfl, rfl⟩) (relink_reaches b hback))
  · intro hback c hcycle
    rcases relink_splits hback hcycle with hold | ⟨hca, hbc⟩
    · exact h c hold
    · exact hback (hbc.trans hca)

end P2PStream.Lib
