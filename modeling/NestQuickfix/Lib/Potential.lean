import Mathlib.Algebra.Order.Monoid.Canonical.Defs
import NestQuickfix.Lib.Exec
import NestQuickfix.Lib.Run

/-!
# Potentials

A potential of a state bounds what is left to do in it. The cost of a computation is what
it adds to the potential at most, whichever way it ends; along a sequence costs add up. A
system whose steps all use some of its potential can make only finitely many of them.
-/

namespace Lib

universe u

namespace Exec

variable {ε σ α β : Type u} {M : Type*} [AddCommMonoid M] [PartialOrder M]

/-- From states with `I` a computation keeps `I` and adds at most `n` to the potential. -/
def Costs (I : σ → Prop) (Φ : σ → M) (n : M) (x : Exec ε σ α) : Prop :=
  ∀ s, I s → I (x.after s) ∧ Φ (x.after s) ≤ Φ s + n

namespace Costs

variable {I : σ → Prop} {Φ : σ → M} {n n' : M} {x : Exec ε σ α}

theorem modify {f : σ → σ} (h : ∀ s, I s → I (f s) ∧ Φ (f s) ≤ Φ s + n) :
    Costs I Φ n (modify f : Exec ε σ PUnit) := h

theorem attempt (hx : Costs I Φ n x) : Costs I Φ n (attempt x) := hx

theorem pure (a : α) : Costs I Φ 0 (pure a : Exec ε σ α) :=
  fun s hs => ⟨hs, (add_zero (Φ s)).ge⟩

theorem throw (e : ε) : Costs I Φ 0 (throw e : Exec ε σ α) :=
  fun s hs => ⟨hs, (add_zero (Φ s)).ge⟩

/-- Reading the state: what is kept is known of it. -/
theorem get_bind {f : σ → Exec ε σ α} (hf : ∀ s, I s → Costs I Φ n (f s)) :
    Costs I Φ n (get >>= f) := fun s hs => hf s hs s hs

theorem ite {p : Prop} [Decidable p] {y : Exec ε σ α} (hx : p → Costs I Φ n x)
    (hy : ¬ p → Costs I Φ n y) : Costs I Φ n (if p then x else y) := by
  split
  · next h => exact hx h
  · next h => exact hy h

variable [IsOrderedAddMonoid M]

theorem mono (hle : n ≤ n') (hx : Costs I Φ n x) : Costs I Φ n' x := fun s hs =>
  ⟨(hx s hs).1, (hx s hs).2.trans (add_le_add_right hle (Φ s))⟩

variable [CanonicallyOrderedAdd M]

/-- Costs add up; an error saves the rest of them. -/
theorem bind {f : α → Exec ε σ β} (hx : Costs I Φ n x) (hf : ∀ a, Costs I Φ n' (f a)) :
    Costs I Φ (n + n') (x >>= f) := by
  intro s hs
  have hcost := hx s hs
  unfold after at hcost ⊢
  rw [result_bind]
  rcases hr : x.result s with ⟨e | a, s'⟩
  · rw [hr] at hcost
    exact ⟨hcost.1, hcost.2.trans (add_le_add_right le_self_add (Φ s))⟩
  · rw [hr] at hcost
    obtain ⟨hI, hle⟩ := hf a s' hcost.1
    refine ⟨hI, hle.trans ?_⟩
    rw [← add_assoc]
    exact add_le_add_left hcost.2 n'

/-- A beginning without costs. -/
theorem bind_of_free {f : α → Exec ε σ β} (hx : Costs I Φ 0 x) (hf : ∀ a, Costs I Φ n (f a)) :
    Costs I Φ n (x >>= f) := by
  have hbind := bind hx hf
  rwa [zero_add] at hbind

/-- A loop without costs. -/
theorem forEach {f : α → Exec ε σ PUnit} (as : List α) (hf : ∀ a, Costs I Φ 0 (f a)) :
    Costs I Φ 0 (forEach as f) := by
  induction as with
  | nil => exact pure PUnit.unit
  | cons a as ih => exact bind_of_free (hf a) fun _ => ih

end Costs

end Exec

namespace System

variable {σ ε : Type*} {S : System σ ε} {guard : σ → ε → Prop} {s s' : σ} {I : σ → Prop}
  {Φ : σ → ℕ}

/-- If every guarded step uses some of the potential, a run is no longer than the potential it
uses up. -/
theorem length_add_le (hstep : ∀ s e s', I s → guard s e → S.step s e = some s' →
      I s' ∧ Φ s' < Φ s) {es : List ε} (hes : S.Guarded guard s es) (hs : I s)
    (hexec : S.exec s es = some s') : es.length + Φ s' ≤ Φ s := by
  induction es generalizing s with
  | nil =>
    obtain rfl := Option.some.inj hexec
    simp
  | cons e es ih =>
    obtain ⟨s1, hs1, hrest⟩ := Option.bind_eq_some_iff.mp hexec
    obtain ⟨hI, hlt⟩ := hstep s e s1 hs hes.1 hs1
    have hlength := ih (hes.2 s1 hs1) hI hrest
    rw [List.length_cons]
    omega

end System

end Lib
