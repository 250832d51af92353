import Mathlib.Data.Set.Basic
import NestQuickfix.Lib.Exec

/-!
# The acts of a computation

Imperative code changes the state by a few kinds of elementary acts. What a computation
can do is described by a set of acts: the state it ends in is reached from
the state it starts in by acts of the set. Such descriptions compose, whether or not an
error cuts the computation short, and a property kept by every act of the set
is kept by the computation.
-/

namespace Lib

universe u

namespace Exec

variable {ε σ α β ι : Type u} {apply : ι → σ → σ} {A B : Set ι} {s s' s'' : σ}

/-- The states reached from a state by acts of a set. -/
inductive Path (apply : ι → σ → σ) (A : Set ι) (s : σ) : σ → Prop
  | refl : Path apply A s s
  | act {s' : σ} {a : ι} (h : Path apply A s s') (ha : a ∈ A) : Path apply A s (apply a s')

namespace Path

theorem single {a : ι} (ha : a ∈ A) : Path apply A s (apply a s) := refl.act ha

theorem trans (h : Path apply A s s') (h' : Path apply A s' s'') : Path apply A s s'' := by
  induction h' with
  | refl => exact h
  | act _ ha ih => exact ih.act ha

theorem mono (hAB : A ⊆ B) (h : Path apply A s s') : Path apply B s s' := by
  induction h with
  | refl => exact .refl
  | act _ ha ih => exact ih.act (hAB ha)

/-- What every act of a set keeps on the way is kept. -/
theorem keeps {P : σ → Prop}
    (hP : ∀ s1 a, Path apply A s s1 → a ∈ A → P s1 → P (apply a s1)) (h : Path apply A s s')
    (hs : P s) : P s' := by
  induction h with
  | refl => exact hs
  | act h ha ih => exact hP _ _ h ha ih

/-- A value that no act of a set changes. -/
theorem eq_of {γ : Type*} {f : σ → γ} (hf : ∀ s a, a ∈ A → f (apply a s) = f s)
    (h : Path apply A s s') : f s' = f s :=
  h.keeps (P := fun s' => f s' = f s) (fun s a _ ha hs => (hf s a ha).trans hs) rfl

end Path

/-- A sequence goes on from where its beginning ends. -/
theorem after_bind_of_ok {x : Exec ε σ α} {f : α → Exec ε σ β} {a : α}
    (hr : x.result s = (.ok a, s')) : (x >>= f).after s = (f a).after s' := by
  unfold after
  rw [result_bind, hr]

/-- It ends where its beginning throws. -/
theorem after_bind_of_error {x : Exec ε σ α} {f : α → Exec ε σ β} {e : ε}
    (hr : x.result s = (.error e, s')) : (x >>= f).after s = s' := by
  unfold after
  rw [result_bind, hr]

theorem after_bind_congr {x y : Exec ε σ α} {f : α → Exec ε σ β}
    (hxy : x.result s = y.result s') : (x >>= f).after s = (y >>= f).after s' := by
  unfold after
  rw [result_bind, result_bind, hxy]

theorem after_attempt_bind_of_ok {x : Exec ε σ α} {f : α → Exec ε σ β}
    {g : Except ε β → Exec ε σ γ} {a : α} (hr : x.result s = (.ok a, s')) :
    (attempt (x >>= f) >>= g).after s = (attempt (f a) >>= g).after s' := by
  unfold after
  rw [result_bind, result_bind, result_attempt, result_attempt, result_bind, hr]

/-- From a state on, a computation performs acts of a set. -/
def Does (apply : ι → σ → σ) (A : Set ι) (s : σ) (x : Exec ε σ α) : Prop :=
  Path apply A s (x.after s)

namespace Does

variable {x : Exec ε σ α}

theorem pure (a : α) : Does apply A s (pure a : Exec ε σ α) := .refl

theorem throw (e : ε) : Does apply A s (throw e : Exec ε σ α) := .refl

theorem mono (hAB : A ⊆ B) (hx : Does apply A s x) : Does apply B s x := Path.mono hAB hx

/-- A change of the state that is an act. -/
theorem modify {f : σ → σ} (a : ι) (ha : a ∈ A) (h : f s = apply a s) :
    Does apply A s (modify f : Exec ε σ PUnit) := by
  have hpath : Path apply A s (apply a s) := .single ha
  rwa [← h] at hpath

/-- The rest of a sequence runs after its beginning. -/
theorem bind {f : α → Exec ε σ β} (hx : Does apply A s x) (hf : ∀ a s', Does apply A s' (f a)) :
    Does apply A s (x >>= f) := by
  unfold Does after at hx ⊢
  rw [result_bind]
  rcases hr : x.result s with ⟨e | a, s'⟩
  · rwa [hr] at hx
  · rw [hr] at hx
    exact hx.trans (hf a s')

/-- The rest of a sequence, which may use that its beginning ends normally and what acts
lead there. -/
theorem bind_of_ok {f : α → Exec ε σ β} (hx : Does apply A s x)
    (hf : ∀ a s', x.result s = (.ok a, s') → Path apply A s s' → Does apply A s' (f a)) :
    Does apply A s (x >>= f) := by
  unfold Does after at hx ⊢
  rw [result_bind]
  rcases hr : x.result s with ⟨e | a, s'⟩
  · rwa [hr] at hx
  · rw [hr] at hx
    exact hx.trans (hf a s' hr hx)

/-- A sequence whose beginning is, with acts of its own, a path to a known state. -/
theorem bind_of_path {f : α → Exec ε σ β} {a : α} (hr : x.result s = (.ok a, s'))
    (hx : Path apply A s s') (hf : Does apply A s' (f a)) : Does apply A s (x >>= f) := by
  unfold Does
  rw [after_bind_of_ok hr]
  exact hx.trans hf

theorem get_bind {f : σ → Exec ε σ β} (hf : Does apply A s (f s)) :
    Does apply A s (get >>= f) := by
  unfold Does after at hf ⊢
  rwa [result_bind, result_get]

theorem attempt (hx : Does apply A s x) : Does apply A s (attempt x) := hx

theorem ite {p : Prop} [Decidable p] {y : Exec ε σ α} (hx : p → Does apply A s x)
    (hy : ¬ p → Does apply A s y) : Does apply A s (if p then x else y) := by
  split
  · exact hx ‹_›
  · exact hy ‹_›

/-- The loop rule: the body may use what acts have been performed before. -/
theorem forEach {f : α → Exec ε σ PUnit} {as : List α}
    (hf : ∀ a ∈ as, ∀ s', Path apply A s s' → Does apply A s' (f a)) :
    Does apply A s (forEach as f) := by
  induction as generalizing s with
  | nil => exact pure PUnit.unit
  | cons a as ih =>
    refine bind_of_ok (hf a List.mem_cons_self s .refl) fun _ s' _ hpath => ih fun b hb s'' h => ?_
    exact hf b (List.mem_cons_of_mem a hb) s'' (hpath.trans h)

end Does

end Exec

end Lib
