import Mathlib.Algebra.BigOperators.Group.List.Basic
import Mathlib.Algebra.GroupWithZero.Nat
import Mathlib.Data.List.Nodup

/-!
# Splitting lists at separator sequences

Core splits a list at a single element (`List.splitOn`). Text protocols also
split at a separator of several elements. The scan runs from left to right and
continues behind each separator it finds. A separator whose first element does
not recur in it cannot overlap itself; for these, splitting distributes over
every concatenation with a separator in between.
-/

namespace Lib

variable {α : Type*} [DecidableEq α]

/-- Scan for separators; `skip` elements still belong to the separator just found. -/
def splitSeqFrom (sep : List α) : ℕ → List α → List (List α)
  | _, [] => [[]]
  | skip + 1, _ :: s => splitSeqFrom sep skip s
  | 0, a :: s =>
    if sep <+: a :: s then [] :: splitSeqFrom sep (sep.length - 1) s
    else (splitSeqFrom sep 0 s).modifyHead (List.cons a)

/-- The pieces of a list between the occurrences of a nonempty separator. -/
def splitSeq (sep s : List α) : List (List α) := splitSeqFrom sep 0 s

@[simp] theorem splitSeq_nil (sep : List α) : splitSeq sep [] = [[]] := rfl

theorem splitSeqFrom_ne_nil (sep : List α) (skip : ℕ) (s : List α) :
    splitSeqFrom sep skip s ≠ [] := by
  induction s generalizing skip with
  | nil => simp [splitSeqFrom]
  | cons a s ih =>
    cases skip with
    | succ skip => exact ih skip
    | zero =>
      rw [splitSeqFrom]
      split
      · simp
      · have h := ih 0
        cases hsplit : splitSeqFrom sep 0 s with
        | nil => exact absurd hsplit h
        | cons p ps => simp

/-- There is always at least one piece. -/
theorem splitSeq_ne_nil (sep s : List α) : splitSeq sep s ≠ [] := splitSeqFrom_ne_nil sep 0 s

/-- Skipping passes over exactly the skipped elements. -/
theorem splitSeqFrom_length_append (sep skipped s : List α) :
    splitSeqFrom sep skipped.length (skipped ++ s) = splitSeq sep s := by
  induction skipped with
  | nil => rfl
  | cons a t ih => exact ih

/-- A separator at the front closes an empty piece. -/
theorem splitSeq_sep_append (b : α) (r s : List α) :
    splitSeq (b :: r) (b :: r ++ s) = [] :: splitSeq (b :: r) s := by
  have hp : b :: r <+: b :: (r ++ s) := List.prefix_append (b :: r) s
  rw [splitSeq, List.cons_append, splitSeqFrom, if_pos hp]
  exact congrArg _ (splitSeqFrom_length_append (b :: r) r s)

/-- An element that does not start a separator belongs to the current piece. -/
theorem splitSeq_cons_of_not_isPrefix {sep : List α} {a : α} {s : List α}
    (h : ¬ sep <+: a :: s) : splitSeq sep (a :: s) = (splitSeq sep s).modifyHead (List.cons a) := by
  rw [splitSeq, splitSeqFrom, if_neg h]
  rfl

/-- An element other than the separator's first one belongs to the current piece. -/
theorem splitSeq_cons_of_ne {a b : α} {r : List α} (s : List α) (h : a ≠ b) :
    splitSeq (b :: r) (a :: s) = (splitSeq (b :: r) s).modifyHead (List.cons a) := by
  apply splitSeq_cons_of_not_isPrefix
  intro hp
  exact h (List.cons_prefix_cons.mp hp).1.symm

/-- A list without the separator is one piece. -/
theorem splitSeq_eq_singleton {sep s : List α} (h : ¬ sep <:+: s) :
    splitSeq sep s = [s] := by
  induction s with
  | nil => rfl
  | cons a s ih =>
    have hprefix : ¬ sep <+: a :: s := fun hp => h hp.isInfix
    have hrest : ¬ sep <:+: s := fun hi => h (hi.trans (List.suffix_cons a s).isInfix)
    rw [splitSeq_cons_of_not_isPrefix hprefix, ih hrest]
    rfl

omit [DecidableEq α] in
/-- A separator that starts inside `x` and whose first element does not recur
in it ends inside `x`: it cannot reach into the separator that follows. -/
theorem isPrefix_of_isPrefix_append {b : α} {r x y : List α} (hb : b ∉ r)
    (h : r <+: x ++ b :: y) : r <+: x := by
  induction x generalizing r with
  | nil =>
    cases r with
    | nil => exact List.nil_prefix
    | cons c r =>
      have hc : c = b := (List.cons_prefix_cons.mp h).1
      exact absurd (by simp [hc]) hb
  | cons a x ih =>
    cases r with
    | nil => exact List.nil_prefix
    | cons c r =>
      obtain ⟨rfl, hr⟩ := List.cons_prefix_cons.mp h
      have hb' : b ∉ r := fun hmem => hb (List.mem_cons_of_mem _ hmem)
      exact List.cons_prefix_cons.mpr ⟨rfl, ih hb' hr⟩

/-- Splitting distributes over a concatenation with a separator in between. -/
theorem splitSeq_append_sep_append {b : α} {r : List α} (hb : b ∉ r) (x y : List α) :
    splitSeq (b :: r) (x ++ (b :: r ++ y)) = splitSeq (b :: r) x ++ splitSeq (b :: r) y := by
  induction hn : x.length using Nat.strongRecOn generalizing x with
  | ind n ih =>
    cases x with
    | nil => simpa using splitSeq_sep_append b r y
    | cons a x =>
      by_cases hp : (b :: r) <+: a :: (x ++ (b :: r ++ y))
      · -- a separator found here lies inside `a :: x`, so `x` is shorter behind it
        obtain ⟨rfl, hr⟩ := List.cons_prefix_cons.mp hp
        obtain ⟨x', rfl⟩ := isPrefix_of_isPrefix_append hb hr
        have hlt : x'.length < n := by
          rw [← hn]
          simp only [List.length_cons, List.length_append]
          omega
        have hrest := ih x'.length hlt x' rfl
        have hleft := splitSeq_sep_append b r (x' ++ (b :: r ++ y))
        have hright := splitSeq_sep_append b r x'
        simp only [List.cons_append, List.append_assoc] at hleft hright hrest ⊢
        rw [hleft, hright, hrest, List.cons_append]
      · have hpx : ¬ (b :: r) <+: a :: x := fun h => hp (h.trans (List.prefix_append (a :: x) _))
        have hlt : x.length < n := by
          rw [← hn]
          simp
        rw [List.cons_append, splitSeq_cons_of_not_isPrefix hp, splitSeq_cons_of_not_isPrefix hpx,
          ih x.length hlt x rfl]
        cases hsplit : splitSeq (b :: r) x with
        | nil => exact absurd hsplit (splitSeq_ne_nil _ _)
        | cons p ps => simp

/-- The first piece is a beginning of the list. -/
theorem isPrefix_of_splitSeq_eq_cons {sep s p : List α} {ps : List (List α)}
    (h : splitSeq sep s = p :: ps) : p <+: s := by
  induction s generalizing p ps with
  | nil =>
    rw [splitSeq_nil] at h
    exact (List.cons.inj h).1 ▸ List.nil_prefix
  | cons a s ih =>
    by_cases hp : sep <+: a :: s
    · rw [splitSeq, splitSeqFrom, if_pos hp] at h
      rw [← (List.cons.inj h).1]
      exact List.nil_prefix
    · rw [splitSeq_cons_of_not_isPrefix hp] at h
      cases hs : splitSeq sep s with
      | nil => exact absurd hs (splitSeq_ne_nil sep s)
      | cons q qs =>
        rw [hs] at h
        obtain ⟨rfl, _⟩ := List.cons.inj h
        exact List.cons_prefix_cons.mpr ⟨rfl, ih hs⟩

/-- Appending an element that cannot close a separator extends the last piece. -/
theorem splitSeq_concat {b : α} {r : List α} {a : α} (ha : ¬ [a] <:+ b :: r)
    (x : List α) :
    ∃ ps p, splitSeq (b :: r) x = ps ++ [p] ∧ splitSeq (b :: r) (x ++ [a]) = ps ++ [p ++ [a]] := by
  induction hn : x.length using Nat.strongRecOn generalizing x with
  | ind n ih =>
    cases x with
    | nil =>
      refine ⟨[], [], rfl, ?_⟩
      have hp : ¬ (b :: r) <+: [a] := by
        intro h
        obtain ⟨rfl, hr⟩ := List.cons_prefix_cons.mp h
        rw [List.prefix_nil.mp hr] at ha
        exact ha List.suffix_rfl
      rw [List.nil_append, splitSeq_cons_of_not_isPrefix hp]
      rfl
    | cons c x =>
      by_cases hp : (b :: r) <+: c :: x
      · -- a separator inside `c :: x` is passed over on both sides
        obtain ⟨y, hy⟩ := hp
        have hlt : y.length < n := by
          rw [← hn, ← hy]
          simp only [List.length_append, List.length_cons]
          omega
        obtain ⟨ps, p, h1, h2⟩ := ih y.length hlt y rfl
        refine ⟨[] :: ps, p, ?_, ?_⟩
        · rw [← hy, splitSeq_sep_append, h1]
          rfl
        · rw [← hy, List.append_assoc, splitSeq_sep_append, h2]
          rfl
      · have hpa : ¬ (b :: r) <+: c :: (x ++ [a]) := by
          intro h
          rw [← List.cons_append, List.prefix_concat_iff] at h
          rcases h with h | h
          · exact ha (h ▸ List.suffix_append (c :: x) [a])
          · exact hp h
        have hlt : x.length < n := by
          rw [← hn]
          simp
        obtain ⟨ps, p, h1, h2⟩ := ih x.length hlt x rfl
        rw [List.cons_append, splitSeq_cons_of_not_isPrefix hp, splitSeq_cons_of_not_isPrefix hpa,
          h1, h2]
        cases ps with
        | nil => exact ⟨[], c :: p, rfl, rfl⟩
        | cons q qs => exact ⟨(c :: q) :: qs, p, rfl, rfl⟩

omit [DecidableEq α] in
/-- Two ways to cut a list at an element absent from the first part: the second
cut is at the same place or later. -/
theorem append_cons_eq_append_cons {a : α} {s t u v : List α} (hs : a ∉ s)
    (h : s ++ a :: t = u ++ a :: v) :
    (u = s ∧ v = t) ∨ ∃ u', u = s ++ a :: u' ∧ t = u' ++ a :: v := by
  induction s generalizing u with
  | nil =>
    cases u with
    | nil => exact Or.inl ⟨rfl, (List.cons.inj h).2.symm⟩
    | cons c u =>
      obtain ⟨rfl, ht⟩ := List.cons.inj h
      exact Or.inr ⟨u, rfl, ht⟩
  | cons b s ih =>
    rw [List.mem_cons, not_or] at hs
    cases u with
    | nil => exact absurd (List.cons.inj h).1.symm hs.1
    | cons c u =>
      obtain ⟨rfl, ht⟩ := List.cons.inj h
      rcases ih hs.2 ht with ⟨rfl, hv⟩ | ⟨u', rfl, ht'⟩
      · exact Or.inl ⟨rfl, hv⟩
      · exact Or.inr ⟨u', rfl, ht'⟩

omit [DecidableEq α] in
/-- The first occurrence of an element cuts a list in one way only. -/
theorem append_cons_inj_of_notMem_left {a : α} {s t u v : List α} (hs : a ∉ s) (hu : a ∉ u)
    (h : s ++ a :: t = u ++ a :: v) : s = u ∧ t = v := by
  rcases append_cons_eq_append_cons hs h with ⟨rfl, rfl⟩ | ⟨u', rfl, _⟩
  · exact ⟨rfl, rfl⟩
  · exact absurd (by simp) hu

omit [DecidableEq α] in
/-- The last occurrence of an element cuts a list in one way only. -/
theorem append_cons_inj_of_notMem_right {a : α} {s t u v : List α} (ht : a ∉ t) (hv : a ∉ v)
    (h : s ++ a :: t = u ++ a :: v) : s = u ∧ t = v := by
  have hreverse : t.reverse ++ a :: s.reverse = v.reverse ++ a :: u.reverse := by
    simpa using congrArg List.reverse h
  obtain ⟨h1, h2⟩ := append_cons_inj_of_notMem_left (by simpa using ht) (by simpa using hv) hreverse
  exact ⟨List.reverse_inj.mp h2, List.reverse_inj.mp h1⟩

omit [DecidableEq α] in
/-- A list with distinct keys can be cut at a key in one way only. -/
theorem append_cons_inj_of_nodup_map {β : Type*} {f : α → β} {a b : α} {s t u v : List α}
    (hnodup : ((s ++ a :: t).map f).Nodup) (h : s ++ a :: t = u ++ b :: v) (hkey : f a = f b) :
    s = u ∧ a = b ∧ t = v := by
  have hb : b ∈ s ++ a :: t := by simp [h]
  obtain rfl : a = b := List.inj_on_of_nodup_map hnodup (by simp) hb hkey
  have hcount := hnodup.of_map
  rw [List.nodup_append] at hcount
  have hs : a ∉ s := fun hmem => hcount.2.2 a hmem a (by simp) rfl
  have ht : a ∉ t := (List.nodup_cons.mp hcount.2.1).1
  rcases append_cons_eq_append_cons hs h with ⟨rfl, rfl⟩ | ⟨u', _, rfl⟩
  · exact ⟨rfl, rfl, rfl⟩
  · exact absurd (by simp) ht

omit [DecidableEq α] in
/-- Pieces that make up `w` and what follows: one of them contains the end of `w`. -/
theorem exists_split_flatten {pieces : List (List α)} {w rest : List α} (hw : w ≠ [])
    (h : pieces.flatten = w ++ rest) :
    ∃ before p q after, pieces = before ++ (p ++ q) :: after ∧ p ≠ [] ∧
      before.flatten ++ p = w ∧ q ++ after.flatten = rest := by
  induction pieces generalizing w with
  | nil =>
    have hnil : w = [] := (List.append_eq_nil_iff.mp h.symm).1
    exact absurd hnil hw
  | cons c pieces ih =>
    rw [List.flatten_cons] at h
    rcases List.append_eq_append_iff.mp h with ⟨w', rfl, hrest⟩ | ⟨q, rfl, hrest⟩
    · by_cases hw' : w' = []
      · subst hw'
        rw [List.append_nil] at hw ⊢
        exact ⟨[], c, [], pieces, by simp, hw, by simp, by simpa using hrest⟩
      · obtain ⟨before, p, q, after, rfl, hp, hleft, hright⟩ := ih hw' hrest
        exact ⟨c :: before, p, q, after, rfl, hp, by simp [hleft], hright⟩
    · exact ⟨[], w, q, pieces, rfl, hw, rfl, hrest.symm⟩

omit [DecidableEq α] in
/-- An element at a position, the ones around it, and what removing or replacing it does. -/
theorem exists_split_getElem? {l : List α} {i : ℕ} {a : α} (h : l[i]? = some a) :
    ∃ l1 l2, l = l1 ++ a :: l2 ∧ l.eraseIdx i = l1 ++ l2 ∧ ∀ b, l.set i b = l1 ++ b :: l2 := by
  obtain ⟨hi, rfl⟩ := List.getElem?_eq_some_iff.mp h
  refine ⟨l.take i, l.drop (i + 1), ?_, List.eraseIdx_eq_take_drop_succ l i, fun b => ?_⟩
  · rw [← List.drop_eq_getElem_cons hi, List.take_append_drop]
  · rw [List.set_eq_take_append_cons_drop, if_pos hi]

omit [DecidableEq α] in
/-- A sum over a list without one element. -/
theorem sum_map_eraseIdx {l : List α} {i : ℕ} {a : α} (h : l[i]? = some a) (f : α → ℕ) :
    ((l.eraseIdx i).map f).sum + f a = (l.map f).sum := by
  obtain ⟨l1, l2, hl, herase, _⟩ := exists_split_getElem? h
  rw [herase, hl, List.map_append, List.map_append, List.map_cons]
  simp only [List.sum_append, List.sum_cons]
  omega

omit [DecidableEq α] in
/-- A sum over a list after one element is replaced. -/
theorem sum_map_set {l : List α} {i : ℕ} {a : α} (h : l[i]? = some a) (b : α) (f : α → ℕ) :
    ((l.set i b).map f).sum + f a = (l.map f).sum + f b := by
  obtain ⟨l1, l2, hl, _, hset⟩ := exists_split_getElem? h
  rw [hset, hl]
  simp only [List.map_append, List.map_cons, List.sum_append, List.sum_cons]
  omega

omit [DecidableEq α] in
/-- A statement about all places of a list, when the list grows at the end. -/
theorem forall_append_cons_concat {s : List α} {a : α} {P : List α → α → Prop} :
    (∀ t b u, s ++ [a] = t ++ b :: u → P t b) ↔ (∀ t b u, s = t ++ b :: u → P t b) ∧ P s a := by
  constructor
  · intro h
    refine ⟨?_, h s a [] rfl⟩
    rintro t b u rfl
    exact h t b (u ++ [a]) (by simp)
  · rintro ⟨hs, ha⟩ t b u heq
    rcases List.eq_nil_or_concat u with rfl | ⟨u', c, rfl⟩
    · obtain ⟨rfl, hb⟩ := List.append_inj' heq rfl
      rw [← (List.cons.inj hb).1]
      exact ha
    · have hcut : s ++ [a] = (t ++ b :: u') ++ [c] := by simpa using heq
      obtain ⟨rfl, _⟩ := List.append_inj' hcut rfl
      exact hs t b u' rfl

/-- The pieces of a list that is split at an element do not contain it. -/
theorem notMem_of_mem_splitOn {a : α} {s piece : List α} (h : piece ∈ s.splitOn a) :
    a ∉ piece := by
  induction s generalizing piece with
  | nil =>
    rw [List.splitOn_nil, List.mem_singleton] at h
    rw [h]
    exact List.not_mem_nil
  | cons b s ih =>
    rw [List.splitOn_cons_eq_if_modifyHead] at h
    split at h
    · rcases List.mem_cons.mp h with rfl | h
      · exact List.not_mem_nil
      · exact ih h
    · next hb =>
      rcases hs : s.splitOn a with _ | ⟨first, rest⟩
      · exact absurd hs (List.splitOn_ne_nil a s)
      · rw [hs, List.modifyHead_cons] at h
        rw [hs] at ih
        rcases List.mem_cons.mp h with rfl | h
        · rw [List.mem_cons, not_or]
          exact ⟨fun hab => hb (by simp [hab]), ih (by simp)⟩
        · exact ih (by simp [h])

/-- The pieces have only elements of the list. -/
theorem subset_of_mem_splitOn {a : α} {s piece : List α} (h : piece ∈ s.splitOn a) :
    piece ⊆ s := by
  induction s generalizing piece with
  | nil =>
    rw [List.splitOn_nil, List.mem_singleton] at h
    rw [h]
    exact List.Subset.refl _
  | cons b s ih =>
    rw [List.splitOn_cons_eq_if_modifyHead] at h
    split at h
    · rcases List.mem_cons.mp h with rfl | h
      · exact List.nil_subset _
      · exact List.subset_cons_of_subset b (ih h)
    · rcases hs : s.splitOn a with _ | ⟨first, rest⟩
      · exact absurd hs (List.splitOn_ne_nil a s)
      · rw [hs, List.modifyHead_cons] at h
        rw [hs] at ih
        rcases List.mem_cons.mp h with rfl | h
        · exact List.cons_subset_cons b (ih (by simp))
        · exact List.subset_cons_of_subset b (ih (by simp [h]))

/-- What stands before a list and does not contain the separator goes with its first piece. -/
theorem splitOn_append_of_notMem {a : α} {x : List α} (hx : a ∉ x) (s : List α) :
    (x ++ s).splitOn a = (s.splitOn a).modifyHead (x ++ ·) := by
  induction x with
  | nil =>
    rw [List.nil_append]
    cases s.splitOn a <;> rfl
  | cons b x ih =>
    rw [List.mem_cons, not_or] at hx
    have hne : (b == a) = false := beq_eq_false_iff_ne.mpr fun h => hx.1 h.symm
    rw [List.cons_append, List.splitOn_cons_eq_if_modifyHead, hne, ih hx.2,
      if_neg Bool.false_ne_true, List.modifyHead_modifyHead]
    rfl

/-- Two lists joined by a separator that occurs in neither of them are determined by the
result. -/
theorem append_sep_inj {b : α} {r s t s' t' : List α} (hb : b ∉ r) (hs : ¬ b :: r <:+: s)
    (ht : ¬ b :: r <:+: t) (h : s ++ (b :: r ++ t) = s' ++ (b :: r ++ t')) : s = s' ∧ t = t' := by
  have hpieces : splitSeq (b :: r) s' ++ splitSeq (b :: r) t' = [s, t] := by
    rw [← splitSeq_append_sep_append hb, ← h, splitSeq_append_sep_append hb,
      splitSeq_eq_singleton hs, splitSeq_eq_singleton ht]
    rfl
  obtain ⟨p, ps, hp⟩ := List.exists_cons_of_ne_nil (splitSeq_ne_nil (b :: r) s')
  obtain ⟨q, qs, hq⟩ := List.exists_cons_of_ne_nil (splitSeq_ne_nil (b :: r) t')
  rw [hp, hq, List.cons_append] at hpieces
  obtain ⟨rfl, hrest⟩ := List.cons.inj hpieces
  have hps : ps = [] := by
    have hlength := congrArg List.length hrest
    rw [List.length_append, List.length_cons, List.length_singleton] at hlength
    exact List.length_eq_zero_iff.mp (by omega)
  rw [hps, List.nil_append] at hrest
  obtain ⟨rfl, _⟩ := List.cons.inj hrest
  -- each list begins with its piece, and together they are as long
  have hps' := (isPrefix_of_splitSeq_eq_cons hp).length_le
  have hqs' := (isPrefix_of_splitSeq_eq_cons hq).length_le
  have hlength := congrArg List.length h
  simp only [List.length_append, List.length_cons] at hlength
  obtain ⟨heq, hrest'⟩ := List.append_inj h (by omega)
  exact ⟨heq, List.append_cancel_left hrest'⟩

end Lib
