import ByrealTitan.Lib.Direction
import Mathlib.Data.List.Dedup
import Mathlib.Data.List.Sort

/-!
# `Lib.Enumeration` — the elements ahead, in the order a walk meets them

A list `Enumerates` the elements of a set ahead of a position when it holds each of them once, nearest
first. A walk takes such a list apart from its head: the head is what a search for the next element
finds, and the tail enumerates what lies ahead from behind the head. `inOrder` makes the enumeration of
a finite set.
-/

namespace Direction

instance (down : Bool) (a b : Int) : Decidable (Further down a b) :=
  inferInstanceAs (Decidable (if down then b < a else a < b))

instance (down : Bool) (current t : Int) : Decidable (Ahead down current t) :=
  inferInstanceAs (Decidable (if down then t ≤ current else current < t))

/-- The last position from which an element can still be found. -/
def before (down : Bool) (t : Int) : Int := if down then t else t - 1

variable {down : Bool} {S : Int → Prop} {c t u : Int} {l : List Int}

/-- **From before an element everything that is not behind it lies ahead.** -/
theorem ahead_before : Ahead down (before down t) u ↔ ¬ Further down u t := by
  cases down with
  | true =>
      rw [ahead_down, further_down]
      simp only [before, if_true]
      omega
  | false =>
      rw [ahead_up, further_up]
      simp only [before, Bool.false_eq_true, if_false]
      omega

/-- `l` holds the elements of `S` ahead of `current`, nearest first. -/
structure Enumerates (down : Bool) (S : Int → Prop) (current : Int) (l : List Int) : Prop where
  sorted : l.Pairwise (Further down)
  mem_iff (t : Int) : t ∈ l ↔ S t ∧ Ahead down current t

/-- **The head of an enumeration is what a search finds.** -/
theorem Enumerates.found (h : Enumerates down S c l) : Found down S c l.head? := by
  cases l with
  | nil =>
      intro u hu hahead
      exact absurd ((h.mem_iff u).mpr ⟨hu, hahead⟩) List.not_mem_nil
  | cons t l =>
      obtain ⟨ht, hahead⟩ := (h.mem_iff t).mp List.mem_cons_self
      refine ⟨ht, hahead, fun u hu hu' hfurther => ?_⟩
      rcases List.mem_cons.mp ((h.mem_iff u).mpr ⟨hu, hu'⟩) with rfl | hmem
      · exact Further.irrefl hfurther
      · exact Further.irrefl (hfurther.trans ((List.pairwise_cons.mp h.sorted).1 u hmem))

/-- **Its tail goes on from behind the head.** -/
theorem Enumerates.tail (h : Enumerates down S c (t :: l)) : Enumerates down S (past down t) l := by
  obtain ⟨hhead, htail⟩ := List.pairwise_cons.mp h.sorted
  obtain ⟨-, hahead⟩ := (h.mem_iff t).mp List.mem_cons_self
  refine ⟨htail, fun u => ?_⟩
  rw [ahead_past]
  constructor
  · intro hu
    exact ⟨((h.mem_iff u).mp (List.mem_cons_of_mem t hu)).1, hhead u hu⟩
  · rintro ⟨hu, hfurther⟩
    rcases List.mem_cons.mp ((h.mem_iff u).mpr ⟨hu, hahead.of_further hfurther⟩) with rfl | hmem
    · exact absurd hfurther Further.irrefl
    · exact hmem

/-- An enumeration of fewer elements is no longer. -/
theorem Enumerates.length_le {S' : Int → Prop} {l' : List Int} (h : Enumerates down S c l)
    (h' : Enumerates down S' c l') (hsub : ∀ t, S t → S' t) : l.length ≤ l'.length := by
  have hnodup : l.Nodup := by
    refine h.sorted.imp fun hfurther heq => ?_
    subst heq
    exact Further.irrefl hfurther
  refine (List.subperm_of_subset hnodup fun t ht => ?_).length_le
  obtain ⟨hS, hahead⟩ := (h.mem_iff t).mp ht
  exact (h'.mem_iff t).mpr ⟨hsub t hS, hahead⟩

/-- Enumerating and searching a part of the set. -/
theorem Enumerates.filter {p : Int → Bool} (h : Enumerates down S c l) :
    Enumerates down (fun t => S t ∧ p t = true) c (l.filter p) := by
  refine ⟨h.sorted.sublist List.filter_sublist, fun t => ?_⟩
  rw [List.mem_filter, h.mem_iff]
  exact and_right_comm

theorem Enumerates.find? {p : Int → Bool} (h : Enumerates down S c l) :
    Found down (fun t => S t ∧ p t = true) c (l.find? p) := by
  rw [← List.head?_filter]
  exact h.filter.found

/-! ## Searches -/

variable {S' : Int → Prop} {a : Int} {r : Option Int}

/-- What is found depends on the elements ahead only. -/
theorem Found.congr (hsame : ∀ u, S u ∧ Ahead down c u ↔ S' u ∧ Ahead down a u) (h : Found down S c r) :
    Found down S' a r := by
  cases r with
  | some t =>
      obtain ⟨ht, hahead⟩ := (hsame t).mp ⟨h.mem, h.ahead⟩
      refine ⟨ht, hahead, fun u hu hu' => ?_⟩
      obtain ⟨hmem, hahead'⟩ := (hsame u).mpr ⟨hu, hu'⟩
      exact h.first u hmem hahead'
  | none =>
      intro u hu hu'
      obtain ⟨hmem, hahead⟩ := (hsame u).mpr ⟨hu, hu'⟩
      exact h u hmem hahead

theorem Found.eq_some (h : Found down S c r) (ht : Nearest down S c t) : r = some t := by
  cases r with
  | none => exact absurd ht.ahead (h t ht.mem)
  | some u => rw [Nearest.unique h ht]

theorem Found.eq_none (h : Found down S c r) (hnone : ∀ u, S u → ¬ Ahead down c u) : r = none := by
  cases r with
  | none => rfl
  | some t => exact absurd h.ahead (hnone t h.mem)

/-! ## Making an enumeration -/

/-- `b` is not behind `a`. -/
def NotBehind (down : Bool) (a b : Int) : Prop := ¬ Further down b a

instance (down : Bool) :
    DecidableRel (NotBehind down) := fun a b => inferInstanceAs (Decidable (¬ Further down b a))

instance (down : Bool) : Std.Total (NotBehind down) where
  total a b := by
    by_cases hback : Further down b a
    · right
      intro hon
      exact Further.irrefl (hon.trans hback)
    · exact Or.inl hback

instance (down : Bool) : IsTrans Int (NotBehind down) where
  trans a b c hab hbc hca := by
    apply hbc
    rcases eq_or_further hab with rfl | hon
    · exact hca
    · exact hca.trans hon

/-- The elements of a list ahead of a position, each once and nearest first. -/
def inOrder (down : Bool) (current : Int) (l : List Int) : List Int :=
  ((l.filter fun t => decide (Ahead down current t)).dedup).insertionSort (NotBehind down)

theorem inOrder_enumerates (l : List Int) : Enumerates down (· ∈ l) c (inOrder down c l) := by
  unfold inOrder
  refine ⟨?_, fun t => ?_⟩
  · have hnodup := List.nodup_dedup (l.filter fun t => decide (Ahead down c t))
    rw [← (List.perm_insertionSort (NotBehind down) _).nodup_iff] at hnodup
    -- sorted and without repetition is strictly sorted
    refine ((List.pairwise_insertionSort (NotBehind down) _).and hnodup).imp ?_
    rintro a b ⟨hnot, hne⟩
    rcases eq_or_further hnot with hsame | hon
    · exact absurd hsame.symm hne
    · exact hon
  · rw [List.mem_insertionSort, List.mem_dedup, List.mem_filter, decide_eq_true_eq]

end Direction
