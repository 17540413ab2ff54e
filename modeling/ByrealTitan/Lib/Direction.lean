import Mathlib.Order.Bounds.Basic

/-!
# `Lib.Direction` — walking a set of integers one way

A walk goes down or up. On the way down the position itself may be found next, on the way up only what
lies above it, so that `past` moves on from an element in either direction: `Ahead down (past down t)`
is what lies strictly further than `t`. `Nearest` is the next element of a set.
-/

namespace Direction

/-- `b` is strictly further on the way than `a`. -/
def Further (down : Bool) (a b : Int) : Prop := if down then b < a else a < b

/-- A search from `current` may find `t`: on the way down `current`
    itself counts, on the way up it does not. -/
def Ahead (down : Bool) (current t : Int) : Prop := if down then t ≤ current else current < t

/-- The position behind which an element lies once it was found. -/
def past (down : Bool) (t : Int) : Int := if down then t - 1 else t

@[simp] theorem further_down {a b : Int} : Further true a b ↔ b < a := Iff.rfl

@[simp] theorem further_up {a b : Int} : Further false a b ↔ a < b := by simp [Further]

@[simp] theorem ahead_down {current t : Int} : Ahead true current t ↔ t ≤ current := Iff.rfl

@[simp] theorem ahead_up {current t : Int} : Ahead false current t ↔ current < t := by simp [Ahead]

@[simp] theorem past_down (t : Int) : past true t = t - 1 := rfl

@[simp] theorem past_up (t : Int) : past false t = t := rfl

variable {down : Bool} {a b c t u : Int}

theorem Further.trans (hab : Further down a b) (hbc : Further down b c) : Further down a c := by
  cases down with
  | true =>
      rw [further_down] at hab hbc ⊢
      omega
  | false =>
      rw [further_up] at hab hbc ⊢
      omega

theorem Further.irrefl : ¬ Further down a a := by
  cases down with
  | true => simp
  | false => simp

/-- **Moving on from an element leaves exactly what lies further ahead.** -/
theorem ahead_past : Ahead down (past down t) u ↔ Further down t u := by
  cases down with
  | true =>
      rw [ahead_down, past_down, further_down]
      omega
  | false => rw [ahead_up, past_up, further_up]

theorem Ahead.of_further (ht : Ahead down c t) (hu : Further down t u) : Ahead down c u := by
  cases down with
  | true =>
      rw [ahead_down] at ht ⊢
      rw [further_down] at hu
      omega
  | false =>
      rw [ahead_up] at ht ⊢
      rw [further_up] at hu
      omega

/-- Two elements are the same, or one lies further on. -/
theorem further_or (t u : Int) : Further down t u ∨ t = u ∨ Further down u t := by
  cases down with
  | true =>
      rw [further_down, further_down]
      omega
  | false =>
      rw [further_up, further_up]
      omega

/-- What is not before an element is the element itself or further on. -/
theorem eq_or_further (h : ¬ Further down u t) : u = t ∨ Further down t u := by
  rcases @further_or down t u with hon | hsame | hback
  · exact Or.inr hon
  · exact Or.inl hsame.symm
  · exact absurd hback h

theorem Further.ahead (h : Further down t u) : Ahead down t u := by
  cases down with
  | true => exact Int.le_of_lt h
  | false => exact h

/-- What is further on than a position that is not behind is further on. -/
theorem Further.of_not_behind (hb : ¬ Further down b a) (h : Further down b c) : Further down a c := by
  rcases eq_or_further hb with rfl | hon
  · exact h
  · exact hon.trans h

/-! ## The next element of a set -/

/-- `t` is the first element of `S` ahead of `current`. -/
structure Nearest (down : Bool) (S : Int → Prop) (current t : Int) : Prop where
  mem : S t
  ahead : Ahead down current t
  first : ∀ u, S u → Ahead down current u → ¬ Further down u t

theorem Nearest.unique {S : Int → Prop} (ht : Nearest down S c t) (hu : Nearest down S c u) : t = u := by
  rcases eq_or_further (ht.first u hu.mem hu.ahead) with hsame | hon
  · exact hsame.symm
  · exact absurd hon (hu.first t ht.mem ht.ahead)

/-- What a search for the first element of `S` ahead of `current` comes to. -/
def Found (down : Bool) (S : Int → Prop) (current : Int) : Option Int → Prop
  | some t => Nearest down S current t
  | none   => ∀ u, S u → ¬ Ahead down current u

variable {S : Int → Prop} {r : Option Int}

/-- The element of a set that a walk in this direction meets first, if the set has any. -/
def First (down : Bool) (S : Set Int) : Option Int → Prop
  | some t => if down then IsGreatest S t else IsLeast S t
  | none   => S = ∅

/-- **What a search finds is the first of the elements ahead.** -/
theorem Found.isFirst (h : Found down S c r) : First down {u | S u ∧ Ahead down c u} r := by
  cases r with
  | none => exact Set.eq_empty_of_forall_notMem fun u hu => h u hu.1 hu.2
  | some t =>
      cases down with
      | true =>
          refine ⟨⟨h.mem, h.ahead⟩, fun u hu => ?_⟩
          exact Int.not_lt.mp (h.first u hu.1 hu.2)
      | false =>
          refine ⟨⟨h.mem, h.ahead⟩, fun u hu => ?_⟩
          have hnot := h.first u hu.1 hu.2
          rw [further_up] at hnot
          exact Int.not_lt.mp hnot

/-- A position that holds no element can be passed. -/
theorem Found.skip (hskip : ∀ u, S u → Ahead down c u → Ahead down a u)
    (hback : ∀ u, Ahead down a u → Ahead down c u)
    (h : Found down S a r) : Found down S c r := by
  cases r with
  | some t => exact ⟨h.mem, hback t h.ahead, fun u hu hahead => h.first u hu (hskip u hu hahead)⟩
  | none =>
      intro u hu hahead
      exact h u hu (hskip u hu hahead)

/-- A search is carried along a map that keeps directions. -/
theorem Found.map {f : Int → Int} (hfar : ∀ u w, Further down (f u) (f w) → Further down u w)
    (hahead : ∀ u, S u → (Ahead down a (f u) ↔ Ahead down c u)) (h : Found down S c r) :
    Found down (fun t => ∃ u, S u ∧ f u = t) a (r.map f) := by
  cases r with
  | some t =>
      refine ⟨⟨t, h.mem, rfl⟩, (hahead t h.mem).mpr h.ahead, ?_⟩
      rintro _ ⟨u, hu, rfl⟩ hu' hfurther
      exact h.first u hu ((hahead u hu).mp hu') (hfar u t hfurther)
  | none =>
      rintro _ ⟨u, hu, rfl⟩ hu'
      exact h u hu ((hahead u hu).mp hu')

end Direction
