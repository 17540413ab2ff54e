import Mathlib.Data.List.Chain

/-!
# `Lib.Trail` — lists that dwell and go on

A trail along a relation stays where it is or goes on to what follows, from one element to the next.
Trails that meet are composed (`Trail.append`). Where the relation only goes forward in some strict
order, a trail without its repetitions is a chain of the relation (`Trail.eraseDups`).
-/

/-- A list that starts at `a` and ends at `b`: each element is the one before it again, or follows it. -/
inductive Trail {α : Type} (R : α → α → Prop) (a : α) : List α → α → Prop where
  | start : Trail R a [a] a
  | stay {l : List α} {b : α} : Trail R a l b → Trail R a (l ++ [b]) b
  | go {l : List α} {b c : α} : Trail R a l b → R b c → Trail R a (l ++ [c]) c

namespace Trail

variable {α : Type} {R : α → α → Prop} {a b c d : α} {l l' : List α}

/-- **A trail goes on where another one starts**, at the same place or behind it. -/
theorem append (h : Trail R a l b) (h' : Trail R c l' d) (hbc : b = c ∨ R b c) :
    Trail R a (l ++ l') d := by
  induction h' with
  | start =>
      rcases hbc with rfl | hbc
      · exact h.stay
      · exact h.go hbc
  | stay _ ih =>
      rw [← List.append_assoc]
      exact ih.stay
  | go _ hfollows ih =>
      rw [← List.append_assoc]
      exact ih.go hfollows

theorem head_mem (h : Trail R a l b) : a ∈ l := by
  induction h with
  | start     => exact List.mem_singleton_self a
  | stay _ ih => exact List.mem_append_left _ ih
  | go _ _ ih => exact List.mem_append_left _ ih

theorem last_mem (h : Trail R a l b) : b ∈ l := by
  cases h with
  | start  => exact List.mem_singleton_self _
  | stay _ => exact List.mem_append_right _ (List.mem_singleton_self _)
  | go _ _ => exact List.mem_append_right _ (List.mem_singleton_self _)

/-! ## Trails that go forward -/

variable {lt : α → α → Prop}

/-- What came before the end lies behind it. -/
theorem behind (hlt : ∀ a b, R a b → lt a b) (htrans : ∀ a b c, lt a b → lt b c → lt a c)
    (h : Trail R a l b) :
    ∀ x ∈ l, x = b ∨ lt x b := by
  induction h with
  | start =>
      intro x hx
      exact Or.inl (List.mem_singleton.mp hx)
  | stay _ ih =>
      intro x hx
      rcases List.mem_append.mp hx with hx | hx
      · exact ih x hx
      · exact Or.inl (List.mem_singleton.mp hx)
  | go _ hfollows ih =>
      intro x hx
      rcases List.mem_append.mp hx with hx | hx
      · rcases ih x hx with rfl | hxb
        · exact Or.inr (hlt _ _ hfollows)
        · exact Or.inr (htrans _ _ _ hxb (hlt _ _ hfollows))
      · exact Or.inl (List.mem_singleton.mp hx)

variable [DecidableEq α]

theorem eraseDups_concat_of_mem (hmem : a ∈ l) : (l ++ [a]).eraseDups = l.eraseDups := by
  rw [List.eraseDups_append]
  simp [List.removeAll, hmem]

theorem eraseDups_concat_of_not_mem (hmem : a ∉ l) : (l ++ [a]).eraseDups = l.eraseDups ++ [a] := by
  rw [List.eraseDups_append]
  simp [List.removeAll, hmem, List.eraseDups_cons]

/-- **Without its repetitions a trail is a chain**, where the relation goes forward in a strict order. -/
theorem eraseDups (hlt : ∀ a b, R a b → lt a b) (hirrefl : ∀ a, ¬ lt a a)
    (htrans : ∀ a b c, lt a b → lt b c → lt a c) (h : Trail R a l b) :
    l.eraseDups.head? = some a ∧ l.eraseDups.getLast? = some b ∧ l.eraseDups.IsChain R ∧
    l.eraseDups.Pairwise lt := by
  induction h with
  | start =>
      rw [show [a].eraseDups = [a] by simp [List.eraseDups_cons]]
      exact ⟨rfl, rfl, .singleton a, List.pairwise_singleton _ _⟩
  | stay htrail ih =>
      rw [eraseDups_concat_of_mem htrail.last_mem]
      exact ih
  | @go l b c htrail hfollows ih =>
      obtain ⟨hhead, hlast, hchain, hpairs⟩ := ih
      have hlater : ∀ x ∈ l, lt x c := by
        intro x hx
        rcases htrail.behind hlt htrans x hx with rfl | hxb
        · exact hlt _ _ hfollows
        · exact htrans _ _ _ hxb (hlt _ _ hfollows)
      rw [eraseDups_concat_of_not_mem fun hmem => hirrefl c (hlater c hmem)]
      refine ⟨?_, ?_, ?_, ?_⟩
      · rw [List.head?_append, hhead]
        rfl
      · rw [List.getLast?_append]
        rfl
      · rw [List.isChain_append]
        refine ⟨hchain, .singleton c, ?_⟩
        intro x hx y hy
        rw [hlast] at hx
        rw [← Option.some.inj hx, ← Option.some.inj hy]
        exact hfollows
      · rw [List.pairwise_append]
        refine ⟨hpairs, List.pairwise_singleton _ _, ?_⟩
        intro x hx y hy
        rw [List.mem_singleton.mp hy]
        exact hlater x (List.mem_eraseDups.mp hx)

end Trail
