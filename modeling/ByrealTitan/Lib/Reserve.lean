import Mathlib.Algebra.Order.Ring.Int
import Mathlib.Logic.Function.Basic
import Mathlib.Data.Set.Defs

/-!
# `Lib.Reserve` — balances with a reserved floor

A pool of accounts, each with a part of its balance that must survive whatever is done with the rest.
`Covered T r bal` says that every account of `T` still holds its reserve. What keeps it is a spending
discipline: a step may take from one account at most what lies above its reserve, and nothing from the
others (`Covered.spend`). A transfer is such a step, whether all of it arrives (`Moves`) or a fee is
kept on the way (`Debits`), and a weighted share of the free balance never exceeds it (`share_le`).
-/

namespace Reserve

variable {κ : Type*} {T : Set κ} {r bal bal' bal'' : κ → Nat} {k₀ : κ} {n : Nat}

/-- Every account of `T` holds at least its reserve. -/
def Covered (T : Set κ) (r bal : κ → Nat) : Prop := ∀ k ∈ T, r k ≤ bal k

/-- No account of `T` lost anything. -/
def NoLoss (T : Set κ) (bal bal' : κ → Nat) : Prop := ∀ k ∈ T, bal k ≤ bal' k

/-- Account `k₀` lost at most `n`, and no other account of `T` lost anything. -/
def SpendsAtMost (T : Set κ) (k₀ : κ) (n : Nat) (bal bal' : κ → Nat) : Prop :=
  ∀ k ∈ T, bal k ≤ bal' k + n ∧ (k ≠ k₀ → bal k ≤ bal' k)

/-- Exactly `n` left `source`, and no more than that arrived at `dest`; to itself, nothing moves. -/
structure Debits (source dest : κ) (n : Nat) (bal bal' : κ → Nat) : Prop where
  enough : n ≤ bal source
  source_eq : source ≠ dest → bal' source = bal source - n
  dest_bounds : source ≠ dest → bal dest ≤ bal' dest ∧ bal' dest ≤ bal dest + n
  self_eq : source = dest → bal' source = bal source
  frame : ∀ k, k ≠ source → k ≠ dest → bal' k = bal k

/-- Exactly `n` went from `source` to `dest`; to itself, nothing moves. -/
structure Moves (source dest : κ) (n : Nat) (bal bal' : κ → Nat) : Prop where
  enough : n ≤ bal source
  source_eq : source ≠ dest → bal' source = bal source - n
  dest_eq : source ≠ dest → bal' dest = bal dest + n
  self_eq : source = dest → bal' source = bal source
  frame : ∀ k, k ≠ source → k ≠ dest → bal' k = bal k

/-! ## Steps that lose nothing -/

theorem Covered.refl : Covered T bal bal := fun _ _ => Nat.le_refl _

theorem NoLoss.of_forall (h : ∀ k, bal k ≤ bal' k) : NoLoss T bal bal' := fun k _ => h k

theorem Covered.noLoss (hc : Covered T r bal) (h : NoLoss T bal bal') : Covered T r bal' :=
  fun k hk => Nat.le_trans (hc k hk) (h k hk)

/-- Spending from an account outside `T` loses nothing in `T`. -/
theorem SpendsAtMost.noLoss (h : SpendsAtMost T k₀ n bal bal') (hk₀ : k₀ ∉ T) : NoLoss T bal bal' := by
  intro k hk
  have hne : k ≠ k₀ := by
    rintro rfl
    exact hk₀ hk
  exact (h k hk).2 hne

/-- What follows a spending without loss spends no more. -/
theorem SpendsAtMost.trans_noLoss (h : SpendsAtMost T k₀ n bal bal') (h' : NoLoss T bal' bal'') :
    SpendsAtMost T k₀ n bal bal'' := by
  intro k hk
  obtain ⟨hle, hother⟩ := h k hk
  exact ⟨Nat.le_trans hle (Nat.add_le_add_right (h' k hk) n),
    fun hne => Nat.le_trans (hother hne) (h' k hk)⟩

/-! ## Spending above the reserve -/

/-- **The discipline keeps every reserve**: what is spent from `k₀` lies above its reserve. -/
theorem Covered.spend (hc : Covered T r bal) (h : SpendsAtMost T k₀ n bal bal')
    (hn : n ≤ bal k₀ - r k₀) : Covered T r bal' := by
  intro k hk
  obtain ⟨hle, hother⟩ := h k hk
  have hr := hc k hk
  by_cases hk₀ : k = k₀
  · subst hk₀
    omega
  · exact Nat.le_trans hr (hother hk₀)

theorem Moves.zero (k₀ k₁ : κ) (bal : κ → Nat) : Moves k₀ k₁ 0 bal bal where
  enough := Nat.zero_le _
  source_eq _ := rfl
  dest_eq _ := rfl
  self_eq _ := rfl
  frame _ _ _ := rfl

/-- What moves exactly is debited exactly. -/
theorem Moves.debits (h : Moves k₀ k₁ n bal bal') : Debits k₀ k₁ n bal bal' where
  enough := h.enough
  source_eq := h.source_eq
  dest_bounds hne := by
    have := h.dest_eq hne
    omega
  self_eq := h.self_eq
  frame := h.frame

theorem Debits.spendsAtMost (h : Debits k₀ k₁ n bal bal') : SpendsAtMost T k₀ n bal bal' := by
  intro k _
  by_cases hs : k = k₀
  · subst hs
    refine ⟨?_, fun hne => absurd rfl hne⟩
    by_cases hself : k = k₁
    · have := h.self_eq hself
      omega
    · have := h.source_eq hself
      omega
  · by_cases hd : k = k₁
    · subst hd
      have := (h.dest_bounds (Ne.symm hs)).1
      exact ⟨by omega, fun _ => this⟩
    · have := h.frame k hs hd
      exact ⟨by omega, fun _ => by omega⟩

/-- A transfer takes nothing from any account but its source. -/
theorem Debits.le_of_ne (h : Debits k₀ k₁ n bal bal') {k : κ} (hk : k ≠ k₀) : bal k ≤ bal' k :=
  (h.spendsAtMost (T := Set.univ) k trivial).2 hk

/-- A transfer to itself loses nothing. -/
theorem Debits.noLoss_self (h : Debits k₀ k₀ n bal bal') : NoLoss T bal bal' := by
  intro k _
  by_cases hk : k = k₀
  · subst hk
    exact Nat.le_of_eq (h.self_eq rfl).symm
  · exact Nat.le_of_eq (h.frame k hk hk).symm

/-! ## Weighted shares -/

variable {a w d : Nat} {ws : List Nat}

/-- A weight of at most `d` parts in `d` never takes more than the whole. -/
theorem share_le (hw : w ≤ d) : a * w / d ≤ a :=
  Nat.div_le_of_le_mul (by rw [Nat.mul_comm d a]; exact Nat.mul_le_mul_left a hw)

/-- A proper fraction, rounded down, leaves something of what there was. -/
theorem share_eq_iff (hd : 0 < d) (hw : w ≤ d) : a * w / d = a ↔ a = 0 ∨ w = d := by
  constructor
  · intro h
    by_contra hno
    rw [not_or] at hno
    have hlt : a * w < a * d := Nat.mul_lt_mul_of_pos_left (by omega) (by omega)
    have hshare : a * w / d < a := (Nat.div_lt_iff_lt_mul hd).mpr hlt
    omega
  · rintro (rfl | rfl)
    · rw [Nat.zero_mul, Nat.zero_div]
    · exact Nat.mul_div_cancel a hd

/-- What weights of `d` parts take of `a`, one after the other: each
    its share of what those before left. -/
def shares (d : Nat) : Nat → List Nat → List Nat
  | _, []      => []
  | a, w :: ws => a * w / d :: shares d (a - a * w / d) ws

theorem sum_shares_le (hws : ∀ w ∈ ws, w ≤ d) : (shares d a ws).sum ≤ a := by
  induction ws generalizing a with
  | nil => exact Nat.zero_le a
  | cons w ws ih =>
      have hrest := @ih (a - a * w / d) fun w' hw' => hws w' (List.mem_cons_of_mem _ hw')
      have hshare : a * w / d ≤ a := share_le (hws w List.mem_cons_self)
      rw [shares, List.sum_cons]
      omega

/-- **All of it is taken** exactly if there was nothing, or some weight asks for everything. -/
theorem sum_shares_eq_iff (hd : 0 < d) (hws : ∀ w ∈ ws, w ≤ d) :
    (shares d a ws).sum = a ↔ a = 0 ∨ d ∈ ws := by
  induction ws generalizing a with
  | nil => simp [shares, eq_comm]
  | cons w ws ih =>
      have hw := hws w List.mem_cons_self
      have hshare : a * w / d ≤ a := share_le hw
      have hrest := @ih (a - a * w / d) fun w' hw' => hws w' (List.mem_cons_of_mem _ hw')
      have hstep : (shares d a (w :: ws)).sum = a ↔ (shares d (a - a * w / d) ws).sum = a - a * w / d := by
        rw [shares, List.sum_cons]
        omega
      have hzero : a - a * w / d = 0 ↔ a = 0 ∨ w = d := by
        rw [← share_eq_iff hd hw]
        omega
      rw [hstep, hrest, hzero, List.mem_cons, or_assoc, eq_comm (a := w)]

end Reserve
