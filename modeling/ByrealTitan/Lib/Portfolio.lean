import ByrealTitan.Lib.Reserve
import Mathlib.Order.Monotone.Basic

/-!
# `Lib.Portfolio` — holdings traded by weighted orders

A portfolio holds an amount of every asset. A trade spends a weight of what is held of one asset,
rounded down, and adds what that buys to another; `run` fills a list of trades in order. Three facts
carry what is said of a run: every asset ends with what it had and received less what it spent
(`run_balance`), an asset whose last trade takes all of it ends empty (`run_drained`), and where every
market buys more for more, a larger portfolio stays larger (`run_mono`).
-/

namespace Portfolio

open Reserve

variable {κ : Type*} [DecidableEq κ] {d : Nat} {h h' : κ → Nat} {k : κ}

/-- Spend `weight` parts in `d` of what `source` holds; `buys` is what
    the market of `dest` gives for it. -/
structure Trade (κ : Type*) where
  source : κ
  dest : κ
  weight : Nat
  buys : Nat → Nat

variable {t : Trade κ} {ts : List (Trade κ)}

def Trade.spends (d : Nat) (t : Trade κ) (h : κ → Nat) : Nat := h t.source * t.weight / d

/-- The holdings after one trade. -/
def fill (d : Nat) (h : κ → Nat) (t : Trade κ) : κ → Nat := fun k =>
  (if k = t.source then h k - t.spends d h else h k) + if k = t.dest then t.buys (t.spends d h) else 0

/-- The holdings after all of them. -/
def run (d : Nat) (h : κ → Nat) (ts : List (Trade κ)) : κ → Nat := ts.foldl (fill d) h

@[simp] theorem run_nil : run d h [] = h := rfl

@[simp] theorem run_cons : run d h (t :: ts) = run d (fill d h t) ts := rfl

theorem run_append {ts' : List (Trade κ)} :
    run d h (ts ++ ts') = run d (run d h ts) ts' := List.foldl_append

/-- No trade asks for more than everything. -/
def Bounded (d : Nat) (ts : List (Trade κ)) : Prop := ∀ t ∈ ts, t.weight ≤ d

omit [DecidableEq κ] in
theorem Trade.spends_le (hw : t.weight ≤ d) : t.spends d h ≤ h t.source := share_le hw

/-! ## What an asset received and spent -/

/-- What the trades of a run spend of `k`. -/
def spentOf (d : Nat) (k : κ) : (κ → Nat) → List (Trade κ) → Nat
  | _, []      => 0
  | h, t :: ts => (if k = t.source then t.spends d h else 0) + spentOf d k (fill d h t) ts

/-- What the trades of a run bring to `k`. -/
def receivedOf (d : Nat) (k : κ) : (κ → Nat) → List (Trade κ) → Nat
  | _, []      => 0
  | h, t :: ts => (if k = t.dest then t.buys (t.spends d h) else 0) + receivedOf d k (fill d h t) ts

/-- **Each asset's book balances.** -/
theorem run_balance (hw : Bounded d ts) : run d h ts k + spentOf d k h ts = h k + receivedOf d k h ts := by
  induction ts generalizing h with
  | nil => rfl
  | cons t ts ih =>
      have hrest := ih (h := fill d h t) fun t' ht' => hw t' (List.mem_cons_of_mem _ ht')
      have hle : t.spends d h ≤ h t.source := Trade.spends_le (hw t List.mem_cons_self)
      rw [run_cons, spentOf, receivedOf]
      have hfill : fill d h t k + (if k = t.source then t.spends d h else 0) =
          h k + if k = t.dest then t.buys (t.spends d h) else 0 := by
        unfold fill
        by_cases hk : k = t.source
        · subst hk
          simp only [if_true]
          omega
        · simp only [if_neg hk, Nat.add_zero]
      omega

/-! ## Assets that end empty -/

/-- Nothing is brought to an asset that no trade pays into. -/
theorem run_zero (hdest : ∀ t ∈ ts, t.dest ≠ k) (hk : h k = 0) : run d h ts k = 0 := by
  induction ts generalizing h with
  | nil => exact hk
  | cons t ts ih =>
      refine ih (fun t' ht' => hdest t' (List.mem_cons_of_mem _ ht')) ?_
      have hne : k ≠ t.dest := Ne.symm (hdest t List.mem_cons_self)
      simp [fill, hk, hne]

/-- Some trade takes all of `k` to another asset, and none brings any of it back. -/
def Drained (d : Nat) (ts : List (Trade κ)) (k : κ) : Prop :=
  ∃ pre t post, ts = pre ++ t :: post ∧ t.source = k ∧ t.weight = d ∧ t.dest ≠ k ∧ ∀ t' ∈ post, t'.dest ≠ k

/-- **A drained asset ends empty**, whatever the markets gave. -/
theorem run_drained (hd : 0 < d) (hk : Drained d ts k) : run d h ts k = 0 := by
  obtain ⟨pre, t, post, rfl, rfl, hweight, hne, hpost⟩ := hk
  rw [run_append, run_cons]
  refine run_zero hpost ?_
  have hall : t.spends d (run d h pre) = run d h pre t.source :=
    (share_eq_iff hd (Nat.le_of_eq hweight)).mpr (Or.inr hweight)
  simp [fill, hall, Ne.symm hne]

/-! ## Larger portfolios -/

/-- A larger balance leaves more behind, too. -/
theorem rest_mono {a b w : Nat} (hab : a ≤ b) (hw : w ≤ d) : a - a * w / d ≤ b - b * w / d := by
  obtain ⟨c, rfl⟩ := Nat.exists_eq_add_of_le hab
  rcases Nat.eq_zero_or_pos d with rfl | hd
  · simp only [Nat.div_zero, Nat.sub_zero]
    exact hab
  · have hshare : (a + c) * w / d ≤ a * w / d + c := by
      calc (a + c) * w / d
          ≤ (a * w + c * d) / d := Nat.div_le_div_right (by
            rw [Nat.add_mul]
            exact Nat.add_le_add_left (Nat.mul_le_mul_left c hw) _)
        _ = a * w / d + c := Nat.add_mul_div_right _ _ hd
    omega

/-- One trade: more is spent, more is left and more is bought. -/
theorem fill_mono (hw : t.weight ≤ d) (hbuys : Monotone t.buys) (hle : ∀ k, h k ≤ h' k) (k : κ) :
    fill d h t k ≤ fill d h' t k := by
  have hspends : t.spends d h ≤ t.spends d h' :=
    Nat.div_le_div_right (Nat.mul_le_mul_right _ (hle t.source))
  refine Nat.add_le_add ?_ ?_
  · by_cases hk : k = t.source
    · subst hk
      simp only [if_true]
      exact rest_mono (hle t.source) hw
    · simp only [if_neg hk]
      exact hle k
  · by_cases hk : k = t.dest
    · simp only [if_pos hk]
      exact hbuys hspends
    · simp only [if_neg hk, Nat.le_refl]

/-- **A larger portfolio stays larger** in markets that give more for more. -/
theorem run_mono (hw : Bounded d ts) (hbuys : ∀ t ∈ ts, Monotone t.buys) (hle : ∀ k, h k ≤ h' k) (k : κ) :
    run d h ts k ≤ run d h' ts k := by
  induction ts generalizing h h' with
  | nil => exact hle k
  | cons t ts ih =>
      have hfirst := fill_mono (hw t List.mem_cons_self) (hbuys t List.mem_cons_self) hle
      exact ih (fun t' ht' => hw t' (List.mem_cons_of_mem _ ht'))
        (fun t' ht' => hbuys t' (List.mem_cons_of_mem _ ht')) hfirst

end Portfolio
