import ByrealTitan.Lib.Fault

/-!
# `Lib.Bisect` — bisection of an interval by an oracle

`bisect` halves an interval until it is no wider than `width`, asking an oracle about each midpoint: a
`true` moves the upper end there, a `false` the lower one. The oracle is arbitrary (it need not be
monotone, and it may fail): a search that ends has kept whatever its answers say of the two ends
(`bisect_ok`), and one whose oracle always answers ends after logarithmically many turns
(`bisect_total`).
-/

namespace Bisect

variable {ε : Type} (ask : Nat → Res ε Bool) (width : Nat)

/-- The middle of two words, without overflow: both halves are rounded down. -/
def middle (low high : Nat) : Nat := high / 2 + low / 2

def bisect : (fuel : Nat) → (low high : Nat) → Res ε (Nat × Nat)
  | 0,        _,   _    => .error .diverge
  | fuel + 1, low, high => do
      let gap ← Res.checkedSub high low
      if width < gap then
        let upper ← ask (middle low high)
        if upper then bisect fuel low (middle low high)
        else bisect fuel (middle low high) high
      else return (low, high)

variable {ask width}

/-- The middle of a gap wider than three lies strictly inside, and halves it up to one. -/
theorem middle_inside (low high : Nat) (h : 3 ≤ high - low) :
    low < middle low high ∧ middle low high < high ∧
      middle low high - low ≤ (high - low) / 2 + 1 ∧ high - middle low high ≤ (high - low) / 2 + 1 := by
  unfold middle
  omega

variable {low high l h : Nat}

/-- One turn on a gap that is still too wide. -/
theorem bisect_wide {fuel : Nat} (hle : low ≤ high) (hgap : width < high - low) :
    bisect ask width (fuel + 1) low high = (do
      let upper ← ask (middle low high)
      if upper then bisect ask width fuel low (middle low high)
      else bisect ask width fuel (middle low high) high) := by
  rw [bisect]
  simp only [Res.checkedSub, if_pos hle, Except.ok_bind, if_pos hgap]

/-- The last turn. -/
theorem bisect_narrow {fuel : Nat} (hle : low ≤ high) (hgap : ¬ width < high - low) :
    bisect ask width (fuel + 1) low high = .ok (low, high) := by
  rw [bisect]
  simp only [Res.checkedSub, if_pos hle, Except.ok_bind, if_neg hgap]
  rfl

/-- **What the answers say of the ends is kept**, and the ends stay in order. -/
theorem bisect_ok {A B : Nat → Prop} (hwidth : 3 ≤ width) (hA : ∀ m, ask m = .ok false → A m)
    (hB : ∀ m, ask m = .ok true → B m) {fuel : Nat} (hle : low ≤ high) (ha : A low) (hb : B high)
    (hrun : bisect ask width fuel low high = .ok (l, h)) :
    A l ∧ B h ∧ low ≤ l ∧ h ≤ high ∧ l ≤ h ∧ (low < high → l < h) ∧ h - l ≤ width := by
  induction fuel generalizing low high with
  | zero => cases hrun
  | succ fuel ih =>
      by_cases hgap : width < high - low
      · rw [bisect_wide hle hgap, Except.bind_eq_ok] at hrun
        obtain ⟨upper, hask, hrun⟩ := hrun
        obtain ⟨hlow, hhigh, -, -⟩ := middle_inside low high (by omega)
        cases upper with
        | true =>
            obtain ⟨ha', hb', h₁, h₂, h₃, h₄, h₅⟩ := ih (Nat.le_of_lt hlow) ha (hB _ hask) hrun
            exact ⟨ha', hb', h₁, by omega, h₃, fun _ => h₄ hlow, h₅⟩
        | false =>
            obtain ⟨ha', hb', h₁, h₂, h₃, h₄, h₅⟩ := ih (Nat.le_of_lt hhigh) (hA _ hask) hb hrun
            exact ⟨ha', hb', by omega, h₂, h₃, fun _ => h₄ hhigh, h₅⟩
      · rw [bisect_narrow hle hgap] at hrun
        cases hrun
        exact ⟨ha, hb, Nat.le_refl _, Nat.le_refl _, hle, id, by omega⟩

/-- **A search whose oracle always answers ends**, within a turn more than the binary length of the gap. -/
theorem bisect_total (hwidth : 3 ≤ width) (htotal : ∀ m, ∃ b, ask m = .ok b) {n : Nat} (hle : low ≤ high)
    (hgap : high - low ≤ 2 ^ n + 2) : ∃ ends, bisect ask width (n + 1) low high = .ok ends := by
  induction n generalizing low high with
  | zero => exact ⟨_, bisect_narrow hle (by rw [Nat.pow_zero] at hgap; omega)⟩
  | succ n ih =>
      by_cases hwide : width < high - low
      · obtain ⟨b, hask⟩ := htotal (middle low high)
        obtain ⟨hlow, hhigh, hleft, hright⟩ := middle_inside low high (by omega)
        rw [Nat.pow_succ] at hgap
        rw [bisect_wide hle hwide, hask, Except.ok_bind]
        cases b with
        | true  => exact ih (Nat.le_of_lt hlow) (by omega)
        | false => exact ih (Nat.le_of_lt hhigh) (by omega)
      · exact ⟨_, bisect_narrow hle hwide⟩

end Bisect
