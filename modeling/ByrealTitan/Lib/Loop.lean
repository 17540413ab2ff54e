import ByrealTitan.Lib.Fault

/-!
# `Lib.Loop` — loops with early exits, on fuel

The body of a loop takes a state to the next one, or leaves with a value, or fails. `iterate` runs it
for as many turns as its fuel allows; running out is the fault `diverge`, so a theorem that excludes it
says that the loop ends.

- **Reachability.** `Reaches` relates the states of a run, with the number of turns between them; a
  result or a failure comes from a state reached within the fuel, and conversely (`iterate_eq_ok`,
  `iterate_eq_error`). What every turn keeps holds of all of them (`Reaches.inv`).
- **Termination.** A measure that every turn decreases bounds the fuel a loop needs (`iterate_total`).
- **Fuel.** More fuel, in the loop or inside its body, changes no result (`iterate_below`).
-/

/-- A computation that is not cut short by its fuel ends the same way in the other one. -/
def Res.Below {ε α : Type} (x y : Res ε α) : Prop := x ≠ .error .diverge → y = x

/-- A computation that does not end in this fault. -/
def Res.Avoids {ε α : Type} (fault : Fault ε) (x : Res ε α) : Prop := x ≠ .error fault

/-- A computation that does not run out of fuel. -/
abbrev Res.Ends {ε α : Type} (x : Res ε α) : Prop := x.Avoids .diverge

namespace Res

variable {ε α β : Type} {x y : Res ε α} {f g : α → Res ε β}

theorem Below.refl (x : Res ε α) : x.Below x := fun _ => rfl

theorem Below.bind (hx : x.Below y) (hf : ∀ a, (f a).Below (g a)) : (x >>= f).Below (y >>= g) := by
  intro h
  cases x with
  | ok a =>
      rw [hx nofun]
      exact hf a h
  | error e =>
      have he : e ≠ .diverge := by
        rintro rfl
        exact h rfl
      rw [hx fun hc => he (by cases hc; rfl)]
      rfl

theorem Below.of_ok (h : x.Below y) {a : α} (hx : x = .ok a) : y = .ok a := by
  subst hx
  exact h nofun

/-- Two fuels that both lead to a value lead to the same one. -/
theorem Below.agree {x : Nat → Res ε α} (hx : ∀ m n, m ≤ n → (x m).Below (x n)) {m n : Nat} {a b : α}
    (ha : x m = .ok a) (hb : x n = .ok b) : a = b := by
  have ha' := (hx m (max m n) (Nat.le_max_left m n)).of_ok ha
  have hb' := (hx n (max m n) (Nat.le_max_right m n)).of_ok hb
  exact Except.ok.inj (ha'.symm.trans hb')

variable {fault : Fault ε}

@[simp] theorem avoids_ok {a : α} : Avoids fault (.ok a : Res ε α) := nofun

theorem avoids_panic (h : fault ≠ .panic) : Avoids fault (panic : Res ε α) :=
  fun heq => h (Except.error.inj heq).symm

theorem Avoids.bind (hx : x.Avoids fault) (hf : ∀ a, x = .ok a → (f a).Avoids fault) :
    Avoids fault (x >>= f) := by
  cases x with
  | ok a => exact hf a rfl
  | error e => exact fun h => hx (by cases h; rfl)

theorem avoids_orPanic {o : Option α} (h : fault ≠ .panic) : Avoids fault (orPanic o : Res ε α) := by
  cases o with
  | none => exact avoids_panic h
  | some a => exact avoids_ok

end Res

namespace Loop

/-- What the body of a loop does next: go on from a state, or leave with a value. -/
inductive Turn (σ α : Type) where
  | next (s : σ)
  | leave (a : α)

variable {σ α ε : Type}

def iterate (turn : σ → Res ε (Turn σ α)) : (fuel : Nat) → σ → Res ε α
  | 0,        _ => .error .diverge
  | fuel + 1, s => do
      match ← turn s with
      | .next s'  => iterate turn fuel s'
      | .leave a => return a

variable {turn : σ → Res ε (Turn σ α)} {s s' : σ} {fuel : Nat}

/-! ## One turn -/

theorem iterate_next (h : turn s = .ok (.next s')) : iterate turn (fuel + 1) s = iterate turn fuel s' := by
  rw [iterate, h]
  rfl

theorem iterate_leave {a : α} (h : turn s = .ok (.leave a)) : iterate turn (fuel + 1) s = .ok a := by
  rw [iterate, h]
  rfl

theorem iterate_error {e : Fault ε} (h : turn s = .error e) : iterate turn (fuel + 1) s = .error e := by
  rw [iterate, h]
  rfl

/-! ## Reachability -/

/-- The states a loop passes through, and after how many turns. -/
inductive Reaches (turn : σ → Res ε (Turn σ α)) : Nat → σ → σ → Prop where
  | start (s : σ) : Reaches turn 0 s s
  | turn {n : Nat} {s s' s'' : σ} :
      Reaches turn n s s' → turn s' = .ok (.next s'') → Reaches turn (n + 1) s s''

variable {n : Nat}

theorem Reaches.head {s'' : σ} (hturn : turn s = .ok (.next s')) (h : Reaches turn n s' s'') :
    Reaches turn (n + 1) s s'' := by
  induction h with
  | start => exact .turn (.start s) hturn
  | turn _ hlast ih => exact .turn (ih hturn) hlast

/-- **What every turn keeps, a run keeps.** -/
theorem Reaches.inv {I : σ → Prop} (hstep : ∀ s s', I s → turn s = .ok (.next s') → I s')
    (h : Reaches turn n s s') (hs : I s) : I s' := by
  induction h with
  | start => exact hs
  | turn _ hlast ih => exact hstep _ _ (ih hs) hlast

theorem Reaches.iterate (h : Reaches turn n s s') : iterate turn (fuel + n) s = iterate turn fuel s' := by
  induction h generalizing fuel with
  | start => rfl
  | turn _ hlast ih =>
      rw [Nat.add_comm _ 1, ← Nat.add_assoc, ih, iterate_next hlast]

/-! ## Where a loop stops -/

/-- The state a loop stops in: the first one its body does not go on from. -/
def last (turn : σ → Res ε (Turn σ α)) : (fuel : Nat) → σ → σ
  | 0,        s => s
  | fuel + 1, s =>
      match turn s with
      | .ok (.next s') => last turn fuel s'
      | _              => s

/-- A loop that does not run out of fuel reaches the state it stops in, and what it comes to is decided
    there. -/
theorem exists_last (h : (iterate turn fuel s).Ends) :
    ∃ n, n < fuel ∧ Reaches turn n s (last turn fuel s) ∧
      ((∃ a, turn (last turn fuel s) = .ok (.leave a) ∧ iterate turn fuel s = .ok a) ∨
        ∃ e, turn (last turn fuel s) = .error e ∧ iterate turn fuel s = .error e) := by
  induction fuel generalizing s with
  | zero => exact absurd rfl h
  | succ fuel ih =>
      rw [last]
      cases hturn : turn s with
      | error e => exact ⟨0, Nat.succ_pos _, .start s, Or.inr ⟨e, hturn, iterate_error hturn⟩⟩
      | ok next =>
          cases next with
          | leave a => exact ⟨0, Nat.succ_pos _, .start s, Or.inl ⟨a, hturn, iterate_leave hturn⟩⟩
          | next s₁ =>
              rw [iterate_next hturn] at h ⊢
              obtain ⟨n, hn, hreach, hend⟩ := ih h
              exact ⟨n + 1, Nat.succ_lt_succ hn, hreach.head hturn, hend⟩

/-- The states in which the body of a loop runs, in order. -/
def states (turn : σ → Res ε (Turn σ α)) : (fuel : Nat) → σ → List σ
  | 0,        _ => []
  | fuel + 1, s =>
      match turn s with
      | .ok (.next s') => s :: states turn fuel s'
      | _              => [s]

theorem states_next (h : turn s = .ok (.next s')) :
    states turn (fuel + 1) s = s :: states turn fuel s' := by
  rw [states, h]

theorem states_leave {a : α} (h : turn s = .ok (.leave a)) : states turn (fuel + 1) s = [s] := by
  rw [states, h]

/-- **A result comes from a state the loop reached.** -/
theorem iterate_eq_ok {a : α} :
    iterate turn fuel s = .ok a ↔ ∃ n s', n < fuel ∧ Reaches turn n s s' ∧ turn s' = .ok (.leave a) := by
  constructor
  · intro h
    obtain ⟨n, hn, hreach, ⟨b, hleave, hb⟩ | ⟨e, -, he⟩⟩ := exists_last (by rw [h]; exact Res.avoids_ok)
    · obtain rfl : b = a := Except.ok.inj (hb.symm.trans h)
      exact ⟨n, _, hn, hreach, hleave⟩
    · exact absurd (he.symm.trans h) nofun
  · rintro ⟨n, s', hn, hreach, hleave⟩
    obtain ⟨k, rfl⟩ : ∃ k, fuel = k + 1 + n := ⟨fuel - n - 1, by omega⟩
    rw [hreach.iterate, iterate_leave hleave]

/-- **So does a failure**, unless the fuel ran out. -/
theorem iterate_eq_error {e : Fault ε} (hne : e ≠ .diverge) :
    iterate turn fuel s = .error e ↔ ∃ n s', n < fuel ∧ Reaches turn n s s' ∧ turn s' = .error e := by
  constructor
  · intro h
    obtain ⟨n, hn, hreach, ⟨b, -, hb⟩ | ⟨e', hfail, he⟩⟩ :=
      exists_last (by rw [h]; exact fun hc => hne (Except.error.inj hc))
    · exact absurd (hb.symm.trans h) nofun
    · obtain rfl : e' = e := Except.error.inj (he.symm.trans h)
      exact ⟨n, _, hn, hreach, hfail⟩
  · rintro ⟨n, s', hn, hreach, hfail⟩
    obtain ⟨k, rfl⟩ : ∃ k, fuel = k + 1 + n := ⟨fuel - n - 1, by omega⟩
    rw [hreach.iterate, iterate_error hfail]

/-- **A fault that no turn raises** is not the loop's either, unless it is the one of running out. -/
theorem iterate_avoids {fault : Fault ε} (hne : fault ≠ .diverge) {I : σ → Prop}
    (hstep : ∀ s s', I s → turn s = .ok (.next s') → I s') (havoids : ∀ s, I s → (turn s).Avoids fault)
    (hs : I s) :
    (iterate turn fuel s).Avoids fault := by
  intro h
  obtain ⟨n, s', -, hreach, hfail⟩ := (iterate_eq_error hne).mp h
  exact havoids s' (hreach.inv hstep hs) hfail

/-! ## Two loops -/

/-- **Two loops side by side**, from states that are related: as long as both go on they stay so, or what
    they come to is decided; and where the first one leaves it is decided as well. -/
theorem iterate_beside {τ β : Type} {turn' : τ → Res ε (Turn τ β)} {R : σ → τ → Prop} {Q : α → β → Prop}
    (hleave : ∀ s t a b fuel, R s t → turn s = .ok (.leave a) → iterate turn' fuel t = .ok b → Q a b)
    (hnext : ∀ s t s' r, R s t → turn s = .ok (.next s') → turn' t = .ok r →
      (∃ t', r = .next t' ∧ R s' t') ∨
        ∀ a b fuel fuel', iterate turn fuel s' = .ok a → iterate turn' fuel' t = .ok b → Q a b)
    {t : τ} {a : α} {b : β} {fuel' : Nat} (hR : R s t) (ha : iterate turn fuel s = .ok a)
    (hb : iterate turn' fuel' t = .ok b) : Q a b := by
  induction fuel generalizing s t fuel' with
  | zero => cases ha
  | succ fuel ih =>
      cases hturn : turn s with
      | error e =>
          rw [iterate_error hturn] at ha
          cases ha
      | ok next =>
          cases next with
          | leave a' =>
              rw [iterate_leave hturn] at ha
              cases ha
              exact hleave s t a b fuel' hR hturn hb
          | next s' =>
              rw [iterate_next hturn] at ha
              cases fuel' with
              | zero => cases hb
              | succ fuel' =>
                  cases hturn' : turn' t with
                  | error e =>
                      rw [iterate_error hturn'] at hb
                      cases hb
                  | ok r =>
                      rcases hnext s t s' r hR hturn hturn' with ⟨t', rfl, hR'⟩ | hdecided
                      · rw [iterate_next hturn'] at hb
                        exact ih hR' ha hb
                      · exact hdecided a b fuel (fuel' + 1) ha hb

/-! ## Termination -/

/-- **A measure that every turn decreases** bounds the turns a loop needs. -/
theorem iterate_total {I : σ → Prop} (μ : σ → Nat) (hends : ∀ s, I s → (turn s).Ends)
    (hstep : ∀ s s', I s → turn s = .ok (.next s') → I s' ∧ μ s' < μ s) (hs : I s) (hfuel : μ s < fuel) :
    (iterate turn fuel s).Ends := by
  induction fuel generalizing s with
  | zero => omega
  | succ fuel ih =>
      cases hturn : turn s with
      | error e =>
          rw [iterate_error hturn]
          intro h
          cases h
          exact hends s hs hturn
      | ok next =>
          cases next with
          | leave a =>
              rw [iterate_leave hturn]
              exact Res.avoids_ok
          | next s' =>
              rw [iterate_next hturn]
              obtain ⟨hs', hlt⟩ := hstep s s' hs hturn
              exact ih hs' (by omega)

/-- **Such a loop is orderly** where its turns are: neither their faults
    nor its own are anything but errors. -/
theorem iterate_orderly {I : σ → Prop} (μ : σ → Nat) (horderly : ∀ s, I s → (turn s).Orderly)
    (hstep : ∀ s s', I s → turn s = .ok (.next s') → I s' ∧ μ s' < μ s) (hs : I s) (hfuel : μ s < fuel) :
    (iterate turn fuel s).Orderly := by
  induction fuel generalizing s with
  | zero => omega
  | succ fuel ih =>
      rw [iterate]
      refine (horderly s hs).bind fun next hturn => ?_
      cases next with
      | leave a => exact Res.Raises.ok
      | next s' =>
          obtain ⟨hs', hlt⟩ := hstep s s' hs hturn
          exact ih hs' (by omega)

/-! ## More fuel -/

/-- **More fuel changes no result**, in the loop and inside its body. -/
theorem iterate_below {turn' : σ → Res ε (Turn σ α)} (hturn : ∀ s, (turn s).Below (turn' s))
    {fuel' : Nat} (hle : fuel ≤ fuel') : (iterate turn fuel s).Below (iterate turn' fuel' s) := by
  induction fuel generalizing s fuel' with
  | zero => exact fun h => absurd rfl h
  | succ fuel ih =>
      obtain ⟨fuel', rfl⟩ : ∃ n, fuel' = n + 1 := ⟨fuel' - 1, by omega⟩
      rw [iterate, iterate]
      refine (hturn s).bind fun next => ?_
      cases next with
      | next s' => exact ih (by omega)
      | leave a => exact Res.Below.refl _

end Loop
