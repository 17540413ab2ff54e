import Mathlib.Data.List.Forall2

/-!
# `Lib.Interleaving` — processes that take turns on one memory

Any number of processes share a memory. One event starts a process or lets one take a turn; a turn may
read the memory and an input from outside, and leaves the memory and the process as it makes them.
Between two turns of a process the others may take any number of theirs.

Two rules carry what one turn does to a whole run, whatever the interleaving. What a process keeps of
its start by its own turns holds of every process (`run_kept`). And where a turn makes known nothing but
what was known before or has just come from outside, everything that is known came from outside
(`run_known`).
-/

namespace Interleaving

variable {μ π ρ φ : Type}

structure Pool (μ π : Type) where
  memory : μ
  procs : List π

inductive Event (π ρ : Type) where
  | start (p : π)
  | turn (i : Nat) (input : ρ)

variable (turn : μ → ρ → π → Option (μ × π))

/-- One event; `none` where the process cannot take a turn. -/
def step (s : Pool μ π) : Event π ρ → Option (Pool μ π)
  | .start p      => some ⟨s.memory, s.procs ++ [p]⟩
  | .turn i input => do
      let p ← s.procs[i]?
      let (memory, p) ← turn s.memory input p
      return ⟨memory, s.procs.set i p⟩

def run : List (Event π ρ) → Pool μ π → Option (Pool μ π)
  | [],      s => some s
  | e :: es, s => (step turn s e).bind (run es)

/-- The event meets the condition on what a process is given. -/
def Meets (C : ρ → π → Prop) (s : Pool μ π) : Event π ρ → Prop
  | .start _      => True
  | .turn i input => ∀ p ∈ s.procs[i]?, C input p

/-- Every event of the run meets the condition. -/
def Along (C : ρ → π → Prop) : List (Event π ρ) → Pool μ π → Prop
  | [],      _ => True
  | e :: es, s => Meets C s e ∧ ∀ s' ∈ step turn s e, Along C es s'

instance decidableMeets (C : ρ → π → Prop) [∀ input p, Decidable (C input p)] (s : Pool μ π) :
    ∀ e, Decidable (Meets C s e)
  | .start _      => inferInstanceAs (Decidable True)
  | .turn i input => inferInstanceAs (Decidable (∀ p ∈ s.procs[i]?, C input p))

instance decidableAlong (C : ρ → π → Prop) [∀ input p, Decidable (C input p)] :
    ∀ (es : List (Event π ρ)) (s : Pool μ π), Decidable (Along turn C es s)
  | [],      _ => inferInstanceAs (Decidable True)
  | e :: es, s =>
      have : DecidablePred (Along turn C es) := decidableAlong C es
      inferInstanceAs (Decidable (Meets C s e ∧ ∀ s' ∈ step turn s e, Along turn C es s'))

/-- The processes that were started, in order. -/
def started : List (Event π ρ) → List π
  | []             => []
  | .start p :: es => p :: started es
  | .turn _ _ :: es => started es

/-- What one event brings from outside, by what an input brings to a process. -/
def brought (brings : ρ → π → List φ) (s : Pool μ π) : Event π ρ → List φ
  | .start _      => []
  | .turn i input => (s.procs[i]?.map (brings input)).getD []

/-- What comes from outside in a run. -/
def received (brings : ρ → π → List φ) : List (Event π ρ) → Pool μ π → List φ
  | [],      _ => []
  | e :: es, s => brought brings s e ++ ((step turn s e).map (received brings es)).getD []

variable {turn} {s s' : Pool μ π} {es : List (Event π ρ)} {C : ρ → π → Prop}

/-- A turn is one of a process of the pool. -/
theorem step_turn {i : Nat} {input : ρ} (h : step turn s (.turn i input) = some s') :
    ∃ p m p', s.procs[i]? = some p ∧ turn s.memory input p = some (m, p') ∧
    s' = ⟨m, s.procs.set i p'⟩ := by
  simp only [step, Option.bind_eq_bind, Option.bind_eq_some_iff] at h
  obtain ⟨p, hp, ⟨m, p'⟩, hturn, heq⟩ := h
  cases heq
  exact ⟨p, m, p', hp, hturn, rfl⟩

/-! ## What a process keeps -/

theorem forall₂_set {α β : Type} {R : α → β → Prop} {as : List α} {bs : List β}
    (h : List.Forall₂ R as bs) {i : Nat}
    {b : β} (hb : ∀ a, as[i]? = some a → R a b) : List.Forall₂ R as (bs.set i b) := by
  induction h generalizing i with
  | nil => exact .nil
  | @cons a b' as bs hab hrest ih =>
      cases i with
      | zero => exact .cons (hb a rfl) hrest
      | succ i => exact .cons hab (ih fun a' ha' => hb a' ha')

theorem forall₂_get {α β : Type} {R : α → β → Prop} {as : List α} {bs : List β}
    (h : List.Forall₂ R as bs) {i : Nat}
    {b : β} (hb : bs[i]? = some b) : ∃ a, as[i]? = some a ∧ R a b := by
  induction h generalizing i with
  | nil => simp at hb
  | @cons a b' as bs hab _ ih =>
      cases i with
      | zero =>
          cases hb
          exact ⟨a, rfl, hab⟩
      | succ i => exact ih hb

/-- **What its own turns keep of its start, a process keeps**, whatever the others do to the memory. -/
theorem run_kept {R : π → π → Prop} (hstart : ∀ p ∈ started es, R p p)
    (hturn : ∀ start p m input m' p', R start p → C input p → turn m input p = some (m', p') → R start p')
    (hrun : run turn es s = some s') (halong : Along turn C es s) {starts : List π}
    (hs : List.Forall₂ R starts s.procs) : List.Forall₂ R (starts ++ started es) s'.procs := by
  induction es generalizing s starts with
  | nil =>
      cases hrun
      rw [started, List.append_nil]
      exact hs
  | cons e es ih =>
      rw [run, Option.bind_eq_some_iff] at hrun
      obtain ⟨s₁, hstep, hrun⟩ := hrun
      obtain ⟨hhere, hlater⟩ := halong
      cases e with
      | start p =>
          cases hstep
          have hs₁ : List.Forall₂ R (starts ++ [p]) (s.procs ++ [p]) :=
            List.rel_append hs (.cons (hstart p List.mem_cons_self) .nil)
          have hrest := ih (fun q hq => hstart q (List.mem_cons_of_mem p hq)) hrun (hlater _ rfl) hs₁
          rw [List.append_assoc] at hrest
          exact hrest
      | turn i input =>
          obtain ⟨p, m, p', hp, hp', rfl⟩ := step_turn hstep
          refine ih hstart hrun (hlater _ hstep) (forall₂_set hs fun start hget => ?_)
          obtain ⟨start', hget', hR⟩ := forall₂_get hs hp
          obtain rfl := Option.some.inj (hget.symm.trans hget')
          exact hturn start p s.memory input m p' hR (hhere p hp) hp'

/-! ## What is known -/

section Known

variable {brings : ρ → π → List φ} {Has : μ → φ → Prop} {Knows : π → φ → Prop} {log : List φ}

/-- All that is known is on the log. -/
structure Logged (Has : μ → φ → Prop) (Knows : π → φ → Prop) (log : List φ) (s : Pool μ π) : Prop where
  memory : ∀ f, Has s.memory f → f ∈ log
  procs : ∀ p ∈ s.procs, ∀ f, Knows p f → f ∈ log

/-- **All that is known came from outside**, if a turn makes known nothing but what was known before and
    what it brings, and processes know nothing when they start. -/
theorem run_known
    (hturn : ∀ m input p m' p' f, turn m input p = some (m', p') → Has m' f ∨ Knows p' f →
      Has m f ∨ Knows p f ∨ f ∈ brings input p)
    (hstart : ∀ p ∈ started es, ∀ f, ¬ Knows p f)
    (hrun : run turn es s = some s') (hs : Logged Has Knows log s) :
    Logged Has Knows (log ++ received turn brings es s) s' := by
  induction es generalizing s log with
  | nil =>
      cases hrun
      rw [received, List.append_nil]
      exact hs
  | cons e es ih =>
      rw [run, Option.bind_eq_some_iff] at hrun
      obtain ⟨s₁, hstep, hrun⟩ := hrun
      rw [received, hstep]
      cases e with
      | start p =>
          cases hstep
          refine ih (fun q hq => hstart q (List.mem_cons_of_mem p hq)) hrun ⟨hs.memory,
            fun q hq f hf => ?_⟩
          rcases List.mem_append.mp hq with hq | hq
          · exact hs.procs q hq f hf
          · cases List.mem_singleton.mp hq
            exact absurd hf (hstart p List.mem_cons_self f)
      | turn i input =>
          obtain ⟨p, m, p', hp, hp', rfl⟩ := step_turn hstep
          have hmem := List.mem_of_getElem? hp
          -- what the turn makes known is on the log, or it has just been brought
          have hnew : ∀ f, Has m f ∨ Knows p' f → f ∈ log ++ brings input p := by
            intro f hf
            rcases hturn s.memory input p m p' f hp' hf with hold | hold | hnew
            · exact List.mem_append_left _ (hs.memory f hold)
            · exact List.mem_append_left _ (hs.procs p hmem f hold)
            · exact List.mem_append_right _ hnew
          have hs₁ : Logged Has Knows (log ++ brings input p) ⟨m, s.procs.set i p'⟩ := by
            refine ⟨fun f hf => hnew f (Or.inl hf), fun q hq f hf => ?_⟩
            rcases List.mem_or_eq_of_mem_set hq with hq | rfl
            · exact List.mem_append_left _ (hs.procs q hq f hf)
            · exact hnew f (Or.inr hf)
          have hrest := ih hstart hrun hs₁
          rw [List.append_assoc] at hrest
          rw [brought, hp]
          exact hrest

end Known

end Interleaving
