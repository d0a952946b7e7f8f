import Mathlib.Logic.Function.Basic

/-!
This module contains runs of a system that is made up of components: every input is for one of them,
and only this one answers and changes. The answers of a component do not depend on how its inputs are
interleaved with those of the others.
-/

namespace Interleaving

variable {κ τ α ω ρ ε : Type}

def run (step : τ → κ × ω → Except ε (ρ × τ)) (t : τ) (ops : List (κ × ω))
    : Except ε (List (κ × ρ) × τ) :=
  match ops with
  | [] => .ok ([], t)
  | op :: ops =>
    match step t op with
    | .error e => .error e
    | .ok (r, t) => (run step t ops).map fun p => ((op.1, r) :: p.1, p.2)

section

variable {step : τ → κ × ω → Except ε (ρ × τ)} {t t' : τ} {op : κ × ω} {ops : List (κ × ω)}

theorem run_cons_ok {out : List (κ × ρ)} (h : run step t (op :: ops) = .ok (out, t'))
    : ∃ r u out', step t op = .ok (r, u) ∧ run step u ops = .ok (out', t')
        ∧ out = (op.1, r) :: out' := by
  unfold run at h
  cases hstep : step t op with
  | error e => simp [hstep] at h
  | ok p =>
    obtain ⟨r, u⟩ := p
    rw [hstep] at h
    dsimp only at h
    cases hrun : run step u ops with
    | error e => simp [hrun, Except.map] at h
    | ok q =>
      rw [hrun] at h
      injection h with h
      rw [Prod.mk.injEq] at h
      obtain ⟨rfl, rfl⟩ := h
      exact ⟨r, u, q.1, rfl, hrun, rfl⟩

theorem run_cons_of_ok {r : ρ} {u : τ} {out : List (κ × ρ)} (hstep : step t op = .ok (r, u))
    (hrun : run step u ops = .ok (out, t'))
    : run step t (op :: ops) = .ok ((op.1, r) :: out, t') := by
  unfold run
  rw [hstep]
  dsimp only
  rw [hrun]
  rfl

end

/--
The state of each component is what `view` shows of it. An input for a component acts on it as `f`
says, and on no other one.
-/
structure Componentwise (step : τ → κ × ω → Except ε (ρ × τ)) (ok : κ × ω → Prop) (inv : τ → Prop)
    (view : τ → κ → α) (f : α → ω → Except ε (ρ × α)) : Prop where
  acts : ∀ t op r t', inv t → ok op → step t op = .ok (r, t') →
    f (view t op.1) op.2 = .ok (r, view t' op.1)
  answers : ∀ t op r x, inv t → ok op → f (view t op.1) op.2 = .ok (r, x) →
    ∃ t', step t op = .ok (r, t')
  frame : ∀ t op r t', inv t → ok op → step t op = .ok (r, t') →
    ∀ k, k ≠ op.1 → view t' k = view t k
  preserves : ∀ t op r t', inv t → ok op → step t op = .ok (r, t') → inv t'

namespace Componentwise

variable {step : τ → κ × ω → Except ε (ρ × τ)} {ok : κ × ω → Prop} {inv : τ → Prop}
  {view : τ → κ → α} {f : α → ω → Except ε (ρ × α)}

/--
Two states that a component cannot tell apart, after the same input for it.
-/
theorem acts_alike (h : Componentwise step ok inv view f) {t u t' : τ} {op : κ × ω} {r : ρ}
    (hop : ok op) (ht : inv t) (hu : inv u) (hview : view u op.1 = view t op.1)
    (hstep : step t op = .ok (r, t'))
    : ∃ u', step u op = .ok (r, u') ∧ view u' op.1 = view t' op.1 := by
  have hf := h.acts t op r t' ht hop hstep
  rw [← hview] at hf
  obtain ⟨u', hu'⟩ := h.answers u op r _ hu hop hf
  refine ⟨u', hu', ?_⟩
  have hf' := h.acts u op r u' hu hop hu'
  rw [hf] at hf'
  injection hf' with hf'
  exact (Prod.mk.inj hf').2.symm

variable [DecidableEq κ]

/--
A component that is in the same state gives the same answers when it runs alone.
-/
theorem run_alone (h : Componentwise step ok inv view f) (k : κ) {ops : List (κ × ω)} {t u t' : τ}
    {out : List (κ × ρ)} (hok : ∀ op ∈ ops, ok op) (ht : inv t) (hu : inv u)
    (hview : view u k = view t k) (hrun : run step t ops = .ok (out, t'))
    : ∃ u', run step u (ops.filter fun op => op.1 = k) = .ok (out.filter fun p => p.1 = k, u') := by
  induction ops generalizing t u out with
  | nil =>
    injection hrun with hrun
    rw [Prod.mk.injEq] at hrun
    obtain ⟨rfl, rfl⟩ := hrun
    exact ⟨u, rfl⟩
  | cons op ops ih =>
    obtain ⟨r, v, out', hstep, hrun', rfl⟩ := run_cons_ok hrun
    have hop := hok op (.head _)
    have hops : ∀ op ∈ ops, ok op := fun op hop => hok op (.tail _ hop)
    have hv := h.preserves t op r v ht hop hstep
    by_cases hk : op.1 = k
    . subst hk
      obtain ⟨w, hw, hview'⟩ := h.acts_alike hop ht hu hview hstep
      obtain ⟨u', hu'⟩ := ih hops hv (h.preserves u op r w hu hop hw) hview' hrun'
      refine ⟨u', ?_⟩
      rw [List.filter_cons_of_pos (by simp), List.filter_cons_of_pos (by simp)]
      exact run_cons_of_ok hw hu'
    . have hframe := h.frame t op r v ht hop hstep k fun heq => hk heq.symm
      rw [List.filter_cons_of_neg (by simpa using hk), List.filter_cons_of_neg (by simpa using hk)]
      exact ih hops hv hu (hview.trans hframe.symm) hrun'

/--
The components run as long as each of them does alone.
-/
theorem run_together (h : Componentwise step ok inv view f) {ops : List (κ × ω)} {t : τ}
    (hok : ∀ op ∈ ops, ok op) (ht : inv t)
    (halone : ∀ k, ∃ u, inv u ∧ view u k = view t k
      ∧ ∃ p, run step u (ops.filter fun op => op.1 = k) = .ok p)
    : ∃ p, run step t ops = .ok p := by
  induction ops generalizing t with
  | nil => exact ⟨_, rfl⟩
  | cons op ops ih =>
    have hop := hok op (.head _)
    have hops : ∀ op ∈ ops, ok op := fun op hop => hok op (.tail _ hop)
    obtain ⟨u, hu, hview, ⟨out, u'⟩, hrun⟩ := halone op.1
    rw [List.filter_cons_of_pos (by simp)] at hrun
    obtain ⟨r, w, out', hw, hrun', -⟩ := run_cons_ok hrun
    obtain ⟨v, hv, hview'⟩ := h.acts_alike hop hu ht hview.symm hw
    have hinv := h.preserves t op r v ht hop hv
    have halone' : ∀ k, ∃ u, inv u ∧ view u k = view v k
        ∧ ∃ p, run step u (ops.filter fun op => op.1 = k) = .ok p := by
      intro k
      by_cases hk : op.1 = k
      . subst hk
        exact ⟨w, h.preserves u op r w hu hop hw, hview'.symm, _, hrun'⟩
      . obtain ⟨x, hx, hviewx, p, hp⟩ := halone k
        rw [List.filter_cons_of_neg (by simpa using hk)] at hp
        have hframe := h.frame t op r v ht hop hv k fun heq => hk heq.symm
        exact ⟨x, hx, hviewx.trans hframe.symm, p, hp⟩
    obtain ⟨⟨out'', v'⟩, hrun''⟩ := ih hops hinv halone'
    exact ⟨_, run_cons_of_ok hv hrun''⟩

end Componentwise

end Interleaving
