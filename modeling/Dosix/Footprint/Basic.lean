import Dosix.Transition.Basic

/-!
This module contains what of a state a step leaves alone: the state has parts, and the step changes
none but those of its footprint.
-/

namespace Footprint

open Transition

variable {σ ι ε π : Type} {α : π → Type} {view : (p : π) → σ → α p} {ps : List π} {s t u : σ}

/--
From `s` to `t` no part has changed but these.
-/
def Within (view : (p : π) → σ → α p) (ps : List π) (s t : σ) : Prop :=
  ∀ p, p ∉ ps → view p t = view p s

namespace Within

theorem refl (s : σ) : Within view ps s s :=
  fun _ _ => rfl

theorem trans (hst : Within view ps s t) (htu : Within view ps t u) : Within view ps s u :=
  fun p hp => (htu p hp).trans (hst p hp)

end Within

/-! Runs. -/

variable {step : σ → ι → Except ε σ} {footprint : σ → ι → List π}

/--
A part that is in the footprint of no step is as it was when the run began.
-/
theorem run_untouched (hstep : ∀ s i t, step s i = .ok t → Within view (footprint s i) s t) (p : π)
    {is : List ι} (hp : Always step (fun s i => p ∉ footprint s i) s is)
    (hrun : run step s is = .ok t)
    : view p t = view p s := by
  have hkeeps (u : σ) (i : ι) (u' : σ) (hu : view p u = view p s) (hi : p ∉ footprint u i)
      (hu' : step u i = .ok u') : view p u' = view p s :=
    (hstep u i u' hu' p hi).trans hu
  exact run_invariant hkeeps rfl hp hrun

variable {β : Type}

/--
What the last step of a run has left that sets it, or what there was.
-/
def latest (step : σ → ι → Except ε σ) (set : σ → ι → Option β) (s : σ) (b : β) (is : List ι) : β :=
  match is with
  | [] => b
  | i :: is =>
    match step s i with
    | .ok t => latest step set t ((set s i).getD b) is
    | .error _ => b

/--
A part that each step of a run either sets or leaves alone is as it was set last.
-/
theorem run_latest {get : σ → β} {set : σ → ι → Option β} {p : σ → ι → Prop}
    (hstep : ∀ s i t, p s i → step s i = .ok t → get t = (set s i).getD (get s)) {is : List ι}
    (hp : Always step p s is) (hrun : run step s is = .ok t)
    : get t = latest step set s (get s) is := by
  induction is generalizing s with
  | nil =>
    injection hrun with hrun
    rw [← hrun]
    rfl
  | cons i is ih =>
    unfold run at hrun
    unfold Always at hp
    unfold latest
    cases hi : step s i with
    | error e => simp [hi] at hrun
    | ok u =>
      simp only [hi] at hrun hp
      dsimp only
      rw [ih hp.2 hrun, hstep s i u hp.1 hi]

end Footprint
