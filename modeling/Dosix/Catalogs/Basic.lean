import Mathlib.Logic.Function.Basic
import Dosix.Transition.Basic

/-!
This module contains objects that are found under names and reached through handles, and what a step
may do to them: names stay, handles stay unless they are released, and an object stays as it is
unless it is touched.
-/

namespace Catalogs

open Transition

@[ext]
structure Catalog (ν κ ο β : Type) where
  names : ν → Option ο
  handles : κ → Option ο
  contents : ο → β

variable {ν κ ο β γ : Type}

namespace Catalog

variable (c : Catalog ν κ ο β)

/--
The object has a name or a handle.
-/
def Known (o : ο) : Prop :=
  (∃ n, c.names n = some o) ∨ ∃ h, c.handles h = some o

def put [DecidableEq ο] (o : ο) (b : β) : Catalog ν κ ο β :=
  { c with contents := Function.update c.contents o b }

def bind [DecidableEq κ] (h : κ) (o : ο) : Catalog ν κ ο β :=
  { c with handles := Function.update c.handles h (some o) }

def release [DecidableEq κ] (h : κ) : Catalog ν κ ο β :=
  { c with handles := Function.update c.handles h none }

section

variable [DecidableEq ο]

@[simp]
theorem put_contents_same (o : ο) (b : β) : (c.put o b).contents o = b := by
  simp [put]

theorem put_contents_of_ne {o p : ο} (h : p ≠ o) (b : β)
    : (c.put o b).contents p = c.contents p := by
  simp [put, h]

end

section

variable [DecidableEq κ]

@[simp]
theorem bind_contents (h : κ) (o : ο) : (c.bind h o).contents = c.contents := rfl

@[simp]
theorem bind_handles_same (h : κ) (o : ο) : (c.bind h o).handles h = some o := by
  simp [bind]

theorem bind_handles_of_ne {h k : κ} (hne : k ≠ h) (o : ο)
    : (c.bind h o).handles k = c.handles k := by
  simp [bind, hne]

@[simp]
theorem release_handles_same (h : κ) : (c.release h).handles h = none := by
  simp [release]

theorem release_handles_of_ne {h k : κ} (hne : k ≠ h)
    : (c.release h).handles k = c.handles k := by
  simp [release, hne]

end

/--
From `c` to `d` a new object has been entered, under names that were free.
-/
structure Entered [DecidableEq ο] (d : Catalog ν κ ο β) (o : ο) (b : β) : Prop where
  fresh : ¬ c.Known o
  names : ∀ {n p}, c.names n = some p → d.names n = some p
  free : ∀ {n p}, c.names n = none → d.names n = some p → p = o
  handles : d.handles = c.handles
  contents : d.contents = Function.update c.contents o b

end Catalog

/--
From `c` to `d` every name and every handle leads where it did, but for handles that have been
released, and of the contents of each known object that has not been touched `get` shows the same.
-/
structure Keeps (get : β → γ) (touched : ο → Prop) (released : κ → Prop) (c d : Catalog ν κ ο β)
    : Prop where
  names : ∀ {n o}, c.names n = some o → d.names n = some o
  handles : ∀ {h o}, ¬ released h → c.handles h = some o → d.handles h = some o
  contents : ∀ {o}, c.Known o → ¬ touched o → get (d.contents o) = get (c.contents o)

namespace Keeps

variable {get : β → γ} {touched : ο → Prop} {released : κ → Prop} {c d e : Catalog ν κ ο β}

theorem refl (c : Catalog ν κ ο β) : Keeps get touched released c c where
  names := id
  handles := fun _ h => h
  contents := fun _ _ => rfl

theorem put [DecidableEq ο] {o : ο} {b : β} (h : touched o ∨ get b = get (c.contents o))
    : Keeps get touched released c (c.put o b) where
  names := id
  handles := fun _ h => h
  contents := by
    intro p _ hp
    by_cases hpo : p = o
    . subst hpo
      rw [c.put_contents_same]
      exact h.resolve_left hp
    . rw [c.put_contents_of_ne hpo]

theorem release [DecidableEq κ] {h : κ} (hreleased : released h)
    : Keeps get touched released c (c.release h) where
  names := id
  handles := by
    intro k p hk hp
    have hne : k ≠ h := by
      rintro rfl
      exact hk hreleased
    rwa [c.release_handles_of_ne hne]
  contents := fun _ _ => rfl

theorem entered [DecidableEq ο] {o : ο} {b : β} (h : c.Entered d o b)
    : Keeps get touched released c d where
  names := h.names
  handles := by
    intro k p _ hk
    rwa [h.handles]
  contents := by
    intro p hp _
    have hne : p ≠ o := by
      rintro rfl
      exact h.fresh hp
    rw [h.contents, Function.update_of_ne hne]

theorem then_bind [DecidableEq κ] {h : κ} (hcd : Keeps get touched released c d)
    (hunused : c.handles h = none) (o : ο)
    : Keeps get touched released c (d.bind h o) where
  names := hcd.names
  handles := by
    intro k p hk hp
    have hne : k ≠ h := by
      rintro rfl
      simp [hunused] at hp
    rw [d.bind_handles_of_ne hne]
    exact hcd.handles hk hp
  contents := hcd.contents

end Keeps

/-! Runs. -/

variable {σ ι ε : Type} {step : σ → ι → Except ε σ} {view : σ → Catalog ν κ ο β}
  {touched : σ → ι → ο → Prop} {released : σ → ι → κ → Prop} {get : β → γ} {s t : σ} {is : List ι}

section

variable {allowed : σ → ι → Prop}
  (hstep : ∀ s i t, allowed s i → step s i = .ok t →
    Keeps get (touched s i) (released s i) (view s) (view t))

include hstep

theorem run_names {n : ν} {o : ο} (hallowed : Always step allowed s is)
    (hn : (view s).names n = some o) (hrun : run step s is = .ok t)
    : (view t).names n = some o :=
  run_invariant (fun s i t hs hi h => (hstep s i t hi h).names hs) hn hallowed hrun

theorem run_handles {h : κ} {o : ο} (hallowed : Always step allowed s is)
    (hkept : Always step (fun s i => ¬ released s i h) s is) (hh : (view s).handles h = some o)
    (hrun : run step s is = .ok t)
    : (view t).handles h = some o :=
  run_invariant (fun s i t hs hi h => (hstep s i t hi.1 h).handles hi.2 hs) hh
    (hallowed.and hkept) hrun

theorem run_contents {n : ν} {o : ο} (hallowed : Always step allowed s is)
    (hkept : Always step (fun s i => ¬ touched s i o) s is) (hn : (view s).names n = some o)
    (hrun : run step s is = .ok t)
    : get ((view t).contents o) = get ((view s).contents o) := by
  have hkeeps (u : σ) (i : ι) (u' : σ)
      (hu : (view u).names n = some o ∧ get ((view u).contents o) = get ((view s).contents o))
      (hi : allowed u i ∧ ¬ touched u i o) (hu' : step u i = .ok u')
      : (view u').names n = some o ∧ get ((view u').contents o) = get ((view s).contents o) := by
    have h := hstep u i u' hi.1 hu'
    refine ⟨h.names hu.1, ?_⟩
    rw [h.contents (.inl ⟨n, hu.1⟩) hi.2]
    exact hu.2
  exact (run_invariant hkeeps ⟨hn, rfl⟩ (hallowed.and hkept) hrun).2

end

end Catalogs
