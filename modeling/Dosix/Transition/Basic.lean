/-!
This module contains runs of a step function: a system takes one input after the other until the
list of inputs is used up or a step fails.
-/

namespace Transition

variable {σ ι ε : Type}

def run (step : σ → ι → Except ε σ) (s : σ) (is : List ι) : Except ε σ :=
  match is with
  | [] => .ok s
  | i :: is =>
    match step s i with
    | .ok s => run step s is
    | .error e => .error e

def Always (step : σ → ι → Except ε σ) (p : σ → ι → Prop) (s : σ) (is : List ι) : Prop :=
  match is with
  | [] => True
  | i :: is =>
    p s i ∧
      match step s i with
      | .ok s => Always step p s is
      | .error _ => True

def Always.decide (step : σ → ι → Except ε σ) (p : σ → ι → Prop) [∀ s i, Decidable (p s i)]
    (s : σ) (is : List ι) : Decidable (Always step p s is) :=
  match is with
  | [] => .isTrue trivial
  | i :: is =>
    have : Decidable (match step s i with
        | .ok s => Always step p s is
        | .error _ => True) :=
      match step s i with
      | .ok s => Always.decide step p s is
      | .error _ => .isTrue trivial
    inferInstanceAs (Decidable (_ ∧ _))

instance (step : σ → ι → Except ε σ) (p : σ → ι → Prop) [∀ s i, Decidable (p s i)]
    (s : σ) (is : List ι) : Decidable (Always step p s is) :=
  Always.decide step p s is

def Meets (p : σ → Prop) (q : ε → Prop) (r : Except ε σ) : Prop :=
  match r with
  | .ok a => p a
  | .error e => q e

variable {step : σ → ι → Except ε σ} {p : σ → ι → Prop} {inv : σ → Prop} {q : ε → Prop}

@[simp]
theorem meets_ok (p : σ → Prop) (a : σ) : Meets p q (.ok a) ↔ p a := Iff.rfl

@[simp]
theorem meets_error (p : σ → Prop) (e : ε) : Meets p q (.error e) ↔ q e := Iff.rfl

theorem meets_map {β : Type} {p : β → Prop} {f : σ → β} {r : Except ε σ}
    : Meets p q (r.map f) ↔ Meets (fun a => p (f a)) q r := by
  cases r with
  | ok a => rfl
  | error e => rfl

theorem Meets.mono {p p' : σ → Prop} {q' : ε → Prop} {r : Except ε σ} (h : Meets p q r)
    (hp : ∀ a, p a → p' a) (hq : ∀ e, q e → q' e)
    : Meets p' q' r := by
  cases r with
  | ok a => exact hp a h
  | error e => exact hq e h

theorem Meets.imp {p p' : σ → Prop} {r : Except ε σ} (h : Meets p q r) (hp : ∀ a, p a → p' a)
    : Meets p' q r :=
  h.mono hp fun _ h => h

theorem Meets.of_ok {p : σ → Prop} {r : Except ε σ} {a : σ} (h : Meets p q r) (hr : r = .ok a)
    : p a := by
  rwa [hr] at h

theorem Meets.of_error {p : σ → Prop} {r : Except ε σ} {e : ε} (h : Meets p q r)
    (hr : r = .error e)
    : q e := by
  rwa [hr] at h

theorem exists_of_map {β : Type} {f : σ → β} {r : Except ε σ} {b : β} (h : r.map f = .ok b)
    : ∃ a, r = .ok a ∧ f a = b := by
  cases r with
  | ok a => exact ⟨a, rfl, Except.ok.inj h⟩
  | error e => cases h

theorem exists_of_any {r : Except ε σ} {q : σ → Bool} (h : r.toOption.any q = true)
    : ∃ s, r = .ok s ∧ q s = true := by
  cases r with
  | ok s => exact ⟨s, rfl, h⟩
  | error e => simp [Except.toOption] at h

def errorOf (r : Except ε σ) : Option ε :=
  match r with
  | .ok _ => none
  | .error e => some e

theorem eq_error_of_errorOf {r : Except ε σ} {e : ε} (h : errorOf r = some e) : r = .error e := by
  cases r with
  | ok s => simp [errorOf] at h
  | error e' => exact congrArg _ (Option.some.inj h)

/--
An invariant that holds at the start and is preserved by every step that meets `p` holds in the
state that the run reaches.
-/
theorem run_invariant (hstep : ∀ s i s', inv s → p s i → step s i = .ok s' → inv s')
    {s s' : σ} {is : List ι} (hinit : inv s) (hp : Always step p s is) (hrun : run step s is = .ok s')
    : inv s' := by
  induction is generalizing s with
  | nil =>
    injection hrun with hrun
    exact hrun ▸ hinit
  | cons i is ih =>
    obtain ⟨hi, his⟩ := hp
    unfold run at hrun
    cases hs : step s i with
    | error e => simp [hs] at hrun
    | ok t =>
      simp only [hs] at his hrun
      exact ih (hstep s i t hinit hi hs) his hrun

theorem run_meets (hstep : ∀ s i, inv s → p s i → Meets inv q (step s i)) {s : σ} {is : List ι}
    (hinit : inv s) (hp : Always step p s is)
    : Meets inv q (run step s is) := by
  induction is generalizing s with
  | nil => exact hinit
  | cons i is ih =>
    obtain ⟨hi, his⟩ := hp
    have hmeets := hstep s i hinit hi
    unfold run
    cases hs : step s i with
    | error e => exact hmeets.of_error hs
    | ok t =>
      rw [hs] at his
      exact ih (hmeets.of_ok hs) his

theorem run_related {τ δ : Type} {step' : τ → ι → Except δ τ} {rel : σ → τ → Prop}
    {c : ι → Prop}
    (hstep : ∀ s t i, rel s t → c i → ∃ s' t', step s i = .ok s' ∧ step' t i = .ok t' ∧ rel s' t')
    {s : σ} {t : τ} {is : List ι} (h : rel s t) (hc : ∀ i ∈ is, c i)
    : ∃ s' t', run step s is = .ok s' ∧ run step' t is = .ok t' ∧ rel s' t' := by
  induction is generalizing s t with
  | nil => exact ⟨s, t, rfl, rfl, h⟩
  | cons i is ih =>
    obtain ⟨s', t', hs, ht, hrel⟩ := hstep s t i h (hc i (by simp))
    obtain ⟨s'', t'', hs', ht', hrel'⟩ := ih hrel fun j hj => hc j (List.mem_cons_of_mem i hj)
    refine ⟨s'', t'', ?_, ?_, hrel'⟩
    . unfold run
      rw [hs]
      exact hs'
    . unfold run
      rw [ht]
      exact ht'

/--
Two results that are the same failure, or states that are related.
-/
def Agree {τ : Type} (rel : σ → τ → Prop) (r : Except ε σ) (r' : Except ε τ) : Prop :=
  match r, r' with
  | .ok s, .ok t => rel s t
  | .error e, .error e' => e = e'
  | _, _ => False

theorem Agree.imp {τ : Type} {rel rel' : σ → τ → Prop} {r : Except ε σ} {r' : Except ε τ}
    (h : Agree rel r r') (hrel : ∀ s t, rel s t → rel' s t)
    : Agree rel' r r' := by
  cases r with
  | error e =>
    cases r' with
    | error e' => exact h
    | ok t => exact h
  | ok s =>
    cases r' with
    | error e' => exact h
    | ok t => exact hrel s t h

/--
What forgets a part of a state keeps the agreement.
-/
theorem Agree.map_left {υ τ : Type} {rel : σ → τ → Prop} {rel' : υ → τ → Prop} {r : Except ε σ}
    {r' : Except ε τ} {f : σ → υ} (h : Agree rel r r') (hrel : ∀ s t, rel s t → rel' (f s) t)
    : Agree rel' (r.map f) r' := by
  cases r with
  | error e =>
    cases r' with
    | error e' => exact h
    | ok t => exact h
  | ok s =>
    cases r' with
    | error e' => exact h
    | ok t => exact hrel s t h

theorem Agree.exists_ok {τ : Type} {rel : σ → τ → Prop} {r : Except ε σ} {r' : Except ε τ} {t : τ}
    (h : Agree rel r r') (ht : r' = .ok t)
    : ∃ s, r = .ok s ∧ rel s t := by
  subst ht
  cases r with
  | error e => exact h.elim
  | ok s => exact ⟨s, rfl, h⟩

theorem run_agree {τ : Type} {step' : τ → ι → Except ε τ} {rel : σ → τ → Prop}
    (hstep : ∀ s t i, rel s t → Agree rel (step s i) (step' t i)) {s : σ} {t : τ} (h : rel s t)
    (is : List ι)
    : Agree rel (run step s is) (run step' t is) := by
  induction is generalizing s t with
  | nil => exact h
  | cons i is ih =>
    have hagree := hstep s t i h
    unfold run
    cases hs : step s i with
    | error e =>
      cases ht : step' t i with
      | error e' => rwa [hs, ht] at hagree
      | ok t' => rw [hs, ht] at hagree; exact hagree.elim
    | ok s' =>
      cases ht : step' t i with
      | error e' => rw [hs, ht] at hagree; exact hagree.elim
      | ok t' =>
        rw [hs, ht] at hagree
        exact ih hagree

/--
Two properties that agree in every state with the invariant agree on runs. Only the steps that have
one of them need to preserve the invariant.
-/
theorem Always.congr_of_step (inv : σ → Prop) {c q : σ → ι → Prop}
    (hstep : ∀ s i s', inv s → c s i → q s i → step s i = .ok s' → inv s')
    (hpq : ∀ s i, inv s → c s i → (p s i ↔ q s i)) {s : σ} {is : List ι} (hinit : inv s)
    (hc : Always step c s is)
    : Always step p s is ↔ Always step q s is := by
  induction is generalizing s with
  | nil => rfl
  | cons i is ih =>
    obtain ⟨hi, his⟩ := hc
    unfold Always
    rw [hpq s i hinit hi]
    apply and_congr_right
    intro hq
    cases hs : step s i with
    | error e => rfl
    | ok t =>
      rw [hs] at his
      exact ih (hstep s i t hinit hi hq hs) his

theorem Always.congr (inv : σ → Prop) {c q : σ → ι → Prop}
    (hstep : ∀ s i s', inv s → c s i → step s i = .ok s' → inv s')
    (hpq : ∀ s i, inv s → c s i → (p s i ↔ q s i)) {s : σ} {is : List ι} (hinit : inv s)
    (hc : Always step c s is)
    : Always step p s is ↔ Always step q s is :=
  Always.congr_of_step inv (fun s i s' hinv hi _ => hstep s i s' hinv hi) hpq hinit hc

theorem Always.and {q : σ → ι → Prop} {s : σ} {is : List ι} (hp : Always step p s is)
    (hq : Always step q s is)
    : Always step (fun s i => p s i ∧ q s i) s is := by
  induction is generalizing s with
  | nil => trivial
  | cons i is ih =>
    obtain ⟨hpi, hpis⟩ := hp
    obtain ⟨hqi, hqis⟩ := hq
    refine ⟨⟨hpi, hqi⟩, ?_⟩
    cases hs : step s i with
    | error e => trivial
    | ok t =>
      rw [hs] at hpis hqis
      exact ih hpis hqis

theorem Always.imp {q : σ → ι → Prop} {s : σ} {is : List ι} (hp : Always step p s is)
    (h : ∀ s i, p s i → q s i)
    : Always step q s is := by
  induction is generalizing s with
  | nil => trivial
  | cons i is ih =>
    obtain ⟨hi, his⟩ := hp
    refine ⟨h s i hi, ?_⟩
    cases hs : step s i with
    | error e => trivial
    | ok t =>
      rw [hs] at his
      exact ih his

theorem run_total (f : σ → ι → σ) (s : σ) (is : List ι)
    : run (fun s i => (.ok (f s i) : Except ε σ)) s is = .ok (is.foldl f s) := by
  induction is generalizing s with
  | nil => rfl
  | cons i is ih => exact ih (f s i)

theorem of_run_single {s t : σ} {i : ι} (h : run step s [i] = .ok t) : step s i = .ok t := by
  unfold run at h
  cases hs : step s i with
  | error e => simp [hs] at h
  | ok u =>
    rw [hs] at h
    exact h

theorem run_single {s t : σ} {i : ι} (h : step s i = .ok t) : run step s [i] = .ok t := by
  unfold run
  rw [h]
  rfl

theorem run_append (step : σ → ι → Except ε σ) (s : σ) (is js : List ι)
    : run step s (is ++ js) = (run step s is).bind fun s => run step s js := by
  induction is generalizing s with
  | nil => rfl
  | cons i is ih =>
    simp only [List.cons_append, run]
    cases step s i with
    | ok t => exact ih t
    | error e => rfl

theorem Always.of_append_left {s : σ} {is js : List ι} (h : Always step p s (is ++ js))
    : Always step p s is := by
  induction is generalizing s with
  | nil => trivial
  | cons i is ih =>
    obtain ⟨hi, his⟩ := h
    refine ⟨hi, ?_⟩
    cases hs : step s i with
    | error e => trivial
    | ok t =>
      rw [hs] at his
      exact ih his

theorem Always.of_append {s t : σ} {is js : List ι} (h : Always step p s (is ++ js))
    (hrun : run step s is = .ok t)
    : Always step p s is ∧ Always step p t js := by
  induction is generalizing s with
  | nil =>
    injection hrun with hrun
    exact ⟨trivial, hrun ▸ h⟩
  | cons i is ih =>
    obtain ⟨hi, his⟩ := h
    unfold run at hrun
    cases hs : step s i with
    | error e => simp [hs] at hrun
    | ok u =>
      simp only [hs] at his hrun
      obtain ⟨hbefore, hafter⟩ := ih his hrun
      refine ⟨⟨hi, ?_⟩, hafter⟩
      rw [hs]
      exact hbefore

/--
What forgets a part of the states and commutes with the steps commutes with runs.
-/
theorem run_map {τ : Type} {step' : τ → ι → Except ε τ} {c : σ → τ}
    (hstep : ∀ s i, (step s i).map c = step' (c s) i) (s : σ) (is : List ι)
    : (run step s is).map c = run step' (c s) is := by
  induction is generalizing s with
  | nil => rfl
  | cons i is ih =>
    have h := hstep s i
    unfold run
    rw [← h]
    cases step s i with
    | ok t => exact ih t
    | error e => rfl

theorem Always.of_mem {is : List ι} (hp : ∀ i ∈ is, ∀ s, p s i) (s : σ) : Always step p s is := by
  induction is generalizing s with
  | nil => trivial
  | cons i is ih =>
    refine ⟨hp i List.mem_cons_self s, ?_⟩
    split
    . exact ih (fun i hi => hp i (List.mem_cons_of_mem _ hi)) _
    . trivial

theorem Always.of_forall (hp : ∀ s i, p s i) (s : σ) (is : List ι) : Always step p s is := by
  induction is generalizing s with
  | nil => trivial
  | cons i is ih =>
    refine ⟨hp s i, ?_⟩
    split
    . apply ih
    . trivial

end Transition
