import Dosix.Process.Impl
import Dosix.Transition.Basic

/-!
This module contains the discipline of the stack of exit handlers over whole runs: the two files are
to work like a list of pending handlers, and do so until `_cexit` is called.
-/

namespace Dosix
namespace Process

open Transition

/-! What the stack is for. -/

structure Pending where
  pending : List ExitCleanupEntry := []
  atexits : Nat := 0
  calls : List ExitCleanupEntry := []

namespace Pending

def register (env : Environment) (entry : ExitCleanupEntry) (p : Pending) : Int × Pending :=
  if p.pending.length = EXIT_CLEANUP_STACK_SIZE then
    (1, p)
  else if env.atexit p.atexits ≠ 0 then
    (env.atexit p.atexits, { p with atexits := p.atexits + 1 })
  else
    (0, { p with atexits := p.atexits + 1, pending := entry :: p.pending })

def registerAll (env : Environment) (entries : List ExitCleanupEntry) (p : Pending) : Pending :=
  entries.foldl (fun p entry => (p.register env entry).2) p

def cexit (env : Environment) (fuel : Nat) (p : Pending) : Except Unit Pending :=
  match fuel with
  | 0 => .error ()
  | fuel + 1 =>
    match p.pending with
    | [] => .ok p
    | entry :: pending =>
      let p' := { p with pending := pending, calls := p.calls ++ [entry] }
      cexit env fuel (p'.registerAll env (env.body p.calls entry))

end Pending

/-! Runs. -/

inductive Op where
  | register (entry : ExitCleanupEntry)
  | cexit
  deriving Repr, DecidableEq

def step (env : Environment) (fuel : Nat) (s : Cleanup) (op : Op) : Except Fault Cleanup :=
  match op with
  | .register ⟨.ATEXIT_FUNC, func⟩ => (dosixAtexit env func s).map Prod.snd
  | .register ⟨.FATEXIT_FUNC, func⟩ => (fatexit env func s).map Prod.snd
  | .register ⟨.ONEXIT_FUNC, func⟩ => (onexit env func s).map Prod.snd
  | .register ⟨.FONEXIT_FUNC, func⟩ => (fonexit env func s).map Prod.snd
  | .cexit => dosixCexit env fuel s

def Pending.step (env : Environment) (fuel : Nat) (p : Pending) (op : Op)
    : Except Unit Pending :=
  match op with
  | .register entry => .ok (p.register env entry).2
  | .cexit => p.cexit env fuel

/--
The top counts the pending handlers, which lie below it in the array, the last one uppermost.
-/
structure Represents (s : Cleanup) (p : Pending) : Prop where
  top : s.top.toNat = p.pending.length
  top_le : s.top.toNat ≤ EXIT_CLEANUP_STACK_SIZE
  stack : s.stack.toList.take s.top.toNat = p.pending.reverse
  atexits : s.atexits = p.atexits
  calls : s.calls = p.calls

/--
The run ends, with the pending handlers that there ought to be, after calling those that had to be
called.
-/
def Conforms (env : Environment) (ops : List Op) : Prop :=
  ∃ fuel s p, run (step env fuel) {} ops = .ok s ∧ run (Pending.step env fuel) {} ops = .ok p
    ∧ Represents s p

theorem take_set {α : Type} {l : List α} {i : Nat} (a : α) (h : i < l.length)
    : (l.set i a).take (i + 1) = l.take i ++ [a] := by
  rw [List.take_succ_eq_append_getElem (by simpa using h), List.take_set,
    List.set_eq_of_length_le (List.length_take_le i l)]
  simp

theorem toNat_sub_one {top : Size} (h : 0 < top) : (top - 1).toNat + 1 = top.toNat := by
  rw [BitVec.lt_def] at h
  rw [BitVec.toNat_sub]
  simp only [BitVec.ofNat_eq_ofNat, BitVec.toNat_ofNat] at h ⊢
  omega

theorem eq_zero_of_not_lt {top : Size} (h : ¬ 0 < top) : top = 0 :=
  BitVec.le_zero_iff.mp (BitVec.not_lt.mp h)

theorem registerCleanup_eq_step (env : Environment) (fuel : Nat) (entry : ExitCleanupEntry)
    (s : Cleanup)
    : step env fuel s (.register entry) = (registerCleanup env entry s).map Prod.snd := by
  unfold step
  cases entry with
  | mk type func =>
    cases type with
    | ATEXIT_FUNC => rfl
    | FATEXIT_FUNC => rfl
    | ONEXIT_FUNC =>
      dsimp only
      unfold onexit
      cases registerCleanup env ⟨.ONEXIT_FUNC, func⟩ s with
      | error f => rfl
      | ok r => rfl
    | FONEXIT_FUNC =>
      dsimp only
      unfold fonexit
      cases registerCleanup env ⟨.FONEXIT_FUNC, func⟩ s with
      | error f => rfl
      | ok r => rfl

namespace Represents

variable {env : Environment} {s : Cleanup} {p : Pending}

theorem registerCleanup (h : Represents s p) (env : Environment) (entry : ExitCleanupEntry)
    : ∃ s', registerCleanup env entry s = .ok ((p.register env entry).1, s')
        ∧ Represents s' (p.register env entry).2 := by
  unfold Process.registerCleanup Pending.register
  rw [if_pos h.top_le, ← h.top, ← h.atexits]
  split
  . exact ⟨s, rfl, h⟩
  next hfull =>
  dsimp only
  split
  . exact ⟨_, rfl, h.top, h.top_le, h.stack, rfl, h.calls⟩
  . have hlt : s.top.toNat < EXIT_CLEANUP_STACK_SIZE := Nat.lt_of_le_of_ne h.top_le hfull
    rw [dif_pos hlt]
    have htop : (s.top + 1).toNat = s.top.toNat + 1 := by
      unfold EXIT_CLEANUP_STACK_SIZE at hlt
      rw [BitVec.toNat_add]
      simp only [BitVec.ofNat_eq_ofNat, BitVec.toNat_ofNat]
      omega
    refine ⟨_, rfl, ?_, ?_, ?_, rfl, h.calls⟩
    . rw [htop, h.top]
      rfl
    . rw [htop]
      exact hlt
    . rw [htop, Vector.toList_set, take_set _ (by simpa using hlt), h.stack]
      simp

theorem registerAll (h : Represents s p) (env : Environment) (entries : List ExitCleanupEntry)
    : ∃ s', registerAll env entries s = .ok s' ∧ Represents s' (p.registerAll env entries) := by
  induction entries generalizing s p with
  | nil => exact ⟨s, rfl, h⟩
  | cons entry entries ih =>
    obtain ⟨t, ht, hrep⟩ := h.registerCleanup env entry
    obtain ⟨u, hu, hrep'⟩ := ih hrep
    refine ⟨u, ?_, hrep'⟩
    unfold Process.registerAll
    rw [ht]
    exact hu

theorem pop (h : Represents s p) {entry : ExitCleanupEntry} {pending : List ExitCleanupEntry}
    (hp : p.pending = entry :: pending)
    : 0 < s.top ∧ ∃ hlt : (s.top - 1).toNat < EXIT_CLEANUP_STACK_SIZE,
        s.stack.get ⟨(s.top - 1).toNat, hlt⟩ = entry
        ∧ Represents { s with top := s.top - 1 } { p with pending := pending } := by
  have htop := h.top
  have hle := h.top_le
  rw [hp, List.length_cons] at htop
  have hpos : 0 < s.top := by
    rw [BitVec.lt_def]
    simp only [BitVec.ofNat_eq_ofNat, BitVec.toNat_ofNat]
    omega
  have hpred : (s.top - 1).toNat = pending.length :=
    Nat.succ.inj ((toNat_sub_one hpos).trans htop)
  have hlt : (s.top - 1).toNat < EXIT_CLEANUP_STACK_SIZE := by omega
  have hlen : pending.length < s.stack.toList.length := by
    rw [Vector.length_toList]
    omega
  -- the part of the array below the top, one longer and one shorter
  have hstack : s.stack.toList.take pending.length ++ [s.stack.toList[pending.length]]
      = pending.reverse ++ [entry] := by
    rw [← List.take_succ_eq_append_getElem hlen, ← htop, h.stack, hp, List.reverse_cons]
  obtain ⟨htake, hentry⟩ := List.append_inj' hstack rfl
  refine ⟨hpos, hlt, ?_, ?_, ?_, ?_, h.atexits, h.calls⟩
  . simp only [List.cons.injEq, and_true] at hentry
    have hfin : (⟨(s.top - 1).toNat, hlt⟩ : Fin EXIT_CLEANUP_STACK_SIZE)
        = ⟨pending.length, hpred ▸ hlt⟩ := Fin.ext hpred
    rw [← hentry, hfin]
    simp [Vector.get]
  . exact hpred
  . dsimp only
    omega
  . dsimp only
    rw [hpred, htake]

theorem cexitLoop (h : Represents s p) {fuel : Nat} {p' : Pending}
    (hspec : p.cexit env fuel = .ok p')
    : ∃ s', cexitLoop env fuel s = .ok s' ∧ s'.calls = p'.calls ∧ s'.atexits = p'.atexits
        ∧ s'.top = -1 := by
  -- as long as nothing has gone wrong before, `_cexit` calls the handlers that it ought to call.
  -- But the top is below the bottom of the stack in the end
  induction fuel generalizing s p with
  | zero => simp [Pending.cexit] at hspec
  | succ fuel ih =>
    unfold Pending.cexit at hspec
    unfold Process.cexitLoop
    dsimp only
    split at hspec
    . next hpending =>
      injection hspec with hspec
      subst hspec
      have htop : s.top = 0 := by
        apply BitVec.eq_of_toNat_eq
        rw [h.top, hpending]
        rfl
      rw [htop]
      exact ⟨_, rfl, h.calls, h.atexits, rfl⟩
    . next entry pending hpending =>
      obtain ⟨hpos, hlt, hget, hrep⟩ := h.pop hpending
      rw [if_pos hpos, dif_pos hlt, hget]
      have hcall : Represents { s with top := s.top - 1, calls := s.calls ++ [entry] }
          { p with pending := pending, calls := p.calls ++ [entry] } :=
        ⟨hrep.top, hrep.top_le, hrep.stack, hrep.atexits, congrArg (· ++ [entry]) h.calls⟩
      obtain ⟨t, ht, hrep'⟩ := hcall.registerAll env (env.body p.calls entry)
      unfold callHandler
      rw [h.calls] at ht ⊢
      rw [ht]
      exact ih hrep' hspec

end Represents

theorem cexitLoop_top {env : Environment} {fuel : Nat} {s s' : Cleanup}
    (h : cexitLoop env fuel s = .ok s')
    : s'.top = -1 := by
  -- however `_cexit` comes to its end, the test that ends it decrements a top of zero
  induction fuel generalizing s with
  | zero => simp [cexitLoop] at h
  | succ fuel ih =>
    unfold cexitLoop at h
    dsimp only at h
    split at h
    . split at h
      . split at h
        . simp at h
        . exact ih h
      . simp at h
    . next hpos =>
      injection h with h
      rw [← h, eq_zero_of_not_lt hpos]
      rfl

theorem step_of_top_eq (env : Environment) (fuel : Nat) {s : Cleanup} (h : s.top = -1) (op : Op)
    : ∃ f, step env fuel s op = .error f := by
  -- with such a top nothing works any more
  cases op with
  | register entry =>
    rw [registerCleanup_eq_step]
    unfold registerCleanup
    rw [h, if_neg (by decide)]
    exact ⟨_, rfl⟩
  | cexit =>
    unfold step dosixCexit
    dsimp only
    cases fuel with
    | zero => exact ⟨_, rfl⟩
    | succ fuel =>
      unfold cexitLoop
      dsimp only
      rw [h, if_pos (by decide), dif_neg (by decide)]
      exact ⟨_, rfl⟩

theorem run_cexit_top {env : Environment} {fuel : Nat} {s s' : Cleanup} {ops : List Op}
    (hcexit : .cexit ∈ ops) (h : run (step env fuel) s ops = .ok s')
    : s'.top = -1 := by
  induction ops generalizing s with
  | nil => simp at hcexit
  | cons op ops ih =>
    unfold run at h
    split at h
    . next t ht =>
      by_cases hrest : .cexit ∈ ops
      . exact ih hrest h
      . have hop : op = .cexit := by
          rcases List.mem_cons.mp hcexit with hop | hop
          . exact hop.symm
          . exact absurd hop hrest
        subst hop
        have htop : t.top = -1 := cexitLoop_top ht
        cases ops with
        | nil =>
          injection h with h
          exact h ▸ htop
        | cons op ops =>
          obtain ⟨f, hf⟩ := step_of_top_eq env fuel htop op
          unfold run at h
          rw [hf] at h
          simp at h
    . simp at h

theorem conforms_iff (env : Environment) (ops : List Op) : Conforms env ops ↔ .cexit ∉ ops := by
  constructor
  . intro ⟨fuel, s, p, hrun, _, hrep⟩ hcexit
    have hle := hrep.top_le
    rw [run_cexit_top hcexit hrun] at hle
    exact absurd hle (by decide)
  . intro hcexit
    have hinit : Represents {} {} :=
      ⟨rfl, by decide, by simp, rfl, rfl⟩
    have hstep : ∀ (s : Cleanup) (p : Pending) (op : Op), Represents s p → op ≠ .cexit →
        ∃ s' p', step env 0 s op = .ok s' ∧ p.step env 0 op = .ok p' ∧ Represents s' p' := by
      intro s p op hrep hop
      cases op with
      | cexit => exact absurd rfl hop
      | register entry =>
        obtain ⟨s', hs', hrep'⟩ := hrep.registerCleanup env entry
        refine ⟨s', _, ?_, rfl, hrep'⟩
        rw [registerCleanup_eq_step, hs']
        rfl
    obtain ⟨s, p, hs, hp, hrep⟩ := run_related hstep hinit
      fun op (hop : op ∈ ops) heq => hcexit (heq ▸ hop)
    exact ⟨0, s, p, hs, hp, hrep⟩

theorem not_conforms_afterCexit
    : run (step ⟨fun _ => 0, fun _ _ => []⟩ 8) {}
        [.register ⟨.ATEXIT_FUNC, 0x100⟩, .cexit, .register ⟨.ATEXIT_FUNC, 0x100⟩]
        = .error .assertion
      ∧ run (step ⟨fun _ => 0, fun _ _ => []⟩ 8) {} [.cexit, .cexit] = .error .undefined
      ∧ ¬ Conforms ⟨fun _ => 0, fun _ _ => []⟩ [.cexit] := by
  -- an `atexit` fails an assertion, and a second `_cexit` reads past the array
  refine ⟨eq_error_of_errorOf (by decide), eq_error_of_errorOf (by decide), ?_⟩
  intro ⟨fuel, s, p, hrun, _, hrep⟩
  have hle := hrep.top_le
  rw [run_cexit_top (by decide) hrun] at hle
  exact absurd hle (by decide)

end Process
end Dosix
