import Dosix.Process.Impl
import Dosix.Process.Lemmas.Cleanup
import Dosix.Transition.Basic

/-!
This module contains the exit handlers over whole runs that `exit` ends: each handler is to be
called once, and those that are pending together in reverse order.
-/

namespace Dosix
namespace Process

open Transition

/-! What happens to the handlers. -/

inductive Event where
  -- with what `register_cleanup` returns
  | registered (entry : ExitCleanupEntry) (ret : Int)
  | called (entry : ExitCleanupEntry)
  deriving Repr, DecidableEq

def accepted (log : List Event) : List ExitCleanupEntry :=
  log.filterMap fun
    | .registered entry ret => if ret = 0 then some entry else none
    | .called _ => none

def called (log : List Event) : List ExitCleanupEntry :=
  log.filterMap fun
    | .registered _ _ => none
    | .called entry => some entry

/--
Which handlers are pending after the events. A handler may only be called if it is the last one.
-/
def replay (log : List Event) (pending : List ExitCleanupEntry)
    : Option (List ExitCleanupEntry) :=
  match log with
  | [] => some pending
  | .registered entry ret :: log => replay log (if ret = 0 then entry :: pending else pending)
  | .called entry :: log =>
    match pending with
    | [] => none
    | last :: pending => if entry = last then replay log pending else none

structure EachOnce (log : List Event) : Prop where
  once : (called log).Perm (accepted log)
  lastFirst : replay log [] = some []

/-! The functions of the two files, with a log of what they do. -/

structure Logged where
  cleanup : Cleanup := {}
  log : List Event := []

namespace Logged

def register (env : Environment) (entry : ExitCleanupEntry) (l : Logged) : Except Fault Logged :=
  match registerCleanup env entry l.cleanup with
  | .error f => .error f
  | .ok (ret, s) => .ok ⟨s, l.log ++ [.registered entry ret]⟩

def registerAll (env : Environment) (entries : List ExitCleanupEntry) (l : Logged)
    : Except Fault Logged :=
  match entries with
  | [] => .ok l
  | entry :: entries =>
    match l.register env entry with
    | .error f => .error f
    | .ok l => l.registerAll env entries

def callHandler (env : Environment) (ce : ExitCleanupEntry) (l : Logged) : Except Fault Logged :=
  registerAll env (env.body l.cleanup.calls ce)
    ⟨{ l.cleanup with calls := l.cleanup.calls ++ [ce] }, l.log ++ [.called ce]⟩

def cexitLoop (env : Environment) (fuel : Nat) (l : Logged) : Except Fault Logged :=
  match fuel with
  | 0 => .error .unfinished
  | fuel + 1 =>
    let top := l.cleanup.top
    let s := { l.cleanup with top := l.cleanup.top - 1 }
    if 0 < top then
      if h : s.top.toNat < EXIT_CLEANUP_STACK_SIZE then
        match callHandler env (s.stack.get ⟨s.top.toNat, h⟩) ⟨s, l.log⟩ with
        | .error f => .error f
        | .ok l => cexitLoop env fuel l
      else
        .error .undefined
    else
      .ok ⟨s, l.log⟩

def exitLoop (env : Environment) (fuel : Nat) (l : Logged) : Except Fault Logged :=
  match fuel with
  | 0 => .error .unfinished
  | fuel + 1 =>
    match l.cleanup.registered with
    | [] => .ok l
    | ce :: registered =>
      match callHandler env ce ⟨{ l.cleanup with registered := registered }, l.log⟩ with
      | .error f => .error f
      | .ok l => exitLoop env fuel l

def step (env : Environment) (fuel : Nat) (l : Logged) (op : Op) : Except Fault Logged :=
  match op with
  | .register entry => l.register env entry
  | .cexit => l.cexitLoop env fuel

end Logged

/--
The run returns from all its calls, `exit` comes to its end, and each handler has had its call.
-/
def ExitsOnce (env : Environment) (ops : List Op) : Prop :=
  ∃ fuel l l', run (Logged.step env fuel) {} ops = .ok l ∧ l.exitLoop env fuel = .ok l'
    ∧ EachOnce l'.log

namespace Logged

/-! The log changes nothing. -/

variable {env : Environment}

theorem register_cleanup (entry : ExitCleanupEntry) (l : Logged)
    : (l.register env entry).map cleanup
        = (registerCleanup env entry l.cleanup).map Prod.snd := by
  unfold register
  cases registerCleanup env entry l.cleanup with
  | error f => rfl
  | ok r => rfl

theorem registerAll_cleanup (entries : List ExitCleanupEntry) (l : Logged)
    : (l.registerAll env entries).map cleanup = Process.registerAll env entries l.cleanup := by
  induction entries generalizing l with
  | nil => rfl
  | cons entry entries ih =>
    unfold registerAll Process.registerAll register
    cases registerCleanup env entry l.cleanup with
    | error f => rfl
    | ok r => exact ih ⟨r.2, _⟩

theorem callHandler_cleanup (ce : ExitCleanupEntry) (l : Logged)
    : (l.callHandler env ce).map cleanup = Process.callHandler env ce l.cleanup := by
  unfold callHandler
  rw [registerAll_cleanup]
  rfl

theorem cexitLoop_cleanup (fuel : Nat) (l : Logged)
    : (l.cexitLoop env fuel).map cleanup = Process.cexitLoop env fuel l.cleanup := by
  induction fuel generalizing l with
  | zero => rfl
  | succ fuel ih =>
    unfold cexitLoop Process.cexitLoop
    dsimp only
    split
    . split
      . rw [← callHandler_cleanup _ ⟨{ l.cleanup with top := l.cleanup.top - 1 }, l.log⟩]
        cases callHandler env _ _ with
        | error f => rfl
        | ok l' => exact ih l'
      . rfl
    . rfl

theorem exitLoop_cleanup (fuel : Nat) (l : Logged)
    : (l.exitLoop env fuel).map cleanup = Process.exitLoop env fuel l.cleanup := by
  induction fuel generalizing l with
  | zero => rfl
  | succ fuel ih =>
    unfold exitLoop Process.exitLoop
    cases l.cleanup.registered with
    | nil => rfl
    | cons ce registered =>
      dsimp only
      rw [← callHandler_cleanup _ ⟨{ l.cleanup with registered := registered }, l.log⟩]
      cases callHandler env _ _ with
      | error f => rfl
      | ok l' => exact ih l'

theorem step_cleanup (fuel : Nat) (l : Logged) (op : Op)
    : (Logged.step env fuel l op).map cleanup = Process.step env fuel l.cleanup op := by
  cases op with
  | register entry =>
    rw [registerCleanup_eq_step]
    exact register_cleanup entry l
  | cexit => exact cexitLoop_cleanup fuel l

theorem run_cleanup (fuel : Nat) (l : Logged) (ops : List Op)
    : (run (Logged.step env fuel) l ops).map cleanup
        = run (Process.step env fuel) l.cleanup ops :=
  run_map (step_cleanup fuel) l ops

end Logged

/-! The log as a history of what is pending. -/

theorem replay_append (log log' : List Event) (pending : List ExitCleanupEntry)
    : replay (log ++ log') pending = (replay log pending).bind (replay log') := by
  induction log generalizing pending with
  | nil => rfl
  | cons e log ih =>
    cases e with
    | registered entry ret => exact ih _
    | called entry =>
      cases pending with
      | nil => rfl
      | cons last pending =>
        simp only [List.cons_append, replay]
        split
        . exact ih pending
        . rfl

theorem replay_perm {log : List Event} {p q : List ExitCleanupEntry} (h : replay log p = some q)
    : (called log ++ q).Perm (p ++ accepted log) := by
  induction log generalizing p with
  | nil =>
    injection h with h
    simp [called, accepted, h]
  | cons e log ih =>
    cases e with
    | registered entry ret =>
      have hrest := ih h
      by_cases hret : ret = 0
      . rw [if_pos hret] at hrest
        have haccepted : accepted (.registered entry ret :: log) = entry :: accepted log := by
          simp [accepted, hret]
        rw [haccepted]
        exact hrest.trans List.perm_middle.symm
      . rw [if_neg hret] at hrest
        have haccepted : accepted (.registered entry ret :: log) = accepted log := by
          simp [accepted, hret]
        rw [haccepted]
        exact hrest
    | called entry =>
      cases p with
      | nil => simp [replay] at h
      | cons last p =>
        simp only [replay] at h
        split at h
        . next heq => exact heq ▸ (ih h).cons entry
        . simp at h

theorem eachOnce_iff (log : List Event) : EachOnce log ↔ replay log [] = some [] := by
  constructor
  . exact EachOnce.lastFirst
  . intro h
    refine ⟨?_, h⟩
    simpa using replay_perm h

/-! What one registration does. -/

theorem registerCleanup_cases (env : Environment) (entry : ExitCleanupEntry) {s : Cleanup}
    (h : s.top.toNat ≤ EXIT_CLEANUP_STACK_SIZE)
    : ∃ ret s', registerCleanup env entry s = .ok (ret, s') ∧
        ((ret ≠ 0 ∧ s'.registered = s.registered ∧ s'.top = s.top ∧
            (s.top = 0 → ret = env.atexit s.atexits ∧ s'.atexits = s.atexits + 1))
          ∨ (ret = 0 ∧ ret = env.atexit s.atexits ∧ s'.registered = entry :: s.registered
            ∧ s'.top.toNat = s.top.toNat + 1 ∧ s.top.toNat < EXIT_CLEANUP_STACK_SIZE)) := by
  unfold registerCleanup
  rw [if_pos h]
  split
  . next hfull =>
    refine ⟨_, _, rfl, .inl ⟨by decide, rfl, rfl, ?_⟩⟩
    intro htop
    rw [htop] at hfull
    exact absurd hfull (by decide)
  next hfull =>
  have hlt : s.top.toNat < EXIT_CLEANUP_STACK_SIZE := Nat.lt_of_le_of_ne h hfull
  dsimp only
  split
  . next hret => exact ⟨_, _, rfl, .inl ⟨hret, rfl, rfl, fun _ => ⟨rfl, rfl⟩⟩⟩
  . next hret =>
    refine ⟨_, _, rfl, .inr ⟨rfl, (Decidable.not_not.mp hret).symm, rfl, ?_, hlt⟩⟩
    unfold EXIT_CLEANUP_STACK_SIZE at hlt
    dsimp only
    rw [BitVec.toNat_add]
    simp only [BitVec.ofNat_eq_ofNat, BitVec.toNat_ofNat]
    omega

namespace Logged

variable {env : Environment} {l l' : Logged}

theorem register_eq {entry : ExitCleanupEntry} {ret : Int} {s' : Cleanup}
    (h : registerCleanup env entry l.cleanup = .ok (ret, s'))
    : l.register env entry = .ok ⟨s', l.log ++ [.registered entry ret]⟩ := by
  unfold register
  rw [h]

theorem registerAll_invariant {inv : Logged → Prop}
    (hstep : ∀ l entry, inv l → ∃ l', l.register env entry = .ok l' ∧ inv l') (h : inv l)
    (entries : List ExitCleanupEntry)
    : ∃ l', l.registerAll env entries = .ok l' ∧ inv l' := by
  induction entries generalizing l with
  | nil => exact ⟨l, rfl, h⟩
  | cons entry entries ih =>
    obtain ⟨t, ht, hinv⟩ := hstep l entry h
    unfold registerAll
    rw [ht]
    exact ih hinv

/--
What is pending is what the C library has registered, and `weight` bounds the calls that `exit` may
still make.
-/
structure Recorded (weight : Nat) (l : Logged) : Prop where
  pending : replay l.log [] = some l.cleanup.registered
  top_le : l.cleanup.top.toNat ≤ EXIT_CLEANUP_STACK_SIZE
  weight : l.cleanup.registered.length + (EXIT_CLEANUP_STACK_SIZE - l.cleanup.top.toNat) = weight

theorem Recorded.register {weight : Nat} (h : Recorded weight l) (env : Environment)
    (entry : ExitCleanupEntry)
    : ∃ l', l.register env entry = .ok l' ∧ Recorded weight l' := by
  obtain ⟨ret, s', hs, hcases⟩ := registerCleanup_cases env entry h.top_le
  refine ⟨_, register_eq hs, ?_⟩
  have hreplay : replay (l.log ++ [.registered entry ret]) []
      = some (if ret = 0 then entry :: l.cleanup.registered else l.cleanup.registered) := by
    rw [replay_append, h.pending]
    rfl
  have hweight := h.weight
  rcases hcases with ⟨hret, hregistered, htop, _⟩ | ⟨hret, _, hregistered, htop, hlt⟩
  . rw [if_neg hret] at hreplay
    exact ⟨hregistered ▸ hreplay, htop ▸ h.top_le, by rw [hregistered, htop, hweight]⟩
  . rw [if_pos hret] at hreplay
    refine ⟨hregistered ▸ hreplay, ?_, ?_⟩
    . dsimp only
      omega
    . dsimp only
      rw [hregistered, List.length_cons, htop]
      omega

theorem Recorded.exitLoop {weight fuel : Nat} (h : Recorded weight l) (env : Environment)
    (hfuel : weight < fuel)
    : ∃ l', l.exitLoop env fuel = .ok l' ∧ replay l'.log [] = some [] := by
  -- each call takes one from the weight, and what a handler registers adds nothing to it
  induction fuel generalizing weight l with
  | zero => simp at hfuel
  | succ fuel ih =>
    unfold Logged.exitLoop
    have hweight := h.weight
    have hpending := h.pending
    cases hregistered : l.cleanup.registered with
    | nil => exact ⟨l, rfl, hregistered ▸ hpending⟩
    | cons ce registered =>
      rw [hregistered] at hpending hweight
      rw [List.length_cons] at hweight
      have hpop : Recorded (weight - 1)
          ⟨{ l.cleanup with registered := registered, calls := l.cleanup.calls ++ [ce] },
            l.log ++ [.called ce]⟩ := by
        refine ⟨?_, h.top_le, ?_⟩
        . rw [replay_append, hpending]
          simp [replay]
        . dsimp only
          omega
      obtain ⟨t, ht, hrec⟩ := registerAll_invariant
        (fun l entry hl => Recorded.register hl env entry) hpop (env.body l.cleanup.calls ce)
      dsimp only
      unfold callHandler
      dsimp only
      rw [ht]
      exact ih hrec (by omega)

theorem Recorded.run {weight : Nat} {ops : List Op} (h : Recorded weight l) (env : Environment)
    (hcexit : .cexit ∉ ops) (fuel : Nat)
    : ∃ l', run (Logged.step env fuel) l ops = .ok l' ∧ Recorded weight l' := by
  induction ops generalizing l with
  | nil => exact ⟨l, rfl, h⟩
  | cons op ops ih =>
    cases op with
    | cexit => simp at hcexit
    | register entry =>
      obtain ⟨t, ht, hrec⟩ := h.register env entry
      obtain ⟨l', hl', hrec'⟩ := ih hrec fun hmem => hcexit (List.mem_cons_of_mem _ hmem)
      refine ⟨l', ?_, hrec'⟩
      unfold Transition.run Logged.step
      dsimp only
      rw [ht]
      exact hl'

/-!
What `_cexit` has called, and the C library still has.
-/

/--
The handlers that are not below the top have been called, and all of them, at least `n`, are
registered.
-/
structure Counted (n : Nat) (l : Logged) : Prop where
  top_le : l.cleanup.top.toNat ≤ EXIT_CLEANUP_STACK_SIZE
  calls : l.cleanup.top.toNat + (called l.log).length = l.cleanup.registered.length
  accepted : (accepted l.log).length = l.cleanup.registered.length
  le_registered : n ≤ l.cleanup.registered.length

theorem Counted.register {n : Nat} (h : Counted n l) (env : Environment)
    (entry : ExitCleanupEntry)
    : ∃ l', l.register env entry = .ok l' ∧ Counted n l' := by
  obtain ⟨ret, s', hs, hcases⟩ := registerCleanup_cases env entry h.top_le
  refine ⟨_, register_eq hs, ?_⟩
  have hcalls := h.calls
  have haccepted := h.accepted
  have hlog : called (l.log ++ [.registered entry ret]) = called l.log := by
    simp [called]
  rcases hcases with ⟨hret, hregistered, htop, _⟩ | ⟨hret, _, hregistered, htop, hlt⟩
  . have hlog' : Process.accepted (l.log ++ [.registered entry ret]) = Process.accepted l.log := by
      simp [Process.accepted, hret]
    constructor
    . exact htop ▸ h.top_le
    . rw [hlog, hregistered, htop, hcalls]
    . rw [hlog', hregistered, haccepted]
    . rw [hregistered]
      exact h.le_registered
  . have hlog' : Process.accepted (l.log ++ [.registered entry ret])
        = Process.accepted l.log ++ [entry] := by
      simp [Process.accepted, hret]
    constructor
    . dsimp only
      omega
    . dsimp only
      rw [hlog, hregistered, List.length_cons, htop]
      omega
    . dsimp only
      rw [hlog', hregistered, List.length_append, List.length_cons, haccepted]
      rfl
    . dsimp only
      rw [hregistered]
      exact Nat.le_succ_of_le h.le_registered

theorem Counted.pop {n : Nat} (h : Counted n l) (hpos : 0 < l.cleanup.top)
    (hlt : (l.cleanup.top - 1).toNat < EXIT_CLEANUP_STACK_SIZE)
    : Counted n ⟨{ l.cleanup with
          top := l.cleanup.top - 1
          calls := l.cleanup.calls ++ [l.cleanup.stack.get ⟨_, hlt⟩] },
        l.log ++ [.called (l.cleanup.stack.get ⟨_, hlt⟩)]⟩ := by
  have hpred := toNat_sub_one hpos
  have hcalls := h.calls
  constructor
  . exact Nat.le_of_lt hlt
  . simp only [called, List.filterMap_append, List.length_append] at hcalls ⊢
    simp
    omega
  . rw [← h.accepted]
    simp [Process.accepted]
  . exact h.le_registered

theorem Counted.cexitLoop {n fuel : Nat} (h : Counted n l) (hl' : l.cexitLoop env fuel = .ok l')
    : l'.cleanup.top = -1 ∧ (called l'.log).length = (Process.accepted l'.log).length
        ∧ n ≤ l'.cleanup.registered.length := by
  induction fuel generalizing l with
  | zero => simp [Logged.cexitLoop] at hl'
  | succ fuel ih =>
    unfold Logged.cexitLoop at hl'
    dsimp only at hl'
    split at hl'
    . next hpos =>
      split at hl'
      . next hlt =>
        obtain ⟨t, ht, hcounted⟩ := registerAll_invariant
          (fun l entry hl => Counted.register hl env entry) (h.pop hpos hlt)
          (env.body l.cleanup.calls (l.cleanup.stack.get ⟨_, hlt⟩))
        unfold callHandler at hl'
        dsimp only at hl'
        rw [ht] at hl'
        exact ih hcounted hl'
      . simp at hl'
    . next hpos =>
      injection hl' with hl'
      subst hl'
      have htop := eq_zero_of_not_lt hpos
      have hcalls := h.calls
      rw [htop, BitVec.ofNat_eq_ofNat, BitVec.toNat_zero, Nat.zero_add] at hcalls
      refine ⟨?_, hcalls.trans h.accepted.symm, h.le_registered⟩
      dsimp only
      rw [htop]
      rfl

theorem callHandler_of_top_eq {ce : ExitCleanupEntry} (htop : l.cleanup.top = -1)
    (h : l.callHandler env ce = .ok l')
    : l' = ⟨{ l.cleanup with calls := l.cleanup.calls ++ [ce] }, l.log ++ [.called ce]⟩ := by
  unfold callHandler at h
  cases hbody : env.body l.cleanup.calls ce with
  | nil =>
    rw [hbody] at h
    exact (Except.ok.inj h).symm
  | cons entry entries =>
    rw [hbody] at h
    unfold registerAll register registerCleanup at h
    dsimp only at h
    rw [htop, if_neg (by decide)] at h
    simp at h

theorem exitLoop_of_top_eq {fuel : Nat} (htop : l.cleanup.top = -1)
    (h : l.exitLoop env fuel = .ok l')
    : (called l'.log).length = (called l.log).length + l.cleanup.registered.length
        ∧ Process.accepted l'.log = Process.accepted l.log := by
  -- no handler can register another one now, or the assertion in `register_cleanup` fails
  induction fuel generalizing l with
  | zero => simp [exitLoop] at h
  | succ fuel ih =>
    unfold exitLoop at h
    cases hregistered : l.cleanup.registered with
    | nil =>
      rw [hregistered] at h
      injection h with h
      rw [h]
      exact ⟨rfl, rfl⟩
    | cons ce registered =>
      rw [hregistered] at h
      dsimp only at h
      split at h
      . simp at h
      . next t ht =>
        have hpop : ({ l.cleanup with registered := registered } : Cleanup).top = -1 := htop
        have heq := callHandler_of_top_eq (l := ⟨_, l.log⟩) hpop ht
        have htop' : t.cleanup.top = -1 := by
          rw [heq]
          exact htop
        obtain ⟨hcalled, haccepted⟩ := ih htop' h
        rw [hcalled, haccepted, heq]
        simp [called, Process.accepted]
        omega

theorem step_of_top_eq (env : Environment) (htop : l.cleanup.top = -1) (fuel : Nat) (op : Op)
    : ∃ f, Logged.step env fuel l op = .error f := by
  obtain ⟨f, hf⟩ := Process.step_of_top_eq env fuel htop op
  rw [← step_cleanup] at hf
  cases hl : Logged.step env fuel l op with
  | error f' => exact ⟨f', rfl⟩
  | ok l' => simp [hl, Except.map] at hf

theorem Counted.run {n fuel : Nat} {ops : List Op} (h : Counted n l) (hcexit : .cexit ∉ ops)
    (hrun : run (Logged.step env fuel) l ops = .ok l')
    : Counted n l' := by
  induction ops generalizing l with
  | nil =>
    injection hrun with hrun
    exact hrun ▸ h
  | cons op ops ih =>
    cases op with
    | cexit => simp at hcexit
    | register entry =>
      obtain ⟨t, ht, hcounted⟩ := h.register env entry
      unfold Transition.run Logged.step at hrun
      dsimp only at hrun
      rw [ht] at hrun
      exact ih hcounted (fun hmem => hcexit (List.mem_cons_of_mem _ hmem)) hrun

theorem Counted.refused_iff {fuel : Nat} {ops : List Op} (h : Counted 0 l)
    (htop : l.cleanup.top = 0) (hregistered : l.cleanup.registered = []) (hcexit : .cexit ∉ ops)
    (hrun : Transition.run (Logged.step env fuel) l ops = .ok l')
    : l'.cleanup.registered = []
        ↔ ∀ i < ops.length, env.atexit (l.cleanup.atexits + i) ≠ 0 := by
  -- as long as `atexit` refuses all handlers, the stack stays empty
  induction ops generalizing l with
  | nil =>
    injection hrun with hrun
    simp [← hrun, hregistered]
  | cons op ops ih =>
    cases op with
    | cexit => simp at hcexit
    | register entry =>
      have hcexit' : .cexit ∉ ops := fun hmem => hcexit (List.mem_cons_of_mem _ hmem)
      obtain ⟨ret, s', hs, hcases⟩ := registerCleanup_cases env entry h.top_le
      obtain ⟨t, ht, hcounted⟩ := h.register env entry
      unfold Transition.run Logged.step at hrun
      dsimp only at hrun
      rw [ht] at hrun
      rw [register_eq hs] at ht
      injection ht with ht
      subst ht
      have hshift : (∀ i < ops.length, env.atexit (l.cleanup.atexits + 1 + i) ≠ 0)
          ↔ ∀ i < ops.length, env.atexit (l.cleanup.atexits + (i + 1)) ≠ 0 := by
        simp only [Nat.add_assoc, Nat.add_comm 1]
      rw [List.length_cons, Nat.forall_lt_succ_left, Nat.add_zero, ← hshift]
      rcases hcases with ⟨hret, hreg, hsame, hrefused⟩ | ⟨hret, haccepted, hreg, _, _⟩
      . obtain ⟨heq, hatexits⟩ := hrefused htop
        rw [ih hcounted (hsame.trans htop) (hreg.trans hregistered) hcexit' hrun]
        dsimp only
        rw [hatexits, ← heq]
        exact ⟨fun hrest => ⟨hret, hrest⟩, fun hall => hall.2⟩
      . refine iff_of_false ?_ fun hall => hall.1 (haccepted ▸ hret)
        intro hnil
        have hlen : Counted 1 l' := by
          refine Counted.run ⟨hcounted.top_le, hcounted.calls, hcounted.accepted, ?_⟩ hcexit' hrun
          dsimp only
          rw [hreg]
          simp
        have hle := hlen.le_registered
        rw [hnil] at hle
        simp at hle

end Logged

open Logged

theorem counted_init : Counted 0 {} := ⟨by decide, rfl, rfl, Nat.zero_le 0⟩

theorem recorded_init : Recorded EXIT_CLEANUP_STACK_SIZE {} := ⟨rfl, by decide, rfl⟩

theorem exitsOnce_of_not_mem {env : Environment} {ops : List Op} (hcexit : .cexit ∉ ops)
    : ExitsOnce env ops := by
  obtain ⟨l, hl, hrec⟩ := recorded_init.run env hcexit (EXIT_CLEANUP_STACK_SIZE + 1)
  obtain ⟨l', hl', hreplay⟩ := hrec.exitLoop env (Nat.lt_succ_self _)
  exact ⟨_, l, l', hl, hl', (eachOnce_iff _).mpr hreplay⟩

theorem exitsOnce_of_refused {env : Environment} {pre : List Op} (hcexit : .cexit ∉ pre)
    (hrefused : ∀ i < pre.length, env.atexit i ≠ 0)
    : ExitsOnce env (pre ++ [.cexit]) := by
  obtain ⟨l, hl, hrec⟩ := recorded_init.run env hcexit 1
  have hcounted := counted_init.run hcexit hl
  have hregistered : l.cleanup.registered = [] := by
    rw [counted_init.refused_iff rfl rfl hcexit hl]
    intro i hi
    rw [Nat.zero_add]
    exact hrefused i hi
  have htop : l.cleanup.top = 0 := by
    have hcalls := hcounted.calls
    rw [hregistered, List.length_nil] at hcalls
    exact BitVec.eq_of_toNat_eq (by simpa using Nat.eq_zero_of_add_eq_zero_right hcalls)
  have hreplay := hrec.pending
  rw [hregistered] at hreplay
  refine ⟨1, ⟨{ l.cleanup with top := -1 }, l.log⟩, ⟨{ l.cleanup with top := -1 }, l.log⟩, ?_, ?_,
    (eachOnce_iff _).mpr hreplay⟩
  . rw [run_append, hl]
    simp [Except.bind, run, Logged.step, Logged.cexitLoop, htop]
  . unfold Logged.exitLoop
    dsimp only
    rw [hregistered]

/--
A run that comes back from `_cexit` does nothing else after it.
-/
theorem split_of_run {env : Environment} {fuel : Nat} {ops : List Op} {l : Logged}
    (hcexit : .cexit ∈ ops) (h : run (Logged.step env fuel) {} ops = .ok l)
    : ∃ pre t, ops = pre ++ [.cexit] ∧ .cexit ∉ pre
        ∧ run (Logged.step env fuel) {} pre = .ok t ∧ t.cexitLoop env fuel = .ok l := by
  obtain ⟨pre, rest, hops, hpre⟩ := List.eq_append_cons_of_mem hcexit
  subst hops
  rw [run_append] at h
  cases ht : run (Logged.step env fuel) {} pre with
  | error f =>
    rw [ht] at h
    simp [Except.bind] at h
  | ok t =>
    rw [ht] at h
    simp only [Except.bind, run, Logged.step] at h
    cases hloop : t.cexitLoop env fuel with
    | error f => simp [hloop] at h
    | ok t' =>
      rw [hloop] at h
      dsimp only at h
      have htop : t'.cleanup.top = -1 := ((counted_init.run hpre ht).cexitLoop hloop).1
      cases rest with
      | nil =>
        injection h with h
        exact ⟨pre, t, rfl, hpre, ht, h ▸ hloop⟩
      | cons op rest =>
        obtain ⟨f, hf⟩ := Logged.step_of_top_eq env htop fuel op
        unfold run at h
        rw [hf] at h
        simp at h

theorem refused_of_exitsOnce {env : Environment} {ops : List Op} (hcexit : .cexit ∈ ops)
    (h : ExitsOnce env ops)
    : ∃ pre, ops = pre ++ [.cexit] ∧ .cexit ∉ pre ∧ ∀ i < pre.length, env.atexit i ≠ 0 := by
  obtain ⟨fuel, l, l', hrun, hexit, honce⟩ := h
  obtain ⟨pre, t, hops, hpre, ht, hloop⟩ := split_of_run hcexit hrun
  refine ⟨pre, hops, hpre, ?_⟩
  have hcounted : Counted t.cleanup.registered.length t := by
    have hcounted := counted_init.run hpre ht
    exact ⟨hcounted.top_le, hcounted.calls, hcounted.accepted, Nat.le_refl _⟩
  -- what `_cexit` has called is as much as was registered, and `exit` calls all of it again
  obtain ⟨htop, hcalled, hle⟩ := hcounted.cexitLoop hloop
  obtain ⟨hcalled', haccepted'⟩ := exitLoop_of_top_eq htop hexit
  have honce' := honce.once.length_eq
  rw [haccepted', hcalled'] at honce'
  have hregistered : t.cleanup.registered = [] := List.eq_nil_of_length_eq_zero (by omega)
  rw [counted_init.refused_iff rfl rfl hpre ht] at hregistered
  simpa using hregistered

theorem exitsOnce_iff (env : Environment) (ops : List Op)
    : ExitsOnce env ops
        ↔ .cexit ∉ ops
          ∨ ∃ pre, ops = pre ++ [.cexit] ∧ .cexit ∉ pre ∧ ∀ i < pre.length, env.atexit i ≠ 0 := by
  constructor
  . intro h
    by_cases hcexit : .cexit ∈ ops
    . exact .inr (refused_of_exitsOnce hcexit h)
    . exact .inl hcexit
  . rintro (hcexit | ⟨pre, hops, hpre, hrefused⟩)
    . exact exitsOnce_of_not_mem hcexit
    . exact hops ▸ exitsOnce_of_refused hpre hrefused

theorem not_exitsOnce_afterCexit
    : ((run (Logged.step ⟨fun _ => 0, fun _ _ => []⟩ 8) {}
          [.register ⟨.ATEXIT_FUNC, 0x100⟩, .cexit]).bind
        fun l => (l.exitLoop ⟨fun _ => 0, fun _ _ => []⟩ 8).map Logged.log).toOption
        = some [.registered ⟨.ATEXIT_FUNC, 0x100⟩ 0, .called ⟨.ATEXIT_FUNC, 0x100⟩,
            .called ⟨.ATEXIT_FUNC, 0x100⟩]
      ∧ ¬ ExitsOnce ⟨fun _ => 0, fun _ _ => []⟩ [.register ⟨.ATEXIT_FUNC, 0x100⟩, .cexit] := by
  -- the C library still has the handler that `_cexit` has called
  refine ⟨by decide, ?_⟩
  intro h
  obtain ⟨pre, hops, _, hrefused⟩ := refused_of_exitsOnce (by simp) h
  have hlen := congrArg List.length hops
  simp only [List.length_cons, List.length_nil, List.length_append] at hlen
  exact hrefused 0 (by omega) rfl

end Process
end Dosix
