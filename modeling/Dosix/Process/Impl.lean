import Dosix.Libc.Basic

/-!
This module contains the stack of exit handlers that `stdlib.c` and `process.c` share: the functions
that register a handler, `_cexit`, which calls them, and `exit`, which leaves that to the C library.
-/

namespace Dosix
namespace Process

def EXIT_CLEANUP_STACK_SIZE : Nat := 32

inductive CleanupType where
  | ATEXIT_FUNC
  | FATEXIT_FUNC
  | ONEXIT_FUNC
  | FONEXIT_FUNC
  deriving Repr, DecidableEq

structure ExitCleanupEntry where
  type : CleanupType := .ATEXIT_FUNC
  func : Addr := 0
  deriving Repr, DecidableEq

structure Cleanup where
  -- `exit_cleanup_stack`
  stack : Vector ExitCleanupEntry EXIT_CLEANUP_STACK_SIZE := Vector.replicate _ {}
  -- `exit_cleanup_stack_top`
  top : Size := 0
  -- how often the `atexit` of the C library has been called, and what it has registered
  atexits : Nat := 0
  registered : List ExitCleanupEntry := []
  -- the handlers that `_cexit` has called, in this order
  calls : List ExitCleanupEntry := []
  deriving DecidableEq

/--
What the two files do not decide: what the `atexit` of the C library returns each time that it is
called, and what a handler registers when it is called after other handlers.
-/
structure Environment where
  atexit : Nat → Int
  body : List ExitCleanupEntry → ExitCleanupEntry → List ExitCleanupEntry

def registerCleanup (env : Environment) (entry : ExitCleanupEntry) (s : Cleanup)
    : Except Fault (Int × Cleanup) :=
  if s.top.toNat ≤ EXIT_CLEANUP_STACK_SIZE then
    if s.top.toNat = EXIT_CLEANUP_STACK_SIZE then
      .ok (1, s)
    else
      let ret := env.atexit s.atexits
      let s := { s with atexits := s.atexits + 1 }
      if ret ≠ 0 then
        .ok (ret, s)
      else
        let s := { s with registered := entry :: s.registered }
        if h : s.top.toNat < EXIT_CLEANUP_STACK_SIZE then
          .ok (0, { s with stack := s.stack.set s.top.toNat entry h, top := s.top + 1 })
        else
          .error .undefined
  else
    .error .assertion

def dosixAtexit (env : Environment) (func : Addr) (s : Cleanup) : Except Fault (Int × Cleanup) :=
  registerCleanup env ⟨.ATEXIT_FUNC, func⟩ s

def fatexit (env : Environment) (func : Addr) (s : Cleanup) : Except Fault (Int × Cleanup) :=
  registerCleanup env ⟨.FATEXIT_FUNC, func⟩ s

def onexit (env : Environment) (func : Addr) (s : Cleanup) : Except Fault (Addr × Cleanup) := do
  let (ret, s) ← registerCleanup env ⟨.ONEXIT_FUNC, func⟩ s
  return (if ret = 0 then func else 0, s)

def fonexit (env : Environment) (func : Addr) (s : Cleanup) : Except Fault (Addr × Cleanup) := do
  let (ret, s) ← registerCleanup env ⟨.FONEXIT_FUNC, func⟩ s
  return (if ret = 0 then func else 0, s)

def registerAll (env : Environment) (entries : List ExitCleanupEntry) (s : Cleanup)
    : Except Fault Cleanup :=
  match entries with
  | [] => .ok s
  | entry :: entries =>
    match registerCleanup env entry s with
    | .error f => .error f
    | .ok (_, s) => registerAll env entries s

def callHandler (env : Environment) (ce : ExitCleanupEntry) (s : Cleanup) : Except Fault Cleanup :=
  registerAll env (env.body s.calls ce) { s with calls := s.calls ++ [ce] }

/--
The loop of `_dosix__cexit`, followed for `fuel` tests. A test decrements the top in any case.
-/
def cexitLoop (env : Environment) (fuel : Nat) (s : Cleanup) : Except Fault Cleanup :=
  match fuel with
  | 0 => .error .unfinished
  | fuel + 1 =>
    let top := s.top
    let s := { s with top := s.top - 1 }
    if 0 < top then
      if h : s.top.toNat < EXIT_CLEANUP_STACK_SIZE then
        match callHandler env (s.stack.get ⟨s.top.toNat, h⟩) s with
        | .error f => .error f
        | .ok s => cexitLoop env fuel s
      else
        .error .undefined
    else
      .ok s

def dosixCexit (env : Environment) (fuel : Nat) (s : Cleanup) : Except Fault Cleanup :=
  -- closing the streams does not touch the stack
  cexitLoop env fuel s

/--
What the `exit` of the C library does: it calls what `atexit` has registered, and so also what these
functions register in their turn, the last one first.
-/
def exitLoop (env : Environment) (fuel : Nat) (s : Cleanup) : Except Fault Cleanup :=
  match fuel with
  | 0 => .error .unfinished
  | fuel + 1 =>
    match s.registered with
    | [] => .ok s
    | ce :: registered =>
      match callHandler env ce { s with registered := registered } with
      | .error f => .error f
      | .ok s => exitLoop env fuel s

def dosixExit (env : Environment) (fuel : Nat) (s : Cleanup) : Except Fault Cleanup :=
  exitLoop env fuel s

end Process
end Dosix
