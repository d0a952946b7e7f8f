import Dosix.Dos.Lemmas.Find
import Dosix.Footprint.Basic

/-!
This module contains the parts of the state of `dos.c` and the registers, with those that a service
of INT 21h may change.
-/

namespace Dosix

open Footprint Transition

variable {σ α : Type}

/-! The parts. -/

inductive Part where
  | blocks
  -- the search on the object at an address
  | search (a : Addr)
  | dta
  | vectors
  | pushback
  deriving DecidableEq

namespace Part

abbrev Value (p : Part) : Type :=
  match p with
  | .blocks => SearchTree Addr × (Addr → Option AllocMem) × (Addr → Option Size)
  | .search _ => FindT
  | .dta => Addr
  | .vectors => Nat → Addr
  | .pushback => Bool × BitVec 8

def view (p : Part) (s : Dos σ) : p.Value :=
  match p with
  | .blocks => (s.allocmemTree, s.allocmem, s.mappings)
  | .search a => s.findT a
  | .dta => s.currentDta
  | .vectors => s.intVect
  | .pushback => (s.ungetchFull, s.ungetchChar)

end Part

namespace Dos

/--
From `s` to `t` only the system, the error and these parts have changed.
-/
abbrev Within (parts : List Part) (s t : Dos σ) : Prop :=
  Footprint.Within Part.view parts s t

variable {parts : List Part} {s t : Dos σ}

theorem Quiet.within (h : s.Quiet t) : s.Within parts t := by
  intro p _
  cases p with
  | blocks =>
    unfold Part.view
    rw [h.allocmemTree, h.allocmem, h.mappings]
  | search a => exact congrFun h.findT a
  | dta => exact h.currentDta
  | vectors => exact h.intVect
  | pushback =>
    unfold Part.view
    rw [h.ungetchFull, h.ungetchChar]

theorem within_allocmemTree (s : Dos σ) (tree : SearchTree Addr)
    : s.Within [.blocks] (s.setAllocmemTree tree) := by
  intro p hp
  cases p
  case blocks => simp at hp
  all_goals rfl

theorem within_allocmem (s : Dos σ) (allocmem : Addr → Option AllocMem)
    : s.Within [.blocks] (s.setAllocmem allocmem) := by
  intro p hp
  cases p
  case blocks => simp at hp
  all_goals rfl

theorem within_mappings (s : Dos σ) (mappings : Addr → Option Size)
    : s.Within [.blocks] (s.setMappings mappings) := by
  intro p hp
  cases p
  case blocks => simp at hp
  all_goals rfl

theorem within_modifyFindT (s : Dos σ) (a : Addr) (f : FindT → FindT)
    : s.Within [.search a] (s.modifyFindT a f) := by
  intro p hp
  cases p
  case search b =>
    have hne : b ≠ a := by
      rintro rfl
      simp at hp
    exact if_neg hne
  all_goals rfl

theorem within_currentDta (s : Dos σ) (a : Addr) : s.Within [.dta] (s.setCurrentDta a) := by
  intro p hp
  cases p
  case dta => simp at hp
  all_goals rfl

theorem within_intVect (s : Dos σ) (v : Nat → Addr) : s.Within [.vectors] (s.setIntVect v) := by
  intro p hp
  cases p
  case vectors => simp at hp
  all_goals rfl

theorem within_ungetchFull (s : Dos σ) (full : Bool)
    : s.Within [.pushback] (s.setUngetchFull full) := by
  intro p hp
  cases p
  case pushback => simp at hp
  all_goals rfl

theorem within_ungetchChar (s : Dos σ) (c : BitVec 8)
    : s.Within [.pushback] (s.setUngetchChar c) := by
  intro p hp
  cases p
  case pushback => simp at hp
  all_goals rfl

end Dos

/--
Where the function returns, it has changed no other parts than these.
-/
def Confined (parts : List Part) (s : Dos σ) (state : α → Dos σ) (x : Except Fault α) : Prop :=
  Meets (fun a => s.Within parts (state a)) (fun _ => True) x

namespace Confined

variable {parts : List Part} {s t : Dos σ} {state : α → Dos σ} {x : Except Fault α}

theorem of_quiet {q : Fault → Prop} (h : Meets (fun a => s.Quiet (state a)) q x)
    : Confined parts s state x :=
  h.mono (fun _ ha => ha.within) fun _ _ => trivial

theorem after (hst : s.Within parts t) (h : Confined parts t state x) : Confined parts s state x :=
  h.imp fun _ ha => hst.trans ha

end Confined

/-! The registers. -/

inductive Reg where
  | ax | bx | cx | dx | si | di | bp | sp | ip | cs | ds | es | ss | flags
  deriving DecidableEq

def Reg.view (r : Reg) (cpu : Cpu) : BitVec 64 :=
  match r with
  | .ax => cpu.ax
  | .bx => cpu.bx
  | .cx => cpu.cx
  | .dx => cpu.dx
  | .si => cpu.si
  | .di => cpu.di
  | .bp => cpu.bp
  | .sp => cpu.sp
  | .ip => cpu.ip
  | .cs => cpu.cs
  | .ds => cpu.ds
  | .es => cpu.es
  | .ss => cpu.ss
  | .flags => cpu.flags

def Reg.set (r : Reg) (x : BitVec 64) (cpu : Cpu) : Cpu :=
  match r with
  | .ax => { cpu with ax := x }
  | .bx => { cpu with bx := x }
  | .cx => { cpu with cx := x }
  | .dx => { cpu with dx := x }
  | .si => { cpu with si := x }
  | .di => { cpu with di := x }
  | .bp => { cpu with bp := x }
  | .sp => { cpu with sp := x }
  | .ip => { cpu with ip := x }
  | .cs => { cpu with cs := x }
  | .ds => { cpu with ds := x }
  | .es => { cpu with es := x }
  | .ss => { cpu with ss := x }
  | .flags => { cpu with flags := x }

theorem Reg.view_set_other {q r : Reg} (h : q ≠ r) {x : BitVec 64} {cpu : Cpu}
    : q.view (r.set x cpu) = q.view cpu := by
  cases r
  all_goals
    cases q
    any_goals rfl
    exact absurd rfl h

/--
From `cpu` to `cpu'` only these registers have changed.
-/
abbrev Cpu.Within (regs : List Reg) (cpu cpu' : Cpu) : Prop :=
  Footprint.Within Reg.view regs cpu cpu'

/-! The services of INT 21h, by `ah` and `al`. -/

/--
The registers that a service may write to.
-/
def written (ah : BitVec 56) (al : BitVec 8) : List Reg :=
  if ah = INT21_AH_FILE_METADATA then
    if al = INT21_AL_FILE_METADATA_GETFILEATTR then [.ax, .cx, .flags] else [.ax, .flags]
  else if ah = INT21_AH_FILE_TIME then
    if al = INT21_AL_FILE_TIME_GETFTIME then [.ax, .cx, .dx, .flags] else [.ax, .flags]
  else if ah = INT21_AH_GETCHE ∨ ah = INT21_AH_PUTCH ∨ ah = INT21_AH_GETCH ∨
      ah = INT21_AH_WRITE_STDOUT ∨ ah = INT21_AH_SETDATE ∨ ah = INT21_AH_SETTIME then
    [.ax]
  else if ah = INT21_AH_SET_DTA_ADDR ∨ ah = INT21_AH_SETVECT then
    []
  else if ah = INT21_AH_GETDATE then
    [.ax, .cx, .dx]
  else if ah = INT21_AH_GETTIME then
    [.cx, .dx]
  else if ah = INT21_AH_GET_DTA_ADDR ∨ ah = INT21_AH_GETVECT then
    [.bx, .es]
  else if ah = INT21_AH_ALLOCMEM ∨ ah = INT21_AH_SETBLOCK then
    [.ax, .bx, .flags]
  else if ah = INT21_AH_EXTERR then
    [.ax, .bx, .cx, .di, .es]
  else
    [.ax, .flags]

/--
The parts of the state that a service may change, where this is the DTA.
-/
def changed (dta : Addr) (ah : BitVec 56) : List Part :=
  if ah = INT21_AH_GETCHE ∨ ah = INT21_AH_GETCH then
    [.pushback]
  else if ah = INT21_AH_SET_DTA_ADDR then
    [.dta]
  else if ah = INT21_AH_SETVECT then
    [.vectors]
  else if ah = INT21_AH_ALLOCMEM ∨ ah = INT21_AH_FREEMEM ∨ ah = INT21_AH_SETBLOCK then
    [.blocks]
  else if ah = INT21_AH_FINDFIRST ∨ ah = INT21_AH_FINDNEXT then
    [.search dta]
  else
    []

end Dosix
