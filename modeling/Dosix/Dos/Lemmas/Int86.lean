import Dosix.Dos.Impl.Interrupt
import Dosix.Transition.Basic

/-!
This module contains the comparison of the two functions by which a C program raises an interrupt,
`_intr` and `_int86x`. Both load the registers and call the handler, but only `_int86x` stores the
registers that the handler leaves, and `_doserrno`.
-/

namespace Dosix

open Transition

variable {σ : Type}

structure Registers where
  ax : BitVec 64 := 0
  bx : BitVec 64 := 0
  cx : BitVec 64 := 0
  dx : BitVec 64 := 0
  si : BitVec 64 := 0
  di : BitVec 64 := 0
  ds : BitVec 64 := 0
  es : BitVec 64 := 0
  flags : BitVec 64 := 0
  deriving Repr, DecidableEq

def Registers.regpack (v : Registers) (bp : BitVec 64) : Regpack :=
  { ax := v.ax, bx := v.bx, cx := v.cx, dx := v.dx, bp := bp, si := v.si, di := v.di, ds := v.ds,
    es := v.es, flags := v.flags }

def Registers.regs (v : Registers) : Regs :=
  { ax := v.ax, bx := v.bx, cx := v.cx, dx := v.dx, si := v.si, di := v.di, cflag := v.flags }

def Registers.sregs (v : Registers) : Sregs :=
  { es := v.es, ds := v.ds }

def Registers.cpu (v : Registers) (bp : BitVec 64) : Cpu :=
  { ax := v.ax, bx := v.bx, cx := v.cx, dx := v.dx, bp := bp, si := v.si, di := v.di, ds := v.ds,
    es := v.es, flags := v.flags }

def Cpu.registers (cpu : Cpu) : Registers :=
  { ax := cpu.ax, bx := cpu.bx, cx := cpu.cx, dx := cpu.dx, si := cpu.si, di := cpu.di, ds := cpu.ds,
    es := cpu.es, flags := cpu.flags }

def Regpack.registers (x : Regpack) : Registers :=
  { ax := x.ax, bx := x.bx, cx := x.cx, dx := x.dx, si := x.si, di := x.di, ds := x.ds, es := x.es,
    flags := x.flags }

def Regs.registers (x : Regs) (sregs : Sregs) : Registers :=
  { ax := x.ax, bx := x.bx, cx := x.cx, dx := x.dx, si := x.si, di := x.di, ds := sregs.ds,
    es := sregs.es, flags := x.cflag }

def Int86x.registers (r : Int86x) : Option Registers :=
  match r.outregs, r.segregs with
  | some outregs, some segregs => some (outregs.registers segregs)
  | _, _ => none

def storeDoserrno (cpu : Cpu) (s : Dos σ) : Dos σ :=
  if cpu.flags ≠ 0 then s.setDoserrno (cpu.ax.setWidth 32) else s

section

variable (code : Addr → Syscall σ) (intnum : BitVec 32) (v : Registers) (bp : BitVec 64) (s : Dos σ)

/--
Both functions leave the same registers and the same state, or end in the same way.
-/
def IntrAgrees : Prop :=
  (dosixIntr code intnum (some (v.regpack bp)) s).map
      (fun p => (p.1.map Regpack.registers, p.2))
    = (dosixInt86x code intnum (some v.regs) true (some v.sregs) s).map
      (fun p => (p.1.registers, p.2))

theorem dosixIntr_eq
    : (dosixIntr code intnum (some (v.regpack bp)) s).map (fun p => (p.1.map Regpack.registers, p.2))
        = (interrupt code (intnum.setWidth 8) (v.cpu bp) s).map fun p => (some v, p.2) := by
  change Except.map _ (interrupt code (intnum.setWidth 8) (v.cpu bp) s >>= _) = _
  cases interrupt code (intnum.setWidth 8) (v.cpu bp) s with
  | error f => rfl
  | ok p => rfl

theorem dosixInt86x_eq
    : (dosixInt86x code intnum (some v.regs) true (some v.sregs) s).map
          (fun p => (p.1.registers, p.2))
        = (interrupt code (intnum.setWidth 8) (v.cpu 0) s).map
          fun p => (some p.1.registers, storeDoserrno p.1 p.2) := by
  change Except.map _ (interrupt code (intnum.setWidth 8) (v.cpu 0) s >>= _) = _
  cases interrupt code (intnum.setWidth 8) (v.cpu 0) s with
  | error f => rfl
  | ok p =>
    unfold storeDoserrno
    simp [bind, Except.bind, pure, Except.pure, Except.map, Int86x.registers, Cpu.registers,
      Regs.registers]

/--
The handler, if it returns at all, leaves the registers as it has found them. Neither does it look
at `bp`, and where the carry flag is set it stores `_doserrno` on its own.
-/
structure Transparent : Prop where
  registers : Meets (fun p => p.1.registers = v) (fun _ => True)
    (interrupt code (intnum.setWidth 8) (v.cpu 0) s)
  state : (interrupt code (intnum.setWidth 8) (v.cpu bp) s).map (fun p => p.2)
    = (interrupt code (intnum.setWidth 8) (v.cpu 0) s).map fun p => storeDoserrno p.1 p.2

theorem storeDoserrno_eq_iff (cpu : Cpu)
    : s = storeDoserrno cpu s ↔ (cpu.flags ≠ 0 → s.doserrno = cpu.ax.setWidth 32) := by
  unfold storeDoserrno
  split
  . next h =>
    simp only [h, not_false_eq_true, forall_const, ne_eq]
    constructor
    . intro heq
      exact congrArg Dos.doserrno heq
    . intro heq
      rw [← heq]
      rfl
  . next h => exact iff_of_true rfl fun hflags => absurd hflags h

theorem transparent_zero_iff
    : Transparent code intnum v 0 s
        ↔ Meets (fun p => p.1.registers = v ∧ (v.flags ≠ 0 → p.2.doserrno = v.ax.setWidth 32))
          (fun _ => True) (interrupt code (intnum.setWidth 8) (v.cpu 0) s) := by
  constructor
  . intro ⟨hregisters, hstate⟩
    cases hrun : interrupt code (intnum.setWidth 8) (v.cpu 0) s with
    | error f => trivial
    | ok p =>
      rw [hrun] at hregisters hstate
      injection hstate with hstate
      refine ⟨hregisters, ?_⟩
      obtain rfl : p.1.registers = v := hregisters
      exact (storeDoserrno_eq_iff p.2 p.1).mp hstate
  . intro h
    cases hrun : interrupt code (intnum.setWidth 8) (v.cpu 0) s with
    | error f => exact ⟨by rw [hrun]; trivial, by rw [hrun]; rfl⟩
    | ok p =>
      rw [hrun] at h
      obtain ⟨rfl, hstate⟩ := h
      refine ⟨by rw [hrun]; rfl, ?_⟩
      rw [hrun]
      exact congrArg Except.ok ((storeDoserrno_eq_iff p.2 p.1).mpr hstate)

theorem intrAgrees_iff : IntrAgrees code intnum v bp s ↔ Transparent code intnum v bp s := by
  unfold IntrAgrees
  rw [dosixIntr_eq, dosixInt86x_eq]
  constructor
  . intro h
    cases hintr : interrupt code (intnum.setWidth 8) (v.cpu bp) s
    all_goals
      cases hint86x : interrupt code (intnum.setWidth 8) (v.cpu 0) s
      all_goals
        rw [hintr, hint86x] at h
        simp only [Except.map, reduceCtorEq, Except.error.injEq, Except.ok.injEq, Prod.mk.injEq,
          Option.some.injEq] at h
    . exact ⟨by rw [hint86x]; trivial, by rw [hintr, hint86x, h]; rfl⟩
    . exact ⟨by rw [hint86x]; exact h.1.symm, by rw [hintr, hint86x]; exact congrArg _ h.2⟩
  . intro ⟨hregisters, hstate⟩
    cases hintr : interrupt code (intnum.setWidth 8) (v.cpu bp) s
    all_goals
      cases hint86x : interrupt code (intnum.setWidth 8) (v.cpu 0) s
      all_goals
        rw [hint86x] at hregisters
        rw [hintr, hint86x] at hstate
        simp only [Except.map, reduceCtorEq, Except.error.injEq, Except.ok.injEq] at hstate
    . rw [hstate]
      rfl
    . obtain rfl := hregisters
      exact congrArg (fun t => Except.ok (some _, t)) hstate

end

theorem IntrAgrees.registers {code : Addr → Syscall σ} {intnum : BitVec 32} {v : Registers}
    {bp : BitVec 64} {s : Dos σ} (h : IntrAgrees code intnum v bp s)
    : ((dosixIntr code intnum (some (v.regpack bp)) s).map fun p => p.1.map Regpack.registers)
        = (dosixInt86x code intnum (some v.regs) true (some v.sregs) s).map
          fun p => p.1.registers := by
  have := congrArg (Except.map Prod.fst) h
  cases hintr : dosixIntr code intnum (some (v.regpack bp)) s
  all_goals
    cases hint86x : dosixInt86x code intnum (some v.regs) true (some v.sregs) s
    all_goals
      rw [hintr, hint86x] at this
      exact this

def services : Addr → Syscall Unit :=
  fun _ => int21MainDosApi default

def installed : Dos Unit :=
  { os := (), intVect := fun n => if n = 0x21 then 0x1000 else 0 }

theorem intrAgrees_iff_setDtaAddr
    : IntrAgrees services 0x21 { ax := 0x1a00, dx := 0x100 } 0 installed := by
  rw [intrAgrees_iff, transparent_zero_iff]
  exact ⟨by decide +kernel, by decide +kernel⟩

theorem not_intrAgrees_getvect
    : ((dosixIntr services 0x21 (some (Registers.regpack { ax := 0x3521 } 0)) installed).map
          fun p => p.1.map Regpack.registers) = .ok (some { ax := 0x3521 })
      ∧ ((dosixInt86x services 0x21 (some (Registers.regs { ax := 0x3521 })) true
          (some (Registers.sregs { ax := 0x3521 })) installed).map fun p => p.1.registers)
          = .ok (some { ax := 0x3521, bx := 0x1000 })
      ∧ ¬ IntrAgrees services 0x21 { ax := 0x3521 } 0 installed := by
  -- the vector that `AH=35h` has in `BX` is lost on the way to the program
  have hintr : ((dosixIntr services 0x21 (some (Registers.regpack { ax := 0x3521 } 0)) installed).map
      fun p => p.1.map Regpack.registers) = .ok (some { ax := 0x3521 }) := by
    decide +kernel
  have hint86x : ((dosixInt86x services 0x21 (some (Registers.regs { ax := 0x3521 })) true
      (some (Registers.sregs { ax := 0x3521 })) installed).map fun p => p.1.registers)
      = .ok (some { ax := 0x3521, bx := 0x1000 }) := by
    decide +kernel
  refine ⟨hintr, hint86x, ?_⟩
  intro h
  have := h.registers
  rw [hintr, hint86x] at this
  exact absurd this (by decide)

end Dosix
