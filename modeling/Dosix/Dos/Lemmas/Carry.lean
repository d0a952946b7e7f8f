import Dosix.Dos.Lemmas.ExtErrAgree
import Dosix.Dos.Lemmas.Int86

/-!
This module contains the carry flag: which services set it, and what the functions by which a
program raises INT 21h make of it.
-/

namespace Dosix

open Transition

variable {σ : Type}

def Cpu.withFlags (cpu : Cpu) (flags : BitVec 64) : Cpu :=
  { cpu with flags := flags }

@[simp]
theorem Cpu.withFlags_ah (cpu : Cpu) (flags : BitVec 64) : (cpu.withFlags flags).ah = cpu.ah := rfl

/-! The services. -/

/--
The service is one of those that return a DOS error code.
-/
def DosService.Carries (d : DosService) : Prop := d ≠ .setdate ∧ d ≠ .settime

instance (d : DosService) : Decidable d.Carries :=
  inferInstanceAs (Decidable (_ ∧ _))

def SetsFlags (f : Syscall σ) : Prop :=
  ∀ cpu flags s, f (cpu.withFlags flags) s = f cpu s

/--
The flags are neither looked at nor changed.
-/
def LeavesFlags (f : Syscall σ) : Prop :=
  ∀ cpu flags s, f (cpu.withFlags flags) s = (f cpu s).map fun p => (p.1.withFlags flags, p.2)

def carryServices : List (BitVec 56) :=
  [INT21_AH_CREAT, INT21_AH_OPEN, INT21_AH_CLOSE, INT21_AH_FILE_METADATA, INT21_AH_ALLOCMEM,
    INT21_AH_FREEMEM, INT21_AH_SETBLOCK, INT21_AH_FINDFIRST, INT21_AH_FINDNEXT, INT21_AH_FILE_TIME,
    INT21_AH_CREATNEW]

theorem bind_withFlags {x : Except Fault α} {f g : α → Except Fault (Cpu × Dos σ)}
    {flags : BitVec 64} (h : ∀ a, f a = (g a).map fun p => (p.1.withFlags flags, p.2))
    : (x >>= f) = (x >>= g).map fun p => (p.1.withFlags flags, p.2) := by
  cases x with
  | error e => rfl
  | ok a => exact h a

theorem leavesFlags_exterr (px : Posix σ) : LeavesFlags (cpuExterr px) := by
  intro cpu flags s
  apply bind_withFlags
  intro _
  apply bind_withFlags
  intro _
  apply bind_withFlags
  intro _
  apply bind_withFlags
  intro r
  dsimp only
  split <;> rfl

/--
Whether the service, if there is one, sets the flags can be told from `AH`.
-/
def FlagsByAh (ah : BitVec 56) (service : Option (Syscall σ)) : Prop :=
  ∀ f, service = some f → if ah ∈ carryServices then SetsFlags f else LeavesFlags f

namespace FlagsByAh

variable {ah : BitVec 56} {f : Syscall σ} {x y : Option (Syscall σ)} {p : Prop} [Decidable p]

theorem none : FlagsByAh (σ := σ) ah none := by
  intro f hf
  cases hf

theorem sets (hah : ah ∈ carryServices) (hf : SetsFlags f) : FlagsByAh ah (some f) := by
  rintro _ ⟨⟩
  rwa [if_pos hah]

theorem leaves (hah : ah ∉ carryServices) (hf : LeavesFlags f) : FlagsByAh ah (some f) := by
  rintro _ ⟨⟩
  rwa [if_neg hah]

theorem ite (hx : FlagsByAh ah x) (hy : FlagsByAh ah y) : FlagsByAh ah (if p then x else y) := by
  split
  . exact hx
  . exact hy

theorem case (n : BitVec 56) (hx : FlagsByAh n x) (hy : FlagsByAh ah y)
    : FlagsByAh ah (if ah = n then x else y) := by
  split
  . next h => exact h ▸ hx
  . exact hy

end FlagsByAh

theorem int21Service_flags (px : Posix σ) (cpu : Cpu)
    : FlagsByAh cpu.ah (int21Service px cpu) := by
  unfold int21Service
  -- the cases are those of the switch, in its order
  refine .case INT21_AH_FILE_METADATA (.ite (.sets (by decide) fun _ _ _ => rfl)
    (.ite (.sets (by decide) fun _ _ _ => rfl) .none)) ?_
  refine .case INT21_AH_FILE_TIME (.ite (.sets (by decide) fun _ _ _ => rfl)
    (.ite (.sets (by decide) fun _ _ _ => rfl) .none)) ?_
  refine .case INT21_AH_GETCHE (.leaves (by decide) fun _ _ _ => bind_withFlags fun _ => rfl) ?_
  refine .case INT21_AH_PUTCH (.leaves (by decide) fun _ _ _ => bind_withFlags fun _ => rfl) ?_
  refine .case INT21_AH_GETCH (.leaves (by decide) fun _ _ _ => bind_withFlags fun _ => rfl) ?_
  refine .case INT21_AH_WRITE_STDOUT
    (.leaves (by decide) fun _ _ _ => bind_withFlags fun _ => rfl) ?_
  refine .case INT21_AH_SET_DTA_ADDR
    (.leaves (by decide) fun _ _ _ => bind_withFlags fun _ => rfl) ?_
  refine .case INT21_AH_SETVECT (.leaves (by decide) fun _ _ _ =>
    bind_withFlags fun _ => bind_withFlags fun _ => rfl) ?_
  refine .case INT21_AH_GETDATE (.leaves (by decide) fun _ _ _ => bind_withFlags fun _ => rfl) ?_
  refine .case INT21_AH_SETDATE (.leaves (by decide) fun _ _ _ =>
    bind_withFlags fun _ => bind_withFlags fun _ => rfl) ?_
  refine .case INT21_AH_GETTIME (.leaves (by decide) fun _ _ _ => bind_withFlags fun _ => rfl) ?_
  refine .case INT21_AH_SETTIME (.leaves (by decide) fun _ _ _ =>
    bind_withFlags fun _ => bind_withFlags fun _ => rfl) ?_
  refine .case INT21_AH_GET_DTA_ADDR
    (.leaves (by decide) fun _ _ _ => bind_withFlags fun _ => rfl) ?_
  refine .case INT21_AH_GETVECT (.leaves (by decide) fun _ _ _ =>
    bind_withFlags fun _ => bind_withFlags fun _ => rfl) ?_
  refine .case INT21_AH_CREAT (.sets (by decide) fun _ _ _ => rfl) ?_
  refine .case INT21_AH_OPEN (.sets (by decide) fun _ _ _ => rfl) ?_
  refine .case INT21_AH_CLOSE (.sets (by decide) fun _ _ _ => rfl) ?_
  refine .case INT21_AH_ALLOCMEM (.sets (by decide) fun _ _ _ => rfl) ?_
  refine .case INT21_AH_FREEMEM (.sets (by decide) fun _ _ _ => rfl) ?_
  refine .case INT21_AH_SETBLOCK (.sets (by decide) fun _ _ _ => rfl) ?_
  refine .case INT21_AH_FINDFIRST (.sets (by decide) fun _ _ _ => rfl) ?_
  refine .case INT21_AH_FINDNEXT (.sets (by decide) fun _ _ _ => rfl) ?_
  refine .case INT21_AH_EXTERR (.ite (.leaves (by decide) (leavesFlags_exterr px)) .none) ?_
  exact .case INT21_AH_CREATNEW (.sets (by decide) fun _ _ _ => rfl) .none

theorem int21_withFlags (px : Posix σ) (cpu : Cpu) (flags : BitVec 64) (s : Dos σ)
    : int21MainDosApi px (cpu.withFlags flags) s
        = (int21MainDosApi px cpu s).map fun p =>
          (if cpu.ah ∈ carryServices then p.1 else p.1.withFlags flags, p.2) := by
  have hsame : int21Service px (cpu.withFlags flags) = int21Service px cpu := rfl
  unfold int21MainDosApi
  rw [hsame]
  cases hservice : int21Service px cpu with
  | none => rfl
  | some f =>
    have hflags := int21Service_flags px cpu f hservice
    unfold callSyscall
    dsimp only
    split at hflags
    . next hah =>
      rw [hflags]
      simp only [hah, if_true]
      cases f cpu s <;> rfl
    . next hah =>
      rw [hflags]
      simp only [hah, if_false]

section

variable {px : Posix σ} {cpu cpu' : Cpu} {s s' : Dos σ}

theorem int21_flags (h : int21MainDosApi px cpu s = .ok (cpu', s'))
    (hah : cpu.ah ∉ carryServices) : cpu'.flags = cpu.flags := by
  have hsame := int21_withFlags px cpu cpu.flags s
  change int21MainDosApi px cpu s = _ at hsame
  rw [h] at hsame
  simp only [Except.map, hah, if_false, Except.ok.injEq, Prod.mk.injEq, and_true] at hsame
  rw [hsame]
  rfl

namespace DosService

theorem ah_of_selected {d : DosService} (hd : d.Carries) (h : d.Selected cpu)
    : cpu.ah ∈ carryServices := by
  unfold Selected at h
  cases d with
  | file f =>
    unfold FileService.Selected at h
    cases f with
    | creat => exact h ▸ (by decide)
    | creatnew => exact h ▸ (by decide)
    | openFile => exact h ▸ (by decide)
    | close => exact h ▸ (by decide)
    | getfileattr => exact h.1 ▸ (by decide)
    | setfileattr => exact h.1 ▸ (by decide)
    | getftime => exact h.1 ▸ (by decide)
    | setftime => exact h.1 ▸ (by decide)
  | allocmem => exact h ▸ (by decide)
  | setblock => exact h ▸ (by decide)
  | freemem => exact h ▸ (by decide)
  | setdate => exact absurd rfl hd.1
  | settime => exact absurd rfl hd.2
  | findfirst => exact h ▸ (by decide)
  | findnext => exact h ▸ (by decide)

theorem exists_selected (hok : int21MainDosApi px cpu s = .ok (cpu', s'))
    (hah : cpu.ah ∈ carryServices) : ∃ d : DosService, d.Carries ∧ d.Selected cpu := by
  simp only [carryServices, List.mem_cons, List.not_mem_nil, or_false] at hah
  rcases hah with h | h | h | h | h | h | h | h | h | h | h
  . exact ⟨.file .creat, by decide, h⟩
  . exact ⟨.file .openFile, by decide, h⟩
  . exact ⟨.file .close, by decide, h⟩
  . by_cases hget : cpu.al = INT21_AL_FILE_METADATA_GETFILEATTR
    . exact ⟨.file .getfileattr, by decide, h, hget⟩
    . by_cases hset : cpu.al = INT21_AL_FILE_METADATA_SETFILEATTR
      . exact ⟨.file .setfileattr, by decide, h, hset⟩
      . simp only [int21MainDosApi, int21Service, if_pos h, if_neg hget, if_neg hset] at hok
        cases hok
  . exact ⟨.allocmem, by decide, h⟩
  . exact ⟨.freemem, by decide, h⟩
  . exact ⟨.setblock, by decide, h⟩
  . exact ⟨.findfirst, by decide, h⟩
  . exact ⟨.findnext, by decide, h⟩
  . by_cases hget : cpu.al = INT21_AL_FILE_TIME_GETFTIME
    . exact ⟨.file .getftime, by decide, h, hget⟩
    . by_cases hset : cpu.al = INT21_AL_FILE_TIME_SETFTIME
      . exact ⟨.file .setftime, by decide, h, hset⟩
      . have hne : cpu.ah ≠ INT21_AH_FILE_METADATA := h ▸ (by decide)
        simp only [int21MainDosApi, int21Service, if_pos h, if_neg hne, if_neg hget, if_neg hset]
          at hok
        cases hok
  . exact ⟨.file .creatnew, by decide, h⟩

theorem signals_iff {d : DosService} (hd : d.Carries) (code : BitVec 32) (cpu : Cpu)
    : d.Signals code cpu ↔ cpu.flags = (if code ≠ 0 then 1 else 0)
        ∧ (code ≠ 0 → cpu.ax = code.setWidth 64) := by
  cases d with
  | setdate => exact absurd rfl hd.1
  | settime => exact absurd rfl hd.2
  | _ => rfl

end DosService

/--
The service fails and returns this DOS error code in `AX`.
-/
def Fails (px : Posix σ) (cpu : Cpu) (s : Dos σ) (code : BitVec 32) : Prop :=
  code ≠ 0 ∧ ∃ d : DosService, d.Carries ∧ d.Selected cpu
    ∧ ∃ r, d.call px cpu s = .ok r ∧ r.code = code

theorem Fails.ah {code : BitVec 32} (h : Fails px cpu s code) : cpu.ah ∈ carryServices := by
  obtain ⟨_, d, hd, hselected, _⟩ := h
  exact DosService.ah_of_selected hd hselected

theorem flags_of_fails {code : BitVec 32} (hok : int21MainDosApi px cpu s = .ok (cpu', s'))
    (h : Fails px cpu s code) : cpu'.flags ≠ 0 ∧ cpu'.ax = code.setWidth 64 := by
  obtain ⟨hcode, d, hd, hselected, r, hr, rfl⟩ := h
  obtain ⟨r', hr', _, hsignals⟩ := (DosService.serves hselected).of_ok hok
  rw [hr] at hr'
  injection hr' with hr'
  subst hr'
  rw [DosService.signals_iff hd] at hsignals
  refine ⟨?_, hsignals.2 hcode⟩
  rw [hsignals.1, if_pos hcode]
  decide

theorem exists_fails (hok : int21MainDosApi px cpu s = .ok (cpu', s'))
    (hah : cpu.ah ∈ carryServices) (hflags : cpu'.flags ≠ 0) : ∃ code, Fails px cpu s code := by
  obtain ⟨d, hd, hselected⟩ := DosService.exists_selected hok hah
  obtain ⟨r, hr, _, hsignals⟩ := (DosService.serves hselected).of_ok hok
  rw [DosService.signals_iff hd] at hsignals
  refine ⟨r.code, ?_, d, hd, hselected, r, hr, rfl⟩
  intro hcode
  rw [if_neg (not_not_intro hcode)] at hsignals
  exact hflags hsignals.1

end

/-! The register interface. -/

/--
A call that raises INT 21h. For `_bdos`, `uninit` is what its registers hold at first.
-/
inductive RegisterCall where
  -- of the interrupt number only the low byte counts
  | int86x (high : BitVec 24) (inregs : Option Regs) (outregs : Bool) (segregs : Option Sregs)
  | int86 (high : BitVec 24) (inregs : Option Regs) (outregs : Bool)
  | intdosx (inregs : Option Regs) (outregs : Bool) (segregs : Option Sregs)
  | intdos (inregs : Option Regs) (outregs : Bool)
  | bdos (uninit : Regs) (dosfunc dosdx dosal : BitVec 32)

namespace RegisterCall

/--
The call, which for `_bdos` is the one of `_intdos` in it.
-/
def run (code : Addr → Syscall σ) (call : RegisterCall) (s : Dos σ)
    : Except Fault (Int86x × Dos σ) :=
  match call with
  | .int86x high inregs outregs segregs =>
    dosixInt86x code (high ++ INT21_MAIN_DOS_API) inregs outregs segregs s
  | .int86 high inregs outregs => dosixInt86 code (high ++ INT21_MAIN_DOS_API) inregs outregs s
  | .intdosx inregs outregs segregs => dosixIntdosx code inregs outregs segregs s
  | .intdos inregs outregs => dosixIntdos code inregs outregs s
  | .bdos uninit dosfunc dosdx dosal =>
    dosixIntdos code (some (bdosInregs uninit dosfunc dosdx dosal)) true s

theorem dosixBdos_eq (code : Addr → Syscall σ) (uninit : Regs) (dosfunc dosdx dosal : BitVec 32)
    (s : Dos σ)
    : dosixBdos code uninit dosfunc dosdx dosal s
        = ((bdos uninit dosfunc dosdx dosal).run code s).map fun p => (p.1.ret, p.2) := by
  unfold dosixBdos run
  dsimp only
  cases dosixIntdos code (some (bdosInregs uninit dosfunc dosdx dosal)) true s <;> rfl

def inregs (call : RegisterCall) : Option Regs :=
  match call with
  | .int86x _ inregs _ _ | .int86 _ inregs _ | .intdosx inregs _ _ | .intdos inregs _ => inregs
  | .bdos uninit dosfunc dosdx dosal => some (bdosInregs uninit dosfunc dosdx dosal)

def outregs (call : RegisterCall) : Bool :=
  match call with
  | .int86x _ _ outregs _ | .int86 _ _ outregs | .intdosx _ outregs _ | .intdos _ outregs => outregs
  | .bdos .. => true

def segregs (call : RegisterCall) : Option Sregs :=
  match call with
  | .int86x _ _ _ segregs | .intdosx _ _ segregs => segregs
  | .int86 .. | .intdos .. | .bdos .. => none

def withCarry (call : RegisterCall) (cflag : BitVec 64) : RegisterCall :=
  let set : Regs → Regs := fun x => { x with cflag := cflag }
  match call with
  | .int86x high inregs outregs segregs => .int86x high (inregs.map set) outregs segregs
  | .int86 high inregs outregs => .int86 high (inregs.map set) outregs
  | .intdosx inregs outregs segregs => .intdosx (inregs.map set) outregs segregs
  | .intdos inregs outregs => .intdos (inregs.map set) outregs
  | .bdos uninit dosfunc dosdx dosal => .bdos (set uninit) dosfunc dosdx dosal

end RegisterCall

/--
The registers with which the handler is called.
-/
def loadCpu (inregs : Option Regs) (segregs : Option Sregs) : Cpu :=
  let cpu : Cpu :=
    match inregs with
    | none => {}
    | some x =>
      { ax := x.ax, bx := x.bx, cx := x.cx, dx := x.dx, si := x.si, di := x.di, flags := x.cflag }
  match segregs with
  | none => cpu
  | some x => { cpu with cs := x.cs, ds := x.ds, es := x.es, ss := x.ss }

/--
What the caller gets when the handler has left these registers.
-/
def storeCpu (outregs : Bool) (segregs : Option Sregs) (cpu : Cpu) : Int86x where
  ret := cpu.ax.setWidth 32
  outregs :=
    if outregs then
      some {
        ax := cpu.ax, bx := cpu.bx, cx := cpu.cx, dx := cpu.dx, si := cpu.si, di := cpu.di
        cflag := cpu.flags
      }
    else
      none
  segregs := segregs.map fun _ => { es := cpu.es, cs := cpu.cs, ss := cpu.ss, ds := cpu.ds }

theorem dosixInt86x_interrupt (code : Addr → Syscall σ) (intnum : BitVec 32)
    (inregs : Option Regs) (outregs : Bool) (segregs : Option Sregs) (s : Dos σ)
    : dosixInt86x code intnum inregs outregs segregs s
        = (interrupt code (intnum.setWidth 8) (loadCpu inregs segregs) s).map fun p =>
          (storeCpu outregs segregs p.1, if outregs then storeDoserrno p.1 p.2 else p.2) := by
  change (interrupt code (intnum.setWidth 8) (loadCpu inregs segregs) s >>= _) = _
  cases interrupt code (intnum.setWidth 8) (loadCpu inregs segregs) s with
  | error f => rfl
  | ok p =>
    unfold storeDoserrno
    cases outregs <;> simp [bind, Except.bind, pure, Except.pure, Except.map, storeCpu]

namespace RegisterCall

def cpu (call : RegisterCall) : Cpu := loadCpu call.inregs call.segregs

def carry (call : RegisterCall) : BitVec 64 := call.cpu.flags

theorem outregs_withCarry (call : RegisterCall) (cflag : BitVec 64)
    : (call.withCarry cflag).outregs = call.outregs := by
  cases call <;> rfl

theorem cpu_withCarry (call : RegisterCall) (cflag : BitVec 64)
    : (call.withCarry cflag).cpu = call.cpu.withFlags (call.withCarry cflag).carry := by
  cases call with
  | int86x high inregs outregs segregs => cases inregs <;> cases segregs <;> rfl
  | int86 high inregs outregs => cases inregs <;> rfl
  | intdosx inregs outregs segregs => cases inregs <;> cases segregs <;> rfl
  | intdos inregs outregs => cases inregs <;> rfl
  | bdos uninit dosfunc dosdx dosal => rfl

/--
Interrupt 21h has the handler that is installed by default.
-/
structure Installed (px : Posix σ) (code : Addr → Syscall σ) (s : Dos σ) : Prop where
  vector : s.intVect 0x21 ≠ 0
  handler : code (s.intVect 0x21) = int21MainDosApi px

variable {px : Posix σ} {code : Addr → Syscall σ} {s : Dos σ}

theorem interrupt_installed (h : Installed px code s) (cpu : Cpu)
    : interrupt code INT21_MAIN_DOS_API cpu s = int21MainDosApi px cpu s := by
  have hvect : dosGetvect INT21_MAIN_DOS_API.toNat s = .ok (s.intVect 0x21) := rfl
  unfold interrupt
  rw [hvect]
  dsimp only [bind, Except.bind]
  rw [if_neg h.vector, h.handler]
  rfl

theorem run_eq (h : Installed px code s) (call : RegisterCall)
    : call.run code s = (int21MainDosApi px call.cpu s).map fun p =>
        (storeCpu call.outregs call.segregs p.1,
          if call.outregs then storeDoserrno p.1 p.2 else p.2) := by
  have hintnum : ∀ high : BitVec 24, (high ++ INT21_MAIN_DOS_API).setWidth 8 = INT21_MAIN_DOS_API :=
    fun high => BitVec.setWidth_append_eq_right
  have hdefault : (INT21_MAIN_DOS_API.setWidth 32).setWidth 8 = INT21_MAIN_DOS_API := by decide
  rw [← interrupt_installed h]
  cases call with
  | int86x high inregs outregs segregs =>
    rw [← hintnum high]
    exact dosixInt86x_interrupt code _ inregs outregs segregs s
  | int86 high inregs outregs =>
    rw [← hintnum high]
    exact dosixInt86x_interrupt code _ inregs outregs .none s
  | intdosx inregs outregs segregs =>
    rw [← hdefault]
    exact dosixInt86x_interrupt code _ inregs outregs segregs s
  | intdos inregs outregs =>
    rw [← hdefault]
    exact dosixInt86x_interrupt code _ inregs outregs .none s
  | bdos uninit dosfunc dosdx dosal =>
    rw [← hdefault]
    exact dosixInt86x_interrupt code _ (some (bdosInregs uninit dosfunc dosdx dosal)) true .none s

/-! What is to hold of a call. -/

/--
The carry flag and `_doserrno` tell of an error of the service, and of nothing else.
-/
structure Reflects (px : Posix σ) (call : RegisterCall) (s : Dos σ) (r : Int86x) (s' : Dos σ)
    : Prop where
  carry : ∀ out, r.outregs = some out →
    (out.cflag ≠ 0 ↔ ∃ e, Fails px call.cpu s e ∧ out.ax = e.setWidth 64)
  -- beside what the service does
  changed : ∃ cpu t, int21MainDosApi px call.cpu s = .ok (cpu, t)
    ∧ (s' = t ∨ ∃ e, Fails px call.cpu s e ∧ s' = t.setDoserrno e)
  stored : call.outregs = true → ∀ e, Fails px call.cpu s e → s'.doserrno = e

def CarryReflects (px : Posix σ) (code : Addr → Syscall σ) (call : RegisterCall) (s : Dos σ)
    : Prop :=
  Meets (fun p => Reflects px call s p.1 p.2) (fun _ => True) (call.run code s)

/--
What a caller sees of the carry flag, `AX` and `_doserrno`.
-/
def seen (p : Int86x × Dos σ)
    : BitVec 32 × Option (BitVec 64 × BitVec 64) × BitVec 32 :=
  (p.1.ret, p.1.outregs.map fun out => (out.ax, out.cflag), p.2.doserrno)

def CarryIgnored (code : Addr → Syscall σ) (call : RegisterCall) (cflag : BitVec 64) (s : Dos σ)
    : Prop :=
  (call.run code s).map seen = ((call.withCarry cflag).run code s).map seen

theorem flags_iff {cpu cpu' : Cpu} {s s' : Dos σ}
    (hok : int21MainDosApi px cpu s = .ok (cpu', s'))
    (hclear : cpu.ah ∈ carryServices ∨ cpu.flags = 0)
    : cpu'.flags ≠ 0 ↔ ∃ e, Fails px cpu s e ∧ cpu'.ax = e.setWidth 64 := by
  constructor
  . intro hflags
    have hah : cpu.ah ∈ carryServices := by
      by_contra hah
      rw [int21_flags hok hah] at hflags
      exact hclear.elim hah hflags
    obtain ⟨e, he⟩ := exists_fails hok hah hflags
    exact ⟨e, he, (flags_of_fails hok he).2⟩
  . rintro ⟨e, he, _⟩
    exact (flags_of_fails hok he).1

theorem reflects_of_clear {call : RegisterCall} {cpu : Cpu} {t : Dos σ}
    (hok : int21MainDosApi px call.cpu s = .ok (cpu, t))
    (hclear : call.outregs = false ∨ call.cpu.ah ∈ carryServices ∨ call.carry = 0)
    : Reflects px call s (storeCpu call.outregs call.segregs cpu)
        (if call.outregs then storeDoserrno cpu t else t) := by
  cases hout : call.outregs with
  | false =>
    refine ⟨?_, ⟨cpu, t, hok, .inl rfl⟩, ?_⟩
    . intro out h
      simp [storeCpu] at h
    . intro h
      simp [hout] at h
  | true =>
    rw [hout] at hclear
    have hiff := flags_iff hok (hclear.resolve_left (by decide))
    refine ⟨?_, ⟨cpu, t, hok, ?_⟩, ?_⟩
    . rintro _ ⟨⟩
      exact hiff
    . simp only [if_true, storeDoserrno]
      split
      . next hflags =>
        obtain ⟨e, he, hax⟩ := hiff.mp hflags
        refine .inr ⟨e, he, ?_⟩
        rw [hax, BitVec.setWidth_setWidth_of_le _ (by decide), BitVec.setWidth_eq]
      . exact .inl rfl
    . intro _ e he
      obtain ⟨hflags, hax⟩ := flags_of_fails hok he
      simp only [if_true, storeDoserrno, if_pos hflags, hax]
      rw [BitVec.setWidth_setWidth_of_le _ (by decide), BitVec.setWidth_eq]
      rfl

/--
Where the flag is one that the service leaves, and that the caller gets, it tells of no error.
-/
theorem clear_of_reflects {call : RegisterCall} {cpu : Cpu} {t s' : Dos σ}
    (hok : int21MainDosApi px call.cpu s = .ok (cpu, t))
    (h : Reflects px call s (storeCpu call.outregs call.segregs cpu) s')
    : call.outregs = false ∨ call.cpu.ah ∈ carryServices ∨ call.carry = 0 := by
  cases hout : call.outregs with
  | false => exact .inl rfl
  | true =>
    by_cases hah : call.cpu.ah ∈ carryServices
    . exact .inr (.inl hah)
    . refine .inr (.inr ?_)
      by_contra hcarry
      have hiff := h.carry
      rw [hout] at hiff
      have hflags : cpu.flags ≠ 0 := by
        rw [int21_flags hok hah]
        exact hcarry
      obtain ⟨e, he, _⟩ := (hiff _ rfl).mp hflags
      exact hah he.ah

theorem int21_withCarry (px : Posix σ) (call : RegisterCall) (cflag : BitVec 64) (s : Dos σ)
    : int21MainDosApi px (call.withCarry cflag).cpu s
        = (int21MainDosApi px call.cpu s).map fun p =>
          (if call.cpu.ah ∈ carryServices then p.1
            else p.1.withFlags (call.withCarry cflag).carry, p.2) := by
  rw [cpu_withCarry, int21_withFlags]

theorem carryIgnored_of_clear (h : Installed px code s) {call : RegisterCall} {cflag : BitVec 64}
    {cpu : Cpu} {t : Dos σ} (hok : int21MainDosApi px call.cpu s = .ok (cpu, t))
    (hclear : call.outregs = false ∨ call.cpu.ah ∈ carryServices
      ∨ (call.carry = 0 ∧ (call.withCarry cflag).carry = 0))
    : CarryIgnored code call cflag s := by
  unfold CarryIgnored
  rw [run_eq h, run_eq h, int21_withCarry, hok, outregs_withCarry]
  by_cases hah : call.cpu.ah ∈ carryServices
  . simp only [Except.map, hah, if_true]
    rfl
  . simp only [Except.map, hah, if_false]
    cases hout : call.outregs with
    | false => rfl
    | true =>
      rw [hout] at hclear
      have hzero := (hclear.resolve_left (by decide)).resolve_left hah
      have hflags : cpu.withFlags (call.withCarry cflag).carry = cpu := by
        rw [hzero.2, ← hzero.1]
        have hleft : cpu.flags = call.carry := int21_flags hok hah
        rw [← hleft]
        rfl
      rw [hflags]
      rfl

/--
Where the carry flag and `_doserrno` tell of errors only: where the service sets the flag, where it
is clear, and where the caller does not ask for the registers.
-/
theorem carryReflects_iff (h : Installed px code s) (call : RegisterCall) (cflag : BitVec 64)
    (hreturns : ∃ p, call.run code s = .ok p)
    : (CarryReflects px code call s ∧ CarryReflects px code (call.withCarry cflag) s
          ∧ CarryIgnored code call cflag s)
        ↔ call.outregs = false ∨ call.cpu.ah ∈ carryServices
          ∨ (call.carry = 0 ∧ (call.withCarry cflag).carry = 0) := by
  obtain ⟨cpu, t, hok⟩ : ∃ cpu t, int21MainDosApi px call.cpu s = .ok (cpu, t) := by
    obtain ⟨p, hp⟩ := hreturns
    rw [run_eq h] at hp
    cases hok : int21MainDosApi px call.cpu s with
    | error f => simp [hok, Except.map] at hp
    | ok q => exact ⟨q.1, q.2, rfl⟩
  have hother := int21_withCarry px call cflag s
  rw [hok] at hother
  have hah : (call.withCarry cflag).cpu.ah = call.cpu.ah := by
    rw [cpu_withCarry, Cpu.withFlags_ah]
  have hout := outregs_withCarry call cflag
  unfold CarryReflects
  rw [run_eq h, run_eq h, hok, hother]
  constructor
  . rintro ⟨hfirst, hsecond, _⟩
    have hclear := clear_of_reflects hok hfirst
    have hclear' := clear_of_reflects hother hsecond
    rw [hah, hout] at hclear'
    rcases hclear with hfalse | hmem | hzero
    . exact .inl hfalse
    . exact .inr (.inl hmem)
    . rcases hclear' with hfalse | hmem | hzero'
      . exact .inl hfalse
      . exact .inr (.inl hmem)
      . exact .inr (.inr ⟨hzero, hzero'⟩)
  . intro hclear
    refine ⟨reflects_of_clear hok (hclear.imp_right (Or.imp_right And.left)),
      reflects_of_clear hother ?_, carryIgnored_of_clear h hok hclear⟩
    rw [hah, hout]
    exact hclear.imp_right (Or.imp_right And.right)

theorem installed_services : Installed default services installed where
  vector := by decide
  handler := rfl

theorem carryReflects_iff_close
    : CarryReflects default services (.intdos (some { ax := 0x3e00, bx := 5, cflag := 1 }) true)
          installed
        ∧ CarryReflects default services (.intdos (some { ax := 0x3e00, bx := 5, cflag := 0 }) true)
          installed
        ∧ CarryIgnored services (.intdos (some { ax := 0x3e00, bx := 5, cflag := 1 }) true) 0
          installed :=
  (carryReflects_iff installed_services _ 0 ⟨_, rfl⟩).mpr (.inr (.inl (by decide)))

/--
A machine on January 1st 1970, a Thursday.
-/
def thursday : Posix Unit where
  __ := (default : Posix Unit)
  gettimeofday := fun os => (.ok ⟨0, 0⟩, os)
  localtime := fun _ => some { mday := 1, year := 70, wday := 4 }

def getdateCall (cflag : BitVec 64) : RegisterCall :=
  .int86x 0 (some { ax := 0x2a00, cflag := cflag }) true none

theorem not_carryReflects_getdate
    : ((getdateCall 0).run (fun _ => int21MainDosApi thursday) installed).map seen
          = .ok (0x2a04, some (0x2a04, 0), 0)
        ∧ ((getdateCall 1).run (fun _ => int21MainDosApi thursday) installed).map seen
          = .ok (0x2a04, some (0x2a04, 1), 0x2a04)
        ∧ ((bdos { cflag := 1 } 0x2a 0 0).run (fun _ => int21MainDosApi thursday) installed).map
            seen
          = .ok (0x2a04, some (0x2a04, 1), 0x2a04)
        ∧ ¬CarryReflects thursday (fun _ => int21MainDosApi thursday) (getdateCall 1) installed
        ∧ ¬CarryIgnored (fun _ => int21MainDosApi thursday) (getdateCall 1) 0 installed := by
  have hclear : ((getdateCall 0).run (fun _ => int21MainDosApi thursday) installed).map seen
      = .ok (0x2a04, some (0x2a04, 0), 0) := by
    decide +kernel
  have hset : ((getdateCall 1).run (fun _ => int21MainDosApi thursday) installed).map seen
      = .ok (0x2a04, some (0x2a04, 1), 0x2a04) := by
    decide +kernel
  refine ⟨hclear, hset, by decide +kernel, ?_, ?_⟩
  . intro h
    have hno : (getdateCall 1).outregs = false ∨ (getdateCall 1).cpu.ah ∈ carryServices
        ∨ (getdateCall 1).carry = 0 := clear_of_reflects rfl h
    exact absurd hno (by decide)
  . intro h
    have hsame : ((getdateCall 1).run (fun _ => int21MainDosApi thursday) installed).map seen
        = ((getdateCall 0).run (fun _ => int21MainDosApi thursday) installed).map seen := h
    rw [hset, hclear] at hsame
    exact absurd hsame (by decide)

end RegisterCall

end Dosix
