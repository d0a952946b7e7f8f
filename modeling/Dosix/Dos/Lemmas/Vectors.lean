import Dosix.Dos.Lemmas.Carry
import Dosix.Dos.Lemmas.Frame

/-!
This module contains the law of the interrupt vectors: what a program installs for an interrupt is
what it finds there and what the interrupt invokes, until it installs something else.
-/

namespace Dosix

open Transition

variable {σ : Type} {px : Posix σ}

/--
The vectors as installed so far, the last one first.
-/
abbrev Installs := List (BitVec 8 × Addr)

/--
The functions that a vector may hold: the two of `dos.c`, and those of the program, which change the
vectors only by what they install in turn.
-/
structure Handlers (px : Posix σ) where
  code : Addr → Syscall σ
  int21 : Addr
  int2f : Addr
  -- what the function at an address installs when it is called
  installs : Addr → Cpu → Dos σ → Installs
  int21_ne : int21 ≠ 0
  int2f_ne : int2f ≠ 0
  code_int21 : code int21 = int21MainDosApi px
  code_int2f : code int2f = int2fMultiplex px
  installs_ne : ∀ a cpu s, ∀ e ∈ installs a cpu s, e.2 ≠ 0
  code_intVect : ∀ a cpu s cpu' s', a ≠ int21 → a ≠ int2f → code a cpu s = .ok (cpu', s') →
    ∀ n : BitVec 8, n ≠ 0xff →
      s'.intVect n.toNat = ((installs a cpu s).lookup n).getD (s.intVect n.toNat)

inductive VectCall where
  | setvect (intnum : BitVec 8) (syscall : Addr)
  -- the function of INT 21h, called by its address, as by the one that has replaced it
  | int21 (cpu : Cpu)
  | int86x (intnum : BitVec 32) (inregs : Option Regs) (outregs : Bool) (segregs : Option Sregs)

structure Vectored (σ : Type) where
  dos : Dos σ
  installs : Installs

def Dos.install (s : Dos σ) (e : BitVec 8 × Addr) : Dos σ :=
  s.setIntVect fun n => if n = e.1.toNat then e.2 else s.intVect n

namespace Handlers

variable (hs : Handlers px)

def start (s : Dos σ) : Vectored σ where
  dos := s.setIntVect fun n =>
    if n = INT21_MAIN_DOS_API.toNat then hs.int21
    else if n = INT2F_MULTIPLEX.toNat then hs.int2f
    else 0
  installs := [(INT21_MAIN_DOS_API, hs.int21), (INT2F_MULTIPLEX, hs.int2f)]

/--
The vector that the registers ask INT 21h to install.
-/
def requested (cpu : Cpu) : Installs :=
  if cpu.ah = INT21_AH_SETVECT then [(cpu.al, MK_FP cpu.ds cpu.dx)] else []

def installsOf (a : Addr) (cpu : Cpu) (s : Dos σ) : Installs :=
  if a = hs.int21 then requested cpu else if a = hs.int2f then [] else hs.installs a cpu s

def step (v : Vectored σ) (call : VectCall) : Except Fault (Vectored σ) :=
  match call with
  | .setvect intnum syscall =>
    (dosixDosSetvect intnum.toNat syscall v.dos).map fun s => ⟨s, (intnum, syscall) :: v.installs⟩
  | .int21 cpu =>
    (int21MainDosApi px cpu v.dos).map fun p => ⟨p.2, requested cpu ++ v.installs⟩
  | .int86x intnum inregs outregs segregs =>
    (dosixInt86x hs.code intnum inregs outregs segregs v.dos).map fun p =>
      ⟨p.2, hs.installsOf ((v.installs.lookup (intnum.setWidth 8)).getD 0) (loadCpu inregs segregs) v.dos
        ++ v.installs⟩

/--
The registers with which the call reaches the function of INT 21h, if it does.
-/
def served (v : Vectored σ) (call : VectCall) : Option Cpu :=
  match call with
  | .setvect .. => none
  | .int21 cpu => some cpu
  | .int86x intnum inregs _ segregs =>
    if v.installs.lookup (intnum.setWidth 8) = some hs.int21 then
      some (loadCpu inregs segregs)
    else
      none

def requests (v : Vectored σ) (call : VectCall) : Installs :=
  match call with
  | .setvect intnum syscall => [(intnum, syscall)]
  | _ => (hs.served v call).elim [] requested

/--
The numbers of the vectors that the call is about.
-/
def numbers (v : Vectored σ) (call : VectCall) : List (BitVec 8) :=
  let named :=
    match call with
    | .setvect intnum _ => [intnum]
    | .int21 _ => []
    | .int86x intnum .. => [intnum.setWidth 8]
  let asked (cpu : Cpu) :=
    if cpu.ah = INT21_AH_SETVECT ∨ cpu.ah = INT21_AH_GETVECT then [cpu.al] else []
  named ++ (hs.served v call).elim [] asked

def NonNull (v : Vectored σ) (call : VectCall) : Prop :=
  ∀ e ∈ hs.requests v call, e.2 ≠ 0

/--
The call is not about the last of the bytes.
-/
def InRange (v : Vectored σ) (call : VectCall) : Prop :=
  0xff ∉ hs.numbers v call

instance (v : Vectored σ) (call : VectCall) : Decidable (hs.NonNull v call) :=
  List.decidableBAll _ _

instance (v : Vectored σ) (call : VectCall) : Decidable (hs.InRange v call) :=
  inferInstanceAs (Decidable (_ ∉ _))

/--
INT 21h installs the vector that it is asked to install and no other, and answers with the one that
was installed last.
-/
def Serves (px : Posix σ) (v : Vectored σ) (cpu : Cpu) : Prop :=
  (cpu.ah = INT21_AH_SETVECT → int21MainDosApi px cpu v.dos
    = .ok (cpu, v.dos.install (cpu.al, MK_FP cpu.ds cpu.dx)))
  ∧ (cpu.ah = INT21_AH_GETVECT → ∃ cpu', int21MainDosApi px cpu v.dos = .ok (cpu', v.dos)
    ∧ MK_FP cpu'.es cpu'.bx = (v.installs.lookup cpu.al).getD 0)

/--
The handler is called, or the program ends because there is none.
-/
def invoke (code : Addr → Syscall σ) (handler : Option Addr) : Syscall σ :=
  fun cpu s =>
    match handler with
    | none => .error (.exit 86)
    | some syscall => code syscall cpu s

/--
The call installs what it is told to, and invokes, whatever the addresses stand for, the handler
that was installed last.
-/
def Lawful (v : Vectored σ) (call : VectCall) : Prop :=
  (match call with
    | .setvect intnum syscall =>
      dosixDosSetvect intnum.toNat syscall v.dos = .ok (v.dos.install (intnum, syscall))
    | .int21 _ => True
    | .int86x intnum inregs outregs segregs => ∀ code : Addr → Syscall σ,
      dosixInt86x code intnum inregs outregs segregs v.dos
        = (invoke code (v.installs.lookup (intnum.setWidth 8)) (loadCpu inregs segregs) v.dos).map
          fun p => (storeCpu outregs segregs p.1, if outregs then storeDoserrno p.1 p.2 else p.2))
  ∧ ∀ cpu, hs.served v call = some cpu → Serves px v cpu

end Handlers

/-! The functions. -/

theorem dosixDosSetvect_eq {syscall : Addr} (hsyscall : syscall ≠ 0) (n : BitVec 8) (s : Dos σ)
    : dosixDosSetvect n.toNat syscall s
        = if n = 0xff then .error .assertion else .ok (s.install (n, syscall)) := by
  unfold dosixDosSetvect
  rw [assertThat_of hsyscall]
  unfold assertThat
  simp only [toNat_lt_UINT8_MAX]
  by_cases h : n = 0xff
  . simp only [h, ne_eq, not_true_eq_false, if_true, if_false]
    rfl
  . simp only [h, ne_eq, not_false_eq_true, if_true, if_false]
    rfl

theorem int21_setvect {cpu : Cpu} (h : cpu.ah = INT21_AH_SETVECT) (s : Dos σ)
    : int21MainDosApi px cpu s
        = (dosixDosSetvect cpu.al.toNat (MK_FP cpu.ds cpu.dx) s).map fun s => (cpu, s) := by
  unfold int21MainDosApi int21Service
  rw [h]
  change cpuSetvect cpu s = _
  unfold cpuSetvect
  rw [assertThat_of h]
  change dosixDosSetvect _ _ s >>= _ = _
  cases dosixDosSetvect cpu.al.toNat (MK_FP cpu.ds cpu.dx) s <;> rfl

theorem int21_getvect {cpu : Cpu} (h : cpu.ah = INT21_AH_GETVECT) (s : Dos σ)
    : int21MainDosApi px cpu s = (dosGetvect cpu.al.toNat s).map fun syscall =>
        ({ cpu with es := FP_SEG syscall, bx := FP_OFF syscall }, s) := by
  unfold int21MainDosApi int21Service
  rw [h]
  change cpuGetvect cpu s = _
  unfold cpuGetvect
  rw [assertThat_of h]
  change dosGetvect _ s >>= _ = _
  cases dosGetvect cpu.al.toNat s <;> rfl

/-! The invariant. -/

/--
Every vector holds what was installed last.
-/
structure Vectored.Agrees (v : Vectored σ) : Prop where
  vector : ∀ n : BitVec 8, n ≠ 0xff → v.dos.intVect n.toNat = (v.installs.lookup n).getD 0
  nonNull : ∀ e ∈ v.installs, e.2 ≠ 0

namespace Vectored.Agrees

variable {v : Vectored σ}

theorem append (h : v.Agrees) {s : Dos σ} (new : Installs) (hnew : ∀ e ∈ new, e.2 ≠ 0)
    (hs : ∀ n : BitVec 8, n ≠ 0xff →
      s.intVect n.toNat = (new.lookup n).getD (v.dos.intVect n.toNat))
    : Agrees ⟨s, new ++ v.installs⟩ where
  vector := by
    intro n hn
    rw [hs n hn, h.vector n hn, List.lookup_append]
    cases new.lookup n <;> rfl
  nonNull := by
    intro e he
    rcases List.mem_append.mp he with he | he
    . exact hnew e he
    . exact h.nonNull e he

theorem keep (h : v.Agrees) {s : Dos σ} (hs : s.intVect = v.dos.intVect)
    : Agrees ⟨s, v.installs⟩ where
  vector := by
    rw [hs]
    exact h.vector
  nonNull := h.nonNull

theorem install (h : v.Agrees) {m : BitVec 8} {syscall : Addr} (hsyscall : syscall ≠ 0)
    : Agrees ⟨v.dos.install (m, syscall), (m, syscall) :: v.installs⟩ := by
  refine h.append [(m, syscall)] (List.forall_mem_singleton.mpr hsyscall) fun n hn => ?_
  change (if n.toNat = m.toNat then syscall else v.dos.intVect n.toNat) = _
  simp only [BitVec.toNat_inj, List.lookup_cons, List.lookup_nil]
  by_cases hnm : n = m
  . simp [hnm]
  . simp [hnm, beq_eq_false_iff_ne.mpr hnm]

theorem lookup_eq (h : v.Agrees) {n : BitVec 8} (hn : n ≠ 0xff)
    : v.installs.lookup n
        = if v.dos.intVect n.toNat = 0 then none else some (v.dos.intVect n.toNat) := by
  rw [h.vector n hn]
  cases hlookup : v.installs.lookup n with
  | none => rfl
  | some a =>
    obtain ⟨l, m, heq, -⟩ := List.lookup_eq_some_iff.mp hlookup
    have hne : a ≠ 0 := h.nonNull (n, a) (by simp [heq])
    exact (if_neg hne).symm

end Vectored.Agrees

namespace Handlers

variable {hs : Handlers px} {v v' : Vectored σ} {call : VectCall}

theorem agrees_start (hs : Handlers px) (s : Dos σ) : (hs.start s).Agrees where
  vector := by
    intro n _
    change (if n.toNat = INT21_MAIN_DOS_API.toNat then hs.int21
      else if n.toNat = INT2F_MULTIPLEX.toNat then hs.int2f else 0) = _
    simp only [BitVec.toNat_inj, start, List.lookup_cons]
    by_cases h21 : n = INT21_MAIN_DOS_API
    . simp [h21]
    . by_cases h2f : n = INT2F_MULTIPLEX
      . simp [h2f, INT21_MAIN_DOS_API, INT2F_MULTIPLEX]
      . simp [h21, h2f, beq_eq_false_iff_ne.mpr h21, beq_eq_false_iff_ne.mpr h2f]
  nonNull := List.forall_mem_cons.mpr
    ⟨hs.int21_ne, List.forall_mem_singleton.mpr hs.int2f_ne⟩

/--
What the function of INT 21h installs is what it has been asked to.
-/
theorem agrees_served (h : v.Agrees) {cpu cpu' : Cpu} {s : Dos σ}
    (hrequest : ∀ e ∈ requested cpu, e.2 ≠ 0)
    (hok : int21MainDosApi px cpu v.dos = .ok (cpu', s))
    : Vectored.Agrees ⟨s, requested cpu ++ v.installs⟩ := by
  unfold requested at hrequest ⊢
  split
  . next hah =>
    rw [if_pos hah] at hrequest
    have hsyscall : MK_FP cpu.ds cpu.dx ≠ 0 := hrequest _ List.mem_cons_self
    rw [int21_setvect hah, dosixDosSetvect_eq hsyscall] at hok
    split at hok
    . cases hok
    . cases hok
      exact h.install hsyscall
  . next hah => exact h.keep ((int21_intVect hah).of_ok hok)

theorem agrees_code (h : v.Agrees) {a : Addr} {cpu cpu' : Cpu} {s : Dos σ}
    (hrequest : a = hs.int21 → ∀ e ∈ requested cpu, e.2 ≠ 0)
    (hok : hs.code a cpu v.dos = .ok (cpu', s))
    : Vectored.Agrees ⟨s, hs.installsOf a cpu v.dos ++ v.installs⟩ := by
  unfold installsOf
  split
  . next ha =>
    rw [ha, hs.code_int21] at hok
    exact agrees_served h (hrequest ha) hok
  . next hne21 =>
    split
    . next ha =>
      rw [ha, hs.code_int2f] at hok
      exact h.keep ((int2f_intVect cpu).of_ok hok)
    . next hne2f =>
      exact h.append (hs.installs a cpu v.dos) (hs.installs_ne a cpu v.dos)
        (hs.code_intVect a cpu v.dos cpu' s hne21 hne2f hok)

theorem storeDoserrno_intVect (cpu : Cpu) (s : Dos σ)
    : (storeDoserrno cpu s).intVect = s.intVect := by
  unfold storeDoserrno
  split <;> rfl

theorem agrees_int86x (h : v.Agrees) {intnum : BitVec 32} {inregs : Option Regs} {outregs : Bool}
    {segregs : Option Sregs} (hnonNull : hs.NonNull v (.int86x intnum inregs outregs segregs))
    (hok : hs.step v (.int86x intnum inregs outregs segregs) = .ok v')
    : v'.Agrees := by
  unfold step at hok
  dsimp only at hok
  rw [dosixInt86x_interrupt, interrupt_eq] at hok
  by_cases hn : intnum.setWidth 8 = 0xff
  . rw [if_pos hn] at hok
    cases hok
  have hlookup := h.lookup_eq hn
  by_cases hzero : v.dos.intVect (intnum.setWidth 8).toNat = 0
  . rw [if_neg hn, if_pos hzero] at hok
    cases hok
  rw [if_neg hzero] at hlookup
  rw [if_neg hn, if_neg hzero] at hok
  unfold callSyscall at hok
  dsimp only at hok
  cases hrun : hs.code (v.dos.intVect (intnum.setWidth 8).toNat) (loadCpu inregs segregs)
      v.dos with
  | error e =>
    rw [hrun] at hok
    cases hok
  | ok p =>
    rw [hrun] at hok
    cases hok
    rw [hlookup]
    have hserved (ha : v.dos.intVect (intnum.setWidth 8).toNat = hs.int21)
        : ∀ e ∈ requested (loadCpu inregs segregs), e.2 ≠ 0 := by
      unfold NonNull requests served at hnonNull
      dsimp only at hnonNull
      rwa [hlookup, ha, if_pos rfl] at hnonNull
    apply (agrees_code h hserved hrun).keep
    dsimp only
    split
    . apply storeDoserrno_intVect
    . rfl

theorem agrees_step (h : v.Agrees) (hnonNull : hs.NonNull v call) (hok : hs.step v call = .ok v')
    : v'.Agrees := by
  cases call with
  | setvect intnum syscall =>
    have hsyscall : syscall ≠ 0 := hnonNull (intnum, syscall) List.mem_cons_self
    unfold step at hok
    dsimp only at hok
    rw [dosixDosSetvect_eq hsyscall] at hok
    split at hok
    . cases hok
    . cases hok
      exact h.install hsyscall
  | int21 cpu =>
    unfold step at hok
    dsimp only at hok
    cases hrun : int21MainDosApi px cpu v.dos with
    | error e =>
      rw [hrun] at hok
      cases hok
    | ok p =>
      rw [hrun] at hok
      cases hok
      exact agrees_served h hnonNull hrun
  | int86x intnum inregs outregs segregs => exact agrees_int86x h hnonNull hok

theorem serves_iff (h : v.Agrees) {cpu : Cpu} (hrequest : ∀ e ∈ requested cpu, e.2 ≠ 0)
    : Serves px v cpu
        ↔ (cpu.ah = INT21_AH_SETVECT ∨ cpu.ah = INT21_AH_GETVECT → cpu.al ≠ 0xff) := by
  unfold Serves
  rw [or_imp]
  apply and_congr
  . apply imp_congr_right
    intro hah
    have hsyscall : MK_FP cpu.ds cpu.dx ≠ 0 := by
      unfold requested at hrequest
      rw [if_pos hah] at hrequest
      exact hrequest _ List.mem_cons_self
    rw [int21_setvect hah, dosixDosSetvect_eq hsyscall]
    by_cases hal : cpu.al = 0xff
    . rw [if_pos hal]
      exact iff_of_false (by simp [Except.map]) (not_not_intro hal)
    . rw [if_neg hal]
      exact iff_of_true rfl hal
  . apply imp_congr_right
    intro hah
    rw [int21_getvect hah, dosGetvect_eq]
    by_cases hal : cpu.al = 0xff
    . rw [if_pos hal]
      exact iff_of_false (by simp [Except.map]) (not_not_intro hal)
    . rw [if_neg hal]
      exact iff_of_true ⟨_, rfl, h.vector cpu.al hal⟩ hal

theorem served_of_nonNull (hnonNull : hs.NonNull v call) {cpu : Cpu}
    (hserved : hs.served v call = some cpu) : ∀ e ∈ requested cpu, e.2 ≠ 0 := by
  unfold NonNull requests at hnonNull
  cases call with
  | setvect intnum syscall => cases hserved
  | int21 cpu =>
    rw [hserved] at hnonNull
    exact hnonNull
  | int86x intnum inregs outregs segregs =>
    rw [hserved] at hnonNull
    exact hnonNull

theorem invokes_iff (h : v.Agrees) (intnum : BitVec 32) (inregs : Option Regs) (outregs : Bool)
    (segregs : Option Sregs)
    : (∀ code : Addr → Syscall σ, dosixInt86x code intnum inregs outregs segregs v.dos
        = (invoke code (v.installs.lookup (intnum.setWidth 8)) (loadCpu inregs segregs) v.dos).map
          fun p => (storeCpu outregs segregs p.1, if outregs then storeDoserrno p.1 p.2 else p.2))
      ↔ intnum.setWidth 8 ≠ 0xff := by
  constructor
  . intro hall hn
    -- a handler that returns tells the assertion from the invocation
    have := hall fun _ cpu s => .ok (cpu, s)
    rw [dosixInt86x_interrupt, interrupt_eq, if_pos hn] at this
    unfold invoke at this
    cases hlookup : v.installs.lookup (intnum.setWidth 8) with
    | none =>
      rw [hlookup] at this
      cases this
    | some syscall =>
      rw [hlookup] at this
      cases this
  . intro hn code
    rw [dosixInt86x_interrupt, interrupt_eq, if_neg hn, h.lookup_eq hn]
    by_cases hzero : v.dos.intVect (intnum.setWidth 8).toNat = 0
    . rw [if_pos hzero, if_pos hzero]
      rfl
    . rw [if_neg hzero, if_neg hzero]
      rfl

theorem notMem_singleton (n : BitVec 8) : 0xff ∉ [n] ↔ n ≠ 0xff := by
  rw [List.mem_singleton, ne_comm]

theorem served_iff (h : v.Agrees) (hnonNull : hs.NonNull v call)
    : (∀ cpu, hs.served v call = some cpu → Serves px v cpu)
        ↔ 0xff ∉ (hs.served v call).elim [] fun cpu =>
          if cpu.ah = INT21_AH_SETVECT ∨ cpu.ah = INT21_AH_GETVECT then [cpu.al] else [] := by
  cases hserved : hs.served v call with
  | none => exact iff_of_true (fun _ hcpu => nomatch hcpu) List.not_mem_nil
  | some cpu =>
    simp only [Option.some.injEq, forall_eq', Option.elim_some]
    rw [serves_iff h (served_of_nonNull hnonNull hserved)]
    by_cases hah : cpu.ah = INT21_AH_SETVECT ∨ cpu.ah = INT21_AH_GETVECT
    . rw [if_pos hah, notMem_singleton]
      exact forall_prop_of_true hah
    . rw [if_neg hah]
      exact iff_of_true (fun h => absurd h hah) List.not_mem_nil

theorem lawful_iff (h : v.Agrees) (hnonNull : hs.NonNull v call)
    : hs.Lawful v call ↔ hs.InRange v call := by
  unfold Lawful InRange numbers
  rw [List.mem_append, not_or]
  apply and_congr _ (served_iff h hnonNull)
  cases call with
  | setvect intnum syscall =>
    have hsyscall : syscall ≠ 0 := hnonNull (intnum, syscall) List.mem_cons_self
    dsimp only
    rw [dosixDosSetvect_eq hsyscall, notMem_singleton]
    by_cases hn : intnum = 0xff
    . rw [if_pos hn]
      exact iff_of_false nofun (not_not_intro hn)
    . rw [if_neg hn]
      exact iff_of_true rfl hn
  | int21 cpu => exact iff_of_true trivial List.not_mem_nil
  | int86x intnum inregs outregs segregs =>
    dsimp only
    rw [invokes_iff h, notMem_singleton]

/--
The law of the vectors: it holds throughout a run in which no call is about interrupt 255, the one
byte that has no vector.
-/
theorem always_lawful_iff (hs : Handlers px) (s : Dos σ) (calls : List VectCall)
    (h : Always hs.step hs.NonNull (hs.start s) calls)
    : Always hs.step hs.Lawful (hs.start s) calls ↔ Always hs.step hs.InRange (hs.start s) calls :=
  Always.congr Vectored.Agrees (fun _ _ _ hagrees hnonNull hok => agrees_step hagrees hnonNull hok)
    (fun _ _ hagrees hnonNull => lawful_iff hagrees hnonNull) (hs.agrees_start s) h

/--
The program has one function of its own, which answers in `AX`.
-/
def single : Handlers (default : Posix Unit) where
  code a :=
    if a = 0x1000 then int21MainDosApi default
    else if a = 0x2000 then int2fMultiplex default
    else fun cpu s => .ok ({ cpu with ax := 0x1234 }, s)
  int21 := 0x1000
  int2f := 0x2000
  installs := fun _ _ _ => []
  int21_ne := by decide
  int2f_ne := by decide
  code_int21 := rfl
  code_int2f := rfl
  installs_ne := fun _ _ _ _ he => absurd he List.not_mem_nil
  code_intVect := by
    intro a cpu s cpu' s' hne21 hne2f hok n _
    rw [if_neg hne21, if_neg hne2f] at hok
    cases hok
    rfl

/--
A program that installs a vector, reads it back, and at last replaces INT 21h itself.
-/
def replacing : List VectCall :=
  [.setvect 0x60 0x3000, .int86x 0x60 none true none,
    .int86x 0x21 (some { ax := 0x3560 }) true (some {}),
    .int86x 0x21 (some { ax := 0x2521, dx := 0x3000 }) true (some {}),
    .int86x 0x21 (some { ax := 0x35ff }) true (some {})]

theorem always_lawful_replacing
    : Always single.step single.Lawful (single.start { os := () }) replacing :=
  (always_lawful_iff single { os := () } replacing (by decide +kernel)).mpr (by decide +kernel)

theorem not_lawful_last
    : dosixDosSetvect 0xff 0x3000 (single.start { os := () }).dos = .error .assertion
      ∧ ¬ Always single.step single.Lawful (single.start { os := () }) [.setvect 0xff 0x3000] := by
  refine ⟨rfl, ?_⟩
  intro h
  obtain ⟨⟨hsetvect, -⟩, -⟩ := h
  cases hsetvect

end Handlers

end Dosix
