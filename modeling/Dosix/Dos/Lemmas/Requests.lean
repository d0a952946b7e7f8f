import Dosix.Dos.Lemmas.ExtErrAgree
import Dosix.Dos.Lemmas.FindObject
import Dosix.Dos.Lemmas.Frame

/-!
This module contains runs of all that a program may ask of `dos.c` and of the console functions that
it builds on: what such a run leaves alone, and what holds after it whatever has been asked for.
-/

namespace Dosix

open Footprint Transition

variable {σ : Type}

/--
A call of a function, or a software interrupt with its registers.
-/
inductive Request where
  | call (d : DosCall)
  | getdate (date : Dosdate)
  | gettime (time : Dostime)
  | dosexterr
  | getvect (intnum : Nat)
  | setvect (intnum : Nat) (syscall : Addr)
  | getch (echo : Bool)
  | ungetch (c : BitVec 32)
  | putch (c : BitVec 32)
  | int (n : BitVec 8) (cpu : Cpu)

namespace Request

def serve {px : Posix σ} (sys : Syscalls px) (s : Dos σ) (r : Request) : Except Fault (Dos σ) :=
  match r with
  | .call d => (d.run px s).map Result.state
  | .getdate date => .ok (dosixDosGetdate px date s).2
  | .gettime time => .ok (dosixDosGettime px time s).2
  | .dosexterr => (dosixDosexterr s).map Prod.snd
  | .getvect intnum => (dosGetvect intnum s).map fun _ => s
  | .setvect intnum syscall => dosixDosSetvect intnum syscall s
  | .getch echo => .ok (Dosix.getch px echo s).2
  | .ungetch c => .ok (Dosix.ungetch c s).2
  | .putch c => .ok (dosixPutch px c s).2
  | .int n cpu => (interrupt sys.code n cpu s).map Prod.snd

/-! What a request changes. -/

def ofCall (d : DosCall) : List Part :=
  match d with
  | .allocmem _ | .setblock _ _ | .freemem _ => [.blocks]
  | .findfirst _ _ fileinfo => [.search fileinfo]
  | .findnext fileinfo => [.search fileinfo]
  | _ => []

/--
The parts that a request may change.
-/
def footprint {px : Posix σ} (sys : Syscalls px) (s : Dos σ) (r : Request) : List Part :=
  match r with
  | .call d => ofCall d
  | .setvect _ _ => [.vectors]
  | .getch _ | .ungetch _ => [.pushback]
  | .int n cpu => sys.changed (s.intVect n.toNat) cpu s
  | _ => []

/--
If the request invokes a function of the program, it is one that leaves the part alone.
-/
def Spares {px : Posix σ} (sys : Syscalls px) (p : Part) (s : Dos σ) (r : Request) : Prop :=
  match r with
  | .int n cpu =>
    s.intVect n.toNat = sys.int21 ∨ s.intVect n.toNat = sys.int2f
      ∨ p ∉ sys.changes (s.intVect n.toNat) cpu s
  | _ => True

instance {px : Posix σ} (sys : Syscalls px) (p : Part) (s : Dos σ) (r : Request)
    : Decidable (Spares sys p s r) :=
  match r with
  | .int n cpu =>
    inferInstanceAs (Decidable (s.intVect n.toNat = sys.int21 ∨ s.intVect n.toNat = sys.int2f
      ∨ p ∉ sys.changes (s.intVect n.toNat) cpu s))
  | .call _ | .getdate _ | .gettime _ | .dosexterr | .getvect _ | .setvect _ _ | .getch _
  | .ungetch _ | .putch _ => .isTrue trivial

section

variable {px : Posix σ} {sys : Syscalls px} {s t : Dos σ} {parts : List Part}

theorem within_restored {a : Addr} (h : (setDtaAddr a s).Within parts t)
    : s.Within parts (setDtaAddr (getDtaAddr s) t) := by
  intro p hp
  cases p
  case dta => rfl
  all_goals exact h _ hp

theorem restoreDta_within {a : Addr} {x : Except Fault (Result σ Unit)}
    (h : Confined parts (setDtaAddr a s) Result.state x)
    : Confined parts s Result.state (restoreDta s x) := by
  unfold restoreDta Confined
  rw [meets_map]
  apply Meets.imp h
  intro r hr
  dsimp only
  split
  . exact (within_restored hr).trans (Dos.Quiet.setErrno _ _).within
  . exact within_restored hr

theorem run_within (px : Posix σ) (s : Dos σ) (d : DosCall)
    : Confined (ofCall d) s Result.state (d.run px s) := by
  cases d with
  | allocmem size => exact meets_map.mpr (dosixDosAllocmem_within px s size)
  | setblock size seg => exact meets_map.mpr (dosixDosSetblock_within px s size seg)
  | freemem seg => exact dosixDosFreemem_within px s seg
  | creat filename attrib => exact .of_quiet (meets_map.mpr (dosCreat_quiet px s filename attrib _))
  | creatnew filename attrib =>
    exact .of_quiet (meets_map.mpr (dosCreat_quiet px s filename attrib _))
  | openFile path mode => exact .of_quiet (meets_map.mpr (dosixDosOpen_quiet px s path mode))
  | close handle => exact .of_quiet (dosixDosClose_quiet px s handle)
  | getfileattr path => exact .of_quiet (meets_map.mpr (getfileattr_quiet px path s))
  | setfileattr path attrib => exact .of_quiet (dosixDosSetfileattr_quiet px s path attrib)
  | getftime handle => exact .of_quiet (meets_map.mpr (dosixDosGetftime_quiet px s handle))
  | setftime handle date time => exact .of_quiet (dosixDosSetftime_quiet px s handle date time)
  | setdate date => exact .of_quiet (dosixDosSetdate_quiet px s date)
  | settime time => exact .of_quiet (dosixDosSettime_quiet px s time)
  | findfirst filename attrib fileinfo =>
    unfold DosCall.run
    dsimp only
    rw [dosixDosFindfirst_eq]
    exact restoreDta_within (findfirst_within px (setDtaAddr fileinfo s) filename attrib)
  | findnext fileinfo =>
    unfold DosCall.run
    dsimp only
    rw [dosixDosFindnext_eq]
    exact restoreDta_within (findnext_within px (setDtaAddr fileinfo s))

theorem serve_within {r : Request} (h : serve sys s r = .ok t)
    : s.Within (footprint sys s r) t := by
  suffices hconfined : Confined (footprint sys s r) s id (serve sys s r) from hconfined.of_ok h
  cases r with
  | call d => exact meets_map.mpr (run_within px s d)
  | getdate date => exact (dosixDosGetdate_quiet px s date).within
  | gettime time => exact (dosixDosGettime_quiet px s time).within
  | dosexterr => exact .of_quiet (meets_map.mpr (dosixDosexterr_quiet s))
  | getvect intnum =>
    refine meets_map.mpr ?_
    cases dosGetvect intnum s with
    | error e => trivial
    | ok syscall => exact .refl s
  | setvect intnum syscall => exact dosixDosSetvect_within s intnum syscall
  | getch echo => exact getch_within px s echo
  | ungetch c =>
    unfold serve Dosix.ungetch
    dsimp only
    split
    . exact .refl s
    . exact (s.within_ungetchFull true).trans (Dos.within_ungetchChar _ _)
  | putch c => exact (dosixPutch_quiet px s c).within
  | int n cpu => exact meets_map.mpr ((sys.interrupt_serves cpu s n).imp fun _ hr => hr.2)

end

/-! Memory blocks. -/

def memService (cpu : Cpu) : Option Dos.MemCall :=
  if cpu.ah = INT21_AH_ALLOCMEM then
    some (.allocmem cpu.bx)
  else if cpu.ah = INT21_AH_SETBLOCK then
    some (.setblock cpu.bx cpu.es)
  else if cpu.ah = INT21_AH_FREEMEM then
    some (.freemem cpu.es)
  else
    none

/--
The call for memory blocks that a request comes to, if it is one.
-/
def memCall {px : Posix σ} (sys : Syscalls px) (s : Dos σ) (r : Request) : Option Dos.MemCall :=
  match r with
  | .call (.allocmem size) => some (.allocmem size)
  | .call (.setblock size seg) => some (.setblock size seg)
  | .call (.freemem seg) => some (.freemem seg)
  | .int n cpu =>
    if n ≠ 0xff ∧ s.intVect n.toNat = sys.int21 then memService cpu else none
  | _ => none

section

variable {px : Posix σ} {sys : Syscalls px} {s t : Dos σ}

theorem map_codeOnly {α : Type} (x : Except Fault (Result σ α))
    : (x.map Result.codeOnly).map Result.state = x.map Result.state := by
  cases x with
  | error e => rfl
  | ok r => rfl

theorem int21_memStep {cpu : Cpu} {c : Dos.MemCall} (h : memService cpu = some c)
    : (int21MainDosApi px cpu s).map Prod.snd = Dos.memStep px s c := by
  unfold memService at h
  split_ifs at h with halloc hsetblock hfree
  all_goals
    injection h with h
    subst h
    unfold Dos.memStep
    dsimp only
  . rw [DosService.int21_of_selected (d := .allocmem) halloc]
    unfold DosService.handler cpuAllocmem
    dsimp only
    rw [assertThat_of halloc]
    cases dosixDosAllocmem px cpu.bx s with
    | error e => rfl
    | ok r =>
      dsimp only [bind, Except.bind]
      split
      all_goals rfl
  . rw [DosService.int21_of_selected (d := .setblock) hsetblock]
    unfold DosService.handler cpuSetblock
    dsimp only
    rw [assertThat_of hsetblock]
    cases dosixDosSetblock px cpu.bx cpu.es s with
    | error e => rfl
    | ok r => rfl
  . rw [DosService.int21_of_selected (d := .freemem) hfree]
    unfold DosService.handler cpuFreemem
    dsimp only
    rw [assertThat_of hfree]
    cases dosixDosFreemem px cpu.es s with
    | error e => rfl
    | ok r => rfl

theorem serve_memStep {r : Request} {c : Dos.MemCall} (h : memCall sys s r = some c)
    : serve sys s r = Dos.memStep px s c := by
  cases r with
  | int n cpu =>
    obtain ⟨⟨hn, hvector⟩, h⟩ := Option.ite_none_right_eq_some.mp h
    unfold serve
    dsimp only
    rw [sys.interrupt_int21 cpu s hn hvector]
    exact int21_memStep h
  | call d =>
    cases d
    case allocmem size =>
      obtain rfl := Option.some.inj h
      exact map_codeOnly _
    case setblock size seg =>
      obtain rfl := Option.some.inj h
      exact map_codeOnly _
    case freemem seg =>
      obtain rfl := Option.some.inj h
      rfl
    all_goals cases h
  | _ => cases h

/--
There is no interrupt 255.
-/
theorem ne_of_serve {n : BitVec 8} {cpu : Cpu} (h : serve sys s (.int n cpu) = .ok t) : n ≠ 0xff := by
  rintro rfl
  unfold serve at h
  dsimp only at h
  rw [interrupt_eq, if_pos rfl] at h
  cases h

theorem blocks_not_mem_changed {cpu : Cpu} {a : Addr} (h : memService cpu = none)
    : .blocks ∉ changed a cpu.ah := by
  unfold memService at h
  split_ifs at h with halloc hsetblock hfree
  unfold changed
  split_ifs
  all_goals simp_all

theorem serve_blocks {r : Request} (h : memCall sys s r = none) (hspares : Spares sys .blocks s r)
    (hserve : serve sys s r = .ok t)
    : .blocks ∉ footprint sys s r := by
  cases r with
  | int n cpu =>
    have hn := ne_of_serve hserve
    unfold footprint Syscalls.changed
    dsimp only
    by_cases h21 : s.intVect n.toNat = sys.int21
    . rw [if_pos h21]
      apply blocks_not_mem_changed
      unfold memCall at h
      dsimp only at h
      rwa [if_pos ⟨hn, h21⟩] at h
    . rw [if_neg h21]
      split
      . exact List.not_mem_nil
      . next h2f => exact (hspares.resolve_left h21).resolve_left h2f
  | call d =>
    cases d
    case allocmem => cases h
    case setblock => cases h
    case freemem => cases h
    all_goals simp [footprint, ofCall]
  | _ => simp [footprint]

theorem balanced_of_within {parts : List Part} (hs : s.Balanced) (h : s.Within parts t)
    (hparts : .blocks ∉ parts)
    : t.Balanced := by
  have hview := h .blocks hparts
  unfold Part.view at hview
  dsimp only at hview
  rw [Prod.mk.injEq, Prod.mk.injEq] at hview
  obtain ⟨htree, hallocmem, hmappings⟩ := hview
  unfold Dos.Balanced
  rw [htree, hallocmem, hmappings]
  exact hs

/--
What the calls for memory blocks rely on. A function of the program leaves them to the library.
-/
def Contract (sys : Syscalls px) (s : Dos σ) (r : Request) : Prop :=
  Spares sys .blocks s r
    ∧ ∀ c, memCall sys s r = some c → Dos.KernelContract px s c ∧ Dos.Covered px s c

instance (sys : Syscalls px) (s : Dos σ) (r : Request) : Decidable (Contract sys s r) :=
  match h : memCall sys s r with
  | none => decidable_of_iff (Spares sys .blocks s r) (by simp [Contract, h])
  | some c =>
    decidable_of_iff (Spares sys .blocks s r ∧ Dos.KernelContract px s c ∧ Dos.Covered px s c)
      (by simp [Contract, h])

theorem serve_balanced {r : Request} (hs : s.Balanced) (hcontract : Contract sys s r)
    : Meets Dos.Balanced (fun f => memCall sys s r ≠ none → f ≠ .undefined) (serve sys s r) := by
  cases hc : memCall sys s r with
  | some c =>
    obtain ⟨hkernel, hcovered⟩ := hcontract.2 c hc
    rw [serve_memStep hc]
    exact (hs.memStep hkernel hcovered).mono (fun _ ht => ht) fun _ hf _ => hf
  | none =>
    cases h : serve sys s r with
    | error f => exact fun hne => absurd rfl hne
    | ok t => exact balanced_of_within hs (serve_within h) (serve_blocks hc hcontract.1 h)

end

/--
The records of the memory blocks correspond to the mappings in every state that a run of requests of
any kind comes to, and a request for memory does not touch a record that has been freed.
-/
theorem corresponds_of_contract {px : Posix σ} {sys : Syscalls px} {s : Dos σ} {rs : List Request}
    (hinit : s.NoBlocks) (hcontract : Always (serve sys) (Contract sys) s rs)
    {before after : List Request} (hsplit : rs = before ++ after) {t : Dos σ}
    (hrun : run (serve sys) s before = .ok t)
    : t.Corresponds
      ∧ ∀ r ∈ after.head?, memCall sys t r ≠ none → serve sys t r ≠ .error .undefined := by
  subst hsplit
  have hstep (s : Dos σ) (r : Request) (t : Dos σ) (hs : s.Balanced) (hr : Contract sys s r)
      (h : serve sys s r = .ok t) : t.Balanced :=
    (serve_balanced hs hr).of_ok h
  obtain ⟨hbefore, hafter⟩ := hcontract.of_append hrun
  have ht : t.Balanced := run_invariant hstep hinit.balanced hbefore hrun
  refine ⟨ht.corresponds, ?_⟩
  intro r hr hmem hundefined
  obtain ⟨after, rfl⟩ := List.head?_eq_some_iff.mp hr
  exact (serve_balanced ht hafter.1).of_error hundefined hmem rfl

/--
The blocks are asked for by both interfaces, and the second one after INT 21h has been replaced.
-/
def mixedRequests : List Request :=
  [.int 0x21 { ax := 0x4800, bx := 1 }, .getch false,
    .int 0x21 { ax := 0x1a00, dx := 0x500 }, .setvect 0x60 0x401000,
    .int 0x21 { ax := 0x2521, dx := 0x3000 }, .int 0x21 { ax := 0x4800, bx := 1 },
    .call (.allocmem 2), .int 0x60 { ax := 0x4a00, bx := 4, es := 0x1000 }]

abbrev mixedSyscalls : Syscalls (Dos.scriptedKernel none) :=
  .answering (Dos.scriptedKernel none)

def mixedStart : Dos (List Addr) :=
  mixedSyscalls.start { os := [0x2000, 0x1000, 0x6000, 0x5000] }

theorem corresponds_of_contract_mixedRequests
    : ∃ t, run (serve mixedSyscalls) mixedStart mixedRequests = .ok t ∧ t.Corresponds
        ∧ t.allocmemTree.keys = [0x1000, 0x2000] := by
  obtain ⟨t, hrun, hkeys⟩ := exists_of_any (r := run (serve mixedSyscalls) mixedStart mixedRequests)
    (q := fun t => t.allocmemTree.keys = [0x1000, 0x2000]) (by decide +kernel)
  refine ⟨t, hrun, ?_, of_decide_eq_true hkeys⟩
  exact (corresponds_of_contract ⟨rfl, fun _ => rfl, fun _ => rfl⟩ (by decide +kernel)
    (List.append_nil mixedRequests).symm hrun).1

/-! The DTA. -/

/--
The address that a request makes the DTA, if it does.
-/
def dtaOf {px : Posix σ} (sys : Syscalls px) (s : Dos σ) (r : Request) : Option Addr :=
  match r with
  | .int n cpu =>
    if s.intVect n.toNat = sys.int21 ∧ cpu.ah = INT21_AH_SET_DTA_ADDR then
      some (MK_FP cpu.ds cpu.dx)
    else
      none
  | _ => none

theorem int21_setDta (px : Posix σ) {cpu : Cpu} (h : cpu.ah = INT21_AH_SET_DTA_ADDR) (s : Dos σ)
    : int21MainDosApi px cpu s = .ok (cpu, setDtaAddr (MK_FP cpu.ds cpu.dx) s) := by
  unfold int21MainDosApi int21Service
  rw [h]
  change cpuSetDtaAddr cpu s = _
  unfold cpuSetDtaAddr
  rw [assertThat_of h]
  rfl

theorem int21_getDta (px : Posix σ) {cpu : Cpu} (h : cpu.ah = INT21_AH_GET_DTA_ADDR) (s : Dos σ)
    : int21MainDosApi px cpu s = .ok ({ cpu with es := 0, bx := s.currentDta }, s) := by
  unfold int21MainDosApi int21Service
  rw [h]
  change cpuGetDtaAddr cpu s = _
  unfold cpuGetDtaAddr
  rw [assertThat_of h]
  rfl

theorem serve_dta {px : Posix σ} {sys : Syscalls px} {s t : Dos σ} {r : Request}
    (hspares : Spares sys .dta s r) (h : serve sys s r = .ok t)
    : t.currentDta = (dtaOf sys s r).getD s.currentDta := by
  have hwithin := serve_within h .dta
  cases r with
  | int n cpu =>
    unfold dtaOf
    dsimp only
    by_cases hset : s.intVect n.toNat = sys.int21 ∧ cpu.ah = INT21_AH_SET_DTA_ADDR
    . have hn := ne_of_serve h
      unfold serve at h
      dsimp only at h
      rw [sys.interrupt_int21 cpu s hn hset.1, int21_setDta px hset.2] at h
      rw [if_pos hset, ← Except.ok.inj h]
      rfl
    . rw [if_neg hset]
      apply hwithin
      unfold footprint Syscalls.changed
      dsimp only
      by_cases h21 : s.intVect n.toNat = sys.int21
      . rw [if_pos h21]
        have hah : cpu.ah ≠ INT21_AH_SET_DTA_ADDR := fun hah => hset ⟨h21, hah⟩
        unfold changed
        split_ifs
        all_goals simp
      . rw [if_neg h21]
        split
        . exact List.not_mem_nil
        . next h2f => exact (hspares.resolve_left h21).resolve_left h2f
  | call d =>
    apply hwithin
    cases d
    all_goals simp [footprint, ofCall]
  | _ => exact hwithin (by simp [footprint])

/--
After any run of requests the DTA is what AH=1Ah has last made it, as long as no function of the
program changes it, and what no request of the run may change is as it was.
-/
theorem run_keeps {px : Posix σ} {sys : Syscalls px} {s t : Dos σ} {rs : List Request}
    (hrun : run (serve sys) s rs = .ok t)
    : (Always (serve sys) (Spares sys .dta) s rs → ∀ n cpu, n ≠ 0xff →
        t.intVect n.toNat = sys.int21 → cpu.ah = INT21_AH_GET_DTA_ADDR →
        interrupt sys.code n cpu t
          = .ok ({ cpu with
              es := 0
              bx := latest (serve sys) (dtaOf sys) s s.currentDta rs }, t))
      ∧ ∀ p, Always (serve sys) (fun s r => p ∉ footprint sys s r) s rs → p.view t = p.view s := by
  constructor
  . intro hspares n cpu hn hvector hah
    have hstep (s : Dos σ) (r : Request) (t : Dos σ) (hs : Spares sys .dta s r)
        (h : serve sys s r = .ok t)
        : t.currentDta = (dtaOf sys s r).getD s.currentDta :=
      serve_dta hs h
    have hdta : t.currentDta = latest (serve sys) (dtaOf sys) s s.currentDta rs :=
      run_latest hstep hspares hrun
    rw [sys.interrupt_int21 cpu t hn hvector, int21_getDta px hah, ← hdta]
  . intro p hp
    exact run_untouched (fun s r t h => serve_within h) p hp hrun

theorem run_keeps_mixedRequests
    : ∃ t, run (serve mixedSyscalls) mixedStart mixedRequests = .ok t
        ∧ interrupt mixedSyscalls.code 0x60 { ax := 0x2f00 } t
          = .ok ({ ax := 0x2f00, es := 0, bx := 0x500 }, t)
        ∧ (Part.search 0x500).view t = {} := by
  obtain ⟨t, hrun, hvector⟩ := exists_of_any
    (r := run (serve mixedSyscalls) mixedStart mixedRequests)
    (q := fun t => t.intVect 0x60 = 0x401000) (by decide +kernel)
  obtain ⟨hdta, hparts⟩ := run_keeps hrun
  refine ⟨t, hrun, ?_, hparts (.search 0x500) (by decide +kernel)⟩
  have hlatest : latest (serve mixedSyscalls) (dtaOf mixedSyscalls) mixedStart
      mixedStart.currentDta mixedRequests = 0x500 := by
    decide +kernel
  rw [hdta (by decide +kernel) 0x60 { ax := 0x2f00 } (by decide) (of_decide_eq_true hvector)
    (by decide), hlatest]

end Request

end Dosix
