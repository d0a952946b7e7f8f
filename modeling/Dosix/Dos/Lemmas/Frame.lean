import Dosix.Dos.Lemmas.AllocMem
import Dosix.Dos.Lemmas.Parts

/-!
This module contains what the services of INT 21h and INT 2Fh leave alone, of the registers as of the
state. Those for files and times change the system and the error only, and none but the one that
installs a vector changes the vector table. A program that raises interrupts invokes them, or functions
of its own, through that table.
-/

namespace Dosix

open Footprint Transition

variable {σ α : Type}

theorem Dos.Quiet.failed {s t : Dos σ} (h : s.Quiet t)
    : Meets (fun r : Result σ α => s.Quiet r.state) (fun _ => True) (Dosix.failed t) :=
  (failed_quiet t).mono (fun _ hr => h.trans hr) fun _ _ => trivial

variable (px : Posix σ) (s : Dos σ)

/-! Files and times. -/

theorem dosCreat_quiet (filename : CString) (attrib flags : BitVec 32)
    : Meets (fun r => s.Quiet r.state) (fun _ => True) (dosCreat px filename attrib flags s) := by
  unfold dosCreat
  split
  . trivial
  . dsimp only
    split
    . next ht => exact (Dos.Quiet.of_call ht).failed
    . next ht => exact .of_call ht

theorem openLock_quiet (mode fd : BitVec 32) : s.Quiet (openLock px mode fd s).2 := by
  unfold openLock
  split
  . apply Dos.call_quiet
  . exact .refl s

theorem openNoinherit_quiet (mode fd : BitVec 32) : s.Quiet (openNoinherit px mode fd s).2 := by
  unfold openNoinherit
  split
  . split
    . next ht => exact .of_call ht
    . next t ht => exact (Dos.Quiet.of_call ht).trans (t.call_quiet _)
  . exact .refl s

theorem dosixDosOpen_quiet (path : CString) (mode : BitVec 32)
    : Meets (fun r => s.Quiet r.state) (fun _ => True) (dosixDosOpen px path mode s) := by
  unfold dosixDosOpen
  split
  . trivial
  . dsimp only
    split
    . next ht => exact (Dos.Quiet.of_call ht).failed
    . next fd t ht =>
      have hopen : s.Quiet t := .of_call ht
      have hlock := openLock_quiet px t mode fd
      split
      . next u hu =>
        rw [hu] at hlock
        exact (hopen.trans hlock).failed
      . next u hu =>
        rw [hu] at hlock
        have hinherit := openNoinherit_quiet px u mode fd
        split
        . next v hv =>
          rw [hv] at hinherit
          exact ((hopen.trans hlock).trans hinherit).failed
        . next v hv =>
          rw [hv] at hinherit
          exact (hopen.trans hlock).trans hinherit

theorem dosixDosClose_quiet (handle : BitVec 32)
    : Meets (fun r => s.Quiet r.state) (fun _ => True) (dosixDosClose px handle s) := by
  unfold dosixDosClose
  split
  . next ht => exact (Dos.Quiet.of_call ht).failed
  . next ht => exact .of_call ht

theorem dosixDosSetfileattr_quiet (path : CString) (attrib : BitVec 32)
    : Meets (fun r => s.Quiet r.state) (fun _ => True)
        (dosixDosSetfileattr px path attrib s) := by
  unfold dosixDosSetfileattr
  split
  . next ht => exact (Dos.Quiet.of_call ht).failed
  . next fs t ht =>
    have hstat : s.Quiet t := .of_call ht
    dsimp only
    split
    . next hu => exact (hstat.trans (.of_call hu)).failed
    . next hu => exact hstat.trans (.of_call hu)

theorem unixtimeInt_quiet (date time : BitVec 32) : s.Quiet (unixtimeInt px date time s).state := by
  unfold unixtimeInt
  dsimp only
  split
  . apply exterrSet_quiet
  . exact .refl s

theorem unixtimeStruct_quiet (date : Dosdate) (time : Dostime)
    : s.Quiet (unixtimeStruct px date time s).state := by
  unfold unixtimeStruct
  dsimp only
  split
  . apply exterrSet_quiet
  . exact .refl s

theorem dostimeStruct_quiet (tv : Timeval) : s.Quiet (dostimeStruct px tv s).state := by
  unfold dostimeStruct
  split
  . apply exterrSet_quiet
  . exact .refl s

theorem dosixDosGetftime_quiet (handle : BitVec 32)
    : Meets (fun r => s.Quiet r.state) (fun _ => True) (dosixDosGetftime px handle s) := by
  unfold dosixDosGetftime
  split
  . next ht => exact (Dos.Quiet.of_call ht).failed
  . next ht => exact (Dos.Quiet.of_call ht).trans (dostimeInt_quiet px _ _)

theorem dosixDosSetftime_quiet (handle date time : BitVec 32)
    : Meets (fun r => s.Quiet r.state) (fun _ => True)
        (dosixDosSetftime px handle date time s) := by
  unfold dosixDosSetftime
  have hutime := unixtimeInt_quiet px s date time
  split
  . next h =>
    rw [h] at hutime
    exact hutime
  . next h =>
    rw [h] at hutime
    split
    . next ht => exact (hutime.trans (.of_call ht)).failed
    . next ht =>
      have hstat := hutime.trans (.of_call ht)
      split
      . next hu => exact (hstat.trans (.of_call hu)).failed
      . next hu => exact hstat.trans (.of_call hu)

theorem dosixDosGetdate_quiet (date : Dosdate) : s.Quiet (dosixDosGetdate px date s).2 := by
  unfold dosixDosGetdate
  split
  . next ht => exact .of_call ht
  . next tv t ht =>
    have htime := (Dos.Quiet.of_call ht).trans (dostimeStruct_quiet px t tv)
    split
    . next h =>
      rw [h] at htime
      exact htime
    . next h =>
      rw [h] at htime
      exact htime

theorem dosixDosGettime_quiet (time : Dostime) : s.Quiet (dosixDosGettime px time s).2 := by
  unfold dosixDosGettime
  split
  . next ht => exact .of_call ht
  . next tv t ht =>
    have htime := (Dos.Quiet.of_call ht).trans (dostimeStruct_quiet px t tv)
    split
    . next h =>
      rw [h] at htime
      exact htime
    . next h =>
      rw [h] at htime
      exact htime

theorem setClock_quiet (date : Dosdate) (time : Dostime)
    : Meets (fun r => s.Quiet r.state) (fun _ => True) (setClock px date time s) := by
  unfold setClock
  have hutime := unixtimeStruct_quiet px s date time
  split
  . next h =>
    rw [h] at hutime
    exact hutime
  . next h =>
    rw [h] at hutime
    split
    . next ht => exact (hutime.trans (.of_call ht)).failed
    . next ht => exact hutime.trans (.of_call ht)

theorem dosixDosSetdate_quiet (date : Dosdate)
    : Meets (fun r => s.Quiet r.state) (fun _ => True) (dosixDosSetdate px date s) :=
  (setClock_quiet px _ date _).imp fun _ hr => (dosixDosGettime_quiet px s _).trans hr

theorem dosixDosSettime_quiet (time : Dostime)
    : Meets (fun r => s.Quiet r.state) (fun _ => True) (dosixDosSettime px time s) :=
  (setClock_quiet px _ _ time).imp fun _ hr => (dosixDosGetdate_quiet px s _).trans hr

/-! What is not quiet. -/

theorem getchSetup_quiet (echo : Bool) : s.Quiet (getchSetup px echo s).2 := by
  unfold getchSetup
  split
  . next ht => exact .of_call ht
  . next ht =>
    have hisatty := Dos.Quiet.of_call ht
    split
    next u hu =>
    exact (hisatty.trans (.of_call hu)).trans (u.call_quiet _)

theorem getch_within (echo : Bool) : s.Within [.pushback] (getch px echo s).2 := by
  unfold getch
  split
  . exact s.within_ungetchFull false
  . have hsetup := getchSetup_quiet px s echo
    split
    next prev t ht =>
    rw [ht] at hsetup
    split
    next c u hu =>
    have hread := hsetup.trans (.of_call hu)
    dsimp only
    split
    . exact hread.within
    . exact (hread.trans (u.call_quiet _)).within

theorem dosixPutch_quiet (c : BitVec 32) : s.Quiet (dosixPutch px c s).2 := by
  unfold dosixPutch
  split
  . next ht => exact .of_call ht
  . next ht => exact .of_call ht

theorem writeStdout_quiet (string : List (BitVec 8)) : s.Quiet (writeStdout px string s).2 := by
  induction string generalizing s with
  | nil => exact .refl s
  | cons c string ih =>
    unfold writeStdout
    split
    . next ht => exact .of_call ht
    . next t ht => exact (Dos.Quiet.of_call ht).trans (ih t)

theorem freeAllocmem_within (ptr : Addr) : Confined [.blocks] s id (freeAllocmem ptr s) := by
  unfold freeAllocmem
  split
  . trivial
  . exact s.within_allocmem _

theorem allocmemError_within : Confined [.blocks] s Result.state (allocmemError px s) :=
  .of_quiet (allocmemError_quiet px s)

theorem allocmemInsert_within (ptr address : Addr)
    : Confined [.blocks] s Result.state (allocmemInsert px ptr address s) := by
  unfold allocmemInsert
  split
  . split
    next memory os hos =>
    split
    . have hfree := freeAllocmem_within ((s.setOs os).setErrno (some .ENOMEM)) ptr
      have herrno : s.Within [.blocks] ((s.setOs os).setErrno (some .ENOMEM)) :=
        ((Dos.Quiet.setOs s os).trans (.setErrno _ _)).within
      split
      . trivial
      . next t ht => exact (allocmemError_within px t).after (herrno.trans (hfree.of_ok ht))
    . split
      . exact (Dos.Quiet.setOs s os).within.trans ((s.setOs os).within_allocmemTree _)
      . trivial
  . trivial

theorem dosixDosAllocmem_within (size : Size)
    : Confined [.blocks] s Result.state (dosixDosAllocmem px size s) := by
  unfold dosixDosAllocmem
  split
  . exact .refl s
  . split
    next ptr os hos =>
    split
    . exact (allocmemError_within px _).after
        ((Dos.Quiet.setOs s os).trans (.setErrno _ _)).within
    . dsimp only
      split
      . next t ht =>
        exact (allocmemError_within px t).after ((Dos.Quiet.setOs s os).trans (.of_call ht)).within
      . next address t ht =>
        have hmmap : s.Within [.blocks] t := ((Dos.Quiet.setOs s os).trans (.of_call ht)).within
        exact (allocmemInsert_within px _ ptr address).after
          ((hmmap.trans (t.within_allocmem _)).trans (Dos.within_mappings _ _))

theorem dosixDosSetblock_within (size : Size) (seg : Addr)
    : Confined [.blocks] s Result.state (dosixDosSetblock px size seg s) := by
  unfold dosixDosSetblock
  split
  . exact .refl s
  split
  . split
    . exact .of_quiet (s := s) (Dos.Quiet.failed (.setErrno s _))
    split
    . trivial
    split
    . trivial
    split
    . dsimp only
      split
      . next t ht => exact (allocmemError_within px t).after (Dos.Quiet.of_call ht).within
      . next address t ht =>
        split
        . exact ((Dos.Quiet.of_call ht).within.trans (t.within_allocmem _)).trans
            (Dos.within_mappings _ _)
        . trivial
    . trivial
  . trivial

theorem freememDelete_within (seg : Addr) (slot : Nat)
    : Confined [.blocks] s Result.state (freememDelete px seg slot s) := by
  unfold freememDelete
  split
  . trivial
  . next freed tree _ =>
    split
    . trivial
    . next ptr _ =>
      have hfree := freeAllocmem_within (s.setAllocmemTree tree) ptr
      split
      . trivial
      . next t ht => exact (s.within_allocmemTree tree).trans (hfree.of_ok ht)

theorem dosixDosFreemem_within (seg : Addr)
    : Confined [.blocks] s Result.state (dosixDosFreemem px seg s) := by
  unfold dosixDosFreemem
  split
  . trivial
  split
  . split
    . exact .of_quiet (s := s) (Dos.Quiet.failed (.setErrno s _))
    split
    . trivial
    split
    . trivial
    split
    . split
      . next t ht =>
        exact ((Dos.Quiet.of_call ht).trans (exterrSet_quiet (α := Unit) _ _ t)).within
      . next t ht =>
        exact (freememDelete_within px _ seg _).after
          ((Dos.Quiet.of_call ht).within.trans (t.within_mappings _))
    . trivial
  . trivial

theorem findnextMatch_within (cdta : Addr) (filename : String) (attrib : BitVec 32) (fs : Stat)
    : s.Within [.search cdta] (findnextMatch px cdta filename attrib fs s).state := by
  have hattrib := s.within_modifyFindT cdta fun f => { f with attrib := attrib }
  have htime := dostimeInt_quiet px fs.mtime (s.modifyFindT cdta fun f => { f with attrib := attrib })
  unfold findnextMatch
  dsimp only
  split
  . next h =>
    rw [h] at htime
    exact hattrib.trans htime.within
  . next h =>
    rw [h] at htime
    exact (hattrib.trans htime.within).trans (Dos.within_modifyFindT _ _ _)

theorem findnextLoop_within {cdta : Addr} {left : Nat} {s : Dos σ}
    {p : Option (Result σ Unit) × Dos σ} (h : findnextLoop px cdta left s = .ok p)
    : s.Within [.search cdta] p.2 ∧ ∀ r ∈ p.1, s.Within [.search cdta] r.state := by
  induction left generalizing s with
  | zero =>
    obtain rfl := Except.ok.inj h
    exact ⟨.refl s, by simp⟩
  | succ left ih =>
    obtain ⟨_, filename, t, found, -, -, hround, h⟩ := findnextLoop_ok h
    have hquiet : s.Within [.search cdta] t := hround.quiet.within
    cases found with
    | none =>
      have hnext := hquiet.trans (t.within_modifyFindT cdta fun f => { f with _glPathi := f._glPathi + 1 })
      obtain ⟨hstate, hresult⟩ := ih h
      exact ⟨hnext.trans hstate, fun r hr => hnext.trans (hresult r hr)⟩
    | some found =>
      obtain rfl := Except.ok.inj h
      have hmatch := hquiet.trans (findnextMatch_within px t cdta filename found.1 found.2)
      exact ⟨hmatch, fun r hr => Option.some.inj hr ▸ hmatch⟩

theorem findnext_within : Confined [.search s.currentDta] s Result.state (findnext px s) := by
  unfold findnext
  dsimp only
  split
  . trivial
  . next h => exact (findnextLoop_within px h).2 _ rfl
  . next t h =>
    split
    . exact ((findnextLoop_within px h).1.trans (t.within_modifyFindT s.currentDta _)).trans
        ((Dos.Quiet.setErrorinfo _ _).trans (exterrSet_quiet (α := Unit) _ _ _)).within
    . trivial

theorem findfirst_within (filename : CString) (attrib : BitVec 32)
    : Confined [.search s.currentDta] s Result.state (findfirst px filename attrib s) := by
  have hset (a : Addr) (t : Dos σ) (f : FindT → FindT) : t.Within [.search a] (t.modifyFindT a f) :=
    t.within_modifyFindT a f
  unfold findfirst
  split
  . trivial
  . dsimp only
    split
    . next paths os hos =>
      have hglob : s.Within [.search s.currentDta] (globbed (s.setOs os) s.currentDta paths) :=
        (Dos.Quiet.setOs s os).within.trans (hset _ _ _)
      split
      . exact (findnext_within px _).after (hglob.trans (hset _ _ _))
      . trivial
    . next e paths os hos =>
      have herr : s.Within [.search s.currentDta] (errfunc e (s.setOs os)) :=
        ((Dos.Quiet.setOs s os).trans (errfunc_quiet e _)).within
      exact (Confined.of_quiet (failed_quiet _)).after ((herr.trans (hset _ _ _)).trans (hset _ _ _))
    . next os hos =>
      exact (((Dos.Quiet.setOs s os).within.trans (hset _ _ _)).trans (hset _ _ _)).trans
        (exterrSet_quiet (α := Unit) _ _ _).within
    . next paths os hos =>
      exact (((Dos.Quiet.setOs s os).within.trans (hset _ _ _)).trans (hset _ _ _)).trans
        (exterrSet_quiet (α := Unit) _ _ _).within

theorem dosixDosSetvect_within (intnum : Nat) (syscall : Addr)
    : Confined [.vectors] s id (dosixDosSetvect intnum syscall s) := by
  unfold dosixDosSetvect assertThat
  split
  . split
    . exact s.within_intVect _
    . trivial
  . trivial

/-! The services. -/

section

variable {px : Posix σ} {s : Dos σ}

/--
Where the service returns, it has written to no other registers than these, and has changed no other
parts.
-/
def Serves (regs : List Reg) (parts : List Part) (cpu : Cpu) (s : Dos σ)
    (x : Except Fault (Cpu × Dos σ)) : Prop :=
  Meets (fun r => cpu.Within regs r.1 ∧ s.Within parts r.2) (fun _ => True) x

namespace Serves

variable {regs : List Reg} {parts : List Part} {cpu : Cpu}

theorem checked {p : Prop} [Decidable p] {x : Except Fault (Cpu × Dos σ)}
    (h : Serves regs parts cpu s x)
    : Serves regs parts cpu s (assertThat p >>= fun _ => x) := by
  unfold assertThat
  split
  . exact h
  . trivial

theorem result {x : Except Fault (Result σ α)} {f : Result σ α → Cpu}
    (h : Confined parts s Result.state x) (hf : ∀ r, cpu.Within regs (f r))
    : Serves regs parts cpu s (x >>= fun r => pure (f r, r.state)) := by
  cases x with
  | error e => trivial
  | ok r => exact ⟨hf r, h⟩

theorem quiet {x : Except Fault (Result σ α)} {f : Result σ α → Cpu} {q : Fault → Prop}
    (h : Meets (fun r => s.Quiet r.state) q x) (hf : ∀ r, cpu.Within regs (f r))
    : Serves regs parts cpu s (x >>= fun r => pure (f r, r.state)) :=
  .result (.of_quiet h) hf

end Serves

namespace Cpu

variable (cpu : Cpu)

theorem within_setCode (code : BitVec 32) : cpu.Within [.ax, .flags] (cpu.setCode code) := by
  intro r hr
  cases r
  case ax => simp at hr
  case flags => simp at hr
  all_goals rfl

theorem within_setHandle (code handle : BitVec 32)
    : cpu.Within [.ax, .flags] (cpu.setHandle code handle) := by
  intro r hr
  cases r
  case ax => simp at hr
  case flags => simp at hr
  all_goals rfl

theorem within_ax (x : BitVec 64) : cpu.Within [.ax] { cpu with ax := x } := by
  intro r hr
  cases r
  case ax => simp at hr
  all_goals rfl

end Cpu

section

variable (px s) (cpu : Cpu)

theorem cpuGetfileattr_serves
    : Serves [.ax, .cx, .flags] [] cpu s (cpuGetfileattr px cpu s) := by
  refine .checked (.checked (.quiet (getfileattr_quiet px _ s) ?_))
  intro r reg hreg
  cases reg
  case ax => simp at hreg
  case cx => simp at hreg
  case flags => simp at hreg
  all_goals rfl

theorem cpuGetftime_serves
    : Serves [.ax, .cx, .dx, .flags] [] cpu s (cpuGetftime px cpu s) := by
  refine .checked (.checked (.quiet (dosixDosGetftime_quiet px s _) ?_))
  intro r reg hreg
  cases reg
  case ax => simp at hreg
  case cx => simp at hreg
  case dx => simp at hreg
  case flags => simp at hreg
  all_goals rfl

theorem cpuGetdate_serves : Serves [.ax, .cx, .dx] [] cpu s (cpuGetdate px cpu s) := by
  refine .checked ⟨?_, (dosixDosGetdate_quiet px s _).within⟩
  intro reg hreg
  cases reg
  case ax => simp at hreg
  case cx => simp at hreg
  case dx => simp at hreg
  all_goals rfl

theorem cpuGettime_serves : Serves [.cx, .dx] [] cpu s (cpuGettime px cpu s) := by
  refine .checked ⟨?_, (dosixDosGettime_quiet px s _).within⟩
  intro reg hreg
  cases reg
  case cx => simp at hreg
  case dx => simp at hreg
  all_goals rfl

theorem within_esBx (es bx : BitVec 64) : cpu.Within [.bx, .es] { cpu with es := es, bx := bx } := by
  intro reg hreg
  cases reg
  case bx => simp at hreg
  case es => simp at hreg
  all_goals rfl

theorem cpuGetvect_serves : Serves [.bx, .es] [] cpu s (cpuGetvect cpu s) := by
  refine .checked ?_
  cases dosGetvect cpu.al.toNat s with
  | error e => trivial
  | ok syscall => exact ⟨within_esBx cpu _ _, .refl s⟩

theorem cpuSetvect_serves : Serves [] [.vectors] cpu s (cpuSetvect cpu s) := by
  refine .checked ?_
  have hsetvect := dosixDosSetvect_within s cpu.al.toNat (MK_FP cpu.ds cpu.dx)
  cases h : dosixDosSetvect cpu.al.toNat (MK_FP cpu.ds cpu.dx) s with
  | error e => trivial
  | ok t => exact ⟨.refl cpu, hsetvect.of_ok h⟩

theorem cpuAllocmem_serves
    : Serves [.ax, .bx, .flags] [.blocks] cpu s (cpuAllocmem px cpu s) := by
  refine .checked ?_
  have halloc := dosixDosAllocmem_within px s cpu.bx
  cases h : dosixDosAllocmem px cpu.bx s with
  | error e => trivial
  | ok r =>
    dsimp only [bind, Except.bind]
    split
    all_goals
      refine ⟨?_, halloc.of_ok h⟩
      intro reg hreg
      cases reg
      case ax => simp at hreg
      case bx => simp at hreg
      case flags => simp at hreg
      all_goals rfl

theorem cpuSetblock_serves
    : Serves [.ax, .bx, .flags] [.blocks] cpu s (cpuSetblock px cpu s) := by
  refine .checked (.result (dosixDosSetblock_within px s _ _) ?_)
  intro r reg hreg
  cases reg
  case ax => simp at hreg
  case bx => simp at hreg
  case flags => simp at hreg
  all_goals rfl

theorem cpuExterr_serves
    : Serves [.ax, .bx, .cx, .di, .es] [] cpu s (cpuExterr px cpu s) := by
  refine .checked (.checked (.checked ?_))
  have hexterr := dosixDosexterr_quiet s
  cases h : dosixDosexterr s with
  | error e => trivial
  | ok r =>
    dsimp only [bind, Except.bind]
    split
    all_goals
      refine ⟨?_, (hexterr.of_ok h).within⟩
      intro reg hreg
      cases reg
      case ax => simp at hreg
      case bx => simp at hreg
      case cx => simp at hreg
      case di => simp at hreg
      case es => simp at hreg
      all_goals rfl

end

/--
The service of this number keeps to its registers and its parts.
-/
def KeepsTo (s : Dos σ) (cpu : Cpu) (ah : BitVec 56) (al : BitVec 8) (service : Option (Syscall σ))
    : Prop :=
  ∀ f, service = some f → Serves (written ah al) (changed s.currentDta ah) cpu s (f cpu s)

namespace KeepsTo

variable {cpu : Cpu} {ah : BitVec 56} {al : BitVec 8} {f : Syscall σ} {x y : Option (Syscall σ)}

theorem none : KeepsTo (σ := σ) s cpu ah al none := by
  intro f hf
  cases hf

theorem some (hf : Serves (written ah al) (changed s.currentDta ah) cpu s (f cpu s))
    : KeepsTo s cpu ah al (some f) := by
  rintro _ ⟨⟩
  exact hf

theorem case (n : BitVec 56) (hx : KeepsTo s cpu n al x) (hy : KeepsTo s cpu ah al y)
    : KeepsTo s cpu ah al (if ah = n then x else y) := by
  split
  . next h => exact h ▸ hx
  . exact hy

theorem subcase (n : BitVec 8) (hx : KeepsTo s cpu ah n x) (hy : KeepsTo s cpu ah al y)
    : KeepsTo s cpu ah al (if al = n then x else y) := by
  split
  . next h => exact h ▸ hx
  . exact hy

theorem ite {p : Prop} [Decidable p] (hx : KeepsTo s cpu ah al x)
    : KeepsTo s cpu ah al (if p then x else .none) := by
  split
  . exact hx
  . exact .none

end KeepsTo

theorem int21Service_serves (px : Posix σ) (cpu : Cpu) (s : Dos σ)
    : KeepsTo s cpu cpu.ah cpu.al (int21Service px cpu) := by
  unfold int21Service
  -- the cases are those of the switch, in its order
  refine .case INT21_AH_FILE_METADATA
    (.subcase INT21_AL_FILE_METADATA_GETFILEATTR (.some (cpuGetfileattr_serves px s cpu))
      (.subcase INT21_AL_FILE_METADATA_SETFILEATTR
        (.some (.checked (.checked (.quiet (dosixDosSetfileattr_quiet px s _ _)
          fun _ => cpu.within_setCode _)))) .none)) ?_
  refine .case INT21_AH_FILE_TIME
    (.subcase INT21_AL_FILE_TIME_GETFTIME (.some (cpuGetftime_serves px s cpu))
      (.subcase INT21_AL_FILE_TIME_SETFTIME
        (.some (.checked (.checked (.quiet (dosixDosSetftime_quiet px s _ _ _)
          fun _ => cpu.within_setCode _)))) .none)) ?_
  refine .case INT21_AH_GETCHE (.some (.checked ⟨cpu.within_ax _, getch_within px s true⟩)) ?_
  refine .case INT21_AH_PUTCH
    (.some (.checked ⟨cpu.within_ax _, (dosixPutch_quiet px s _).within⟩)) ?_
  refine .case INT21_AH_GETCH (.some (.checked ⟨cpu.within_ax _, getch_within px s false⟩)) ?_
  refine .case INT21_AH_WRITE_STDOUT
    (.some (.checked ⟨cpu.within_ax _, (writeStdout_quiet px s _).within⟩)) ?_
  refine .case INT21_AH_SET_DTA_ADDR (.some (.checked ⟨.refl cpu, s.within_currentDta _⟩)) ?_
  refine .case INT21_AH_SETVECT (.some (cpuSetvect_serves s cpu)) ?_
  refine .case INT21_AH_GETDATE (.some (cpuGetdate_serves px s cpu)) ?_
  refine .case INT21_AH_SETDATE
    (.some (.checked (.quiet (dosixDosSetdate_quiet px s _) fun _ => cpu.within_ax _))) ?_
  refine .case INT21_AH_GETTIME (.some (cpuGettime_serves px s cpu)) ?_
  refine .case INT21_AH_SETTIME
    (.some (.checked (.quiet (dosixDosSettime_quiet px s _) fun _ => cpu.within_ax _))) ?_
  refine .case INT21_AH_GET_DTA_ADDR (.some (.checked ⟨within_esBx cpu _ _, .refl s⟩)) ?_
  refine .case INT21_AH_GETVECT (.some (cpuGetvect_serves s cpu)) ?_
  refine .case INT21_AH_CREAT
    (.some (.checked (.quiet (dosCreat_quiet px s _ _ _) fun _ => cpu.within_setHandle _ _))) ?_
  refine .case INT21_AH_OPEN
    (.some (.checked (.quiet (dosixDosOpen_quiet px s _ _) fun _ => cpu.within_setHandle _ _))) ?_
  refine .case INT21_AH_CLOSE
    (.some (.checked (.quiet (dosixDosClose_quiet px s _) fun _ => cpu.within_setCode _))) ?_
  refine .case INT21_AH_ALLOCMEM (.some (cpuAllocmem_serves px s cpu)) ?_
  refine .case INT21_AH_FREEMEM
    (.some (.checked (.result (dosixDosFreemem_within px s _) fun _ => cpu.within_setCode _))) ?_
  refine .case INT21_AH_SETBLOCK (.some (cpuSetblock_serves px s cpu)) ?_
  refine .case INT21_AH_FINDFIRST
    (.some (.checked (.result (findfirst_within px s _ _) fun _ => cpu.within_setCode _))) ?_
  refine .case INT21_AH_FINDNEXT
    (.some (.checked (.result (findnext_within px s) fun _ => cpu.within_setCode _))) ?_
  refine .case INT21_AH_EXTERR (.ite (.some (cpuExterr_serves px s cpu))) ?_
  exact .case INT21_AH_CREATNEW
    (.some (.checked (.quiet (dosCreat_quiet px s _ _ _) fun _ => cpu.within_setHandle _ _))) .none

theorem int21_within (px : Posix σ) (cpu : Cpu) (s : Dos σ)
    : Serves (written cpu.ah cpu.al) (changed s.currentDta cpu.ah) cpu s
        (int21MainDosApi px cpu s) := by
  have hservice := int21Service_serves px cpu s
  unfold int21MainDosApi
  cases hf : int21Service px cpu with
  | none => trivial
  | some f => exact hservice f hf

theorem int2f_within (px : Posix σ) (cpu : Cpu) (s : Dos σ)
    : Serves [] [] cpu s (int2fMultiplex px cpu s) := by
  unfold int2fMultiplex
  dsimp only
  split
  . exact .checked (.checked ⟨.refl cpu, (exterrSet_quiet (α := Unit) _ _ s).within⟩)
  . trivial

/-! The vectors. -/

/--
Where the function returns, it leaves the vectors as they are in `s`.
-/
def KeepsVectors (s : Dos σ) (state : α → Dos σ) (x : Except Fault α) : Prop :=
  Meets (fun a => (state a).intVect = s.intVect) (fun _ => True) x

theorem int21_intVect {cpu : Cpu} (hah : cpu.ah ≠ INT21_AH_SETVECT)
    : KeepsVectors s Prod.snd (int21MainDosApi px cpu s) := by
  apply (int21_within px cpu s).imp
  intro r hr
  refine hr.2 .vectors ?_
  unfold changed
  split_ifs
  all_goals simp

theorem int2f_intVect (cpu : Cpu) : KeepsVectors s Prod.snd (int2fMultiplex px cpu s) :=
  (int2f_within px cpu s).imp fun _ hr => hr.2 .vectors (by simp)

end

/-! The functions behind the vectors. -/

theorem toNat_lt_UINT8_MAX (n : BitVec 8) : n.toNat < UINT8_MAX ↔ n ≠ 0xff := by
  unfold UINT8_MAX
  have := n.isLt
  constructor
  . rintro h rfl
    exact absurd h (by decide)
  . intro h
    have hne : n.toNat ≠ 255 := fun heq => h (BitVec.eq_of_toNat_eq heq)
    omega

theorem dosGetvect_eq (n : BitVec 8) (s : Dos σ)
    : dosGetvect n.toNat s = if n = 0xff then .error .assertion else .ok (s.intVect n.toNat) := by
  unfold dosGetvect assertThat
  simp only [toNat_lt_UINT8_MAX]
  by_cases h : n = 0xff
  . simp only [h, ne_eq, not_true_eq_false, if_true, if_false]
    rfl
  . simp only [h, ne_eq, not_false_eq_true, if_true, if_false]
    rfl

theorem interrupt_eq (code : Addr → Syscall σ) (n : BitVec 8) (cpu : Cpu) (s : Dos σ)
    : interrupt code n cpu s
        = if n = 0xff then .error .assertion
          else callSyscall (if s.intVect n.toNat = 0 then none else some (code (s.intVect n.toNat)))
            cpu s := by
  unfold interrupt
  rw [dosGetvect_eq]
  split <;> rfl

/--
The functions that a vector may hold: the two of `dos.c`, and those of the program, each with the
registers and the parts of the state that it may change.
-/
structure Syscalls (px : Posix σ) where
  code : Addr → Syscall σ
  int21 : Addr
  int2f : Addr
  writes : Addr → Cpu → Dos σ → List Reg
  changes : Addr → Cpu → Dos σ → List Part
  int21_ne : int21 ≠ 0
  int2f_ne : int2f ≠ 0
  code_int21 : code int21 = int21MainDosApi px
  code_int2f : code int2f = int2fMultiplex px
  code_serves : ∀ a cpu s, a ≠ int21 → a ≠ int2f →
    Serves (writes a cpu s) (changes a cpu s) cpu s (code a cpu s)

namespace Syscalls

variable {px : Posix σ} (sys : Syscalls px) (a : Addr) (cpu : Cpu) (s : Dos σ)

/--
The vector table as the library has it at first.
-/
def start : Dos σ :=
  s.setIntVect fun n =>
    if n = INT21_MAIN_DOS_API.toNat then sys.int21
    else if n = INT2F_MULTIPLEX.toNat then sys.int2f
    else 0

/--
The registers that the function at an address may write to.
-/
def written : List Reg :=
  if a = sys.int21 then Dosix.written cpu.ah cpu.al
  else if a = sys.int2f then []
  else sys.writes a cpu s

/--
The parts of the state that the function at an address may change.
-/
def changed : List Part :=
  if a = sys.int21 then Dosix.changed s.currentDta cpu.ah
  else if a = sys.int2f then []
  else sys.changes a cpu s

theorem serves : Serves (sys.written a cpu s) (sys.changed a cpu s) cpu s (sys.code a cpu s) := by
  unfold written changed
  by_cases h21 : a = sys.int21
  . rw [if_pos h21, if_pos h21, h21, sys.code_int21]
    exact int21_within px cpu s
  . by_cases h2f : a = sys.int2f
    . rw [if_neg h21, if_pos h2f, if_neg h21, if_pos h2f, h2f, sys.code_int2f]
      exact int2f_within px cpu s
    . rw [if_neg h21, if_neg h2f, if_neg h21, if_neg h2f]
      exact sys.code_serves a cpu s h21 h2f

/--
An interrupt changes what the function may change that its vector holds.
-/
theorem interrupt_serves (n : BitVec 8)
    : Serves (sys.written (s.intVect n.toNat) cpu s) (sys.changed (s.intVect n.toNat) cpu s) cpu s
        (interrupt sys.code n cpu s) := by
  rw [interrupt_eq]
  split
  . trivial
  . unfold callSyscall
    by_cases hzero : s.intVect n.toNat = 0
    . rw [if_pos hzero]
      trivial
    . rw [if_neg hzero]
      exact sys.serves _ cpu s

theorem interrupt_int21 {n : BitVec 8} (hn : n ≠ 0xff) (h : s.intVect n.toNat = sys.int21)
    : interrupt sys.code n cpu s = int21MainDosApi px cpu s := by
  rw [interrupt_eq, if_neg hn, h, if_neg sys.int21_ne, sys.code_int21]
  rfl

end Syscalls

/-! Programs that load registers and raise interrupts. -/

inductive Instr where
  | mov (r : Reg) (x : BitVec 64)
  | int (n : BitVec 8)

/--
What a program sees: a register or a part of the state.
-/
inductive Place where
  | reg (r : Reg)
  | part (p : Part)
  deriving DecidableEq

namespace Place

abbrev Value (p : Place) : Type :=
  match p with
  | .reg _ => BitVec 64
  | .part p => p.Value

def view (p : Place) (m : Cpu × Dos σ) : p.Value :=
  match p with
  | .reg r => r.view m.1
  | .part p => p.view m.2

end Place

namespace Instr

variable {px : Posix σ} (sys : Syscalls px)

def execute (m : Cpu × Dos σ) (i : Instr) : Except Fault (Cpu × Dos σ) :=
  match i with
  | .mov r x => .ok (r.set x m.1, m.2)
  | .int n => interrupt sys.code n m.1 m.2

def footprint (m : Cpu × Dos σ) (i : Instr) : List Place :=
  match i with
  | .mov r _ => [.reg r]
  | .int n =>
    let syscall := m.2.intVect n.toNat
    (sys.written syscall m.1 m.2).map .reg ++ (sys.changed syscall m.1 m.2).map .part

variable {sys} {m m' : Cpu × Dos σ}

theorem within_serves {regs : List Reg} {parts : List Part}
    (h : m.1.Within regs m'.1 ∧ m.2.Within parts m'.2)
    : Footprint.Within Place.view (regs.map .reg ++ parts.map .part) m m' := by
  intro p hp
  cases p with
  | reg r => exact h.1 r (by simpa using hp)
  | part p => exact h.2 p (by simpa using hp)

theorem execute_within {i : Instr} (h : execute sys m i = .ok m')
    : Footprint.Within Place.view (footprint sys m i) m m' := by
  cases i with
  | mov r x =>
    have hm' := Except.ok.inj h
    subst hm'
    intro p hp
    cases p with
    | reg q =>
      have hne : q ≠ r := by simpa [footprint] using hp
      exact Reg.view_set_other hne
    | part p => rfl
  | int n => exact within_serves ((sys.interrupt_serves m.1 m.2 n).of_ok h)

/--
Over a whole program, a register that is not loaded and that no function invoked writes to keeps its
value, and so does a part of the state that no function invoked changes.
-/
theorem program_keeps {is : List Instr} (hrun : run (execute sys) m is = .ok m')
    : (∀ r, Always (execute sys) (fun m i => .reg r ∉ footprint sys m i) m is →
        r.view m'.1 = r.view m.1)
      ∧ ∀ p, Always (execute sys) (fun m i => .part p ∉ footprint sys m i) m is →
        p.view m'.2 = p.view m.2 :=
  ⟨fun r hr => run_untouched (fun _ _ _ h => execute_within h) (Place.reg r) hr hrun,
    fun p hp => run_untouched (fun _ _ _ h => execute_within h) (Place.part p) hp hrun⟩

end Instr

/--
The program has one function of its own, which answers in `AX`.
-/
def Syscalls.answering (px : Posix σ) : Syscalls px where
  code a :=
    if a = 0x401000 then int21MainDosApi px
    else if a = 0x402000 then int2fMultiplex px
    else fun cpu s => .ok ({ cpu with ax := 0x1234 }, s)
  int21 := 0x401000
  int2f := 0x402000
  writes := fun _ _ _ => [.ax]
  changes := fun _ _ _ => []
  int21_ne := by decide
  int2f_ne := by decide
  code_int21 := rfl
  code_int2f := rfl
  code_serves := by
    intro a cpu s h21 h2f
    rw [if_neg h21, if_neg h2f]
    exact ⟨cpu.within_ax _, .refl s⟩

/--
A program that allocates a block and then replaces INT 21h.
-/
def Instr.replacing : List Instr :=
  [.mov .ax 0x4800, .mov .bx 2, .int 0x21, .mov .dx 0x3000, .mov .ax 0x2521, .int 0x21,
    .mov .ax 0x1a00, .int 0x21]

theorem Instr.program_keeps_replacing
    : ∃ m, run (execute (.answering (Dos.scriptedKernel none)))
          ({ si := 7 }, (Syscalls.answering (Dos.scriptedKernel none)).start { os := [0x2000, 0x3000] })
          replacing = .ok m
        ∧ m.1.si = 7 ∧ m.1.ax = 0x1234 ∧ Part.dta.view m.2 = 0 := by
  obtain ⟨m, hrun, hax⟩ := exists_of_any
    (r := run (execute (.answering (Dos.scriptedKernel none)))
      ({ si := 7 }, (Syscalls.answering (Dos.scriptedKernel none)).start { os := [0x2000, 0x3000] })
      replacing)
    (q := fun m => m.1.ax = 0x1234) (by decide +kernel)
  have hkeeps := program_keeps hrun
  exact ⟨m, hrun, hkeeps.1 .si (by decide +kernel), of_decide_eq_true hax,
    hkeeps.2 .dta (by decide +kernel)⟩

end Dosix
