import Dosix.Dos.Lemmas.DiskSearch

/-!
This module contains runs of programs that work on files, through the functions and through INT 21h:
every answer and every change is one that the disk allows, and so a time or a protection that has
been set lasts until it is set again, under whatever path or handle the file is asked for.
-/

namespace Dosix

open Calendar Catalogs Transition

variable {σ ι : Type}

/-! What a call leaves alone. -/

namespace FileCall

/--
The call may set the time of the file: by way of its handle, or by truncating it.
-/
def Stamps (c : FileCall) (d : Disk ι) (file : ι) : Prop :=
  match c with
  | .creat (some name) _ => d.names name = some file
  | .setftime handle _ _ => d.handles handle = some file
  | _ => False

/--
The call may set the attributes of the file.
-/
def Chmods (c : FileCall) (d : Disk ι) (file : ι) : Prop :=
  match c with
  | .setfileattr (some name) _ => d.names name = some file
  | _ => False

/--
The call may make the file writable.
-/
def Unprotects (c : FileCall) (d : Disk ι) (file : ι) : Prop :=
  match c with
  | .setfileattr (some name) attrib => attrib &&& _A_RDONLY = 0 ∧ d.names name = some file
  | _ => False

def Closes (c : FileCall) (handle : BitVec 32) : Prop :=
  c = .close handle

end FileCall

section

variable [DecidableEq ι] {px : Posix σ} {c : FileCall} {a : FileAnswer} {d d' : Disk ι} {γ : Type}
  {get : Inode → γ} {touched : ι → Prop} {released : BitVec 32 → Prop}

theorem Opened.keeps {flags mode fd : BitVec 32} {name : String} (hunused : d.handles fd = none)
    (h : Opened flags mode name fd d d')
    (htrunc : ∀ file, d.names name = some file → flags &&& O_EXCL = 0 → flags &&& O_TRUNC ≠ 0 →
      touched file ∨ ∀ i i' : Inode, i.mode = i'.mode → get i = get i')
    : Keeps get touched released d d' := by
  cases h with
  | @existing file inode hname hexcl hwrites hmode hsame =>
    refine (Keeps.put ?_).then_bind hunused file
    by_cases hflags : flags &&& O_TRUNC = 0
    . right
      rw [hsame hflags]
    . exact (htrunc file hname hexcl hflags).imp_right fun h => h _ _ hmode
  | created hname hcreat hnew hpath hmode => exact (Keeps.entered hnew).then_bind hunused _

theorem openFlags_trunc (mode : BitVec 32) : openFlags mode &&& O_TRUNC = 0 := by
  unfold openFlags
  split
  all_goals
    split
    all_goals
      split
      all_goals rfl

theorem FileCall.Effect.keeps (h : c.Effect px a d d')
    (hstamps : ∀ file, c.Stamps d file →
      touched file ∨ ∀ i i' : Inode, i.mode = i'.mode → get i = get i')
    (hchmods : ∀ file, c.Chmods d file →
      touched file ∨ ∀ i i' : Inode, i.mtime = i'.mtime →
        i.mode &&& S_IFMT = i'.mode &&& S_IFMT → get i = get i')
    : Keeps get touched c.Closes d d' := by
  cases c with
  | creat filename attrib =>
    unfold Effect at h
    dsimp only at h
    split at h
    . obtain ⟨name, fd, rfl, hunused, hopened, -⟩ := h
      exact hopened.keeps hunused fun file hname _ _ => hstamps file hname
    . rw [h]
      exact .refl d
  | creatnew filename attrib =>
    unfold Effect at h
    dsimp only at h
    split at h
    . obtain ⟨name, fd, rfl, hunused, hopened, -⟩ := h
      exact hopened.keeps hunused fun _ _ hexcl _ => absurd hexcl (by decide)
    . rw [h]
      exact .refl d
  | openFile path mode =>
    have hopens {out : Option FileOut} (h : OpensFile (openFlags mode) 0 path out d d')
        : Keeps get touched (FileCall.openFile path mode).Closes d d' := by
      obtain ⟨name, fd, rfl, hunused, hopened, -⟩ := h
      exact hopened.keeps hunused fun _ _ _ htrunc => absurd (openFlags_trunc mode) htrunc
    unfold Effect at h
    dsimp only at h
    split at h
    . exact hopens h
    . obtain rfl | ⟨fd, h⟩ := h
      . exact .refl d'
      . exact hopens h
  | close handle =>
    have hreleased : (FileCall.close handle).Closes handle := rfl
    unfold Effect at h
    dsimp only at h
    split at h
    . rw [h]
      exact .release hreleased
    . obtain rfl | rfl := h
      . exact .refl d'
      . exact .release hreleased
  | getfileattr | getftime =>
    rw [h.1]
    exact .refl d
  | setfileattr path attrib =>
    unfold Effect at h
    dsimp only at h
    split at h
    . obtain ⟨name, file, mode, rfl, hname, -, htype, rfl⟩ := h
      exact .put ((hchmods file hname).imp_right fun h => h _ _ rfl htype)
    . rw [h]
      exact .refl d
  | setftime handle date time =>
    unfold Effect at h
    dsimp only at h
    split at h
    . obtain ⟨file, hhandle, -, rfl⟩ := h
      exact .put ((hstamps file hhandle).imp_right fun h => h _ _ rfl)
    . rw [h]
      exact .refl d

theorem FileCall.Effect.keeps_mtime (h : c.Effect px a d d')
    : Keeps Inode.mtime (c.Stamps d) c.Closes d d' :=
  h.keeps (fun _ hfile => .inl hfile) fun _ _ => .inr fun _ _ hmtime _ => hmtime

theorem FileCall.Effect.keeps_mode (h : c.Effect px a d d')
    : Keeps Inode.mode (c.Chmods d) c.Closes d d' :=
  h.keeps (fun _ _ => .inr fun _ _ hmode => hmode) fun _ hfile => .inl hfile

theorem FileCall.Effect.keeps_type (h : c.Effect px a d d')
    : Keeps (fun i : Inode => i.mode &&& S_IFMT) (fun _ => False) c.Closes d d' :=
  h.keeps (fun _ _ => .inr fun _ _ hmode => by rw [hmode]) fun _ _ => .inr fun _ _ _ htype => htype

theorem readOnly_iff (i : Inode) : i.ReadOnly ↔ i.mode &&& PERMISSIONS &&& WRITE = 0 := by
  rw [and_permissions_and_write]
  rfl

theorem attribWrite_rdonly {attrib : BitVec 32} (h : attrib &&& _A_RDONLY ≠ 0) (m : BitVec 32)
    : (attribWrite attrib).apply m &&& WRITE = 0 := by
  unfold attribWrite Mask.Write.apply
  rw [decide_eq_false h, if_neg (by simp), BitVec.and_assoc, BitVec.and_comm (~~~WRITE),
    BitVec.and_not_self]
  exact BitVec.and_zero

theorem FileCall.Effect.readOnly {name : String} {file : ι} (h : c.Effect px a d d')
    (hname : d.names name = some file) (hfile : (d.contents file).ReadOnly)
    (hkept : ¬ c.Unprotects d file)
    : (d'.contents file).ReadOnly := by
  by_cases hchmods : c.Chmods d file
  . cases c with
    | setfileattr path attrib =>
      unfold Effect at h
      dsimp only at h
      split at h
      . obtain ⟨name', file', mode, rfl, hname', hmode, -, rfl⟩ := h
        obtain rfl := Option.some.inj (hname'.symm.trans hchmods)
        have hrdonly : attrib &&& _A_RDONLY ≠ 0 := fun hzero => hkept ⟨hzero, hname'⟩
        rw [d.put_contents_same, readOnly_iff, hmode, attribWrite_rdonly hrdonly]
      . rw [h]
        exact hfile
    | _ => exact hchmods.elim
  . have hmode := h.keeps_mode.contents (.inl ⟨name, hname⟩) hchmods
    unfold Inode.ReadOnly
    rw [hmode]
    exact hfile

/-! What a protected file refuses. -/

/--
The call asks to write the file.
-/
def FileCall.WritesTo (c : FileCall) (d : Disk ι) (file : ι) : Prop :=
  match c with
  | .creat (some name) _ | .creatnew (some name) _ => d.names name = some file
  | .openFile (some name) mode =>
    mode &&& (_O_WRONLY ||| _O_RDWR) ≠ 0 ∧ d.names name = some file
  | _ => False

theorem openFlags_writes {mode : BitVec 32} (h : mode &&& (_O_WRONLY ||| _O_RDWR) ≠ 0)
    : openFlags mode &&& O_ACCMODE ≠ 0 := by
  rw [Mask.and_or_ne_zero] at h
  unfold openFlags
  have hrdonly : mode &&& _O_RDONLY = 0 := BitVec.and_zero
  rw [if_neg (not_not.mpr hrdonly)]
  by_cases hwronly : mode &&& _O_WRONLY = 0
  . have hrdwr := h.resolve_left (not_not.mpr hwronly)
    rw [if_neg (not_not.mpr hwronly), if_pos hrdwr]
    decide
  . rw [if_pos hwronly]
    split
    all_goals decide

theorem Opened.not_readOnly {flags mode fd : BitVec 32} {name : String} {file : ι}
    (h : Opened flags mode name fd d d') (hname : d.names name = some file)
    (hflags : flags &&& O_ACCMODE ≠ 0)
    : ¬ (d.contents file).ReadOnly := by
  cases h with
  | existing hname' hexcl hwrites hmode hsame =>
    obtain rfl := Option.some.inj (hname'.symm.trans hname)
    exact hwrites hflags
  | created hname' hcreat hnew hpath hmode => simp [hname'] at hname

theorem FileCall.Effect.refused {file : ι} (h : c.Effect px a d d')
    (hfile : (d.contents file).ReadOnly) (hwrites : c.WritesTo d file)
    : a.code ≠ 0 := by
  intro hcode
  have hopens {flags mode : BitVec 32} {path : CString} {name : String}
      (h : OpensFile flags mode path a.out d d') (hpath : path = some name)
      (hname : d.names name = some file) (hflags : flags &&& O_ACCMODE ≠ 0) : False := by
    obtain ⟨name', fd, hpath', -, hopened, -⟩ := h
    obtain rfl := Option.some.inj (hpath.symm.trans hpath')
    exact hopened.not_readOnly hname hflags hfile
  unfold Effect at h
  cases c with
  | creat path attrib =>
    cases path with
    | none => exact hwrites
    | some name =>
      dsimp only at h
      rw [if_pos hcode] at h
      exact hopens h rfl hwrites (by decide)
  | creatnew path attrib =>
    cases path with
    | none => exact hwrites
    | some name =>
      dsimp only at h
      rw [if_pos hcode] at h
      exact hopens h rfl hwrites (by decide)
  | openFile path mode =>
    cases path with
    | none => exact hwrites
    | some name =>
      dsimp only at h
      rw [if_pos hcode] at h
      exact hopens h rfl hwrites.2 (openFlags_writes hwrites.1)
  | _ => exact hwrites

end

/-! The register interface. -/

/--
The answer is the same where it counts.
-/
theorem FileCall.Effect.of_answer [DecidableEq ι] {px : Posix σ} {c : FileCall} {a b : FileAnswer}
    {d d' : Disk ι} (h : c.Effect px a d d') (hcode : b.code = a.code)
    (hout : a.code = 0 → ∀ out ∈ a.out, out ≠ .nothing → b.out = some out)
    : c.Effect px b d d' := by
  have hopens {flags mode : BitVec 32} {path : CString} (hzero : a.code = 0)
      (h : OpensFile flags mode path a.out d d') : OpensFile flags mode path b.out d d' := by
    obtain ⟨name, fd, hpath, hunused, hopened, hhandle⟩ := h
    exact ⟨name, fd, hpath, hunused, hopened, hout hzero _ hhandle (by simp)⟩
  unfold Effect at h ⊢
  rw [hcode]
  cases c with
  | creat | creatnew | openFile =>
    dsimp only at h ⊢
    split at h
    . next hzero =>
      rw [if_pos hzero]
      exact hopens hzero h
    . next hzero => rwa [if_neg hzero]
  | close | setfileattr | setftime => exact h
  | getfileattr path =>
    refine ⟨h.1, fun hzero => ?_⟩
    obtain ⟨name, file, bits, hpath, hname, hattrib, hbits⟩ := h.2 hzero
    exact ⟨name, file, bits, hpath, hname, hout hzero _ hattrib (by simp), hbits⟩
  | getftime handle =>
    refine ⟨h.1, fun hzero => ?_⟩
    obtain ⟨file, tm, hhandle, htm, hstamp⟩ := h.2 hzero
    exact ⟨file, tm, hhandle, htm, hout hzero _ hstamp (by simp)⟩

namespace FileService

/--
The function that the service calls: for a new file it is the one that any file will do for.
-/
def asCall (px : Posix σ) (f : FileService) (cpu : Cpu) (s : Dos σ) : FileCall :=
  match f with
  | .creat | .creatnew => .creat (path px cpu s) (cpu.cx.setWidth 32)
  | .openFile => .openFile (path px cpu s) (cpu.al.setWidth 32)
  | .close => .close (cpu.bx.setWidth 32)
  | .getfileattr => .getfileattr (path px cpu s)
  | .setfileattr => .setfileattr (path px cpu s) (cpu.cx.setWidth 32)
  | .getftime => .getftime (cpu.bx.setWidth 32)
  | .setftime => .setftime (cpu.bx.setWidth 32) (cpu.dx.setWidth 32) (cpu.cx.setWidth 32)

/--
What a program reads in the registers when the service is done.
-/
def answer (f : FileService) (cpu : Cpu) : FileAnswer where
  code := if cpu.flags ≠ 0 then cpu.ax.setWidth 32 else 0
  out :=
    match f with
    | .creat | .creatnew | .openFile => some (.handle (cpu.ax.setWidth 32))
    | .getfileattr => some (.attrib (cpu.cx.setWidth 32))
    | .getftime => some (.stamp (cpu.dx.setWidth 32) (cpu.cx.setWidth 32))
    | .close | .setfileattr | .setftime => some .nothing

variable {px : Posix σ} {cpu cpu' : Cpu} {s t : Dos σ} {f : FileService}

theorem int21_agrees (h : f.Selected cpu)
    : Agrees (int21MainDosApi px cpu s) ((f.asCall px cpu s).run px s) := by
  cases f with
  | creatnew =>
    rw [int21_creatnew h]
    exact agrees_handle _ _
  | _ => exact refines_of_ne_creatnew (by decide) h

theorem answer_code {r : Result σ FileOut} (h : Agrees (.ok (cpu', t)) (.ok r))
    : (f.answer cpu').code = r.code := by
  obtain ⟨-, hflags, hax, -⟩ := h
  unfold answer
  dsimp only
  rw [hflags]
  by_cases hcode : r.code = 0
  . simp [hcode]
  . rw [if_pos hcode, if_pos (by decide), hax hcode, BitVec.setWidth_setWidth_of_le _ (by omega),
      BitVec.setWidth_eq]

theorem setWidth_signExtend (fd : BitVec 32) : (fd.signExtend 64).setWidth 32 = fd := by
  apply BitVec.eq_of_getLsbD_eq
  intro i hi
  rw [BitVec.getLsbD_setWidth, BitVec.getLsbD_signExtend]
  simp [hi, Nat.lt_trans hi (by decide : 32 < 64)]

theorem answer_out {r : Result σ FileOut} (hrun : (f.asCall px cpu s).run px s = .ok r)
    (h : Agrees (.ok (cpu', t)) (.ok r)) (hcode : r.code = 0) {out : FileOut} (hout : out ∈ r.out)
    (hsome : out ≠ .nothing)
    : (f.answer cpu').out = some out := by
  have hregisters := h.2.2.2 hcode out hout
  cases f with
  | creat | creatnew | openFile =>
    obtain ⟨r', -, rfl⟩ := exists_of_map hrun
    obtain ⟨fd, -, rfl⟩ := Option.map_eq_some_iff.mp hout
    unfold FileOut.InRegisters at hregisters
    unfold answer
    dsimp only at hregisters ⊢
    rw [hregisters, setWidth_signExtend]
  | getfileattr =>
    obtain ⟨r', -, rfl⟩ := exists_of_map hrun
    obtain ⟨bits, -, rfl⟩ := Option.map_eq_some_iff.mp hout
    unfold FileOut.InRegisters at hregisters
    unfold answer
    dsimp only at hregisters ⊢
    rw [hregisters, BitVec.setWidth_setWidth_of_le _ (by omega), BitVec.setWidth_eq]
  | getftime =>
    obtain ⟨r', -, rfl⟩ := exists_of_map hrun
    obtain ⟨⟨date, time⟩, -, rfl⟩ := Option.map_eq_some_iff.mp hout
    unfold FileOut.InRegisters at hregisters
    unfold answer
    dsimp only at hregisters ⊢
    rw [hregisters.1, hregisters.2, BitVec.setWidth_setWidth_of_le _ (by omega),
      BitVec.setWidth_setWidth_of_le _ (by omega), BitVec.setWidth_eq, BitVec.setWidth_eq]
  | close | setfileattr | setftime =>
    obtain ⟨r', -, rfl⟩ := exists_of_map hrun
    obtain ⟨_, -, rfl⟩ := Option.map_eq_some_iff.mp hout
    exact absurd rfl hsome

theorem int21_effect [DecidableEq ι] {disk : σ → Disk ι} (hpx : DiskContract px disk)
    (h : f.Selected cpu) (hcall : int21MainDosApi px cpu s = .ok (cpu', t))
    : (f.asCall px cpu s).Effect px (f.answer cpu') (disk s.os) (disk t.os) := by
  have hagrees : Agrees (int21MainDosApi px cpu s) ((f.asCall px cpu s).run px s) :=
    int21_agrees h
  rw [hcall] at hagrees
  cases hrun : (f.asCall px cpu s).run px s with
  | error e =>
    rw [hrun] at hagrees
    exact hagrees.elim
  | ok r =>
    rw [hrun] at hagrees
    have heffect := FileCall.run_effect hpx hrun
    rw [hagrees.1]
    refine heffect.of_answer (answer_code hagrees) ?_
    intro hcode out hout hsome
    exact answer_out hrun hagrees hcode hout hsome

end FileService

/-! Runs. -/

/--
A call of a function, a service, a call for a search, or anything else that the program does.
-/
inductive FileRequest (σ : Type) where
  | call (c : FileCall)
  | int21 (f : FileService) (cpu : Cpu) (selected : f.Selected cpu)
  | search (a : Addr) (call : SearchCall)
  | other (g : Dos σ → Dos σ)

/--
A program, with the calls for files that it has made and their answers.
-/
structure FileSession (σ : Type) where
  dos : Dos σ
  log : List (FileCall × FileAnswer) := []

namespace FileRequest

def serve (px : Posix σ) (s : FileSession σ) (r : FileRequest σ) : Except Fault (FileSession σ) :=
  match r with
  | .call c => (c.run px s.dos).map fun r => ⟨r.state, s.log ++ [(c, r.answer)]⟩
  | .int21 f cpu _ =>
    (int21MainDosApi px cpu s.dos).map fun (cpu', t) =>
      ⟨t, s.log ++ [(f.asCall px cpu s.dos, f.answer cpu')]⟩
  | .search a c => (searchCall px s.dos a c).map fun r => { s with dos := r.state }
  | .other g => .ok { s with dos := g s.dos }

def asCall (px : Posix σ) (s : FileSession σ) (r : FileRequest σ) : Option FileCall :=
  match r with
  | .call c => some c
  | .int21 f cpu _ => some (f.asCall px cpu s.dos)
  | .search _ _ | .other _ => none

/--
Searches by INT 21h are those on the DTA, and what else the program does leaves the disk alone, and
the vector by which INT 21h comes to the services.
-/
def Allowed (disk : σ → Disk ι) (s : FileSession σ) (r : FileRequest σ) : Prop :=
  match r with
  | .call _ | .int21 _ _ _ => True
  | .search a c => c.On s.dos.currentDta a
  | .other g =>
    disk (g s.dos).os = disk s.dos.os
      ∧ (g s.dos).intVect INT21_MAIN_DOS_API.toNat = s.dos.intVect INT21_MAIN_DOS_API.toNat

end FileRequest

section

variable [DecidableEq ι] {px : Posix σ} {disk : σ → Disk ι} {s t : FileSession σ}
  {r : FileRequest σ}

theorem FileRequest.serve_effect (hpx : DiskContract px disk) (hallowed : r.Allowed disk s)
    (h : r.serve px s = .ok t)
    : match r.asCall px s with
      | some c => ∃ a, t.log = s.log ++ [(c, a)]
          ∧ c.Effect px a (disk s.dos.os) (disk t.dos.os)
      | none => t.log = s.log ∧ disk t.dos.os = disk s.dos.os := by
  cases r with
  | call c =>
    obtain ⟨r, hr, rfl⟩ := exists_of_map h
    exact ⟨_, rfl, c.run_effect hpx hr⟩
  | int21 f cpu selected =>
    obtain ⟨⟨cpu', u⟩, hr, rfl⟩ := exists_of_map h
    exact ⟨_, rfl, FileService.int21_effect hpx selected hr⟩
  | search a c =>
    obtain ⟨r, hr, rfl⟩ := exists_of_map h
    exact ⟨rfl, (searchCall_searches hpx hallowed hr).1⟩
  | other g =>
    obtain rfl := Except.ok.inj h
    exact ⟨rfl, hallowed.1⟩

/-! The refinement. -/

/--
The calls of the log, with their answers, take the disk `d` to `d'`.
-/
def Logs (px : Posix σ) (d : Disk ι) (log : List (FileCall × FileAnswer)) (d' : Disk ι) : Prop :=
  match log with
  | [] => d' = d
  | (c, a) :: log => ∃ e, c.Effect px a d e ∧ Logs px e log d'

theorem Logs.concat {d e d' : Disk ι} {log : List (FileCall × FileAnswer)} {c : FileCall}
    {a : FileAnswer} (h : Logs px d log e) (heffect : c.Effect px a e d')
    : Logs px d (log ++ [(c, a)]) d' := by
  induction log generalizing d with
  | nil =>
    obtain rfl := h
    exact ⟨d', heffect, rfl⟩
  | cons p log ih =>
    obtain ⟨f, hf, h⟩ := h
    exact ⟨f, hf, ih h⟩

/--
Whatever a program asks for by function or by INT 21h, its log is one of the disk.
-/
theorem run_refines (hpx : DiskContract px disk) {rs : List (FileRequest σ)}
    (hallowed : Always (FileRequest.serve px) (fun s r => r.Allowed disk s) s rs)
    (hrun : run (FileRequest.serve px) s rs = .ok t)
    : ∃ log, t.log = s.log ++ log ∧ Logs px (disk s.dos.os) log (disk t.dos.os) := by
  have hstep (u : FileSession σ) (r : FileRequest σ) (v : FileSession σ)
      (hu : ∃ log, u.log = s.log ++ log ∧ Logs px (disk s.dos.os) log (disk u.dos.os))
      (hr : r.Allowed disk u) (h : r.serve px u = .ok v)
      : ∃ log, v.log = s.log ++ log ∧ Logs px (disk s.dos.os) log (disk v.dos.os) := by
    obtain ⟨log, hlog, hlogs⟩ := hu
    have heffect := r.serve_effect hpx hr h
    split at heffect
    . obtain ⟨a, hlog', heffect⟩ := heffect
      refine ⟨_, ?_, hlogs.concat heffect⟩
      rw [hlog', hlog, List.append_assoc]
    . obtain ⟨hlog', hsame⟩ := heffect
      rw [hlog', hsame]
      exact ⟨log, hlog, hlogs⟩
  exact run_invariant hstep ⟨[], (List.append_nil _).symm, rfl⟩ hallowed hrun

/-! What lasts. -/

/--
The request is this call, and this is its answer.
-/
structure FileRequest.Answers (px : Posix σ) (s : FileSession σ) (r : FileRequest σ) (c : FileCall)
    (a : FileAnswer) (t : FileSession σ) : Prop where
  serve : r.serve px s = .ok t
  asCall : r.asCall px s = some c
  log : t.log = s.log ++ [(c, a)]

theorem FileRequest.exists_answers {c : FileCall} (h : r.serve px s = .ok t)
    (hc : r.asCall px s = some c)
    : ∃ a, r.Answers px s c a t := by
  cases r with
  | call c' =>
    obtain rfl := Option.some.inj hc
    obtain ⟨r, hr, rfl⟩ := exists_of_map h
    exact ⟨_, h, hc, rfl⟩
  | int21 f cpu selected =>
    obtain rfl := Option.some.inj hc
    obtain ⟨p, hp, rfl⟩ := exists_of_map h
    exact ⟨_, h, hc, rfl⟩
  | search a c => cases hc
  | other g => cases hc

theorem FileRequest.Answers.effect (hpx : DiskContract px disk) {c : FileCall} {a : FileAnswer}
    (h : r.Answers px s c a t)
    : c.Effect px a (disk s.dos.os) (disk t.dos.os) := by
  have hallowed : r.Allowed disk s := by
    have hcall := h.asCall
    cases r with
    | call c => trivial
    | int21 f cpu selected => trivial
    | search a c => cases hcall
    | other g => cases hcall
  have heffect := r.serve_effect hpx hallowed h.serve
  rw [h.asCall] at heffect
  obtain ⟨b, hlog, heffect⟩ := heffect
  rw [h.log] at hlog
  obtain ⟨-, rfl⟩ := Prod.mk.inj (List.singleton_inj.mp (List.append_cancel_left hlog))
  exact heffect

/--
The request comes to a call that has this property.
-/
def FileRequest.Comes (px : Posix σ) (disk : σ → Disk ι) (p : FileCall → Disk ι → Prop)
    (s : FileSession σ) (r : FileRequest σ) : Prop :=
  ∃ c, r.asCall px s = some c ∧ p c (disk s.dos.os)

theorem FileRequest.serve_keeps (hpx : DiskContract px disk) {γ : Type} {get : Inode → γ}
    {touches : FileCall → Disk ι → ι → Prop}
    (hkeeps : ∀ {c a d d'}, c.Effect px a d d' → Keeps get (touches c d) c.Closes d d')
    (s : FileSession σ) (r : FileRequest σ) (t : FileSession σ) (hallowed : r.Allowed disk s)
    (h : r.serve px s = .ok t)
    : Keeps get (fun file => r.Comes px disk (touches · · file) s)
        (fun handle => r.Comes px disk (fun c _ => c.Closes handle) s) (disk s.dos.os)
        (disk t.dos.os) := by
  have heffect := r.serve_effect hpx hallowed h
  split at heffect
  . next c hc =>
    obtain ⟨a, -, heffect⟩ := heffect
    have hkeeps := hkeeps heffect
    exact {
      names := hkeeps.names
      handles := fun hhandle => hkeeps.handles fun hcloses => hhandle ⟨c, hc, hcloses⟩
      contents := fun hknown hfile => hkeeps.contents hknown fun htouches =>
        hfile ⟨c, hc, htouches⟩
    }
  . rw [heffect.2]
    exact .refl _

section

variable {u : FileSession σ} {rs : List (FileRequest σ)} {name : String} {file : ι}
  (hpx : DiskContract px disk)
  (hallowed : Always (FileRequest.serve px) (fun s r => r.Allowed disk s) t rs)
  (hrun : run (FileRequest.serve px) t rs = .ok u)

include hpx hallowed hrun

theorem run_name (hname : (disk t.dos.os).names name = some file)
    : (disk u.dos.os).names name = some file :=
  run_names (FileRequest.serve_keeps hpx fun h => h.keeps_mtime) hallowed hname hrun

theorem run_mtime (hname : (disk t.dos.os).names name = some file)
    (hkept : Always (FileRequest.serve px)
      (fun s r => ¬ r.Comes px disk (FileCall.Stamps · · file) s) t rs)
    : ((disk u.dos.os).contents file).mtime = ((disk t.dos.os).contents file).mtime :=
  run_contents (FileRequest.serve_keeps hpx fun h => h.keeps_mtime) hallowed hkept hname hrun

theorem run_type (hname : (disk t.dos.os).names name = some file)
    : ((disk u.dos.os).contents file).mode &&& S_IFMT
        = ((disk t.dos.os).contents file).mode &&& S_IFMT :=
  run_contents (FileRequest.serve_keeps hpx fun h => h.keeps_type) hallowed
    (.of_forall (fun _ _ ⟨_, _, h⟩ => h) t rs) hname hrun

theorem run_readOnly (hname : (disk t.dos.os).names name = some file)
    (hfile : ((disk t.dos.os).contents file).ReadOnly)
    (hkept : Always (FileRequest.serve px)
      (fun s r => ¬ r.Comes px disk (FileCall.Unprotects · · file) s) t rs)
    : ((disk u.dos.os).contents file).ReadOnly := by
  have hstep (v : FileSession σ) (r : FileRequest σ) (w : FileSession σ)
      (hv : (disk v.dos.os).names name = some file ∧ ((disk v.dos.os).contents file).ReadOnly)
      (hr : r.Allowed disk v ∧ ¬ r.Comes px disk (FileCall.Unprotects · · file) v)
      (h : r.serve px v = .ok w)
      : (disk w.dos.os).names name = some file ∧ ((disk w.dos.os).contents file).ReadOnly := by
    have heffect := r.serve_effect hpx hr.1 h
    split at heffect
    . next c hc =>
      obtain ⟨a, -, heffect⟩ := heffect
      refine ⟨heffect.keeps_mtime.names hv.1, ?_⟩
      exact heffect.readOnly hv.1 hv.2 fun hunprotects => hr.2 ⟨c, hc, hunprotects⟩
    . rw [heffect.2]
      exact hv
  exact (run_invariant hstep ⟨hname, hfile⟩ (hallowed.and hkept) hrun).2

theorem run_handle {handle : BitVec 32} (hhandle : (disk t.dos.os).handles handle = some file)
    (hkept : Always (FileRequest.serve px) (fun s r => r.asCall px s ≠ some (.close handle)) t rs)
    : (disk u.dos.os).handles handle = some file := by
  have hkept : Always (FileRequest.serve px)
      (fun s r => ¬ r.Comes px disk (fun c _ => c.Closes handle) s) t rs := by
    refine hkept.imp fun s r hne => ?_
    rintro ⟨c, hc, rfl⟩
    exact hne hc
  exact run_handles (FileRequest.serve_keeps hpx fun h => h.keeps_mtime) hallowed hkept hhandle hrun

end

end

/-! A small volume. -/

/--
A disk with numbered files, the number of the next one and the next descriptor.
-/
structure Volume where
  disk : Disk Nat
  next : Nat
  known : ∀ {o}, disk.Known o → o < next
  fd : BitVec 32 := 3

namespace Volume

variable (v : Volume)

def put (o : Nat) (b : Inode) : Volume :=
  { v with disk := v.disk.put o b, known := v.known }

def release (h : BitVec 32) : Volume where
  disk := v.disk.release h
  next := v.next
  known := by
    rintro o (hname | ⟨k, hk⟩)
    . exact v.known (.inl hname)
    . by_cases hkh : k = h
      . subst hkh
        simp at hk
      . rw [v.disk.release_handles_of_ne hkh] at hk
        exact v.known (.inr ⟨k, hk⟩)
  fd := v.fd

def bind (o : Nat) (ho : o < v.next) : Volume where
  disk := v.disk.bind v.fd o
  next := v.next
  known := by
    rintro p (hname | ⟨k, hk⟩)
    . exact v.known (.inl hname)
    . by_cases hkfd : k = v.fd
      . subst hkfd
        rw [v.disk.bind_handles_same] at hk
        exact Option.some.inj hk ▸ ho
      . rw [v.disk.bind_handles_of_ne hkfd] at hk
        exact v.known (.inr ⟨k, hk⟩)
  fd := v.fd + 1

def create (name : String) (b : Inode) : Volume where
  disk := { v.disk.put v.next b with names := Function.update v.disk.names name (some v.next) }
  next := v.next + 1
  known := by
    rintro p (⟨n, hn⟩ | hhandle)
    . by_cases hname : n = name
      . subst hname
        simp only [Function.update_self, Option.some.injEq] at hn
        omega
      . simp only [Function.update_of_ne hname] at hn
        exact Nat.lt_succ_of_lt (v.known (.inl ⟨n, hn⟩))
    . exact Nat.lt_succ_of_lt (v.known (.inr hhandle))
  fd := v.fd

theorem create_entered {name : String} (hname : v.disk.names name = none) (b : Inode)
    : v.disk.Entered (v.create name b).disk v.next b where
  fresh := fun h => Nat.lt_irrefl _ (v.known h)
  names := by
    intro n p hn
    have hne : n ≠ name := by
      rintro rfl
      simp [hname] at hn
    simp [create, hne, hn]
  free := by
    intro n p hn hp
    by_cases hne : n = name
    . subst hne
      simp only [create, Function.update_self, Option.some.injEq] at hp
      exact hp.symm
    . simp [create, hne, hn] at hp
  handles := rfl
  contents := rfl

/--
The file at a path with what there is of it.
-/
def fileStat (o : Option Nat) : Except Errno Stat :=
  match o with
  | none => .error .ENOENT
  | some o => .ok { mode := (v.disk.contents o).mode, mtime := (v.disk.contents o).mtime }

def openFile (path : CString) (flags mode : BitVec 32) : Except Errno (BitVec 32) × Volume :=
  match path with
  | none => (.error .EFAULT, v)
  | some name =>
    if v.disk.handles v.fd ≠ none then
      (.error .EMFILE, v)
    else
      match h : v.disk.names name with
      | some o =>
        if flags &&& O_EXCL ≠ 0 then
          (.error .EEXIST, v)
        else if flags &&& O_ACCMODE ≠ 0 ∧ (v.disk.contents o).mode &&& WRITE = 0 then
          (.error .EACCES, v)
        else
          let inode :=
            if flags &&& O_TRUNC = 0 then v.disk.contents o
            else { v.disk.contents o with mtime := 0 }
          (.ok v.fd, (v.put o inode).bind o (v.known (.inl ⟨name, h⟩)))
      | none =>
        if flags &&& O_CREAT = 0 then
          (.error .ENOENT, v)
        else
          (.ok v.fd, (v.create name ⟨mode &&& PERMISSIONS, 0⟩).bind v.next (Nat.lt_succ_self _))

def kernel : Posix Volume where
  __ := (default : Posix Volume)
  cstring := fun _ _ => some "A.TXT"
  openFile := fun path flags mode v => v.openFile path flags mode
  close := fun handle v => (.ok (), v.release handle)
  setlk := fun _ _ v => (.ok (), v)
  stat := fun path v => (v.fileStat (path.bind v.disk.names), v)
  fstat := fun handle v => (v.fileStat (v.disk.handles handle), v)
  accessW := fun path v =>
    match path.bind v.disk.names with
    | none => (.error .ENOENT, v)
    | some o => (if (v.disk.contents o).mode &&& WRITE = 0 then .error .EACCES else .ok (), v)
  chmod := fun path mode v =>
    match path.bind v.disk.names with
    | none => (.error .ENOENT, v)
    | some o =>
      let inode := v.disk.contents o
      (.ok (), v.put o { inode with mode := inode.mode &&& S_IFMT ||| mode &&& PERMISSIONS })
  futimes := fun handle _ mtime v =>
    match v.disk.handles handle with
    | none => (.error .EBADF, v)
    | some o => (.ok (), v.put o { v.disk.contents o with mtime := mtime.sec })
  glob := fun pattern v =>
    (match pattern with
      | some name => if v.disk.names name = none then .nomatch else .success [name]
      | none => .nomatch, v)
  localtime := fun t => some (.ofTime t)
  mktime := Tm.toTime

theorem fileStat_ok {o : Option Nat} {fs : Stat} (h : v.fileStat o = .ok fs)
    : ∃ file, o = some file ∧ v.disk.contents file = ⟨fs.mode, fs.mtime⟩ := by
  unfold fileStat at h
  split at h
  . simp at h
  . next file =>
    injection h with h
    exact ⟨file, rfl, by rw [← h]⟩

theorem openFile_ok {name : String} {flags mode fd : BitVec 32} {v w : Volume}
    (h : v.openFile (some name) flags mode = (.ok fd, w))
    : v.disk.handles fd = none ∧ Opened flags mode name fd v.disk w.disk := by
  unfold openFile at h
  dsimp only at h
  split at h
  . simp at h
  . next hunused =>
    rw [not_not] at hunused
    split at h
    . next o hname =>
      split at h
      . simp at h
      . next hexcl =>
        split at h
        . simp at h
        . next hwrites =>
          obtain ⟨hfd, rfl⟩ := Prod.mk.inj h
          obtain rfl := Except.ok.inj hfd
          refine ⟨hunused, .existing hname (not_not.mp hexcl) ?_ ?_ ?_⟩
          . exact fun hflags hfile => hwrites ⟨hflags, hfile⟩
          . split
            . rfl
            . rfl
          . exact fun htrunc => if_pos htrunc
    . next hname =>
      split at h
      . simp at h
      . next hcreat =>
        obtain ⟨hfd, rfl⟩ := Prod.mk.inj h
        obtain rfl := Except.ok.inj hfd
        refine ⟨hunused, .created hname hcreat (v.create_entered hname _) ?_ ?_⟩
        . simp [create]
        . rw [BitVec.and_assoc mode, BitVec.and_self, BitVec.and_assoc, BitVec.and_comm,
            BitVec.and_assoc, BitVec.and_comm (~~~mode), BitVec.and_not_self]
          exact BitVec.and_zero

theorem openFile_error {path : CString} {flags mode : BitVec 32} {e : Errno} {v w : Volume}
    (h : v.openFile path flags mode = (.error e, w))
    : w = v := by
  unfold openFile at h
  split at h
  . exact (Prod.mk.inj h).2.symm
  . split at h
    . exact (Prod.mk.inj h).2.symm
    . split at h
      . split at h
        . exact (Prod.mk.inj h).2.symm
        . split at h
          . exact (Prod.mk.inj h).2.symm
          . simp at h
      . split at h
        . exact (Prod.mk.inj h).2.symm
        . simp at h

theorem chmodded_permissions (old mode : BitVec 32)
    : (old &&& S_IFMT ||| mode &&& PERMISSIONS) &&& PERMISSIONS = mode &&& PERMISSIONS := by
  have hapart : S_IFMT &&& PERMISSIONS = 0 := by decide
  rw [BitVec.and_or_distrib_right, BitVec.and_assoc, hapart, BitVec.and_assoc, BitVec.and_self]
  simp

theorem chmodded_type (old mode : BitVec 32)
    : (old &&& S_IFMT ||| mode &&& PERMISSIONS) &&& S_IFMT = old &&& S_IFMT := by
  have hapart : PERMISSIONS &&& S_IFMT = 0 := by decide
  rw [BitVec.and_or_distrib_right, BitVec.and_assoc, BitVec.and_self, BitVec.and_assoc, hapart]
  simp

theorem kernel_contract : DiskContract kernel disk where
  openFile_error := fun h => congrArg disk (openFile_error h)
  openFile_ok := openFile_ok
  close_error := by
    rintro handle v e w h
    simp [kernel] at h
  close_ok := by
    rintro handle v w h
    obtain rfl := (Prod.mk.inj h).2
    rfl
  setlk := by
    rintro fd type v r w h
    rw [(Prod.mk.inj h).2]
  getfd := by
    rintro fd v r w h
    rw [(Prod.mk.inj h).2]
  setfd := by
    rintro fd flags v r w h
    rw [(Prod.mk.inj h).2]
  stat := by
    rintro path v r w h
    rw [(Prod.mk.inj h).2]
  stat_ok := by
    rintro path v fs w h
    obtain ⟨file, hfile, hinode⟩ := v.fileStat_ok (Prod.mk.inj h).1
    obtain ⟨name, rfl, hname⟩ := Option.bind_eq_some_iff.mp hfile
    exact ⟨name, file, rfl, hname, hinode⟩
  fstat := by
    rintro handle v r w h
    rw [(Prod.mk.inj h).2]
  fstat_ok := by
    rintro handle v fs w h
    exact v.fileStat_ok (Prod.mk.inj h).1
  accessW := by
    rintro path v r w h
    unfold kernel at h
    dsimp only at h
    split at h
    . rw [(Prod.mk.inj h).2]
    . rw [(Prod.mk.inj h).2]
  accessW_ok := by
    rintro name file v w h hname
    unfold kernel at h
    dsimp only [Option.bind] at h
    rw [hname] at h
    dsimp only at h
    split at h
    . simp at h
    . next hwritable => exact hwritable
  chmod_error := by
    rintro path mode v e w h
    unfold kernel at h
    dsimp only at h
    split at h
    . rw [(Prod.mk.inj h).2]
    . simp at h
  chmod_ok := by
    rintro name file mode v w h hname
    unfold kernel at h
    dsimp only [Option.bind] at h
    rw [hname] at h
    obtain ⟨-, rfl⟩ := Prod.mk.inj h
    refine ⟨_, ?_, ?_, rfl⟩
    . exact chmodded_permissions _ _
    . exact chmodded_type _ _
  futimes_error := by
    rintro handle atime mtime v e w h
    unfold kernel at h
    dsimp only at h
    split at h
    . rw [(Prod.mk.inj h).2]
    . simp at h
  futimes_ok := by
    rintro handle file atime mtime v w h hhandle
    unfold kernel at h
    dsimp only at h
    rw [hhandle] at h
    obtain ⟨-, rfl⟩ := Prod.mk.inj h
    rfl
  glob := by
    rintro pattern v r w h
    rw [(Prod.mk.inj h).2]

/--
One file, open under two handles.
-/
def textFile : Volume where
  disk := {
    names := fun name => if name = "A.TXT" then some 0 else none
    handles := fun handle => if handle = 3 ∨ handle = 4 then some 0 else none
    contents := fun _ => { mode := S_IFREG ||| 0x1a4 }
  }
  next := 1
  known := by
    rintro o (⟨name, h⟩ | ⟨handle, h⟩)
    . dsimp only at h
      split at h
      . exact Option.some.inj h ▸ Nat.one_pos
      . simp at h
    . dsimp only at h
      split at h
      . exact Option.some.inj h ▸ Nat.one_pos
      . simp at h
  fd := 5

end Volume

theorem run_refines_textFile
    : ∃ t, run (FileRequest.serve Volume.kernel) ⟨{ os := Volume.textFile }, []⟩ [
          .call (.creat (some "B.TXT") _A_RDONLY),
          .call (.openFile (some "B.TXT") _O_RDWR),
          .int21 .getfileattr { ax := 0x4300 } ⟨rfl, rfl⟩,
          .search 0 (.findfirst (some "B.TXT") _A_NORMAL),
          .call (.close 5)
        ] = .ok t
        ∧ t.log.map (·.2.code.toNat) = [0, 5, 0, 0]
        ∧ Logs Volume.kernel Volume.textFile.disk t.log t.dos.os.disk := by
  obtain ⟨t, hrun, hcodes⟩ := exists_of_any
    (r := run (FileRequest.serve Volume.kernel) ⟨{ os := Volume.textFile }, []⟩ [
      .call (.creat (some "B.TXT") _A_RDONLY),
      .call (.openFile (some "B.TXT") _O_RDWR),
      .int21 .getfileattr { ax := 0x4300 } ⟨rfl, rfl⟩,
      .search 0 (.findfirst (some "B.TXT") _A_NORMAL),
      .call (.close 5)])
    (q := fun t => t.log.map (·.2.code.toNat) = [0, 5, 0, 0]) (by decide +kernel)
  refine ⟨t, hrun, of_decide_eq_true hcodes, ?_⟩
  obtain ⟨log, hlog, hlogs⟩ := run_refines Volume.kernel_contract
    (.of_mem (by simp [FileRequest.Allowed, SearchCall.On]) _) hrun
  rw [hlog]
  exact hlogs

end Dosix
