import Dosix.Catalogs.Basic
import Dosix.Dos.Lemmas.Descriptors
import Dosix.Dos.Lemmas.FileMode
import Dosix.Dos.Lemmas.FileTime

/-!
This module contains the disk as a program sees it through the file functions: files that are found
under paths and reached through handles, each with its permissions and the time of its last
modification. If the kernel does what POSIX says, the functions answer and change what the disk
says.
-/

namespace Dosix

open Catalogs Transition

variable {σ ι : Type}

structure Inode where
  mode : BitVec 32 := 0
  mtime : Int := 0
  deriving Repr, DecidableEq, Inhabited

/--
No class may write the file.
-/
def Inode.ReadOnly (i : Inode) : Prop :=
  i.mode &&& WRITE = 0

abbrev Disk (ι : Type) := Catalog String (BitVec 32) ι Inode

def O_ACCMODE : BitVec 32 := 3

/-! The kernel. -/

/--
What an `open` that succeeds makes of the disk. A file that no class may write cannot be opened for
writing, and truncating a file leaves its permissions alone.
-/
inductive Opened [DecidableEq ι] (flags mode : BitVec 32) (path : String) (fd : BitVec 32)
    (d : Disk ι) : Disk ι → Prop where
  | existing {file : ι} {inode : Inode} (hname : d.names path = some file)
      (hexcl : flags &&& O_EXCL = 0)
      (hwrites : flags &&& O_ACCMODE ≠ 0 → ¬ (d.contents file).ReadOnly)
      (hmode : inode.mode = (d.contents file).mode)
      (htrunc : flags &&& O_TRUNC = 0 → inode = d.contents file)
      : Opened flags mode path fd d ((d.put file inode).bind fd file)
  | created {file : ι} {inode : Inode} {e : Disk ι} (hname : d.names path = none)
      (hcreat : flags &&& O_CREAT ≠ 0) (hnew : d.Entered e file inode)
      (hpath : e.names path = some file) (hmode : inode.mode &&& PERMISSIONS &&& ~~~mode = 0)
      : Opened flags mode path fd d (e.bind fd file)

/--
What the calls behind the file functions do to the disk, in a process without privileges. A call
that fails changes nothing, but it is left open whether a `close` that fails has closed.
-/
structure DiskContract [DecidableEq ι] (px : Posix σ) (disk : σ → Disk ι) : Prop where
  openFile_error : ∀ {path flags mode os e os'},
    px.openFile path flags mode os = (.error e, os') → disk os' = disk os
  openFile_ok : ∀ {path flags mode os fd os'},
    px.openFile (some path) flags mode os = (.ok fd, os') →
      (disk os).handles fd = none ∧ Opened flags mode path fd (disk os) (disk os')
  close_error : ∀ {handle os e os'}, px.close handle os = (.error e, os') →
    disk os' = disk os ∨ disk os' = (disk os).release handle
  close_ok : ∀ {handle os os'}, px.close handle os = (.ok (), os') →
    disk os' = (disk os).release handle
  setlk : ∀ {fd type os r os'}, px.setlk fd type os = (r, os') → disk os' = disk os
  getfd : ∀ {fd os r os'}, px.getfd fd os = (r, os') → disk os' = disk os
  setfd : ∀ {fd flags os r os'}, px.setfd fd flags os = (r, os') → disk os' = disk os
  stat : ∀ {path os r os'}, px.stat path os = (r, os') → disk os' = disk os
  stat_ok : ∀ {path os fs os'}, px.stat path os = (.ok fs, os') →
    ∃ name file, path = some name ∧ (disk os).names name = some file
      ∧ (disk os).contents file = ⟨fs.mode, fs.mtime⟩
  fstat : ∀ {handle os r os'}, px.fstat handle os = (r, os') → disk os' = disk os
  fstat_ok : ∀ {handle os fs os'}, px.fstat handle os = (.ok fs, os') →
    ∃ file, (disk os).handles handle = some file
      ∧ (disk os).contents file = ⟨fs.mode, fs.mtime⟩
  accessW : ∀ {path os r os'}, px.accessW path os = (r, os') → disk os' = disk os
  accessW_ok : ∀ {name file os os'}, px.accessW (some name) os = (.ok (), os') →
    (disk os).names name = some file → ¬ ((disk os).contents file).ReadOnly
  chmod_error : ∀ {path mode os e os'}, px.chmod path mode os = (.error e, os') →
    disk os' = disk os
  chmod_ok : ∀ {name file mode os os'}, px.chmod (some name) mode os = (.ok (), os') →
    (disk os).names name = some file →
      ∃ mode', mode' &&& PERMISSIONS = mode &&& PERMISSIONS
        ∧ mode' &&& S_IFMT = ((disk os).contents file).mode &&& S_IFMT
        ∧ disk os' = (disk os).put file { (disk os).contents file with mode := mode' }
  futimes_error : ∀ {handle atime mtime os e os'},
    px.futimes handle atime mtime os = (.error e, os') → disk os' = disk os
  futimes_ok : ∀ {handle file atime mtime os os'},
    px.futimes handle atime mtime os = (.ok (), os') → (disk os).handles handle = some file →
      disk os' = (disk os).put file { (disk os).contents file with mtime := mtime.sec }
  glob : ∀ {pattern os r os'}, px.glob pattern os = (r, os') → disk os' = disk os

/-! The functions. -/

inductive FileCall where
  | creat (filename : CString) (attrib : BitVec 32)
  | creatnew (filename : CString) (attrib : BitVec 32)
  | openFile (path : CString) (mode : BitVec 32)
  | close (handle : BitVec 32)
  | getfileattr (path : CString)
  | setfileattr (path : CString) (attrib : BitVec 32)
  | getftime (handle : BitVec 32)
  | setftime (handle date time : BitVec 32)
  deriving Repr, DecidableEq

structure FileAnswer where
  code : BitVec 32
  out : Option FileOut
  deriving Repr, DecidableEq

def Result.answer (r : Result σ FileOut) : FileAnswer :=
  ⟨r.code, r.out⟩

def creatMode (attrib : BitVec 32) : BitVec 32 :=
  S_IRWXU &&& if attrib &&& _A_RDONLY ≠ 0 then ~~~S_IWUSR else ~~~0

/--
The attribute word that may be told of a file: one that no class may write is read-only.
-/
def Inode.Attributes (i : Inode) (bits : BitVec 32) : Prop :=
  if S_ISDIR i.mode then
    bits = _A_SUBDIR
  else
    bits = _A_NORMAL ||| _A_ARCH ||| _A_RDONLY ∨ bits = _A_NORMAL ||| _A_ARCH ∧ ¬ i.ReadOnly

/--
The file at the path has been opened, and the answer is the handle.
-/
def OpensFile [DecidableEq ι] (flags mode : BitVec 32) (path : CString) (out : Option FileOut)
    (d d' : Disk ι) : Prop :=
  ∃ name fd, path = some name ∧ d.handles fd = none ∧ Opened flags mode name fd d d'
    ∧ out = some (.handle fd)

namespace FileCall

def run (px : Posix σ) (c : FileCall) (s : Dos σ) : Except Fault (Result σ FileOut) :=
  match c with
  | .creat filename attrib => (dosixDosCreat px filename attrib s).map (.map .handle)
  | .creatnew filename attrib => (dosixDosCreatnew px filename attrib s).map (.map .handle)
  | .openFile path mode => (dosixDosOpen px path mode s).map (.map .handle)
  | .close handle => (dosixDosClose px handle s).map (.map fun _ => .nothing)
  | .getfileattr path => (dosixDosGetfileattr px path s).map (.map .attrib)
  | .setfileattr path attrib =>
    (dosixDosSetfileattr px path attrib s).map (.map fun _ => .nothing)
  | .getftime handle =>
    (dosixDosGetftime px handle s).map (.map fun (date, time) => .stamp date time)
  | .setftime handle date time =>
    (dosixDosSetftime px handle date time s).map (.map fun _ => .nothing)

/--
What the call may answer and make of the disk. An `open` that fails late keeps the handle to itself.
-/
def Effect [DecidableEq ι] (px : Posix σ) (c : FileCall) (a : FileAnswer) (d d' : Disk ι) : Prop :=
  match c with
  | .creat filename attrib =>
    if a.code = 0 then
      OpensFile (O_RDWR ||| O_CREAT ||| O_TRUNC) (creatMode attrib) filename a.out d d'
    else
      d' = d
  | .creatnew filename attrib =>
    if a.code = 0 then
      OpensFile (O_RDWR ||| O_CREAT ||| O_TRUNC ||| O_EXCL) (creatMode attrib) filename a.out d d'
    else
      d' = d
  | .openFile path mode =>
    if a.code = 0 then
      OpensFile (openFlags mode) 0 path a.out d d'
    else
      d' = d ∨ ∃ fd, OpensFile (openFlags mode) 0 path (some (.handle fd)) d d'
  | .close handle =>
    if a.code = 0 then d' = d.release handle else d' = d ∨ d' = d.release handle
  | .getfileattr path =>
    d' = d ∧ (a.code = 0 → ∃ name file bits, path = some name ∧ d.names name = some file
      ∧ a.out = some (.attrib bits) ∧ (d.contents file).Attributes bits)
  | .setfileattr path attrib =>
    if a.code = 0 then
      ∃ name file mode, path = some name ∧ d.names name = some file
        ∧ mode &&& PERMISSIONS
          = (attribWrite attrib).apply ((d.contents file).mode &&& PERMISSIONS)
        ∧ mode &&& S_IFMT = (d.contents file).mode &&& S_IFMT
        ∧ d' = d.put file { d.contents file with mode := mode }
    else
      d' = d
  | .getftime handle =>
    d' = d ∧ (a.code = 0 → ∃ file tm, d.handles handle = some file
      ∧ px.localtime (d.contents file).mtime = some tm
      ∧ a.out = some (.stamp (dostimeIntDate tm) (dostimeIntTime tm)))
  | .setftime handle date time =>
    if a.code = 0 then
      ∃ file, d.handles handle = some file
        ∧ px.mktime (unixtimeIntTm date time) ≠ -1
        ∧ d' = d.put file { d.contents file with mtime := px.mktime (unixtimeIntTm date time) }
    else
      d' = d

end FileCall

/-! What the functions do. -/

section

variable [DecidableEq ι] {px : Posix σ} {disk : σ → Disk ι} {s t : Dos σ} {α : Type}

theorem failed_kept {r : Result σ α} (ht : t.errno ≠ none) (h : failed t = .ok r)
    : r.code ≠ 0 ∧ r.state.os = t.os :=
  ⟨(failed_ne_zero ht).of_ok h, (failed_ok h).1⟩

theorem failed_call_kept {β : Type} {f : σ → Except Errno β × σ} {r : Result σ α}
    (hcall : s.call f = (none, t)) (h : failed t = .ok r)
    : r.code ≠ 0 ∧ ∃ e, f s.os = (.error e, r.state.os) := by
  obtain ⟨e, os, hf, rfl⟩ := Dos.call_none hcall
  obtain ⟨hcode, hos⟩ := failed_kept (by simp) h
  refine ⟨hcode, e, ?_⟩
  rw [hos]
  exact hf

theorem dosCreat_effect (hpx : DiskContract px disk) {filename : CString} {attrib flags : BitVec 32}
    {r : Result σ (BitVec 32)} (h : dosCreat px filename attrib flags s = .ok r)
    : if r.code = 0 then
        OpensFile flags (creatMode attrib) filename (r.out.map .handle) (disk s.os)
          (disk r.state.os)
      else
        disk r.state.os = disk s.os := by
  unfold dosCreat at h
  cases filename with
  | none => simp at h
  | some name =>
    rw [if_neg (by simp)] at h
    dsimp only at h
    split at h
    . next hcall =>
      obtain ⟨hcode, e, hopen⟩ := failed_call_kept hcall h
      rw [if_neg hcode]
      exact hpx.openFile_error hopen
    . next fd u hcall =>
      obtain ⟨os, hopen, rfl⟩ := Dos.call_some hcall
      obtain rfl := Except.ok.inj h
      obtain ⟨hunused, hopened⟩ := hpx.openFile_ok hopen
      exact ⟨name, fd, rfl, hunused, hopened, rfl⟩

/-! The calls behind `open` leave the disk alone. -/

theorem lockCall_disk (hpx : DiskContract px disk) {mode fd : BitVec 32} {os os' : σ}
    {r : Except Errno Unit} (h : lockCall px mode fd os = (r, os'))
    : disk os' = disk os := by
  unfold lockCall at h
  split at h
  . rw [(Prod.mk.inj h).2]
  . exact hpx.setlk h

theorem noinheritCall_disk (hpx : DiskContract px disk) {mode fd : BitVec 32} {os os' : σ}
    {r : Except Errno Unit} (h : noinheritCall px mode fd os = (r, os'))
    : disk os' = disk os := by
  unfold noinheritCall at h
  split at h
  . split at h
    . next hgetfd =>
      rw [← (Prod.mk.inj h).2]
      exact hpx.getfd hgetfd
    . next hgetfd => exact (hpx.setfd h).trans (hpx.getfd hgetfd)
  . rw [(Prod.mk.inj h).2]

theorem dosixDosOpen_effect (hpx : DiskContract px disk) {path : CString} {mode : BitVec 32}
    {r : Result σ (BitVec 32)} (h : dosixDosOpen px path mode s = .ok r)
    : (FileCall.openFile path mode).Effect px ⟨r.code, r.out.map .handle⟩ (disk s.os)
        (disk r.state.os) := by
  unfold dosixDosOpen at h
  cases path with
  | none => simp at h
  | some name =>
    rw [if_neg (by simp)] at h
    dsimp only at h
    split at h
    . next hcall =>
      obtain ⟨hcode, e, hopen⟩ := failed_call_kept hcall h
      unfold FileCall.Effect
      dsimp only
      rw [if_neg hcode]
      exact .inl (hpx.openFile_error hopen)
    . next fd u hcall =>
      obtain ⟨os, hopen, rfl⟩ := Dos.call_some hcall
      obtain ⟨hunused, hopened⟩ := hpx.openFile_ok hopen
      -- from here on the file is open, whatever becomes of the call
      have hopens {e : Disk ι} (he : e = disk os)
          : OpensFile (openFlags mode) 0 (some name) (some (.handle fd)) (disk s.os) e := by
        subst he
        exact ⟨name, fd, rfl, hunused, hopened, rfl⟩
      have hfailed {v : Dos σ} {f : σ → Except Errno Unit × σ} {os' : σ} (hos : disk os' = disk os)
          (hf : ∀ {e os''}, f os' = (.error e, os'') → disk os'' = disk os')
          (hcall : (s.setOs os').call f = (none, v)) (hr : failed v = .ok r)
          : (FileCall.openFile (some name) mode).Effect px ⟨r.code, r.out.map .handle⟩ (disk s.os)
            (disk r.state.os) := by
        obtain ⟨hcode, e, he⟩ := failed_call_kept hcall hr
        unfold FileCall.Effect
        dsimp only
        rw [if_neg hcode]
        exact .inr ⟨fd, hopens ((hf he).trans hos)⟩
      rw [openLock_eq_call] at h
      split at h
      . next hlock => exact hfailed rfl (fun h => lockCall_disk hpx h) hlock h
      . next v hlock =>
        obtain ⟨os', hos', rfl⟩ := Dos.call_some hlock
        have hos' := lockCall_disk hpx hos'
        rw [openNoinherit_eq_call] at h
        split at h
        . next hnoinherit =>
          exact hfailed hos' (fun h => noinheritCall_disk hpx h) hnoinherit h
        . next w hnoinherit =>
          obtain ⟨os'', hos'', rfl⟩ := Dos.call_some hnoinherit
          obtain rfl := Except.ok.inj h
          exact hopens ((noinheritCall_disk hpx hos'').trans hos')

theorem dosixDosClose_effect (hpx : DiskContract px disk) {handle : BitVec 32} {r : Result σ Unit}
    (h : dosixDosClose px handle s = .ok r) (out : Option FileOut)
    : (FileCall.close handle).Effect px ⟨r.code, out⟩ (disk s.os) (disk r.state.os) := by
  unfold dosixDosClose at h
  unfold FileCall.Effect
  dsimp only
  split at h
  . next hcall =>
    obtain ⟨hcode, e, hclose⟩ := failed_call_kept hcall h
    rw [if_neg hcode]
    exact hpx.close_error hclose
  . next u hcall =>
    obtain ⟨os, hclose, rfl⟩ := Dos.call_some hcall
    obtain rfl := Except.ok.inj h
    exact hpx.close_ok hclose

theorem dosixDosGetfileattr_effect (hpx : DiskContract px disk) {path : CString}
    {r : Result σ (BitVec 32)} (h : dosixDosGetfileattr px path s = .ok r)
    : (FileCall.getfileattr path).Effect px ⟨r.code, r.out.map .attrib⟩ (disk s.os)
        (disk r.state.os) := by
  unfold dosixDosGetfileattr at h
  split at h
  . next hcall =>
    obtain ⟨hcode, e, hstat⟩ := failed_call_kept hcall h
    exact ⟨hpx.stat hstat, fun hzero => absurd hzero hcode⟩
  . next fs u hcall =>
    obtain ⟨os, hstat, rfl⟩ := Dos.call_some hcall
    have hos := hpx.stat hstat
    obtain ⟨name, file, rfl, hname, hfile⟩ := hpx.stat_ok hstat
    have hmode : ((disk s.os).contents file).mode = fs.mode := by rw [hfile]
    have htells {bits : BitVec 32} {v : Dos σ} (hv : disk v.os = disk s.os)
        (hbits : ((disk s.os).contents file).Attributes bits) (hr : ⟨0, some bits, v⟩ = r)
        : (FileCall.getfileattr (some name)).Effect px ⟨r.code, r.out.map .attrib⟩ (disk s.os)
          (disk r.state.os) := by
      subst hr
      exact ⟨hv, fun _ => ⟨name, file, bits, rfl, hname, rfl, hbits⟩⟩
    split at h
    . next hdir =>
      refine htells hos ?_ (Except.ok.inj h)
      unfold Inode.Attributes
      rw [hmode, if_pos hdir]
    . next hdir =>
      have hattributes {bits : BitVec 32}
          (hbits : bits = _A_NORMAL ||| _A_ARCH ||| _A_RDONLY
            ∨ bits = _A_NORMAL ||| _A_ARCH ∧ ¬ ((disk s.os).contents file).ReadOnly)
          : ((disk s.os).contents file).Attributes bits := by
        unfold Inode.Attributes
        rw [hmode, if_neg hdir]
        exact hbits
      dsimp only at h
      split at h
      . next v hcall =>
        obtain ⟨os', haccess, rfl⟩ := Dos.call_some hcall
        refine htells ((hpx.accessW haccess).trans hos) (hattributes (.inr ⟨rfl, ?_⟩))
          (Except.ok.inj h)
        have hwritable := hpx.accessW_ok haccess (hos ▸ hname)
        rwa [Dos.setOs_os, hos] at hwritable
      . next v hcall =>
        obtain ⟨e, os', haccess, rfl⟩ := Dos.call_none hcall
        have hos' := (hpx.accessW haccess).trans hos
        split at h
        . exact htells hos' (hattributes (.inl rfl)) (Except.ok.inj h)
        . exact htells hos' (hattributes (.inl rfl)) (Except.ok.inj h)
        . obtain ⟨hcode, hsame⟩ := failed_kept (by simp) h
          refine ⟨?_, fun hzero => absurd hzero hcode⟩
          rw [hsame]
          exact hos'

theorem dosixDosSetfileattr_effect (hpx : DiskContract px disk) {path : CString}
    {attrib : BitVec 32} {r : Result σ Unit} (h : dosixDosSetfileattr px path attrib s = .ok r)
    (out : Option FileOut)
    : (FileCall.setfileattr path attrib).Effect px ⟨r.code, out⟩ (disk s.os)
        (disk r.state.os) := by
  unfold dosixDosSetfileattr at h
  unfold FileCall.Effect
  dsimp only
  split at h
  . next hcall =>
    obtain ⟨hcode, e, hstat⟩ := failed_call_kept hcall h
    rw [if_neg hcode]
    exact hpx.stat hstat
  . next fs u hcall =>
    obtain ⟨os, hstat, rfl⟩ := Dos.call_some hcall
    have hos := hpx.stat hstat
    obtain ⟨name, file, rfl, hname, hfile⟩ := hpx.stat_ok hstat
    dsimp only at h
    split at h
    . next hcall =>
      obtain ⟨hcode, e, hchmod⟩ := failed_call_kept hcall h
      rw [if_neg hcode]
      exact (hpx.chmod_error hchmod).trans hos
    . next hcall =>
      obtain ⟨os', hchmod, rfl⟩ := Dos.call_some hcall
      obtain rfl := Except.ok.inj h
      obtain ⟨mode, hpermissions, htype, hput⟩ := hpx.chmod_ok hchmod (hos ▸ hname)
      rw [Dos.setOs_os, hos] at htype hput
      refine ⟨name, file, mode, rfl, hname, ?_, htype, hput⟩
      rw [hpermissions, ← Mask.Write.apply_and _ _ attribWrite_permissions, hfile]
      congr 1
      unfold attribWrite Mask.Write.apply
      by_cases hrdonly : attrib &&& _A_RDONLY = 0
      . simp [hrdonly, WRITE]
      . rw [if_pos hrdonly, decide_eq_false hrdonly]
        rfl

theorem dosixDosGetftime_effect (hpx : DiskContract px disk) {handle : BitVec 32}
    {r : Result σ (BitVec 32 × BitVec 32)} (h : dosixDosGetftime px handle s = .ok r)
    : (FileCall.getftime handle).Effect px
        ⟨r.code, r.out.map fun (date, time) => .stamp date time⟩ (disk s.os) (disk r.state.os) := by
  unfold dosixDosGetftime at h
  split at h
  . next hcall =>
    obtain ⟨hcode, e, hfstat⟩ := failed_call_kept hcall h
    exact ⟨hpx.fstat hfstat, fun hzero => absurd hzero hcode⟩
  . next fs u hcall =>
    obtain ⟨os, hfstat, rfl⟩ := Dos.call_some hcall
    obtain ⟨file, hhandle, hfile⟩ := hpx.fstat_ok hfstat
    obtain rfl := Except.ok.inj h
    unfold dostimeInt
    split
    . next hnone =>
      refine ⟨hpx.fstat hfstat, fun hzero => absurd hzero ?_⟩
      exact badArguments_ne_zero (α := BitVec 32 × BitVec 32) none (s.setOs os)
    . next tm htm =>
      refine ⟨hpx.fstat hfstat, fun _ => ⟨file, tm, hhandle, ?_, rfl⟩⟩
      rw [hfile]
      exact htm

theorem dosixDosSetftime_effect (hpx : DiskContract px disk) {handle date time : BitVec 32}
    {r : Result σ Unit} (h : dosixDosSetftime px handle date time s = .ok r) (out : Option FileOut)
    : (FileCall.setftime handle date time).Effect px ⟨r.code, out⟩ (disk s.os)
        (disk r.state.os) := by
  unfold FileCall.Effect
  dsimp only
  unfold dosixDosSetftime at h
  by_cases hmktime : px.mktime (unixtimeIntTm date time) = -1
  . obtain ⟨code, t, hfail, hcode, hos⟩ := unixtimeInt_failed hmktime s
    rw [hfail] at h
    obtain rfl := Except.ok.inj h
    rw [if_neg hcode]
    exact congrArg disk hos
  . rw [unixtimeInt_done hmktime] at h
    dsimp only at h
    split at h
    . next hcall =>
      obtain ⟨hcode, e, hfstat⟩ := failed_call_kept hcall h
      rw [if_neg hcode]
      exact hpx.fstat hfstat
    . next fs u hcall =>
      obtain ⟨os, hfstat, rfl⟩ := Dos.call_some hcall
      have hos := hpx.fstat hfstat
      obtain ⟨file, hhandle, -⟩ := hpx.fstat_ok hfstat
      split at h
      . next hcall =>
        obtain ⟨hcode, e, hfutimes⟩ := failed_call_kept hcall h
        rw [if_neg hcode]
        exact (hpx.futimes_error hfutimes).trans hos
      . next hcall =>
        obtain ⟨os', hfutimes, rfl⟩ := Dos.call_some hcall
        obtain rfl := Except.ok.inj h
        have hput := hpx.futimes_ok hfutimes (hos ▸ hhandle)
        rw [Dos.setOs_os, hos] at hput
        exact ⟨file, hhandle, hmktime, hput⟩

/--
What a call answers and makes of the disk is one of its effects.
-/
theorem FileCall.run_effect (hpx : DiskContract px disk) {c : FileCall} {r : Result σ FileOut}
    (h : c.run px s = .ok r)
    : c.Effect px r.answer (disk s.os) (disk r.state.os) := by
  cases c with
  | creat | creatnew =>
    obtain ⟨r', hcall, rfl⟩ := exists_of_map h
    exact dosCreat_effect hpx hcall
  | openFile path mode =>
    obtain ⟨r', hcall, rfl⟩ := exists_of_map h
    exact dosixDosOpen_effect hpx hcall
  | close handle =>
    obtain ⟨r', hcall, rfl⟩ := exists_of_map h
    exact dosixDosClose_effect hpx hcall _
  | getfileattr path =>
    obtain ⟨r', hcall, rfl⟩ := exists_of_map h
    exact dosixDosGetfileattr_effect hpx hcall
  | setfileattr path attrib =>
    obtain ⟨r', hcall, rfl⟩ := exists_of_map h
    exact dosixDosSetfileattr_effect hpx hcall _
  | getftime handle =>
    obtain ⟨r', hcall, rfl⟩ := exists_of_map h
    exact dosixDosGetftime_effect hpx hcall
  | setftime handle date time =>
    obtain ⟨r', hcall, rfl⟩ := exists_of_map h
    exact dosixDosSetftime_effect hpx hcall _

end

end Dosix
