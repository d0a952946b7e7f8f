import Dosix.Dos.Lemmas.DiskRuns

/-!
This module contains what lasts on the disk over the runs of a program: the time that a file has
been given, the protection against writing, and the file that a handle leads to.
-/

namespace Dosix

open Calendar Catalogs Transition

variable {σ ι : Type}

section

variable [DecidableEq ι] {px : Posix σ} {disk : σ → Disk ι} {s t : FileSession σ}
  {r : FileRequest σ}

/-! The time of a file. -/

theorem dostimeInt_words (hutc : Utc px) {date time : BitVec 32} {d : Date} {c : Clock}
    (hdate : DateWord date d) (htime : TimeWord time c) {tm : Tm}
    (htm : px.localtime (px.mktime (unixtimeIntTm date time)) = some tm)
    : dostimeIntDate tm = date ∧ dostimeIntTime tm = time := by
  have ht := DosTime.of_dateWord hdate c
  rw [hutc.mktime, unixtimeIntTm_toTime hdate htime, hutc.localtime _ ht] at htm
  obtain rfl := Option.some.inj htm
  have hdate' := dateWord_dostimeIntDate ht
  have htime' := timeWord_dostimeIntTime (timestamp d c)
  rw [dateOf_timestamp] at hdate'
  rw [clockOf_timestamp, htime.evenClock_eq] at htime'
  exact ⟨hdate'.unique hdate, htime'.unique htime⟩

/--
A time that has been set by a handle of a file is what every handle of the file, and every search
that finds it, shows from then on, until the time is set again or the file is created anew.
-/
theorem stamp_lasts (hpx : DiskContract px disk) (hutc : Utc px) {u : FileSession σ}
    {rs : List (FileRequest σ)} {handle date time : BitVec 32} {d : Date} {c : Clock}
    (hdate : DateWord date d) (htime : TimeWord time c) {a : FileAnswer}
    (hset : r.Answers px s (.setftime handle date time) a t) (ha : a.code = 0) {name : String}
    {file : ι} (hname : (disk s.dos.os).names name = some file)
    (hhandle : (disk s.dos.os).handles handle = some file)
    (hallowed : Always (FileRequest.serve px) (fun s r => r.Allowed disk s) t rs)
    (hkept : Always (FileRequest.serve px)
      (fun s r => ¬ r.Comes px disk (FileCall.Stamps · · file) s) t rs)
    (hrun : run (FileRequest.serve px) t rs = .ok u)
    : (∀ (r' : FileRequest σ) handle' b v, r'.Answers px u (.getftime handle') b v →
        (disk u.dos.os).handles handle' = some file → b.code = 0 →
          b.out = some (.stamp date time))
      ∧ ∀ a call r', searchCall px u.dos a call = .ok r' → call.On u.dos.currentDta a →
        r'.code = 0 → ∃ path file', (r'.state.findT a).Matched path
          ∧ (disk u.dos.os).names path = some file'
          ∧ (file' = file →
            (r'.state.findT a).wrDate = date ∧ (r'.state.findT a).wrTime = time) := by
  have hmtime : ((disk u.dos.os).contents file).mtime = px.mktime (unixtimeIntTm date time) := by
    have heffect := hset.effect hpx
    unfold FileCall.Effect at heffect
    dsimp only at heffect
    rw [if_pos ha] at heffect
    obtain ⟨file', hhandle', -, hput⟩ := heffect
    obtain rfl := Option.some.inj (hhandle'.symm.trans hhandle)
    have hname' : (disk t.dos.os).names name = some file' := by
      rw [hput]
      exact hname
    rw [run_mtime hpx hallowed hrun hname' hkept, hput, Catalog.put_contents_same]
  constructor
  . intro r' handle' b v hget hhandle' hb
    obtain ⟨-, hstamp⟩ := hget.effect hpx
    obtain ⟨file', tm, hfile', htm, hout⟩ := hstamp hb
    obtain rfl := Option.some.inj (hfile'.symm.trans hhandle')
    rw [hmtime] at htm
    obtain ⟨hdate', htime'⟩ := dostimeInt_words hutc hdate htime htm
    rw [hout, hdate', htime']
  . intro a call r' hcall hon hcode
    obtain ⟨path, file', htells⟩ := (searchCall_searches hpx hon hcall).2 hcode
    refine ⟨path, file', htells.matched, htells.name, ?_⟩
    rintro rfl
    obtain ⟨tm, htm, hwrDate, hwrTime⟩ := htells.stamp
    rw [hmtime] at htm
    obtain ⟨hdate', htime'⟩ := dostimeInt_words hutc hdate htime htm
    exact ⟨hwrDate.trans hdate', hwrTime.trans htime'⟩

theorem stamp_lasts_twoHandles
    : ∃ t u v b, run (FileRequest.serve Volume.kernel) ⟨{ os := Volume.textFile }, []⟩
          [.call (.setftime 3 0x278f 0x48e0)] = .ok t
        ∧ run (FileRequest.serve Volume.kernel) t
          [.call (.close 3), .call (.setfileattr (some "A.TXT") _A_RDONLY)] = .ok u
        ∧ (FileRequest.int21 .getftime { ax := 0x5700, bx := 4 } ⟨rfl, rfl⟩).Answers Volume.kernel u
          (.getftime 4) b v
        ∧ b.code = 0 ∧ b.out = some (.stamp 0x278f 0x48e0) := by
  obtain ⟨t, ht, hanswers⟩ := exists_of_any
    (r := (FileRequest.call (.setftime 3 0x278f 0x48e0)).serve Volume.kernel
      ⟨{ os := Volume.textFile }, []⟩)
    (q := fun t => t.log = [(.setftime 3 0x278f 0x48e0, ⟨0, none⟩)]
      ∧ (run (FileRequest.serve Volume.kernel) t
        [.call (.close 3), .call (.setfileattr (some "A.TXT") _A_RDONLY)]).toOption.any fun u =>
          u.dos.os.disk.handles 4 = some 0
          ∧ ((FileRequest.int21 .getftime { ax := 0x5700, bx := 4 } ⟨rfl, rfl⟩).serve Volume.kernel
            u).toOption.any fun v => v.log.getLast?.all (·.2.code = 0)) (by decide +kernel)
  obtain ⟨hlog, hrest⟩ := of_decide_eq_true hanswers
  obtain ⟨u, hu, hrest⟩ := exists_of_any hrest
  obtain ⟨hhandle, hrest⟩ := of_decide_eq_true hrest
  obtain ⟨v, hv, hcode⟩ := exists_of_any hrest
  obtain ⟨b, hb⟩ := FileRequest.exists_answers hv rfl
  rw [hb.log, List.getLast?_concat] at hcode
  have hcode := of_decide_eq_true hcode
  refine ⟨t, u, v, b, run_single ht, hu, hb, hcode, ?_⟩
  have hshown := stamp_lasts Volume.kernel_contract ⟨fun _ _ => rfl, fun _ => rfl⟩
    (d := ⟨1999, 11, 15, by decide, by decide, by decide⟩)
    (c := ⟨9, 7, 0, by decide, by decide, by decide⟩)
    ⟨by decide, by decide, by decide, by decide⟩ ⟨by decide, by decide, by decide, by decide⟩
    ⟨ht, rfl, hlog⟩ rfl (show Volume.textFile.disk.names "A.TXT" = some 0 from rfl) rfl
    (.of_mem (by simp [FileRequest.Allowed]) t)
    (.of_mem (by simp [FileRequest.Comes, FileRequest.asCall, FileCall.Stamps]) t) hu
  exact hshown.1 _ _ _ _ hb hhandle hcode

/-! The protection of a file. -/

theorem Inode.readOnly_of_created {i : Inode} {attrib : BitVec 32}
    (hrdonly : attrib &&& _A_RDONLY ≠ 0)
    (hmode : i.mode &&& PERMISSIONS &&& ~~~creatMode attrib = 0)
    : i.ReadOnly := by
  have hwrite : ~~~creatMode attrib &&& WRITE = WRITE := by
    unfold creatMode
    rw [if_pos hrdonly]
    decide
  rw [readOnly_iff, ← hwrite, ← BitVec.and_assoc, hmode]
  exact BitVec.zero_and

/--
The call makes the file at the path one that no class may write, if it is answered with success.
-/
def FileCall.Protects (c : FileCall) (d : Disk ι) (name : String) : Prop :=
  match c with
  | .setfileattr path attrib => path = some name ∧ attrib &&& _A_RDONLY ≠ 0
  | .creat path attrib | .creatnew path attrib =>
    path = some name ∧ attrib &&& _A_RDONLY ≠ 0 ∧ d.names name = none
  | _ => False

theorem OpensFile.readOnly {flags attrib : BitVec 32} {path : CString} {out : Option FileOut}
    {d d' : Disk ι} {name : String} (h : OpensFile flags (creatMode attrib) path out d d')
    (hpath : path = some name) (hrdonly : attrib &&& _A_RDONLY ≠ 0) (hname : d.names name = none)
    : ∃ file, d'.names name = some file ∧ (d'.contents file).ReadOnly := by
  obtain ⟨name', fd, hpath', -, hopened, -⟩ := h
  obtain rfl := Option.some.inj (hpath.symm.trans hpath')
  cases hopened with
  | existing hname' hexcl hwrites hmode hsame => simp [hname] at hname'
  | @created file inode e hname' hcreat hnew hpath' hmode =>
    refine ⟨file, hpath', ?_⟩
    rw [Catalog.bind_contents, hnew.contents, Function.update_self]
    exact Inode.readOnly_of_created hrdonly hmode

theorem FileCall.Effect.protects {c : FileCall} {a : FileAnswer} {d d' : Disk ι} {name : String}
    (h : c.Effect px a d d') (ha : a.code = 0) (hprotects : c.Protects d name)
    : ∃ file, d'.names name = some file ∧ (d'.contents file).ReadOnly := by
  unfold Effect at h
  cases c with
  | setfileattr path attrib =>
    obtain ⟨hpath, hrdonly⟩ := hprotects
    dsimp only at h
    rw [if_pos ha] at h
    obtain ⟨name', file, mode, hpath', hname, hmode, -, rfl⟩ := h
    obtain rfl := Option.some.inj (hpath.symm.trans hpath')
    refine ⟨file, hname, ?_⟩
    rw [d.put_contents_same, readOnly_iff, hmode, attribWrite_rdonly hrdonly]
  | creat | creatnew =>
    obtain ⟨hpath, hrdonly, hname⟩ := hprotects
    dsimp only at h
    rw [if_pos ha] at h
    exact h.readOnly hpath hrdonly hname
  | _ => exact hprotects.elim

theorem Inode.Attributes.eq_rdonly {i : Inode} {bits : BitVec 32} (h : i.Attributes bits)
    (hi : i.ReadOnly) (hdir : S_ISDIR i.mode = false)
    : bits = _A_NORMAL ||| _A_ARCH ||| _A_RDONLY := by
  unfold Attributes at h
  rw [hdir] at h
  simp only [Bool.false_eq_true, if_false] at h
  exact h.resolve_right fun hwritable => hwritable.2 hi

theorem Inode.Attributes.rdonly {i : Inode} {bits : BitVec 32} (h : i.Attributes bits)
    (hi : i.ReadOnly) (hdir : S_ISDIR i.mode = false)
    : bits &&& _A_RDONLY ≠ 0 := by
  rw [h.eq_rdonly hi hdir]
  decide

/--
A file that has been made read-only, by its attributes or by creating it so, is refused to every
call that asks to write it, and shown as read-only by every call and search, under whatever path,
until its attributes are set again without the bit.
-/
theorem protection_lasts (hpx : DiskContract px disk) {c : FileCall} {a : FileAnswer}
    {name : String} (hset : r.Answers px s c a t) (ha : a.code = 0)
    (hc : c.Protects (disk s.dos.os) name)
    : ∃ file, (disk t.dos.os).names name = some file
        ∧ ∀ rs u, Always (FileRequest.serve px) (fun s r => r.Allowed disk s) t rs →
          Always (FileRequest.serve px)
            (fun s r => ¬ r.Comes px disk (FileCall.Unprotects · · file) s) t rs →
          run (FileRequest.serve px) t rs = .ok u →
          (∀ (r' : FileRequest σ) c' b v, r'.Answers px u c' b v →
            c'.WritesTo (disk u.dos.os) file → b.code ≠ 0)
          ∧ (S_ISDIR ((disk t.dos.os).contents file).mode = false →
            (∀ (r' : FileRequest σ) path b v, r'.Answers px u (.getfileattr (some path)) b v →
              (disk u.dos.os).names path = some file → b.code = 0 →
                ∃ bits, b.out = some (.attrib bits) ∧ bits &&& _A_RDONLY ≠ 0)
            ∧ ∀ a call r', searchCall px u.dos a call = .ok r' → call.On u.dos.currentDta a →
              r'.code = 0 → ∃ path file', (r'.state.findT a).Matched path
                ∧ (disk u.dos.os).names path = some file'
                ∧ (file' = file → (r'.state.findT a).attrib &&& _A_RDONLY ≠ 0)) := by
  obtain ⟨file, hname, hfile⟩ := (hset.effect hpx).protects ha hc
  refine ⟨file, hname, fun rs u hallowed hkept hrun => ?_⟩
  have hfile := run_readOnly hpx hallowed hrun hname hfile hkept
  refine ⟨fun r' c' b v hc' hwrites => (hc'.effect hpx).refused hfile hwrites, fun hdir => ?_⟩
  have hdir' : S_ISDIR ((disk u.dos.os).contents file).mode = false := by
    unfold S_ISDIR at hdir ⊢
    rw [run_type hpx hallowed hrun hname]
    exact hdir
  constructor
  . intro r' path b v hget hpath hb
    obtain ⟨-, hattrib⟩ := hget.effect hpx
    obtain ⟨path', file', bits, hpath', hfile', hout, hbits⟩ := hattrib hb
    obtain rfl := Option.some.inj hpath'
    obtain rfl := Option.some.inj (hpath.symm.trans hfile')
    exact ⟨bits, hout, hbits.rdonly hfile hdir'⟩
  . intro a call r' hcall hon hcode
    obtain ⟨path, file', htells⟩ := (searchCall_searches hpx hon hcall).2 hcode
    refine ⟨path, file', htells.matched, htells.name, ?_⟩
    rintro rfl
    exact htells.attrib.rdonly hfile hdir'

theorem protection_lasts_opened
    : ∃ t u v b, run (FileRequest.serve Volume.kernel) ⟨{ os := Volume.textFile }, []⟩
          [.call (.creatnew (some "B.TXT") _A_RDONLY)] = .ok t
        ∧ run (FileRequest.serve Volume.kernel) t
          [.call (.setftime 5 0x278f 0x48e0), .call (.close 5)] = .ok u
        ∧ (FileRequest.call (.openFile (some "B.TXT") _O_RDWR)).Answers Volume.kernel u
          (.openFile (some "B.TXT") _O_RDWR) b v
        ∧ b.code ≠ 0 := by
  obtain ⟨t, ht, hanswers⟩ := exists_of_any
    (r := (FileRequest.call (.creatnew (some "B.TXT") _A_RDONLY)).serve Volume.kernel
      ⟨{ os := Volume.textFile }, []⟩)
    (q := fun t => t.log = [(.creatnew (some "B.TXT") _A_RDONLY, ⟨0, some (.handle 5)⟩)]
      ∧ (run (FileRequest.serve Volume.kernel) t
        [.call (.setftime 5 0x278f 0x48e0), .call (.close 5)]).toOption.any fun u =>
          ((FileRequest.call (.openFile (some "B.TXT") _O_RDWR)).serve Volume.kernel
            u).toOption.isSome) (by decide +kernel)
  obtain ⟨hlog, hrest⟩ := of_decide_eq_true hanswers
  obtain ⟨u, hu, hrest⟩ := exists_of_any hrest
  obtain ⟨v, hv, -⟩ := exists_of_any (q := fun _ => true) (by simpa using hrest)
  obtain ⟨b, hb⟩ := FileRequest.exists_answers hv rfl
  refine ⟨t, u, v, b, run_single ht, hu, hb, ?_⟩
  have hprotects : (FileCall.creatnew (some "B.TXT") _A_RDONLY).Protects Volume.textFile.disk
      "B.TXT" :=
    ⟨rfl, by decide, rfl⟩
  obtain ⟨file, hname, hlasts⟩ :=
    protection_lasts Volume.kernel_contract ⟨ht, rfl, hlog⟩ rfl hprotects
  have hallowed : Always (FileRequest.serve Volume.kernel)
      (fun s r => r.Allowed Volume.disk s) t
      [.call (.setftime 5 0x278f 0x48e0), .call (.close 5)] :=
    .of_mem (by simp [FileRequest.Allowed]) t
  refine (hlasts _ u hallowed
    (.of_mem (by simp [FileRequest.Comes, FileRequest.asCall, FileCall.Unprotects]) t) hu).1 _ _ _ _
    hb ⟨by decide, ?_⟩
  exact run_name Volume.kernel_contract hallowed hu hname

/-! The handles of a file. -/

/--
The path of the file that the call asks to open.
-/
def FileCall.opens (c : FileCall) : CString :=
  match c with
  | .creat path _ | .creatnew path _ | .openFile path _ => path
  | _ => none

theorem Opened.handle {flags mode fd : BitVec 32} {name : String} {d d' : Disk ι}
    (h : Opened flags mode name fd d d')
    : ∃ file, d'.names name = some file ∧ d'.handles fd = some file := by
  cases h with
  | existing hname hexcl hwrites hmode hsame => exact ⟨_, hname, Catalog.bind_handles_same _ _ _⟩
  | created hname hcreat hnew hpath hmode => exact ⟨_, hpath, Catalog.bind_handles_same _ _ _⟩

theorem FileCall.Effect.opens {c : FileCall} {a : FileAnswer} {d d' : Disk ι} {name : String}
    (h : c.Effect px a d d') (ha : a.code = 0) (hc : c.opens = some name)
    : ∃ fd file, a.out = some (.handle fd) ∧ d.handles fd = none ∧ d'.names name = some file
        ∧ d'.handles fd = some file := by
  have hopens {flags mode : BitVec 32} (h : OpensFile flags mode c.opens a.out d d')
      : ∃ fd file, a.out = some (.handle fd) ∧ d.handles fd = none ∧ d'.names name = some file
        ∧ d'.handles fd = some file := by
    obtain ⟨name', fd, hpath, hunused, hopened, hout⟩ := h
    obtain rfl := Option.some.inj (hc.symm.trans hpath)
    obtain ⟨file, hname, hhandle⟩ := hopened.handle
    exact ⟨fd, file, hout, hunused, hname, hhandle⟩
  unfold Effect at h
  cases c with
  | creat | creatnew | openFile =>
    dsimp only at h
    rw [if_pos ha] at h
    exact hopens h
  | _ => simp [FileCall.opens] at hc

/--
A handle that has been returned for a path leads to the file of this path, and is returned for no
other, as long as the program does not ask to close it.
-/
theorem handle_lasts (hpx : DiskContract px disk) {c : FileCall} {a : FileAnswer} {name : String}
    (hopen : r.Answers px s c a t) (ha : a.code = 0) (hc : c.opens = some name)
    : ∃ handle file, a.out = some (.handle handle)
        ∧ ∀ rs u, Always (FileRequest.serve px) (fun s r => r.Allowed disk s) t rs →
          Always (FileRequest.serve px) (fun s r => r.asCall px s ≠ some (.close handle)) t rs →
          run (FileRequest.serve px) t rs = .ok u →
          (disk u.dos.os).names name = some file ∧ (disk u.dos.os).handles handle = some file
            ∧ ∀ (r' : FileRequest σ) c' b v name', r'.Answers px u c' b v → b.code = 0 →
              c'.opens = some name' → b.out ≠ some (.handle handle) := by
  obtain ⟨handle, file, hout, -, hname, hhandle⟩ := (hopen.effect hpx).opens ha hc
  refine ⟨handle, file, hout, fun rs u hallowed hkept hrun => ?_⟩
  have hhandle := run_handle hpx hallowed hrun hhandle hkept
  refine ⟨run_name hpx hallowed hrun hname, hhandle, ?_⟩
  intro r' c' b v name' hanswers hb hc' hout'
  obtain ⟨fd, file', hfd, hunused, -⟩ := (hanswers.effect hpx).opens hb hc'
  rw [hout'] at hfd
  obtain rfl := FileOut.handle.inj (Option.some.inj hfd)
  simp [hhandle] at hunused

end

theorem handle_lasts_twoFiles
    : ∃ t u v b, run (FileRequest.serve Volume.kernel) ⟨{ os := Volume.textFile }, []⟩
          [.call (.openFile (some "A.TXT") _O_RDWR)] = .ok t
        ∧ run (FileRequest.serve Volume.kernel) t [.call (.close 3)] = .ok u
        ∧ (FileRequest.call (.creat (some "B.TXT") _A_NORMAL)).Answers Volume.kernel u
          (.creat (some "B.TXT") _A_NORMAL) b v
        ∧ b.code = 0 ∧ b.out ≠ some (.handle 5) ∧ u.dos.os.disk.names "A.TXT" = some 0
        ∧ u.dos.os.disk.handles 5 = u.dos.os.disk.names "A.TXT" := by
  obtain ⟨t, ht, hanswers⟩ := exists_of_any
    (r := (FileRequest.call (.openFile (some "A.TXT") _O_RDWR)).serve Volume.kernel
      ⟨{ os := Volume.textFile }, []⟩)
    (q := fun t => t.log = [(.openFile (some "A.TXT") _O_RDWR, ⟨0, some (.handle 5)⟩)]
      ∧ (run (FileRequest.serve Volume.kernel) t [.call (.close 3)]).toOption.any fun u =>
          u.dos.os.disk.names "A.TXT" = some 0
          ∧ ((FileRequest.call (.creat (some "B.TXT") _A_NORMAL)).serve Volume.kernel
            u).toOption.any fun v => v.log.getLast?.all (·.2.code = 0)) (by decide +kernel)
  obtain ⟨hlog, hrest⟩ := of_decide_eq_true hanswers
  obtain ⟨u, hu, hrest⟩ := exists_of_any hrest
  obtain ⟨hname, hrest⟩ := of_decide_eq_true hrest
  obtain ⟨v, hv, hcode⟩ := exists_of_any hrest
  obtain ⟨b, hb⟩ := FileRequest.exists_answers hv rfl
  rw [hb.log, List.getLast?_concat] at hcode
  have hcode := of_decide_eq_true hcode
  obtain ⟨handle, file, hout, hlasts⟩ :=
    handle_lasts Volume.kernel_contract ⟨ht, rfl, hlog⟩ rfl rfl
  obtain rfl := FileOut.handle.inj (Option.some.inj hout)
  obtain ⟨hname', hhandle, hother⟩ := hlasts _ u (.of_mem (by simp [FileRequest.Allowed]) t)
    (.of_mem (by simp [FileRequest.asCall]) t) hu
  exact ⟨t, u, v, b, run_single ht, hu, hb, hcode, hother _ _ _ _ _ hb hcode rfl, hname,
    hhandle.trans hname'.symm⟩

end Dosix
