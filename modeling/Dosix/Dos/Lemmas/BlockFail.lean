import Dosix.Dos.Lemmas.BlockSize

/-!
This module contains the calls on memory blocks that must fail: on an address that is not one of a
block, and on a block that the kernel does not release or resize.
-/

namespace Dosix

open SearchTree Transition

variable {σ : Type} {px : Posix σ} {s t : Dos σ} {seg : Addr} {size : Size}

/-! States that programs reach. -/

namespace Dos

structure SameBlocks (s s' : Dos σ) : Prop where
  allocmemTree : s'.allocmemTree = s.allocmemTree
  allocmem : s'.allocmem = s.allocmem
  mappings : s'.mappings = s.mappings

/--
A program calls the functions for memory blocks, and does anything else that leaves these alone.
-/
inductive Reached (px : Posix σ) : Dos σ → Prop where
  | start {s : Dos σ} (h : s.NoBlocks) : Reached px s
  | call {s s' : Dos σ} (call : MemCall) (hs : Reached px s) (h : memStep px s call = .ok s')
    : Reached px s'
  | other {s s' : Dos σ} (hs : Reached px s) (h : s.SameBlocks s') : Reached px s'

theorem Reached.run {s s' : Dos σ} {calls : List MemCall} (hs : Reached px s)
    (hrun : Transition.run (memStep px) s calls = .ok s')
    : Reached px s' := by
  apply run_invariant (p := fun _ _ => True) _ hs (.of_forall (fun _ _ => trivial) _ _) hrun
  intro s call s' hs _ hstep
  exact hs.call call hstep

end Dos

theorem freeAllocmem_tree {ptr : Addr} (h : freeAllocmem ptr s = .ok t)
    : t.allocmemTree = s.allocmemTree := by
  unfold freeAllocmem at h
  split at h
  . simp at h
  . injection h with h
    rw [← h]
    rfl

theorem allocmemError_ids_nodup (hs : s.allocmemTree.ids.Nodup)
    : Meets (fun r => r.state.allocmemTree.ids.Nodup) (fun _ => True) (allocmemError px s) := by
  apply (allocmemError_quiet px s).mono
  . intro r hr
    rw [hr.allocmemTree]
    exact hs
  . intros
    trivial

theorem allocmemInsert_ids_nodup (hs : s.allocmemTree.ids.Nodup) (ptr address : Addr)
    : Meets (fun r => r.state.allocmemTree.ids.Nodup) (fun _ => True)
        (allocmemInsert px ptr address s) := by
  unfold allocmemInsert
  split
  . have hspec := tsearch_spec (px.bal (px.tsearch s.os).2) (allocmemCmp px s address) ptr
      (px.tsearch s.os).1 s.allocmemTree
    dsimp only
    split
    . split
      . trivial
      . next hfree =>
        apply allocmemError_ids_nodup
        rw [freeAllocmem_tree hfree]
        exact hs
    . next htsearch =>
      rw [htsearch] at hspec
      split
      . exact hspec.ids_nodup hs
      . trivial
  . trivial

theorem dosixDosAllocmem_ids_nodup (hs : s.allocmemTree.ids.Nodup)
    : Meets (fun r => r.state.allocmemTree.ids.Nodup) (fun _ => True)
        (dosixDosAllocmem px size s) := by
  unfold dosixDosAllocmem
  split
  . exact hs
  . dsimp only
    split
    . exact allocmemError_ids_nodup hs
    . have hquiet := Dos.call_quiet (s.setOs (px.malloc s.os).2) (px.mmap (size * 16))
      split
      . next ht =>
        rw [ht] at hquiet
        apply allocmemError_ids_nodup
        rw [hquiet.allocmemTree]
        exact hs
      . next ht =>
        rw [ht] at hquiet
        apply allocmemInsert_ids_nodup
        rw [Dos.setMappings_allocmemTree, Dos.setAllocmem_allocmemTree, hquiet.allocmemTree]
        exact hs

theorem dosixDosSetblock_ids_nodup (hs : s.allocmemTree.ids.Nodup)
    : Meets (fun r => r.state.allocmemTree.ids.Nodup) (fun _ => True)
        (dosixDosSetblock px size seg s) := by
  unfold dosixDosSetblock
  split
  . exact hs
  . split
    . split
      . apply (failed_quiet (s.setErrno (some .EFAULT))).mono
        . intro r hr
          rw [hr.allocmemTree]
          exact hs
        . intros
          trivial
      . split
        . trivial
        . split
          . trivial
          . next old _ =>
            split
            . have hquiet := Dos.call_quiet s (px.mremap seg old.length (16 * size))
              dsimp only
              split
              . next ht =>
                rw [ht] at hquiet
                apply allocmemError_ids_nodup
                rw [hquiet.allocmemTree]
                exact hs
              . next ht =>
                rw [ht] at hquiet
                split
                . rw [meets_ok, Dos.setMappings_allocmemTree, Dos.setAllocmem_allocmemTree,
                    hquiet.allocmemTree]
                  exact hs
                . trivial
            . trivial
    . trivial

theorem freememDelete_ids_nodup (hs : s.allocmemTree.ids.Nodup) (slot : Nat)
    : Meets (fun r => r.state.allocmemTree.ids.Nodup) (fun _ => True)
        (freememDelete px seg slot s) := by
  unfold freememDelete
  split
  . trivial
  . next hdelete =>
    obtain ⟨id, -, hdeleted⟩ := tdelete_spec hdelete
    split
    . trivial
    . split
      . trivial
      . next hfree =>
        rw [meets_ok, freeAllocmem_tree hfree]
        exact (hdeleted.ids_nodup hs).2

theorem dosixDosFreemem_ids_nodup (hs : s.allocmemTree.ids.Nodup)
    : Meets (fun r => r.state.allocmemTree.ids.Nodup) (fun _ => True)
        (dosixDosFreemem px seg s) := by
  unfold dosixDosFreemem
  split
  . trivial
  . split
    . split
      . apply (failed_quiet (s.setErrno (some .EFAULT))).mono
        . intro r hr
          rw [hr.allocmemTree]
          exact hs
        . intros
          trivial
      . split
        . trivial
        . split
          . trivial
          . next old _ =>
            split
            . have hquiet := Dos.call_quiet s (px.munmap seg old.length)
              split
              . next ht =>
                rw [ht] at hquiet
                rw [meets_ok, (exterrSet_quiet _ _ _).allocmemTree, hquiet.allocmemTree]
                exact hs
              . next ht =>
                rw [ht] at hquiet
                apply freememDelete_ids_nodup
                rw [Dos.setMappings_allocmemTree, hquiet.allocmemTree]
                exact hs
            . trivial
    . trivial

namespace Dos

theorem memStep_ids_nodup (hs : s.allocmemTree.ids.Nodup) (call : MemCall)
    : Meets (fun s' => s'.allocmemTree.ids.Nodup) (fun _ => True) (memStep px s call) := by
  cases call with
  | allocmem size => exact meets_map.mpr (dosixDosAllocmem_ids_nodup hs)
  | setblock size seg => exact meets_map.mpr (dosixDosSetblock_ids_nodup hs)
  | freemem seg => exact meets_map.mpr (dosixDosFreemem_ids_nodup hs)

theorem Reached.ids_nodup (hs : Reached px s) : s.allocmemTree.ids.Nodup := by
  induction hs with
  | start h => simp [h.allocmemTree]
  | call call _ h ih => exact (memStep_ids_nodup ih call).of_ok h
  | other _ h ih =>
    rw [h.allocmemTree]
    exact ih

end Dos

/-! Calls that must fail. -/

/--
The errors that the manual pages list.
-/
structure MemErrnos (px : Posix σ) : Prop where
  mremap : ∀ address old new os e, (px.mremap address old new os).1 = .error e →
    e ∈ [.EAGAIN, .EFAULT, .EINVAL, .ENOMEM]
  sysconf : ∀ name os e, (px.sysconf name os).1 = .error (some e) → e = .EINVAL

namespace Dos

def LiveBlock (s : Dos σ) (seg : Addr) : Prop :=
  ∃ ptr ∈ s.allocmemTree.keys, ∃ record, s.allocmem ptr = some record ∧ record.address = seg

/--
If `seg` is a block at all, the kernel does not release it.
-/
def MunmapFails (px : Posix σ) (s : Dos σ) (seg : Addr) : Prop :=
  ∀ ptr ∈ s.allocmemTree.keys, ∀ record, s.allocmem ptr = some record → record.address = seg →
    ∃ e, (px.munmap seg record.length s.os).1 = .error e

def MremapFails (px : Posix σ) (s : Dos σ) (seg : Addr) (length : Size) : Prop :=
  ∀ ptr ∈ s.allocmemTree.keys, ∀ record, s.allocmem ptr = some record → record.address = seg →
    ∃ e, (px.mremap seg record.length length s.os).1 = .error e

/--
The call has been refused: nothing has changed, and the code is the one of an invalid block if there
is no block.
-/
structure Refused (s : Dos σ) (seg : Addr) (code : BitVec 32) (s' : Dos σ) : Prop where
  code_ne_zero : code ≠ 0
  invalid : ¬ s.LiveBlock seg → code = EXTERR_MBA_INVAL
  unchanged : s.SameBlocks s'

/--
No record on the path of the search for `seg` has been freed, and none is taken for a block at `seg`
that is somewhere else.
-/
structure Searchable (px : Posix σ) (s : Dos σ) (seg : Addr) : Prop where
  readable : readable px s seg = true
  apart : ∀ ptr ∈ s.allocmemTree.searchPath (allocmemCmp px s seg), ∀ record,
    s.allocmem ptr = some record → allocmemCmp px s seg ptr = 0 → record.address = seg

end Dos

/--
What a search that ends at a node says about the record in its slot.
-/
theorem tfind_record (hnodup : s.allocmemTree.ids.Nodup) (hreadable : readable px s seg = true)
    {slot : Nat} (hfind : s.allocmemTree.tfind (allocmemCmp px s seg) = some slot)
    : ∃ ptr record, ptr ∈ s.allocmemTree.searchPath (allocmemCmp px s seg)
        ∧ s.allocmemTree.slot slot = some ptr ∧ s.allocmem ptr = some record
        ∧ allocmemCmp px s seg ptr = 0 := by
  obtain ⟨xs, ptr, ys, hnodes, hzero, hpath⟩ := tfind_on_path hfind
  unfold readable at hreadable
  obtain ⟨record, hrecord⟩ :=
    Option.isSome_iff_exists.mp (List.all_eq_true.mp hreadable ptr hpath)
  exact ⟨ptr, record, hpath, slot_of_nodes_eq hnodup hnodes, hrecord, hzero⟩

theorem tfind_live (hnodup : s.allocmemTree.ids.Nodup) (hs : s.Searchable px seg) {slot : Nat}
    (hfind : s.allocmemTree.tfind (allocmemCmp px s seg) = some slot)
    : ∃ ptr record, ptr ∈ s.allocmemTree.keys ∧ s.allocmemTree.slot slot = some ptr
        ∧ s.allocmem ptr = some record ∧ record.address = seg := by
  obtain ⟨ptr, record, hpath, hslot, hrecord, hzero⟩ := tfind_record hnodup hs.readable hfind
  exact ⟨ptr, record, searchPath_subset_keys hpath, hslot, hrecord,
    hs.apart ptr hpath record hrecord hzero⟩

/--
A search that can read all records finds a wrong one, or the state is searchable.
-/
theorem searchable_or_mistaken (hnodup : s.allocmemTree.ids.Nodup)
    (hreadable : readable px s seg = true)
    : s.Searchable px seg ∨ ∃ slot ptr record,
        s.allocmemTree.tfind (allocmemCmp px s seg) = some slot
          ∧ s.allocmemTree.slot slot = some ptr ∧ s.allocmem ptr = some record
          ∧ seg ≠ record.address := by
  by_cases happart : s.Searchable px seg
  . exact .inl happart
  . right
    by_contra hnone
    apply happart
    refine ⟨hreadable, ?_⟩
    intro ptr hptr record hrecord hzero
    obtain ⟨slot, xs, ys, hfind, hnodes⟩ := tfind_of_mem_searchPath hptr hzero
    by_contra hne
    exact hnone ⟨slot, ptr, record, hfind, slot_of_nodes_eq hnodup hnodes, hrecord, Ne.symm hne⟩

theorem not_searchable (hnodup : s.allocmemTree.ids.Nodup) {slot : Nat} {ptr : Addr}
    {record : AllocMem} (hfind : s.allocmemTree.tfind (allocmemCmp px s seg) = some slot)
    (hslot : s.allocmemTree.slot slot = some ptr) (hrecord : s.allocmem ptr = some record)
    (hne : seg ≠ record.address)
    : ¬ s.Searchable px seg := by
  intro hs
  obtain ⟨ptr', record', -, hslot', hrecord', haddress⟩ := tfind_live hnodup hs hfind
  obtain rfl := Option.some.inj (hslot.symm.trans hslot')
  obtain rfl := Option.some.inj (hrecord.symm.trans hrecord')
  exact hne haddress.symm

theorem Dos.SameBlocks.of_quiet (h : s.Quiet t) : s.SameBlocks t where
  allocmemTree := h.allocmemTree
  allocmem := h.allocmem
  mappings := h.mappings

theorem failed_refused (s : Dos σ) (seg : Addr) {α : Type}
    : Meets (fun r : Result σ α => s.Refused seg r.code r.state) (fun _ => False)
        (failed (s.setErrno (some .EFAULT))) := by
  rw [failed_eq rfl rfl, meets_ok]
  refine ⟨?_, fun _ => rfl, .of_quiet ?_⟩
  . change EXTERR_MBA_INVAL ≠ 0
    decide
  . exact (Dos.Quiet.setErrno s _).trans (.setErrorinfo _ _)

/-! When the blocks cannot be resized. -/

def Dos.Listed (s : Dos σ) : Prop :=
  ∃ e info, s.errno = some e ∧ e.doserror = some info

theorem dosixDosexterr_listed (h : s.Listed)
    : ∃ info t, dosixDosexterr s = .ok (info, t) := by
  obtain ⟨e, info, herrno, hinfo⟩ := h
  exact ⟨info, s.setErrorinfo info, by simp [dosixDosexterr, herrno, hinfo]⟩

theorem sysconf_listed (hpx : MemErrnos px) (name : Sysconf) (h : s.Listed)
    : (sysconf px name s).2.Listed := by
  unfold sysconf
  split
  . exact h
  . exact h
  . next e os hsysconf =>
    obtain rfl := hpx.sysconf name s.os e (by rw [hsysconf])
    exact ⟨_, _, rfl, rfl⟩

theorem failed_listed {α : Type} (h : s.Listed)
    : ∃ r : Result σ α, failed s = .ok r ∧ r.state.Listed := by
  obtain ⟨e, info, herrno, hinfo⟩ := h
  exact ⟨_, failed_eq herrno hinfo, e, info, herrno, hinfo⟩

theorem freeParagraphs_listed (hpx : MemErrnos px) (h : s.Listed)
    : ∃ r, freeParagraphs px s = .ok r ∧ r.state.Listed := by
  unfold freeParagraphs
  have hpages := sysconf_listed hpx .avphysPages h
  dsimp only
  split
  . exact failed_listed hpages
  . have hsize := sysconf_listed hpx .pagesize hpages
    split
    . exact failed_listed hsize
    . exact ⟨_, rfl, hsize⟩

theorem allocmemError_returns (hpx : MemErrnos px) (h : s.Listed)
    : ∃ r, allocmemError px s = .ok r := by
  obtain ⟨r, hr, hlisted⟩ := freeParagraphs_listed hpx h
  obtain ⟨info, t, hexterr⟩ := dosixDosexterr_listed hlisted
  unfold allocmemError
  rw [hr]
  dsimp only
  split
  . exact ⟨r, rfl⟩
  . rw [hexterr]
    exact ⟨_, rfl⟩

theorem allocmemError_refused (hpx : MemErrnos px) (hquiet : s.Quiet t) (h : t.Listed)
    (hlive : s.LiveBlock seg)
    : Meets (fun r => s.Refused seg r.code r.state) (fun _ => False) (allocmemError px t) := by
  obtain ⟨r, hr⟩ := allocmemError_returns hpx h
  rw [hr, meets_ok]
  obtain ⟨e, info, herrno, -⟩ := h
  have hne : t.errno ≠ none := by simp [herrno]
  refine ⟨(allocmemError_ne_zero hne).of_ok hr, fun hdead => absurd hlive hdead, ?_⟩
  exact .of_quiet (hquiet.trans ((allocmemError_quiet px t).of_ok hr))

/-! The functions. -/

theorem dosixDosFreemem_refused_iff (hnodup : s.allocmemTree.ids.Nodup)
    (hfails : s.MunmapFails px seg)
    : Meets (fun r => s.Refused seg r.code r.state) (fun _ => False) (dosixDosFreemem px seg s)
        ↔ seg ≠ 0 ∧ s.Searchable px seg := by
  unfold dosixDosFreemem
  by_cases hzero : seg = 0
  . simp [hzero]
  by_cases hreadable : readable px s seg = true
  . rw [if_neg hzero, if_pos hreadable, and_iff_right hzero]
    rcases searchable_or_mistaken hnodup hreadable with
      hsearchable | ⟨slot, ptr, record, hfind, hslot, hrecord, hne⟩
    . rw [iff_true_right hsearchable]
      split
      . exact failed_refused s seg
      . next slot hfind =>
        obtain ⟨ptr, record, hmem, hslot, hrecord, rfl⟩ := tfind_live hnodup hsearchable hfind
        obtain ⟨e, hmunmap⟩ := hfails ptr hmem record hrecord rfl
        simp only [hslot, hrecord, ↓reduceIte, Dos.call_of_error hmunmap, meets_ok]
        refine ⟨?_, fun hdead => absurd ⟨ptr, hmem, record, hrecord, rfl⟩ hdead, .of_quiet ?_⟩
        . rw [exterrSet_code _ _ (by decide)]
          decide
        . exact ((Dos.Quiet.setOs s _).trans (.setErrno _ _)).trans (exterrSet_quiet _ _ _)
    . simp only [hfind, hslot, hrecord, hne, if_false]
      exact iff_of_false id (not_searchable hnodup hfind hslot hrecord hne)
  . rw [if_neg hzero, if_neg hreadable]
    exact iff_of_false id fun h => hreadable h.2.readable

theorem dosixDosSetblock_refused_iff (hpx : MemErrnos px) (hnodup : s.allocmemTree.ids.Nodup)
    (hfails : s.MremapFails px seg (16 * size))
    : Meets (fun r => s.Refused seg r.code r.state) (fun _ => False)
        (dosixDosSetblock px size seg s)
        ↔ size ≠ 0 ∧ s.Searchable px seg := by
  unfold dosixDosSetblock
  by_cases hzero : size = 0
  . rw [if_pos hzero, meets_ok]
    constructor
    . intro hrefused
      exact absurd rfl hrefused.code_ne_zero
    . intro hand
      exact absurd hzero hand.1
  by_cases hreadable : readable px s seg = true
  . rw [if_neg hzero, if_pos hreadable, and_iff_right hzero]
    rcases searchable_or_mistaken hnodup hreadable with
      hsearchable | ⟨slot, ptr, record, hfind, hslot, hrecord, hne⟩
    . rw [iff_true_right hsearchable]
      split
      . exact failed_refused s seg
      . next slot hfind =>
        obtain ⟨ptr, record, hmem, hslot, hrecord, rfl⟩ := tfind_live hnodup hsearchable hfind
        obtain ⟨e, hmremap⟩ := hfails ptr hmem record hrecord rfl
        simp only [hslot, hrecord, ↓reduceIte, Dos.call_of_error hmremap]
        apply allocmemError_refused hpx
        . exact (Dos.Quiet.setOs s _).trans (.setErrno _ _)
        . have hlisted := hpx.mremap _ _ _ _ _ hmremap
          simp only [List.mem_cons, List.not_mem_nil, or_false] at hlisted
          rcases hlisted with rfl | rfl | rfl | rfl
          all_goals exact ⟨_, _, rfl, rfl⟩
        . exact ⟨ptr, hmem, record, hrecord, rfl⟩
    . simp only [hfind, hslot, hrecord, hne, if_false]
      exact iff_of_false id (not_searchable hnodup hfind hslot hrecord hne)
  . rw [if_neg hzero, if_neg hreadable]
    exact iff_of_false id fun h => hreadable h.2.readable

/-! The services. -/

/--
The registers after a call that has been refused: the carry flag is set, and `AX` has the code.
-/
def Dos.RefusedCpu (s : Dos σ) (seg : Addr) (p : Cpu × Dos σ) : Prop :=
  ∃ code : BitVec 32, p.1.flags = 1 ∧ p.1.ax = code.setWidth 64 ∧ s.Refused seg code p.2

theorem setWidth_injective {code code' : BitVec 32} (h : code.setWidth 64 = code'.setWidth 64)
    : code = code' := by
  have := congrArg (BitVec.setWidth 32) h
  simpa using this

theorem refusedCpu_iff {α : Type} {x : Except Fault (Result σ α)} {f : Result σ α → Cpu}
    (hf : ∀ r, (f r).flags = (if r.code ≠ 0 then 1 else 0) ∧ (f r).ax = r.code.setWidth 64)
    : Meets (s.RefusedCpu seg) (fun _ => False) (x >>= fun r => pure (f r, r.state))
        ↔ Meets (fun r => s.Refused seg r.code r.state) (fun _ => False) x := by
  cases x with
  | error e => rfl
  | ok r =>
    obtain ⟨hflags, hax⟩ := hf r
    constructor
    . rintro ⟨code, -, hcode, hrefused⟩
      rw [hax] at hcode
      rw [meets_ok, setWidth_injective hcode]
      exact hrefused
    . intro hrefused
      refine ⟨r.code, ?_, hax, hrefused⟩
      rw [hflags, if_pos hrefused.code_ne_zero]

theorem int21_freemem_refused_iff {cpu : Cpu} (hah : cpu.ah = INT21_AH_FREEMEM)
    : Meets (s.RefusedCpu seg) (fun _ => False) (int21MainDosApi px cpu s)
        ↔ Meets (fun r => s.Refused seg r.code r.state) (fun _ => False)
          (dosixDosFreemem px cpu.es s) := by
  rw [DosService.int21_of_selected (d := .freemem) hah,
    ← refusedCpu_iff (f := fun r => cpu.setCode r.code)]
  . unfold DosService.handler cpuFreemem
    dsimp only
    rw [assertThat_of hah]
    rfl
  . exact fun r => ⟨cpu.setCode_flags r.code, rfl⟩

theorem int21_setblock_refused_iff {cpu : Cpu} (hah : cpu.ah = INT21_AH_SETBLOCK)
    : Meets (s.RefusedCpu seg) (fun _ => False) (int21MainDosApi px cpu s)
        ↔ Meets (fun r => s.Refused seg r.code r.state) (fun _ => False)
          (dosixDosSetblock px cpu.bx cpu.es s) := by
  rw [DosService.int21_of_selected (d := .setblock) hah,
    ← refusedCpu_iff (f := fun r =>
      let cpu := cpu.setCode r.code
      { cpu with bx := if cpu.flags ≠ 0 then r.out.getD px.uninit else cpu.bx })]
  . unfold DosService.handler cpuSetblock
    dsimp only
    rw [assertThat_of hah]
    rfl
  . exact fun r => ⟨cpu.setCode_flags r.code, rfl⟩

/--
When calls that must fail do fail, and change nothing: an address of `0` stops `freemem`, a size of
`0` is good for any address, and the records on the path of the search must not have been freed nor be
mistaken for one another.
-/
theorem blocks_refused_iff (hpx : MemErrnos px) (hs : s.Reached px)
    : (∀ seg, s.MunmapFails px seg →
        (Meets (fun r => s.Refused seg r.code r.state) (fun _ => False) (dosixDosFreemem px seg s)
          ↔ seg ≠ 0 ∧ s.Searchable px seg))
      ∧ (∀ size seg, s.MremapFails px seg (16 * size) →
        (Meets (fun r => s.Refused seg r.code r.state) (fun _ => False)
            (dosixDosSetblock px size seg s)
          ↔ size ≠ 0 ∧ s.Searchable px seg))
      ∧ (∀ cpu, cpu.ah = INT21_AH_FREEMEM → s.MunmapFails px cpu.es →
        (Meets (s.RefusedCpu cpu.es) (fun _ => False) (int21MainDosApi px cpu s)
          ↔ cpu.es ≠ 0 ∧ s.Searchable px cpu.es))
      ∧ ∀ cpu, cpu.ah = INT21_AH_SETBLOCK → s.MremapFails px cpu.es (16 * cpu.bx) →
        (Meets (s.RefusedCpu cpu.es) (fun _ => False) (int21MainDosApi px cpu s)
          ↔ cpu.bx ≠ 0 ∧ s.Searchable px cpu.es) := by
  have hnodup := hs.ids_nodup
  refine ⟨?_, ?_, ?_, ?_⟩
  . intro seg hfails
    exact dosixDosFreemem_refused_iff hnodup hfails
  . intro size seg hfails
    exact dosixDosSetblock_refused_iff hpx hnodup hfails
  . intro cpu hah hfails
    rw [int21_freemem_refused_iff hah]
    exact dosixDosFreemem_refused_iff hnodup hfails
  . intro cpu hah hfails
    rw [int21_setblock_refused_iff hah]
    exact dosixDosSetblock_refused_iff hpx hnodup hfails

/-! Where an `int` keeps the lower 32 bits of a difference. -/

theorem toInt_ofInt_eq_zero_iff (a b : Addr)
    : (BitVec.ofInt 32 (a.toNat - b.toNat)).toInt = 0 ↔ b.setWidth 32 = a.setWidth 32 := by
  rw [← BitVec.toNat_inj, BitVec.toNat_setWidth, BitVec.toNat_setWidth, BitVec.toInt_ofInt,
    ← Int.dvd_iff_bmod_eq_zero]
  omega

/--
A block is taken for another one that is a multiple of 4 GiB away.
-/
theorem Dos.searchable_iff (hint : ∀ x, px.intOf x = (BitVec.ofInt 32 x).toInt)
    : s.Searchable px seg ↔ readable px s seg = true
        ∧ ∀ ptr ∈ s.allocmemTree.searchPath (allocmemCmp px s seg), ∀ record,
          s.allocmem ptr = some record → record.address.setWidth 32 = seg.setWidth 32 →
          record.address = seg := by
  have hzero {ptr : Addr} {record : AllocMem} (hrecord : s.allocmem ptr = some record)
      : allocmemCmp px s seg ptr = 0 ↔ record.address.setWidth 32 = seg.setWidth 32 := by
    unfold allocmemCmp
    rw [hrecord]
    dsimp only
    rw [hint]
    exact toInt_ofInt_eq_zero_iff seg record.address
  constructor
  . intro h
    refine ⟨h.readable, fun ptr hptr record hrecord heq => ?_⟩
    exact h.apart ptr hptr record hrecord ((hzero hrecord).mpr heq)
  . rintro ⟨hreadable, happart⟩
    refine ⟨hreadable, fun ptr hptr record hrecord heq => ?_⟩
    exact happart ptr hptr record hrecord ((hzero hrecord).mp heq)

theorem memErrnos_stickyKernel : MemErrnos DosCall.stickyKernel where
  mremap := by
    rintro address old new os e ⟨⟩
    decide
  sysconf := by
    rintro name os e ⟨⟩

theorem blocks_refused_iff_oneBlock
    : ∃ s, run (Dos.memStep DosCall.stickyKernel) { os := () } [.allocmem 1] = .ok s
        ∧ s.LiveBlock 0x10000
        ∧ Meets (fun r => s.Refused 0x10000 r.code r.state) (fun _ => False)
          (dosixDosFreemem DosCall.stickyKernel 0x10000 s)
        ∧ Meets (fun r => s.Refused 0x5000 r.code r.state) (fun _ => False)
          (dosixDosSetblock DosCall.stickyKernel 2 0x5000 s)
        ∧ ¬ Meets (fun r => s.Refused 0x100010000 r.code r.state) (fun _ => False)
          (dosixDosFreemem DosCall.stickyKernel 0x100010000 s) := by
  obtain ⟨s, hrun, hs⟩ := exists_of_any
    (r := run (Dos.memStep DosCall.stickyKernel) { os := () } [.allocmem 1])
    (q := fun s => s.allocmemTree = .node .leaf 0 0x2000 .leaf ∧ s.allocmem 0x2000 = some ⟨0x10000, 16⟩)
    (by decide +kernel)
  obtain ⟨htree, hrecord⟩ := of_decide_eq_true hs
  have hreached : s.Reached DosCall.stickyKernel :=
    (Dos.Reached.start ⟨rfl, fun _ => rfl, fun _ => rfl⟩).run hrun
  have hsearchable (seg : Addr) : s.Searchable DosCall.stickyKernel seg
      ↔ (seg.setWidth 32 = (0x10000 : BitVec 32) → seg = 0x10000) := by
    have hpath : s.allocmemTree.searchPath (allocmemCmp DosCall.stickyKernel s seg) = [0x2000] := by
      rw [htree]
      unfold searchPath
      split_ifs
      all_goals rfl
    rw [Dos.searchable_iff fun _ => rfl, readable, hpath]
    constructor
    . rintro ⟨-, happart⟩ heq
      exact (happart _ List.mem_cons_self _ hrecord heq.symm).symm
    . intro happart
      refine ⟨by simp only [List.all_cons, hrecord, Option.isSome_some, List.all_nil, Bool.and_self], ?_⟩
      intro ptr hptr record hptr' heq
      obtain rfl := List.mem_singleton.mp hptr
      obtain rfl := Option.some.inj (hrecord.symm.trans hptr')
      exact (happart heq.symm).symm
  obtain ⟨hfreemem, hsetblock, -⟩ := blocks_refused_iff memErrnos_stickyKernel hreached
  refine ⟨s, hrun, ⟨_, by simp [htree], _, hrecord, rfl⟩, ?_, ?_, ?_⟩
  . exact (hfreemem 0x10000 fun _ _ _ _ _ => ⟨_, rfl⟩).mpr
      ⟨by decide, (hsearchable _).mpr fun _ => rfl⟩
  . exact (hsetblock 2 0x5000 fun _ _ _ _ _ => ⟨_, rfl⟩).mpr
      ⟨by decide, (hsearchable _).mpr fun h => absurd h (by decide)⟩
  . rw [hfreemem 0x100010000 fun _ _ _ _ _ => ⟨_, rfl⟩, hsearchable]
    exact fun h => absurd (h.2 (by decide)) (by decide)

/--
The third address is 4 GiB above the block.
-/
theorem not_blocks_refused
    : (¬ ({ os := () } : Dos Unit).LiveBlock 0 ∧ ¬ ({ os := () } : Dos Unit).LiveBlock 0x5000)
      ∧ dosixDosFreemem (default : Posix Unit) 0 { os := () } = .error .assertion
      ∧ Meets (fun r => r.code = 0) (fun _ => False)
        (dosixDosSetblock (default : Posix Unit) 0 0x5000 { os := () })
      ∧ ∃ s, run (Dos.memStep DosCall.stickyKernel) { os := () } [.allocmem 1] = .ok s
        ∧ s.allocmemTree.keys = [0x2000] ∧ s.allocmem 0x2000 = some ⟨0x10000, 16⟩
        ∧ ¬ s.LiveBlock 0x100010000
        ∧ (dosixDosFreemem DosCall.stickyKernel 0x100010000 s).map (fun _ => ()) = .error .assertion
        ∧ (dosixDosSetblock DosCall.stickyKernel 1 0x100010000 s).map (fun _ => ())
          = .error .assertion := by
  refine ⟨⟨?_, ?_⟩, rfl, rfl, ?_⟩
  . rintro ⟨ptr, hptr, -⟩
    simp at hptr
  . rintro ⟨ptr, hptr, -⟩
    simp at hptr
  . obtain ⟨s, hrun, hs⟩ := exists_of_any
      (r := run (Dos.memStep DosCall.stickyKernel) { os := () } [.allocmem 1])
      (q := fun s => s.allocmemTree.keys = [0x2000] ∧ s.allocmem 0x2000 = some ⟨0x10000, 16⟩
        ∧ (dosixDosFreemem DosCall.stickyKernel 0x100010000 s).map (fun _ => ()) = .error .assertion
        ∧ (dosixDosSetblock DosCall.stickyKernel 1 0x100010000 s).map (fun _ => ())
          = .error .assertion)
      (by decide +kernel)
    obtain ⟨hkeys, hrecord, hfaults⟩ := of_decide_eq_true hs
    refine ⟨s, hrun, hkeys, hrecord, ?_, hfaults⟩
    rintro ⟨ptr, hptr, record, hptr', haddress⟩
    rw [hkeys] at hptr
    obtain rfl := List.mem_singleton.mp hptr
    obtain rfl := Option.some.inj (hrecord.symm.trans hptr')
    exact absurd haddress (by decide)

end Dosix
