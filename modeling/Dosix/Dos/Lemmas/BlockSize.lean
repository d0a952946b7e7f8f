import Dosix.Dos.Lemmas.AllocMem
import Dosix.Dos.Lemmas.ExtErrAgree
import Mathlib.Algebra.Group.Nat.Defs

/-!
This module contains the sizes of the memory blocks: when a block that is reported as allocated or
resized has as many bytes as the paragraphs that were asked for.
-/

namespace Dosix

open SearchTree Transition

variable {σ : Type} {px : Posix σ} {s : Dos σ} {count : Size} {seg : Addr}

/-! The error paths return no `0`. -/

theorem dosixDosexterr_ne_zero (h : s.errno ≠ none)
    : Meets (fun r => r.1.exterror ≠ 0) (fun _ => True) (dosixDosexterr s) := by
  unfold dosixDosexterr
  split
  . next herrno => exact absurd herrno h
  . split
    . trivial
    . next hinfo => exact Errno.doserror_exterror_ne_zero hinfo

theorem failed_ne_zero {α : Type} (h : s.errno ≠ none)
    : Meets (fun r : Result σ α => r.code ≠ 0) (fun _ => True) (failed s) :=
  (failed_code_ne_zero fun herrno => absurd herrno h).mono (fun _ hr => hr) fun _ _ => trivial

theorem allocmemError_ne_zero (h : s.errno ≠ none)
    : Meets (fun r => r.code ≠ 0) (fun _ => True) (allocmemError px s) := by
  have hfree := freeParagraphs_reported px h
  unfold allocmemError
  split
  . trivial
  . next r hr =>
    split
    . assumption
    . have hexterr := dosixDosexterr_ne_zero (hfree.of_ok hr).1
      split
      . trivial
      . next hr' => exact hexterr.of_ok hr'

/-! Blocks. -/

/--
`seg` is the address of a block in the tree, and its mapping has at least `count` paragraphs.
-/
def Dos.Delivers (s : Dos σ) (seg : Addr) (count : Size) : Prop :=
  ∃ ptr ∈ s.allocmemTree.keys, ∃ record, s.allocmem ptr = some record ∧ record.address = seg
    ∧ ∃ length, s.mappings seg = some length ∧ 16 * count.toNat ≤ length.toNat

/--
`seg` is the address of a block in the tree, and its record and its mapping have this length.
-/
structure Dos.Holds (s : Dos σ) (seg : Addr) (length : Size) : Prop where
  recorded : ∃ ptr ∈ s.allocmemTree.keys, s.allocmem ptr = some ⟨seg, length⟩
  mapped : s.mappings seg = some length

theorem Dos.Holds.delivers_iff {length : Size} (h : s.Holds seg length)
    (hlength : length = 16 * count)
    : s.Delivers seg count ↔ 16 * count.toNat < 2 ^ 64 := by
  subst hlength
  have hmul : (16 * count).toNat = 16 * count.toNat % 2 ^ 64 := BitVec.toNat_mul 16 count
  constructor
  . rintro ⟨-, -, -, -, -, length, hlength, hroom⟩
    have := length.isLt
    omega
  . intro hsize
    obtain ⟨ptr, hptr, hrecord⟩ := h.recorded
    refine ⟨ptr, hptr, _, hrecord, rfl, _, h.mapped, ?_⟩
    rw [hmul, Nat.mod_eq_of_lt hsize]

theorem allocmemInsert_holds (px : Posix σ) {ptr address : Addr} {length : Size}
    (hrecord : s.allocmem ptr = some ⟨address, length⟩) (hmapped : s.mappings address = some length)
    : Meets (fun r => r.code = 0 → r.out = some address ∧ r.state.Holds address length)
        (fun _ => True) (allocmemInsert px ptr address s) := by
  unfold allocmemInsert
  split
  . dsimp only
    split
    . split
      . trivial
      . next t hfree =>
        have herrno : t.errno ≠ none := by simp [freeAllocmem_errno hfree]
        exact (allocmemError_ne_zero herrno).imp fun r hne hzero => absurd hzero hne
    . next slot tree htsearch =>
      split
      . next hslot =>
        intro _
        exact ⟨rfl, ⟨⟨ptr, mem_keys_of_slot hslot, hrecord⟩, hmapped⟩⟩
      . trivial
  . trivial

theorem dosixDosAllocmem_holds (px : Posix σ) (s : Dos σ) (hcount : count ≠ 0)
    : Meets (fun r => r.code = 0 → ∃ seg, r.out = some seg ∧ r.state.Holds seg (16 * count))
        (fun _ => True) (dosixDosAllocmem px count s) := by
  unfold dosixDosAllocmem
  rw [if_neg hcount]
  dsimp only
  split
  . exact (allocmemError_ne_zero (by simp)).imp fun r hne hzero => absurd hzero hne
  . split
    . next t hcall =>
      have herrno : t.errno ≠ none := Dos.call_none_errno hcall
      exact (allocmemError_ne_zero herrno).imp fun r hne hzero => absurd hzero hne
    . next address t hcall =>
      apply (allocmemInsert_holds px (Memory.write_same _ _ _) (Memory.write_same _ _ _)).imp
      intro r hr hzero
      rw [BitVec.mul_comm]
      exact ⟨address, hr hzero⟩

theorem dosixDosSetblock_holds (px : Posix σ) (s : Dos σ) (seg : Addr) (hcount : count ≠ 0)
    : Meets (fun r => r.code = 0 → r.state.Holds seg (16 * count)) (fun _ => True)
        (dosixDosSetblock px count seg s) := by
  unfold dosixDosSetblock
  rw [if_neg hcount]
  split
  . split
    . exact (failed_ne_zero (by simp)).imp fun r hne hzero => absurd hzero hne
    . split
      . trivial
      . next ptr hslot =>
        split
        . trivial
        . split
          . dsimp only
            split
            . next t hcall =>
              have herrno : t.errno ≠ none := Dos.call_none_errno hcall
              exact (allocmemError_ne_zero herrno).imp fun r hne hzero => absurd hzero hne
            . next address t hcall =>
              obtain ⟨os, -, rfl⟩ := Dos.call_some hcall
              split
              . next heq =>
                intro _
                subst heq
                exact ⟨⟨ptr, mem_keys_of_slot hslot, by simp⟩, by simp⟩
              . trivial
          . trivial
  . trivial

/-! When a block that is reported is delivered. -/

def AllocmemFits (count : Size) : Prop :=
  count ≠ 0 ∧ 16 * count.toNat < 2 ^ 64

instance (count : Size) : Decidable (AllocmemFits count) :=
  inferInstanceAs (Decidable (_ ∧ _))

def SetblockFits (s : Dos σ) (seg : Addr) (count : Size) : Prop :=
  -- nothing is looked at for a size of zero
  if count = 0 then s.Delivers seg 0 else 16 * count.toNat < 2 ^ 64

theorem dosixDosAllocmem_delivers_iff {r : Result σ (BitVec 64)}
    (hcall : dosixDosAllocmem px count s = .ok r) (hcode : r.code = 0)
    : (∃ seg, r.out = some seg ∧ r.state.Delivers seg count) ↔ AllocmemFits count := by
  by_cases hcount : count = 0
  . rw [dosixDosAllocmem, if_pos hcount] at hcall
    injection hcall with hcall
    simp [← hcall, AllocmemFits, hcount]
  . obtain ⟨seg, hseg, hholds⟩ := (dosixDosAllocmem_holds px s hcount).of_ok hcall hcode
    rw [AllocmemFits, and_iff_right hcount, ← hholds.delivers_iff rfl]
    constructor
    . rintro ⟨seg', hseg', hdelivers⟩
      rw [hseg] at hseg'
      exact Option.some.inj hseg' ▸ hdelivers
    . intro hdelivers
      exact ⟨seg, hseg, hdelivers⟩

theorem dosixDosSetblock_delivers_iff {r : Result σ (BitVec 64)}
    (hcall : dosixDosSetblock px count seg s = .ok r) (hcode : r.code = 0)
    : r.state.Delivers seg count ↔ SetblockFits s seg count := by
  by_cases hcount : count = 0
  . rw [dosixDosSetblock, if_pos hcount] at hcall
    injection hcall with hcall
    rw [SetblockFits, if_pos hcount, ← hcall, hcount]
  . have hholds := (dosixDosSetblock_holds px s seg hcount).of_ok hcall hcode
    rw [SetblockFits, if_neg hcount]
    exact hholds.delivers_iff rfl

theorem int21_allocmem {cpu cpu' : Cpu} {s' : Dos σ} (hah : cpu.ah = INT21_AH_ALLOCMEM)
    (hint21 : int21MainDosApi px cpu s = .ok (cpu', s')) (hflags : cpu'.flags = 0)
    : ∃ r, dosixDosAllocmem px cpu.bx s = .ok r ∧ r.state = s' ∧ r.code = 0
        ∧ cpu'.ax = r.out.getD px.uninit := by
  rw [DosService.int21_of_selected (d := .allocmem) hah] at hint21
  unfold DosService.handler cpuAllocmem at hint21
  dsimp only at hint21
  rw [assertThat_of hah] at hint21
  cases hcall : dosixDosAllocmem px cpu.bx s with
  | error e =>
    rw [hcall] at hint21
    cases hint21
  | ok r =>
    rw [hcall] at hint21
    dsimp only [bind, Except.bind] at hint21
    have hcode := cpu.setCode_flags r.code
    by_cases hzero : r.code = 0
    . rw [if_neg (not_not.mpr hzero)] at hcode
      rw [if_neg (not_not.mpr hcode)] at hint21
      injection hint21 with hint21
      obtain ⟨rfl, rfl⟩ := Prod.mk.inj hint21
      exact ⟨r, rfl, rfl, hzero, rfl⟩
    . -- a code sets the carry flag
      rw [if_pos hzero] at hcode
      rw [if_pos (by rw [hcode]; decide)] at hint21
      injection hint21 with hint21
      obtain ⟨rfl, -⟩ := Prod.mk.inj hint21
      rw [hcode] at hflags
      exact absurd hflags (by decide)

theorem int21_setblock {cpu cpu' : Cpu} {s' : Dos σ} (hah : cpu.ah = INT21_AH_SETBLOCK)
    (hint21 : int21MainDosApi px cpu s = .ok (cpu', s')) (hflags : cpu'.flags = 0)
    : ∃ r, dosixDosSetblock px cpu.bx cpu.es s = .ok r ∧ r.state = s' ∧ r.code = 0 := by
  obtain ⟨r, hr, hstate, hsignals, -⟩ :=
    (DosService.serves (d := .setblock) hah).of_ok hint21
  have hcode : r.code = 0 := by
    by_contra hne
    rw [if_pos hne, hflags] at hsignals
    exact absurd hsignals (by decide)
  cases hcall : dosixDosSetblock px cpu.bx cpu.es s with
  | error e => simp [DosService.call, hcall, Except.map] at hr
  | ok r' =>
    simp only [DosService.call, hcall, Except.map] at hr
    injection hr with hr
    subst hr
    exact ⟨r', rfl, hstate, hcode⟩

/--
When a call that reports success has delivered the block: the number of bytes must not wrap around,
and a size of zero delivers nothing.
-/
theorem blocks_deliver_iff (px : Posix σ) (s : Dos σ)
    : (∀ count r, dosixDosAllocmem px count s = .ok r → r.code = 0 →
        ((∃ seg, r.out = some seg ∧ r.state.Delivers seg count) ↔ AllocmemFits count))
      ∧ (∀ count seg r, dosixDosSetblock px count seg s = .ok r → r.code = 0 →
        (r.state.Delivers seg count ↔ SetblockFits s seg count))
      ∧ (∀ cpu cpu' s', cpu.ah = INT21_AH_ALLOCMEM →
        int21MainDosApi px cpu s = .ok (cpu', s') → cpu'.flags = 0 →
        ((∃ r, dosixDosAllocmem px cpu.bx s = .ok r ∧ r.state = s' ∧ r.code = 0
          ∧ r.out = some cpu'.ax ∧ s'.Delivers cpu'.ax cpu.bx) ↔ AllocmemFits cpu.bx))
      ∧ ∀ cpu cpu' s', cpu.ah = INT21_AH_SETBLOCK →
        int21MainDosApi px cpu s = .ok (cpu', s') → cpu'.flags = 0 →
        ((∃ r, dosixDosSetblock px cpu.bx cpu.es s = .ok r ∧ r.state = s' ∧ r.code = 0
          ∧ s'.Delivers cpu.es cpu.bx) ↔ SetblockFits s cpu.es cpu.bx) := by
  refine ⟨?_, ?_, ?_, ?_⟩
  . intro count r hcall hcode
    exact dosixDosAllocmem_delivers_iff hcall hcode
  . intro count seg r hcall hcode
    exact dosixDosSetblock_delivers_iff hcall hcode
  . intro cpu cpu' s' hah hint21 hflags
    obtain ⟨r, hcall, hstate, hcode, hax⟩ := int21_allocmem hah hint21 hflags
    rw [← dosixDosAllocmem_delivers_iff hcall hcode]
    constructor
    . rintro ⟨r', hcall', hstate', -, hout, hdelivers⟩
      rw [hcall] at hcall'
      obtain rfl := Except.ok.inj hcall'
      exact ⟨_, hout, hstate'.symm ▸ hdelivers⟩
    . rintro ⟨seg, hout, hdelivers⟩
      rw [hout, Option.getD_some] at hax
      rw [← hax] at hout hdelivers
      exact ⟨r, hcall, hstate, hcode, hout, hstate ▸ hdelivers⟩
  . intro cpu cpu' s' hah hint21 hflags
    obtain ⟨r, hcall, hstate, hcode⟩ := int21_setblock hah hint21 hflags
    rw [← dosixDosSetblock_delivers_iff hcall hcode]
    constructor
    . rintro ⟨-, -, -, -, hdelivers⟩
      exact hstate.symm ▸ hdelivers
    . intro hdelivers
      exact ⟨r, hcall, hstate, hcode, hstate ▸ hdelivers⟩

def stretchingKernel : Posix Unit where
  __ := (default : Posix Unit)
  uninit := 0xdead
  malloc := fun os => (0x2000, os)
  mmap := fun _ os => (.ok 0x10000, os)
  mremap := fun address _ _ os => (.ok address, os)
  tsearch := fun os => (true, os)

theorem blocks_deliver_iff_twoSizes
    : ∃ r r', dosixDosAllocmem stretchingKernel 4 { os := () } = .ok r
        ∧ r.out = some 0x10000 ∧ r.state.Delivers 0x10000 4
        ∧ dosixDosSetblock stretchingKernel 8 0x10000 r.state = .ok r'
        ∧ r'.state.Delivers 0x10000 8 := by
  obtain ⟨r, hcall, hr⟩ := exists_of_any (r := dosixDosAllocmem stretchingKernel 4 { os := () })
    (q := fun r => r.code = 0 ∧ r.out = some 0x10000
      ∧ (dosixDosSetblock stretchingKernel 8 0x10000 r.state).toOption.any fun r => r.code = 0)
    (by decide +kernel)
  obtain ⟨hcode, hout, hsetblock⟩ := of_decide_eq_true hr
  obtain ⟨r', hcall', hcode'⟩ := exists_of_any hsetblock
  obtain ⟨seg, hseg, hdelivers⟩ :=
    ((blocks_deliver_iff stretchingKernel { os := () }).1 4 r hcall hcode).mpr (by decide)
  rw [hout] at hseg
  obtain rfl := Option.some.inj hseg
  refine ⟨r, r', hcall, hout, hdelivers, hcall', ?_⟩
  apply ((blocks_deliver_iff stretchingKernel r.state).2.1 8 0x10000 r' hcall'
    (of_decide_eq_true hcode')).mpr
  rw [SetblockFits, if_neg (by decide)]
  decide

/--
One paragraph more than there are bytes for, and none at all.
-/
theorem not_blocks_deliver
    : (∃ r, dosixDosAllocmem stretchingKernel 0x1000000000000001 { os := () } = .ok r ∧ r.code = 0
        ∧ ¬ ∃ seg, r.out = some seg ∧ r.state.Delivers seg 0x1000000000000001)
      ∧ ∃ cpu s, int21MainDosApi stretchingKernel { ax := 0x4800 } { os := () } = .ok (cpu, s)
        ∧ cpu.flags = 0 ∧ cpu.ax = 0xdead ∧ ¬ s.Delivers 0xdead 0 := by
  constructor
  . obtain ⟨r, hcall, hcode⟩ := exists_of_any
      (r := dosixDosAllocmem stretchingKernel 0x1000000000000001 { os := () })
      (q := fun r => r.code = 0) (by decide +kernel)
    have hcode := of_decide_eq_true hcode
    refine ⟨r, hcall, hcode, ?_⟩
    rw [dosixDosAllocmem_delivers_iff hcall hcode]
    exact fun h => absurd h.2 (by decide)
  . refine ⟨_, _, rfl, rfl, rfl, ?_⟩
    rintro ⟨ptr, hptr, -⟩
    simp at hptr

end Dosix
