import Dosix.Dos.Impl.Interrupt
import Dosix.Dos.Lemmas.ExtErr

/-!
This module contains the law of the extended error record: what `AH=59h` reports after any number of
records have been stored by `AX=1222h`. The last value of each field that is not marked should be
reported. But `char` is signed, so that the mark `0FFh` is not recognized in a field of that type,
and a value from `80h` on fills the rest of a register with ones.
-/

namespace Dosix

open Transition

variable {σ α : Type}

/--
The last of the values that is not the mark, or the initial one if there is none.
-/
def lastUnmarked [DecidableEq α] (mark init : α) (vs : List α) : α :=
  (vs.filter (· ≠ mark)).getLastD init

@[simp]
theorem lastUnmarked_nil [DecidableEq α] (mark init : α) : lastUnmarked mark init [] = init := rfl

theorem lastUnmarked_cons [DecidableEq α] (mark init v : α) (vs : List α)
    : lastUnmarked mark init (v :: vs)
        = lastUnmarked mark (if v ≠ mark then v else init) vs := by
  unfold lastUnmarked
  rw [List.filter_cons]
  split
  . next h => rw [List.getLastD_cons, if_pos (of_decide_eq_true h)]
  . next h => rw [if_neg (by simpa using h)]

theorem lastUnmarked_eq_mark_iff [DecidableEq α] (mark init : α) (vs : List α)
    : lastUnmarked mark init vs = mark ↔ init = mark ∧ ∀ v ∈ vs, v = mark := by
  induction vs generalizing init with
  | nil => simp
  | cons v vs ih =>
    rw [lastUnmarked_cons, ih, List.forall_mem_cons]
    by_cases hv : v = mark
    . simp [hv]
    . simp [hv]

theorem lastUnmarked_of_getLastD_ne [DecidableEq α] {mark init : α} {vs : List α}
    (h : vs.getLastD init ≠ mark)
    : lastUnmarked mark init vs = vs.getLastD init := by
  induction vs generalizing init with
  | nil => rfl
  | cons v vs ih =>
    rw [List.getLastD_cons] at h ⊢
    rw [lastUnmarked_cons]
    by_cases hv : v = mark
    . cases vs with
      | nil => exact absurd hv h
      | cons v' vs =>
        rw [List.getLastD_cons] at h ⊢
        rw [if_neg (by simpa using hv), ih (by rwa [List.getLastD_cons]), List.getLastD_cons]
    . rw [if_pos hv, ih h]

/--
The last value is the expected one: it is not the mark, unless there was never anything else.
-/
def Recognized [DecidableEq α] (mark init : α) (vs : List α) : Prop :=
  vs.getLastD init = mark → init = mark ∧ ∀ v ∈ vs, v = mark

instance [DecidableEq α] (mark init : α) (vs : List α) : Decidable (Recognized mark init vs) :=
  inferInstanceAs (Decidable (_ → _))

theorem getLastD_eq_lastUnmarked_iff [DecidableEq α] {mark init : α} {vs : List α}
    : vs.getLastD init = lastUnmarked mark init vs ↔ Recognized mark init vs := by
  unfold Recognized
  by_cases h : vs.getLastD init = mark
  . rw [h, eq_comm, lastUnmarked_eq_mark_iff]
    simp only [forall_const]
  . rw [lastUnmarked_of_getLastD_ne h]
    simp only [h, false_implies]

namespace ExtErr

def stored (init : DosError) (records : List DosError) : DosError where
  exterror := lastUnmarked 0xff init.exterror (records.map (·.exterror))
  errclass := lastUnmarked 0xff init.errclass (records.map (·.errclass))
  action := lastUnmarked 0xff init.action (records.map (·.action))
  locus := lastUnmarked 0xff init.locus (records.map (·.locus))

structure Reports (cpu : Cpu) (info : DosError) : Prop where
  ax : cpu.ax = info.exterror.signExtend 64
  bh : cpu.bh = info.errclass.setWidth 56
  bl : cpu.bl = info.action
  ch : cpu.ch = info.locus.setWidth 56

structure ReportsBytes (cpu : Cpu) (info : DosError) : Prop where
  -- of each register no more than a byte is looked at
  ax : cpu.ax = info.exterror.signExtend 64
  bh : cpu.bh.setWidth 8 = info.errclass
  bl : cpu.bl = info.action
  ch : cpu.ch.setWidth 8 = info.locus

/-! No value of type `char` is the mark. -/

theorem char_ne_dont_change (v : BitVec 8) : v.toInt ≠ 0xff := by
  have := BitVec.toInt_lt (x := v)
  omega

theorem merge_exterror (old new : DosError)
    : (old.merge new).exterror = if new.exterror ≠ 0xff then new.exterror else old.exterror := by
  have : new.exterror.toInt ≠ EXTERR_DONT_CHANGE ↔ new.exterror ≠ 0xff := by
    rw [Ne, Ne, ← BitVec.toInt_inj]
    rfl
  simp only [DosError.merge, this]

theorem merge_errclass (old new : DosError) : (old.merge new).errclass = new.errclass :=
  if_pos (char_ne_dont_change _)

theorem merge_action (old new : DosError) : (old.merge new).action = new.action :=
  if_pos (char_ne_dont_change _)

theorem merge_locus (old new : DosError) : (old.merge new).locus = new.locus :=
  if_pos (char_ne_dont_change _)

theorem foldl_merge_exterror (init : DosError) (records : List DosError)
    : (records.foldl DosError.merge init).exterror
        = lastUnmarked 0xff init.exterror (records.map (·.exterror)) := by
  induction records generalizing init with
  | nil => rfl
  | cons new records ih =>
    rw [List.foldl_cons, ih, merge_exterror, List.map_cons, lastUnmarked_cons]

theorem foldl_merge_char {f : DosError → BitVec 8} (hf : ∀ old new, f (DosError.merge old new) = f new)
    (init : DosError) (records : List DosError)
    : f (records.foldl DosError.merge init) = (records.map f).getLastD (f init) := by
  -- a field that is always stored is that of the last record
  induction records generalizing init with
  | nil => rfl
  | cons new records ih =>
    rw [List.foldl_cons, ih, hf, List.map_cons, List.getLastD_cons]

/-! The calls. -/

def record (px : Posix σ) (call : σ × Cpu) : DosError :=
  px.doserror call.1 (MK_FP call.2.ss call.2.si)

def setRecord (px : Posix σ) (s : Dos σ) (call : σ × Cpu) : Except Fault (Dos σ) :=
  -- the program may have changed its memory since the last call
  (int2fMultiplex px call.2 (s.setOs call.1)).map Prod.snd

def SetsRecord (cpu : Cpu) : Prop :=
  cpu.ah = INT2F_AH_DOS_INTERNAL ∧ cpu.al = INT2F_AL_DOS_INTERNAL_EXTERR_SET

def ReadsRecord (cpu : Cpu) : Prop :=
  cpu.ah = INT21_AH_EXTERR ∧ cpu.bh = INT21_BH_EXTERR ∧ cpu.bl = INT21_BL_EXTERR

theorem cpuExterrSet_eq (px : Posix σ) {cpu : Cpu} (s : Dos σ) (h : SetsRecord cpu)
    : cpuExterrSet px cpu s
        = .ok (cpu, (exterrSet (record px (s.os, cpu)) none s : Result σ Unit).state) := by
  unfold cpuExterrSet
  rw [assertThat_of h.1, assertThat_of h.2]
  rfl

theorem setRecord_ok (px : Posix σ) (s : Dos σ) {call : σ × Cpu} (h : SetsRecord call.2)
    : ∃ t, setRecord px s call = .ok t ∧ t.errno = none
        ∧ t.errorinfo = s.errorinfo.merge (record px call) := by
  unfold setRecord int2fMultiplex
  dsimp only
  rw [if_pos (show _ ∧ _ from h)]
  dsimp only [callSyscall]
  rw [cpuExterrSet_eq px _ h]
  exact ⟨_, rfl, rfl, rfl⟩

theorem run_setRecord (px : Posix σ) (s : Dos σ) (calls : List (σ × Cpu))
    (h : ∀ call ∈ calls, SetsRecord call.2)
    : ∃ t, run (setRecord px) s calls = .ok t ∧ (s.errno = none ∨ calls ≠ [] → t.errno = none)
        ∧ t.errorinfo = (calls.map (record px)).foldl DosError.merge s.errorinfo := by
  induction calls generalizing s with
  | nil => exact ⟨s, rfl, fun h => h.resolve_right (fun h => h rfl), rfl⟩
  | cons call calls ih =>
    rw [List.forall_mem_cons] at h
    obtain ⟨t, ht, herrno, hinfo⟩ := setRecord_ok px s h.1
    obtain ⟨u, hu, herrno', hinfo'⟩ := ih t h.2
    refine ⟨u, ?_, fun _ => herrno' (.inl herrno), ?_⟩
    . unfold run
      rw [ht]
      exact hu
    . rw [hinfo', hinfo, List.map_cons, List.foldl_cons]

theorem int21_of_readsRecord (px : Posix σ) {cpu : Cpu} (s : Dos σ) (h : ReadsRecord cpu)
    : int21MainDosApi px cpu s = cpuExterr px cpu s := by
  have hservice : int21Service px cpu = some (cpuExterr px) := by
    unfold int21Service
    rw [h.1, h.2.1, h.2.2]
    rfl
  unfold int21MainDosApi
  rw [hservice]
  rfl

theorem cpuExterr_ok (px : Posix σ) {cpu : Cpu} {s t : Dos σ} {info : DosError}
    (h : ReadsRecord cpu) (hinfo : dosixDosexterr s = .ok (info, t))
    : ∃ cpu', int21MainDosApi px cpu s = .ok (cpu', t)
        ∧ cpu'.ax = info.exterror.signExtend 64
        ∧ cpu'.bh = info.errclass.signExtend 56
        ∧ cpu'.bl = info.action
        ∧ cpu'.ch = info.locus.signExtend 56 := by
  rw [int21_of_readsRecord px s h]
  unfold cpuExterr
  rw [assertThat_of h.1, assertThat_of h.2.1, assertThat_of h.2.2, hinfo]
  dsimp only [bind, Except.bind]
  split
  all_goals
    refine ⟨_, rfl, rfl, ?_, ?_, ?_⟩
    . simp [Cpu.bh]
    . simp [Cpu.bl]
    . simp [Cpu.ch]

/-! What is reported against what is expected. -/

theorem setWidth_signExtend {w n : Nat} (h : w ≤ n) (v : BitVec w)
    : (v.signExtend n).setWidth w = v := by
  ext i hi
  have : i < n := by omega
  simp [BitVec.getElem_signExtend, hi, this]

theorem signExtend_eq_setWidth_iff {w n : Nat} (h : w < n) (v v' : BitVec w)
    : v.signExtend n = v'.setWidth n ↔ v = v' ∧ v.msb = false := by
  constructor
  . intro heq
    constructor
    . have := congrArg (BitVec.setWidth w) heq
      rwa [setWidth_signExtend (by omega), BitVec.setWidth_setWidth_of_le _ (by omega),
        BitVec.setWidth_eq] at this
    . have := congrArg BitVec.msb heq
      rwa [BitVec.msb_signExtend, if_neg (by omega), BitVec.msb_setWidth,
        BitVec.getLsbD_of_ge _ _ (by omega), Bool.and_false, decide_eq_true (by omega),
        Bool.true_and] at this
  . intro ⟨heq, hmsb⟩
    rw [BitVec.signExtend_eq_setWidth_of_msb_false hmsb, heq]

theorem signExtend_eq_lastUnmarked_iff (init : BitVec 8) (vs : List (BitVec 8))
    : (vs.getLastD init).signExtend 56 = (lastUnmarked 0xff init vs).setWidth 56
        ↔ (vs.getLastD init).msb = false := by
  rw [signExtend_eq_setWidth_iff (by omega)]
  simp only [and_iff_right_iff_imp]
  intro hmsb
  rw [lastUnmarked_of_getLastD_ne]
  intro h
  rw [h] at hmsb
  exact absurd hmsb (by decide)

/--
The registers report the record in full if the last value of each `char` is not negative, and `BL` is
not left marked.
-/
def ReportsWhen (init : DosError) (records : List DosError) : Prop :=
  ((records.map (·.errclass)).getLastD init.errclass).msb = false
    ∧ Recognized 0xff init.action (records.map (·.action))
    ∧ ((records.map (·.locus)).getLastD init.locus).msb = false

def ReportsBytesWhen (init : DosError) (records : List DosError) : Prop :=
  Recognized 0xff init.errclass (records.map (·.errclass))
    ∧ Recognized 0xff init.action (records.map (·.action))
    ∧ Recognized 0xff init.locus (records.map (·.locus))

theorem reports_iff (px : Posix σ) (s : Dos σ) {calls : List (σ × Cpu)}
    (hcalls : ∀ call ∈ calls, SetsRecord call.2) {cpu : Cpu} (hcpu : ReadsRecord cpu)
    (herrno : s.errno = none ∨ calls ≠ [])
    : ∃ t cpu', run (setRecord px) s calls = .ok t ∧ int21MainDosApi px cpu t = .ok (cpu', t)
        ∧ (Reports cpu' (stored s.errorinfo (calls.map (record px)))
          ↔ ReportsWhen s.errorinfo (calls.map (record px)))
        ∧ (ReportsBytes cpu' (stored s.errorinfo (calls.map (record px)))
          ↔ ReportsBytesWhen s.errorinfo (calls.map (record px))) := by
  obtain ⟨t, ht, hnone, hinfo⟩ := run_setRecord px s calls hcalls
  obtain ⟨cpu', hcpu', hax, hbh, hbl, hch⟩ :=
    cpuExterr_ok px hcpu (dosixDosexterr_of_errno_none (hnone herrno))
  rw [hinfo, foldl_merge_exterror] at hax
  rw [hinfo, foldl_merge_char merge_errclass] at hbh
  rw [hinfo, foldl_merge_char merge_action] at hbl
  rw [hinfo, foldl_merge_char merge_locus] at hch
  refine ⟨t, cpu', ht, hcpu', ⟨?_, ?_⟩, ⟨?_, ?_⟩⟩
  . intro h
    refine ⟨?_, ?_, ?_⟩
    . exact (signExtend_eq_lastUnmarked_iff _ _).mp (hbh ▸ h.bh)
    . exact getLastD_eq_lastUnmarked_iff.mp (hbl ▸ h.bl)
    . exact (signExtend_eq_lastUnmarked_iff _ _).mp (hch ▸ h.ch)
  . intro ⟨herrclass, haction, hlocus⟩
    refine ⟨hax, ?_, ?_, ?_⟩
    . exact hbh.trans ((signExtend_eq_lastUnmarked_iff _ _).mpr herrclass)
    . exact hbl.trans (getLastD_eq_lastUnmarked_iff.mpr haction)
    . exact hch.trans ((signExtend_eq_lastUnmarked_iff _ _).mpr hlocus)
  . intro h
    refine ⟨?_, ?_, ?_⟩
    . apply getLastD_eq_lastUnmarked_iff.mp
      rw [← setWidth_signExtend (n := 56) (by omega) (List.getLastD _ _), ← hbh]
      exact h.bh
    . exact getLastD_eq_lastUnmarked_iff.mp (hbl ▸ h.bl)
    . apply getLastD_eq_lastUnmarked_iff.mp
      rw [← setWidth_signExtend (n := 56) (by omega) (List.getLastD _ _), ← hch]
      exact h.ch
  . intro ⟨herrclass, haction, hlocus⟩
    refine ⟨hax, ?_, ?_, ?_⟩
    . rw [hbh, setWidth_signExtend (by omega)]
      exact getLastD_eq_lastUnmarked_iff.mpr herrclass
    . exact hbl.trans (getLastD_eq_lastUnmarked_iff.mpr haction)
    . rw [hch, setWidth_signExtend (by omega)]
      exact getLastD_eq_lastUnmarked_iff.mpr hlocus

def threeRecords : Posix Unit where
  __ := (default : Posix Unit)
  doserror := fun _ a =>
    if a = 0x100 then
      ⟨2, 8, 3, 2⟩
    else if a = 0x200 then
      ⟨0xff, 7, 4, 1⟩
    else
      ⟨5, 0xff, 0xff, 0xff⟩

def setCpu (si : BitVec 64) : Cpu :=
  { ax := 0x1222, si := si }

def readCpu : Cpu :=
  { ax := 0x5900 }

theorem setsRecord_setCpu (si : BitVec 64) : SetsRecord (setCpu si) := by
  change highPart 0x1222 = 0x12 ∧ lowByte 0x1222 = 0x22
  decide

theorem readsRecord_readCpu : ReadsRecord readCpu := by
  unfold ReadsRecord
  decide

theorem reports_iff_markedCode
    : ∃ t cpu', run (setRecord threeRecords) { os := () } [((), setCpu 0x100), ((), setCpu 0x200)]
          = .ok t
        ∧ int21MainDosApi threeRecords readCpu t = .ok (cpu', t)
        ∧ Reports cpu' ⟨2, 7, 4, 1⟩ := by
  have hcalls : ∀ call ∈ [((), setCpu 0x100), ((), setCpu 0x200)], SetsRecord call.2 := by
    simp [setsRecord_setCpu]
  obtain ⟨t, cpu', ht, hcpu', hreports, -⟩ :=
    reports_iff threeRecords { os := () } hcalls readsRecord_readCpu (.inl rfl)
  exact ⟨t, cpu', ht, hcpu', hreports.mpr (by unfold ReportsWhen; decide)⟩

theorem not_reports_markedChars
    : (∀ call ∈ [((), setCpu 0x100), ((), setCpu 0x300)], SetsRecord call.2)
      ∧ ReadsRecord readCpu
      ∧ stored {} [⟨2, 8, 3, 2⟩, ⟨5, 0xff, 0xff, 0xff⟩] = ⟨5, 8, 3, 2⟩
      ∧ ∃ t cpu', run (setRecord threeRecords) { os := () } [((), setCpu 0x100), ((), setCpu 0x300)]
          = .ok t
        ∧ int21MainDosApi threeRecords readCpu t = .ok (cpu', t)
        ∧ ¬ Reports cpu' ⟨5, 8, 3, 2⟩ ∧ ¬ ReportsBytes cpu' ⟨5, 8, 3, 2⟩ := by
  have hcalls : ∀ call ∈ [((), setCpu 0x100), ((), setCpu 0x300)], SetsRecord call.2 := by
    simp [setsRecord_setCpu]
  obtain ⟨t, ht, herrno, hinfo⟩ := run_setRecord threeRecords { os := () } _ hcalls
  obtain ⟨cpu', hcpu', -, -, hbl, -⟩ := cpuExterr_ok threeRecords readsRecord_readCpu
    (dosixDosexterr_of_errno_none (herrno (.inl rfl)))
  have hmarked : cpu'.bl = 0xff := by
    rw [hbl, hinfo]
    rfl
  refine ⟨hcalls, readsRecord_readCpu, by decide, t, cpu', ht, hcpu', ?_, ?_⟩
  . intro h
    exact absurd (hmarked.symm.trans h.bl) (by decide)
  . intro h
    exact absurd (hmarked.symm.trans h.bl) (by decide)

end ExtErr
end Dosix
