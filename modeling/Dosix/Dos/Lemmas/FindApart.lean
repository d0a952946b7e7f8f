import Dosix.Dos.Lemmas.FindEnum
import Dosix.Interleaving.Basic

/-!
This module contains the independence of searches on different objects, which share the DTA address,
`errno` and the extended error.
-/

namespace Dosix

open Transition Interleaving

variable {σ : Type}

/--
All that the program sees of a search.
-/
def FindT.report (f : FindT) : FindEntry :=
  { f.entry with name := f.name }

def searchCall (px : Posix σ) (s : Dos σ) (a : Addr) (call : SearchCall)
    : Except Fault (Result σ Unit) :=
  match call with
  | .findfirst filename attrib => dosixDosFindfirst px filename attrib a s
  | .findnext => dosixDosFindnext px a s
  | .cpuFindfirst cpu => serviceResult (int21MainDosApi px cpu s)
  | .cpuFindnext cpu => serviceResult (int21MainDosApi px cpu s)

/--
A call for the search on the object at an address. It answers with the code and what the object holds
afterwards.
-/
def searchStep (px : Posix σ) (s : Dos σ) (p : Addr × SearchCall)
    : Except Fault ((BitVec 32 × FindEntry) × Dos σ) :=
  (searchCall px s p.1 p.2).map fun r => ((r.code, (r.state.findT p.1).report), r.state)

/--
The services work on the object at the DTA address.
-/
def SearchCall.On (dta a : Addr) (call : SearchCall) : Prop :=
  match call with
  | .cpuFindfirst cpu => cpu.ah = INT21_AH_FINDFIRST ∧ a = dta
  | .cpuFindnext cpu => cpu.ah = INT21_AH_FINDNEXT ∧ a = dta
  | _ => True

instance (dta a : Addr) (call : SearchCall) : Decidable (call.On dta a) :=
  match call with
  | .cpuFindfirst _ => inferInstanceAs (Decidable (_ ∧ _))
  | .cpuFindnext _ => inferInstanceAs (Decidable (_ ∧ _))
  | .findfirst _ _ => .isTrue trivial
  | .findnext => .isTrue trivial

namespace Files

variable (fs : Files) (localtime : Int → Option Tm)

def searchCall (f : FindT) (call : SearchCall) : Except Fault (BitVec 32 × FindT) :=
  match call with
  | .findfirst filename attrib => fs.findfirst localtime filename attrib f
  | .findnext => fs.findnext localtime f
  | .cpuFindfirst cpu =>
    fs.findfirst localtime (fs.cstring (MK_FP cpu.ds cpu.dx)) (cpu.cx.setWidth 32) f
  | .cpuFindnext _ => fs.findnext localtime f

def searchStep (f : FindT) (call : SearchCall)
    : Except Fault ((BitVec 32 × FindEntry) × FindT) :=
  (fs.searchCall localtime f call).map fun p => ((p.1, p.2.report), p.2)

end Files

section

variable {fs : Files} {px : Posix σ} {holds : σ → Prop} {s t : Dos σ} {a : Addr}
  {call : SearchCall}

theorem searchCall_agrees (hfs : fs.Unchanged px holds) (hos : holds s.os)
    (hcall : call.On s.currentDta a)
    : Agrees holds s a (searchCall px s a call)
        (fs.searchCall px.localtime (s.findT a) call) := by
  cases call with
  | findfirst filename attrib => exact dosixDosFindfirst_agrees hfs hos a filename attrib
  | findnext => exact dosixDosFindnext_agrees hfs hos a
  | cpuFindfirst cpu =>
    obtain ⟨hah, rfl⟩ := hcall
    unfold searchCall Files.searchCall
    dsimp only
    rw [int21_findfirst px hah, hfs.cstring _ _ hos]
    exact agrees_serviceResult (findfirst_agrees hfs hos _ _)
  | cpuFindnext cpu =>
    obtain ⟨hah, rfl⟩ := hcall
    unfold searchCall Files.searchCall
    dsimp only
    rw [int21_findnext px hah]
    exact agrees_serviceResult (findnext_agrees hfs hos)

theorem searchStep_ok (hfs : fs.Unchanged px holds) (hos : holds s.os)
    (hcall : call.On s.currentDta a) {r : BitVec 32 × FindEntry}
    (h : searchStep px s (a, call) = .ok (r, t))
    : ∃ f, fs.searchStep px.localtime (s.findT a) call = .ok (r, f) ∧ Leaves holds s t a f := by
  have hagrees := searchCall_agrees hfs hos hcall
  unfold searchStep at h
  cases hr : searchCall px s a call with
  | error e => simp [hr, Except.map] at h
  | ok r' =>
    rw [hr] at h
    injection h with h
    rw [Prod.mk.injEq] at h
    obtain ⟨rfl, rfl⟩ := h
    obtain ⟨f, hf, hleaves⟩ := hagrees.of_ok hr
    refine ⟨f, ?_, hleaves⟩
    unfold Files.searchStep
    rw [hf, hleaves.findT_same]
    rfl

theorem searchStep_of_files (hfs : fs.Unchanged px holds) (hos : holds s.os)
    (hcall : call.On s.currentDta a) {r : BitVec 32 × FindEntry} {f : FindT}
    (h : fs.searchStep px.localtime (s.findT a) call = .ok (r, f))
    : ∃ t, searchStep px s (a, call) = .ok (r, t) := by
  have hagrees := searchCall_agrees hfs hos hcall
  unfold Files.searchStep at h
  cases hf : fs.searchCall px.localtime (s.findT a) call with
  | error e => simp [hf, Except.map] at h
  | ok p =>
    rw [hf] at h hagrees
    injection h with h
    rw [Prod.mk.injEq] at h
    obtain ⟨rfl, rfl⟩ := h
    obtain ⟨r', hr, hcode, hleaves⟩ := hagrees.exists_ok
    refine ⟨r'.state, ?_⟩
    unfold searchStep
    dsimp only
    rw [hr, ← hcode, ← hleaves.findT_same]
    rfl

/--
A search is a component, of which the object is the state.
-/
theorem search_componentwise (hfs : fs.Unchanged px holds) (dta : Addr)
    : Componentwise (searchStep px) (fun p => p.2.On dta p.1)
        (fun s => holds s.os ∧ s.currentDta = dta) Dos.findT (fs.searchStep px.localtime) where
  acts := by
    rintro s ⟨a, call⟩ r t ⟨hos, rfl⟩ hcall h
    obtain ⟨f, hf, hleaves⟩ := searchStep_ok hfs hos hcall h
    dsimp only
    rw [hf, hleaves.findT_same]
  answers := by
    rintro s ⟨a, call⟩ r f ⟨hos, rfl⟩ hcall h
    exact searchStep_of_files hfs hos hcall h
  frame := by
    rintro s ⟨a, call⟩ r t ⟨hos, rfl⟩ hcall h x hx
    obtain ⟨f, -, hleaves⟩ := searchStep_ok hfs hos hcall h
    rw [hleaves.findT]
    exact if_neg hx
  preserves := by
    rintro s ⟨a, call⟩ r t ⟨hos, rfl⟩ hcall h
    obtain ⟨f, -, hleaves⟩ := searchStep_ok hfs hos hcall h
    exact ⟨hleaves.holds, hleaves.currentDta⟩

/-! A search that has been started goes on. -/

/--
The next `findnext` finds a vector to read, or nothing to do.
-/
def FindT.Ready (f : FindT) : Prop :=
  (∃ pathv, f.glPathv = some pathv ∧ pathv.length = f.glPathc ∧ f._glPathi ≤ f.glPathc)
    ∨ f._glPathi = f.glPathc

theorem findnextLoop_ready {localtime : Int → Option Tm} (hlisted : ∀ path, fs.Listed path)
    {pathv : List String} {left : Nat} {f : FindT} (hpathv : f.glPathv = some pathv)
    (hlength : pathv.length = f.glPathc) (hleft : f._glPathi + left = f.glPathc)
    : ∃ ret f', fs.findnextLoop localtime left f = .ok (ret, f')
        ∧ (ret = none → f'._glPathi = f'.glPathc) ∧ f'.Ready := by
  induction left generalizing f with
  | zero => exact ⟨none, f, rfl, fun _ => hleft, .inr hleft⟩
  | succ left ih =>
    have hlt : f._glPathi < pathv.length := by omega
    obtain ⟨-, hloop⟩ | ⟨attrib, st, -, -, -, hloop⟩ :=
      Files.findnextLoop_round localtime left hpathv (List.getElem?_eq_getElem hlt) (hlisted _)
    . rw [hloop]
      exact ih (f := f.next) hpathv hlength (show f._glPathi + 1 + left = f.glPathc by omega)
    . refine ⟨_, _, hloop, by simp, .inl ⟨pathv, ?_⟩⟩
      unfold Files.findnextMatch
      split
      . exact ⟨hpathv, hlength, show f._glPathi ≤ f.glPathc by omega⟩
      . exact ⟨hpathv, hlength, show f._glPathi + 1 ≤ f.glPathc by omega⟩

theorem findnext_ready (localtime : Int → Option Tm) (hlisted : ∀ path, fs.Listed path) {f : FindT}
    (h : f.Ready)
    : ∃ code f', fs.findnext localtime f = .ok (code, f') ∧ f'.Ready := by
  have hloop : ∃ ret f', fs.findnextLoop localtime (f.glPathc - f._glPathi) f = .ok (ret, f')
      ∧ (ret = none → f'._glPathi = f'.glPathc) ∧ f'.Ready := by
    obtain ⟨pathv, hpathv, hlength, hle⟩ | hend := h
    . exact findnextLoop_ready hlisted hpathv hlength (Nat.add_sub_of_le hle)
    . rw [hend, Nat.sub_self]
      exact ⟨none, f, rfl, fun _ => hend, .inr hend⟩
  obtain ⟨ret, f', hf', hend, hready⟩ := hloop
  unfold Files.findnext
  rw [hf']
  cases ret with
  | some code => exact ⟨code, f', rfl, hready⟩
  | none =>
    dsimp only
    rw [if_pos (hend rfl)]
    exact ⟨_, _, rfl, .inr (hend rfl)⟩

theorem failure_ne_zero {e : Errno} {code : BitVec 32} (h : Files.failure e = .ok code)
    : code ≠ 0 := by
  unfold Files.failure at h
  split at h
  . simp at h
  . next info hinfo =>
    injection h with h
    exact h ▸ Errno.doserror_exterror_ne_zero hinfo

theorem errfunc_ne_zero {e : Errno} {code : BitVec 32} (h : Files.errfunc e = .ok code)
    : code ≠ 0 := by
  unfold Files.errfunc at h
  split at h
  . injection h with h
    exact h ▸ by decide
  . injection h with h
    exact h ▸ by decide
  . injection h with h
    exact h ▸ by decide
  . exact failure_ne_zero h

theorem findfirst_ready {localtime : Int → Option Tm} (hlisted : ∀ path, fs.Listed path)
    {filename : CString} {attrib : BitVec 32} {f f' : FindT}
    (h : fs.findfirst localtime filename attrib f = .ok (0, f'))
    : f'.Ready := by
  unfold Files.findfirst at h
  split at h
  . simp at h
  . split at h
    . next paths _ =>
      split at h
      . obtain ⟨code, g, hg, hready⟩ := findnext_ready localtime hlisted
          (f := { f with
            glPathc := paths.length
            glPathv := some paths
            _glPathi := 0
            _attrib := attrib })
          (.inl ⟨paths, rfl, rfl, Nat.zero_le _⟩)
        rw [hg] at h
        injection h with h
        exact (Prod.mk.inj h).2 ▸ hready
      . simp at h
    . next e paths _ =>
      cases hcode : Files.errfunc e with
      | error e' => simp [hcode, Except.map] at h
      | ok code =>
        rw [hcode] at h
        injection h with h
        exact absurd (Prod.mk.inj h).1 (errfunc_ne_zero hcode)
    . injection h with h
      exact absurd (Prod.mk.inj h).1 (by decide)
    . injection h with h
      exact absurd (Prod.mk.inj h).1 (by decide)

/--
The search is started by a `findfirst` that succeeds, and goes on with calls of `findnext`.
-/
def Started (px : Posix σ) (s : Dos σ) (calls : List (Addr × SearchCall)) : Prop :=
  match calls with
  | [] => True
  | first :: rest =>
    first.2.isFindfirst ∧ (∃ r, searchCall px s first.1 first.2 = .ok r ∧ r.code = 0)
      ∧ ∀ p ∈ rest, p.2.isFindfirst = false

theorem run_ready (hfs : fs.Unchanged px holds) (hlisted : ∀ path, fs.Listed path)
    (calls : List (Addr × SearchCall)) (hos : holds s.os)
    (hcalls : ∀ p ∈ calls, p.1 = a ∧ p.2.On s.currentDta p.1 ∧ p.2.isFindfirst = false)
    (hready : (s.findT a).Ready)
    : ∃ p, run (searchStep px) s calls = .ok p := by
  induction calls generalizing s with
  | nil => exact ⟨_, rfl⟩
  | cons p calls ih =>
    obtain ⟨x, call⟩ := p
    obtain ⟨rfl, hcall, hnext⟩ := hcalls _ (.head _)
    obtain ⟨code, f, hf, hready'⟩ := findnext_ready px.localtime hlisted hready
    have hsearch : fs.searchStep px.localtime (s.findT x) call = .ok ((code, f.report), f) := by
      unfold Files.searchStep Files.searchCall
      cases call with
      | findfirst filename attrib => simp [SearchCall.isFindfirst] at hnext
      | cpuFindfirst cpu => simp [SearchCall.isFindfirst] at hnext
      | findnext =>
        dsimp only
        rw [hf]
        rfl
      | cpuFindnext cpu =>
        dsimp only
        rw [hf]
        rfl
    obtain ⟨t, ht⟩ := searchStep_of_files hfs hos hcall hsearch
    obtain ⟨f', hf', hleaves⟩ := searchStep_ok hfs hos hcall ht
    rw [hsearch] at hf'
    injection hf' with hf'
    obtain rfl := (Prod.mk.inj hf').2
    obtain ⟨⟨out, u⟩, hrun⟩ := ih hleaves.holds
      (fun p hp => hleaves.currentDta ▸ hcalls p (.tail _ hp)) (hleaves.findT_same ▸ hready')
    exact ⟨_, run_cons_of_ok ht hrun⟩

theorem run_started (hfs : fs.Unchanged px holds) (hlisted : ∀ path, fs.Listed path)
    {calls : List (Addr × SearchCall)} (hos : holds s.os)
    (hcalls : ∀ p ∈ calls, p.1 = a ∧ p.2.On s.currentDta p.1) (hstarted : Started px s calls)
    : ∃ p, run (searchStep px) s calls = .ok p := by
  cases calls with
  | nil => exact ⟨_, rfl⟩
  | cons p calls =>
    obtain ⟨x, call⟩ := p
    obtain ⟨rfl, hcall⟩ := hcalls _ (.head _)
    obtain ⟨hfirst, ⟨r, hr, hcode⟩, hrest⟩ := hstarted
    obtain ⟨f, hf, hleaves⟩ := (searchCall_agrees hfs hos hcall).of_ok hr
    have hready : f.Ready := by
      rw [hcode] at hf
      unfold Files.searchCall at hf
      cases call with
      | findfirst filename attrib => exact findfirst_ready hlisted hf
      | cpuFindfirst cpu => exact findfirst_ready hlisted hf
      | findnext => simp [SearchCall.isFindfirst] at hfirst
      | cpuFindnext cpu => simp [SearchCall.isFindfirst] at hfirst
    have hstep : searchStep px s (x, call)
        = .ok ((r.code, (r.state.findT x).report), r.state) := by
      unfold searchStep
      dsimp only at hr ⊢
      rw [hr]
      rfl
    obtain ⟨⟨out, u⟩, hrun⟩ := run_ready hfs hlisted calls hleaves.holds
      (fun p hp => ⟨(hcalls p (.tail _ hp)).1, hleaves.currentDta ▸ (hcalls p (.tail _ hp)).2,
        hrest p hp⟩)
      (hleaves.findT_same ▸ hready)
    exact ⟨_, run_cons_of_ok hstep hrun⟩

end

/-! The DTA address. -/

/--
What `AH=2Fh` reports.
-/
def dtaReported (px : Posix σ) (s : Dos σ) : Except Fault (BitVec 64 × BitVec 64) :=
  (int21MainDosApi px { ax := 0x2f00 } s).map fun p => (p.1.es, p.1.bx)

theorem dtaReported_eq (px : Posix σ) (s : Dos σ)
    : dtaReported px s = .ok (FP_SEG (getDtaAddr s), FP_OFF (getDtaAddr s)) := rfl

/--
Searches on different objects do not disturb one another. Each of them gets the answers that it gets
alone, and the calls that C programs make leave the DTA address as they found it.
-/
theorem searches_apart {fs : Files} {px : Posix σ} {holds : σ → Prop}
    (hfs : fs.Unchanged px holds) {s : Dos σ} (hos : holds s.os) (calls : List (Addr × SearchCall))
    (hcalls : ∀ p ∈ calls, p.2.On s.currentDta p.1)
    : (∀ out t, run (searchStep px) s calls = .ok (out, t) → ∀ a, ∃ t',
        run (searchStep px) s (calls.filter fun p => p.1 = a)
          = .ok (out.filter fun p => p.1 = a, t'))
      ∧ ((∀ path, fs.Listed path) → (∀ a, Started px s (calls.filter fun p => p.1 = a)) →
        ∃ out t, run (searchStep px) s calls = .ok (out, t))
      ∧ ∀ (t : Dos σ) (a : Addr),
        Meets (fun r => dtaReported px r.state = dtaReported px t) (fun _ => True)
            (dosixDosFindnext px a t)
          ∧ ∀ filename attrib,
            Meets (fun r => dtaReported px r.state = dtaReported px t) (fun _ => True)
              (dosixDosFindfirst px filename attrib a t) := by
  have hcomponents := search_componentwise hfs s.currentDta
  refine ⟨?_, ?_, ?_⟩
  . intro out t hrun a
    exact hcomponents.run_alone a hcalls ⟨hos, rfl⟩ ⟨hos, rfl⟩ rfl hrun
  . intro hlisted hstarted
    have halone : ∀ a, ∃ u : Dos σ, (holds u.os ∧ u.currentDta = s.currentDta)
        ∧ u.findT a = s.findT a
        ∧ ∃ p, run (searchStep px) u (calls.filter fun p => p.1 = a) = .ok p := by
      intro a
      refine ⟨s, ⟨hos, rfl⟩, rfl, run_started (a := a) hfs hlisted hos ?_ (hstarted a)⟩
      intro p hp
      obtain ⟨hp, ha⟩ := List.mem_filter.mp hp
      exact ⟨of_decide_eq_true ha, hcalls p hp⟩
    obtain ⟨⟨out, t⟩, hrun⟩ := hcomponents.run_together hcalls ⟨hos, rfl⟩ halone
    exact ⟨out, t, hrun⟩
  . intro t a
    simp only [dtaReported_eq, dosixDosFindnext_eq, dosixDosFindfirst_eq]
    constructor
    . exact (restoreDta_dta t _).imp fun r hr => by rw [hr]
    . intro filename attrib
      exact (restoreDta_dta t _).imp fun r hr => by rw [hr]

def twoSearches : List (Addr × SearchCall) :=
  [(0x200, .findfirst (some "*") _A_SUBDIR),
   (0x300, .cpuFindfirst { ax := 0x4e00, dx := 0x100 }),
   (0x200, .findnext),
   (0x300, .cpuFindnext { ax := 0x4f00 }),
   (0x200, .findnext),
   (0x300, .cpuFindnext { ax := 0x4f00 })]

def withDta : Dos Unit where
  os := ()
  currentDta := 0x300

theorem twoSearches_started (a : Addr)
    : Started smallDirectory.kernel withDta (twoSearches.filter fun p => p.1 = a) := by
  by_cases h : a = 0x200
  . subst h
    refine ⟨rfl, ?_, by decide⟩
    obtain ⟨r, hr, hcode⟩ := exists_of_any (q := fun r => r.code = 0)
      (show (searchCall smallDirectory.kernel withDta 0x200
        (.findfirst (some "*") _A_SUBDIR)).toOption.any _ = true by decide +kernel)
    exact ⟨r, hr, of_decide_eq_true hcode⟩
  . by_cases h' : a = 0x300
    . subst h'
      refine ⟨rfl, ?_, by decide⟩
      obtain ⟨r, hr, hcode⟩ := exists_of_any (q := fun r => r.code = 0)
        (show (searchCall smallDirectory.kernel withDta 0x300
          (.cpuFindfirst { ax := 0x4e00, dx := 0x100 })).toOption.any _ = true by decide +kernel)
      exact ⟨r, hr, of_decide_eq_true hcode⟩
    . have hnil : twoSearches.filter (fun p => p.1 = a) = [] := by
        rw [List.filter_eq_nil_iff]
        intro p hp
        have hkeys : p.1 = 0x200 ∨ p.1 = 0x300 := by
          revert p
          decide
        obtain hp | hp := hkeys
        . simpa [hp] using Ne.symm h
        . simpa [hp] using Ne.symm h'
      rw [hnil]
      trivial

theorem searches_apart_twoSearches
    : ∃ out t, run (searchStep smallDirectory.kernel) withDta twoSearches = .ok (out, t)
        ∧ ∀ a, ∃ t', run (searchStep smallDirectory.kernel) withDta
            (twoSearches.filter fun p => p.1 = a) = .ok (out.filter fun p => p.1 = a, t') := by
  obtain ⟨halone, htogether, -⟩ := searches_apart (s := withDta) smallDirectory.kernel_unchanged
    trivial twoSearches (by decide)
  obtain ⟨out, t, hrun⟩ := htogether (fun path => (smallDirectory_usual path).toListed)
    twoSearches_started
  exact ⟨out, t, hrun, halone out t hrun⟩

end Dosix
