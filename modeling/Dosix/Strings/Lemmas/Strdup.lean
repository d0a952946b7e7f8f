import Dosix.Malloc.Lemmas.Contents
import Dosix.Strings.Lemmas.Texts

/-!
This module contains `_strdup` in a program that uses the heap: the copy is a buffer of its own, which
keeps the string whatever becomes of the original.
-/

namespace Dosix
namespace Strings

open Malloc Objects Transition

/--
The stores of a copy to the block behind `p`.
-/
def stores (p : Addr) (i : Nat) (cs : List Byte) : List Event :=
  match cs with
  | [] => []
  | c :: cs => .store p i c :: stores p (i + 1) cs

variable {t t' : Trace} {A : Buffers.Store Addr Byte} {s s' : State} {string : Pointer Object}
  {cs : List Byte} {env : Choices} {size : Size} {p q : Addr} {h : Heap} {i : Nat} {x : Byte}

theorem exists_session (hstore : s.store (.block p) i x = some s')
    : ∃ session, s.session.store p i x = .ok session ∧ s' = { s with session := session } := by
  unfold State.store at hstore
  dsimp only at hstore
  split at hstore
  . cases hstore
  . next session hsession => exact ⟨session, hsession, (Option.some.inj hstore).symm⟩

/--
The loop of `strcpy` is a sequence of stores that keep to the rules of the heap.
-/
theorem strcpyLoop_stores (ht : t.Refines A) (hs : s.session = t.session)
    (hr : Reads s string.object (string.offset + i) cs) (hne : string.object ≠ .block p)
    (hcall : strcpyLoop ⟨.block p, 0⟩ string cs.length i s = .ok s')
    : ∃ t' A', run Trace.step t (stores p i cs) = .ok t' ∧ t'.Refines A'
        ∧ t'.session = s'.session ∧ t'.actions = t.actions ++ Buffers.writes p i cs := by
  induction cs generalizing t A s i with
  | nil =>
    obtain rfl := Except.ok.inj hcall
    exact ⟨t, A, rfl, ht, hs.symm, (List.append_nil _).symm⟩
  | cons c cs ih =>
    rw [List.length_cons] at hcall
    unfold strcpyLoop at hcall
    rw [hr.1] at hcall
    dsimp only at hcall
    rw [Nat.zero_add] at hcall
    split at hcall
    . cases hcall
    . next s₁ hstore =>
      obtain ⟨session, hsession, hs₁⟩ := exists_session hstore
      rw [hs] at hsession
      obtain ⟨t₁, A₁, hstep, ht₁⟩ := ht.step (ht.valid_store hsession) trivial
      have hstep' : t.step (.store p i c) = .ok ⟨session, t.actions ++ [.write p i c]⟩ := by
        unfold Trace.step
        dsimp only
        rw [hsession]
      obtain rfl := Except.ok.inj (hstep.symm.trans hstep')
      have hrest : Reads s₁ string.object (string.offset + (i + 1)) cs := by
        apply (Writes.of_store hstore).keeps _ hr.2
        intro ho
        exact absurd ho hne
      have hsame : s₁.session = session := by rw [hs₁]
      obtain ⟨t', A', hrun, ht', hsession', hactions⟩ := ih ht₁ hsame hrest hcall
      refine ⟨t', A', ?_, ht', hsession', ?_⟩
      . unfold stores run
        rw [hstep]
        exact hrun
      . rw [hactions, Buffers.writes, List.append_assoc]
        rfl

theorem malloc_other (hcall : dosixMalloc env size s.session.heap = .ok (q, h)) (hq : q ≠ 0)
    {o : Object} (ho : o ≠ .block q) (j : Nat)
    : State.load { s with session := s.session.answered (.malloc size) q h } o j = s.load o j := by
  obtain ⟨-, rfl, hblocks⟩ | ⟨hzero, -⟩ := dosixMalloc_blocks hcall
  . cases o with
    | block p =>
      have hp : p - sizeofHeapInfo ≠ env.block := by
        rintro heq
        apply ho
        rw [← heq, BitVec.sub_add_cancel]
      unfold State.load Session.load
      dsimp only
      rw [Session.answered_heap, hblocks, Memory.write_other _ _ hp]
    | array n => rfl
  . exact absurd hzero hq

theorem malloc_size (hcall : dosixMalloc env size s.session.heap = .ok (q, h)) (hq : q ≠ 0)
    (hfits : sizeofHeapInfo.toNat + size.toNat < 2 ^ 64)
    : State.size { s with session := s.session.answered (.malloc size) q h } (.block q)
        = size.toNat := by
  obtain ⟨-, rfl, hblocks⟩ | ⟨hzero, -⟩ := dosixMalloc_blocks hcall
  . unfold State.size
    dsimp only
    rw [Session.answered_heap, hblocks, header_add, Memory.write_same]
    dsimp only
    rw [toNat_totalSize hfits, Nat.add_sub_cancel_left]
  . exact absurd hzero hq

theorem malloc_new (ht : t.Refines A) (hs : s.session = t.session)
    (hcovered : t.Covered (.call ⟨.malloc size, env⟩))
    (hcall : dosixMalloc env size s.session.heap = .ok (q, h)) (hq : q ≠ 0)
    : q ∉ t.session.live ∧ ∀ j, s.load (.block q) j = none := by
  obtain ⟨hne, rfl, -⟩ | ⟨hzero, -⟩ := dosixMalloc_blocks hcall
  . have hfresh := (hcovered.1.resolve_left hne).2
    have hlive : env.block + sizeofHeapInfo ∉ t.session.live := by
      intro hmem
      exact hfresh _ hmem (header_add env.block)
    refine ⟨hlive, ?_⟩
    intro j
    unfold State.load Session.load
    dsimp only
    rw [hs, header_add, ht.holds.block_none fun r hr => hfresh r hr]
  . exact absurd hzero hq

theorem step_malloc (hs : s.session = t.session) (hstep : t.step (.call ⟨.malloc size, env⟩) = .ok t')
    : ∃ q h, dosixMalloc env size s.session.heap = .ok (q, h)
        ∧ t'.session = s.session.answered (.malloc size) q h := by
  unfold Trace.step Call.answer at hstep
  dsimp only at hstep
  rw [hs]
  split at hstep
  . cases hstep
  . next q h hcall =>
    obtain rfl := Except.ok.inj hstep
    exact ⟨q, h, hcall, rfl⟩

/--
The memory with what a `malloc` has made of the heap.
-/
def State.withSession (s : State) (session : Session) : State :=
  { s with session := session }

theorem dosixStrdup_eq (hstring : IsString s string cs)
    (hcall : dosixMalloc env (.ofNat 64 cs.length + 1) s.session.heap = .ok (q, h))
    : dosixStrdup env (some string) s
        = dosixStrcpy (if q = 0 then none else some ⟨.block q, 0⟩) (some string)
          (s.withSession (s.session.answered (.malloc (.ofNat 64 cs.length + 1)) q h)) := by
  unfold dosixStrdup State.malloc dosixStrlen
  dsimp only
  rw [strlen_eq hstring]
  dsimp only
  rw [hcall]
  rfl

theorem object_ne_new (hstring : IsString s string cs) (hnone : ∀ j, s.load (.block q) j = none)
    : string.object ≠ .block q := by
  intro heq
  have hload : s.load string.object (string.offset + cs.length) = some 0 :=
    (reads_append.mp hstring.reads).2.1
  rw [heq, hnone] at hload
  cases hload

theorem isString_later (ht : t.Refines A) (hcs : 0 ∉ cs)
    (hactions : t'.actions = t.actions ++ Buffers.writes p 0 (cs ++ [0]))
    {A' : Buffers.Store Addr Byte} (ht' : t'.Refines A') {after : List Event}
    (hafter : Always Trace.step (fun t e => t.Valid e ∧ t.Covered e) t' after)
    : ∃ t'' as, run Trace.step t' after = .ok t'' ∧ t''.actions = t'.actions ++ as
        ∧ ((∀ i ≤ cs.length, Buffers.SparedBy p i as) → ∀ s : State,
          IsString (s.withSession t''.session) ⟨.block (Buffers.renamedBy p as), 0⟩ cs) := by
  obtain ⟨t'', A'', hrun', ht''⟩ := ht'.run hafter
  obtain ⟨as, has⟩ := Trace.run_actions hrun'
  refine ⟨t'', as, hrun', has, ?_⟩
  intro hspared s
  have hwrites : run Buffers.step A (Buffers.writes p 0 (cs ++ [0])) = .ok A' := by
    rw [← ht.run_append, ← hactions]
    exact ht'.ran
  have hlater : run Buffers.step A' as = .ok A'' := by
    rw [← ht'.run_append, ← has]
    exact ht''.ran
  refine ⟨?_, hcs⟩
  apply Reads.of_getElem
  intro i x hx
  have hi : i < (cs ++ [0]).length := (List.getElem?_eq_some_iff.mp hx).1
  rw [List.length_append, List.length_singleton] at hi
  have hbyte := Buffers.run_byte hlater (Buffers.run_writes hwrites hx)
  rw [Nat.zero_add] at hbyte ⊢
  exact ht''.holds.load_eq (hbyte (hspared i (Nat.lt_succ_iff.mp hi)))

/--
What `_strdup` leaves behind: the copy is a new block, nothing else has changed, and the copy is there
until its bytes are overwritten, cut off or released, whatever becomes of the original.
-/
structure Duplicates (env : Choices) (string : Pointer Object) (cs : List Byte) (t : Trace)
    (s : State) (q : Addr) (t' : Trace) (s' : State) : Prop where
  returns : dosixStrdup env (some string) s = .ok (some ⟨.block q, 0⟩, s')
  runs : run Trace.step t
    (.call ⟨.malloc (.ofNat 64 cs.length + 1), env⟩ :: stores q 0 (cs ++ [0])) = .ok t'
  session : t'.session = s'.session
  fresh : q ∉ t.session.live
  copy : IsString s' ⟨.block q, 0⟩ cs
  other : ∀ {o i}, o ≠ .block q → s'.load o i = s.load o i
  original : IsString s' string cs
  lasts : ∀ after, Always Trace.step (fun t e => t.Valid e ∧ t.Covered e) t' after →
    ∃ t'' as, run Trace.step t' after = .ok t'' ∧ t''.actions = t'.actions ++ as
      ∧ ((∀ i ≤ cs.length, Buffers.SparedBy q i as) → ∀ s : State,
        IsString (s.withSession t''.session) ⟨.block (Buffers.renamedBy q as), 0⟩ cs)

theorem toNat_strdupSize (hlength : cs.length + 1 < 2 ^ 64)
    : (.ofNat 64 cs.length + 1 : Size).toNat = cs.length + 1 := by
  rw [BitVec.toNat_add, BitVec.toNat_ofNat, Nat.mod_eq_of_lt (Nat.lt_of_succ_lt hlength)]
  exact Nat.mod_eq_of_lt hlength

/--
In a program that uses the heap as `Trace.Covered` asks, `_strdup` of a string that is anywhere in
memory stops at an assertion if there is no memory for the copy, and else makes one that lasts.
-/
theorem strdup_lasts {before : List Event}
    (hbefore : Always Trace.step (fun t e => t.Valid e ∧ t.Covered e) {} before)
    (hrun : run Trace.step {} before = .ok t) (hs : s.session = t.session)
    (hstring : IsString s string cs) (hlength : cs.length + 1 < 2 ^ 64)
    (hcovered : t.Covered (.call ⟨.malloc (.ofNat 64 cs.length + 1), env⟩))
    : ∃ q h, dosixMalloc env (.ofNat 64 cs.length + 1) s.session.heap = .ok (q, h)
        ∧ if q = 0 then
            dosixStrdup env (some string) s = .error .assertion
          else
            ∃ t' s', Duplicates env string cs t s q t' s' := by
  obtain ⟨t₀, A₀, hrun₀, ht₀⟩ := Trace.Refines.init.run hbefore
  obtain rfl := Except.ok.inj (hrun₀.symm.trans hrun)
  have hvalid : t₀.Valid (.call ⟨.malloc (.ofNat 64 cs.length + 1), env⟩) := trivial
  obtain ⟨t₁, A₁, hstep, ht₁⟩ := ht₀.step hvalid hcovered
  obtain ⟨q, h, hcall, hsession⟩ := step_malloc hs hstep
  refine ⟨q, h, hcall, ?_⟩
  have hdup : dosixStrdup env (some string) s
      = dosixStrcpy (if q = 0 then none else some ⟨.block q, 0⟩) (some string)
        (s.withSession t₁.session) := by
    rw [hsession]
    exact dosixStrdup_eq hstring hcall
  rw [hdup]
  split
  . rfl
  . next hq =>
    obtain ⟨hlive, hnone⟩ := malloc_new ht₀ hs hcovered hcall hq
    have hobject := object_ne_new hstring hnone
    have hother {o : Object} {j : Nat} (ho : o ≠ .block q)
        : (s.withSession t₁.session).load o j = s.load o j := by
      rw [hsession]
      exact malloc_other hcall hq ho j
    have hstring₁ : IsString (s.withSession t₁.session) string cs :=
      ⟨hstring.reads.congr fun j _ _ => hother hobject, hstring.not_mem⟩
    have hroom : 0 + cs.length < Memory.size (s.withSession t₁.session) (.block q) := by
      have hsize : (s.withSession t₁.session).size (.block q) = cs.length + 1 := by
        rw [hsession, ← toNat_strdupSize hlength]
        exact malloc_size hcall hq hcovered.2.2.2
      rw [show Memory.size (s.withSession t₁.session) (.block q) = _ from hsize]
      omega
    have hapart : Apart (.block q) 0 (cs.length + 1) string.object string.offset (cs.length + 1) :=
      fun ho => absurd ho hobject
    obtain ⟨s', hcopy, hwrites⟩ := strcpy_spec (p := ⟨.block q, 0⟩) hstring₁ hroom hapart
    have hloop := (strcpy_eq (p := ⟨.block q, 0⟩) hstring₁ hapart).symm.trans hcopy
    obtain ⟨t', A', hstores, ht', hsession', hactions⟩ :=
      strcpyLoop_stores (i := 0) ht₁ rfl hstring₁.reads hobject hloop
    have hapart' : Apart (.block q) 0 (cs ++ [0]).length string.object string.offset
        (cs ++ [0]).length :=
      fun ho => absurd ho hobject
    refine ⟨t', s', ?_, ?_, hsession', hlive, ⟨hwrites.reads, hstring.not_mem⟩, ?_,
      ⟨hwrites.keeps hapart' hstring₁.reads, hstring.not_mem⟩, ?_⟩
    . rw [hdup, if_neg hq]
      unfold dosixStrcpy
      dsimp only
      rw [hcopy]
      rfl
    . unfold run
      rw [hstep]
      exact hstores
    . intro o j ho
      rw [← hother ho]
      apply hwrites.other
      intro heq
      exact absurd heq ho
    . intro after hafter
      exact isString_later ht₁ hstring.not_mem hactions ht' hafter

theorem strdup_lasts_firstArray
    : ∃ h, dosixMalloc { block := 0x1000 } 3 twoArrays.session.heap = .ok (0x1018, h)
        ∧ ∃ t' s', Duplicates { block := 0x1000 } ⟨.array 0, 0⟩ [0x61, 0x42] {} twoArrays 0x1018 t'
          s' := by
  have hstring : IsString twoArrays ⟨.array 0, 0⟩ [0x61, 0x42] :=
    ⟨⟨rfl, rfl, rfl, trivial⟩, by decide⟩
  have hbefore : Always Trace.step (fun t e => t.Valid e ∧ t.Covered e) {} [] := trivial
  have hcovered : Trace.Covered {} (.call ⟨.malloc (.ofNat 64 2 + 1), { block := 0x1000 }⟩) := by
    decide +kernel
  obtain ⟨q, h, hcall, hdup⟩ := strdup_lasts hbefore rfl rfl hstring (by decide) hcovered
  obtain ⟨rfl, rfl⟩ := Prod.mk.inj (Except.ok.inj hcall)
  exact ⟨_, rfl, hdup⟩

end Strings
end Dosix
