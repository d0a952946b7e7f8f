import Mathlib.Order.Nat
import Dosix.Dos.Impl.AllocMem
import Dosix.Dos.Lemmas.ExtErr
import Dosix.SearchTree.Comparison

/-!
This module contains the law that ties the records of the allocated blocks to the mappings of the
kernel, over whole runs, and where the code breaks it.
-/

namespace Dosix

open SearchTree Transition

variable {σ : Type}

def recordAddress (allocmem : Addr → Option AllocMem) (ptr : Addr) : Nat :=
  match allocmem ptr with
  | none => 0
  | some record => record.address.toNat

/--
The comparison of the exact addresses.
-/
def recordCmp (allocmem : Addr → Option AllocMem) (address ptr : Addr) : Int :=
  address.toNat - recordAddress allocmem ptr

theorem recordCmp_seeks (allocmem : Addr → Option AllocMem) (address : Addr)
    : Seeks (recordAddress allocmem) address.toNat (recordCmp allocmem address) := by
  constructor
  all_goals
    intro ptr
    unfold recordCmp
    omega

theorem allocmemCmp_congr (px : Posix σ) {s t : Dos σ} (address : Addr) {ptr : Addr}
    (h : t.allocmem ptr = s.allocmem ptr)
    : allocmemCmp px t address ptr = allocmemCmp px s address ptr := by
  unfold allocmemCmp
  rw [h]

/--
No address of a block in the tree is too far away for the comparison to be exact.
-/
def Dos.ComparesExactly (px : Posix σ) (s : Dos σ) (address : Addr) : Bool :=
  s.allocmemTree.keys.all fun ptr => allocmemCmp px s address ptr = recordCmp s.allocmem address ptr

theorem allocmemCmp_of_comparesExactly {px : Posix σ} {s : Dos σ} {address ptr : Addr}
    (h : s.ComparesExactly px address = true) (hptr : ptr ∈ s.allocmemTree.keys)
    : allocmemCmp px s address ptr = recordCmp s.allocmem address ptr :=
  of_decide_eq_true (List.all_eq_true.mp h ptr hptr)

/--
The records in the tree and the mappings correspond one to one, and all the records are in the tree.
-/
structure Ledger (tree : SearchTree Addr) (allocmem : Addr → Option AllocMem)
    (mappings : Addr → Option Size) : Prop where
  ordered : tree.IsSearchTree (recordAddress allocmem)
  ids_nodup : tree.ids.Nodup
  allocated : ∀ ptr, ptr ∈ tree.keys ↔ (allocmem ptr).isSome
  mapped : ∀ ptr record, allocmem ptr = some record →
    mappings record.address = some record.length
  recorded : ∀ address length, mappings address = some length →
    ∃ ptr, allocmem ptr = some ⟨address, length⟩

def Dos.Balanced (s : Dos σ) : Prop :=
  Ledger s.allocmemTree s.allocmem s.mappings

theorem Dos.Balanced.of_quiet {s s' : Dos σ} (hs : s.Balanced) (h : s.Quiet s')
    : s'.Balanced := by
  unfold Dos.Balanced
  rw [h.allocmemTree, h.allocmem, h.mappings]
  exact hs

theorem Dos.Balanced.of_meets_quiet {α : Type} {s t : Dos σ} {r : Except Fault (Result σ α)}
    (hs : s.Balanced) (ht : s.Quiet t) (h : Meets (fun r => t.Quiet r.state) (· = .unreachable) r)
    : Meets (fun r => r.state.Balanced) (· ≠ .undefined) r := by
  apply h.mono
  . intro r hr
    exact hs.of_quiet (ht.trans hr)
  . intro f hf
    simp [hf]

namespace Ledger

variable {tree tree' : SearchTree Addr} {allocmem : Addr → Option AllocMem}
  {mappings : Addr → Option Size} {ptr address : Addr} {record : AllocMem} {length : Size}

theorem recordAddress_eq (hptr : allocmem ptr = some record)
    : recordAddress allocmem ptr = record.address.toNat := by
  simp [recordAddress, hptr]

theorem eq_of_address_eq (h : Ledger tree allocmem mappings) {q : Addr} {record' : AllocMem}
    (hp : allocmem ptr = some record) (hq : allocmem q = some record')
    (heq : record.address = record'.address)
    : ptr = q := by
  apply h.ordered.rank_injOn ((h.allocated ptr).mpr (by simp [hp]))
    ((h.allocated q).mpr (by simp [hq]))
  rw [recordAddress_eq hp, recordAddress_eq hq, heq]

theorem insert (h : Ledger tree allocmem mappings) (hptr : allocmem ptr = none)
    (haddress : mappings address = none)
    (hordered : tree'.IsSearchTree
      (recordAddress (Memory.write allocmem ptr (some ⟨address, length⟩))))
    (hkeys : tree'.keys.Perm (ptr :: tree.keys)) (hids : tree'.ids.Nodup)
    : Ledger tree' (Memory.write allocmem ptr (some ⟨address, length⟩))
      (Memory.write mappings address (some length)) where
  ordered := hordered
  ids_nodup := hids
  allocated := by
    intro q
    rw [hkeys.mem_iff, List.mem_cons, h.allocated]
    by_cases hq : q = ptr
    . simp [hq]
    . simp [hq]
  mapped := by
    intro q r hr
    by_cases hq : q = ptr
    . subst hq
      simp only [Memory.write_same, Option.some.injEq] at hr
      subst hr
      simp
    . rw [Memory.write_other _ _ hq] at hr
      have hmapped := h.mapped q r hr
      rw [Memory.write_other _ _ (fun heq => by simp [heq, haddress] at hmapped)]
      exact hmapped
  recorded := by
    intro a len hlen
    by_cases ha : a = address
    . subst ha
      simp only [Memory.write_same, Option.some.injEq] at hlen
      subst hlen
      exact ⟨ptr, by simp⟩
    . rw [Memory.write_other _ _ ha] at hlen
      obtain ⟨q, hq⟩ := h.recorded a len hlen
      refine ⟨q, ?_⟩
      rw [Memory.write_other _ _ (fun heq => by simp [heq, hptr] at hq)]
      exact hq

theorem tsearch (h : Ledger tree allocmem mappings) (hptr : allocmem ptr = none)
    (haddress : mappings address = none) {c : Addr → Int} {slot : Option Nat}
    (hc : Seeks (recordAddress (Memory.write allocmem ptr (some ⟨address, length⟩)))
      address.toNat c)
    (hsearched : Searched c ptr true tree slot tree')
    : ∃ id, slot = some id ∧ tree'.slot id = some ptr
      ∧ Ledger tree' (Memory.write allocmem ptr (some ⟨address, length⟩))
        (Memory.write mappings address (some length)) := by
  have hnotin : ptr ∉ tree.keys := by simp [h.allocated, hptr]
  have hrank : recordAddress (Memory.write allocmem ptr (some ⟨address, length⟩)) ptr
      = address.toNat := by simp [recordAddress]
  have hordered : tree.IsSearchTree
      (recordAddress (Memory.write allocmem ptr (some ⟨address, length⟩))) := by
    apply h.ordered.congr
    intro q hq
    have hne : q ≠ ptr := fun heq => hnotin (heq ▸ hq)
    simp [recordAddress, hne]
  cases hsearched with
  | found id _ hfind _ =>
    -- the mapping is new, so that no record carries its address
    exfalso
    obtain ⟨xs, k, ys, hnodes, hzero⟩ := tfind_spec hfind
    have hk : k ∈ tree.keys := by simp [keys_of_nodes_eq hnodes]
    have hne : k ≠ ptr := fun heq => hnotin (heq ▸ hk)
    obtain ⟨record, hrecord⟩ := Option.isSome_iff_exists.mp ((h.allocated k).mp hk)
    have heq := (hc.eq_zero k).mp hzero
    simp only [recordAddress, Memory.write_other _ _ hne, hrecord] at heq
    have hmapped := h.mapped k record hrecord
    rw [← BitVec.eq_of_toNat_eq heq, haddress] at hmapped
    simp at hmapped
  | failed _ hmemory => simp at hmemory
  | inserted _ hfind _ hnodes =>
    have hids := (Searched.inserted tree' hfind rfl hnodes).ids_nodup h.ids_nodup
    refine ⟨_, rfl, ?_, ?_⟩
    . obtain ⟨xs, ys, -, hins⟩ := insertNode_nodes _ _ hfind
      exact slot_of_nodes_eq hids (hnodes.trans hins)
    . apply h.insert hptr haddress _ _ hids
      . exact (hordered.insertNode (hrank.symm ▸ hc) hfind).of_nodes_eq hnodes
      . rw [keys, hnodes]
        exact insertNode_keys_perm _ _ hfind

theorem resize (h : Ledger tree allocmem mappings) (hptr : allocmem ptr = some record)
    : Ledger tree (Memory.write allocmem ptr (some ⟨record.address, length⟩))
      (Memory.write mappings record.address (some length)) where
  ordered := by
    apply h.ordered.congr
    intro q hq
    by_cases heq : q = ptr
    . simp [recordAddress, heq, hptr]
    . simp [recordAddress, heq]
  ids_nodup := h.ids_nodup
  allocated := by
    intro q
    rw [h.allocated]
    by_cases heq : q = ptr
    . simp [heq, hptr]
    . simp [heq]
  mapped := by
    intro q r hr
    by_cases hq : q = ptr
    . subst hq
      simp only [Memory.write_same, Option.some.injEq] at hr
      subst hr
      simp
    . rw [Memory.write_other _ _ hq] at hr
      rw [Memory.write_other _ _ (fun heq => hq (h.eq_of_address_eq hr hptr heq))]
      exact h.mapped q r hr
  recorded := by
    intro a len hlen
    by_cases ha : a = record.address
    . subst ha
      simp only [Memory.write_same, Option.some.injEq] at hlen
      subst hlen
      exact ⟨ptr, by simp⟩
    . rw [Memory.write_other _ _ ha] at hlen
      obtain ⟨q, hq⟩ := h.recorded a len hlen
      refine ⟨q, ?_⟩
      rw [Memory.write_other _ _ ?_]
      . exact hq
      . intro heq
        rw [heq, hptr] at hq
        exact ha (by rw [Option.some.inj hq])

theorem remove (h : Ledger tree allocmem mappings) (hptr : allocmem ptr = some record)
    (hordered : tree'.IsSearchTree (recordAddress allocmem))
    (hkeys : tree.keys.Perm (ptr :: tree'.keys)) (hids : tree'.ids.Nodup)
    : Ledger tree' (Memory.write allocmem ptr none)
      (Memory.write mappings record.address none) := by
  have hnodup : (ptr :: tree'.keys).Nodup := hkeys.nodup_iff.mp h.ordered.keys_nodup
  have hgone : ptr ∉ tree'.keys := (List.nodup_cons.mp hnodup).1
  have hother : ∀ q r, Memory.write allocmem ptr none q = some r →
      q ≠ ptr ∧ allocmem q = some r := by
    intro q r hr
    by_cases hq : q = ptr
    . simp [hq] at hr
    . exact ⟨hq, by rwa [Memory.write_other _ _ hq] at hr⟩
  constructor
  case ordered =>
    apply hordered.congr
    intro q hq
    have hne : q ≠ ptr := fun heq => hgone (heq ▸ hq)
    simp [recordAddress, hne]
  case ids_nodup => exact hids
  case allocated =>
    intro q
    by_cases hq : q = ptr
    . simp [hq, hgone]
    . have := hkeys.mem_iff (a := q)
      rw [List.mem_cons] at this
      simp only [hq, false_or] at this
      rw [Memory.write_other _ _ hq, ← this, h.allocated]
  case mapped =>
    intro q r hr
    obtain ⟨hq, hr⟩ := hother q r hr
    rw [Memory.write_other _ _ (fun heq => hq (h.eq_of_address_eq hr hptr heq))]
    exact h.mapped q r hr
  case recorded =>
    intro a len hlen
    by_cases ha : a = record.address
    . simp [ha] at hlen
    . rw [Memory.write_other _ _ ha] at hlen
      obtain ⟨q, hq⟩ := h.recorded a len hlen
      refine ⟨q, ?_⟩
      rw [Memory.write_other _ _ ?_]
      . exact hq
      . intro heq
        rw [heq, hptr] at hq
        exact ha (by rw [Option.some.inj hq])

end Ledger

/-! The error paths. -/

theorem sysconf_quiet (px : Posix σ) (name : Sysconf) (s : Dos σ)
    : s.Quiet (sysconf px name s).2 := by
  unfold sysconf
  split
  . exact .setOs s _
  . exact .setOs s _
  . exact (Dos.Quiet.setOs s _).trans (.setErrno _ _)

theorem freeParagraphs_quiet (px : Posix σ) (s : Dos σ)
    : Meets (fun r => s.Quiet r.state) (· = .unreachable) (freeParagraphs px s) := by
  unfold freeParagraphs
  have hpages := sysconf_quiet px .avphysPages s
  split
  next freePages t ht =>
  rw [ht] at hpages
  split
  . exact (failed_quiet t).imp fun r hr => hpages.trans hr
  . have hsize := sysconf_quiet px .pagesize t
    split
    next pageSize u hu =>
    rw [hu] at hsize
    split
    . exact (failed_quiet u).imp fun r hr => (hpages.trans hsize).trans hr
    . exact hpages.trans hsize

theorem allocmemError_quiet (px : Posix σ) (s : Dos σ)
    : Meets (fun r => s.Quiet r.state) (· = .unreachable) (allocmemError px s) := by
  unfold allocmemError
  have hfree := freeParagraphs_quiet px s
  split
  . next h => exact hfree.of_error h
  . next r h =>
    have hfree := hfree.of_ok h
    split
    . exact hfree
    . have hexterr := dosixDosexterr_quiet r.state
      split
      . next h => exact hexterr.of_error h
      . next h => exact hfree.trans (hexterr.of_ok h)

namespace Dos

inductive MemCall where
  | allocmem (size : Size)
  | setblock (size : Size) (seg : Addr)
  | freemem (seg : Addr)
  deriving Repr, DecidableEq

def memStep (px : Posix σ) (s : Dos σ) (call : MemCall) : Except Fault (Dos σ) :=
  match call with
  | .allocmem size => (dosixDosAllocmem px size s).map Result.state
  | .setblock size seg => (dosixDosSetblock px size seg s).map Result.state
  | .freemem seg => (dosixDosFreemem px seg s).map Result.state

/--
What the kernel and the C library promise: `malloc` returns no record that is in use, and `mmap` no
address of a mapping that is. Addresses are taken to be compared exactly.
-/
def KernelContract (px : Posix σ) (s : Dos σ) (call : MemCall) : Bool :=
  match call with
  | .allocmem size =>
    match px.malloc s.os with
    | (ptr, os) =>
      (s.allocmem ptr).isNone &&
        match px.mmap (size * 16) os with
        | (.ok address, _) => (s.mappings address).isNone && s.ComparesExactly px address
        | (.error _, _) => true
  | .setblock _ seg => s.ComparesExactly px seg
  | .freemem seg => s.ComparesExactly px seg

/--
An `allocmem` that gets its mapping also gets its tree node, and a `freemem` that removes a mapping
finds the record at a node with at most one child, whose slot still reads as it did.
-/
def Covered (px : Posix σ) (s : Dos σ) (call : MemCall) : Bool :=
  match call with
  | .allocmem size =>
    match px.malloc s.os with
    | (ptr, os) =>
      match px.mmap (size * 16) os with
      | (.ok _, os) => size = 0 || ptr = 0 || (px.tsearch os).1
      | (.error _, _) => true
  | .setblock .. => true
  | .freemem seg =>
    match s.allocmemTree.tfind (allocmemCmp px s seg) with
    | none => true
    | some slot =>
      match s.allocmemTree.slot slot with
      | none => true
      | some ptr =>
        match s.allocmem ptr with
        | none => true
        | some old =>
          match px.munmap seg old.length s.os with
          | (.ok _, os) =>
            !s.allocmemTree.innerAt (allocmemCmp px s seg) && px.stale os = some ptr
          | (.error _, _) => true

structure Corresponds (s : Dos σ) : Prop where
  allocated : ∀ ptr ∈ s.allocmemTree.keys, (s.allocmem ptr).isSome
  distinct : s.allocmemTree.keys.Pairwise fun p q =>
    (s.allocmem p).map AllocMem.address ≠ (s.allocmem q).map AllocMem.address
  mapped : ∀ ptr ∈ s.allocmemTree.keys, ∀ record, s.allocmem ptr = some record →
    s.mappings record.address = some record.length
  recorded : ∀ address length, s.mappings address = some length →
    ∃ ptr ∈ s.allocmemTree.keys, s.allocmem ptr = some ⟨address, length⟩

namespace Balanced

variable {px : Posix σ} {s : Dos σ} {size : Size} {seg : Addr}

theorem corresponds (hs : s.Balanced) : s.Corresponds where
  allocated := fun ptr hptr => (hs.allocated ptr).mp hptr
  distinct := by
    apply (isSearchTree_iff.mp hs.ordered).imp_of_mem
    intro p q hp hq hlt heq
    obtain ⟨r, hr⟩ := Option.isSome_iff_exists.mp ((hs.allocated p).mp hp)
    obtain ⟨r', hr'⟩ := Option.isSome_iff_exists.mp ((hs.allocated q).mp hq)
    rw [hr, hr', Option.map_some, Option.map_some, Option.some.injEq] at heq
    rw [Ledger.recordAddress_eq hr, Ledger.recordAddress_eq hr', heq] at hlt
    exact Nat.lt_irrefl _ hlt
  mapped := fun ptr _ => hs.mapped ptr
  recorded := by
    intro address length hlength
    obtain ⟨ptr, hptr⟩ := hs.recorded address length hlength
    exact ⟨ptr, (hs.allocated ptr).mpr (by simp [hptr]), hptr⟩

theorem readable (hs : s.Balanced) (px : Posix σ) (address : Addr)
    : readable px s address = true := by
  unfold Dosix.readable
  rw [List.all_eq_true]
  intro ptr hptr
  exact (hs.allocated ptr).mp (searchPath_subset_keys hptr)

theorem found (hs : s.Balanced) (hexact : s.ComparesExactly px seg) {slot : Nat}
    (hfind : s.allocmemTree.tfind (allocmemCmp px s seg) = some slot)
    : ∃ ptr record, s.allocmemTree.slot slot = some ptr ∧ s.allocmem ptr = some record
      ∧ record.address = seg := by
  -- what a search that ends at a node says about the record in its slot
  obtain ⟨xs, ptr, ys, hnodes, hzero⟩ := tfind_spec hfind
  have hmem : ptr ∈ s.allocmemTree.keys := by simp [keys_of_nodes_eq hnodes]
  obtain ⟨record, hrecord⟩ := Option.isSome_iff_exists.mp ((hs.allocated ptr).mp hmem)
  refine ⟨ptr, record, slot_of_nodes_eq hs.ids_nodup hnodes, hrecord, ?_⟩
  rw [allocmemCmp_of_comparesExactly hexact hmem] at hzero
  have := ((recordCmp_seeks s.allocmem seg).eq_zero ptr).mp hzero
  rw [Ledger.recordAddress_eq hrecord] at this
  exact (BitVec.eq_of_toNat_eq this).symm

theorem allocmemInsert {ptr address : Addr} {t : Dos σ} (hs : s.Balanced) (length : Size)
    (hptr : s.allocmem ptr = none) (haddress : s.mappings address = none)
    (htree : t.allocmemTree = s.allocmemTree)
    (hallocmem : t.allocmem = Memory.write s.allocmem ptr (some ⟨address, length⟩))
    (hmappings : t.mappings = Memory.write s.mappings address (some length))
    (htsearch : (px.tsearch t.os).1 = true) (hexact : s.ComparesExactly px address)
    : Meets (fun r => r.state.Balanced) (· ≠ .undefined) (allocmemInsert px ptr address t) := by
  -- the state after `mmap`: the new record is not in the tree yet
  have hother : ∀ k ∈ s.allocmemTree.keys, t.allocmem k = s.allocmem k := by
    intro k hk
    have hallocated := (hs.allocated k).mp hk
    have hne : k ≠ ptr := by
      rintro rfl
      simp [hptr] at hallocated
    rw [hallocmem, Memory.write_other _ _ hne]
  have hreadable : Dosix.readable px t address = true := by
    unfold Dosix.readable
    rw [List.all_eq_true, htree]
    intro k hk
    have hmem := searchPath_subset_keys hk
    rw [hother k hmem]
    exact (hs.allocated k).mp hmem
  have halike : Alike (allocmemCmp px t address) (recordCmp t.allocmem address) s.allocmemTree := by
    intro k hk
    have heq : allocmemCmp px t address k = recordCmp t.allocmem address k := by
      rw [allocmemCmp_congr px address (hother k hk), allocmemCmp_of_comparesExactly hexact hk]
      unfold recordCmp recordAddress
      rw [hother k hk]
    rw [heq]
    exact ⟨Iff.rfl, Iff.rfl⟩
  unfold Dosix.allocmemInsert
  rw [if_pos hreadable]
  split
  next memory os hmemory =>
  rw [hmemory] at htsearch
  dsimp only at htsearch
  subst htsearch
  have hseeks := recordCmp_seeks t.allocmem address
  rw [hallocmem] at hseeks
  have hsearched := tsearch_spec (px.bal os) (recordCmp t.allocmem address) ptr true s.allocmemTree
  rw [hallocmem] at hsearched
  obtain ⟨slot, hslot, hread, hledger⟩ := hs.tsearch hptr haddress hseeks hsearched
  rw [htree, halike.tsearch, hallocmem]
  split
  . next h =>
    rw [h] at hslot
    simp at hslot
  . next slot' tree h =>
    rw [h] at hslot hread hledger
    obtain rfl := Option.some.inj hslot
    rw [if_pos hread]
    change Ledger tree t.allocmem t.mappings
    rw [hallocmem, hmappings]
    exact hledger

theorem allocmem (hs : s.Balanced) (hcontract : KernelContract px s (.allocmem size))
    (hcovered : Covered px s (.allocmem size))
    : Meets (fun r => r.state.Balanced) (· ≠ .undefined) (dosixDosAllocmem px size s) := by
  unfold dosixDosAllocmem
  split
  . exact hs
  next hsize =>
  split
  next ptr os hmalloc =>
  simp only [KernelContract, Covered, hmalloc] at hcontract hcovered
  split
  . exact hs.of_meets_quiet ((Quiet.setOs s _).trans (.setErrno _ _)) (allocmemError_quiet px _)
  next hptr =>
  dsimp only
  split
  . next t ht =>
    have hquiet := Dos.call_quiet (s.setOs os) (px.mmap (size * 16))
    rw [ht] at hquiet
    exact hs.of_meets_quiet ((Quiet.setOs s os).trans hquiet) (allocmemError_quiet px t)
  . next address t ht =>
    obtain ⟨os', hmmap, rfl⟩ := Dos.call_some ht
    rw [Dos.setOs_os] at hmmap
    simp only [hmmap, Bool.and_eq_true, Option.isNone_iff_eq_none] at hcontract hcovered
    rw [Bool.or_eq_true, Bool.or_eq_true] at hcovered
    have htsearch : (px.tsearch os').1 = true := by
      simpa only [decide_eq_true_eq, hsize, hptr, false_or] using hcovered
    exact hs.allocmemInsert (size * 16) hcontract.1 hcontract.2.1 rfl rfl rfl htsearch hcontract.2.2

theorem setblock (hs : s.Balanced) (size : Size) (hcontract : KernelContract px s (.setblock size seg))
    : Meets (fun r => r.state.Balanced) (· ≠ .undefined) (dosixDosSetblock px size seg s) := by
  unfold dosixDosSetblock
  split
  . exact hs
  rw [if_pos (hs.readable px seg)]
  split
  . exact hs.of_meets_quiet (Quiet.setErrno s _) (failed_quiet _)
  next slot hfind =>
  obtain ⟨ptr, record, hslot, hrecord, haddress⟩ := hs.found hcontract hfind
  simp only [hslot, hrecord, haddress, ↓reduceIte]
  split
  . next t ht =>
    have hquiet := Dos.call_quiet s (px.mremap seg record.length (16 * size))
    rw [ht] at hquiet
    exact hs.of_meets_quiet hquiet (allocmemError_quiet px t)
  . next address t ht =>
    obtain ⟨os, -, rfl⟩ := Dos.call_some ht
    split
    . next heq =>
      subst heq
      exact haddress ▸ hs.resize hrecord
    . simp

theorem freememDelete {slot : Nat} {ptr : Addr} {record : AllocMem} {t : Dos σ} (hs : s.Balanced)
    (hfind : s.allocmemTree.tfind (allocmemCmp px s record.address) = some slot)
    (hslot : s.allocmemTree.slot slot = some ptr) (hrecord : s.allocmem ptr = some record)
    (htree : t.allocmemTree = s.allocmemTree) (hallocmem : t.allocmem = s.allocmem)
    (hmappings : t.mappings = Memory.write s.mappings record.address none)
    (hinner : s.allocmemTree.innerAt (allocmemCmp px s record.address) = false)
    (hstale : px.stale t.os = some ptr)
    : Meets (fun r => r.state.Balanced) (· ≠ .undefined)
      (freememDelete px record.address slot t) := by
  -- the state after `munmap`: the record is still in the tree
  have hcmp : allocmemCmp px t record.address = allocmemCmp px s record.address := by
    funext p
    exact allocmemCmp_congr px record.address (congrFun hallocmem p)
  unfold Dosix.freememDelete
  rw [hcmp, htree]
  split
  . simp
  next freed tree hdelete =>
  obtain ⟨id, hid, hdeleted⟩ := tdelete_spec hdelete
  obtain rfl : slot = id := Option.some.inj (hfind.symm.trans hid)
  have hids := (hdeleted.ids_nodup hs.ids_nodup).2
  have hordered := hdeleted.isSearchTree hs.ordered
  cases hdeleted with
  | inner _ _ _ _ hinner' => simp [hinner] at hinner'
  | outer xs ys k _ hzero hbefore hafter hfreed =>
    obtain rfl : k = ptr :=
      Option.some.inj ((slot_of_nodes_eq hs.ids_nodup hbefore).symm.trans hslot)
    rw [if_pos hfreed, hstale]
    simp only [freeAllocmem, Dos.setAllocmemTree_allocmem, hallocmem, hrecord]
    have hkeys : s.allocmemTree.keys.Perm (k :: tree.keys) := by
      simp [keys, hbefore, hafter]
    change Ledger tree (Memory.write t.allocmem k none) t.mappings
    rw [hallocmem, hmappings]
    exact hs.remove hrecord hordered hkeys hids

theorem freemem (hs : s.Balanced) (hcontract : KernelContract px s (.freemem seg))
    (hcovered : Covered px s (.freemem seg))
    : Meets (fun r => r.state.Balanced) (· ≠ .undefined) (dosixDosFreemem px seg s) := by
  unfold dosixDosFreemem
  split
  . simp
  rw [if_pos (hs.readable px seg)]
  split
  . exact hs.of_meets_quiet (Quiet.setErrno s _) (failed_quiet _)
  next slot hfind =>
  obtain ⟨ptr, record, hslot, hrecord, rfl⟩ := hs.found hcontract hfind
  simp only [Covered, hfind, hslot, hrecord] at hcovered
  simp only [hslot, hrecord, ↓reduceIte]
  split
  . next t ht =>
    have hquiet := Dos.call_quiet s (px.munmap record.address record.length)
    rw [ht] at hquiet
    exact hs.of_quiet (hquiet.trans (exterrSet_quiet _ _ _))
  . next t ht =>
    obtain ⟨os, hmunmap, rfl⟩ := Dos.call_some ht
    simp only [hmunmap, Bool.and_eq_true, Bool.not_eq_true', decide_eq_true_eq] at hcovered
    exact hs.freememDelete hfind hslot hrecord rfl rfl rfl hcovered.1 hcovered.2

theorem memStep (hs : s.Balanced) {call : MemCall} (hcontract : KernelContract px s call)
    (hcovered : Covered px s call)
    : Meets Balanced (· ≠ .undefined) (memStep px s call) := by
  cases call with
  | allocmem size =>
    have := hs.allocmem hcontract hcovered
    unfold Dos.memStep
    dsimp only
    cases h : dosixDosAllocmem px size s with
    | ok r => exact this.of_ok h
    | error f => exact this.of_error h
  | setblock size seg =>
    have := hs.setblock size hcontract
    unfold Dos.memStep
    dsimp only
    cases h : dosixDosSetblock px size seg s with
    | ok r => exact this.of_ok h
    | error f => exact this.of_error h
  | freemem seg =>
    have := hs.freemem hcontract hcovered
    unfold Dos.memStep
    dsimp only
    cases h : dosixDosFreemem px seg s with
    | ok r => exact this.of_ok h
    | error f => exact this.of_error h

end Balanced
structure NoBlocks (s : Dos σ) : Prop where
  allocmemTree : s.allocmemTree = .leaf
  allocmem : ∀ ptr, s.allocmem ptr = none
  mappings : ∀ address, s.mappings address = none

theorem NoBlocks.balanced {s : Dos σ} (hs : s.NoBlocks) : s.Balanced where
  ordered := by simp [hs.allocmemTree, IsSearchTree]
  ids_nodup := by simp [hs.allocmemTree]
  allocated := by simp [hs.allocmemTree, hs.allocmem]
  mapped := by simp [hs.allocmem]
  recorded := by simp [hs.mappings]

/--
The law over whole runs: records and mappings correspond, and a run that stops does not stop because
of a record that is used or freed after it has been freed.
-/
theorem corresponds_of_covered {px : Posix σ} {s : Dos σ} {calls : List MemCall}
    (hinit : s.NoBlocks)
    (hcalls : Always (memStep px) (fun s call => KernelContract px s call ∧ Covered px s call)
      s calls)
    : Meets Corresponds (· ≠ .undefined) (run (memStep px) s calls) := by
  have hrun : Meets Balanced (· ≠ .undefined) (run (memStep px) s calls) := by
    apply run_meets _ hinit.balanced hcalls
    intro s call hs ⟨hcontract, hcovered⟩
    exact hs.memStep hcontract hcovered
  exact hrun.imp fun s hs => hs.corresponds

def scriptedKernel (stale : Option Addr) : Posix (List Addr) where
  __ := (default : Posix (List Addr))
  malloc := fun os => (os.headD 0, os)
  mmap := fun _ os =>
    match os with
    | [] => (.error .ENOMEM, [])
    | address :: os => (.ok address, os)
  tsearch := fun os => (true, os)
  munmap := fun _ _ os => (.ok (), os)
  stale := fun _ => stale

/--
The kernel resizes blocks where they are, and does not release any.
-/
def refusingKernel : Posix (List Addr) where
  __ := scriptedKernel none
  mremap := fun address _ _ os => (.ok address, os)
  munmap := fun _ _ os => (.error .EINVAL, os)

def twoBlocks : List MemCall :=
  [.allocmem 1, .allocmem 2, .setblock 3 0x2000, .freemem 0x3000, .freemem 0x1000]

theorem corresponds_of_covered_twoBlocks
    : Meets Corresponds (· ≠ .undefined)
        (run (memStep refusingKernel) { os := [0x2000, 0x3000] } twoBlocks) :=
  corresponds_of_covered ⟨rfl, fun _ => rfl, fun _ => rfl⟩ (by decide +kernel)

def threeBlocks : List MemCall :=
  [.allocmem 1, .allocmem 1, .allocmem 1, .freemem 0x2000]

theorem not_corresponds_threeBlocks
    : Always (memStep (scriptedKernel none)) (fun s call => KernelContract (scriptedKernel none) s call)
        { os := [0x2000, 0x1000, 0x3000] } threeBlocks
      ∧ ∃ s, run (memStep (scriptedKernel none)) { os := [0x2000, 0x1000, 0x3000] } threeBlocks = .ok s
        ∧ 0x3000 ∈ s.allocmemTree.keys ∧ s.allocmem 0x3000 = none ∧ ¬ Corresponds s := by
  -- the record of the block at `0x3000` is freed with the block at `0x2000`
  refine ⟨by decide +kernel, ?_⟩
  obtain ⟨s, hrun, hfreed⟩ := exists_of_any
    (r := run (memStep (scriptedKernel none)) { os := [0x2000, 0x1000, 0x3000] } threeBlocks)
    (q := fun s => 0x3000 ∈ s.allocmemTree.keys ∧ s.allocmem 0x3000 = none) (by decide +kernel)
  obtain ⟨hmem, hnone⟩ := of_decide_eq_true hfreed
  refine ⟨s, hrun, hmem, hnone, ?_⟩
  intro h
  have := h.allocated 0x3000 hmem
  rw [hnone] at this
  simp at this

end Dos
end Dosix
