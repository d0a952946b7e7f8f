import Dosix.Malloc.Lemmas.Registry

/-!
This module contains what the heap check examines. It takes the variable that points to the tree for
the root of the tree, and so gets no further than the first block.
-/

namespace Dosix
namespace Malloc

open SearchTree Transition

/-! What is asked of the check. -/

def checkStatus (probe : Addr → McheckStatus) (t : SearchTree Addr) : Int :=
  match t.preorder.find? fun a => probe a ≠ .ok with
  | none => HEAPOK
  | some a => heapStatusOf (probe a)

/--
The check has returned the status of the first block in preorder that fails, if there is one, and it
has probed registered blocks only and none twice.
-/
def Examines (probe : Addr → McheckStatus) (t : SearchTree Addr)
    (r : Except Fault (Int × Check)) : Prop :=
  ∃ status c, r = .ok (status, c) ∧ (∀ a ∈ c.probes, a ∈ t.keys) ∧ c.probes.Nodup
    ∧ status = checkStatus probe t

/--
The memory holds the tree: `heap_tree` points to its root, and a node starts with its key. No other
pointer to a block is found behind the variable.
-/
structure Image.Shows (image : Image) (t : SearchTree Addr) : Prop where
  null : image.load 0 = none
  empty : t = .leaf → image.heapTree = 0
  root : ∀ l id k r, t = .node l id k r → image.load image.heapTree = some k
  apart : ∀ l r, image.links = some (l, r) → ∀ w ∈ l.keys ++ r.keys, ∀ a,
    image.load w = some a → a ∉ t.keys

/--
The first block decides: it fails, or there is nothing behind the variable and no block fails.
-/
def RootDecides (image : Image) (probe : Addr → McheckStatus) (t : SearchTree Addr) : Prop :=
  match t with
  | .leaf => False
  | .node _ _ k _ =>
    image.links ≠ none
      ∧ (probe k ≠ .ok ∨ image.links = some (.leaf, .leaf) ∧ ∀ a ∈ t.keys, probe a = .ok)

theorem heapStatusOf_eq_ok_iff {status : McheckStatus}
    : heapStatusOf status = HEAPOK ↔ status = .ok := by
  cases status
  all_goals decide

theorem checkStatus_eq_ok_iff (probe : Addr → McheckStatus) (t : SearchTree Addr)
    : checkStatus probe t = HEAPOK ↔ ∀ a ∈ t.keys, probe a = .ok := by
  have hmem : ∀ a, a ∈ t.keys ↔ a ∈ t.preorder := fun a => t.preorder_perm.mem_iff.symm
  simp only [hmem]
  unfold checkStatus
  split
  . next hfind =>
    rw [List.find?_eq_none] at hfind
    exact iff_of_true rfl fun a ha => by simpa using hfind a ha
  . next a hfind =>
    have hfails := List.find?_some hfind
    have ha := List.mem_of_find?_eq_some hfind
    rw [heapStatusOf_eq_ok_iff]
    refine iff_of_false (by simpa using hfails) ?_
    intro hok
    simp [hok a ha] at hfails

/-! The registered blocks. -/

theorem survives_keys_ne_zero : Survives fun t => ∀ a ∈ t.keys, a ≠ 0 where
  searched := by
    intro t t' a memory slot ht ha hsearched b hb
    cases hsearched with
    | found id _ hfind hnodes =>
      rw [keys, hnodes] at hb
      exact ht b hb
    | inserted _ hfind hmemory hnodes =>
      rw [keys, hnodes] at hb
      obtain rfl | hb := List.mem_cons.mp ((insertNode_keys_perm _ _ hfind).mem_iff.mp hb)
      . exact ha
      . exact ht b hb
    | failed hfind hmemory => exact ht b hb
  deleted := by
    intro t t' a id freed ht hdeleted b hb
    obtain ⟨xs, k, ys, hkeys, -, hkeys'⟩ := hdeleted.keys
    apply ht b
    rw [hkeys' , List.mem_append] at hb
    rw [hkeys, List.mem_append, List.mem_cons]
    tauto
  setSlot := by
    intro t a id ht ha b hb
    unfold keys at hb
    rw [setSlot_nodes, List.map_map, List.mem_map] at hb
    obtain ⟨⟨i, k⟩, hmem, rfl⟩ := hb
    dsimp only [Function.comp_apply]
    split
    . exact ha
    . exact ht k (List.mem_map.mpr ⟨_, hmem, rfl⟩)

/-! The walk. -/

variable {image : Image} {probe : Addr → McheckStatus} {c c' : Check} {w a : Addr}

def examine (image : Image) (probe : Addr → McheckStatus) (c : Check) (entryinfo : Addr)
    : Except Fault Check :=
  bheapchk image probe entryinfo .leaf c

theorem run_bheapchk (image : Image) (probe : Addr → McheckStatus) (t : SearchTree Addr) (c : Check)
    : run (fun c v => bheapchk image probe v.2 v.1 c) c t.twalk
        = run (examine image probe) c t.preorder := by
  apply run_twalk
  . intro c v a hv
    cases v with
    | preorder => simp [examine, bheapchk]
    | leaf => rfl
    | postorder | endorder => simp [Visit.first] at hv
  . intro c v a hv
    cases v with
    | preorder | leaf => simp [Visit.first] at hv
    | postorder | endorder => simp [bheapchk]

theorem run_examine_failed (h : c.heapstatus ≠ HEAPOK) (ws : List Addr)
    : run (examine image probe) c ws = .ok c := by
  induction ws with
  | nil => rfl
  | cons w ws ih =>
    have hskip : examine image probe c w = .ok c := by
      unfold examine bheapchk
      rw [if_pos (.inr h)]
    rw [run, hskip]
    exact ih

theorem examine_unreadable (hc : c.heapstatus = HEAPOK) (h : image.load w = none)
    : examine image probe c w = .error .undefined := by
  unfold examine bheapchk
  rw [if_neg (by simp [hc]), h]

theorem examine_readable (hc : c.heapstatus = HEAPOK) (h : image.load w = some a) (ha : a ≠ 0)
    : examine image probe c w = .ok ⟨heapStatusOf (probe a), c.probes ++ [a]⟩ := by
  unfold examine bheapchk
  rw [if_neg (by simp [hc]), h]
  dsimp only
  rw [if_neg ha]
  unfold bheapchkBlock
  dsimp only
  split
  . rfl
  . next hok => rw [hc, not_not.mp hok]

theorem examine_probes (h : examine image probe c w = .ok c') : c.probes <+: c'.probes := by
  by_cases hc : c.heapstatus = HEAPOK
  . cases hload : image.load w with
    | none => simp [examine_unreadable hc hload] at h
    | some a =>
      by_cases ha : a = 0
      . unfold examine bheapchk at h
        rw [if_neg (by simp [hc]), hload] at h
        simp [ha] at h
      . rw [examine_readable hc hload ha] at h
        obtain rfl := Except.ok.inj h
        exact List.prefix_append _ _
  . unfold examine bheapchk at h
    rw [if_pos (.inr hc)] at h
    obtain rfl := Except.ok.inj h
    exact List.prefix_rfl

theorem run_examine_probes {ws : List Addr} (h : run (examine image probe) c ws = .ok c')
    : c.probes <+: c'.probes := by
  have hstep : ∀ s w s', c.probes <+: s.probes → True → examine image probe s w = .ok s' →
      c.probes <+: s'.probes :=
    fun _ _ _ hs _ hstep => hs.trans (examine_probes hstep)
  exact run_invariant hstep List.prefix_rfl (.of_forall (fun _ _ => trivial) _ _) h

/--
What is found behind the variable is never a registered block.
-/
theorem not_run_examine_apart {ws : List Addr} {s : List Addr} (hc : c.heapstatus = HEAPOK)
    (hapart : ∀ a, image.load w = some a → a ∉ s)
    (h : run (examine image probe) c (w :: ws) = .ok c')
    : ∃ a ∈ c'.probes, a ∉ s := by
  cases hload : image.load w with
  | none =>
    rw [run, examine_unreadable hc hload] at h
    simp at h
  | some a =>
    by_cases ha : a = 0
    . rw [run, examine, bheapchk, if_neg (by simp [hc]), hload] at h
      simp [ha] at h
    . rw [run, examine_readable hc hload ha] at h
      refine ⟨a, (run_examine_probes h).subset ?_, hapart a hload⟩
      simp

theorem dosixBheapchk_eq {links : SearchTree Addr × SearchTree Addr}
    (hlinks : image.links = some links) (c : Check)
    : dosixBheapchk image probe 0 c
        = (run (examine image probe) { c with heapstatus := HEAPOK }
          (image.heapTree :: (links.1.preorder ++ links.2.preorder))).map
            fun c => (c.heapstatus, c) := by
  unfold dosixBheapchk
  rw [if_pos rfl, hlinks]
  dsimp only
  rw [run_bheapchk, preorder_misrooted]
  cases run (examine image probe) { c with heapstatus := HEAPOK }
    (image.heapTree :: (links.1.preorder ++ links.2.preorder)) with
  | error e => rfl
  | ok c => rfl

/-! The check. -/

theorem examines_leaf (himage : image.Shows .leaf) (c : Check)
    : ¬ Examines probe .leaf (dosixBheapchk image probe 0 c) := by
  rintro ⟨status, c', hcall, -⟩
  cases hlinks : image.links with
  | none => simp [dosixBheapchk, hlinks] at hcall
  | some links =>
    have hload : image.load image.heapTree = none := by rw [himage.empty rfl, himage.null]
    rw [dosixBheapchk_eq hlinks, run, examine_unreadable rfl hload] at hcall
    simp [Except.map] at hcall

/--
The root is the first block in the order of the walk, and the rest of the walk does nothing.
-/
theorem examines_of_root_fails {l r : SearchTree Addr} {id : Nat} {k : Addr}
    {links : SearchTree Addr × SearchTree Addr} (hload : image.load image.heapTree = some k)
    (hne : k ≠ 0) (hlinks : image.links = some links) (hfails : probe k ≠ .ok) (c : Check)
    (hprobes : c.probes = [])
    : Examines probe (.node l id k r) (dosixBheapchk image probe 0 c) := by
  have hstatus : heapStatusOf (probe k) ≠ HEAPOK :=
    fun h => hfails (heapStatusOf_eq_ok_iff.mp h)
  rw [dosixBheapchk_eq hlinks, run, examine_readable rfl hload hne]
  dsimp only
  rw [run_examine_failed hstatus, hprobes]
  refine ⟨_, _, rfl, by simp, by simp, ?_⟩
  simp [checkStatus, preorder, hfails]

/--
The walk ends at the root, which is in order.
-/
theorem examines_root_only_iff {l r : SearchTree Addr} {id : Nat} {k : Addr}
    (hload : image.load image.heapTree = some k) (hne : k ≠ 0)
    (hlinks : image.links = some (.leaf, .leaf)) (hok : probe k = .ok) (c : Check)
    (hprobes : c.probes = [])
    : Examines probe (.node l id k r) (dosixBheapchk image probe 0 c)
        ↔ checkStatus probe (.node l id k r) = HEAPOK := by
  rw [dosixBheapchk_eq hlinks, run, examine_readable rfl hload hne, heapStatusOf_eq_ok_iff.mpr hok,
    hprobes]
  dsimp only [preorder, List.append_nil, run, Except.map]
  constructor
  . rintro ⟨status, c', hcall, -, -, hstatus⟩
    obtain ⟨rfl, -⟩ := Prod.mk.inj (Except.ok.inj hcall)
    exact hstatus.symm
  . intro hstatus
    exact ⟨_, _, rfl, by simp, by simp, hstatus.symm⟩

/--
The walk goes on to something that is no block.
-/
theorem not_examines_apart {l r l' r' : SearchTree Addr} {id : Nat} {k : Addr}
    (himage : image.Shows (.node l id k r)) (hne : k ≠ 0) (hlinks : image.links = some (l', r'))
    (hsome : l'.preorder ++ r'.preorder ≠ []) (hok : probe k = .ok) (c : Check)
    : ¬ Examines probe (.node l id k r) (dosixBheapchk image probe 0 c) := by
  rw [dosixBheapchk_eq hlinks, run, examine_readable rfl (himage.root l id k r rfl) hne]
  dsimp only
  obtain ⟨w, ws, hws⟩ := List.exists_cons_of_ne_nil hsome
  have hw : w ∈ l'.keys ++ r'.keys := by
    have hmem : w ∈ l'.preorder ++ r'.preorder := by simp [hws]
    rw [List.mem_append] at hmem ⊢
    exact hmem.imp l'.preorder_perm.mem_iff.mp r'.preorder_perm.mem_iff.mp
  rw [hws]
  rintro ⟨status, c', hcall, hprobes, -⟩
  cases hrun : run (examine image probe) ⟨heapStatusOf (probe k), c.probes ++ [k]⟩ (w :: ws) with
  | error e =>
    rw [hrun] at hcall
    simp [Except.map] at hcall
  | ok c'' =>
    rw [hrun] at hcall
    obtain ⟨-, rfl⟩ := Prod.mk.inj (Except.ok.inj hcall)
    obtain ⟨a, ha, hnot⟩ := not_run_examine_apart (heapStatusOf_eq_ok_iff.mpr hok)
      (himage.apart l' r' hlinks w hw) hrun
    exact hnot (hprobes a ha)

theorem examines_node_iff {l r : SearchTree Addr} {id : Nat} {k : Addr}
    (himage : image.Shows (.node l id k r)) (hne : k ≠ 0) (heapstatus : Int)
    : Examines probe (.node l id k r) (dosixBheapchk image probe 0 { heapstatus := heapstatus })
        ↔ RootDecides image probe (.node l id k r) := by
  have hload := himage.root l id k r rfl
  unfold RootDecides
  cases hlinks : image.links with
  | none =>
    refine iff_of_false ?_ fun h => h.1 rfl
    rintro ⟨status, c', hcall, -⟩
    simp [dosixBheapchk, hlinks] at hcall
  | some links =>
    by_cases hok : probe k = .ok
    . by_cases hnone : links.1.preorder ++ links.2.preorder = []
      . obtain ⟨hl, hr⟩ := List.append_eq_nil_iff.mp hnone
        have hleaves : links = (.leaf, .leaf) :=
          Prod.ext (preorder_eq_nil_iff.mp hl) (preorder_eq_nil_iff.mp hr)
        subst hleaves
        rw [examines_root_only_iff hload hne hlinks hok _ rfl, ← checkStatus_eq_ok_iff]
        simp [hok]
      . refine iff_of_false (not_examines_apart himage hne hlinks hnone hok _) ?_
        rintro ⟨-, hfails | ⟨hleaves, -⟩⟩
        . exact hfails hok
        . obtain rfl := Option.some.inj hleaves
          exact hnone rfl
    . exact iff_of_true (examines_of_root_fails hload hne hlinks hok _ rfl) ⟨by simp, .inl hok⟩

/--
When the check examines every block: it never does in an empty heap, and in any other one it gets no
further than the first block.
-/
theorem heapchk_examines_iff {calls : List Call} {s : Session}
    (hrun : Transition.run Session.step {} calls = .ok s) {image : Image}
    (himage : image.Shows s.heap.heapTree) (probe : Addr → McheckStatus) (heapstatus : Int)
    : ∀ chk ∈ [dosixBheapchk image probe 0, dosixHeapchk image probe, dosixFheapchk image probe,
        dosixNheapchk image probe],
        Examines probe s.heap.heapTree (chk { heapstatus := heapstatus })
          ↔ RootDecides image probe s.heap.heapTree := by
  have hiff : Examines probe s.heap.heapTree (dosixBheapchk image probe 0 { heapstatus := heapstatus })
      ↔ RootDecides image probe s.heap.heapTree := by
    have hne := survives_keys_ne_zero.run (by simp) hrun
    cases htree : s.heap.heapTree with
    | leaf =>
      rw [htree] at himage
      exact iff_of_false (examines_leaf himage _) id
    | node l id k r =>
      rw [htree] at himage hne
      exact examines_node_iff himage (hne k (by simp)) heapstatus
  intro chk hchk
  simp only [List.mem_cons, List.not_mem_nil, or_false] at hchk
  rcases hchk with rfl | rfl | rfl | rfl
  all_goals exact hiff

def twoBlocks : List Call :=
  [⟨.malloc 8, { block := 0x1000 }⟩, ⟨.malloc 8, { block := 0x2000 }⟩]

/--
The node of the first block is at `0x5000`.
-/
def twoNodes : Image where
  heapTree := 0x5000
  links := some (.leaf, .leaf)
  load := fun a => if a = 0x5000 then some 0x1000 else none

theorem twoNodes_shows {t : SearchTree Addr} {r : SearchTree Addr} (h : t = .node .leaf 0 0x1000 r)
    : twoNodes.Shows t where
  null := by decide
  empty := by simp [h]
  root := by
    rintro l id k r' heq
    rw [h] at heq
    injection heq with _ _ hk
    subst hk
    decide
  apart := by
    intro l r hlinks w hw
    obtain ⟨rfl, rfl⟩ := Prod.mk.inj (Option.some.inj hlinks)
    simp at hw

def twoBlocksEnd : Session :=
  (run Session.step {} twoBlocks).toOption.getD {}

theorem run_twoBlocks : run Session.step {} twoBlocks = .ok twoBlocksEnd := by
  rfl

/--
The first of two blocks fails.
-/
theorem heapchk_examines_iff_first
    : Examines (fun a => if a = 0x1000 then .head else .ok) twoBlocksEnd.heap.heapTree
        (dosixHeapchk twoNodes (fun a => if a = 0x1000 then .head else .ok) {}) := by
  have himage : twoNodes.Shows twoBlocksEnd.heap.heapTree := twoNodes_shows rfl
  apply (heapchk_examines_iff run_twoBlocks himage _ HEAPOK _ (by simp)).mpr
  exact ⟨by decide, .inl (by decide)⟩

/--
The second of two blocks fails, and the check says that the heap is in order. In an empty heap it
follows `NULL`.
-/
theorem not_heapchk_examines_second
    : twoNodes.Shows twoBlocksEnd.heap.heapTree
      ∧ twoBlocksEnd.heap.heapTree.preorder = [0x1000, 0x2000]
      ∧ dosixHeapchk twoNodes (fun a => if a = 0x2000 then .tail else .ok) {}
        = .ok (HEAPOK, ⟨HEAPOK, [0x1000]⟩)
      ∧ ¬ Examines (fun a => if a = 0x2000 then .tail else .ok) twoBlocksEnd.heap.heapTree
        (dosixHeapchk twoNodes (fun a => if a = 0x2000 then .tail else .ok) {})
      ∧ ¬ Examines (fun _ => .ok) .leaf
        (dosixHeapchk ⟨0, some (.leaf, .leaf), fun _ => none⟩ (fun _ => .ok) {}) := by
  have hcheck : dosixHeapchk twoNodes (fun a => if a = 0x2000 then .tail else .ok) {}
      = .ok (HEAPOK, ⟨HEAPOK, [0x1000]⟩) := by
    decide
  refine ⟨twoNodes_shows rfl, by decide, hcheck, ?_, ?_⟩
  . rintro ⟨status, c, hcall, -, -, hstatus⟩
    rw [hcheck] at hcall
    obtain ⟨rfl, -⟩ := Prod.mk.inj (Except.ok.inj hcall)
    exact absurd hstatus (by decide)
  . rintro ⟨status, c, hcall, -⟩
    exact absurd hcall (by simp [dosixHeapchk, dosixBheapchk, misrooted, twalk, run, bheapchk])

end Malloc
end Dosix
