import Dosix.SearchTree.Basic
import Mathlib.Data.List.Nodup
import Mathlib.Data.List.Perm.Basic
import Mathlib.Order.Basic

/-!
This module contains the theory of `SearchTree`. Each operation is described by what it does to the
sequence `nodes`; what that means for the order of the keys follows from there.
-/

namespace SearchTree

variable {α ι : Type}

@[simp]
theorem nodes_leaf : (leaf : SearchTree α).nodes = [] := rfl

@[simp]
theorem nodes_node (l r : SearchTree α) (id : Nat) (k : α)
    : (node l id k r).nodes = l.nodes ++ (id, k) :: r.nodes := rfl

@[simp]
theorem keys_leaf : (leaf : SearchTree α).keys = [] := rfl

@[simp]
theorem keys_node (l r : SearchTree α) (id : Nat) (k : α)
    : (node l id k r).keys = l.keys ++ k :: r.keys := by
  simp [keys]

@[simp]
theorem ids_leaf : (leaf : SearchTree α).ids = [] := rfl

@[simp]
theorem ids_node (l r : SearchTree α) (id : Nat) (k : α)
    : (node l id k r).ids = l.ids ++ id :: r.ids := by
  simp [ids]

theorem keys_of_nodes_eq {t : SearchTree α} {xs ys : List (Nat × α)} {id : Nat} {k : α}
    (h : t.nodes = xs ++ (id, k) :: ys)
    : t.keys = xs.map Prod.snd ++ k :: ys.map Prod.snd := by
  simp [keys, h]

theorem ids_of_nodes_eq {t : SearchTree α} {xs ys : List (Nat × α)} {id : Nat} {k : α}
    (h : t.nodes = xs ++ (id, k) :: ys)
    : t.ids = xs.map Prod.fst ++ id :: ys.map Prod.fst := by
  simp [ids, h]

/-! Key slots. -/

theorem slot_of_nodes_eq {t : SearchTree α} {xs ys : List (Nat × α)} {id : Nat} {k : α}
    (hnodup : t.ids.Nodup) (h : t.nodes = xs ++ (id, k) :: ys)
    : t.slot id = some k := by
  have hnot : id ∉ xs.map Prod.fst := by
    rw [ids_of_nodes_eq h] at hnodup
    rw [List.nodup_append] at hnodup
    intro hmem
    exact hnodup.2.2 id hmem id (by simp) rfl
  unfold slot
  rw [h, List.lookup_append, List.lookup_eq_none_iff.mpr]
  . simp
  . intro p hp
    simp only [bne_iff_ne, ne_eq]
    intro heq
    exact hnot (List.mem_map.mpr ⟨p, hp, heq.symm⟩)

theorem slot_eq_none {t : SearchTree α} {id : Nat} (h : id ∉ t.ids) : t.slot id = none := by
  unfold slot
  rw [List.lookup_eq_none_iff]
  intro p hp
  simp only [bne_iff_ne, ne_eq]
  intro heq
  exact h (List.mem_map.mpr ⟨p, hp, heq.symm⟩)

theorem mem_keys_of_slot {t : SearchTree α} {id : Nat} {k : α} (h : t.slot id = some k)
    : k ∈ t.keys := by
  unfold slot at h
  obtain ⟨xs, ys, hnodes, -⟩ := List.lookup_eq_some_iff.mp h
  rw [keys_of_nodes_eq hnodes]
  simp

theorem setSlot_nodes (t : SearchTree α) (id : Nat) (k : α)
    : (t.setSlot id k).nodes = t.nodes.map fun n => (n.1, if n.1 = id then k else n.2) := by
  induction t with
  | leaf => rfl
  | node l i x r lih rih => simp [setSlot, lih, rih]

@[simp]
theorem setSlot_ids (t : SearchTree α) (id : Nat) (k : α) : (t.setSlot id k).ids = t.ids := by
  simp [ids, setSlot_nodes, Function.comp_def]

theorem setSlot_nodes_of_nodes_eq {t : SearchTree α} {xs ys : List (Nat × α)} {id : Nat} {x : α}
    (k : α) (hnodup : t.ids.Nodup) (h : t.nodes = xs ++ (id, x) :: ys)
    : (t.setSlot id k).nodes = xs ++ (id, k) :: ys := by
  rw [ids_of_nodes_eq h] at hnodup
  have hother : ∀ zs : List (Nat × α), id ∉ zs.map Prod.fst →
      zs.map (fun n => (n.1, if n.1 = id then k else n.2)) = zs := by
    intro zs hzs
    rw [List.map_congr_left (g := fun n => n)]
    . simp
    . intro n hn
      have : n.1 ≠ id := fun heq => hzs (List.mem_map.mpr ⟨n, hn, heq⟩)
      simp [this]
  rw [List.nodup_append] at hnodup
  rw [setSlot_nodes, h]
  simp only [List.map_append, List.map_cons, ↓reduceIte]
  rw [hother xs, hother ys]
  . exact (List.nodup_cons.mp hnodup.2.1).1
  . intro hmem
    exact hnodup.2.2 id hmem id (by simp) rfl

/-! Searching. -/

/--
A search that ends at a node has read the key of this node.
-/
theorem tfind_on_path {c : α → Int} {t : SearchTree α} {id : Nat} (h : t.tfind c = some id)
    : ∃ xs k ys, t.nodes = xs ++ (id, k) :: ys ∧ c k = 0 ∧ k ∈ t.searchPath c := by
  induction t with
  | leaf => simp [tfind] at h
  | node l i x r lih rih =>
    unfold tfind at h
    unfold searchPath
    split at h
    . next hzero =>
      injection h with h
      exact ⟨l.nodes, x, r.nodes, by simp [h], hzero, by simp [hzero]⟩
    . next hzero =>
      rw [if_neg hzero]
      split at h
      . next hneg =>
        obtain ⟨xs, k, ys, hnodes, hk, hpath⟩ := lih h
        rw [if_pos hneg]
        exact ⟨xs, k, ys ++ (i, x) :: r.nodes, by simp [hnodes], hk, List.mem_cons_of_mem x hpath⟩
      . next hneg =>
        obtain ⟨xs, k, ys, hnodes, hk, hpath⟩ := rih h
        rw [if_neg hneg]
        exact ⟨l.nodes ++ (i, x) :: xs, k, ys, by simp [hnodes], hk, List.mem_cons_of_mem x hpath⟩

theorem tfind_spec {c : α → Int} {t : SearchTree α} {id : Nat} (h : t.tfind c = some id)
    : ∃ xs k ys, t.nodes = xs ++ (id, k) :: ys ∧ c k = 0 := by
  obtain ⟨xs, k, ys, hnodes, hk, -⟩ := tfind_on_path h
  exact ⟨xs, k, ys, hnodes, hk⟩

theorem tfind_of_mem_searchPath {c : α → Int} {t : SearchTree α} {k : α} (hmem : k ∈ t.searchPath c)
    (hzero : c k = 0)
    : ∃ id xs ys, t.tfind c = some id ∧ t.nodes = xs ++ (id, k) :: ys := by
  induction t with
  | leaf => simp [searchPath] at hmem
  | node l i x r lih rih =>
    unfold searchPath at hmem
    unfold tfind
    split at hmem
    . next hx =>
      obtain rfl := List.mem_singleton.mp hmem
      exact ⟨i, l.nodes, r.nodes, if_pos hx, by simp⟩
    . next hx =>
      have hne : k ≠ x := by
        rintro rfl
        exact hx hzero
      rw [if_neg hx]
      split at hmem
      . next hneg =>
        obtain ⟨id, xs, ys, hfind, hnodes⟩ := lih (List.mem_of_ne_of_mem hne hmem)
        rw [if_pos hneg]
        exact ⟨id, xs, ys ++ (i, x) :: r.nodes, hfind, by simp [hnodes]⟩
      . next hneg =>
        obtain ⟨id, xs, ys, hfind, hnodes⟩ := rih (List.mem_of_ne_of_mem hne hmem)
        rw [if_neg hneg]
        exact ⟨id, l.nodes ++ (i, x) :: xs, ys, hfind, by simp [hnodes]⟩

theorem searchPath_subset_keys {c : α → Int} {t : SearchTree α} {x : α} (h : x ∈ t.searchPath c)
    : x ∈ t.keys := by
  induction t with
  | leaf => simp [searchPath] at h
  | node l i k r lih rih =>
    unfold searchPath at h
    split at h
    . simp_all
    . split at h
      . rcases List.mem_cons.mp h with h | h
        . simp [h]
        . simp [lih h]
      . rcases List.mem_cons.mp h with h | h
        . simp [h]
        . simp [rih h]

variable [LinearOrder ι] {rank : α → ι} {i : ι} {c : α → Int}

theorem isSearchTree_iff {t : SearchTree α}
    : t.IsSearchTree rank ↔ t.keys.Pairwise (fun x y => rank x < rank y) := by
  induction t with
  | leaf => simp [IsSearchTree]
  | node l id k r lih rih =>
    simp only [IsSearchTree, lih, rih, keys_node, List.pairwise_append, List.pairwise_cons,
      List.mem_cons, forall_eq_or_imp]
    constructor
    . rintro ⟨hl, hr, hlk, hkr⟩
      exact ⟨hl, ⟨hkr, hr⟩, fun x hx => ⟨hlk x hx, fun y hy => (hlk x hx).trans (hkr y hy)⟩⟩
    . rintro ⟨hl, ⟨hkr, hr⟩, hlr⟩
      exact ⟨hl, hr, fun x hx => (hlr x hx).1, hkr⟩

theorem IsSearchTree.rank_injOn {t : SearchTree α} (ht : t.IsSearchTree rank) {x y : α}
    (hx : x ∈ t.keys) (hy : y ∈ t.keys) (h : rank x = rank y)
    : x = y := by
  have hnodup : (t.keys.map rank).Nodup := by
    rw [List.nodup_iff_pairwise_ne, List.pairwise_map]
    exact (isSearchTree_iff.mp ht).imp fun h => ne_of_lt h
  exact List.inj_on_of_nodup_map hnodup hx hy h

theorem IsSearchTree.keys_nodup {t : SearchTree α} (ht : t.IsSearchTree rank) : t.keys.Nodup := by
  rw [isSearchTree_iff] at ht
  apply ht.imp
  intro a b h heq
  simp [heq] at h

theorem IsSearchTree.tfind_isSome {t : SearchTree α} (ht : t.IsSearchTree rank)
    (hc : Seeks rank i c) {k : α} (hk : k ∈ t.keys) (hi : rank k = i)
    : (t.tfind c).isSome := by
  induction t with
  | leaf => simp at hk
  | node l id x r lih rih =>
    obtain ⟨hl, hr, hlx, hxr⟩ := ht
    simp only [keys_node, List.mem_append, List.mem_cons] at hk
    unfold tfind
    rcases hk with hk | hk | hk
    . have : i < rank x := hi ▸ hlx k hk
      rw [if_neg, if_pos]
      . exact lih hl hk
      . exact (hc.neg x).mpr this
      . exact fun h => ne_of_lt this ((hc.eq_zero x).mp h)
    . subst hk
      rw [if_pos ((hc.eq_zero k).mpr hi.symm)]
      rfl
    . have : rank x < i := hi ▸ hxr k hk
      rw [if_neg, if_neg]
      . exact rih hr hk
      . exact fun h => not_lt_of_gt this ((hc.neg x).mp h)
      . exact fun h => ne_of_gt this ((hc.eq_zero x).mp h)

/-! Insertion. -/

omit [LinearOrder ι] in
theorem insertNode_nodes {t : SearchTree α} (id : Nat) (k : α) (h : t.tfind c = none)
    : ∃ xs ys, t.nodes = xs ++ ys ∧ (t.insertNode c id k).nodes = xs ++ (id, k) :: ys := by
  induction t with
  | leaf => exact ⟨[], [], rfl, rfl⟩
  | node l j x r lih rih =>
    unfold tfind at h
    unfold insertNode
    split at h
    . simp at h
    . split at h
      . obtain ⟨xs, ys, ht, hins⟩ := lih h
        exact ⟨xs, ys ++ (j, x) :: r.nodes, by simp [ht], by simp [*]⟩
      . obtain ⟨xs, ys, ht, hins⟩ := rih h
        exact ⟨l.nodes ++ (j, x) :: xs, ys, by simp [ht], by simp [*]⟩

theorem insertNode_keys_perm {t : SearchTree α} (id : Nat) (k : α) (h : t.tfind c = none)
    : (t.insertNode c id k).keys.Perm (k :: t.keys) := by
  obtain ⟨xs, ys, ht, hins⟩ := insertNode_nodes id k h
  simp [keys, ht, hins]

theorem insertNode_ids_perm {t : SearchTree α} (id : Nat) (k : α) (h : t.tfind c = none)
    : (t.insertNode c id k).ids.Perm (id :: t.ids) := by
  obtain ⟨xs, ys, ht, hins⟩ := insertNode_nodes id k h
  simp [ids, ht, hins]

theorem IsSearchTree.insertNode {t : SearchTree α} {id : Nat} {k : α} (ht : t.IsSearchTree rank)
    (hc : Seeks rank (rank k) c) (h : t.tfind c = none)
    : (t.insertNode c id k).IsSearchTree rank := by
  induction t with
  | leaf => simp [SearchTree.insertNode, IsSearchTree]
  | node l j x r lih rih =>
    obtain ⟨hl, hr, hlx, hxr⟩ := ht
    unfold tfind at h
    unfold SearchTree.insertNode
    split at h
    . simp at h
    . next hne =>
      split at h
      . next hneg =>
        rw [if_neg hne, if_pos hneg]
        refine ⟨lih hl h, hr, ?_, hxr⟩
        intro y hy
        rcases List.mem_cons.mp ((insertNode_keys_perm _ _ h).mem_iff.mp hy) with rfl | hy
        . exact (hc.neg x).mp hneg
        . exact hlx y hy
      . next hneg =>
        rw [if_neg hne, if_neg hneg]
        refine ⟨hl, rih hr h, hlx, ?_⟩
        intro y hy
        rcases List.mem_cons.mp ((insertNode_keys_perm _ _ h).mem_iff.mp hy) with rfl | hy
        . apply lt_of_le_of_ne
          . exact not_lt.mp fun hlt => hneg ((hc.neg x).mpr hlt)
          . exact fun heq => hne ((hc.eq_zero x).mpr heq.symm)
        . exact hxr y hy

omit [LinearOrder ι] in
theorem lt_freshId {t : SearchTree α} {id : Nat} (h : id ∈ t.ids) : id < t.freshId := by
  unfold freshId
  generalize t.ids = js at h
  induction js with
  | nil => simp at h
  | cons j js ih =>
    simp only [List.mem_cons, List.foldr_cons] at h ⊢
    rcases h with rfl | h
    . omega
    . have := ih h
      omega

theorem freshId_not_mem (t : SearchTree α) : t.freshId ∉ t.ids :=
  fun h => Nat.lt_irrefl _ (lt_freshId h)

/--
A `tsearch` that finds its key leaves the nodes alone, one that does not inserts a fresh node or
fails for lack of memory.
-/
inductive Searched (c : α → Int) (k : α) (memory : Bool) (t : SearchTree α)
    : Option Nat → SearchTree α → Prop where
  | found (id : Nat) (t' : SearchTree α) (hfind : t.tfind c = some id)
      (hnodes : t'.nodes = t.nodes) : Searched c k memory t (some id) t'
  | inserted (t' : SearchTree α) (hfind : t.tfind c = none) (hmemory : memory = true)
      (hnodes : t'.nodes = (t.insertNode c t.freshId k).nodes)
      : Searched c k memory t (some t.freshId) t'
  | failed (hfind : t.tfind c = none) (hmemory : memory = false) : Searched c k memory t none t

omit [LinearOrder ι] in
theorem tsearch_spec (bal : Balancing α) (c : α → Int) (k : α) (memory : Bool) (t : SearchTree α)
    : Searched c k memory t (t.tsearch bal c k memory).1 (t.tsearch bal c k memory).2 := by
  unfold tsearch
  split
  . next id hfind => exact .found id _ hfind (bal.nodes_apply t)
  . next hfind =>
    split
    . next hmemory => exact .inserted _ hfind hmemory (bal.nodes_apply _)
    . next hmemory => exact .failed hfind (by simpa using hmemory)

omit [LinearOrder ι] in
theorem Searched.ids_nodup {k : α} {memory : Bool} {t t' : SearchTree α} {slot : Option Nat}
    (h : Searched c k memory t slot t') (hnodup : t.ids.Nodup)
    : t'.ids.Nodup := by
  cases h with
  | found id _ _ hnodes => rwa [ids, hnodes]
  | inserted _ hfind _ hnodes =>
    rw [ids, hnodes]
    exact ((insertNode_ids_perm _ _ hfind).nodup_iff).mpr
      (List.nodup_cons.mpr ⟨freshId_not_mem t, hnodup⟩)
  | failed => exact hnodup

omit [LinearOrder ι] in
/--
The slot that `tsearch` returns holds the key, if the comparison tells the keys apart.
-/
theorem Searched.slot {k : α} {memory : Bool} {t t' : SearchTree α} {id : Nat}
    (h : Searched c k memory t (some id) t') (hc : ∀ x, c x = 0 → x = k) (hnodup : t.ids.Nodup)
    : t'.slot id = some k := by
  have hnodup' := h.ids_nodup hnodup
  cases h with
  | found _ _ hfind hnodes =>
    obtain ⟨xs, x, ys, hbefore, hx⟩ := tfind_spec hfind
    rw [hc x hx] at hbefore
    exact slot_of_nodes_eq hnodup' (hnodes.trans hbefore)
  | inserted _ hfind _ hnodes =>
    obtain ⟨xs, ys, -, hinsert⟩ := insertNode_nodes t.freshId k hfind
    exact slot_of_nodes_eq hnodup' (hnodes.trans hinsert)

theorem IsSearchTree.of_nodes_eq {t t' : SearchTree α} (ht : t.IsSearchTree rank)
    (h : t'.nodes = t.nodes)
    : t'.IsSearchTree rank := by
  rw [isSearchTree_iff] at ht ⊢
  simpa [keys, h] using ht

theorem IsSearchTree.congr {t : SearchTree α} {rank' : α → ι} (ht : t.IsSearchTree rank)
    (h : ∀ k ∈ t.keys, rank' k = rank k)
    : t.IsSearchTree rank' := by
  rw [isSearchTree_iff] at ht ⊢
  apply ht.imp_of_mem
  intro a b ha hb hlt
  rwa [h a ha, h b hb]

/--
A key may be replaced by one that has each of the other keys on the same side.
-/
theorem IsSearchTree.setSlot {t : SearchTree α} (ht : t.IsSearchTree rank) (hnodup : t.ids.Nodup)
    {xs ys : List (Nat × α)} {id : Nat} {x k : α} (h : t.nodes = xs ++ (id, x) :: ys)
    (hsame : ∀ y ∈ xs.map Prod.snd ++ ys.map Prod.snd,
      rank y ≠ rank k ∧ (rank y < rank x ↔ rank y < rank k))
    : (t.setSlot id k).IsSearchTree rank := by
  rw [isSearchTree_iff, keys_of_nodes_eq h] at ht
  rw [isSearchTree_iff, keys_of_nodes_eq (setSlot_nodes_of_nodes_eq k hnodup h)]
  rw [List.pairwise_append, List.pairwise_cons] at ht ⊢
  obtain ⟨hxs, ⟨hxys, hys⟩, hlt⟩ := ht
  refine ⟨hxs, ⟨?_, hys⟩, ?_⟩
  . intro y hy
    obtain ⟨hne, hiff⟩ := hsame y (List.mem_append_right _ hy)
    have hle : rank k ≤ rank y := not_lt.mp (mt hiff.mpr (not_lt_of_gt (hxys y hy)))
    exact lt_of_le_of_ne hle (Ne.symm hne)
  . intro y hy z hz
    cases hz with
    | head => exact (hsame y (List.mem_append_left _ hy)).2.mp (hlt y hy x List.mem_cons_self)
    | tail _ hz => exact hlt y hy z (List.mem_cons_of_mem x hz)

/-! Deletion. -/

omit [LinearOrder ι]

theorem popMin_nodes (l : SearchTree α) (id : Nat) (k : α) (r : SearchTree α)
    : (popMin l id k r).1 :: (popMin l id k r).2.nodes = l.nodes ++ (id, k) :: r.nodes := by
  induction l generalizing id k r with
  | leaf => simp [popMin]
  | node ll lid lk lr lih rih =>
    have := lih lid lk lr
    simp only [popMin, nodes_node]
    rw [← List.cons_append, this]

/--
What deletion at the node `id` does to the sequence of the nodes: a node with at most one child goes
and is the node freed; a node with two children stays, with the key of its successor in its slot,
and the node of the successor is the one freed.
-/
inductive Deleted (c : α → Int) (t : SearchTree α) (id freed : Nat) (t' : SearchTree α) : Prop where
  | outer (xs ys : List (Nat × α)) (k : α) (hinner : t.innerAt c = false) (hk : c k = 0)
      (hbefore : t.nodes = xs ++ (id, k) :: ys) (hafter : t'.nodes = xs ++ ys)
      (hfreed : freed = id)
  | inner (xs ys : List (Nat × α)) (k sk : α) (hinner : t.innerAt c = true) (hk : c k = 0)
      (hbefore : t.nodes = xs ++ (id, k) :: (freed, sk) :: ys)
      (hafter : t'.nodes = xs ++ (id, sk) :: ys)

theorem unlink_deleted (l r : SearchTree α) (id : Nat) {k : α} (hk : c k = 0)
    : Deleted c (node l id k r) id (unlink l id r).1 (unlink l id r).2 := by
  match l, r with
  | .leaf, r => exact .outer [] r.nodes k (by simp [innerAt, hk]) hk rfl rfl rfl
  | .node ll lid lk lr, .leaf =>
    exact .outer (node ll lid lk lr).nodes [] k (by simp [innerAt, hk]) hk rfl (by simp [unlink])
      rfl
  | .node ll lid lk lr, .node rl rid rk rr =>
    have hmin := popMin_nodes rl rid rk rr
    refine .inner (node ll lid lk lr).nodes (popMin rl rid rk rr).2.nodes k
      (popMin rl rid rk rr).1.2 (by simp [innerAt, hk]) hk ?_ rfl
    rw [nodes_node, nodes_node rl]
    simp only [unlink, nodes_node, hmin]

theorem Deleted.left {l l' r : SearchTree α} {id freed j : Nat} {x : α} (hx : c x < 0)
    (h : Deleted c l id freed l')
    : Deleted c (node l j x r) id freed (node l' j x r) := by
  have hne : c x ≠ 0 := by omega
  cases h with
  | outer xs ys k hinner hk hbefore hafter hfreed =>
    exact .outer xs (ys ++ (j, x) :: r.nodes) k (by simpa [innerAt, hx, hne] using hinner) hk
      (by simp [hbefore]) (by simp [hafter]) hfreed
  | inner xs ys k sk hinner hk hbefore hafter =>
    exact .inner xs (ys ++ (j, x) :: r.nodes) k sk (by simpa [innerAt, hx, hne] using hinner) hk
      (by simp [hbefore]) (by simp [hafter])

theorem Deleted.right {l r r' : SearchTree α} {id freed j : Nat} {x : α} (hx : 0 < c x)
    (h : Deleted c r id freed r')
    : Deleted c (node l j x r) id freed (node l j x r') := by
  have hne : c x ≠ 0 := by omega
  have hlt : ¬ c x < 0 := by omega
  cases h with
  | outer xs ys k hinner hk hbefore hafter hfreed =>
    exact .outer (l.nodes ++ (j, x) :: xs) ys k (by simpa [innerAt, hlt, hne] using hinner) hk
      (by simp [hbefore]) (by simp [hafter]) hfreed
  | inner xs ys k sk hinner hk hbefore hafter =>
    exact .inner (l.nodes ++ (j, x) :: xs) ys k sk (by simpa [innerAt, hlt, hne] using hinner) hk
      (by simp [hbefore]) (by simp [hafter])

theorem tdelete.go_spec {t t' : SearchTree α} {freed : Nat} (h : go c t = some (freed, t'))
    : ∃ id, t.tfind c = some id ∧ Deleted c t id freed t' := by
  induction t generalizing t' with
  | leaf => simp [go] at h
  | node l j x r lih rih =>
    unfold go at h
    unfold tfind
    split at h
    . next hzero =>
      injection h with h
      have := unlink_deleted l r j hzero
      rw [h] at this
      exact ⟨j, by simp [hzero], this⟩
    . next hne =>
      split at h
      . next hneg =>
        obtain ⟨⟨freed', l'⟩, hgo, heq⟩ := Option.map_eq_some_iff.mp h
        obtain ⟨rfl, rfl⟩ := Prod.mk.inj heq
        obtain ⟨id, hfind, hdel⟩ := lih hgo
        exact ⟨id, by simp [hne, hneg, hfind], hdel.left hneg⟩
      . next hneg =>
        obtain ⟨⟨freed', r'⟩, hgo, heq⟩ := Option.map_eq_some_iff.mp h
        obtain ⟨rfl, rfl⟩ := Prod.mk.inj heq
        obtain ⟨id, hfind, hdel⟩ := rih hgo
        exact ⟨id, by simp [hne, hneg, hfind], hdel.right (by omega)⟩

theorem Deleted.apply {t t' : SearchTree α} {id freed : Nat} (bal : Balancing α)
    (h : Deleted c t id freed t')
    : Deleted c t id freed (bal.apply t') := by
  cases h with
  | outer xs ys k hinner hk hbefore hafter hfreed =>
    exact .outer xs ys k hinner hk hbefore (by rw [bal.nodes_apply, hafter]) hfreed
  | inner xs ys k sk hinner hk hbefore hafter =>
    exact .inner xs ys k sk hinner hk hbefore (by rw [bal.nodes_apply, hafter])

theorem tdelete_spec {bal : Balancing α} {t t' : SearchTree α} {freed : Nat}
    (h : t.tdelete bal c = some (freed, t'))
    : ∃ id, t.tfind c = some id ∧ Deleted c t id freed t' := by
  unfold tdelete at h
  obtain ⟨⟨freed', t''⟩, hgo, heq⟩ := Option.map_eq_some_iff.mp h
  obtain ⟨rfl, rfl⟩ := Prod.mk.inj heq
  obtain ⟨id, hfind, hdel⟩ := tdelete.go_spec hgo
  exact ⟨id, hfind, hdel.apply bal⟩

theorem Deleted.keys {t t' : SearchTree α} {id freed : Nat} (h : Deleted c t id freed t')
    : ∃ xs k ys, t.keys = xs ++ k :: ys ∧ c k = 0 ∧ t'.keys = xs ++ ys := by
  cases h with
  | outer xs ys k hinner hk hbefore hafter hfreed =>
    exact ⟨xs.map Prod.snd, k, ys.map Prod.snd, keys_of_nodes_eq hbefore, hk,
      by simp [SearchTree.keys, hafter]⟩
  | inner xs ys k sk hinner hk hbefore hafter =>
    exact ⟨xs.map Prod.snd, k, sk :: ys.map Prod.snd, by simp [SearchTree.keys, hbefore], hk,
      by simp [SearchTree.keys, hafter]⟩

theorem Deleted.ids_perm {t t' : SearchTree α} {id freed : Nat} (h : Deleted c t id freed t')
    : t.ids.Perm (freed :: t'.ids) := by
  cases h with
  | outer xs ys k hinner hk hbefore hafter hfreed =>
    simp [ids, hbefore, hafter, hfreed]
  | inner xs ys k sk hinner hk hbefore hafter =>
    simp only [ids, hbefore, hafter, List.map_append, List.map_cons]
    have hswap : (xs.map Prod.fst ++ id :: freed :: ys.map Prod.fst).Perm
        (xs.map Prod.fst ++ freed :: id :: ys.map Prod.fst) :=
      (List.Perm.swap freed id _).append_left _
    exact hswap.trans List.perm_middle

theorem Deleted.ids_nodup {t t' : SearchTree α} {id freed : Nat} (h : Deleted c t id freed t')
    (hnodup : t.ids.Nodup)
    : freed ∉ t'.ids ∧ t'.ids.Nodup :=
  List.nodup_cons.mp ((h.ids_perm.nodup_iff).mp hnodup)

theorem Deleted.isSearchTree [LinearOrder ι] {rank : α → ι} {t t' : SearchTree α} {id freed : Nat}
    (h : Deleted c t id freed t') (ht : t.IsSearchTree rank)
    : t'.IsSearchTree rank := by
  obtain ⟨xs, k, ys, hbefore, -, hafter⟩ := h.keys
  rw [isSearchTree_iff] at ht ⊢
  rw [hbefore] at ht
  rw [hafter]
  exact ht.sublist (List.Sublist.append_left (List.sublist_cons_self k ys) xs)

theorem Deleted.freed_outer {t t' : SearchTree α} {id freed : Nat} (h : Deleted c t id freed t')
    (hinner : t.innerAt c = false)
    : freed = id := by
  cases h with
  | outer _ _ _ _ _ _ _ hfreed => exact hfreed
  | inner _ _ _ _ hinner' => simp [hinner] at hinner'

theorem Deleted.slot_outer {t t' : SearchTree α} {id freed : Nat} (h : Deleted c t id freed t')
    (hnodup : t.ids.Nodup) (hinner : t.innerAt c = false)
    : t'.slot id = none := by
  have hids := h.ids_nodup hnodup
  cases h with
  | outer xs ys k _ hk hbefore hafter hfreed => exact slot_eq_none (hfreed ▸ hids.1)
  | inner _ _ _ _ hinner' => simp [hinner] at hinner'

theorem Deleted.slot_inner {t t' : SearchTree α} {id freed : Nat} (h : Deleted c t id freed t')
    (hnodup : t.ids.Nodup) (hinner : t.innerAt c = true)
    : freed ≠ id ∧ ∃ sk ∈ t'.keys, t'.slot id = some sk := by
  have hids := h.ids_nodup hnodup
  cases h with
  | outer _ _ _ hinner' => simp [hinner] at hinner'
  | inner xs ys k sk _ hk hbefore hafter =>
    refine ⟨?_, sk, ?_, slot_of_nodes_eq hids.2 hafter⟩
    . intro heq
      apply hids.1
      simp [ids_of_nodes_eq hafter, heq]
    . simp [keys_of_nodes_eq hafter]

end SearchTree
