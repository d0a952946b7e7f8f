import Dosix.SearchTree.Basic
import Dosix.SearchTree.Lemmas
import Mathlib.Data.List.Perm.Basic
import Mathlib.Data.List.Count
import Mathlib.Data.List.MinMax
import Mathlib.Data.Nat.Basic

/-!
This module contains search trees under a comparison that need not order all keys, but those that
are in the tree together.
-/

namespace SearchTree

variable {α : Type}

/-! Comparisons. -/

structure Orders (cmp : α → α → Int) (s : List α) : Prop where
  eq_zero : ∀ a ∈ s, ∀ b ∈ s, cmp a b = 0 ↔ a = b
  swap : ∀ a ∈ s, ∀ b ∈ s, cmp a b < 0 ↔ 0 < cmp b a
  trans : ∀ a ∈ s, ∀ b ∈ s, ∀ c ∈ s, cmp a b < 0 → cmp b c < 0 → cmp a c < 0

instance [DecidableEq α] (cmp : α → α → Int) (s : List α) : Decidable (Orders cmp s) :=
  decidable_of_iff
    ((∀ a ∈ s, ∀ b ∈ s, cmp a b = 0 ↔ a = b) ∧ (∀ a ∈ s, ∀ b ∈ s, cmp a b < 0 ↔ 0 < cmp b a)
      ∧ ∀ a ∈ s, ∀ b ∈ s, ∀ c ∈ s, cmp a b < 0 → cmp b c < 0 → cmp a c < 0)
    ⟨fun h => ⟨h.1, h.2.1, h.2.2⟩, fun h => ⟨h.eq_zero, h.swap, h.trans⟩⟩

theorem Orders.mono {cmp : α → α → Int} {s s' : List α} (h : Orders cmp s)
    (hsub : ∀ x ∈ s', x ∈ s)
    : Orders cmp s' :=
  ⟨fun a ha b hb => h.eq_zero a (hsub a ha) b (hsub b hb),
    fun a ha b hb => h.swap a (hsub a ha) b (hsub b hb),
    fun a ha b hb c hc => h.trans a (hsub a ha) b (hsub b hb) c (hsub c hc)⟩

def Sorted (cmp : α → α → Int) (t : SearchTree α) : Prop :=
  t.keys.Pairwise fun x y => cmp x y < 0

theorem countP_lt {p q : α → Bool} {l : List α} {a : α} (h : ∀ x ∈ l, p x = true → q x = true)
    (ha : a ∈ l) (hp : p a = false) (hq : q a = true)
    : l.countP p < l.countP q := by
  obtain ⟨xs, ys, rfl⟩ := List.append_of_mem ha
  have hxs := List.countP_mono_left (l := xs) fun x hx => h x (by simp [hx])
  have hys := List.countP_mono_left (l := ys) fun x hx => h x (by simp [hx])
  simp only [List.countP_append, List.countP_cons, hp, hq]
  simp
  omega

/--
Where a comparison orders the keys, they can be ranked accordingly: count those below.
-/
theorem Orders.exists_rank {cmp : α → α → Int} {s : List α} (h : Orders cmp s)
    : ∃ rank : α → Nat, ∀ a ∈ s, ∀ b ∈ s,
        (cmp a b = 0 ↔ rank a = rank b) ∧ (cmp a b < 0 ↔ rank a < rank b) := by
  have hlt : ∀ a ∈ s, ∀ b ∈ s, cmp a b < 0 →
      s.countP (fun x => cmp x a < 0) < s.countP (fun x => cmp x b < 0) := by
    intro a ha b hb hab
    apply countP_lt (a := a)
    . intro x hx hxa
      simp only [decide_eq_true_eq] at hxa ⊢
      exact h.trans x hx a ha b hb hxa hab
    . exact ha
    . simp [(h.eq_zero a ha a ha).mpr rfl]
    . simpa using hab
  refine ⟨fun a => s.countP (fun x => cmp x a < 0), ?_⟩
  intro a ha b hb
  rcases Int.lt_trichotomy (cmp a b) 0 with hab | hab | hab
  . have := hlt a ha b hb hab
    dsimp only
    omega
  . have heq := (h.eq_zero a ha b hb).mp hab
    subst heq
    dsimp only
    omega
  . have := hlt b hb a ha ((h.swap b hb a ha).mpr hab)
    dsimp only
    omega

theorem orders_of_rank {ι : Type} [LinearOrder ι] {cmp : α → α → Int} {s : List α} (rank : α → ι)
    (h : ∀ a ∈ s, ∀ b ∈ s, (cmp a b = 0 ↔ a = b) ∧ (cmp a b < 0 ↔ rank a < rank b)
      ∧ (0 < cmp a b ↔ rank b < rank a))
    : Orders cmp s := by
  constructor
  . intro a ha b hb
    exact (h a ha b hb).1
  . intro a ha b hb
    rw [(h a ha b hb).2.1, (h b hb a ha).2.2]
  . intro a ha b hb c hc hab hbc
    rw [(h a ha b hb).2.1] at hab
    rw [(h b hb c hc).2.1] at hbc
    rw [(h a ha c hc).2.1]
    exact hab.trans hbc

theorem Orders.exists_min {cmp : α → α → Int} {s : List α} (h : Orders cmp s) (hne : s ≠ [])
    : ∃ m ∈ s, ∀ x ∈ s, x = m ∨ cmp m x < 0 := by
  obtain ⟨rank, hrank⟩ := h.exists_rank
  have hsome : s.argmin rank ≠ none := mt List.argmin_eq_none.mp hne
  obtain ⟨m, hm⟩ := Option.ne_none_iff_exists'.mp hsome
  have hmem : m ∈ s := List.argmin_mem hm
  refine ⟨m, hmem, ?_⟩
  intro x hx
  have hle := List.le_of_mem_argmin hx hm
  obtain ⟨hzero, hneg⟩ := hrank m hmem x hx
  rw [hneg]
  rcases Nat.lt_or_eq_of_le hle with hlt | heq
  . exact .inr hlt
  . exact .inl ((h.eq_zero m hmem x hx).mp (hzero.mpr heq)).symm

theorem orders_map_iff {β : Type} {cmp : α → α → Int} {f : β → α} {s : List β}
    (hinj : ∀ a ∈ s, ∀ b ∈ s, f a = f b → a = b)
    : Orders cmp (s.map f) ↔ Orders (fun a b => cmp (f a) (f b)) s := by
  constructor
  . intro h
    constructor
    . intro a ha b hb
      rw [h.eq_zero _ (List.mem_map_of_mem ha) _ (List.mem_map_of_mem hb)]
      exact ⟨hinj a ha b hb, congrArg f⟩
    . intro a ha b hb
      exact h.swap _ (List.mem_map_of_mem ha) _ (List.mem_map_of_mem hb)
    . intro a ha b hb c hc
      exact h.trans _ (List.mem_map_of_mem ha) _ (List.mem_map_of_mem hb) _ (List.mem_map_of_mem hc)
  . intro h
    constructor
    . simp only [List.forall_mem_map]
      intro a ha b hb
      rw [h.eq_zero a ha b hb]
      exact ⟨congrArg f, hinj a ha b hb⟩
    . simpa only [List.forall_mem_map] using h.swap
    . simpa only [List.forall_mem_map] using h.trans

/-! Searching with one comparison or another. -/

/--
The two comparisons say the same of the keys of the tree.
-/
def Alike (c c' : α → Int) (t : SearchTree α) : Prop :=
  ∀ x ∈ t.keys, (c x = 0 ↔ c' x = 0) ∧ (c x < 0 ↔ c' x < 0)

theorem Alike.node {c c' : α → Int} {l r : SearchTree α} {id : Nat} {k : α}
    (h : Alike c c' (node l id k r))
    : Alike c c' l ∧ (c k = 0 ↔ c' k = 0) ∧ (c k < 0 ↔ c' k < 0) ∧ Alike c c' r := by
  refine ⟨fun x hx => h x ?_, (h k ?_).1, (h k ?_).2, fun x hx => h x ?_⟩
  . simp [hx]
  . simp
  . simp
  . simp [hx]

theorem Alike.tfind {c c' : α → Int} {t : SearchTree α} (h : Alike c c' t)
    : t.tfind c = t.tfind c' := by
  induction t with
  | leaf => rfl
  | node l id k r lih rih =>
    obtain ⟨hl, hzero, hneg, hr⟩ := h.node
    unfold SearchTree.tfind
    simp only [hzero, hneg, lih hl, rih hr]

theorem Alike.insertNode {c c' : α → Int} {t : SearchTree α} (h : Alike c c' t) (id : Nat) (k : α)
    : t.insertNode c id k = t.insertNode c' id k := by
  induction t with
  | leaf => rfl
  | node l i x r lih rih =>
    obtain ⟨hl, hzero, hneg, hr⟩ := h.node
    unfold SearchTree.insertNode
    simp only [hzero, hneg, lih hl, rih hr]

theorem Alike.tsearch {c c' : α → Int} {t : SearchTree α} (h : Alike c c' t) (bal : Balancing α)
    (k : α) (memory : Bool)
    : t.tsearch bal c k memory = t.tsearch bal c' k memory := by
  unfold SearchTree.tsearch
  rw [h.tfind, h.insertNode]

theorem Alike.tdelete {c c' : α → Int} {t : SearchTree α} (h : Alike c c' t) (bal : Balancing α)
    : t.tdelete bal c = t.tdelete bal c' := by
  unfold SearchTree.tdelete
  congr 1
  induction t with
  | leaf => rfl
  | node l id k r lih rih =>
    obtain ⟨hl, hzero, hneg, hr⟩ := h.node
    unfold tdelete.go
    simp only [hzero, hneg, lih hl, rih hr]

/--
The operations find and leave the same with the one comparison as with the other.
-/
structure SameSearches (c c' : α → Int) (t : SearchTree α) : Prop where
  tfind : t.tfind c = t.tfind c'
  tsearch : ∀ bal k memory, t.tsearch bal c k memory = t.tsearch bal c' k memory
  tdelete : ∀ bal, t.tdelete bal c = t.tdelete bal c'

theorem Alike.sameSearches {c c' : α → Int} {t : SearchTree α} (h : Alike c c' t)
    : SameSearches c c' t where
  tfind := h.tfind
  tsearch := h.tsearch
  tdelete := h.tdelete

/--
A tree that is sorted by the comparison is a search tree for a ranking of its keys and `k`, and the
search for `k` goes by that ranking.
-/
theorem Sorted.exists_seeks {cmp : α → α → Int} {t : SearchTree α} {k : α} (ht : Sorted cmp t)
    (h : Orders cmp (k :: t.keys))
    : ∃ (rank : α → Nat) (c : α → Int), Seeks rank (rank k) c ∧ Alike (cmp k) c t
        ∧ t.IsSearchTree rank
        ∧ ∀ a ∈ k :: t.keys, ∀ b ∈ k :: t.keys, cmp a b < 0 ↔ rank a < rank b := by
  obtain ⟨rank, hrank⟩ := h.exists_rank
  have hmem : ∀ x ∈ t.keys, x ∈ k :: t.keys := fun x hx => List.mem_cons_of_mem k hx
  refine ⟨rank, fun x => (rank k : Int) - rank x, ⟨?_, ?_⟩, ?_, ?_, ?_⟩
  . intro x
    omega
  . intro x
    omega
  . intro x hx
    obtain ⟨hzero, hneg⟩ := hrank k (by simp) x (hmem x hx)
    rw [hzero, hneg]
    dsimp only
    constructor <;> omega
  . rw [isSearchTree_iff]
    apply ht.imp_of_mem
    intro a b ha hb hlt
    exact (hrank a (hmem a ha) b (hmem b hb)).2.mp hlt
  . intro a ha b hb
    exact (hrank a ha b hb).2

theorem Sorted.tfind_eq_none_iff {cmp : α → α → Int} {t : SearchTree α} {k : α} (ht : Sorted cmp t)
    (h : Orders cmp (k :: t.keys))
    : t.tfind (cmp k) = none ↔ k ∉ t.keys := by
  obtain ⟨rank, c, hc, halike, hsearch, _⟩ := ht.exists_seeks h
  constructor
  . intro hnone hk
    have hsome := hsearch.tfind_isSome hc hk rfl
    rw [← halike.tfind, hnone] at hsome
    simp at hsome
  . intro hk
    cases hfind : t.tfind (cmp k) with
    | none => rfl
    | some id =>
      obtain ⟨xs, x, ys, hnodes, hzero⟩ := tfind_spec hfind
      have hx : x ∈ t.keys := by simp [keys_of_nodes_eq hnodes]
      have heq := (h.eq_zero k (by simp) x (by simp [hx])).mp hzero
      exact absurd (heq ▸ hx) hk

/--
A `tsearch` that does not fail returns a node with the key itself.
-/
theorem Sorted.tsearch_some {cmp : α → α → Int} {t t' : SearchTree α} {k : α} {id : Nat}
    {memory : Bool} {bal : Balancing α} (ht : Sorted cmp t) (hnodup : t.ids.Nodup)
    (h : Orders cmp (k :: t.keys)) (hsearch : t.tsearch bal (cmp k) k memory = (some id, t'))
    : t'.slot id = some k ∧ t'.ids.Nodup ∧ Sorted cmp t'
        ∧ ((k ∈ t.keys ∧ t'.keys = t.keys) ∨ (k ∉ t.keys ∧ t'.keys.Perm (k :: t.keys))) := by
  have hspec := tsearch_spec bal (cmp k) k memory t
  rw [hsearch] at hspec
  dsimp only at hspec
  have hnodup' := hspec.ids_nodup hnodup
  cases hspec with
  | found id t' hfind hnodes =>
    obtain ⟨xs, x, ys, hsplit, hzero⟩ := tfind_spec hfind
    have hx : x ∈ t.keys := by simp [keys_of_nodes_eq hsplit]
    have heq := (h.eq_zero k (by simp) x (by simp [hx])).mp hzero
    subst heq
    have hkeys : t'.keys = t.keys := by rw [keys, hnodes, keys]
    refine ⟨slot_of_nodes_eq hnodup' (hnodes.trans hsplit), hnodup', ?_, .inl ⟨hx, hkeys⟩⟩
    rw [Sorted, hkeys]
    exact ht
  | inserted t' hfind hmemory hnodes =>
    obtain ⟨xs, ys, -, hins⟩ := insertNode_nodes t.freshId k hfind
    have hperm := insertNode_keys_perm t.freshId k hfind
    have hkeys : t'.keys = (t.insertNode (cmp k) t.freshId k).keys := by rw [keys, hnodes, keys]
    refine ⟨slot_of_nodes_eq hnodup' (hnodes.trans hins), hnodup', ?_,
      .inr ⟨(ht.tfind_eq_none_iff h).mp hfind, hkeys ▸ hperm⟩⟩
    obtain ⟨rank, c, hc, halike, hsearch, hrank⟩ := ht.exists_seeks h
    have hinsert : (t.insertNode c t.freshId k).IsSearchTree rank :=
      hsearch.insertNode hc (halike.tfind ▸ hfind)
    rw [← halike.insertNode, isSearchTree_iff] at hinsert
    rw [Sorted, hkeys]
    apply hinsert.imp_of_mem
    intro a b ha hb hlt
    exact (hrank a (hperm.mem_iff.mp ha) b (hperm.mem_iff.mp hb)).mpr hlt

theorem tsearch_none {t t' : SearchTree α} {c : α → Int} {k : α} {memory : Bool}
    {bal : Balancing α} (h : t.tsearch bal c k memory = (none, t'))
    : t.tfind c = none := by
  have hspec := tsearch_spec bal c k memory t
  rw [h] at hspec
  cases hspec with
  | failed hfind hmemory => exact hfind

theorem tdelete.go_isSome {t : SearchTree α} {c : α → Int}
    : (go c t).isSome = (t.tfind c).isSome := by
  induction t with
  | leaf => rfl
  | node l id k r lih rih =>
    unfold go tfind
    split
    . rfl
    . split
      . rw [Option.isSome_map, lih]
      . rw [Option.isSome_map, rih]

theorem Sorted.tdelete [DecidableEq α] {cmp : α → α → Int} {t : SearchTree α} {k : α}
    (bal : Balancing α) (ht : Sorted cmp t) (hnodup : t.ids.Nodup) (h : Orders cmp (k :: t.keys))
    (hk : k ∈ t.keys)
    : ∃ freed t', t.tdelete bal (cmp k) = some (freed, t') ∧ t'.ids.Nodup ∧ Sorted cmp t'
        ∧ t'.keys.Perm (t.keys.erase k) := by
  have hsome : (t.tdelete bal (cmp k)).isSome := by
    unfold SearchTree.tdelete
    rw [Option.isSome_map, tdelete.go_isSome, Option.isSome_iff_ne_none]
    intro hnone
    exact (ht.tfind_eq_none_iff h).mp hnone hk
  obtain ⟨⟨freed, t'⟩, hdelete⟩ := Option.isSome_iff_exists.mp hsome
  obtain ⟨id, -, hdeleted⟩ := tdelete_spec hdelete
  obtain ⟨xs, x, ys, hbefore, hzero, hafter⟩ := hdeleted.keys
  have hx : x ∈ t.keys := by simp [hbefore]
  have heq := (h.eq_zero k (by simp) x (by simp [hx])).mp hzero
  subst heq
  refine ⟨freed, t', hdelete, (hdeleted.ids_nodup hnodup).2, ?_, ?_⟩
  . rw [Sorted, hafter]
    rw [Sorted, hbefore] at ht
    exact ht.sublist (List.Sublist.append_left (List.sublist_cons_self k ys) xs)
  . rw [hafter, hbefore]
    have hperm : (xs ++ k :: ys).Perm (k :: (xs ++ ys)) := List.perm_middle
    exact ((hperm.erase k).trans (by simp)).symm

end SearchTree
