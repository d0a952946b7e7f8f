import Dosix.Circular.Basic
import Dosix.Stdio.Impl
import Dosix.SearchTree.Lemmas
import Dosix.SearchTree.Comparison
import Dosix.Transition.Basic
import Mathlib.Algebra.Order.Ring.Int
import Mathlib.Data.List.Perm.Basic
import Mathlib.Data.List.Nodup

/-!
This module contains the registry law of the streams: the tree is to have exactly the streams that
`fopen` has opened and that are not closed yet, and no stream is to be closed twice.
-/

namespace Dosix
namespace Stdio

open SearchTree Transition

/-! What is asked of a step. -/

/--
Between two calls of `fclose` with the same address `fopen` has returned it again.
-/
def ClosedOnce (log : List Event) : Prop :=
  ∀ a pre mid post, log = pre ++ .fclose a :: (mid ++ .fclose a :: post) → .fopen a ∈ mid

structure Exact (s : Session) : Prop where
  registered : s.streams.streamTree.keys.Perm s.live
  once : ClosedOnce s.streams.log

def ClosesAll (env : Choices) (s : Streams) : Prop :=
  ∃ ret s', ∃ closed : List Addr, dosixFcloseall env s = .ok (ret, s') ∧ s'.streamTree.keys = []
    ∧ s'.log = s.log ++ closed.map .fclose ∧ closed.Perm s.streamTree.keys
    ∧ ret = s'.streamCloseCount.toNat

def Kept (diff : Addr → Addr → BitVec 64) (s : Session) (call : Call) : Prop :=
  (∃ s', step diff s call = .ok s' ∧ Exact s')
    ∧ (call.op = .fcloseall → ClosesAll call.env s.streams)

/--
The underlying `fopen` returns no stream that is open, and only open ones are closed. A node of the
tree, and `NULL`, is no stream.
-/
def Valid (s : Session) (call : Call) : Prop :=
  match call.op with
  | .fopen => call.env.stream ∉ s.streams.opened
  | .fclose stream => stream ∈ s.streams.opened
  | .fcloseall => call.env.root ∉ s.streams.opened

/--
`stream_cmp` orders the stream that is looked for and those that are open.
-/
def Ordered (diff : Addr → Addr → BitVec 64) (s : Session) (call : Call) : Prop :=
  match call.op with
  | .fopen => call.env.stream = 0 ∨ Orders (streamCmp diff) (call.env.stream :: s.live)
  | .fclose stream => Orders (streamCmp diff) (stream :: s.live)
  | .fcloseall => True

def ClosesOne (call : Call) : Prop :=
  call.op ≠ .fcloseall

instance (s : Session) (call : Call) : Decidable (Valid s call) :=
  match call with
  | ⟨.fopen, env⟩ => inferInstanceAs (Decidable (env.stream ∉ s.streams.opened))
  | ⟨.fclose stream, _⟩ => inferInstanceAs (Decidable (stream ∈ s.streams.opened))
  | ⟨.fcloseall, env⟩ => inferInstanceAs (Decidable (env.root ∉ s.streams.opened))

instance (diff : Addr → Addr → BitVec 64) (s : Session) (call : Call)
    : Decidable (Ordered diff s call) :=
  match call with
  | ⟨.fopen, env⟩ =>
    inferInstanceAs (Decidable (env.stream = 0 ∨ Orders (streamCmp diff) (env.stream :: s.live)))
  | ⟨.fclose stream, _⟩ =>
    inferInstanceAs (Decidable (Orders (streamCmp diff) (stream :: s.live)))
  | ⟨.fcloseall, _⟩ => .isTrue trivial

instance (call : Call) : Decidable (ClosesOne call) :=
  inferInstanceAs (Decidable (_ ≠ _))

/-! The log. -/

/--
A stream that `fclose` has been called with last is not open.
-/
structure Tracks (log : List Event) (opened : List Addr) : Prop where
  once : ClosedOnce log
  closed : ∀ a pre post, log = pre ++ .fclose a :: post → .fopen a ∉ post → a ∉ opened

theorem split_append {log pre post : List Event} {e x : Event}
    (h : log ++ [e] = pre ++ x :: post)
    : (post = [] ∧ log = pre ∧ e = x) ∨ ∃ post', post = post' ++ [e] ∧ log = pre ++ x :: post' := by
  rcases List.eq_nil_or_concat post with rfl | ⟨post', y, rfl⟩
  . obtain ⟨hlog, he⟩ := List.append_inj' h rfl
    exact .inl ⟨rfl, hlog, (List.cons.inj he).1⟩
  . have hlast : log ++ [e] = (pre ++ x :: post') ++ [y] := by simpa using h
    obtain ⟨hlog, he⟩ := List.append_inj' hlast rfl
    exact .inr ⟨post', by rw [(List.cons.inj he).1, List.concat_eq_append], hlog⟩

namespace Tracks

variable {log : List Event} {opened : List Addr} {a : Addr}

theorem fopen (h : Tracks log opened) (a : Addr)
    : Tracks (log ++ [.fopen a]) (a :: opened) where
  once := by
    intro b pre mid post hlog
    rcases split_append hlog with ⟨_, _, heq⟩ | ⟨post', hmid, hlog'⟩
    . simp at heq
    . rcases split_append hmid.symm with ⟨_, _, heq⟩ | ⟨post'', _, hmid'⟩
      . simp at heq
      . exact h.once b pre mid post'' (hmid' ▸ hlog')
  closed := by
    intro b pre post hlog hnot
    rcases split_append hlog with ⟨_, _, heq⟩ | ⟨post', hpost, hlog'⟩
    . simp at heq
    . rw [hpost, List.mem_append, not_or] at hnot
      rw [List.mem_cons, not_or]
      refine ⟨?_, h.closed b pre post' hlog' hnot.1⟩
      intro heq
      exact hnot.2 (by simp [heq])

theorem fclose (h : Tracks log opened) (hnodup : opened.Nodup) (ha : a ∈ opened)
    : Tracks (log ++ [.fclose a]) (opened.erase a) where
  once := by
    intro b pre mid post hlog
    rcases split_append hlog with ⟨hnil, _, _⟩ | ⟨post', hmid, hlog'⟩
    . simp at hnil
    . rcases split_append hmid.symm with ⟨_, heq, hab⟩ | ⟨post'', _, hmid'⟩
      -- `a` was open, so it has been opened since it was closed
      . injection hab with hab
        subst hab heq
        by_contra hnot
        exact h.closed a pre post' hlog' hnot ha
      . exact h.once b pre mid post'' (hmid' ▸ hlog')
  closed := by
    intro b pre post hlog hnot
    rcases split_append hlog with ⟨_, _, hab⟩ | ⟨post', hpost, hlog'⟩
    . injection hab with hab
      subst hab
      exact hnodup.not_mem_erase
    . rw [hpost, List.mem_append, not_or] at hnot
      intro hmem
      exact h.closed b pre post' hlog' hnot.1 (List.mem_of_mem_erase hmem)

theorem nil (h : Tracks log opened) : Tracks log [] :=
  ⟨h.once, fun _ _ _ _ _ => List.not_mem_nil⟩

end Tracks

/-! The invariant. -/

structure Inv (diff : Addr → Addr → BitVec 64) (s : Session) : Prop where
  registered : s.streams.streamTree.keys.Perm s.live
  sorted : Sorted (streamCmp diff) s.streams.streamTree
  ids_nodup : s.streams.streamTree.ids.Nodup
  live_nodup : s.live.Nodup
  opened : ∀ a ∈ s.live, a ∈ s.streams.opened
  opened_nodup : s.streams.opened.Nodup
  tracks : Tracks s.streams.log s.streams.opened

variable {diff : Addr → Addr → BitVec 64} {s : Session} {env : Choices}

theorem Inv.exact (h : Inv diff s) : Exact s :=
  ⟨h.registered, h.tracks.once⟩

theorem Inv.orders_keys (h : Inv diff s) {a : Addr}
    (horders : Orders (streamCmp diff) (a :: s.live))
    : Orders (streamCmp diff) (a :: s.streams.streamTree.keys) := by
  apply horders.mono
  intro x hx
  rcases List.mem_cons.mp hx with hx | hx
  . simp [hx]
  . simp [h.registered.mem_iff.mp hx]

theorem Streams.fclose_eq {stream : Addr} (streams : Streams) (h : stream ∈ streams.opened)
    : streams.fclose env stream = .ok (env.fclose stream, { streams with
        opened := streams.opened.erase stream
        log := streams.log ++ [.fclose stream] }) := by
  unfold fclose
  rw [if_pos h]

theorem Inv.fopen (h : Inv diff s) (hvalid : Valid s ⟨.fopen, env⟩)
    (hordered : Ordered diff s ⟨.fopen, env⟩)
    : ∃ s', step diff s ⟨.fopen, env⟩ = .ok s' ∧ Inv diff s' := by
  unfold step dosixFopen Streams.fopen
  dsimp only
  by_cases hzero : env.stream = 0
  . simp only [if_pos hzero]
    exact ⟨s, rfl, h⟩
  simp only [if_neg hzero]
  have hfresh : env.stream ∉ s.streams.opened := hvalid
  have horders := h.orders_keys (hordered.resolve_left hzero)
  have htracks := h.tracks.fopen env.stream
  have hnodup : (env.stream :: s.streams.opened).Nodup :=
    List.nodup_cons.mpr ⟨hfresh, h.opened_nodup⟩
  cases hsearch : s.streams.streamTree.tsearch env.bal (streamCmp diff env.stream) env.stream
      env.memory with
  | mk found tree =>
    cases found with
    | none =>
      -- without memory for a node the stream is closed again
      dsimp only
      rw [Streams.fclose_eq _ (by simp)]
      dsimp only
      rw [List.erase_cons_head]
      refine ⟨_, rfl, h.registered, h.sorted, h.ids_nodup, h.live_nodup, h.opened,
        h.opened_nodup, ?_⟩
      simpa using htracks.fclose hnodup (a := env.stream) (by simp)
    | some slot =>
      obtain ⟨hslot, hids, hsorted, hkeys⟩ := h.sorted.tsearch_some h.ids_nodup horders hsearch
      dsimp only
      rw [if_pos hslot]
      dsimp only
      rw [if_neg hzero]
      have hnew : env.stream ∉ s.live := fun hmem => hfresh (h.opened _ hmem)
      rcases hkeys with ⟨hmem, _⟩ | ⟨_, hperm⟩
      . exact absurd (h.registered.mem_iff.mp hmem) hnew
      . refine ⟨_, rfl, hperm.trans (h.registered.cons _), hsorted, hids,
          List.nodup_cons.mpr ⟨hnew, h.live_nodup⟩, ?_, hnodup, htracks⟩
        intro a ha
        rcases List.mem_cons.mp ha with ha | ha
        . simp [ha]
        . simp [h.opened a ha]

theorem Inv.closed {stream : Addr} {tree : SearchTree Addr} (h : Inv diff s)
    (hopened : stream ∈ s.streams.opened) (hperm : tree.keys.Perm (s.live.erase stream))
    (hsorted : Sorted (streamCmp diff) tree) (hids : tree.ids.Nodup)
    : Inv diff ⟨{ s.streams with
        streamTree := tree
        opened := s.streams.opened.erase stream
        log := s.streams.log ++ [.fclose stream] }, s.live.erase stream⟩ where
  registered := hperm
  sorted := hsorted
  ids_nodup := hids
  live_nodup := h.live_nodup.erase stream
  opened := by
    intro a ha
    obtain ⟨hne, hmem⟩ := (h.live_nodup.mem_erase_iff).mp ha
    exact (h.opened_nodup.mem_erase_iff).mpr ⟨hne, h.opened a hmem⟩
  opened_nodup := h.opened_nodup.erase stream
  tracks := h.tracks.fclose h.opened_nodup hopened

theorem Inv.fclose {stream : Addr} (h : Inv diff s) (hvalid : Valid s ⟨.fclose stream, env⟩)
    (hordered : Ordered diff s ⟨.fclose stream, env⟩)
    : ∃ s', step diff s ⟨.fclose stream, env⟩ = .ok s' ∧ Inv diff s' := by
  unfold step dosixFclose
  dsimp only
  have hopened : stream ∈ s.streams.opened := hvalid
  have horders := h.orders_keys hordered
  cases hsearch : s.streams.streamTree.tsearch env.bal (streamCmp diff stream) stream
      env.memory with
  | mk found tree =>
    cases found with
    | none =>
      -- the stream has not been registered, and there is no memory to do so now
      have hnot := (h.sorted.tfind_eq_none_iff horders).mp (tsearch_none hsearch)
      rw [h.registered.mem_iff] at hnot
      dsimp only
      rw [Streams.fclose_eq _ hopened]
      refine ⟨_, rfl, h.closed hopened ?_ h.sorted h.ids_nodup⟩
      rw [List.erase_of_not_mem hnot]
      exact h.registered
    | some slot =>
      obtain ⟨hslot, hids, hsorted, hkeys⟩ := h.sorted.tsearch_some h.ids_nodup horders hsearch
      have hmem : stream ∈ tree.keys := by
        rcases hkeys with ⟨hmem, heq⟩ | ⟨_, hperm⟩
        . exact heq ▸ hmem
        . simp [hperm.mem_iff]
      have horders' : Orders (streamCmp diff) (stream :: tree.keys) := by
        apply horders.mono
        intro x hx
        rcases hkeys with ⟨_, heq⟩ | ⟨_, hperm⟩
        . exact heq ▸ hx
        . simpa [hperm.mem_iff] using hx
      have herase : (tree.keys.erase stream).Perm (s.live.erase stream) := by
        rcases hkeys with ⟨_, heq⟩ | ⟨hnot, hperm⟩
        . exact heq ▸ h.registered.erase stream
        . rw [h.registered.mem_iff] at hnot
          rw [List.erase_of_not_mem hnot]
          have := hperm.erase stream
          rw [List.erase_cons_head] at this
          exact this.trans h.registered
      obtain ⟨freed, tree', hdelete, hids', hsorted', hperm⟩ :=
        hsorted.tdelete env.bal hids horders' hmem
      dsimp only
      rw [if_pos hslot, hdelete]
      dsimp only
      rw [Streams.fclose_eq { s.streams with streamTree := tree' } hopened]
      exact ⟨_, rfl, h.closed hopened (hperm.trans herase) hsorted' hids'⟩

/-! `_fcloseall`. -/

theorem run_fcloseTwalk (env : Choices) (t : SearchTree Addr) (streams : Streams)
    : run (fun s v => fcloseTwalk env v.2 v.1 s) streams t.twalk
        = run (fun s a => fcloseTwalk env a .leaf s) streams t.preorder := by
  apply run_twalk
  . intro s v a hv
    cases v with
    | preorder | leaf => rfl
    | postorder | endorder => simp [Visit.first] at hv
  . intro s v a hv
    cases v with
    | preorder | leaf => simp [Visit.first] at hv
    | postorder | endorder => rfl

/--
The first thing that is closed is not a stream: it is what `stream_tree` points to.
-/
theorem dosixFcloseall_undefined {streams : Streams} (hroot : env.root ∉ streams.opened)
    : dosixFcloseall env streams = .error .undefined := by
  unfold dosixFcloseall
  cases env.links with
  | none => rfl
  | some links =>
    dsimp only
    rw [run_fcloseTwalk, preorder_misrooted]
    have hclose : fcloseTwalk env env.root .leaf { streams with streamCloseCount := 0 }
        = .error .undefined := by
      unfold fcloseTwalk Streams.fclose
      rw [if_neg (by simp), if_neg hroot]
    rw [run, hclose]

theorem not_closesAll {streams : Streams} (hroot : env.root ∉ streams.opened)
    : ¬ ClosesAll env streams := by
  intro ⟨ret, s', closed, hcall, _⟩
  rw [dosixFcloseall_undefined hroot] at hcall
  simp at hcall

theorem Inv.step (h : Inv diff s) {call : Call} (hvalid : Valid s call)
    (hordered : Ordered diff s call) (hone : ClosesOne call)
    : ∃ s', step diff s call = .ok s' ∧ Inv diff s' := by
  obtain ⟨op, env⟩ := call
  cases op with
  | fopen => exact h.fopen hvalid hordered
  | fclose stream => exact h.fclose hvalid hordered
  | fcloseall => exact absurd rfl hone

theorem Inv.kept_iff (h : Inv diff s) {call : Call} (hvalid : Valid s call)
    (hordered : Ordered diff s call)
    : Kept diff s call ↔ ClosesOne call := by
  constructor
  . intro ⟨_, hcloses⟩ hop
    obtain ⟨op, env⟩ := call
    subst hop
    exact not_closesAll hvalid (hcloses rfl)
  . intro hone
    obtain ⟨s', hs', hinv⟩ := h.step hvalid hordered hone
    exact ⟨⟨s', hs', hinv.exact⟩, fun hop => absurd hop hone⟩

theorem inv_init (diff : Addr → Addr → BitVec 64) {others : List Addr} (hnodup : others.Nodup)
    : Inv diff { streams := { opened := others } } where
  registered := .refl _
  sorted := .nil
  ids_nodup := List.nodup_nil
  live_nodup := List.nodup_nil
  opened := by simp
  opened_nodup := hnodup
  tracks := ⟨fun _ _ _ _ h => by simp at h, fun _ _ _ h => by simp at h⟩

theorem always_kept_iff (h : Inv diff s) {calls : List Call}
    (hvalid : Always (step diff) Valid s calls) (hordered : Always (step diff) (Ordered diff) s calls)
    : Always (step diff) (Kept diff) s calls ↔ ∀ call ∈ calls, ClosesOne call := by
  induction calls generalizing s with
  | nil => simp [Always]
  | cons call calls ih =>
    obtain ⟨hvalid, hvalids⟩ := hvalid
    obtain ⟨hordered, hordereds⟩ := hordered
    unfold Always
    rw [h.kept_iff hvalid hordered, List.forall_mem_cons]
    apply and_congr_right
    intro hone
    obtain ⟨s', hs', hinv⟩ := h.step hvalid hordered hone
    rw [hs'] at hvalids hordereds ⊢
    exact ih hinv hvalids hordereds

/--
`others` are the streams that the program starts with.
-/
theorem streams_kept_iff (diff : Addr → Addr → BitVec 64) {others : List Addr}
    (hnodup : others.Nodup) {calls : List Call}
    (hvalid : Always (step diff) Valid { streams := { opened := others } } calls)
    (hordered : Always (step diff) (Ordered diff) { streams := { opened := others } } calls)
    : Always (step diff) (Kept diff) { streams := { opened := others } } calls
        ↔ ∀ call ∈ calls, ClosesOne call :=
  always_kept_iff (inv_init diff hnodup) hvalid hordered

/-! Where the difference is the quotient of the distance and the size of a stream. -/

theorem streamCmp_quotient (size : Nat)
    : streamCmp (quotient size) = fun a b => Circular.cmp (2 ^ 31) size a.toNat b.toNat := by
  funext a b
  unfold streamCmp quotient Circular.cmp
  rw [BitVec.toInt_setWidth, BitVec.toNat_ofInt, Int.bmod_def, Int.bmod_def]
  split <;> omega

theorem orders_streamCmp_iff {size : Nat} {streams : List Addr}
    : Orders (streamCmp (quotient size)) streams
        ↔ Orders (Circular.cmp (2 ^ 31) size) (streams.map fun a => (a.toNat : Int)) := by
  rw [streamCmp_quotient, orders_map_iff]
  intro a _ b _ h
  exact BitVec.eq_of_toNat_eq (Int.ofNat_inj.mp h)

/--
Streams that do not overlap, and of which there would be room for less than `2 ^ 31` between any
two, are in the order of their addresses.
-/
theorem streamCmp_orders {size : Nat} {streams : List Addr} (hsize : 0 < size)
    (h : ∀ a ∈ streams, ∀ b ∈ streams, a.toNat < b.toNat →
      a.toNat + size ≤ b.toNat ∧ b.toNat < a.toNat + size * 2 ^ 31)
    : Orders (streamCmp (quotient size)) streams := by
  rw [orders_streamCmp_iff]
  apply Circular.orders_of_near (by decide) hsize
  simp only [List.forall_mem_map]
  intro b hb a ha hlt
  obtain ⟨hle, hnear⟩ := h a ha b hb (Int.ofNat_lt.mp hlt)
  omega

def openAndClose : List Call :=
  [⟨.fopen, { stream := 0x7c0 }⟩, ⟨.fopen, { stream := 0x460 }⟩, ⟨.fclose 0x7c0, {}⟩,
    ⟨.fclose 0x100, {}⟩, ⟨.fopen, { stream := 0x7c0 }⟩]

theorem streams_kept_iff_openAndClose
    : Always (step (quotient 216)) (Kept (quotient 216)) { streams := { opened := [0x100] } }
        openAndClose := by
  have hvalid : Always (step (quotient 216)) Valid { streams := { opened := [0x100] } }
      openAndClose := by
    decide
  exact (streams_kept_iff (quotient 216) (by decide) hvalid (by decide)).mpr (by decide)

/--
One stream, in a tree whose root is at `0x5000`, and nothing behind the variable.
-/
theorem not_kept_fcloseall
    : Always (step (quotient 216)) (fun s call => Valid s call ∧ Ordered (quotient 216) s call) {}
          [⟨.fopen, { stream := 0x1000 }⟩,
            ⟨.fcloseall, { root := 0x5000, links := some (.leaf, .leaf) }⟩]
      ∧ errorOf (run (step (quotient 216)) {}
          [⟨.fopen, { stream := 0x1000 }⟩,
            ⟨.fcloseall, { root := 0x5000, links := some (.leaf, .leaf) }⟩]) = some .undefined
      ∧ ¬ Always (step (quotient 216)) (Kept (quotient 216)) {}
          [⟨.fopen, { stream := 0x1000 }⟩,
            ⟨.fcloseall, { root := 0x5000, links := some (.leaf, .leaf) }⟩] := by
  refine ⟨by decide, by decide, ?_⟩
  have hinv : Inv (quotient 216) {} := inv_init (quotient 216) List.nodup_nil
  rw [always_kept_iff hinv (by decide) (by decide)]
  decide

end Stdio
end Dosix
