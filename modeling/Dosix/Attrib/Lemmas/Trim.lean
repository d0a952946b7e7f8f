import Dosix.Attrib.Impl.ListFile
import Dosix.Trim.Basic

/-!
This module contains the trimming of a line: `trimsq` finds the text between the blanks and the
quotes around it, looks at no other character, and writes only the NUL that ends it.
-/

namespace Dosix
namespace Attrib

open Trim

/-! The loops. -/

theorem load_eq (line : Traced) {i : Nat} (h : i < line.buf.length)
    : line.load i = .ok (line.buf[i], { line with reads := i :: line.reads }) := by
  unfold Traced.load
  rw [List.getElem?_eq_getElem h]

theorem store_eq {line : Traced} {i : Nat} (c : Char) (h : i < line.buf.length)
    : line.store i c
        = .ok ⟨line.buf.set i c, line.reads, (i, c) :: line.writes⟩ := by
  unfold Traced.store
  rw [if_pos h]

/--
The first loop has either met no character that is not blank, or stopped at the last one.
-/
theorem trailing_spec (line : Traced) {n : Nat} (hn : n < line.buf.length)
    : (trim isBlank (line.buf.take n) = []
        ∧ ∃ reads, (∀ i ∈ reads, i < n)
          ∧ trailing 0 n line
            = .ok (none, ⟨line.buf.set 0 NUL, reads ++ line.reads, (0, NUL) :: line.writes⟩))
      ∨ ∃ e, ∃ h : e < n, isBlank line.buf[e] = false
        ∧ trim isBlank (line.buf.take n) = (line.buf.take (e + 1)).dropWhile isBlank
        ∧ ∃ reads, (∀ i ∈ reads, i < n)
          ∧ trailing 0 n line = .ok (some e, { line with reads := reads ++ line.reads }) := by
  induction n generalizing line with
  | zero =>
    refine .inl ⟨by simp, [], by simp, ?_⟩
    unfold trailing
    rw [if_pos rfl, store_eq NUL hn]
    rfl
  | succ n ih =>
    have hn' : n < line.buf.length := Nat.lt_of_succ_lt hn
    have htake : line.buf.take (n + 1) = line.buf.take n ++ [line.buf[n]] :=
      (List.take_append_getElem hn').symm
    have hstep : trailing 0 (n + 1) line
        = if isBlank line.buf[n] then trailing 0 n { line with reads := n :: line.reads }
          else .ok (some n, { line with reads := n :: line.reads }) := by
      rw [trailing, if_neg (Nat.succ_ne_zero n)]
      dsimp only
      rw [load_eq line hn']
      rfl
    rw [hstep]
    cases hblank : isBlank line.buf[n] with
    | true =>
      rw [if_pos rfl, htake, trim_concat_blank _ hblank]
      have hreads {reads : List Nat} (h : ∀ i ∈ reads, i < n)
          : ∀ i ∈ reads ++ [n], i < n + 1 := by
        intro i hi
        rcases List.mem_append.mp hi with hi | hi
        . exact Nat.lt_succ_of_lt (h i hi)
        . exact List.mem_singleton.mp hi ▸ Nat.lt_succ_self n
      rcases ih { line with reads := n :: line.reads } hn' with
        ⟨htrim, reads, hlt, hrun⟩ | ⟨e, he, hnonblank, htrim, reads, hlt, hrun⟩
      . refine .inl ⟨htrim, reads ++ [n], hreads hlt, ?_⟩
        rw [hrun, List.append_assoc]
        rfl
      . refine .inr ⟨e, Nat.lt_succ_of_lt he, hnonblank, htrim, reads ++ [n], hreads hlt, ?_⟩
        rw [hrun, List.append_assoc]
        rfl
    | false =>
      refine .inr ⟨n, Nat.lt_succ_self n, hblank, ?_, [n], by simp, rfl⟩
      rw [htake]
      exact trim_concat _ hblank

theorem drop_take {buf : Buffer} {p e : Nat} (hp : p < buf.length) (hpe : p ≤ e)
    : (buf.take (e + 1)).drop p = buf[p] :: (buf.take (e + 1)).drop (p + 1) := by
  have hp' : p < (buf.take (e + 1)).length := by
    rw [List.length_take]
    omega
  rw [List.drop_eq_getElem_cons hp', List.getElem_take]

theorem leading_stop {line : Traced} {p : Nat} (hp : p < line.buf.length)
    (hblank : isBlank line.buf[p] = false) (left : Nat)
    : leading left p line = .ok (p, { line with reads := p :: line.reads }) := by
  unfold leading
  rw [load_eq line hp]
  simp only [bind, Except.bind, hblank]
  rfl

theorem leading_next {line : Traced} {p : Nat} (hp : p < line.buf.length)
    (hblank : isBlank line.buf[p] = true) (left : Nat)
    : leading (left + 1) p line = leading left (p + 1) { line with reads := p :: line.reads } := by
  rw [leading, load_eq line hp]
  simp only [bind, Except.bind, hblank]
  rfl

theorem leading_spec (line : Traced) {p e : Nat} (left : Nat) (hpe : p ≤ e) (he : e < line.buf.length)
    (hnonblank : isBlank line.buf[e] = false) (hleft : e ≤ p + left)
    : ∃ q, p ≤ q ∧ q ≤ e
        ∧ (line.buf.take (e + 1)).drop q = ((line.buf.take (e + 1)).drop p).dropWhile isBlank
        ∧ ∃ reads, (∀ i ∈ reads, i ≤ e)
          ∧ leading left p line = .ok (q, { line with reads := reads ++ line.reads }) := by
  induction left generalizing line p with
  | zero =>
    obtain rfl : p = e := by omega
    refine ⟨p, le_refl p, le_refl p, ?_, [p], by simp, leading_stop he hnonblank 0⟩
    rw [drop_take he hpe, List.dropWhile_cons_of_neg (by simp [hnonblank])]
  | succ left ih =>
    have hp : p < line.buf.length := Nat.lt_of_le_of_lt hpe he
    cases hblank : isBlank line.buf[p] with
    | false =>
      refine ⟨p, le_refl p, hpe, ?_, [p], by simpa using hpe, leading_stop hp hblank _⟩
      rw [drop_take hp hpe, List.dropWhile_cons_of_neg (by simp [hblank])]
    | true =>
      have hne : p ≠ e := by
        rintro rfl
        rw [hblank] at hnonblank
        cases hnonblank
      obtain ⟨q, hpq, hqe, hdrop, reads, hreads, hrun⟩ :=
        ih { line with reads := p :: line.reads } (show p + 1 ≤ e by omega) he hnonblank (by omega)
      refine ⟨q, Nat.le_of_succ_le hpq, hqe, ?_, reads ++ [p], ?_, ?_⟩
      . rw [hdrop, drop_take hp hpe, List.dropWhile_cons_of_pos hblank]
      . intro i hi
        rcases List.mem_append.mp hi with hi | hi
        . exact hreads i hi
        . exact List.mem_singleton.mp hi ▸ hpe
      . rw [leading_next hp hblank, hrun, List.append_assoc]
        rfl

/--
The text from `p` to `pend`, and the one between the quotes if it has a pair of them.
-/
theorem quotes_spec (line : Traced) {p pend : Nat} (hp : p ≤ pend) (hpend : pend < line.buf.length)
    : ∃ q qend, q ≤ qend + 1 ∧ qend ≤ pend
        ∧ (line.buf.take (qend + 1)).drop q
          = unquote '"' ((line.buf.take (pend + 1)).drop p)
        ∧ ∃ reads, (∀ i ∈ reads, i ≤ pend)
          ∧ quotes p pend line = .ok ((q, qend), { line with reads := reads ++ line.reads }) := by
  have hplt : p < line.buf.length := Nat.lt_of_le_of_lt hp hpend
  have hlength : ((line.buf.take (pend + 1)).drop p).length = pend + 1 - p := by
    rw [List.length_drop, List.length_take]
    omega
  have hhead : ((line.buf.take (pend + 1)).drop p).head? = some line.buf[p] := by
    rw [drop_take hplt hp]
    rfl
  have hlast : ((line.buf.take (pend + 1)).drop p).getLast? = some line.buf[pend] := by
    rw [List.getLast?_eq_getElem?, hlength, List.getElem?_drop, List.getElem?_take_of_lt (by omega),
      show p + (pend + 1 - p - 1) = pend by omega, List.getElem?_eq_getElem hpend]
  have hquoted : IsQuoted '"' ((line.buf.take (pend + 1)).drop p)
      ↔ p < pend ∧ line.buf[p] = '"' ∧ line.buf[pend] = '"' := by
    unfold IsQuoted
    rw [hlength, hhead, hlast, Option.some.injEq, Option.some.injEq]
    have : 2 ≤ pend + 1 - p ↔ p < pend := by omega
    rw [this]
  have hkeep (h : ¬ IsQuoted '"' ((line.buf.take (pend + 1)).drop p))
      : (line.buf.take (pend + 1)).drop p = unquote '"' ((line.buf.take (pend + 1)).drop p) :=
    (if_neg h).symm
  unfold quotes
  by_cases hlt : p < pend
  . rw [if_pos hlt, load_eq line hplt]
    dsimp only [bind, Except.bind]
    by_cases hopen : line.buf[p] = '"'
    . rw [if_pos hopen, load_eq ⟨line.buf, p :: line.reads, line.writes⟩ hpend]
      dsimp only
      have hreads : ∀ i ∈ [pend, p], i ≤ pend := by
        intro i hi
        simp only [List.mem_cons, List.not_mem_nil, or_false] at hi
        omega
      by_cases hclose : line.buf[pend] = '"'
      . rw [if_pos hclose]
        refine ⟨p + 1, pend - 1, by omega, by omega, ?_, [pend, p], hreads, rfl⟩
        unfold unquote
        rw [if_pos (hquoted.mpr ⟨hlt, hopen, hclose⟩), show pend - 1 + 1 = pend by omega,
          List.tail_drop, List.dropLast_eq_take, List.length_drop, List.length_take,
          List.take_drop, List.take_take]
        congr 2
        omega
      . rw [if_neg hclose]
        exact ⟨p, pend, by omega, le_refl _, hkeep fun h => hclose (hquoted.mp h).2.2, [pend, p],
          hreads, rfl⟩
    . rw [if_neg hopen]
      exact ⟨p, pend, by omega, le_refl _, hkeep fun h => hopen (hquoted.mp h).2.1, [p], by
        simpa using hp, rfl⟩
  . rw [if_neg hlt]
    exact ⟨p, pend, by omega, le_refl _, hkeep fun h => hlt (hquoted.mp h).1, [], by simp, rfl⟩

/-! The line. -/

theorem trimsq_spec {line : Buffer} {n : Nat} (hn : n < line.length)
    : ∃ p pend reads, trimsq 0 n { buf := line }
          = .ok (p, ⟨line.set pend NUL, reads, [(pend, NUL)]⟩)
        ∧ p ≤ pend ∧ pend ≤ n ∧ (∀ i ∈ reads, i < n)
        ∧ (line.take pend).drop p = unquote '"' (trim isBlank (line.take n)) := by
  unfold trimsq
  rcases trailing_spec { buf := line } hn with
    ⟨htrim, reads, hreads, hrun⟩ | ⟨e, he, hnonblank, htrim, reads, hreads, hrun⟩
  . rw [hrun]
    refine ⟨0, 0, reads ++ [], rfl, le_refl 0, Nat.zero_le n, by simpa using hreads, ?_⟩
    dsimp only at htrim
    rw [htrim]
    rfl
  . have hlength : e < line.length := Nat.lt_trans he hn
    rw [hrun]
    dsimp only [bind, Except.bind]
    obtain ⟨q, -, hqe, hdrop, reads', hreads', hrun'⟩ :=
      leading_spec ⟨line, reads ++ [], []⟩ (line.length - 0) (Nat.zero_le e) hlength hnonblank
        (by omega)
    rw [hrun']
    dsimp only
    obtain ⟨p, pend, hp, hpend, htext, reads'', hreads'', hrun''⟩ :=
      quotes_spec ⟨line, reads' ++ (reads ++ []), []⟩ hqe hlength
    rw [hrun'']
    dsimp only
    rw [store_eq NUL (show pend + 1 < line.length by omega)]
    refine ⟨p, pend + 1, _, rfl, hp, by omega, ?_, ?_⟩
    . intro i hi
      simp only [List.append_nil, List.mem_append] at hi
      rcases hi with hi | hi | hi
      . exact Nat.lt_of_le_of_lt (hreads'' i hi) he
      . exact Nat.lt_of_le_of_lt (hreads' i hi) he
      . exact hreads i hi
    . dsimp only at htrim hdrop htext
      rw [htext, hdrop, List.drop_zero, htrim]

/--
The line holds `n` characters. The text is the one between the index that `trimsq` returns and the
NUL that it writes.
-/
theorem trimsq_trims {line : Buffer} {n : Nat} (hline : line.length = PATHLEN) (hn : n < PATHLEN)
    : ∃ p pend reads, trimsq 0 n { buf := line }
          = .ok (p, ⟨line.set pend NUL, reads, [(pend, NUL)]⟩)
        ∧ p ≤ pend ∧ pend ≤ n ∧ (∀ i ∈ reads, i < n)
        ∧ (line.take pend).drop p = unquote '"' (trim isBlank (line.take n)) :=
  trimsq_spec (hline ▸ hn)

def quotedLine : Buffer := ['\t', ' ', '"', 'A', ' ', 'B', '"', ' '] ++ List.replicate 252 NUL

theorem trimsq_trims_quotedLine
    : ∃ p pend reads, trimsq 0 8 { buf := quotedLine }
          = .ok (p, ⟨quotedLine.set pend NUL, reads, [(pend, NUL)]⟩)
        ∧ p ≤ pend ∧ pend ≤ 8 ∧ (∀ i ∈ reads, i < 8)
        ∧ (quotedLine.take pend).drop p = ['A', ' ', 'B'] := by
  have hlength : quotedLine.length = PATHLEN := by
    rw [quotedLine, List.length_append, List.length_replicate]
    rfl
  obtain ⟨p, pend, reads, hrun, hp, hpend, hreads, htext⟩ :=
    trimsq_trims hlength (show 8 < PATHLEN by decide)
  exact ⟨p, pend, reads, hrun, hp, hpend, hreads, htext.trans (by decide)⟩

end Attrib
end Dosix
