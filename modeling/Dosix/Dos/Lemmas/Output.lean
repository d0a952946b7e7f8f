import Dosix.Dos.Lemmas.ExtErrSet
import Mathlib.Data.List.Perm.Basic

/-!
This module contains what the console functions send to the standard output, at once or through the
buffer of the C library. No byte is sent twice, none is lost but from the buffer when it cannot be
emptied, and the order is that of the calls as long as no byte is written past others that wait in the
buffer.
-/

namespace Dosix

open Transition

variable {σ : Type}

/--
What the kernel and the C library do to the bytes that are in the file and in the buffer. The buffer
is emptied when the library likes. If that fails, what was in it may be lost.
-/
structure OutputContract (px : Posix σ) (written pending : σ → List (BitVec 8)) : Prop where
  write : ∀ {c os os'}, px.writeByte STDOUT_FILENO c os = (.ok (), os') →
    written os' = written os ++ [c] ∧ pending os' = pending os
  write_error : ∀ {c e os os'}, px.writeByte STDOUT_FILENO c os = (.error e, os') →
    written os' = written os ∧ pending os' = pending os
  write_text : ∀ {c r os os'}, px.writeByte STDOUT_FILENO c os = (r, os') →
    px.text os' = px.text os
  putchar : ∀ {c os os'}, px.putchar c os = (.ok (), os') →
    written os' ++ pending os' = written os ++ pending os ++ [c]
  putchar_error : ∀ {c e os os'}, px.putchar c os = (.error e, os') →
    (written os' ++ pending os').Sublist (written os ++ pending os)
  putchar_written : ∀ {c r os os'}, px.putchar c os = (r, os') → written os <+: written os'
  putchar_text : ∀ {c r os os'}, px.putchar c os = (r, os') → px.text os' = px.text os

/-! The calls. -/

inductive OutputOp where
  | putch (c : BitVec 32)
  | cputs (string : List (BitVec 8))
  | cprintf (string : Option (List (BitVec 8)))
  | int21 (cpu : Cpu)

namespace OutputOp

def Valid (op : OutputOp) : Prop :=
  match op with
  | .int21 cpu => cpu.ah = INT21_AH_PUTCH ∨ cpu.ah = INT21_AH_WRITE_STDOUT
  | _ => True

/--
The call does not go through the buffer.
-/
def Direct (op : OutputOp) : Prop :=
  match op with
  | .int21 cpu => cpu.ah = INT21_AH_PUTCH
  | _ => True

def call (px : Posix σ) (op : OutputOp) (s : Dos σ) : Except Fault (BitVec 32 × Dos σ) :=
  match op with
  | .putch c => .ok (dosixPutch px c s)
  | .cputs string => .ok (dosixCputs px string s)
  | .cprintf string => .ok (dosixCprintf px string s)
  | .int21 cpu => (int21MainDosApi px cpu s).map fun r => (r.1.al.setWidth 32, r.2)

end OutputOp

/--
What `_cputs` and `_cprintf` send of a string: nothing follows a byte that reads as `EOF`.
-/
structure Cut (string sent : List (BitVec 8)) : Prop where
  first : sent <+: string
  last : 0xff ∉ sent.dropLast

/--
What a call returns about what it has sent. AH=09h does not tell whether it has sent the whole string.
-/
def OutputOp.Reports (text : Addr → List (BitVec 8)) (op : OutputOp) (ret : BitVec 32)
    (sent : List (BitVec 8)) : Prop :=
  match op with
  | .putch c => sent = [c.setWidth 8] ∧ ret = c ∨ sent = [] ∧ ret = EOF
  | .cputs string =>
    Cut string sent ∧ (ret = 0 ∧ sent = string ∧ 0xff ∉ string
      ∨ ret = -1 ∧ ¬(sent = string ∧ 0xff ∉ string))
  | .cprintf string =>
    Cut (string.getD []) sent ∧ ret = .ofNat 32 (sent.filter (· ≠ 0xff)).length
  | .int21 cpu =>
    if cpu.ah = INT21_AH_PUTCH then
      sent = [cpu.dl] ∧ ret = cpu.dl.setWidth 32 ∨ sent = [] ∧ ret = 0xff
    else
      sent <+: text (MK_FP cpu.ds cpu.dx) ∧ ret = 0x24

/--
The call has not met with a buffer that could not be emptied: then AH=09h stops short.
-/
def OutputOp.Whole (text : Addr → List (BitVec 8)) (op : OutputOp) (sent : List (BitVec 8)) : Prop :=
  match op with
  | .int21 cpu => cpu.ah = INT21_AH_PUTCH ∨ sent = text (MK_FP cpu.ds cpu.dx)
  | _ => True

theorem signExtend_eq_EOF_iff (c : BitVec 8) : c.signExtend 32 = EOF ↔ c = 0xff := by
  revert c
  decide +kernel

section

variable {px : Posix σ} {written pending : σ → List (BitVec 8)} {s s' s'' : Dos σ}
  {sent sent' : List (BitVec 8)}

/--
The bytes are in the file, and nothing is in the buffer that was not there.
-/
structure SentAtOnce (px : Posix σ) (written pending : σ → List (BitVec 8)) (s : Dos σ)
    (sent : List (BitVec 8)) (s' : Dos σ) : Prop where
  written : written s'.os = written s.os ++ sent
  pending : pending s'.os = pending s.os
  text : px.text s'.os = px.text s.os

theorem SentAtOnce.nil (s : Dos σ) : SentAtOnce px written pending s [] s where
  written := (List.append_nil _).symm
  pending := rfl
  text := rfl

theorem SentAtOnce.append (h : SentAtOnce px written pending s sent s')
    (h' : SentAtOnce px written pending s' sent' s'')
    : SentAtOnce px written pending s (sent ++ sent') s'' where
  written := by rw [h'.written, h.written, List.append_assoc]
  pending := h'.pending.trans h.pending
  text := h'.text.trans h.text

variable (hpx : OutputContract px written pending)

include hpx

theorem putch_writes (c : BitVec 32) (s : Dos σ)
    : SentAtOnce px written pending s [c.setWidth 8] (dosixPutch px c s).2
          ∧ (dosixPutch px c s).1 = c
        ∨ SentAtOnce px written pending s [] (dosixPutch px c s).2
          ∧ (dosixPutch px c s).1 = EOF := by
  unfold dosixPutch
  cases hcall : s.call (px.writeByte STDOUT_FILENO (c.setWidth 8)) with
  | mk r s' =>
    cases r with
    | none =>
      obtain ⟨e, os, hos, rfl⟩ := Dos.call_none hcall
      obtain ⟨hwritten, hpending⟩ := hpx.write_error hos
      right
      refine ⟨⟨?_, hpending, hpx.write_text hos⟩, rfl⟩
      rw [List.append_nil]
      exact hwritten
    | some _ =>
      obtain ⟨os, hos, rfl⟩ := Dos.call_some hcall
      obtain ⟨hwritten, hpending⟩ := hpx.write hos
      left
      exact ⟨⟨hwritten, hpending, hpx.write_text hos⟩, rfl⟩

/--
What the loop has sent when it ends, and what it knows of it.
-/
structure Put (string sent : List (BitVec 8)) (count : Nat) (stopped : Bool) : Prop where
  cut : Cut string sent
  count : count = (sent.filter (· ≠ 0xff)).length
  stopped : stopped = false ↔ sent = string ∧ 0xff ∉ string

omit hpx in
theorem put_nil : Put [] [] 0 false where
  cut := ⟨List.prefix_refl [], List.not_mem_nil⟩
  count := rfl
  stopped := by simp

omit hpx in
theorem put_failed (c : BitVec 8) (string : List (BitVec 8)) : Put (c :: string) [] 0 true where
  cut := ⟨List.nil_prefix, List.not_mem_nil⟩
  count := rfl
  stopped := by simp

omit hpx in
theorem put_EOF (string : List (BitVec 8)) : Put (0xff :: string) [0xff] 0 true where
  cut := ⟨List.cons_prefix_cons.mpr ⟨rfl, List.nil_prefix⟩, List.not_mem_nil⟩
  count := rfl
  stopped := by simp

omit hpx in
theorem Put.cons {c : BitVec 8} {string : List (BitVec 8)} {count : Nat} {stopped : Bool}
    (h : Put string sent count stopped) (hc : c ≠ 0xff)
    : Put (c :: string) (c :: sent) (count + 1) stopped where
  cut := by
    refine ⟨List.cons_prefix_cons.mpr ⟨rfl, h.cut.first⟩, ?_⟩
    cases sent with
    | nil => exact List.not_mem_nil
    | cons d sent =>
      rw [List.dropLast_cons_cons, List.mem_cons, not_or]
      exact ⟨Ne.symm hc, h.cut.last⟩
  count := by
    rw [List.filter_cons_of_pos (by simpa using hc), List.length_cons, h.count]
  stopped := by
    rw [h.stopped, List.cons.injEq, List.mem_cons, not_or]
    constructor
    . rintro ⟨rfl, hnot⟩
      exact ⟨⟨rfl, rfl⟩, Ne.symm hc, hnot⟩
    . rintro ⟨⟨-, rfl⟩, -, hnot⟩
      exact ⟨rfl, hnot⟩

theorem putchLoop_writes (string : List (BitVec 8)) (s : Dos σ)
    : ∃ sent count stopped s', putchLoop px string s = (count, stopped, s')
        ∧ SentAtOnce px written pending s sent s' ∧ Put string sent count stopped := by
  induction string generalizing s with
  | nil => exact ⟨[], 0, false, s, rfl, .nil s, put_nil⟩
  | cons c string ih =>
    have hputch := putch_writes hpx (c.signExtend 32) s
    unfold putchLoop
    cases hcall : dosixPutch px (c.signExtend 32) s with
    | mk ret s₁ =>
      rw [hcall, ExtErr.setWidth_signExtend (by decide)] at hputch
      dsimp only at hputch ⊢
      obtain ⟨hwrites, rfl⟩ | ⟨hwrites, rfl⟩ := hputch
      . by_cases hc : c = 0xff
        . subst hc
          exact ⟨[0xff], 0, true, s₁, rfl, hwrites, put_EOF string⟩
        . obtain ⟨sent, count, stopped, s', hloop, hwrites', hput⟩ := ih s₁
          rw [if_neg (mt (signExtend_eq_EOF_iff c).mp hc), hloop]
          exact ⟨c :: sent, count + 1, stopped, s', rfl, hwrites.append hwrites', hput.cons hc⟩
      . rw [if_pos rfl]
        exact ⟨[], 0, true, s₁, rfl, hwrites, put_failed c string⟩

/-! What has become of the bytes. -/

/--
Of `before`, nothing is there twice, all is there if nothing has been lost, and it is in its order if
nothing has been put before something else.
-/
structure Kept (whole ordered : Prop) (before after : List (BitVec 8)) : Prop where
  subperm : after.Subperm before
  perm : whole → after.Perm before
  sublist : ordered → after.Sublist before

omit hpx in
theorem Kept.of_sublist {whole ordered : Prop} {before after : List (BitVec 8)}
    (h : after.Sublist before) (heq : whole → after = before) : Kept whole ordered before after where
  subperm := h.subperm
  perm hwhole := .of_eq (heq hwhole)
  sublist _ := h

omit hpx in
theorem Kept.append {whole whole' ordered ordered' : Prop}
    {before middle after more : List (BitVec 8)} (h : Kept whole ordered before middle)
    (h' : Kept whole' ordered' (middle ++ more) after)
    : Kept (whole ∧ whole') (ordered ∧ ordered') (before ++ more) after where
  subperm := h'.subperm.trans ((List.subperm_append_right more).mpr h.subperm)
  perm hwhole := (h'.perm hwhole.2).trans ((h.perm hwhole.1).append_right more)
  sublist hordered := (h'.sublist hordered.2).trans ((h.sublist hordered.1).append_right more)

/-! AH=09h. -/

theorem writeStdout_sends (string : List (BitVec 8)) (s : Dos σ)
    : ∃ sent s', writeStdout px string s = (0x24, s') ∧ sent <+: string
        ∧ Kept (sent = string) True (written s.os ++ pending s.os ++ sent)
          (written s'.os ++ pending s'.os)
        ∧ written s.os <+: written s'.os ∧ px.text s'.os = px.text s.os := by
  induction string generalizing s with
  | nil =>
    refine ⟨[], s, rfl, List.prefix_refl [], ?_, List.prefix_refl _, rfl⟩
    rw [List.append_nil]
    exact .of_sublist (.refl _) fun _ => rfl
  | cons c string ih =>
    unfold writeStdout
    cases hcall : s.call (px.putchar c) with
    | mk r s₁ =>
      cases r with
      | none =>
        obtain ⟨e, os, hos, rfl⟩ := Dos.call_none hcall
        refine ⟨[], _, rfl, List.nil_prefix, ?_, hpx.putchar_written hos, hpx.putchar_text hos⟩
        rw [List.append_nil]
        exact .of_sublist (hpx.putchar_error hos) fun hwhole => nomatch hwhole
      | some _ =>
        obtain ⟨os, hos, rfl⟩ := Dos.call_some hcall
        obtain ⟨sent, s', hloop, hfirst, hkept, hgrows, htext⟩ := ih (s.setOs os)
        refine ⟨c :: sent, s', hloop, List.cons_prefix_cons.mpr ⟨rfl, hfirst⟩, ?_,
          (hpx.putchar_written hos).trans hgrows, ?_⟩
        . rw [Dos.setOs_os, hpx.putchar hos, List.append_assoc _ [c]] at hkept
          rw [List.cons.injEq, eq_self_iff_true, true_and]
          exact hkept
        . rw [htext]
          exact hpx.putchar_text hos

/-! One call. -/

/--
What has been sent is in the file or in the buffer, and it is in its place if a direct call finds the
buffer empty.
-/
structure Sends (px : Posix σ) (written pending : σ → List (BitVec 8)) (whole direct : Prop)
    (s : Dos σ) (sent : List (BitVec 8)) (s' : Dos σ) : Prop where
  kept : Kept whole (direct → pending s.os = []) (written s.os ++ pending s.os ++ sent)
    (written s'.os ++ pending s'.os)
  grows : written s.os <+: written s'.os
  text : px.text s'.os = px.text s.os

omit hpx in
theorem SentAtOnce.sends (h : SentAtOnce px written pending s sent s') (whole : Prop)
    : Sends px written pending whole True s sent s' where
  kept := by
    have hperm : (written s'.os ++ pending s'.os).Perm (written s.os ++ pending s.os ++ sent) := by
      rw [h.written, h.pending, List.append_assoc, List.append_assoc]
      exact List.perm_append_comm.append_left _
    refine ⟨hperm.subperm, fun _ => hperm, fun hdirect => ?_⟩
    rw [h.written, h.pending, hdirect trivial, List.append_nil, List.append_nil]
  grows := h.written ▸ List.prefix_append _ _
  text := h.text

theorem int21_putch {cpu : Cpu} (hah : cpu.ah = INT21_AH_PUTCH) (s : Dos σ)
    : ∃ ret s' sent, (OutputOp.int21 cpu).call px s = .ok (ret, s')
        ∧ (sent = [cpu.dl] ∧ ret = cpu.dl.setWidth 32 ∨ sent = [] ∧ ret = 0xff)
        ∧ SentAtOnce px written pending s sent s' := by
  have hcall : int21MainDosApi px cpu s
      = .ok ({ cpu with ax := setLow cpu.ax ((dosixPutch px (cpu.dl.setWidth 32) s).1.setWidth 8) },
        (dosixPutch px (cpu.dl.setWidth 32) s).2) := by
    unfold int21MainDosApi int21Service
    rw [hah]
    change cpuPutch px cpu s = _
    unfold cpuPutch
    rw [assertThat_of hah]
    rfl
  have hdl : (cpu.dl.setWidth 32).setWidth 8 = cpu.dl := by
    rw [BitVec.setWidth_setWidth_of_le _ (by decide), BitVec.setWidth_eq]
  have hputch := putch_writes hpx (cpu.dl.setWidth 32) s
  rw [hdl] at hputch
  unfold OutputOp.call
  dsimp only
  rw [hcall]
  unfold Except.map Cpu.al
  dsimp only
  rw [lowByte_setLow]
  obtain ⟨hwrites, hret⟩ | ⟨hwrites, hret⟩ := hputch
  . refine ⟨_, _, [cpu.dl], rfl, .inl ⟨rfl, ?_⟩, hwrites⟩
    rw [hret, hdl]
  . refine ⟨_, _, [], rfl, .inr ⟨rfl, ?_⟩, hwrites⟩
    rw [hret]
    rfl

theorem int21_writeStdout {cpu : Cpu} (hah : cpu.ah = INT21_AH_WRITE_STDOUT) (s : Dos σ)
    : ∃ s' sent, (OutputOp.int21 cpu).call px s = .ok (0x24, s')
        ∧ sent <+: px.text s.os (MK_FP cpu.ds cpu.dx)
        ∧ Sends px written pending (sent = px.text s.os (MK_FP cpu.ds cpu.dx)) False s sent s' := by
  obtain ⟨sent, s', hloop, hfirst, hkept, hgrows, htext⟩ :=
    writeStdout_sends hpx (px.text s.os (MK_FP cpu.ds cpu.dx)) s
  have hcall : int21MainDosApi px cpu s = .ok ({ cpu with ax := 0x24 }, s') := by
    unfold int21MainDosApi int21Service
    rw [hah]
    change cpuWriteStdout px cpu s = _
    unfold cpuWriteStdout
    rw [assertThat_of hah]
    dsimp only [bind, Except.bind]
    rw [hloop]
    rfl
  refine ⟨s', sent, ?_, hfirst, ?_, hgrows, htext⟩
  case refine_2 => exact ⟨hkept.subperm, hkept.perm, fun _ => hkept.sublist trivial⟩
  unfold OutputOp.call
  dsimp only
  rw [hcall]
  rfl

theorem call_sends {op : OutputOp} (hop : op.Valid) (s : Dos σ)
    : ∃ ret s' sent, op.call px s = .ok (ret, s') ∧ op.Reports (px.text s.os) ret sent
        ∧ Sends px written pending (op.Whole (px.text s.os) sent) op.Direct s sent s' := by
  cases op with
  | putch c =>
    obtain ⟨hwrites, hret⟩ | ⟨hwrites, hret⟩ := putch_writes hpx c s
    . exact ⟨_, _, _, rfl, .inl ⟨rfl, hret⟩, hwrites.sends _⟩
    . exact ⟨_, _, _, rfl, .inr ⟨rfl, hret⟩, hwrites.sends _⟩
  | cputs string =>
    obtain ⟨sent, count, stopped, s', hloop, hwrites, hput⟩ := putchLoop_writes hpx string s
    refine ⟨if stopped then -1 else 0, s', sent, ?_, ⟨hput.cut, ?_⟩, hwrites.sends _⟩
    . unfold OutputOp.call dosixCputs
      dsimp only
      rw [hloop]
    . have hstopped := hput.stopped
      cases stopped with
      | false => exact .inl ⟨rfl, hstopped.mp rfl⟩
      | true => exact .inr ⟨rfl, fun h => Bool.noConfusion (hstopped.mpr h)⟩
  | cprintf string =>
    cases string with
    | none =>
      have hcut : Cut [] [] := ⟨List.prefix_refl [], List.not_mem_nil⟩
      exact ⟨_, _, [], rfl, ⟨hcut, rfl⟩, (SentAtOnce.nil s).sends _⟩
    | some string =>
      obtain ⟨sent, count, stopped, s', hloop, hwrites, hput⟩ := putchLoop_writes hpx string s
      refine ⟨.ofNat 32 count, s', sent, ?_, ⟨hput.cut, by rw [hput.count]⟩, hwrites.sends _⟩
      unfold OutputOp.call dosixCprintf
      dsimp only
      rw [hloop]
  | int21 cpu =>
    unfold OutputOp.Reports OutputOp.Direct OutputOp.Whole
    dsimp only
    obtain hah | hah := hop
    . obtain ⟨ret, s', sent, hcall, hret, hwrites⟩ := int21_putch hpx hah s
      refine ⟨ret, s', sent, hcall, ?_, ?_⟩
      . rwa [if_pos hah]
      . rw [eq_true hah]
        exact hwrites.sends _
    . obtain ⟨s', sent, hcall, hfirst, hsends⟩ := int21_writeStdout hpx hah s
      have hne : cpu.ah ≠ INT21_AH_PUTCH := by
        rw [hah]
        decide
      refine ⟨0x24, s', sent, hcall, ?_, ?_⟩
      . rw [if_neg hne]
        exact ⟨hfirst, rfl⟩
      . rw [eq_false hne, false_or]
        exact hsends

/-! Runs. -/

/--
A call with what it has returned and sent.
-/
structure Sent where
  op : OutputOp
  returned : BitVec 32
  sent : List (BitVec 8)

/--
A call of a program that keeps what is returned to it.
-/
def OutputOp.step (px : Posix σ) (r : List (BitVec 32) × Dos σ) (op : OutputOp)
    : Except Fault (List (BitVec 32) × Dos σ) :=
  (op.call px r.2).map fun r' => (r.1 ++ [r'.1], r'.2)

def Sent.Whole (text : Addr → List (BitVec 8)) (e : Sent) : Prop :=
  e.op.Whole text e.sent

end

/-! A standard output with a buffer of two bytes for a file that is full. -/

def fullFile : Posix (List (BitVec 8) × List (BitVec 8)) where
  __ := (default : Posix (List (BitVec 8) × List (BitVec 8)))
  text := fun _ _ => [0x68, 0x69]
  writeByte := fun _ c os => (.ok (), os.1 ++ [c], os.2)
  putchar := fun c os =>
    if os.2.length < 2 then (.ok (), os.1, os.2 ++ [c]) else (.error .ENOSPC, os.1, [])

theorem fullFile_contract : OutputContract fullFile Prod.fst Prod.snd where
  write := by
    rintro c os os' h
    obtain rfl := (Prod.mk.inj h).2
    exact ⟨rfl, rfl⟩
  write_error := by
    rintro c e os os' h
    cases (Prod.mk.inj h).1
  write_text := fun _ => rfl
  putchar := by
    rintro c os os' h
    unfold fullFile at h
    dsimp only at h
    split at h
    . obtain rfl := (Prod.mk.inj h).2
      exact (List.append_assoc _ _ _).symm
    . cases (Prod.mk.inj h).1
  putchar_error := by
    rintro c e os os' h
    unfold fullFile at h
    dsimp only at h
    split at h
    . cases (Prod.mk.inj h).1
    . obtain rfl := (Prod.mk.inj h).2
      rw [List.append_nil]
      exact List.sublist_append_left _ _
  putchar_written := by
    rintro c r os os' h
    unfold fullFile at h
    dsimp only at h
    split at h
    . obtain rfl := (Prod.mk.inj h).2
      exact List.prefix_refl _
    . obtain rfl := (Prod.mk.inj h).2
      exact List.prefix_refl _
  putchar_text := fun _ => rfl

/--
`_cputs` of `"a\xffb"`, AH=09h twice and `_putch` of `'c'`.
-/
def mixedOutput : List OutputOp :=
  [.cputs [0x61, 0xff, 0x62], .int21 { ax := 0x0900 }, .int21 { ax := 0x0900 }, .putch 0x63]

end Dosix
