import LibBun.Proof.Stream

/-!
# A reader on any input

A reader is opened on a payload of arbitrary bytes and `bun_frame_read` is called
any number of times. The bytes decide everything, and they may have been written
by an enemy: the size in the header, both string lengths, the register count.

The invariant of such a run is short. While every call so far has returned true,
the reader stands at an offset that has grown by at least twenty-eight bytes a
call, and the overflow flag is clear. Once a call has returned false the reader
is **stuck**: the flag is set or the walk has ended, no call moves it any more,
and every later call returns false.
-/

namespace LibBun

/-- The calls made on a reader so far: what each returned, and the reader now. -/
inductive ReaderRun (h : Host) (mem : List UInt8) (r₀ : BunReader) :
    List Bool → BunReader → Prop where
  | start : ReaderRun h mem r₀ [] r₀
  /-- One more call, into a structure with any content. -/
  | call {bs : List Bool} {r r' : BunReader} {b : Bool} {f f' : BunFrame} :
      ReaderRun h mem r₀ bs r → bunFrameRead h mem r f = some (b, r', f') →
      ReaderRun h mem r₀ (bs ++ [b]) r'

/-- No further call will return true. -/
def Stuck (h : Host) (mem : List UInt8) (r : BunReader) (off : Nat) : Prop :=
  r.data.overflow = true ∨ Ended h mem (HeaderField.size.get mem 0) off

section

variable {h : Host} {mem : List UInt8} {r : BunReader} {off : Nat}

/-! ## The invariant of a run -/

/-- A stuck reader returns false, stays where it is, and stays stuck. -/
theorem Stuck.call (hs : Stuck h mem r off) (hr : ReaderAt h mem r off)
    (hhead : headerSize ≤ mem.length) (f : BunFrame) :
    ∃ r' f', bunFrameRead h mem r f = some (false, r', f')
      ∧ ReaderAt h mem r' off ∧ Stuck h mem r' off := by
  rcases bunFrameRead_cases hr hhead f with ⟨heq, _⟩ | ⟨f', heq, _⟩ | ⟨rec, rest, hdec, hov, hg, _⟩
  · exact ⟨r, f, heq, hr, hs⟩
  · exact ⟨r.setOverflow, f', heq, hr.setOverflow, Or.inl rfl⟩
  · exfalso
    rcases hs with hs | hs | hs
    · rw [hov] at hs; exact Bool.noConfusion hs
    · rw [hg] at hs; exact Bool.noConfusion hs
    · rw [hdec] at hs; exact absurd hs (by simp)

/-- Where a reader is after calls that returned `bs`. -/
structure RunInv (h : Host) (mem : List UInt8) (bs : List Bool) (r : BunReader) (off : Nat) :
    Prop where
  at_ : ReaderAt h mem r off
  /-- Every frame returned took at least twenty-eight bytes. -/
  progress : headerSize + 28 * bs.count true ≤ off
  /-- As long as no call has failed, none has set the flag. -/
  clear : (∀ b ∈ bs, b = true) → r.data.overflow = false
  /-- After a failure there is nothing more to come. -/
  stuck : (¬∀ b ∈ bs, b = true) → Stuck h mem r off

theorem RunInv.call {bs : List Bool} (hinv : RunInv h mem bs r off)
    (hhead : headerSize ≤ mem.length) {f f' : BunFrame} {b : Bool} {r' : BunReader}
    (hcall : bunFrameRead h mem r f = some (b, r', f')) :
    ∃ off', RunInv h mem (bs ++ [b]) r' off' := by
  have hr := hinv.at_
  have hfalse : (∀ x ∈ bs ++ [false], x = true) → False := fun hall =>
    Bool.noConfusion (hall false (List.mem_append_right _ (List.mem_singleton_self _)))
  have hcount : (bs ++ [false]).count true = bs.count true := by simp
  rcases bunFrameRead_cases hr hhead f with ⟨heq, hend⟩ | ⟨f₁, heq, _⟩ |
    ⟨rec, rest, hdec, hov, _, heq⟩
  · rw [heq] at hcall
    simp only [Option.some.injEq, Prod.mk.injEq] at hcall
    obtain ⟨rfl, rfl, rfl⟩ := hcall
    exact ⟨off, hr, hcount ▸ hinv.progress, fun hall => (hfalse hall).elim,
      fun _ => Or.inr hend⟩
  · rw [heq] at hcall
    simp only [Option.some.injEq, Prod.mk.injEq] at hcall
    obtain ⟨rfl, rfl, rfl⟩ := hcall
    exact ⟨off, hr.setOverflow, hcount ▸ hinv.progress, fun hall => (hfalse hall).elim,
      fun _ => Or.inl rfl⟩
  · rw [heq] at hcall
    simp only [Option.some.injEq, Prod.mk.injEq] at hcall
    obtain ⟨rfl, rfl, rfl⟩ := hcall
    have hfit := Record.end_le (frameCodec.decode_sound hdec)
    have hall : ∀ x ∈ bs, x = true := by
      intro x hx
      by_contra hne
      -- a stuck reader would not have returned true
      have hstuck := hinv.stuck (fun hall => hne (hall x hx))
      obtain ⟨r₂, f₂, heq₂, _⟩ := hstuck.call hr hhead f
      rw [heq] at heq₂
      simp at heq₂
    refine ⟨off + rec.length, hr.advance hfit, ?_, fun _ => hov, fun hne => ?_⟩
    · have hone : (bs ++ [true]).count true = bs.count true + 1 := by simp
      have := hinv.progress
      have := rec.length_ge
      rw [hone]
      omega
    · refine (hne fun x hx => ?_).elim
      rcases List.mem_append.mp hx with hx | hx
      · exact hall x hx
      · exact List.mem_singleton.mp hx

/-- **The invariant holds after every run** from an opened reader. -/
theorem runInv_of_run {bs : List Bool} {r₀ : BunReader} (h₀ : ReaderAt h mem r₀ headerSize)
    (hov : r₀.data.overflow = false) (hrun : ReaderRun h mem r₀ bs r) :
    ∃ off, RunInv h mem bs r off := by
  induction hrun with
  | start =>
      exact ⟨headerSize, h₀, by simp, fun _ => hov, fun hne => (hne (by simp)).elim⟩
  | call _ hcall ih =>
      obtain ⟨off, hinv⟩ := ih
      exact hinv.call h₀.off_le hcall

/-! ## Hostile input -/

/--
**A reader is safe and finite on any bytes.** On a buffer of any size and any
content on which `bun_reader_init` returned true, after any number of calls: the
cursor is between the end of the header and the end of the payload; at most one
call in twenty-eight bytes of payload has returned true; the next call reads
nothing outside the payload, whatever structure it is given, and if it returns
true all that the structure points to is inside. The loop of `bun_reader_print`
therefore ends, and without reading outside the payload.
-/
theorem reader_safe_and_finite (buf : BunBuffer h) (r₀ : BunReader) (handle : Option HandleRef)
    (hinit : bunReaderInit r₀ buf handle = some (true, r)) (bs : List Bool) (r' : BunReader)
    (hrun : ReaderRun h buf.payload r bs r') :
    (r'.data.buffer = 0 ∧ r'.data.size = buf.payload.length
      ∧ headerSize ≤ r'.data.cursor ∧ r'.data.cursor ≤ r'.data.size)
    ∧ bs.count true ≤ (buf.payload.length - headerSize) / 28
    ∧ (∀ f, ∃ b r'' f'', bunFrameRead h buf.payload r' f = some (b, r'', f'')
        ∧ (b = true → f''.InPayload buf.payload))
    ∧ ∀ f, ∃ frames, readFrames h buf.payload
        ((buf.payload.length - headerSize) / 28 + 1) r f = some frames := by
  obtain ⟨h₀, hov, _⟩ := bunReaderInit_at hinit
  obtain ⟨off, hinv⟩ := runInv_of_run h₀ hov hrun
  have hr := hinv.at_
  have hprog := hinv.progress
  have hle := hr.off_le
  refine ⟨⟨hr.buffer, hr.size, ?_, ?_⟩, ?_, fun f => ?_, fun f => ?_⟩
  · rw [hr.cursor]; omega
  · rw [hr.cursor, hr.size]; omega
  · rw [Nat.le_div_iff_mul_le (by decide)]; omega
  · rcases bunFrameRead_cases hr h₀.off_le f with ⟨heq, _⟩ | ⟨f₁, heq, _⟩ |
      ⟨rec, rest, hdec, _, _, heq⟩
    · exact ⟨_, _, _, heq, fun hb => Bool.noConfusion hb⟩
    · exact ⟨_, _, _, heq, fun hb => Bool.noConfusion hb⟩
    · exact ⟨_, _, _, heq, fun _ => deliver_inPayload (frameCodec.decode_sound hdec) f⟩
  · obtain ⟨frames, hframes, _⟩ := readFrames_content h₀ h₀.off_le hov f (Nat.lt_succ_self _)
    exact ⟨frames, hframes⟩

end

/-- After the one frame there is room for no other, and asking again is harmless. -/
theorem reader_safe_and_finite_oneFrame :
    ∃ r, ReaderRun ⟨.w64, .little⟩ (oneFrameBuffer ⟨.w64, .little⟩ 52 7).payload
        (openedReader 52) [true] r
      ∧ r.data.cursor ≤ r.data.size
      ∧ ∀ f, ∃ b r'' f'', bunFrameRead ⟨.w64, .little⟩
          (oneFrameBuffer ⟨.w64, .little⟩ 52 7).payload r f = some (b, r'', f'') := by
  have hinit : bunReaderInit unopenedReader (oneFrameBuffer ⟨.w64, .little⟩ 52 7) none
      = some (true, openedReader 52) := by rfl
  have hcall : bunFrameRead ⟨.w64, .little⟩ (oneFrameBuffer ⟨.w64, .little⟩ 52 7).payload
      (openedReader 52) BunFrame.zero = some (true, (openedReader 52).advance 28,
        { BunFrame.zero with
          lineNo := 7
          symbol := some ⟨48, CString.empty⟩
          filename := some ⟨49, CString.empty⟩ }) := by rfl
  have hrun := ReaderRun.start.call hcall
  obtain ⟨hcur, _, hnext, _⟩ := reader_safe_and_finite (oneFrameBuffer ⟨.w64, .little⟩ 52 7)
    unopenedReader none hinit [true] _ hrun
  refine ⟨_, hrun, hcur.2.2.2, fun f => ?_⟩
  obtain ⟨b, r'', f'', heq, _⟩ := hnext f
  exact ⟨b, r'', f'', heq⟩

end LibBun
