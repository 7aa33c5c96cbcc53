import LibBun.Proof.Crash
import LibBun.Proof.Refused
import LibBun.Proof.RoundTrip
import LibBun.Proof.Shown

/-!
# Writing until a call returns 0

Each backend has a loop of its own, and all of them come to the same: frames are
written one after the other until `bun_frame_write` returns 0. `writeUntil` is that
loop. What is said of it here is what the end of a session needs: the records in the
payload are the first of the frames, whole and in order, whether the loop got to its
end or not.

A frame may have been accepted without room for it. From then on the stream is broken,
and whatever the loop still writes is behind the break.
-/

namespace LibBun

variable {h : Host}

/-- Frames written until a call returns 0; false if one did. -/
def writeUntil (h : Host) : WriterState → List BunFrame → Bool × WriterState
  | s, [] => (true, s)
  | s, frame :: frames =>
      let (written, s) := bunFrameWrite h s frame
      if written = 0 then (false, s) else writeUntil h s frames

theorem writeUntil_cons (s : WriterState) (f : BunFrame) (fs : List BunFrame) :
    writeUntil h s (f :: fs) =
      if (bunFrameWrite h s f).1 = 0 then (false, frameStep h s f)
      else writeUntil h (frameStep h s f) fs := rfl

theorem length_writeUntil (s : WriterState) (frames : List BunFrame) :
    (writeUntil h s frames).2.mem.bytes.length = s.mem.bytes.length := by
  induction frames generalizing s with
  | nil => rfl
  | cons f fs ih =>
      have hlen := length_bunFrameWrite h s f
      rw [writeUntil_cons]
      split
      · exact hlen
      · exact (ih (frameStep h s f)).trans hlen

/-! ## Behind a break -/

section

variable {s : WriterState} {rs : List Record} {off : Nat}

/-- One more frame leaves a broken stream broken where it was. -/
theorem Broken.frameStep (hb : Broken h s rs off) (f : BunFrame) :
    ∃ off', Broken h (frameStep h s f) rs off' := by
  obtain ⟨off', hle, hat⟩ := hb.at_.frameStep f
  have hstart : headerSize ≤ streamEnd rs := Nat.le_add_right _ _
  have hkept : Region.SameOn headerSize off s.mem.bytes (LibBun.frameStep h s f).mem.bytes :=
    sameOn_writeFrames_front hb.at_ [f]
  refine ⟨off', hat, hb.past.trans hle, ?_, ?_, ?_⟩
  · rw [HeaderField.get_of_sameOn (sameOn_frameStep hb.at_ f) (Nat.zero_le _)
      (Int.ofNat_le.mpr (by decide)) (by decide) hb.at_.head]
    exact hb.magic
  · exact hkept.drop_append hb.stream (Int.ofNat_le.mpr hb.past)
  · intro m hm
    have hfirst := hkept.mono hstart (Int.le_refl _)
    exact hb.broken m (hfirst.trans (hm.mono (Nat.le_refl _) (Int.ofNat_le.mpr hle)))

theorem Broken.writeUntil (hb : Broken h s rs off) (frames : List BunFrame) :
    ∃ off', Broken h (writeUntil h s frames).2 rs off' := by
  induction frames generalizing s off with
  | nil => exact ⟨off, hb⟩
  | cons f fs ih =>
      obtain ⟨off', hb'⟩ := hb.frameStep f
      rw [writeUntil_cons]
      split
      · exact ⟨off', hb'⟩
      · exact ih hb'

/-- What is there of a broken stream can be read. -/
theorem Broken.readable_self (hb : Broken h s rs off) : Readable h s.mem.bytes rs := by
  have hnone : ∀ st ∈ ([] : List ByteStore), Spares off st :=
    fun _ hst => absurd hst List.not_mem_nil
  exact hb.readable hnone

/-! ## The loop -/

/-- A frame that fits is not the last. -/
theorem Live.written_ne_zero (hl : Live h s rs) {f : BunFrame} (hf : f.WellFormed h)
    (hfit : streamEnd rs + f.encodedLength ≤ s.mem.bytes.length) :
    (bunFrameWrite h s f).1 ≠ 0 := by
  obtain ⟨hacc, hest, _⟩ := emitted_of_fits hl.at_ hf hfit
  have hlong : 28 ≤ f.encodedLength := by rw [BunFrame.encodedLength]; omega
  have hshort : h.shortfall ≤ 18 := Nat.sub_le _ _
  rw [bunFrameWrite_eq, if_neg hacc]
  show wouldWrite h f ≠ 0
  omega

/-- **However the loop ends, the first of the frames can be read**, whole and in order. -/
theorem Live.readable_writeUntil (hl : Live h s rs) {frames : List BunFrame}
    (hwf : ∀ f ∈ frames, f.WellFormed h) :
    ∃ new, Readable h (LibBun.writeUntil h s frames).2.mem.bytes (rs ++ new)
      ∧ new.map (Record.content h) <+: frames.map (BunFrame.content h) := by
  induction frames generalizing s rs with
  | nil =>
      refine ⟨[], ?_, List.nil_prefix⟩
      rw [List.append_nil]
      exact hl.readable (Region.SameOn.refl 0 (streamEnd rs) _) (Int.le_refl _)
  | cons f fs ih =>
      have hf := hwf f (List.mem_cons_self ..)
      have hfs : ∀ g ∈ fs, g.WellFormed h := fun g hg => hwf g (List.mem_cons_of_mem _ hg)
      rw [writeUntil_cons]
      by_cases hacc : writerAvailable h s.writer < wouldWrite h f
      · -- turned away by the estimate, which ends the loop
        have hzero : (bunFrameWrite h s f).1 = 0 := by rw [bunFrameWrite_eq, if_pos hacc]
        rw [if_pos hzero, frameStep_of_refused hacc]
        refine ⟨[], ?_, List.nil_prefix⟩
        rw [List.append_nil]
        exact hl.readable (Region.SameOn.refl 0 (streamEnd rs) _) (Int.le_refl _)
      · by_cases hfit : streamEnd rs + f.encodedLength ≤ s.mem.bytes.length
        · rw [if_neg (hl.written_ne_zero hf hfit)]
          obtain ⟨new, hread, hnew⟩ := ih (hl.frameStep hf hfit) hfs
          refine ⟨f.record hf :: new, ?_, ?_⟩
          · rw [List.append_assoc] at hread
            exact hread
          · rw [List.map_cons, List.map_cons, f.content_record hf]
            exact (List.prefix_cons_inj _).mpr hnew
        · -- accepted without room for it
          obtain ⟨off, hb⟩ := broken_of_ragged hl hf hacc hfit
          refine ⟨[], ?_, List.nil_prefix⟩
          rw [List.append_nil]
          split
          · exact hb.readable_self
          · obtain ⟨off', hb'⟩ := hb.writeUntil fs
            exact hb'.readable_self

/-- **Frames that all fit are all written.** -/
theorem Live.writeUntil_of_fits (hl : Live h s rs) {frames : List BunFrame}
    (hwf : ∀ f ∈ frames, f.WellFormed h)
    (hfit : streamEnd rs + totalLength frames ≤ s.mem.bytes.length) :
    LibBun.writeUntil h s frames = (true, (writeFrames h s frames).2) := by
  induction frames generalizing s rs with
  | nil => rfl
  | cons f fs ih =>
      have hf := hwf f (List.mem_cons_self ..)
      have htotal : totalLength (f :: fs) = f.encodedLength + totalLength fs := rfl
      have hend : streamEnd (rs ++ [f.record hf]) = streamEnd rs + f.encodedLength := by
        rw [streamEnd_append, f.length_record hf]
      have hlen := (sameOn_frameStep hl.at_ f).1
      have hfirst : streamEnd rs + f.encodedLength ≤ s.mem.bytes.length := by omega
      rw [writeUntil_cons, if_neg (hl.written_ne_zero hf hfirst),
        ih (hl.frameStep hf hfirst) (fun g hg => hwf g (List.mem_cons_of_mem _ hg)) (by omega)]
      rfl

end

end LibBun
