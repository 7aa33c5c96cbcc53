import LibBun.Proof.Stream

/-!
# What a frame that was read is made of

`bun_frame_read` sets six fields of the structure it is given in every frame, and two
more, the register block and its size, in a frame that has registers. The two lengths
it never sets. What it leaves alone is there afterwards, and a caller who goes on to
write the frame, or to append a register to it, works with it.

So a frame that was read is determined by the stream only as far as the structures it
was read into agreed to begin with, and `frame_determined_iff` says in which fields.
-/

namespace LibBun

variable {h : Host} {mem : List UInt8} {r : BunReader} {off : Nat}

/-- The structures agree in every field that reading the record does not set. -/
structure AgreeBeside (rec : Record) (f g : BunFrame) : Prop where
  symbolLength : f.symbolLength = g.symbolLength
  filenameLength : f.filenameLength = g.filenameLength
  registers : rec.registers.1.1 = 0 →
    f.registerBufferSize = g.registerBufferSize ∧ f.registerData = g.registerData

/-- Those fields decide whether the results agree. -/
theorem deliver_eq_iff {rec : Record} {f g : BunFrame} :
    deliver h mem off f rec = deliver h mem off g rec ↔ AgreeBeside rec f g := by
  unfold deliver
  simp only [BunFrame.mk.injEq, true_and]
  by_cases hpos : 0 < rec.registers.1.1
  · simp only [if_pos hpos, and_true]
    exact ⟨fun ⟨hs, hf⟩ => ⟨hs, hf, fun hzero => absurd hzero (by omega)⟩,
      fun hagree => ⟨hagree.symbolLength, hagree.filenameLength⟩⟩
  · simp only [if_neg hpos]
    constructor
    · rintro ⟨hs, hf, hregs⟩
      exact ⟨hs, hf, fun _ => hregs⟩
    · intro hagree
      exact ⟨hagree.symbolLength, hagree.filenameLength, hagree.registers (by omega)⟩

/-- A call that returns true on one structure does the same on the other. -/
def Determined (h : Host) (mem : List UInt8) (r : BunReader) (f g : BunFrame) : Prop :=
  ∀ r' f', bunFrameRead h mem r f = some (true, r', f') →
    bunFrameRead h mem r g = some (true, r', f')

/--
**A frame that was read is determined by the stream exactly as far as the structures
agreed before.** The reader may be anywhere in any payload; what it is given are two
structures of any content.
-/
theorem frame_determined_iff (hr : ReaderAt h mem r off) (hhead : headerSize ≤ mem.length)
    (f g : BunFrame) :
    Determined h mem r f g ↔ ∀ rec, Follows h mem r off rec → AgreeBeside rec f g := by
  constructor
  · intro hdet rec hrec
    have hg := hdet _ _ (hrec.read hr hhead f)
    rw [hrec.read hr hhead g] at hg
    simp only [Option.some.injEq, Prod.mk.injEq, true_and] at hg
    exact deliver_eq_iff.mp hg.symm
  · intro hagree r' f' hcall
    obtain ⟨rec, hrec, rfl, rfl⟩ := follows_of_read hr hhead hcall
    rw [hrec.read hr hhead g, deliver_eq_iff.mpr (hagree rec hrec)]

/-- Two structures that differ only in what is overwritten. -/
theorem frame_determined_oneFrame :
    ReaderAt ⟨.w64, .little⟩ (oneFrameBuffer ⟨.w64, .little⟩ 52 7).payload (openedReader 52) 24
      ∧ Determined ⟨.w64, .little⟩ (oneFrameBuffer ⟨.w64, .little⟩ 52 7).payload (openedReader 52)
        BunFrame.zero { BunFrame.zero with addr := 3, lineNo := 5, registerCount := 9 } := by
  have hr : ReaderAt ⟨.w64, .little⟩ (oneFrameBuffer ⟨.w64, .little⟩ 52 7).payload
      (openedReader 52) 24 := ⟨rfl, rfl, rfl, by decide, by decide⟩
  exact ⟨hr, (frame_determined_iff hr (by decide) _ _).mpr fun _ _ =>
    ⟨rfl, rfl, fun _ => ⟨rfl, rfl⟩⟩⟩

/--
A structure that held a longer frame with a register. The frame that is read has
neither, and still comes with the lengths of the old one and with its register buffer,
to which another register is appended.
-/
theorem frame_not_determined :
    let stale : BunFrame := { BunFrame.zero with
      symbolLength := 5
      filenameLength := 3
      registerBufferSize := 10
      registerData := some ⟨100, List.replicate 10 0⟩ }
    bunReaderInit unopenedReader (oneFrameBuffer ⟨.w64, .little⟩ 52 7) none
        = some (true, openedReader 52)
      ∧ ¬Determined ⟨.w64, .little⟩ (oneFrameBuffer ⟨.w64, .little⟩ 52 7).payload
        (openedReader 52) BunFrame.zero stale
      ∧ ∃ r' f', bunFrameRead ⟨.w64, .little⟩ (oneFrameBuffer ⟨.w64, .little⟩ 52 7).payload
          (openedReader 52) stale = some (true, r', f')
        ∧ f'.symbolLength = 5 ∧ f'.registerCount = 0
        ∧ (bunFrameRegisterAppend ⟨.w64, .little⟩ f' 1 2).1 = true := by
  refine ⟨rfl, fun hdet => ?_, _, _, rfl, rfl, rfl, rfl⟩
  exact absurd (hdet _ _ rfl) (by decide)

end LibBun
