import LibBun.Proof.Accounting
import LibBun.Proof.Layout

/-!
# Counts and sizes in fields that may be too narrow

Two numbers are cut when they are stored. The register count of a frame is a `size_t`
and has sixteen bits in the stream; the size in the header has thirty-two, and what is
added to it is a `size_t` again. Neither cut is looked at, by the estimate or later.

The header therefore holds the sum of what was returned modulo `2 ^ 32`, always, and the
stream the count modulo `2 ^ 16`, unless the count was left out. From these two facts
`sizes_exact_iff` reads off, call by call, when nothing is lost.
-/

namespace LibBun

variable {h : Host}

/-- The offset of the writer's cursor. -/
def Ledger.offset (l : Ledger) : Nat :=
  (l.state.writer.data.cursor - l.state.writer.data.buffer).toNat

/-- If the call returns a size, the count it stores and the size it declares are exact. -/
def SizesExact (h : Host) (l : Ledger) (f : BunFrame) : Prop :=
  (bunFrameWrite h l.state f).1 ≠ 0 →
    (Region.load (l.step h f).state.mem.bytes (countAt h l.offset f) 2).map LittleEndian.decode
        = some f.registerCount
      ∧ HeaderField.size.get (l.step h f).state.mem.bytes 0 = headerSize + (l.step h f).total

/-- What the call adds to the size, in terms of the frame. -/
def estimate (h : Host) (f : BunFrame) : Nat :=
  (effectiveLength h f.symbolLength f.symbol + effectiveLength h f.filenameLength f.filename
    + 10 + 2 * h.sizeofSizeT + registerSize * f.registerCount) % h.sizeMod

/--
Nothing is lost: the frame is refused or counts for nothing; or its registers can be
counted in sixteen bits, the count is not left out for want of room, and the sum so far
and the frame stay below 4 GiB.
-/
def WidthsSuffice (h : Host) (l : Ledger) (f : BunFrame) : Prop :=
  writerAvailable h l.state.writer < estimate h f ∨ estimate h f = 0 ∨
    (f.registerCount < 2 ^ 16 ∧ countAt h l.offset f + 2 ≤ l.state.writer.data.size
      ∧ headerSize + l.total + estimate h f < 2 ^ 32)

theorem wouldWrite_eq_estimate (h : Host) (f : BunFrame) : wouldWrite h f = estimate h f := by
  have hmul : f.registerCount * registerSize = registerSize * f.registerCount := Nat.mul_comm ..
  rw [wouldWrite, h.toSizeT_natCast, estimate, hmul]
  congr 1
  omega

/-- The header has the sum of the returned values, cut to its width. -/
structure Ledger.Tallied (h : Host) (l : Ledger) : Prop where
  at_ : ∃ off, WriterAt h l.state off
  size : HeaderField.size.get l.state.mem.bytes 0 = (headerSize + l.total) % 2 ^ 32

variable {l : Ledger}

theorem Ledger.step_of_accepted {f : BunFrame}
    (hacc : ¬writerAvailable h l.state.writer < wouldWrite h f) :
    (bunFrameWrite h l.state f).1 = wouldWrite h f
      ∧ (l.step h f).state = frameStep h l.state f
      ∧ (l.step h f).total = l.total + wouldWrite h f := by
  have hret : (bunFrameWrite h l.state f).1 = wouldWrite h f := by
    rw [bunFrameWrite_eq, if_neg hacc]
  exact ⟨hret, rfl, congrArg (l.total + ·) hret⟩

theorem Ledger.Tallied.step (hl : l.Tallied h) (f : BunFrame) : (l.step h f).Tallied h := by
  obtain ⟨⟨off, hat⟩, hsize⟩ := hl
  by_cases hacc : writerAvailable h l.state.writer < wouldWrite h f
  · rw [Ledger.step_of_refused hacc]
    exact ⟨⟨off, hat⟩, hsize⟩
  · obtain ⟨_, hstate, htotal⟩ := Ledger.step_of_accepted hacc
    obtain ⟨off', _, hat'⟩ := hat.frameStep f
    refine ⟨⟨off', hstate ▸ hat'⟩, ?_⟩
    rw [hstate, htotal, size_frameStep hat hacc, hsize, Nat.mod_add_mod, Nat.add_assoc]

/-- The count an accepted call leaves in the stream, if it leaves one. -/
theorem load_count {s : WriterState} {off : Nat} (hs : WriterAt h s off) {f : BunFrame}
    (hacc : ¬writerAvailable h s.writer < wouldWrite h f) :
    (Region.load (frameStep h s f).mem.bytes (countAt h off f) 2).map LittleEndian.decode
        = some f.registerCount
      ↔ f.registerCount < 2 ^ 16 ∧ countAt h off f + 2 ≤ s.mem.bytes.length := by
  have hlen : (frameStep h s f).mem.bytes.length = s.mem.bytes.length := length_bunFrameWrite h s f
  by_cases hfit : countAt h off f + 2 ≤ s.mem.bytes.length
  · -- two bytes are stored, and they hold the count modulo `2 ^ 16`
    have hstart : headerSize ≤ countAt h off f := by
      have := hs.start
      rw [countAt, filenameAt]
      omega
    have hslice := (sameOn_layout hs hacc hfit ((countAt h off f + 2 : Nat) : Int)).slice hstart
      (Int.le_refl _)
    rw [Region.load_of_inside (by omega), ← hslice, layout_count hfit, Option.map_some,
      LittleEndian.decode_encode, Option.some.injEq]
    have := Nat.mod_lt f.registerCount (show 0 < 256 ^ 2 by decide)
    constructor
    · intro heq
      exact ⟨by omega, hfit⟩
    · rintro ⟨hlt, _⟩
      exact Nat.mod_eq_of_lt hlt
  · -- there is no place for the count
    have hnone : Region.load (frameStep h s f).mem.bytes (countAt h off f) 2 = none := by
      rw [Region.load, if_neg (by omega)]
    rw [hnone]
    exact ⟨fun hsome => absurd hsome (by simp), fun hin => absurd hin.2 hfit⟩

/-- **One call.** -/
theorem Ledger.Tallied.sizesExact_iff (hl : l.Tallied h) (f : BunFrame) :
    SizesExact h l f ↔ WidthsSuffice h l f := by
  obtain ⟨⟨off, hat⟩, hsize⟩ := hl
  have hoff : l.offset = off := by
    rw [Ledger.offset, hat.cursor, hat.buffer]
    omega
  rw [SizesExact, WidthsSuffice, ← wouldWrite_eq_estimate, hoff, hat.size]
  by_cases hacc : writerAvailable h l.state.writer < wouldWrite h f
  · have hret : (bunFrameWrite h l.state f).1 = 0 := by rw [bunFrameWrite_eq, if_pos hacc]
    exact ⟨fun _ => Or.inl hacc, fun _ hne => absurd hret hne⟩
  · obtain ⟨hret, hstate, htotal⟩ := Ledger.step_of_accepted hacc
    rw [hret, hstate, htotal, load_count hat hacc, size_frameStep hat hacc, hsize,
      Nat.mod_add_mod]
    have := Nat.mod_lt (headerSize + l.total + wouldWrite h f) (show 0 < 2 ^ 32 by decide)
    -- an estimate that wrapped to nothing returns zero like a refusal
    by_cases hzero : wouldWrite h f = 0
    · exact ⟨fun _ => Or.inr (Or.inl hzero), fun _ hne => absurd hzero hne⟩
    · constructor
      · intro hexact
        obtain ⟨⟨hcount, hfit⟩, hsum⟩ := hexact hzero
        exact Or.inr (Or.inr ⟨hcount, hfit, by omega⟩)
      · rintro (href | hno | ⟨hcount, hfit, hsum⟩) _
        · exact absurd href hacc
        · exact absurd hno hzero
        · exact ⟨⟨hcount, hfit⟩, by rw [Nat.mod_eq_of_lt hsum, Nat.add_assoc]⟩

/--
**Counts and sizes are exact in exactly the runs all of whose calls fit the fields.**
The frames may come with any register counts, and with any lengths besides.
-/
theorem sizes_exact_iff {data : CObject h} {buf buf' : BunBuffer h}
    (hbuf : bunBufferInit data = some buf) {handles : HandleRef → BunHandle} {tid : UInt32}
    {w₀ w : BunWriter} {arch : BunArchitecture} {handle : Option HandleRef}
    (hinit : bunWriterInit handles tid w₀ buf arch handle = (true, w, buf'))
    (frames : List BunFrame) :
    Run.Along (Ledger.step h) (SizesExact h) ⟨⟨w, buf'.memory⟩, 0, true⟩ frames
      ↔ Run.Along (Ledger.step h) (WidthsSuffice h) ⟨⟨w, buf'.memory⟩, 0, true⟩ frames := by
  obtain ⟨hat, _, _, hsize⟩ := bunWriterInit_at (bunBufferInit_size hbuf) hinit
  have hstart : Ledger.Tallied h ⟨⟨w, buf'.memory⟩, 0, true⟩ := ⟨⟨headerSize, hat⟩, hsize⟩
  exact Run.along_congr (Ledger.Tallied h) hstart (fun l f hl => hl.step f)
    fun l f hl => hl.sizesExact_iff f

/-- An empty frame, twice. -/
theorem sizes_exact_two :
    ∃ buf buf' w, bunBufferInit (zeroedObject ⟨.w64, .little⟩ 100 (by decide)) = some buf
      ∧ bunWriterInit (fun _ => ⟨0⟩) 7 unopenedWriter buf .x86_64 none = (true, w, buf')
      ∧ Run.Along (Ledger.step ⟨.w64, .little⟩) (SizesExact ⟨.w64, .little⟩)
        ⟨⟨w, buf'.memory⟩, 0, true⟩ [BunFrame.zero, BunFrame.zero] := by
  have hsetup : ∃ buf buf' w,
      bunBufferInit (zeroedObject ⟨.w64, .little⟩ 100 (by decide)) = some buf
      ∧ bunWriterInit (fun _ => ⟨0⟩) 7 unopenedWriter buf .x86_64 none = (true, w, buf')
      ∧ Run.Along (Ledger.step ⟨.w64, .little⟩) (WidthsSuffice ⟨.w64, .little⟩)
        ⟨⟨w, buf'.memory⟩, 0, true⟩ [BunFrame.zero, BunFrame.zero] := by
    refine ⟨_, _, _, rfl, rfl, Or.inr (Or.inr ⟨by decide, by decide, by decide⟩),
      Or.inr (Or.inr ⟨by decide, by decide, by decide⟩), trivial⟩
  obtain ⟨buf, buf', w, hbuf, hinit, hfits⟩ := hsetup
  exact ⟨buf, buf', w, hbuf, hinit, (sizes_exact_iff hbuf hinit _).mpr hfits⟩

/-- A frame with one register more than sixteen bits can count. -/
def manyRegistersFrame : BunFrame :=
  { BunFrame.zero with
    registerCount := 65536
    registerBufferSize := 655360
    registerData := some ⟨0, List.replicate 655360 0⟩ }

/-- A buffer with room for it. The call returns its size, and what it stores is not the count. -/
theorem count_truncated :
    ∃ buf buf' w, bunBufferInit (zeroedObject ⟨.w64, .little⟩ 700000 (by decide)) = some buf
      ∧ bunWriterInit (fun _ => ⟨0⟩) 7 unopenedWriter buf .x86_64 none = (true, w, buf')
      ∧ (bunFrameWrite ⟨.w64, .little⟩ ⟨w, buf'.memory⟩ manyRegistersFrame).1 = 655386
      ∧ ¬Run.Along (Ledger.step ⟨.w64, .little⟩) (SizesExact ⟨.w64, .little⟩)
        ⟨⟨w, buf'.memory⟩, 0, true⟩ [manyRegistersFrame] := by
  obtain ⟨buf, buf', w, hbuf, hinit, hmem⟩ :=
    exists_session ⟨.w64, .little⟩ (by decide : 700000 < 2 ^ 31) (by decide)
  obtain ⟨hat, _⟩ := bunWriterInit_at (bunBufferInit_size hbuf) hinit
  change buf'.memory.bytes.length = 699984 at hmem
  have hest : wouldWrite ⟨.w64, .little⟩ manyRegistersFrame = 655386 := by rfl
  have hacc : ¬writerAvailable ⟨.w64, .little⟩ w
      < wouldWrite ⟨.w64, .little⟩ manyRegistersFrame := by
    rw [hat.writerAvailable, hat.toSizeT_room hat.head, hest, hmem, headerSize]
    decide
  have hret : (bunFrameWrite ⟨.w64, .little⟩ ⟨w, buf'.memory⟩ manyRegistersFrame).1 = 655386 := by
    rw [bunFrameWrite_eq, if_neg hacc, hest]
  refine ⟨buf, buf', w, hbuf, hinit, hret, fun hexact => ?_⟩
  have hoff : Ledger.offset ⟨⟨w, buf'.memory⟩, 0, true⟩ = headerSize := by
    rw [Ledger.offset, hat.cursor, hat.buffer]
    rfl
  have hcount := (hexact.1 (by rw [hret]; decide)).1
  rw [hoff] at hcount
  exact absurd ((load_count hat hacc).mp hcount).1 (by decide)

end LibBun
