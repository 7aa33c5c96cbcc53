import LibBun.Lib.Run
import LibBun.Proof.Writer

/-!
# Three ways to count

After a call the size of the stream is in three places: the cursor, the size in
the header, and the sum of what the calls returned. The last two are sums of
estimates and always agree. The cursor counts bytes, and a frame that is written
whole has more of those than its estimate says: two more on a 64-bit host, ten
more on a 32-bit one.

So the three agree only as long as no frame is written whole. `ledger_balanced_iff`
is the exact condition: every call is refused, or is one of the two kinds of
ragged call that leave out exactly as much as the estimate does.
-/

namespace LibBun

variable {h : Host}

/-- A writer, and an account of the calls made on it. -/
structure Ledger where
  state : WriterState
  /-- The sum of the values returned. -/
  total : Nat
  /-- Every value returned that was not zero was the advance of the cursor. -/
  exact : Bool

/-- A call, entered into the account. -/
def Ledger.step (h : Host) (l : Ledger) (f : BunFrame) : Ledger :=
  let (n, s) := bunFrameWrite h l.state f
  { state := s
    total := l.total + n
    exact := l.exact
      && decide (n = 0 ∨ s.writer.data.cursor = l.state.writer.data.cursor + n) }

/-- The three counts agree, and so did every returned value with its advance. -/
structure Ledger.Balanced (l : Ledger) : Prop where
  /-- The header has the offset of the cursor. -/
  size : HeaderField.size.get l.state.mem.bytes 0
    = l.state.writer.data.cursor - l.state.writer.data.buffer
  /-- The offset of the cursor is the header and what was returned. -/
  total : l.state.writer.data.cursor - l.state.writer.data.buffer = headerSize + l.total
  exact : l.exact = true

/--
A call that is counted exactly: it is refused; or, on a 64-bit host, only the two
bytes of a zero count are left out; or, on a 32-bit host, the ten bytes of an
integer and the count are.
-/
def CountsExactly (h : Host) (l : Ledger) (f : BunFrame) : Prop :=
  Refused h l.state.writer f
    ∨ (h.sizeofSizeT = 8 ∧ f.registerCount = 0
      ∧ writerAvailable h l.state.writer < f.encodedLength
      ∧ f.encodedLength ≤ writerAvailable h l.state.writer + 2)
    ∨ (h.sizeofSizeT = 4 ∧ writerAvailable h l.state.writer < 24
      ∧ f.encodedLength ≤ writerAvailable h l.state.writer + 10)

/-- The writer of an account, with its cursor inside a payload of less than 4 GiB. -/
def Ledger.Inside (h : Host) (l : Ledger) : Prop :=
  ∃ off, WriterAt h l.state off ∧ off ≤ l.state.mem.bytes.length
    ∧ l.state.mem.bytes.length < 2 ^ 32

variable {l : Ledger}

theorem Ledger.step_of_refused {f : BunFrame}
    (href : writerAvailable h l.state.writer < wouldWrite h f) : l.step h f = l := by
  rw [step, bunFrameWrite_eq, if_pos href]
  simp

/-- An accepted call is balanced exactly when it emits as many bytes as it returns. -/
theorem Ledger.balanced_step_iff {off : Nat} (hs : WriterAt h l.state off)
    (hle : off ≤ l.state.mem.bytes.length) (hsmall : l.state.mem.bytes.length < 2 ^ 32)
    (hl : l.Balanced) {f : BunFrame}
    (hacc : ¬writerAvailable h l.state.writer < wouldWrite h f) {bs : List UInt8}
    (hemit : Emitted h l.state (frameStep h l.state f) f off bs)
    (hest : wouldWrite h f ≤ l.state.mem.bytes.length - off) :
    (l.step h f).Balanced ↔ bs.length = wouldWrite h f := by
  have hstep : l.step h f =
      { state := frameStep h l.state f
        total := l.total + wouldWrite h f
        exact := l.exact && decide (wouldWrite h f = 0
          ∨ (frameStep h l.state f).writer.data.cursor
            = l.state.writer.data.cursor + wouldWrite h f) } := by
    rw [step, frameStep, bunFrameWrite_eq, if_neg hacc]
  have hcur := hs.cursor
  have hbuf := hs.buffer
  have hcur' := hemit.at_.cursor
  have hbuf' := hemit.at_.buffer
  have hsize' := hemit.size
  have hsize := hl.size
  have htotal := hl.total
  rw [hstep]
  constructor
  · intro hbal
    have := hbal.total
    simp only at this
    omega
  · intro hlen
    refine ⟨?_, ?_, ?_⟩
    · have hlt : HeaderField.size.get l.state.mem.bytes 0 + wouldWrite h f < 2 ^ 32 := by
        have := hs.start
        omega
      rw [Nat.mod_eq_of_lt hlt] at hsize'
      show (HeaderField.size.get (frameStep h l.state f).mem.bytes 0 : Int)
        = (frameStep h l.state f).writer.data.cursor - (frameStep h l.state f).writer.data.buffer
      omega
    · show (frameStep h l.state f).writer.data.cursor - (frameStep h l.state f).writer.data.buffer
        = headerSize + (l.total + wouldWrite h f : Nat)
      omega
    · show (l.exact && decide _) = true
      rw [hl.exact, Bool.true_and, decide_eq_true_iff]
      exact Or.inr (by omega)

/-- **One call** keeps the account balanced exactly when it is counted exactly. -/
theorem Ledger.balanced_step (hin : l.Inside h) (hl : l.Balanced) {f : BunFrame}
    (hf : f.WellFormed h) :
    ((l.step h f).Balanced ↔ CountsExactly h l f)
      ∧ ((l.step h f).Balanced → (l.step h f).Inside h) := by
  obtain ⟨off, hs, hle, hsmall⟩ := hin
  have havail : writerAvailable h l.state.writer = l.state.mem.bytes.length - off := by
    rw [hs.writerAvailable, hs.toSizeT_room hle]
  by_cases hacc : writerAvailable h l.state.writer < wouldWrite h f
  · rw [step_of_refused hacc]
    exact ⟨iff_of_true hl (Or.inl ((refused_iff hf _).mpr hacc)), fun _ => ⟨off, hs, hle, hsmall⟩⟩
  obtain ⟨bs, hemit, hest, hcases⟩ := accepted_cases hs hle hf hacc
  have hbal := balanced_step_iff hs hle hsmall hl hacc hemit hest
  have hlen := hemit.length_bytes
  have hlong : 28 ≤ f.encodedLength := by rw [BunFrame.encodedLength]; omega
  have hword : h.shortfall = 18 - 2 * h.sizeofSizeT := rfl
  have hsizes := h.sizes
  constructor
  · rw [hbal, CountsExactly, refused_iff hf, or_iff_right hacc, havail]
    omega
  · intro hb
    have hbs := hbal.mp hb
    have hst : (l.step h f).state = frameStep h l.state f := rfl
    exact ⟨off + bs.length, hst ▸ hemit.at_, by rw [hst]; omega, by rw [hst]; omega⟩

/--
**The counts agree throughout a run exactly when each of its calls is counted
exactly.** The payload is smaller than 4 GiB, and the frames are any the interface
allows.
-/
theorem ledger_balanced_iff {data : CObject h} {buf buf' : BunBuffer h}
    (hbuf : bunBufferInit data = some buf) {handles : HandleRef → BunHandle} {tid : UInt32}
    {w₀ w : BunWriter} {arch : BunArchitecture} {handle : Option HandleRef}
    (hinit : bunWriterInit handles tid w₀ buf arch handle = (true, w, buf'))
    (hsmall : buf'.payload.length < 2 ^ 32) {frames : List BunFrame}
    (hwf : ∀ f ∈ frames, f.WellFormed h) :
    Run.Throughout (Ledger.step h) Ledger.Balanced ⟨⟨w, buf'.memory⟩, 0, true⟩ frames ↔
      Run.Along (Ledger.step h) (CountsExactly h) ⟨⟨w, buf'.memory⟩, 0, true⟩ frames := by
  obtain ⟨hs, _, _, hsize⟩ := bunWriterInit_at (bunBufferInit_size hbuf) hinit
  have hbal : Ledger.Balanced ⟨⟨w, buf'.memory⟩, 0, true⟩ := by
    have hcur := hs.cursor
    have hb := hs.buffer
    refine ⟨?_, ?_, rfl⟩
    · show (HeaderField.size.get buf'.payload 0 : Int) = w.data.cursor - w.data.buffer
      simp only at hcur hb
      omega
    · show w.data.cursor - w.data.buffer = headerSize + (0 : Nat)
      simp only at hcur hb
      omega
  refine Run.throughout_iff_along (Ledger.Inside h) ⟨_, hs, hs.head, hsmall⟩ hbal hwf ?_ ?_
  · intro l f hin hl hf hb
    exact (Ledger.balanced_step hin hl hf).2 hb
  · intro l f hin hl hf
    exact (Ledger.balanced_step hin hl hf).1

/--
The three ways to be counted exactly: a frame that is refused; on a 64-bit host, one
whose count is left out; on a 32-bit host, one that has lost an integer as well.
-/
theorem ledger_balanced_three :
    (∃ buf buf' w, bunBufferInit (zeroedObject ⟨.w64, .little⟩ 40 (by decide)) = some buf
      ∧ bunWriterInit (fun _ => ⟨0⟩) 7 unopenedWriter buf .x86_64 none = (true, w, buf')
      ∧ Run.Throughout (Ledger.step ⟨.w64, .little⟩) Ledger.Balanced ⟨⟨w, buf'.memory⟩, 0, true⟩
        [mainFrame])
    ∧ (∃ buf buf' w, bunBufferInit (zeroedObject ⟨.w64, .little⟩ 66 (by decide)) = some buf
      ∧ bunWriterInit (fun _ => ⟨0⟩) 7 unopenedWriter buf .x86_64 none = (true, w, buf')
      ∧ Run.Throughout (Ledger.step ⟨.w64, .little⟩) Ledger.Balanced ⟨⟨w, buf'.memory⟩, 0, true⟩
        [BunFrame.zero, mainFrame])
    ∧ ∃ buf buf' w, bunBufferInit (zeroedObject ⟨.w32, .little⟩ 60 (by decide)) = some buf
      ∧ bunWriterInit (fun _ => ⟨0⟩) 7 unopenedWriter buf .x86_64 none = (true, w, buf')
      ∧ Run.Throughout (Ledger.step ⟨.w32, .little⟩) Ledger.Balanced ⟨⟨w, buf'.memory⟩, 0, true⟩
        [BunFrame.zero] := by
  refine ⟨?_, ?_, ?_⟩
  · have hopen : ∃ buf buf' w,
        bunBufferInit (zeroedObject ⟨.w64, .little⟩ 40 (by decide)) = some buf
        ∧ bunWriterInit (fun _ => ⟨0⟩) 7 unopenedWriter buf .x86_64 none = (true, w, buf')
        ∧ buf'.payload.length < 2 ^ 32
        ∧ Refused ⟨.w64, .little⟩ w mainFrame :=
      ⟨_, _, _, rfl, rfl, by decide, by unfold Refused; decide⟩
    obtain ⟨buf, buf', w, hbuf, hinit, hsmall, href⟩ := hopen
    refine ⟨buf, buf', w, hbuf, hinit, (ledger_balanced_iff hbuf hinit hsmall
      fun f hf => ?_).mpr ⟨Or.inl href, trivial⟩⟩
    exact List.mem_singleton.mp hf ▸ mainFrame_wellFormed _
  · have hopen : ∃ buf buf' w,
        bunBufferInit (zeroedObject ⟨.w64, .little⟩ 66 (by decide)) = some buf
        ∧ bunWriterInit (fun _ => ⟨0⟩) 7 unopenedWriter buf .x86_64 none = (true, w, buf')
        ∧ buf'.payload.length < 2 ^ 32
        ∧ writerAvailable ⟨.w64, .little⟩ w = 26
        ∧ Refused ⟨.w64, .little⟩ (frameStep ⟨.w64, .little⟩ ⟨w, buf'.memory⟩
          BunFrame.zero).writer mainFrame :=
      ⟨_, _, _, rfl, rfl, by decide, by decide, by unfold Refused; decide +kernel⟩
    obtain ⟨buf, buf', w, hbuf, hinit, hsmall, hroom, href⟩ := hopen
    have hragged : CountsExactly ⟨.w64, .little⟩ ⟨⟨w, buf'.memory⟩, 0, true⟩ BunFrame.zero := by
      refine Or.inr (Or.inl ⟨rfl, rfl, ?_, ?_⟩) <;> rw [hroom] <;> decide
    refine ⟨buf, buf', w, hbuf, hinit, (ledger_balanced_iff hbuf hinit hsmall ?_).mpr
      ⟨hragged, Or.inl href, trivial⟩⟩
    rintro f (_ | ⟨_, hf⟩)
    · exact BunFrame.zero_wellFormed _
    · exact List.mem_singleton.mp hf ▸ mainFrame_wellFormed _
  · have hopen : ∃ buf buf' w,
        bunBufferInit (zeroedObject ⟨.w32, .little⟩ 60 (by decide)) = some buf
        ∧ bunWriterInit (fun _ => ⟨0⟩) 7 unopenedWriter buf .x86_64 none = (true, w, buf')
        ∧ buf'.payload.length < 2 ^ 32
        ∧ writerAvailable ⟨.w32, .little⟩ w = 20 := ⟨_, _, _, rfl, rfl, by decide, by decide⟩
    obtain ⟨buf, buf', w, hbuf, hinit, hsmall, hroom⟩ := hopen
    have hragged : CountsExactly ⟨.w32, .little⟩ ⟨⟨w, buf'.memory⟩, 0, true⟩ BunFrame.zero := by
      refine Or.inr (Or.inr ⟨rfl, ?_, ?_⟩) <;> rw [hroom] <;> decide
    refine ⟨buf, buf', w, hbuf, hinit, (ledger_balanced_iff hbuf hinit hsmall
      fun f hf => ?_).mpr ⟨hragged, trivial⟩⟩
    exact List.mem_singleton.mp hf ▸ BunFrame.zero_wellFormed _

/-- One empty frame in ample room: 28 bytes are written, 26 are returned and counted. -/
theorem ledger_unbalanced :
    ∃ buf buf' w, bunBufferInit (zeroedObject ⟨.w64, .little⟩ 100 (by decide)) = some buf
      ∧ bunWriterInit (fun _ => ⟨0⟩) 7 unopenedWriter buf .x86_64 none = (true, w, buf')
      ∧ BunFrame.zero.WellFormed ⟨.w64, .little⟩
      ∧ (bunFrameWrite ⟨.w64, .little⟩ ⟨w, buf'.memory⟩ BunFrame.zero).1 = 26
      ∧ (bunFrameWrite ⟨.w64, .little⟩ ⟨w, buf'.memory⟩ BunFrame.zero).2.writer.data.cursor = 52
      ∧ HeaderField.size.get
          (bunFrameWrite ⟨.w64, .little⟩ ⟨w, buf'.memory⟩ BunFrame.zero).2.mem.bytes 0 = 50
      ∧ ¬Run.Throughout (Ledger.step ⟨.w64, .little⟩) Ledger.Balanced
          ⟨⟨w, buf'.memory⟩, 0, true⟩ [BunFrame.zero] := by
  refine ⟨_, _, _, rfl, rfl, BunFrame.zero_wellFormed _, rfl, rfl, rfl, fun hrun => ?_⟩
  exact absurd hrun.2.exact (by decide)

end LibBun
