import LibBun.Proof.ReaderRun

/-!
# What a reader accepts

`bunFrameRead_cases` says what one call does in terms of the test
`buffer_available <= 0`, a comparison of a converted difference with zero. Here
the test is read back into a comparison of the offset with the declared size, and
what results is the language of the reader: the bytes it takes for a frame and
the bytes it does not.

On a 64-bit host the test says what it seems to say. On a 32-bit host a
difference above `PTRDIFF_MAX` converts to a negative number, so a header that
declares more than 2 GiB beyond the offset stops the reader at once, and the two
fields of type `size_t` keep the low half of what the stream says.
-/

namespace LibBun

variable {h : Host} {mem : List UInt8} {r : BunReader} {off : Nat}

/-- Whatever is asked of a stuck reader, it answers no. -/
theorem Stuck.run (hs : Stuck h mem r off) (hr : ReaderAt h mem r off)
    (hhead : headerSize ≤ mem.length) {bs : List Bool} {r' : BunReader}
    (hrun : ReaderRun h mem r bs r') :
    (∀ x ∈ bs, x = false) ∧ ReaderAt h mem r' off ∧ Stuck h mem r' off := by
  induction hrun with
  | start => exact ⟨fun x hx => absurd hx (by simp), hr, hs⟩
  | @call bs r₁ r₂ b f f' _ hcall ih =>
      obtain ⟨hall, hr₁, hs₁⟩ := ih
      obtain ⟨r₃, f₃, heq, hr₃, hs₃⟩ := hs₁.call hr₁ hhead f
      rw [heq] at hcall
      simp only [Option.some.injEq, Prod.mk.injEq] at hcall
      obtain ⟨rfl, rfl, rfl⟩ := hcall
      refine ⟨fun x hx => ?_, hr₃, hs₃⟩
      rcases List.mem_append.mp hx with hx | hx
      · exact hall x hx
      · exact List.mem_singleton.mp hx

/-- A frame follows exactly when one can be decoded. -/
theorem decode_isSome_iff_frame (l : List UInt8) :
    frameCodec.decode l ≠ none ↔ ∃ rec, frameCodec.encode rec <+: l := by
  rw [← frameCodec.decode_isSome_iff, Option.isSome_iff_ne_none]

/--
**The reader accepts exactly its grammar.** In every state that calls on an opened
reader lead to, the next call returns true exactly if no call before it failed,
the offset is below the declared size by no more than `PTRDIFF_MAX`, and the rest
of the payload begins with the encoding of a record. It then delivers that record
and steps over its bytes. Otherwise the cursor stays, and so does the answer of
every later call.
-/
theorem bunFrameRead_accepts {buf : BunBuffer h} {r₀ : BunReader} {handle : Option HandleRef}
    (hinit : bunReaderInit r₀ buf handle = some (true, r)) {bs : List Bool} {r' : BunReader}
    (hrun : ReaderRun h buf.payload r bs r') (f : BunFrame) :
    ∃ (off : Nat) (b : Bool) (r'' : BunReader) (f' : BunFrame),
      r'.data.cursor - r'.data.buffer = off
      ∧ bunFrameRead h buf.payload r' f = some (b, r'', f')
      ∧ (b = true ↔ (∀ x ∈ bs, x = true)
          ∧ off < HeaderField.size.get buf.payload 0
          ∧ HeaderField.size.get buf.payload 0 - off ≤ h.ptrdiffMax
          ∧ ∃ rec, frameCodec.encode rec <+: buf.payload.drop off)
      ∧ (∀ rec, b = true → frameCodec.encode rec <+: buf.payload.drop off →
          f' = deliver h buf.payload off f rec ∧ r''.data.cursor = r'.data.cursor + rec.length)
      ∧ (b = false → r''.data.cursor = r'.data.cursor
          ∧ ∀ bs' r₃, ReaderRun h buf.payload r'' bs' r₃ → ∀ x ∈ bs', x = false) := by
  obtain ⟨h₀, hov₀, _⟩ := bunReaderInit_at hinit
  have hhead := h₀.off_le
  obtain ⟨off, hinv⟩ := runInv_of_run h₀ hov₀ hrun
  have hr := hinv.at_
  have hoff : off ≤ h.ptrdiffMax := hr.off_le.trans hr.mem_le
  have hsize : HeaderField.size.get buf.payload 0 < 2 ^ 32 := HeaderField.size.get_lt _ _
  have hcur : r'.data.cursor - r'.data.buffer = off := by rw [hr.cursor, hr.buffer]; omega
  -- a failed call is one the right-hand side does not allow
  have hno : (r'.data.overflow = true ∨ Ended h buf.payload
      (HeaderField.size.get buf.payload 0) off) → ¬((∀ x ∈ bs, x = true)
        ∧ off < HeaderField.size.get buf.payload 0
        ∧ HeaderField.size.get buf.payload 0 - off ≤ h.ptrdiffMax
        ∧ ∃ rec, frameCodec.encode rec <+: buf.payload.drop off) := by
    rintro hbad ⟨hall, hlt, hle, hrec⟩
    rcases hbad with hov | hshut | hnone
    · rw [hinv.clear hall] at hov
      exact Bool.noConfusion hov
    · rw [(gate_eq_true_iff hoff hsize).mpr ⟨hlt, hle⟩] at hshut
      exact Bool.noConfusion hshut
    · exact (decode_isSome_iff_frame _).mpr hrec hnone
  rcases bunFrameRead_cases hr hhead f with ⟨heq, hend⟩ | ⟨f', heq, hbad, _⟩ |
    ⟨rec, rest, hdec, hov, hgate, heq⟩
  · refine ⟨off, false, r', f, hcur, heq, ⟨fun hb => Bool.noConfusion hb, fun hyes => ?_⟩,
      fun _ hb => Bool.noConfusion hb, fun _ => ⟨rfl, fun bs' r₃ hlater => ?_⟩⟩
    · exact absurd hyes (hno (Or.inr hend))
    · exact (Stuck.run (Or.inr hend) hr hhead hlater).1
  · refine ⟨off, false, r'.setOverflow, f', hcur, heq,
      ⟨fun hb => Bool.noConfusion hb, fun hyes => ?_⟩, fun _ hb => Bool.noConfusion hb,
      fun _ => ⟨rfl, fun bs' r₃ hlater => ?_⟩⟩
    · exact absurd hyes (hno (hbad.imp_right Or.inr))
    · exact (Stuck.run (Or.inl rfl) hr.setOverflow hhead hlater).1
  · have hprefix : frameCodec.encode rec <+: buf.payload.drop off :=
      ⟨rest, (frameCodec.decode_sound hdec).symm⟩
    obtain ⟨hlt, hle⟩ := (gate_eq_true_iff hoff hsize).mp hgate
    have hall : ∀ x ∈ bs, x = true := by
      by_contra hne
      rcases hinv.stuck hne with hs | hs | hs
      · rw [hov] at hs; exact Bool.noConfusion hs
      · rw [hgate] at hs; exact Bool.noConfusion hs
      · rw [hdec] at hs; exact absurd hs (by simp)
    refine ⟨off, true, r'.advance rec.length, deliver h buf.payload off f rec, hcur, heq,
      ⟨fun _ => ⟨hall, hlt, hle, rec, hprefix⟩, fun _ => rfl⟩, fun rec' _ hrec' => ?_,
      fun hb => Bool.noConfusion hb⟩
    -- the grammar is unambiguous
    obtain ⟨rest', hrest'⟩ := hrec'
    have hsame : rec' = rec := (frameCodec.prefix_free (hrest'.trans
      (frameCodec.decode_sound hdec))).1
    subst hsame
    exact ⟨rfl, rfl⟩

/-- On an opened buffer with a frame in it, the call returns true and delivers that frame. -/
theorem bunFrameRead_accepts_oneFrame :
    ∃ r'' f', bunFrameRead ⟨.w64, .little⟩ (oneFrameBuffer ⟨.w64, .little⟩ 52 7).payload
        (openedReader 52) mainFrame = some (true, r'', f')
      ∧ f' = { mainFrame with
          addr := 0
          symbol := some ⟨48, CString.empty⟩
          filename := some ⟨49, CString.empty⟩
          lineNo := 7
          offset := 0
          registerCount := 0 }
      ∧ r''.data.cursor = 52 := by
  have hinit : bunReaderInit unopenedReader (oneFrameBuffer ⟨.w64, .little⟩ 52 7) none
      = some (true, openedReader 52) := by rfl
  have hfront : frameCodec.encode ⟨0, 7, 0, CString.empty, CString.empty, ⟨0, [], rfl⟩⟩
      <+: (oneFrameBuffer ⟨.w64, .little⟩ 52 7).payload.drop 24 := ⟨[], rfl⟩
  obtain ⟨off, b, r'', f', hcur, heq, hiff, hdelivers, _⟩ :=
    bunFrameRead_accepts hinit ReaderRun.start mainFrame
  obtain rfl : off = 24 := Int.ofNat_inj.mp hcur.symm
  have hyes : b = true := hiff.mpr ⟨fun x hx => absurd hx List.not_mem_nil, by decide, by decide,
    _, hfront⟩
  obtain ⟨hf, hcursor⟩ := hdelivers _ hyes hfront
  rw [hyes] at heq
  exact ⟨r'', f', heq, hf, hcursor⟩

/--
On a 32-bit host a header that declares 4 GiB hides the frame behind it, and a line
number of 2³² is delivered as 0.
-/
theorem bunFrameRead_narrow :
    (bunReaderInit unopenedReader (oneFrameBuffer ⟨.w32, .little⟩ 4294967295 7) none
        = some (true, openedReader 52)
      ∧ 24 < HeaderField.size.get (oneFrameBuffer ⟨.w32, .little⟩ 4294967295 7).payload 0
      ∧ (∃ rec, frameCodec.encode rec
          <+: (oneFrameBuffer ⟨.w32, .little⟩ 4294967295 7).payload.drop 24)
      ∧ bunFrameRead ⟨.w32, .little⟩ (oneFrameBuffer ⟨.w32, .little⟩ 4294967295 7).payload
          (openedReader 52) BunFrame.zero = some (false, openedReader 52, BunFrame.zero))
    ∧ ∃ r' f', bunFrameRead ⟨.w32, .little⟩
        (oneFrameBuffer ⟨.w32, .little⟩ 52 4294967296).payload (openedReader 52) BunFrame.zero
          = some (true, r', f')
      ∧ f'.lineNo = 0
      ∧ LittleEndian.decode
          (((oneFrameBuffer ⟨.w32, .little⟩ 52 4294967296).payload.drop 32).take 8)
            = 4294967296 := by
  refine ⟨⟨rfl, by decide, ⟨⟨0, 7, 0, CString.empty, CString.empty, ⟨0, [], rfl⟩⟩, [], rfl⟩, rfl⟩,
    _, _, rfl, rfl, rfl⟩

end LibBun
