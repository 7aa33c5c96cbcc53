import LibBun.Proof.Live

/-!
# Cutting a session short

A crash reporter takes the payload as it is at some moment, and the moment may be
between any two stores. What it finds is the stores up to then, replayed on what
the payload held when the session was opened.

The size in the header is stored last in every call. So a cut inside a call finds
the old size, and with it the gate shut at the old end of the stream. That is all
there is to say as long as every accepted frame fits. A frame that was accepted
and does not fit leaves a **broken** stream: what stands at the end of the whole
frames is not the beginning of a frame and never will be, because the cursor has
passed it and no store reaches back. From then on the size in the header grows
without anything to show for it, and a reader stops where the whole frames end.
-/

namespace LibBun

variable {h : Host}

/-! ## Sessions and cuts -/

/-- A call the interface allows. -/
def WriterOp.WellFormed (h : Host) : WriterOp → Prop
  | frameWrite frame => frame.WellFormed h
  | tidSet _ => True
  | backendSet _ => True

/-- What has been stored since the state `s`, in program order. -/
def storesFrom (h : Host) (s : WriterState) (ops : List WriterOp) : List ByteStore :=
  (ops.foldl (WriterOp.apply h) s).mem.log.drop s.mem.log.length

/-- The frame a call has stored, if it stored one. -/
def frameStored (h : Host) (s : WriterState) : WriterOp → List BunFrame
  | .frameWrite frame =>
      if s.mem.log.length < (bunFrameWrite h s frame).2.mem.log.length then [frame] else []
  | .tidSet _ => []
  | .backendSet _ => []

/--
The frames whose calls have run to their last store, that of the size in the
header, when the session is cut after `k` stores.
-/
def committed (h : Host) : WriterState → List WriterOp → Nat → List BunFrame
  | _, [], _ => []
  | s, op :: ops, k =>
      let t := op.apply h s
      let stored := t.mem.log.length - s.mem.log.length
      if k < stored then [] else frameStored h s op ++ committed h t ops (k - stored)

/-! ## Where calls store -/

/-- A store that spares the magic number, and everything between the header and `off`. -/
def Spares (off : Nat) (st : ByteStore) : Prop :=
  8 ≤ st.addr ∧ ((off : Int) ≤ st.addr ∨ st.addr + st.cells.length ≤ headerSize)

theorem Spares.mono {off off' : Nat} (hle : off ≤ off') {st : ByteStore} (hst : Spares off' st) :
    Spares off st :=
  ⟨hst.1, hst.2.imp_left fun h' => by omega⟩

/-- Behind the header and up to `off`, sparing stores change nothing. -/
theorem sameOn_replay_of_spares {off : Nat} (m : List UInt8) {ss : List ByteStore}
    (hss : ∀ st ∈ ss, Spares off st) : Region.SameOn headerSize off m (Region.replay m ss) := by
  induction ss generalizing m with
  | nil => exact Region.SameOn.refl _ _ m
  | cons st ss ih =>
      refine Region.SameOn.trans ?_ (ih _ fun t ht => hss t (List.mem_cons_of_mem _ ht))
      rcases (hss st (List.mem_cons_self ..)).2 with habove | hbelow
      · exact Region.sameOn_patch_above _ m st.cells habove
      · exact Region.sameOn_patch_below _ m st.cells hbelow

/-- What one call stores: nothing in front of the cursor but, at the very end, a header field. -/
structure CallStores (h : Host) (s : WriterState) (off : Nat) (op : WriterOp)
    (ss : List ByteStore) : Prop where
  log : (op.apply h s).mem.log = s.mem.log ++ ss
  bytes : (op.apply h s).mem.bytes = Region.replay s.mem.bytes ss
  spares : ∀ st ∈ ss, Spares off st
  /-- All but the last are at the cursor or beyond. -/
  above : ∀ k, k < ss.length → ∀ st ∈ ss.take k, (off : Int) ≤ st.addr

section

variable {s : WriterState} {off : Nat}

theorem callStores_field (hs : WriterAt h s off) {f : HeaderField} {v : Nat} {op : WriterOp}
    (hop : op.apply h s = s.setField f v) (hstart : 8 ≤ f.start)
    (hwidth : f.start + f.width ≤ headerSize) :
    CallStores h s off op [⟨f.start, LittleEndian.encode f.width v⟩] := by
  have hmem : (op.apply h s).mem = s.mem.store ⟨f.start, LittleEndian.encode f.width v⟩ := by
    rw [hop, WriterState.setField, hs.buffer, Memory.setField, Int.zero_add]
  refine ⟨by rw [hmem]; rfl, by rw [hmem]; rfl, fun st hst => ?_, fun k hk st hst => ?_⟩
  · rw [List.mem_singleton.mp hst]
    refine ⟨by simp only; omega, Or.inr ?_⟩
    rw [LittleEndian.length_encode]
    exact Int.ofNat_le.mpr hwidth
  · have hzero : k = 0 := by simpa using hk
    subst hzero
    exact absurd hst (by simp)

/-- **Every call stores in this way.** -/
theorem callStores (hs : WriterAt h s off) {op : WriterOp} (hop : op.WellFormed h) :
    ∃ ss, CallStores h s off op ss := by
  cases op with
  | frameWrite f =>
      have hap : (WriterOp.frameWrite f).apply h s = frameStep h s f := rfl
      by_cases hacc : writerAvailable h s.writer < wouldWrite h f
      · rw [frameStep_of_refused hacc] at hap
        exact ⟨[], by rw [hap, List.append_nil], by rw [hap]; rfl, by simp, by simp⟩
      · obtain ⟨bs, hemit⟩ := emitted_of_accepted hs hop hacc
        have hstart := hs.start
        have hcells : ∀ st ∈ Region.cellwise (off : Int) bs, (off : Int) ≤ st.addr :=
          fun st hst => (Region.mem_cellwise hst).1
        refine ⟨_, by rw [hap, hemit.log, List.append_assoc], ?_, fun st hst => ?_,
          fun k hk st hst => ?_⟩
        · rw [hap, hemit.bytes, Region.replay_append, Region.replay_cellwise]
          rfl
        · rcases List.mem_append.mp hst with hst | hst
          · have := hcells st hst
            rw [headerSize] at hstart
            exact ⟨by omega, Or.inl this⟩
          · rw [List.mem_singleton.mp hst]
            refine ⟨Int.ofNat_le.mpr (by decide), Or.inr ?_⟩
            rw [LittleEndian.length_encode]
            exact Int.ofNat_le.mpr
              (show HeaderField.size.start + HeaderField.size.width ≤ headerSize by decide)
        · rw [List.length_append, List.length_singleton] at hk
          rw [List.take_append_of_le_length (by omega)] at hst
          exact hcells st (List.mem_of_mem_take hst)
  | tidSet tid => exact ⟨_, callStores_field hs rfl (by decide) (by decide)⟩
  | backendSet backend => exact ⟨_, callStores_field hs rfl (by decide) (by decide)⟩

theorem log_prefix (hs : WriterAt h s off) {ops : List WriterOp}
    (hops : ∀ op ∈ ops, op.WellFormed h) :
    s.mem.log <+: (ops.foldl (WriterOp.apply h) s).mem.log := by
  induction ops generalizing s off with
  | nil => exact List.prefix_rfl
  | cons op ops ih =>
      obtain ⟨ss, hcall⟩ := callStores hs (hops op (List.mem_cons_self ..))
      obtain ⟨off', _, hs'⟩ := hs.apply op
      exact List.IsPrefix.trans ⟨ss, hcall.log.symm⟩
        (ih hs' fun o ho => hops o (List.mem_cons_of_mem _ ho))

theorem storesFrom_cons (hs : WriterAt h s off) {op : WriterOp} {ops : List WriterOp}
    (hops : ∀ o ∈ op :: ops, o.WellFormed h) {ss : List ByteStore}
    (hcall : CallStores h s off op ss) :
    storesFrom h s (op :: ops) = ss ++ storesFrom h (op.apply h s) ops := by
  obtain ⟨off', _, hs'⟩ := hs.apply op
  obtain ⟨rest, hrest⟩ := log_prefix hs' fun o ho => hops o (List.mem_cons_of_mem _ ho)
  have hlog := hcall.log
  rw [storesFrom, storesFrom, List.foldl_cons, ← hrest, List.drop_left, hlog, List.append_assoc,
    List.drop_left]

/-- What a whole run stores reaches back no further than its first call does. -/
theorem storesFrom_spares (hs : WriterAt h s off) {ops : List WriterOp}
    (hops : ∀ op ∈ ops, op.WellFormed h) : ∀ st ∈ storesFrom h s ops, Spares off st := by
  induction ops generalizing s off with
  | nil => intro st hst; simp [storesFrom] at hst
  | cons op ops ih =>
      obtain ⟨ss, hcall⟩ := callStores hs (hops op (List.mem_cons_self ..))
      obtain ⟨off', hle, hs'⟩ := hs.apply op
      intro st hst
      rw [storesFrom_cons hs hops hcall] at hst
      rcases List.mem_append.mp hst with hst | hst
      · exact hcall.spares st hst
      · exact (ih hs' (fun o ho => hops o (List.mem_cons_of_mem _ ho)) st hst).mono hle

end

/-! ## Broken streams -/

/-- Integers and strings with less than a count behind them are no frame. -/
theorem decode_without_count (f : BunFrame) {x : List UInt8} (hx : x.length < 2) :
    frameCodec.decode (f.intBytes ++ (f.stringBytes ++ x)) = none := by
  have hmod : ∀ v : Nat, LittleEndian.encode 8 (UInt64.ofNat v).toNat = LittleEndian.encode 8 v :=
    fun v => by rw [UInt64.toNat_ofNat']; exact LittleEndian.encode_mod 8 v
  -- any record with these integers and strings, and a count that begins this way
  have hext : ∀ b : UInt8, frameCodec.encode
      ⟨f.addr, UInt64.ofNat f.lineNo, UInt64.ofNat f.offset, f.symbolStr, f.filenameStr,
        ⟨⟨b.toNat, by have := b.toNat_lt; omega⟩, List.replicate (registerSize * b.toNat) 0,
          List.length_replicate⟩⟩
      = f.intBytes ++ (f.stringBytes ++ (b :: 0 :: List.replicate (registerSize * b.toNat) 0)) := by
    intro b
    have hcount : LittleEndian.encode 2 b.toNat = [b, 0] := by
      have hlt := b.toNat_lt
      have hdiv : b.toNat / 256 = 0 := Nat.div_eq_of_lt hlt
      simp [LittleEndian.encode, hdiv]
    rw [Record.encode_eq, BunFrame.intBytes, BunFrame.stringBytes]
    simp only [hmod, hcount, List.append_assoc, List.cons_append, List.nil_append]
  cases x with
  | nil =>
      refine frameCodec.decode_of_proper_prefix (q := 0 :: 0 :: List.replicate
        (registerSize * (0 : UInt8).toNat) 0) ((hext 0).trans ?_) (List.cons_ne_nil _ _)
      rw [List.append_nil, List.append_assoc]
  | cons b x =>
      have hnil : x = [] := by
        rw [List.length_cons] at hx
        exact List.eq_nil_of_length_eq_zero (by omega)
      subst hnil
      refine frameCodec.decode_of_proper_prefix (q := 0 :: List.replicate
        (registerSize * b.toNat) 0) ((hext b).trans ?_) (List.cons_ne_nil _ _)
      simp only [List.append_assoc, List.cons_append, List.nil_append]

/--
The records are there, whole, and behind them is what no frame begins with, up to
the cursor at `off`.
-/
structure Broken (h : Host) (s : WriterState) (rs : List Record) (off : Nat) : Prop where
  at_ : WriterAt h s off
  /-- The cursor has passed the end of the records. -/
  past : streamEnd rs ≤ off
  magic : HeaderField.magic.get s.mem.bytes 0 = bunHeaderMagic
  stream : s.mem.bytes.drop headerSize
    = frameCodec.encodeAll rs ++ s.mem.bytes.drop (streamEnd rs)
  /-- No frame follows, nor will one while the bytes in front of the cursor stay. -/
  broken : ∀ m, Region.SameOn (streamEnd rs) off s.mem.bytes m →
    frameCodec.decode (m.drop (streamEnd rs)) = none

section

variable {s : WriterState} {rs : List Record} {off : Nat}

/-- **A broken stream stays as readable as it is**, through any stores that do not reach back. -/
theorem Broken.readable (hb : Broken h s rs off) {ss : List ByteStore}
    (hss : ∀ st ∈ ss, Spares off st) : Readable h (Region.replay s.mem.bytes ss) rs := by
  have hsame := sameOn_replay_of_spares s.mem.bytes hss
  have hstart : headerSize ≤ streamEnd rs := Nat.le_add_right _ _
  refine ⟨?_, hsame.drop_append hb.stream (Int.ofNat_le.mpr hb.past), Or.inr ?_⟩
  · have hfront : Region.SameOn 0 8 s.mem.bytes (Region.replay s.mem.bytes ss) :=
      Region.sameOn_replay_above 0 s.mem.bytes ss fun st hst => (hss st hst).1
    rw [HeaderField.get_of_sameOn hfront (Nat.zero_le _) (by decide) (by decide) hb.at_.head]
    exact hb.magic
  · exact hb.broken _ (hsame.mono hstart (Int.le_refl _))

/-- **A frame that is accepted and does not fit breaks the stream.** -/
theorem broken_of_ragged (hl : Live h s rs) {f : BunFrame} (hf : f.WellFormed h)
    (hacc : ¬writerAvailable h s.writer < wouldWrite h f)
    (hfit : ¬streamEnd rs + f.encodedLength ≤ s.mem.bytes.length) :
    ∃ off, Broken h (frameStep h s f) rs off := by
  have hin := hl.inside
  have hn := encodedLength_eq f
  -- whatever was emitted, what was there before is, and the rest is about the bytes at the end
  have hbreaks : ∀ bs, Emitted h s (frameStep h s f) f (streamEnd rs) bs →
      (∀ m, Region.SameOn (streamEnd rs) (streamEnd rs + bs.length : Nat)
        (frameStep h s f).mem.bytes m → frameCodec.decode (m.drop (streamEnd rs)) = none) →
      ∃ off, Broken h (frameStep h s f) rs off := by
    intro bs hemit hnone
    refine ⟨_, hemit.at_, Nat.le_add_right _ _, ?_,
      hemit.sameOn.drop_append hl.stream (Int.le_refl _), hnone⟩
    rw [HeaderField.get_of_sameOn (hemit.sameOn_front hl.at_.start) (Nat.zero_le _)
      (Int.ofNat_le.mpr (by decide)) (by decide) hl.at_.head]
    exact hl.magic
  rw [frameStep_of_accepted hacc] at hbreaks ⊢
  rcases writeBody_cases hl.at_ hin hf with ⟨_, h24, _, heq⟩ | ⟨_, hlo, hhi, heq⟩ |
    ⟨_, hshort, xs, hxs, heq⟩ | ⟨hov, _⟩
  · -- the whole frame, cut at the end of the payload
    have hlen : (frameCodec.encode (f.record hf)).length = f.encodedLength := by
      rw [Record.length_encode, f.length_record hf]
    have hemit := emitted_of_body hl.at_ (Or.inl heq)
    refine hbreaks _ hemit fun m hm => ?_
    have hrest : s.mem.bytes.drop (streamEnd rs + (frameCodec.encode (f.record hf)).length) = [] :=
      List.drop_eq_nil_of_le (by omega)
    have hdrop := hemit.drop_bytes hl.at_.start
    rw [hrest, List.append_nil] at hdrop
    rw [← hm.drop_eq (Nat.le_refl _) (by rw [hemit.length_bytes]; omega), hdrop]
    refine frameCodec.decode_of_proper_prefix (List.take_append_drop _ _).symm fun hnil => ?_
    rw [List.drop_eq_nil_iff] at hnil
    omega
  · -- the integers, the strings and less than a count
    have hemit := emitted_of_body hl.at_ (Or.inr heq)
    refine hbreaks _ hemit fun m hm => ?_
    have hlen : m.length = s.mem.bytes.length := hm.1.symm.trans hemit.length_bytes
    have hpre : (f.intBytes ++ f.stringBytes).length = 24 + f.stringBytes.length := by
      rw [List.length_append, f.length_intBytes]
    have hslice := hm.slice (a := streamEnd rs) (k := 24 + f.stringBytes.length) (Nat.le_refl _)
      (by rw [List.length_append, List.length_append, f.length_intBytes]; omega)
    rw [hemit.drop_bytes hl.at_.start, ← List.append_assoc, List.take_append_of_le_length
      (by rw [List.length_take, List.length_append, hpre]; omega), List.take_take,
      Nat.min_eq_left (by omega), List.take_left' hpre] at hslice
    rw [← List.take_append_drop (24 + f.stringBytes.length) (m.drop (streamEnd rs)), ← hslice,
      List.append_assoc]
    exact decode_without_count f (by rw [List.length_drop, List.length_drop]; omega)
  · -- no room for the three integers, so none for a frame
    have hemit := emitted_of_body hl.at_ (Or.inr heq)
    refine hbreaks _ hemit fun m hm => decode_eq_none_of_short ?_
    have hlen : m.length = s.mem.bytes.length := hm.1.symm.trans hemit.length_bytes
    rw [List.length_drop]
    omega
  · rw [hl.clear] at hov
    exact Bool.noConfusion hov

/-- **One call on a live writer**: the frame it stored is one more record, or the stream breaks. -/
theorem Live.call (hl : Live h s rs) {op : WriterOp} (hop : op.WellFormed h) :
    (∃ new, Live h (op.apply h s) (rs ++ new)
      ∧ new.map (Record.content h) = (frameStored h s op).map (BunFrame.content h)) ∨
    ∃ off, Broken h (op.apply h s) rs off := by
  cases op with
  | frameWrite f =>
      have hap : (WriterOp.frameWrite f).apply h s = LibBun.frameStep h s f := rfl
      have hlog : frameStored h s (.frameWrite f) =
          if s.mem.log.length < (LibBun.frameStep h s f).mem.log.length then [f] else [] := rfl
      rw [hap, hlog]
      by_cases hacc : writerAvailable h s.writer < wouldWrite h f
      · rw [frameStep_of_refused hacc, if_neg (Nat.lt_irrefl _)]
        exact Or.inl ⟨[], by rwa [List.append_nil], rfl⟩
      · by_cases hfit : streamEnd rs + f.encodedLength ≤ s.mem.bytes.length
        · obtain ⟨_, _, hemit, _⟩ := emitted_of_fits hl.at_ hop hfit
          have hgrows : s.mem.log.length < (LibBun.frameStep h s f).mem.log.length := by
            rw [hemit.log, List.length_append, List.length_append, List.length_singleton]
            omega
          rw [if_pos hgrows]
          exact Or.inl ⟨[f.record hop], hl.frameStep hop hfit,
            congrArg (fun c => [c]) (f.content_record hop)⟩
        · exact Or.inr (broken_of_ragged hl hop hacc hfit)
  | tidSet tid =>
      refine Or.inl ⟨[], ?_, rfl⟩
      rw [List.append_nil]
      exact hl.setField .tid _ (by decide) (by decide)
  | backendSet backend =>
      refine Or.inl ⟨[], ?_, rfl⟩
      rw [List.append_nil]
      exact hl.setField .backend _ (by decide) (by decide)

/-- **Every cut of a run from a live writer is readable**, up to a prefix of what it committed. -/
theorem Live.cut (hl : Live h s rs) {ops : List WriterOp} (hops : ∀ op ∈ ops, op.WellFormed h)
    (k : Nat) :
    ∃ new, Readable h (Region.replay s.mem.bytes ((storesFrom h s ops).take k)) (rs ++ new)
      ∧ new.map (Record.content h) <+: (committed h s ops k).map (BunFrame.content h) := by
  induction ops generalizing s rs k with
  | nil =>
      refine ⟨[], ?_, List.nil_prefix⟩
      have hnone : storesFrom h s [] = [] := List.drop_length
      rw [hnone, List.take_nil, List.append_nil]
      exact hl.readable (Region.SameOn.refl 0 (streamEnd rs) s.mem.bytes) (Int.le_refl _)
  | cons op ops ih =>
      have hop := hops op (List.mem_cons_self ..)
      have hrest : ∀ o ∈ ops, o.WellFormed h := fun o ho => hops o (List.mem_cons_of_mem _ ho)
      obtain ⟨ss, hcall⟩ := callStores hl.at_ hop
      have hstored : (op.apply h s).mem.log.length - s.mem.log.length = ss.length := by
        rw [hcall.log, List.length_append, Nat.add_sub_cancel_left]
      rw [storesFrom_cons hl.at_ hops hcall, committed, hstored]
      by_cases hk : k < ss.length
      · -- the call is cut before its last store, and all there is is behind the stream
        rw [if_pos hk, List.take_append_of_le_length (Nat.le_of_lt hk)]
        refine ⟨[], ?_, List.nil_prefix⟩
        rw [List.append_nil]
        exact hl.readable (Region.sameOn_replay_above 0 _ _ (hcall.above k hk)) (Int.le_refl _)
      · -- the call is complete, and the cut is in what follows
        rw [if_neg hk, List.take_append, List.take_of_length_le (by omega), Region.replay_append,
          ← hcall.bytes, List.map_append]
        rcases hl.call hop with ⟨new, hl', hnew⟩ | ⟨off, hb⟩
        · obtain ⟨more, hread, hmore⟩ := ih hl' hrest (k - ss.length)
          refine ⟨new ++ more, List.append_assoc rs new more ▸ hread, ?_⟩
          rw [List.map_append, hnew]
          exact (List.prefix_append_right_inj _).mpr hmore
        · refine ⟨[], ?_, List.nil_prefix⟩
          rw [List.append_nil]
          exact hb.readable fun st hst =>
            storesFrom_spares hb.at_ hrest st (List.mem_of_mem_take hst)

end

/--
**Crash consistency.** Open a session on any buffer with room for a header, whatever
its bytes; make any calls the interface allows; cut the run after any store. A fresh
reader opens what is there, and the frames it reads are, in order, the first of
those whose size was already stored.
-/
theorem crash_consistent {buf buf' : BunBuffer h} (hbuf : bunBufferPayloadHeaderSize ≤ buf.size)
    {handles : HandleRef → BunHandle} {tid : UInt32} {w₀ w : BunWriter} {arch : BunArchitecture}
    {handle : Option HandleRef}
    (hinit : bunWriterInit handles tid w₀ buf arch handle = (true, w, buf'))
    {ops : List WriterOp} (hops : ∀ op ∈ ops, op.WellFormed h) (k : Nat) (r₀ : BunReader)
    (handle' : Option HandleRef) (f₀ : BunFrame) :
    ∃ (m : List UInt8) (hm : m.length = buf'.payload.length) (r : BunReader)
      (frames : List BunFrame),
      m = Region.replay buf'.payload
        ((ops.foldl (WriterOp.apply h) ⟨w, buf'.memory⟩).mem.log.take k)
      ∧ bunReaderInit r₀ (buf'.withPayload m hm) handle' = some (true, r)
      ∧ readFrames h m (m.length / 28 + 1) r f₀ = some frames
      ∧ frames.map (BunFrame.content h)
          <+: (committed h ⟨w, buf'.memory⟩ ops k).map (BunFrame.content h) := by
  obtain ⟨new, hread, hnew⟩ := (Live.start hbuf hinit).cut hops k
  have hsize : bunBufferPayloadHeaderSize ≤ buf'.size := by
    obtain ⟨_, hsize, _⟩ := bunWriterInit_eq_true hinit
    rwa [hsize]
  have hm : (Region.replay buf'.payload
      ((ops.foldl (WriterOp.apply h) ⟨w, buf'.memory⟩).mem.log.take k)).length
        = buf'.payload.length := Region.length_replay _ _
  have hread' : Readable h (buf'.withPayload _ hm).payload new := hread
  obtain ⟨r, frames, hopen, hframes, hprefix⟩ :=
    hread'.read hsize r₀ handle' f₀ (Nat.lt_succ_self _)
  exact ⟨_, hm, r, frames, rfl, hopen, hframes, hprefix.trans hnew⟩

/-- A buffer that was used for something else before. -/
def staleBuffer (h : Host) : BunBuffer h where
  size := 150
  writeCount := 0
  handle := none
  payload := List.replicate 134 255
  payload_length := List.length_replicate
  size_le := by
    have hsizes := h.sizes
    omega

/-- Two frames, and the backend in between. -/
def twoFrameOps : List WriterOp :=
  [.frameWrite mainFrame, .backendSet .libunwind, .frameWrite leafFrame]

theorem twoFrameOps_wellFormed (h : Host) : ∀ op ∈ twoFrameOps, op.WellFormed h := by
  rintro op (_ | ⟨_, _ | ⟨_, _ | ⟨_, hop⟩⟩⟩)
  · exact mainFrame_wellFormed h
  · exact trivial
  · exact leafFrame_wellFormed h
  · exact absurd hop List.not_mem_nil

/-- What is in the memory when the second frame has been stored in part. -/
def cutMemory (s : WriterState) : List UInt8 :=
  Region.replay s.mem.bytes
    ((twoFrameOps.foldl (WriterOp.apply ⟨.w64, .little⟩) s).mem.log.take 87)

/-- Over stale bytes the session is cut in the second frame, and the first is read. -/
theorem crash_consistent_secondFrame :
    ∃ buf' w hm r frames,
      bunWriterInit (fun _ => ⟨0⟩) 7 unopenedWriter (staleBuffer ⟨.w64, .little⟩) .x86_64 none
        = (true, w, buf')
      ∧ committed ⟨.w64, .little⟩ ⟨w, buf'.memory⟩ twoFrameOps 87 = [mainFrame]
      ∧ bunReaderInit unopenedReader (buf'.withPayload (cutMemory ⟨w, buf'.memory⟩) hm) none
        = some (true, r)
      ∧ readFrames ⟨.w64, .little⟩ (cutMemory ⟨w, buf'.memory⟩) 5 r BunFrame.zero = some frames
      ∧ frames.map (BunFrame.content ⟨.w64, .little⟩) <+: [mainFrame.content ⟨.w64, .little⟩]
      ∧ frames ≠ [] := by
  have hopen : ∃ buf' w,
      bunWriterInit (fun _ => ⟨0⟩) 7 unopenedWriter (staleBuffer ⟨.w64, .little⟩) .x86_64 none
        = (true, w, buf')
      ∧ committed ⟨.w64, .little⟩ ⟨w, buf'.memory⟩ twoFrameOps 87 = [mainFrame]
      ∧ (cutMemory ⟨w, buf'.memory⟩).length = 134
      ∧ (∃ hm, bunReaderInit unopenedReader (buf'.withPayload (cutMemory ⟨w, buf'.memory⟩) hm) none
        = some (true, openedReader 134))
      ∧ readFrames ⟨.w64, .little⟩ (cutMemory ⟨w, buf'.memory⟩) 5 (openedReader 134)
        BunFrame.zero ≠ some [] :=
    ⟨_, _, rfl, by decide +kernel, by decide +kernel, ⟨by decide +kernel, by decide +kernel⟩,
      by decide +kernel⟩
  obtain ⟨buf', w, hinit, hcommitted, hlen, ⟨_, hopened⟩, hsome⟩ := hopen
  obtain ⟨m, hm, r, frames, hcut, hr, hread, hprefix⟩ := crash_consistent (by decide) hinit
    (twoFrameOps_wellFormed _) 87 unopenedReader none BunFrame.zero
  obtain rfl : m = cutMemory ⟨w, buf'.memory⟩ := hcut
  have hsame := hopened.symm.trans hr
  obtain rfl : openedReader 134 = r := (Prod.mk.inj (Option.some.inj hsame)).2
  rw [hlen] at hread
  rw [hcommitted] at hprefix
  refine ⟨buf', w, hm, _, frames, hinit, hcommitted, hopened, hread, hprefix, ?_⟩
  rintro rfl
  exact hsome hread

end LibBun
