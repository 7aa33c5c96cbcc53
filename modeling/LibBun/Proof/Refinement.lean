import LibBun.Proof.Binding
import LibBun.Proof.Feed
import LibBun.Proof.Journal
import LibBun.Proof.Saved

/-!
# The code is a journal

`Refines` ties a buffer in use to a journal: the prefix of the buffer to the handle and
the attempts, the bytes behind the header to the frames, the header to the declared size,
the thread and the backend, and the cursor of every reader to the number of frames it
has been given. Of a reader that an earlier session left over it is only known that it
is inside the payload. Each call keeps the two together and returns what the journal
says, as long as the frames it writes are ones the code gets right; so a run of any
calls does.
-/

namespace LibBun

open Journal

variable {h : Host}

/-- The journal's measure of a stream is the stream's. -/
theorem endOf_content (rs : List Record) :
    endOf (rs.map (Record.content h)) = streamEnd rs := by
  rw [endOf, streamEnd, List.map_map]
  congr 1
  induction rs with
  | nil => rfl
  | cons rec rs ih =>
      rw [List.map_cons, List.sum_cons, ih, Codec.encodeAll, List.length_append,
        Record.length_encode, Function.comp_apply, rec.length_content]

/-! ## Where a writer's log plays no part -/

/-- The memory as the next caller finds it, without the log. -/
def WriterState.forget (s : WriterState) : WriterState := ⟨s.writer, ⟨s.mem.bytes, []⟩⟩

theorem WriterAt.forget {s : WriterState} {off : Nat} (hs : WriterAt h s off) :
    WriterAt h s.forget off :=
  ⟨hs.buffer, hs.size, hs.mem_le, hs.head, hs.cursor, hs.start, hs.tight⟩

theorem Live.forget {s : WriterState} {rs : List Record} (hl : Live h s rs) :
    Live h s.forget rs :=
  ⟨hl.at_.forget, hl.inside, hl.clear, hl.magic, hl.stream, hl.size_le⟩

theorem Header.forget {s : WriterState} {tid : UInt32} {backend : BunUnwindBackend}
    (hs : Header h s tid backend) : Header h s.forget tid backend := by
  obtain ⟨⟨off, hat⟩, hmagic, htid, hbackend⟩ := hs
  exact ⟨⟨off, hat.forget⟩, hmagic, htid, hbackend⟩

/-! ## The relation -/

/-- A reader, and the number of frames it has been given or that it is left over. -/
def ReaderOf (h : Host) (m : List UInt8) (rs : List Record) (r : BunReader) : Option Nat → Prop
  | some n => Follower h m rs r n ∧ r.data.overflow = false
  | none => ∃ off, ReaderAt h m r off

/-- The session a buffer is in, and that of a journal. -/
structure SessionOf (h : Host) (buf : BunBuffer h) (writer : BunWriter) (rs : List Record)
    (session : JournalSession) : Prop where
  live : Live h ⟨writer, buf.memory⟩ rs
  frames : rs.map (Record.content h) = session.frames
  declared : HeaderField.size.get buf.payload 0 = session.declared
  header : Header h ⟨writer, buf.memory⟩ session.tid session.backend

/-- The same for a session that may not have been opened yet, with the readers. -/
def SessionRel (h : Host) (s : BufferState h) (j : Journal) : Prop :=
  match j.session with
  | none => s.writers = [] ∧ s.readers = [] ∧ j.readers = []
      ∧ ∀ r₀ handle, bunReaderInit r₀ s.buffer handle = some (false, r₀)
  | some session => ∃ writer rs, s.writers.getLast? = some writer
      ∧ SessionOf h s.buffer writer rs session
      ∧ List.Forall₂ (ReaderOf h s.buffer.payload rs) s.readers j.readers

/-- A buffer in use, and the journal it is. -/
structure Refines (h : Host) (cap : Nat) (s : BufferState h) (j : Journal) : Prop where
  room : bunBufferPayloadHeaderSize ≤ s.buffer.size
  cap : s.buffer.payload.length = cap
  handle : s.buffer.handle = j.handle
  attempts : s.buffer.writeCount.toNat = j.attempts % 2 ^ 32
  sessions : s.writers.length = j.sessions
  /-- All writers point to the one header. -/
  writers : ∀ w ∈ s.writers, w.data.buffer = 0
  session : SessionRel h s j

variable {cap : Nat} {s : BufferState h} {j : Journal}

/-- What the code returns is foretold, and leaves the two related. -/
def Agrees (h : Host) (cap : Nat) (s : BufferState h) (j : Journal) (c : BufferCall) : Prop :=
  Foretells (Journal.call h cap j c).1 (s.call c).1
    ∧ Refines h cap (s.call c).2 (Journal.call h cap j c).2

/-- `bun_buffer_init` leaves a blank journal. -/
theorem Refines.fresh {data : CObject h} {buf : BunBuffer h}
    (hbuf : bunBufferInit data = some buf) :
    Refines h buf.payload.length (BufferState.fresh buf) Journal.blank := by
  obtain ⟨_, _, hcount, hhandle, _⟩ := bunBufferInit_eq_some hbuf
  refine ⟨bunBufferInit_size hbuf, rfl, hhandle, ?_, rfl, ?_, rfl, rfl, rfl,
    bunReaderInit_fresh hbuf⟩
  · show buf.writeCount.toNat = 0
    rw [hcount]
    rfl
  · intro w hw
    exact absurd hw List.not_mem_nil

/-! ## Readers -/

section

variable {m m' : List UInt8} {rs rs' : List Record} {r : BunReader} {place : Option Nat}

theorem ReaderOf.at_ (hr : ReaderOf h m rs r place) : ∃ off, ReaderAt h m r off := by
  cases place with
  | none => exact hr
  | some n => exact ⟨_, hr.1.at_⟩

theorem ReaderAt.of_length {off : Nat} (hr : ReaderAt h m r off) (hm : m'.length = m.length) :
    ReaderAt h m' r off :=
  ⟨hr.buffer, hm ▸ hr.size, hr.cursor, hm ▸ hr.off_le, hm ▸ hr.mem_le⟩

/-- More records are of no consequence to it. -/
theorem ReaderOf.grow (hr : ReaderOf h m rs r place) (hgrow : rs <+: rs')
    (hm : m'.length = m.length) : ReaderOf h m' rs' r place := by
  cases place with
  | none =>
      obtain ⟨off, hat⟩ := hr
      exact ⟨off, hat.of_length hm⟩
  | some n =>
      obtain ⟨hfollower, hclear⟩ := hr
      refine ⟨hfollower.grow ?_ hm, hclear⟩
      obtain ⟨more, hmore⟩ := hgrow
      rw [← hmore, List.take_append_of_le_length hfollower.le]

/-- In a new session it is at the beginning, or nobody knows where. -/
theorem ReaderOf.carried (hr : ReaderOf h m rs r place) (hm : m'.length = m.length) :
    ReaderOf h m' [] r (carried place) := by
  obtain ⟨off, hat⟩ := hr.at_
  cases place with
  | none => exact ⟨off, hat.of_length hm⟩
  | some n =>
      cases n with
      | zero => exact ⟨Follower.start (hr.1.at_.of_length hm) [], hr.2⟩
      | succ n => exact ⟨off, hat.of_length hm⟩

/-- A call by any reader returns, and leaves it at some place. -/
theorem ReaderAt.call {off : Nat} (hr : ReaderAt h m r off) (hhead : headerSize ≤ m.length)
    (frame : BunFrame) : ∃ ok r' frame' off', bunFrameRead h m r frame = some (ok, r', frame')
      ∧ ReaderAt h m r' off' := by
  rcases bunFrameRead_cases hr hhead frame with ⟨hcall, _⟩ | ⟨frame', hcall, _⟩ |
    ⟨rec, rest, hdec, _, _, hcall⟩
  · exact ⟨_, _, _, off, hcall, hr⟩
  · exact ⟨_, _, _, off, hcall, hr.setOverflow⟩
  · exact ⟨_, _, _, _, hcall, hr.advance (Record.end_le (frameCodec.decode_sound hdec))⟩

end

/-! ## Opening a session -/

/-- The counter, when the attempt is counted or not. -/
theorem Refines.attempted (hr : Refines h cap s j) (handles : HandleRef → BunHandle)
    (bound : Option HandleRef) :
    (s.buffer.attempted handles bound).writeCount.toNat
      = (if isWriteOnce handles bound then j.attempts + 1 else j.attempts) % 2 ^ 32 := by
  have hcount := hr.attempts
  unfold BunBuffer.attempted
  dsimp only
  split
  · rw [UInt32.toNat_add, hcount]
    exact Nat.mod_add_mod _ _ _
  · exact hcount

/-- Whether the counter turns a caller away is the same on both. -/
theorem Refines.countedOut_iff (hr : Refines h cap s j) {handles : HandleRef → BunHandle}
    {bound : Option HandleRef} :
    CountedOut handles s.buffer bound
      ↔ isWriteOnce handles bound = true ∧ Int.bmod j.attempts (2 ^ 32) > 0 := by
  have hlast : Int.bmod s.buffer.writeCount.toNat (2 ^ 32) = Int.bmod j.attempts (2 ^ 32) := by
    rw [hr.attempts]
    exact Int.emod_bmod (j.attempts : Int) (2 ^ 32)
  rw [CountedOut, hlast]

/-- A caller who is turned away leaves the session as it was. -/
theorem Refines.turnedAway (hr : Refines h cap s j) (handles : HandleRef → BunHandle)
    (bound : Option HandleRef) :
    Refines h cap { s with buffer := s.buffer.attempted handles bound }
      { j with
        handle := bound
        attempts := if isWriteOnce handles bound then j.attempts + 1 else j.attempts } := by
  refine ⟨hr.room, hr.cap, rfl, hr.attempted handles bound, hr.sessions, hr.writers, ?_⟩
  have hsession := hr.session
  unfold SessionRel at hsession ⊢
  dsimp only at hsession ⊢
  cases hj : j.session with
  | none =>
      rw [hj] at hsession
      obtain ⟨hwriters, hreaders, hplaces, hshut⟩ := hsession
      exact ⟨hwriters, hreaders, hplaces, fun r₀ handle =>
        (bunReaderInit_congr rfl rfl r₀ handle).trans (hshut r₀ handle)⟩
  | some session =>
      rw [hj] at hsession
      obtain ⟨writer, rs, hwriter, hs, hreaders⟩ := hsession
      exact ⟨writer, rs, hwriter, ⟨hs.live, hs.frames, hs.declared, hs.header⟩, hreaders⟩

/-- A new session takes over the readers. -/
theorem Refines.carry (hr : Refines h cap s j) {m : List UInt8}
    (hm : m.length = s.buffer.payload.length) :
    List.Forall₂ (ReaderOf h m []) s.readers (j.readers.map Journal.carried) := by
  have hsession := hr.session
  unfold SessionRel at hsession
  cases hj : j.session with
  | none =>
      rw [hj] at hsession
      rw [hsession.2.1, hsession.2.2.1]
      exact List.Forall₂.nil
  | some session =>
      rw [hj] at hsession
      obtain ⟨writer, rs, _, _, hreaders⟩ := hsession
      exact List.forall₂_map_right_iff.mpr (hreaders.imp fun r place hplace => hplace.carried hm)

theorem agrees_writerInit (hr : Refines h cap s j) (handles : HandleRef → BunHandle)
    (tid : UInt32) (writer : BunWriter) (arch : BunArchitecture) (handle : Option HandleRef) :
    Agrees h cap s j (.writerInit handles tid writer arch handle) := by
  have hroom : headerSize ≤ s.buffer.size := headerSize_le_payloadHeaderSize.trans hr.room
  unfold Agrees BufferState.call Journal.call
  dsimp only
  cases hbind : bindHandle s.buffer.handle handle with
  | none =>
      rw [bunWriterInit_of_turnedAway (Or.inr hbind), ← hr.handle, hbind]
      exact ⟨rfl, hr⟩
  | some bound =>
      rw [← hr.handle, hbind]
      dsimp only
      by_cases hout : CountedOut handles s.buffer bound
      · rw [bunWriterInit_of_countedOut hroom hbind hout, if_pos (hr.countedOut_iff.mp hout)]
        exact ⟨rfl, hr.turnedAway handles bound⟩
      · rw [if_neg fun hno => hout (hr.countedOut_iff.mpr hno)]
        have hinit : bunWriterInit handles tid writer s.buffer arch handle = _ :=
          bunWriterInit_of_admitted hroom hbind hout
        have hlen := length_initHeader s.buffer.memory arch tid
        rw [hinit]
        refine ⟨rfl, hr.room, hlen.trans hr.cap, rfl, hr.attempted handles bound, ?_, ?_, ?_⟩
        · show (s.writers ++ [_]).length = j.sessions + 1
          rw [List.length_append, hr.sessions, List.length_singleton]
        · intro w hw
          rcases List.mem_append.mp hw with hold | hnew
          · exact hr.writers w hold
          · rw [List.mem_singleton.mp hnew]
        · exact ⟨_, [], List.getLast?_concat, ⟨Live.start hr.room hinit, rfl,
            (bunWriterInit_at hr.room hinit).2.2.2, Header.init hr.room hinit⟩, hr.carry hlen⟩

/-! ## Writing -/

/-- A call finds a writer on both sides, or on neither. -/
theorem Refines.writer_cases (hr : Refines h cap s j) (k : Nat)
    (act : JournalSession → CallResult × JournalSession) :
    (s.writers[k]? = none ∧ j.byWriter k act = (some .missing, j)) ∨
    ∃ session writer rs caller, s.writers[k]? = some caller ∧ caller.data.buffer = 0
      ∧ j.session = some session ∧ k < j.sessions
      ∧ j.byWriter k act = (some (act session).1, { j with session := some (act session).2 })
      ∧ s.writers.getLast? = some writer ∧ SessionOf h s.buffer writer rs session
      ∧ List.Forall₂ (ReaderOf h s.buffer.payload rs) s.readers j.readers := by
  have hsession := hr.session
  unfold SessionRel at hsession
  unfold byWriter
  cases hj : j.session with
  | none =>
      rw [hj] at hsession
      rw [hsession.1]
      exact Or.inl ⟨rfl, rfl⟩
  | some session =>
      rw [hj] at hsession
      obtain ⟨writer, rs, hwriter, hs, hreaders⟩ := hsession
      dsimp only
      by_cases hk : k < j.sessions
      · have hlt : k < s.writers.length := hr.sessions ▸ hk
        exact Or.inr ⟨session, writer, rs, s.writers[k], List.getElem?_eq_getElem hlt,
          hr.writers _ (List.getElem_mem hlt), rfl, hk, if_pos hk, hwriter, hs, hreaders⟩
      · refine Or.inl ⟨List.getElem?_eq_none ?_, if_neg hk⟩
        rw [hr.sessions]
        exact Nat.le_of_not_lt hk

/-- A writer that points to the header may take the place of another. -/
theorem Refines.writers_set (hr : Refines h cap s j) (k : Nat) {writer : BunWriter}
    (hwriter : writer.data.buffer = 0) : ∀ w ∈ s.writers.set k writer, w.data.buffer = 0 := by
  intro w hw
  rcases List.mem_or_eq_of_mem_set hw with hold | hnew
  · exact hr.writers w hold
  · rw [hnew]
    exact hwriter

/-- What a call by a writer leaves behind is related to what the session has become. -/
theorem Refines.stored (hr : Refines h cap s j) {bytes : List UInt8}
    (hbytes : bytes.length = s.buffer.payload.length) {writers : List BunWriter}
    (hlength : writers.length = s.writers.length) (hzero : ∀ w ∈ writers, w.data.buffer = 0)
    {writer : BunWriter} (hwriter : writers.getLast? = some writer) {rs rs' : List Record}
    {session : JournalSession}
    (hs : SessionOf h (s.buffer.withPayload bytes hbytes) writer rs' session)
    (hreaders : List.Forall₂ (ReaderOf h s.buffer.payload rs) s.readers j.readers)
    (hgrow : rs <+: rs') :
    Refines h cap { s with buffer := s.buffer.withPayload bytes hbytes, writers := writers }
      { j with session := some session } :=
  ⟨hr.room, hbytes.trans hr.cap, hr.handle, hr.attempts, hlength.trans hr.sessions, hzero, writer,
    rs', hwriter, hs, hreaders.imp fun _ _ hplace => hplace.grow hgrow hbytes⟩

theorem agrees_frameWrite (hr : Refines h cap s j) {k : Nat} {frame : BunFrame}
    (hallows : Journal.Allows h cap j (.frameWrite k frame)) :
    Agrees h cap s j (.frameWrite k frame) := by
  obtain ⟨hf, hcond⟩ := hallows
  unfold Agrees BufferState.call Journal.call
  dsimp only
  rcases hr.writer_cases k (Journal.write h cap frame) with ⟨hnone, hmissing⟩ |
    ⟨session, writer, rs, caller, hcaller, _, hj, hk, hby, hwriter, hs, hreaders⟩
  · rw [hnone, hmissing]
    exact ⟨rfl, hr⟩
  obtain ⟨hlast, hroom⟩ := hcond session hj hk
  -- it is the writer of the session
  have hindex : s.writers.length - 1 = k := by
    rw [hr.sessions, ← hlast, Nat.add_sub_cancel]
  obtain rfl : writer = caller := by
    rw [List.getLast?_eq_getElem?, hindex, hcaller] at hwriter
    exact (Option.some.inj hwriter).symm
  have hl := hs.live
  have hend : Journal.endOf session.frames = streamEnd rs := by
    rw [← hs.frames, endOf_content]
  have hlen : (⟨writer, s.buffer.memory⟩ : WriterState).mem.bytes.length = cap := hr.cap
  have hstored : ∀ {t : WriterState} (ht : t.mem.bytes.length = s.buffer.payload.length)
      {rs' : List Record} {session' : JournalSession}, Live h t rs' →
      rs'.map (Record.content h) = session'.frames →
      HeaderField.size.get t.mem.bytes 0 = session'.declared →
      Header h t session'.tid session'.backend → rs <+: rs' →
      Refines h cap (s.withWriter k t ht) { j with session := some session' } := by
    intro t ht rs' session' hlive hframes hdeclared hheader hgrow
    have hlt : k < s.writers.length := hr.sessions ▸ hk
    refine hr.stored ht List.length_set (hr.writers_set k hlive.at_.buffer) ?_
      ⟨hlive.forget, hframes, hdeclared, hheader.forget⟩ hreaders hgrow
    rw [List.getLast?_eq_getElem?, List.length_set, hindex, List.getElem?_set_self hlt]
  rw [hcaller, hby]
  dsimp only
  rw [Journal.write, hend]
  rw [hend] at hroom
  by_cases hfit : streamEnd rs + frame.encodedLength ≤ cap
  · -- the frame is one more record
    rw [if_pos hfit]
    obtain ⟨hacc, hww, hemit, _⟩ := emitted_of_fits hl.at_ hf (hlen.symm ▸ hfit)
    have hlive := hl.frameStep hf (hlen.symm ▸ hfit)
    have hwritten : wouldWrite h frame = frame.encodedLength - h.shortfall := by omega
    refine ⟨?_, hstored _ hlive ?_ ?_ (hs.header.apply (.frameWrite frame))
      (List.prefix_append rs _)⟩
    · show CallResult.written (bunFrameWrite h ⟨writer, s.buffer.memory⟩ frame).1 = _
      rw [bunFrameWrite_eq, if_neg hacc, hwritten]
    · rw [List.map_append, hs.frames, List.map_singleton, frame.content_record hf]
    · have hsize := hemit.size
      rw [hwritten] at hsize
      rw [← hs.declared]
      exact hsize
  · -- the estimate turns the frame away
    rw [if_neg hfit]
    have hshort := hroom.resolve_left hfit
    have havailable := hl.at_.writerAvailable
    rw [hl.at_.toSizeT_room hl.inside, hlen] at havailable
    have hrefused : wouldWrite h frame > writerAvailable h writer := by
      rw [havailable, wouldWrite_eq hf]
      exact hshort
    have hcall : bunFrameWrite h ⟨writer, s.buffer.memory⟩ frame
        = (0, ⟨writer, s.buffer.memory⟩) := by
      rw [bunFrameWrite_eq, if_pos hrefused]
    refine ⟨?_, hstored _ ?_ hs.frames ?_ ?_ List.prefix_rfl⟩ <;> rw [hcall]
    · rfl
    · exact hl
    · exact hs.declared
    · exact hs.header

/-- Any writer may set a field of the header: all of them point to the same one. -/
theorem agrees_setter (hr : Refines h cap s j) (k : Nat) {f : HeaderField} {v : Nat}
    (op : WriterOp) {c : BufferCall} (act : JournalSession → JournalSession)
    (hop : ∀ t : WriterState, op.apply h t = t.setField f v)
    (hcall : s.call c = match s.writers[k]? with
      | none => (.missing, s)
      | some writer => (.done, s.withWriter k (WriterState.setField ⟨writer, s.buffer.memory⟩ f v)
          (WriterState.length_setField ..)))
    (hjournal : Journal.call h cap j c
      = j.byWriter k fun session => (.done, act session))
    (hact : ∀ session, (act session).frames = session.frames
      ∧ (act session).declared = session.declared
      ∧ (act session).tid = lastTid session.tid [op]
      ∧ (act session).backend = (lastBackendSet [op]).getD session.backend)
    (hstart : HeaderField.size.start + HeaderField.size.width ≤ f.start)
    (hwidth : f.start + f.width ≤ headerSize) :
    Agrees h cap s j c := by
  unfold Agrees
  rw [hcall, hjournal]
  rcases hr.writer_cases k fun session => (.done, act session) with ⟨hnone, hmissing⟩ |
    ⟨session, writer, rs, caller, hcaller, hbuffer, _, _, hby, hwriter, hs, hreaders⟩
  · rw [hnone, hmissing]
    exact ⟨rfl, hr⟩
  obtain ⟨hframes, hdeclared, htid, hbackend⟩ := hact session
  obtain ⟨hlt, hget⟩ := List.getElem?_eq_some_iff.mp hcaller
  -- it is as if the writer of the session had set it
  have hmem : (WriterState.setField ⟨caller, s.buffer.memory⟩ f v).mem
      = (WriterState.setField ⟨writer, s.buffer.memory⟩ f v).mem := by
    show s.buffer.memory.setField caller.data.buffer f v = _
    rw [hbuffer, hs.live.at_.mem_setField]
  have hafter : ∀ bytes (hb : bytes.length = s.buffer.payload.length),
      bytes = (WriterState.setField ⟨writer, s.buffer.memory⟩ f v).mem.bytes →
      SessionOf h (s.buffer.withPayload bytes hb) writer rs (act session) := by
    rintro _ hb rfl
    refine ⟨(hs.live.setField f v hstart hwidth).forget, ?_, ?_, ?_⟩
    · rw [hframes, hs.frames]
    · rw [hdeclared, ← hs.declared]
      show HeaderField.size.get (WriterState.setField ⟨writer, s.buffer.memory⟩ f v).mem.bytes 0 = _
      rw [hs.live.at_.mem_setField,
        HeaderField.get_setField_of_disjoint _ (by decide) hs.live.at_.head v (Or.inl hstart)]
      rfl
    · rw [htid, hbackend]
      exact (hop _ ▸ hs.header.apply op).forget
  rw [hcaller, hby]
  refine ⟨rfl, hr.stored (WriterState.length_setField ..) List.length_set
    (hr.writers_set k hbuffer) ?_
    (hafter _ (WriterState.length_setField ..) (congrArg Memory.bytes hmem)) hreaders
    List.prefix_rfl⟩
  show (s.writers.set k caller).getLast? = some writer
  rw [← hget, List.set_getElem_self hlt]
  exact hwriter

theorem agrees_tidSet (hr : Refines h cap s j) (k : Nat) (tid : UInt32) :
    Agrees h cap s j (.tidSet k tid) :=
  agrees_setter hr k (.tidSet tid) (fun session => { session with tid := tid })
    (fun _ => rfl) rfl rfl (fun _ => ⟨rfl, rfl, rfl, rfl⟩) (by decide) (by decide)

theorem agrees_backendSet (hr : Refines h cap s j) (k : Nat) (backend : BunUnwindBackend) :
    Agrees h cap s j (.backendSet k backend) :=
  agrees_setter hr k (.backendSet backend) (fun session => { session with backend := backend })
    (fun _ => rfl) rfl rfl (fun _ => ⟨rfl, rfl, rfl, rfl⟩) (by decide) (by decide)

/-! ## Reading -/

/-- Where the gate is shut the call returns false and changes nothing. -/
theorem bunFrameRead_of_shut {m : List UInt8} {r : BunReader} {off : Nat}
    (hr : ReaderAt h m r off) (hhead : headerSize ≤ m.length)
    (hshut : gate h (HeaderField.size.get m 0) off = false) (frame : BunFrame) :
    bunFrameRead h m r frame = some (false, r, frame) := by
  have hsize : HeaderField.size.read m r.data.buffer = some (HeaderField.size.get m 0) := by
    rw [hr.buffer]
    exact HeaderField.read_eq_get (hhead.trans' (by decide))
  have hle : h.toPtrdiffT ((HeaderField.size.get m 0 : Int) - off) ≤ 0 :=
    Int.not_lt.mp (of_decide_eq_false hshut)
  rw [bunFrameRead]
  simp only [hsize, hr.offset, Option.bind_eq_bind, Option.bind_some]
  rw [if_pos hle]
  split <;> rfl

/-- **One call on a live stream**: the next frame below the declared size, or nothing happens. -/
theorem Live.read {w : WriterState} {rs : List Record} (hl : Live h w rs) {r : BunReader} {n : Nat}
    (hr : ReaderOf h w.mem.bytes rs r (some n)) (frame : BunFrame) :
    (HeaderField.size.get w.mem.bytes 0 ≤ streamEnd (rs.take n)
      ∧ bunFrameRead h w.mem.bytes r frame = some (false, r, frame)) ∨
    (streamEnd (rs.take n) < HeaderField.size.get w.mem.bytes 0
      ∧ ∃ rec r' frame', rs[n]? = some rec
        ∧ bunFrameRead h w.mem.bytes r frame = some (true, r', frame')
        ∧ frame'.content h = rec.content h ∧ ReaderOf h w.mem.bytes rs r' (some (n + 1))) := by
  obtain ⟨hfollower, hclear⟩ := hr
  have hat := hfollower.at_
  have hlt := HeaderField.size.get_lt w.mem.bytes 0
  have hmem := hat.off_le.trans hat.mem_le
  by_cases hoff : HeaderField.size.get w.mem.bytes 0 ≤ streamEnd (rs.take n)
  · exact Or.inl ⟨hoff, bunFrameRead_of_shut hat hl.at_.head (gate_eq_false hmem hlt hoff) frame⟩
  · have hin := hl.inside.trans hl.at_.mem_le
    have hsize := hl.size_le
    -- below the declared size there is another record
    have hn : n < rs.length := by
      by_contra hge
      rw [List.take_of_length_le (Nat.le_of_not_lt hge)] at hoff
      exact hoff hsize
    have hfront := (hl.readable (Region.SameOn.refl 0 (streamEnd rs) _) (Int.le_refl _)).drop_take n
    rw [List.drop_eq_getElem_cons hn, Codec.encodeAll, List.append_assoc] at hfront
    have hfollows : Follows h w.mem.bytes r (streamEnd (rs.take n)) rs[n] := by
      refine ⟨hclear, ?_, _, by rw [hfront, frameCodec.decode_encode]⟩
      rw [gate_eq_true_iff hmem hlt]
      omega
    have hend := Record.end_le hfront
    have htake : streamEnd (rs.take (n + 1)) = streamEnd (rs.take n) + rs[n].length := by
      rw [← List.take_append_getElem hn, streamEnd_append]
    refine Or.inr ⟨Nat.lt_of_not_le hoff, rs[n], _, _, List.getElem?_eq_getElem hn,
      hfollows.read hat hl.at_.head frame, content_deliver hfront frame, ⟨hn, ?_⟩, hclear⟩
    rw [htake]
    exact hat.advance hend

/-- The readers are where the journal says. -/
theorem Refines.moved (hr : Refines h cap s j) {session : JournalSession} {writer : BunWriter}
    {rs : List Record} (hj : j.session = some session)
    (hwriter : s.writers.getLast? = some writer) (hs : SessionOf h s.buffer writer rs session)
    {readers : List BunReader} {places : List (Option Nat)}
    (hreaders : List.Forall₂ (ReaderOf h s.buffer.payload rs) readers places) :
    Refines h cap { s with readers := readers } { j with readers := places } := by
  refine ⟨hr.room, hr.cap, hr.handle, hr.attempts, hr.sessions, hr.writers, ?_⟩
  unfold SessionRel
  dsimp only
  rw [hj]
  exact ⟨writer, rs, hwriter, hs, hreaders⟩

theorem agrees_readerInit (hr : Refines h cap s j) (reader : BunReader)
    (handle : Option HandleRef) : Agrees h cap s j (.readerInit reader handle) := by
  have hsession := hr.session
  unfold SessionRel at hsession
  unfold Agrees BufferState.call Journal.call
  dsimp only
  cases hj : j.session with
  | none =>
      rw [hj] at hsession
      rw [hsession.2.2.2 reader handle]
      exact ⟨rfl, hr⟩
  | some session =>
      rw [hj] at hsession
      obtain ⟨writer, rs, hwriter, hs, hreaders⟩ := hsession
      obtain ⟨r, hinit⟩ := bunReaderInit_of_magic hr.room hs.live.magic reader handle
      obtain ⟨hat, hclear, _⟩ := bunReaderInit_at hinit
      have hplace : ReaderOf h s.buffer.payload rs r (some 0) := ⟨Follower.start hat rs, hclear⟩
      have hmoved := hr.moved hj hwriter hs
        (List.rel_append hreaders (List.Forall₂.cons hplace List.Forall₂.nil))
      rw [hj] at hmoved
      rw [hinit]
      exact ⟨rfl, hmoved⟩

/-- A call finds a reader on both sides, or on neither. -/
theorem Refines.reader_cases (hr : Refines h cap s j) (i : Nat) :
    (s.readers[i]? = none ∧ (j.session = none ∨ j.readers[i]? = none)) ∨
    ∃ session writer rs r place, j.session = some session ∧ s.writers.getLast? = some writer
      ∧ SessionOf h s.buffer writer rs session
      ∧ List.Forall₂ (ReaderOf h s.buffer.payload rs) s.readers j.readers
      ∧ s.readers[i]? = some r ∧ j.readers[i]? = some place
      ∧ ReaderOf h s.buffer.payload rs r place := by
  have hsession := hr.session
  unfold SessionRel at hsession
  cases hj : j.session with
  | none =>
      rw [hj] at hsession
      rw [hsession.2.1]
      exact Or.inl ⟨rfl, Or.inl rfl⟩
  | some session =>
      rw [hj] at hsession
      obtain ⟨writer, rs, hwriter, hs, hreaders⟩ := hsession
      rcases Run.parts_at hreaders i with ⟨hnone, hnone'⟩ | ⟨r, place, hi, hi', hplace⟩
      · exact Or.inl ⟨hnone, Or.inr hnone'⟩
      · exact Or.inr ⟨session, writer, rs, r, place, rfl, hwriter, hs, hreaders, hi, hi', hplace⟩

theorem agrees_frameRead (hr : Refines h cap s j) (i : Nat) (frame : BunFrame) :
    Agrees h cap s j (.frameRead i frame) := by
  unfold Agrees
  rcases hr.reader_cases i with ⟨hnone, hmissing⟩ |
    ⟨session, writer, rs, r, place, hj, hwriter, hs, hreaders, hi, hi', hplace⟩
  · have hread : j.read i = (some .missing, j) := by
      rw [Journal.read]
      rcases hmissing with hj | hi'
      · rw [hj]
      · rw [hi']
        cases j.session <;> rfl
    rw [BufferState.call, hnone, Journal.call, hread]
    exact ⟨rfl, hr⟩
  rw [BufferState.call, hi, Journal.call, Journal.read, hj, hi']
  -- a reader that stays where it is
  have hsame : j.readers.set i place = j.readers := by
    obtain ⟨hlt, hget⟩ := List.getElem?_eq_some_iff.mp hi'
    rw [← hget, List.set_getElem_self]
  cases place with
  | none =>
      -- it is left over: wherever it is, the call does no harm
      obtain ⟨off, hat⟩ := hplace
      obtain ⟨ok, r', frame', off', hcall, hat'⟩ := hat.call hs.live.at_.head frame
      have hplace' : ReaderOf h s.buffer.payload rs r' none := ⟨off', hat'⟩
      have hmoved := hr.moved hj hwriter hs (Run.parts_set hreaders i hplace')
      rw [hsame] at hmoved
      dsimp only
      rw [show bunFrameRead h s.buffer.payload r frame = some (ok, r', frame') from hcall]
      exact ⟨CallResult.noConfusion, hmoved⟩
  | some n =>
      have hend : Journal.endOf (session.frames.take n) = streamEnd (rs.take n) := by
        rw [← hs.frames, ← List.map_take, endOf_content]
      have hdeclared := hs.declared
      dsimp only
      rw [hend]
      rcases hs.live.read hplace frame with ⟨hshut, hcall⟩ |
        ⟨hopen, rec, r', frame', hrec, hcall, hcontent, hplace'⟩
      · rw [show bunFrameRead h s.buffer.payload r frame = some (false, r, frame) from hcall,
          if_neg (by rw [← hdeclared]; exact Nat.not_lt.mpr hshut)]
        have hmoved := hr.moved hj hwriter hs (Run.parts_set hreaders i hplace)
        rw [hsame] at hmoved
        exact ⟨rfl, hmoved⟩
      · rw [show bunFrameRead h s.buffer.payload r frame = some (true, r', frame') from hcall,
          if_pos (by rw [← hdeclared]; exact hopen)]
        have hmoved := hr.moved hj hwriter hs (Run.parts_set hreaders i hplace')
        rw [hj] at hmoved
        refine ⟨?_, hmoved⟩
        show CallResult.frame _ = _
        rw [← hs.frames, List.getElem?_map, hrec, Option.map_some, ← hcontent]
        rfl

/-- A header field that is asked for. -/
theorem agrees_getter (hr : Refines h cap s j) (i : Nat) {c : BufferCall}
    (get : List UInt8 → BunReader → Option Int) (value : JournalSession → Int)
    (hcall : s.call c = match s.readers[i]? with
      | none => (.missing, s)
      | some reader => match get s.buffer.payload reader with
        | none => (.fault, s)
        | some v => (.value v, s))
    (hjournal : Journal.call h cap j c = j.get i value)
    (hget : ∀ {w : WriterState} {session : JournalSession} {r : BunReader},
      Header h w session.tid session.backend → r.data.buffer = 0 →
      get w.mem.bytes r = some (value session)) :
    Agrees h cap s j c := by
  unfold Agrees
  rw [hcall, hjournal, Journal.get]
  rcases hr.reader_cases i with ⟨hnone, hmissing⟩ |
    ⟨session, writer, rs, r, place, hj, _, hs, _, hi, hi', hplace⟩
  · rw [hnone]
    rcases hmissing with hj | hi'
    · rw [hj]
      exact ⟨rfl, hr⟩
    · rw [hi']
      cases j.session <;> exact ⟨rfl, hr⟩
  · obtain ⟨off, hat⟩ := hplace.at_
    have hvalue : get s.buffer.payload r = some (value session) := hget hs.header hat.buffer
    rw [hi, hj, hi']
    dsimp only
    rw [hvalue]
    exact ⟨rfl, hr⟩

/-- **Each call agrees**, if the journal allows it. -/
theorem agrees (hr : Refines h cap s j) {c : BufferCall} (hc : Journal.Allows h cap j c) :
    Agrees h cap s j c := by
  cases c with
  | writerInit handles tid writer arch handle =>
      exact agrees_writerInit hr handles tid writer arch handle
  | frameWrite k frame => exact agrees_frameWrite hr hc
  | tidSet k tid => exact agrees_tidSet hr k tid
  | backendSet k backend => exact agrees_backendSet hr k backend
  | readerInit reader handle => exact agrees_readerInit hr reader handle
  | frameRead i frame => exact agrees_frameRead hr i frame
  | tidGet i =>
      refine agrees_getter hr i (fun m r => (bunHeaderTidGet m r).map Int.ofNat)
        (fun session => session.tid.toNat) ?_ rfl fun hheader hbuffer => ?_
      · rw [BufferState.call]
        cases s.readers[i]? with
        | none => rfl
        | some reader =>
            dsimp only
            cases bunHeaderTidGet s.buffer.payload reader <;> rfl
      · rw [(hheader.get hbuffer).1]
        rfl
  | backendGet i =>
      exact agrees_getter hr i bunHeaderBackendGet (fun session => session.backend.toUInt16) rfl rfl
        fun hheader hbuffer => (hheader.get hbuffer).2

/-- A journal never says that something outside the payload was read. -/
theorem Journal.call_ne_fault (h : Host) (cap : Nat) (j : Journal) (c : BufferCall) :
    (Journal.call h cap j c).1 ≠ some .fault := by
  have hby : ∀ k (act : JournalSession → CallResult × JournalSession),
      (∀ session, (act session).1 ≠ .fault) → (j.byWriter k act).1 ≠ some .fault := by
    intro k act hact
    unfold byWriter
    split
    · simp
    · split
      · exact fun hfault => hact _ (Option.some.inj hfault)
      · simp
  cases c with
  | writerInit handles tid writer arch handle =>
      rw [call]
      split
      · simp
      · dsimp only
        split <;> simp
  | frameWrite k frame =>
      refine hby k _ fun session => ?_
      rw [write]
      split <;> exact CallResult.noConfusion
  | tidSet k tid => exact hby k _ fun _ => CallResult.noConfusion
  | backendSet k backend => exact hby k _ fun _ => CallResult.noConfusion
  | readerInit reader handle =>
      rw [call]
      split <;> simp
  | frameRead i frame =>
      rw [call, read]
      split
      · split <;> simp
      · simp
      · simp
  | tidGet i | backendGet i =>
      rw [call, get]
      split <;> simp

/-- So what it foretells is no fault, and neither is what it leaves open. -/
theorem Journal.Foretells.ne_fault {said : Option CallResult} {result : CallResult}
    (hresult : Foretells said result) (hsaid : said ≠ some .fault) : result ≠ .fault := by
  cases said with
  | none => exact hresult
  | some value =>
      rintro rfl
      exact hsaid (congrArg some (Eq.symm hresult))

/-- A run on a buffer and the same run on a journal, and where both end. -/
theorem Refines.run (hr : Refines h cap s j) {calls : List BufferCall}
    (hallows : Run.Along (fun j c => (Journal.call h cap j c).2) (Journal.Allows h cap) j calls) :
    List.Forall₂ Foretells (Run.outputs (Journal.call h cap) j calls)
        (Run.outputs BufferState.call s calls)
      ∧ Refines h cap (Run.final BufferState.call s calls)
        (Run.final (Journal.call h cap) j calls) := by
  have hstep : ∀ (s : BufferState h) (j : Journal) (c : BufferCall), Refines h cap s j →
      Journal.Allows h cap j c → Foretells (Journal.call h cap j c).1 (s.call c).1
        ∧ Refines h cap (s.call c).2 (Journal.call h cap j c).2 :=
    fun _ _ _ hr hc => agrees hr hc
  exact Run.simulates_along hstep hr hallows

/--
**The code is a journal.** Take any buffer that was just initialised and any calls on it,
in any order: sessions opened with any handles, frames written, fields set and readers
opened and asked in between, also by the writers and readers of earlier sessions. As
long as frames are written by the writer of the session in progress, and each fits or is
turned away by the estimate, every call returns what the journal says. It leaves open
only what a reader is given that an earlier session left over in the middle. Not even
that one reads outside the payload.
-/
theorem calls_refine_journal {data : CObject h} {buf : BunBuffer h}
    (hbuf : bunBufferInit data = some buf) {calls : List BufferCall}
    (hallows : Run.Along (fun j c => (Journal.call h buf.payload.length j c).2)
      (Journal.Allows h buf.payload.length) Journal.blank calls) :
    List.Forall₂ Foretells (Run.outputs (Journal.call h buf.payload.length) Journal.blank calls)
        (Run.outputs BufferState.call (BufferState.fresh buf) calls)
      ∧ .fault ∉ Run.outputs BufferState.call (BufferState.fresh buf) calls := by
  have hforetold := ((Refines.fresh hbuf).run hallows).1
  refine ⟨hforetold, fun hfault => ?_⟩
  obtain ⟨said, hsaid, hresult⟩ := Run.exists_of_mem hforetold hfault
  have hne : ∀ said ∈ Run.outputs (Journal.call h buf.payload.length) Journal.blank calls,
      said ≠ some .fault := Run.forall_outputs (Journal.call_ne_fault h buf.payload.length)
  exact hresult.ne_fault (hne said hsaid) rfl

/--
Two sessions and three readers. The first reader is asked in both sessions, the second
only in the first, and the third waits for the second session. In that one the writer of
the first still sets a field of the header.
-/
def twoSessionCalls : List BufferCall :=
  [.writerInit (fun _ => ⟨0⟩) 7 unopenedWriter .x86_64 none, .readerInit unopenedReader none,
    .frameWrite 0 mainFrame, .frameRead 0 BunFrame.zero, .frameWrite 0 leafFrame,
    .readerInit unopenedReader none, .frameRead 1 BunFrame.zero, .frameRead 1 mainFrame,
    .readerInit unopenedReader none, .writerInit (fun _ => ⟨0⟩) 8 unopenedWriter .x86_64 none,
    .frameWrite 1 leafFrame, .frameRead 0 BunFrame.zero, .backendSet 0 .libbacktrace,
    .frameWrite 1 mainFrame, .frameRead 2 BunFrame.zero, .tidGet 0, .backendGet 2]

/-- A frame that fits, by the writer of the session. -/
theorem Journal.allows_of_fits {session : JournalSession} {k : Nat} {frame : BunFrame}
    (hf : frame.WellFormed h) (hj : j.session = some session) (hk : k + 1 = j.sessions)
    (hfit : endOf session.frames + frame.encodedLength ≤ cap) :
    Journal.Allows h cap j (.frameWrite k frame) := by
  refine ⟨hf, fun session' hj' _ => ⟨hk, Or.inl ?_⟩⟩
  obtain rfl : session = session' := Option.some.inj (hj.symm.trans hj')
  exact hfit

theorem twoSessionCalls_allowed :
    Run.Along (fun j c => (Journal.call ⟨.w64, .little⟩ 134 j c).2)
      (Journal.Allows ⟨.w64, .little⟩ 134) Journal.blank twoSessionCalls := by
  have hmain := mainFrame_wellFormed ⟨.w64, .little⟩
  have hleaf := leafFrame_wellFormed ⟨.w64, .little⟩
  exact ⟨trivial, trivial, Journal.allows_of_fits hmain rfl rfl (by decide), trivial,
    Journal.allows_of_fits hleaf rfl rfl (by decide), trivial, trivial, trivial, trivial, trivial,
    Journal.allows_of_fits hleaf rfl rfl (by decide), trivial, trivial,
    Journal.allows_of_fits hmain rfl rfl (by decide), trivial, trivial, trivial, trivial⟩

theorem calls_refine_journal_twoSessions :
    ∃ buf, bunBufferInit (zeroedObject ⟨.w64, .little⟩ 150 (by decide)) = some buf
      ∧ List.Forall₂ Foretells
        (Run.outputs (Journal.call ⟨.w64, .little⟩ buf.payload.length) Journal.blank
          twoSessionCalls)
        (Run.outputs BufferState.call (BufferState.fresh buf) twoSessionCalls)
      ∧ .fault ∉ Run.outputs BufferState.call (BufferState.fresh buf) twoSessionCalls := by
  obtain ⟨buf, hbuf, hlen⟩ :=
    bunBufferInit_zeroedObject ⟨.w64, .little⟩ (by decide : 150 < 2 ^ 31) (by decide)
  exact ⟨buf, hbuf, calls_refine_journal hbuf (hlen ▸ twoSessionCalls_allowed)⟩

end LibBun
