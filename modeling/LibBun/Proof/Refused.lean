import LibBun.Backend.Libbacktrace
import LibBun.Backend.Libunwind
import LibBun.Backend.Libunwindstack
import LibBun.Proof.Emit
import LibBun.Proof.Opening

/-!
# A session that was refused

When `bun_writer_init` returns false it has not touched the writer. No entry point
looks at what it returned, so all of them go on with a writer that holds what was
on the stack, set the backend in the header this writer points to, and write their
frames to where its cursor points.

The claim that nothing happens to the payload fails at the first of these stores.
For every entry point, every buffer that refuses the session and every answer of
the unwinder there is a stack content for which the first byte of the payload is
overwritten and never restored: `writeFrames_beyond` says that a writer whose cursor
is behind the payload, and whose header lies before it, writes its frames without
leaving a trace.
-/

namespace LibBun

variable {h : Host}

/-! ## The entry points -/

/-- An entry point and what the calls it makes answer. -/
inductive EntryPoint where
  | libbacktraceUnwind (answers : BacktraceAnswers)
  | libunwindUnwindImpl (tid : UInt32) (safety : BunUnwindSignalSafety) (steps : List UnwStep)
  | libunwindstackUnwind (answers : LocalAnswers)
  | libunwindstackUnwindRemote (pid : UInt32) (answers : RemoteAnswers)
  | libunwindstackUnwindContext (answers : ContextAnswers)

namespace EntryPoint

/-- The call, made by thread `self`. -/
def run (e : EntryPoint) (handles : HandleRef → BunHandle) (self : UInt32) (locals : Locals)
    (buffer : BunBuffer h) (arch : BunArchitecture) (handle : Option HandleRef) : Unwound h :=
  match e with
  | .libbacktraceUnwind answers =>
      LibBun.libbacktraceUnwind handles self locals buffer arch handle answers
  | .libunwindUnwindImpl tid safety steps =>
      LibBun.libunwindUnwindImpl handles self locals buffer arch handle tid safety steps
  | .libunwindstackUnwind answers =>
      LibBun.libunwindstackUnwind handles self locals buffer arch handle answers
  | .libunwindstackUnwindRemote pid answers =>
      LibBun.libunwindstackUnwindRemote handles self locals buffer arch handle pid answers
  | .libunwindstackUnwindContext answers =>
      LibBun.libunwindstackUnwindContext handles self locals buffer arch handle answers

/-- The threads the libunwind backend is called for have ids, and no id is 0. -/
def IsThread : EntryPoint → Prop
  | .libunwindUnwindImpl tid _ _ => tid ≠ 0
  | _ => True

/-- What the entry point stores in the header before the first frame. -/
def opened (e : EntryPoint) (self : UInt32) (s : WriterState) : WriterState :=
  match e with
  | .libbacktraceUnwind _ => bunHeaderBackendSet s .libbacktrace
  | .libunwindUnwindImpl tid _ _ => bunHeaderTidSet (bunHeaderBackendSet s .libunwind) tid
  | .libunwindstackUnwind _ => stackOpened s self
  | .libunwindstackUnwindRemote pid _ => stackOpened s pid
  | .libunwindstackUnwindContext _ => stackOpened s self

@[simp] theorem opened_writer (e : EntryPoint) (self : UInt32) (s : WriterState) :
    (e.opened self s).writer = s.writer := by
  cases e <;> rfl

@[simp] theorem length_opened (e : EntryPoint) (self : UInt32) (s : WriterState) :
    (e.opened self s).mem.bytes.length = s.mem.bytes.length := by
  cases e <;> simp [opened, bunHeaderTidSet, bunHeaderBackendSet]

end EntryPoint

/-! ## A refused session -/

/-- A refused entry point stores what it stores through the writer on the stack. -/
theorem EntryPoint.payload_run (e : EntryPoint) {handles : HandleRef → BunHandle} {self : UInt32}
    {buf : BunBuffer h} {arch : BunArchitecture} {handle : Option HandleRef}
    (href : (bunWriterInit handles self unopenedWriter buf arch handle).1 = false)
    (locals : Locals) :
    ∃ frames, (e.run handles self locals buf arch handle).buffer.payload
      = (writeFrames h (e.opened self ⟨locals.writer, buf.memory⟩) frames).2.mem.bytes := by
  obtain ⟨buf', hinit, hpay⟩ := bunWriterInit_refused href locals.writer
  have hsession : ∀ (body : WriterState → Session)
      (hbody : ∀ s, (body s).state.mem.bytes.length = s.mem.bytes.length),
      (runSession handles self locals.writer buf arch handle body hbody).buffer.payload
        = (body ⟨locals.writer, buf.memory⟩).state.mem.bytes := fun body hbody => by
    have hmem : buf'.memory = buf.memory := by rw [BunBuffer.memory, hpay, BunBuffer.memory]
    rw [← hmem]
    unfold runSession
    rw [hinit]
    rfl
  cases e with
  | libbacktraceUnwind answers =>
      obtain ⟨frames, hstate⟩ := libbacktraceSession_writes h answers ⟨locals.writer, buf.memory⟩
      refine ⟨frames, ?_⟩
      rw [run, LibBun.libbacktraceUnwind, hsession, hstate, opened]
  | libunwindUnwindImpl tid safety steps =>
      obtain ⟨frames, hstate⟩ :=
        libunwindSession_writes h arch tid safety locals steps ⟨locals.writer, buf.memory⟩
      refine ⟨frames, ?_⟩
      rw [run, LibBun.libunwindUnwindImpl, hsession, hstate, opened]
  | libunwindstackUnwind answers =>
      obtain ⟨frames, hstate⟩ :=
        libunwindstackSession_writes h arch self locals answers ⟨locals.writer, buf.memory⟩
      refine ⟨frames, ?_⟩
      rw [run, LibBun.libunwindstackUnwind, hsession, hstate, opened]
  | libunwindstackUnwindRemote pid answers =>
      obtain ⟨frames, hstate⟩ :=
        libunwindstackRemoteSession_writes h arch pid locals answers ⟨locals.writer, buf.memory⟩
      refine ⟨frames, ?_⟩
      rw [run, LibBun.libunwindstackUnwindRemote, hsession, hstate, opened]
  | libunwindstackUnwindContext answers =>
      obtain ⟨frames, hstate⟩ :=
        libunwindstackContextSession_writes h arch self locals answers ⟨locals.writer, buf.memory⟩
      refine ⟨frames, ?_⟩
      rw [run, LibBun.libunwindstackUnwindContext, hsession, hstate, opened]

/-! ## Frames written behind the payload -/

/-- The cursor of `s` is behind the payload, and `t` has got from there without a trace. -/
structure Behind (s t : WriterState) : Prop where
  /-- The payload is the same. -/
  bytes : t.mem.bytes = s.mem.bytes
  /-- The header is taken to be at the same place. -/
  buffer : t.writer.data.buffer = s.writer.data.buffer
  /-- The cursor is behind the payload. -/
  cursor : (t.mem.bytes.length : Int) ≤ t.writer.data.cursor

namespace Behind

variable {s t : WriterState}

theorem memcpy (hst : Behind s t) (bs : List UInt8) : Behind s (t.memcpy bs) := by
  have hsame : (t.memcpy bs).mem.bytes = t.mem.bytes := by
    rw [WriterState.memcpy, Memory.memcpy_bytes, Region.patch_behind bs hst.cursor]
  exact ⟨hsame.trans hst.bytes, hst.buffer, by rw [hsame]; exact hst.cursor⟩

theorem advance (hst : Behind s t) (n : Nat) : Behind s (t.advance n) :=
  ⟨hst.bytes, hst.buffer,
    Int.le_trans hst.cursor (Int.le_add_of_nonneg_right (Int.natCast_nonneg n))⟩

/-- The steps of a call stay behind the payload. -/
theorem steps (s : WriterState) : StepInvariant (Behind s) where
  memcpy := fun bs hst => hst.memcpy bs
  advance := fun n hst => hst.advance n
  setOverflow := fun hst => ⟨hst.bytes, hst.buffer, hst.cursor⟩

end Behind

/-- A field of a header that lies before the payload is set without a trace. -/
theorem setField_before {s : WriterState} {f : HeaderField} (v : Nat)
    (hbefore : s.writer.data.buffer + (f.start + f.width : Nat) ≤ 0) :
    (s.setField f v).mem.bytes = s.mem.bytes := by
  have hlen : (LittleEndian.encode f.width v).length = f.width := LittleEndian.length_encode ..
  have hend : s.writer.data.buffer + f.start + (LittleEndian.encode f.width v).length ≤ 0 := by
    rw [hlen]
    omega
  exact Region.patch_before s.mem.bytes hend

/-- A frame is written, its header before the payload, and the payload is the same. -/
theorem Behind.bunFrameWrite {s t : WriterState} (hst : Behind s t)
    (hbefore : s.writer.data.buffer + 16 ≤ 0) (f : BunFrame) :
    Behind s (bunFrameWrite h t f).2 := by
  rw [bunFrameWrite_eq]
  split
  · exact hst
  · have hbody := (Behind.steps s).writeBody (h := h) hst f
    have hlost : (writeHeader h (LibBun.writeBody h t f) f).mem.bytes
        = (LibBun.writeBody h t f).mem.bytes :=
      setField_before _ (by rw [hbody.buffer]; exact hbefore)
    exact ⟨hlost.trans hbody.bytes, hbody.buffer, by rw [hlost]; exact hbody.cursor⟩

/-- **Frames can be written without a trace**, and any number of them. -/
theorem writeFrames_beyond {s : WriterState} (frames : List BunFrame)
    (hbefore : s.writer.data.buffer + 16 ≤ 0)
    (hbeyond : (s.mem.bytes.length : Int) ≤ s.writer.data.cursor) :
    (writeFrames h s frames).2.mem.bytes = s.mem.bytes := by
  have hrun : ∀ {t : WriterState}, Behind s t → Behind s (writeFrames h t frames).2 := by
    induction frames with
    | nil => exact id
    | cons f fs ih => exact fun hst => ih (hst.bunFrameWrite hbefore f)
  exact (hrun ⟨rfl, rfl, hbeyond⟩).bytes

/-! ## A stack content that does harm -/

/-- A writer whose header starts at `buffer` and whose cursor is behind a payload of `n` bytes. -/
def strayWriter (buffer : Int) (n : Nat) : BunWriter := ⟨⟨buffer, n, 0, none, false⟩⟩

/-- A field that starts `j` bytes before the payload has its `j`-th byte first in the payload. -/
theorem setField_head {s : WriterState} {f : HeaderField} {v j : Nat} {c : UInt8}
    (hne : s.mem.bytes ≠ []) (hstart : s.writer.data.buffer + f.start = -(j : Int))
    (hc : (LittleEndian.encode f.width v)[j]? = some c) :
    (s.setField f v).mem.bytes[0]? = some c := by
  have hle : s.writer.data.buffer + f.start ≤ ((0 : Nat) : Int) := by omega
  have hidx : (((0 : Nat) : Int) - (s.writer.data.buffer + f.start)).toNat = j := by omega
  rw [WriterState.setField, Memory.setField, Memory.store, Region.getElem?_patch, hidx, hc]
  simp only [if_pos hle, Option.getD_some]
  rw [List.getElem?_eq_getElem (List.length_pos_iff.mpr hne), Option.map_some]

/-- Whatever a byte is, the number of a backend other than libunwind has one that is not it. -/
theorem exists_backend_byte {b : BunUnwindBackend}
    (hb : b = .libbacktrace ∨ b = .libunwindstack) (x : UInt8) :
    ∃ (j : Nat) (c : UInt8),
      (LittleEndian.encode HeaderField.backend.width b.toUInt16)[j]? = some c ∧ c ≠ x := by
  by_cases hx : x = 0
  · subst hx
    rcases hb with rfl | rfl
    · exact ⟨0, 1, rfl, by decide⟩
    · exact ⟨0, 2, rfl, by decide⟩
  · rcases hb with rfl | rfl
    · exact ⟨1, 0, rfl, Ne.symm hx⟩
    · exact ⟨1, 0, rfl, Ne.symm hx⟩

/--
**What is stored before the first frame is enough.** There is a place for the header,
so far before the payload that no frame reaches it, from which a byte of the backend
or of the thread id lands on the first byte of the payload and changes it.
-/
theorem EntryPoint.exists_stray (e : EntryPoint) (he : e.IsThread) (self : UInt32)
    {bytes : List UInt8} (hne : bytes ≠ []) :
    ∃ buffer : Int, buffer + 16 ≤ 0
      ∧ ∀ n, (e.opened self ⟨strayWriter buffer n, ⟨bytes, []⟩⟩).mem.bytes ≠ bytes := by
  obtain ⟨x, rest, rfl⟩ := List.exists_cons_of_ne_nil hne
  -- a byte of the backend; the thread id in front of it is lost
  have hbackend : ∀ (b : BunUnwindBackend) (j : Nat) (c : UInt8),
      (LittleEndian.encode HeaderField.backend.width b.toUInt16)[j]? = some c → c ≠ x →
      ∀ n, (bunHeaderBackendSet ⟨strayWriter (-20 - j) n, ⟨x :: rest, []⟩⟩ b).mem.bytes ≠ x :: rest
        ∧ ∀ tid, (bunHeaderTidSet (bunHeaderBackendSet
          ⟨strayWriter (-20 - j) n, ⟨x :: rest, []⟩⟩ b) tid).mem.bytes ≠ x :: rest := by
    intro b j c hc hcx n
    have hstart : (-20 - (j : Int)) + (HeaderField.backend.start : Nat) = -(j : Int) := by
      have : HeaderField.backend.start = 20 := rfl
      omega
    have hchanged : (bunHeaderBackendSet ⟨strayWriter (-20 - j) n, ⟨x :: rest, []⟩⟩ b).mem.bytes
        ≠ x :: rest := by
      intro hsame
      have hfirst := setField_head (s := ⟨strayWriter (-20 - j) n, ⟨x :: rest, []⟩⟩) hne hstart hc
      rw [bunHeaderBackendSet] at hsame
      rw [hsame] at hfirst
      exact hcx (Option.some.inj hfirst).symm
    refine ⟨hchanged, fun tid => ?_⟩
    rw [bunHeaderTidSet, setField_before]
    · exact hchanged
    · show (-20 - (j : Int)) + (20 : Nat) ≤ 0
      omega
  have hstack : ∀ tid : UInt32, ∃ buffer : Int, buffer + 16 ≤ 0
      ∧ ∀ n, (stackOpened ⟨strayWriter buffer n, ⟨x :: rest, []⟩⟩ tid).mem.bytes ≠ x :: rest := by
    intro tid
    obtain ⟨j, c, hc, hcx⟩ := exists_backend_byte (Or.inr rfl) x
    exact ⟨-20 - j, by omega, fun n => (hbackend _ j c hc hcx n).2 tid⟩
  cases e with
  | libbacktraceUnwind answers =>
      obtain ⟨j, c, hc, hcx⟩ := exists_backend_byte (Or.inl rfl) x
      exact ⟨-20 - j, by omega, fun n => (hbackend _ j c hc hcx n).1⟩
  | libunwindUnwindImpl tid safety steps =>
      by_cases hx : x = 0
      · -- the number of the backend is 0 as well, but the thread id is not
        subst hx
        have htid : tid.toNat % 256 ^ HeaderField.tid.width ≠ 0 := by
          have hlt : tid.toNat < 256 ^ HeaderField.tid.width := tid.toNat_lt
          rw [Nat.mod_eq_of_lt hlt]
          exact fun hz => he (UInt32.toNat_inj.mp hz)
        obtain ⟨j, c, hc, hcx⟩ := LittleEndian.exists_byte_ne_zero htid
        refine ⟨-16 - j, by omega, fun n hsame => ?_⟩
        have hstart : (-16 - (j : Int)) + (HeaderField.tid.start : Nat) = -(j : Int) := by
          have : HeaderField.tid.start = 16 := rfl
          omega
        have hnonempty : (bunHeaderBackendSet ⟨strayWriter (-16 - j) n, ⟨0 :: rest, []⟩⟩
            .libunwind).mem.bytes ≠ [] := by
          rw [← List.length_pos_iff, bunHeaderBackendSet, WriterState.length_setField]
          exact Nat.zero_lt_succ _
        have hfirst := setField_head hnonempty hstart hc
        rw [EntryPoint.opened, bunHeaderTidSet] at hsame
        rw [hsame] at hfirst
        exact hcx (Option.some.inj hfirst).symm
      · exact ⟨-20 - (0 : Nat), by decide, fun n =>
          (hbackend .libunwind 0 0 rfl (Ne.symm hx) n).2 tid⟩
  | libunwindstackUnwind answers => exact hstack self
  | libunwindstackUnwindRemote pid answers => exact hstack pid
  | libunwindstackUnwindContext answers => exact hstack self

/-- Uninitialised locals of which only the writer matters. -/
def strayLocals (writer : BunWriter) : Locals where
  writer := writer
  ip := fun _ => 0
  off := fun _ => 0
  registerBuf := fun _ => ⟨List.replicate 340 0, List.length_replicate⟩
  adjustedRelativePc := fun _ => 0
  waitpidStopped := false

/-- A refused entry point can change the payload, whatever it is and whatever it is answered. -/
theorem EntryPoint.exists_changed {handles : HandleRef → BunHandle} {self : UInt32}
    {buf : BunBuffer h} {arch : BunArchitecture} {handle : Option HandleRef}
    (hbuf : bunBufferPayloadHeaderSize ≤ buf.size)
    (href : (bunWriterInit handles self unopenedWriter buf arch handle).1 = false)
    (e : EntryPoint) (he : e.IsThread) :
    ∃ locals, (e.run handles self locals buf arch handle).buffer.payload ≠ buf.payload := by
  have hne : buf.payload ≠ [] := by
    have hlen := (buf.payload_room hbuf).1
    exact List.ne_nil_of_length_pos (Nat.lt_of_lt_of_le (by decide) hlen)
  obtain ⟨buffer, hbefore, hharm⟩ := e.exists_stray he self hne
  refine ⟨strayLocals (strayWriter buffer buf.payload.length), fun hsame => ?_⟩
  obtain ⟨frames, hpay⟩ :=
    e.payload_run href (strayLocals (strayWriter buffer buf.payload.length))
  have hlost := writeFrames_beyond (h := h) (s := e.opened self
    ⟨strayWriter buffer buf.payload.length, buf.memory⟩) frames
    (by rw [e.opened_writer]; exact hbefore)
    (by rw [e.opened_writer, e.length_opened]; exact Int.le_refl _)
  exact hharm buf.payload.length (hlost.symm.trans (hpay.symm.trans hsame))

/-! ## The result -/

/-- The entry point returns 0 and leaves the payload as it was, whatever was on the stack. -/
def RefusedQuietly (e : EntryPoint) (handles : HandleRef → BunHandle) (self : UInt32)
    (buf : BunBuffer h) (arch : BunArchitecture) (handle : Option HandleRef) : Prop :=
  ∀ locals : Locals, (e.run handles self locals buf arch handle).ret = 0
    ∧ (e.run handles self locals buf arch handle).buffer.payload = buf.payload

/--
**No refused session is quiet.** The buffer is any that has been initialised and
refuses the session, for the handle it is bound to or for its counter; the entry
point is any, with any answers of the unwinder.
-/
theorem refused_session {handles : HandleRef → BunHandle} {self : UInt32} {buf : BunBuffer h}
    {arch : BunArchitecture} {handle : Option HandleRef}
    (hbuf : bunBufferPayloadHeaderSize ≤ buf.size)
    (href : (bunWriterInit handles self unopenedWriter buf arch handle).1 = false)
    (e : EntryPoint) (he : e.IsThread) : ¬RefusedQuietly e handles self buf arch handle := by
  intro hquiet
  obtain ⟨locals, hchanged⟩ := e.exists_changed hbuf href he
  exact hchanged (hquiet locals).2

/-- A step of the unwinder for which it knows neither a name nor a register. -/
def namelessStep : UnwStep where
  ip := some 1
  procName := .failed
  dliSname := none
  demangled := none
  registers := fun _ => none

/-- A second session on a write-once buffer, with the same handle. -/
theorem refused_session_second :
    ∃ buf buf' w, bunBufferInit (zeroedObject ⟨.w64, .little⟩ 100 (by decide)) = some buf
      ∧ bunWriterInit (fun _ => ⟨1⟩) 7 unopenedWriter buf .x86_64 (some 5) = (true, w, buf')
      ∧ ¬RefusedQuietly (.libunwindUnwindImpl 8 .required [namelessStep]) (fun _ => ⟨1⟩) 8 buf'
        .x86_64 (some 5) := by
  have hopen : ∃ buf buf' w, bunBufferInit (zeroedObject ⟨.w64, .little⟩ 100 (by decide)) = some buf
      ∧ bunWriterInit (fun _ => ⟨1⟩) 7 unopenedWriter buf .x86_64 (some 5) = (true, w, buf')
      ∧ bunBufferPayloadHeaderSize ≤ buf'.size
      ∧ (bunWriterInit (fun _ => ⟨1⟩) 8 unopenedWriter buf' .x86_64 (some 5)).1 = false :=
    ⟨_, _, _, rfl, rfl, by decide, rfl⟩
  obtain ⟨buf, buf', w, hbuf, hinit, hroom, href⟩ := hopen
  exact ⟨buf, buf', w, hbuf, hinit, refused_session hroom href
    (.libunwindUnwindImpl 8 .required [namelessStep]) (by decide : (8 : UInt32) ≠ 0)⟩

/-- The writer of the first session is still on the stack: a frame is added to its stream. -/
theorem refused_session_adds_frame :
    ∃ buf buf' w, bunBufferInit (zeroedObject ⟨.w64, .little⟩ 100 (by decide)) = some buf
      ∧ bunWriterInit (fun _ => ⟨1⟩) 7 unopenedWriter buf .x86_64 (some 5) = (true, w, buf')
      ∧ (bunWriterInit (fun _ => ⟨1⟩) 8 unopenedWriter buf' .x86_64 (some 5)).1 = false
      ∧ ((EntryPoint.libunwindUnwindImpl 8 .required [namelessStep]).run (fun _ => ⟨1⟩) 8
        (strayLocals w) buf' .x86_64 (some 5)).ret = 59
      ∧ ¬RefusedQuietly (.libunwindUnwindImpl 8 .required [namelessStep]) (fun _ => ⟨1⟩) 8 buf'
        .x86_64 (some 5) := by
  have hopen : ∃ buf buf' w, bunBufferInit (zeroedObject ⟨.w64, .little⟩ 100 (by decide)) = some buf
      ∧ bunWriterInit (fun _ => ⟨1⟩) 7 unopenedWriter buf .x86_64 (some 5) = (true, w, buf')
      ∧ (bunWriterInit (fun _ => ⟨1⟩) 8 unopenedWriter buf' .x86_64 (some 5)).1 = false
      ∧ ((EntryPoint.libunwindUnwindImpl 8 .required [namelessStep]).run (fun _ => ⟨1⟩) 8
        (strayLocals w) buf' .x86_64 (some 5)).ret = 59 :=
    ⟨_, _, _, rfl, rfl, rfl, by decide +kernel⟩
  obtain ⟨buf, buf', w, hbuf, hinit, href, hret⟩ := hopen
  refine ⟨buf, buf', w, hbuf, hinit, href, hret, fun hquiet => ?_⟩
  exact absurd (hret.symm.trans (hquiet (strayLocals w)).1) (by decide)

end LibBun
