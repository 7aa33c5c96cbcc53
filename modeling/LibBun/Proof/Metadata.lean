import LibBun.Proof.ReaderRun
import LibBun.Proof.Writer

/-!
# What the header says about a session

The header has a thread id and a backend beside the size, and three kinds of calls
write to these few bytes in any order. None gets in the way of another: `Header` says
what the two fields hold after any calls, and `Follows.congr` that a reader sees the
same frames whatever they hold.

What a field holds is not always what comes out of it. `BUN_BACKEND_NONE` is -1, the
field has sixteen bits and no sign, and 65535 comes back. As `bun_writer_init` stores
`BUN_BACKEND_NONE` itself, every session starts that way.
-/

namespace LibBun

variable {h : Host}

/-- The id that was set last, at first that of the thread that opened the session. -/
def lastTid (tid : UInt32) (ops : List WriterOp) : UInt32 :=
  ops.foldl (fun last op => match op with | .tidSet tid => tid | _ => last) tid

/-- The backend that was set last, if one was. -/
def lastBackendSet (ops : List WriterOp) : Option BunUnwindBackend :=
  ops.foldl (fun last op => match op with | .backendSet backend => some backend | _ => last) none

/-- The backend of the session; `bun_writer_init` sets `BUN_BACKEND_NONE`. -/
def lastBackend (ops : List WriterOp) : BunUnwindBackend := (lastBackendSet ops).getD .none

/-! ## The fields -/

/-- The writer's header holds the id and the backend. -/
structure Header (h : Host) (s : WriterState) (tid : UInt32) (backend : BunUnwindBackend) :
    Prop where
  at_ : ∃ off, WriterAt h s off
  magic : HeaderField.magic.get s.mem.bytes 0 = bunHeaderMagic
  tid : HeaderField.tid.get s.mem.bytes 0 = tid.toNat
  backend : HeaderField.backend.get s.mem.bytes 0 = backend.toUInt16

namespace Header

variable {s : WriterState} {tid : UInt32} {backend : BunUnwindBackend}

theorem init {handles : HandleRef → BunHandle} {w₀ w : BunWriter} {buf buf' : BunBuffer h}
    {arch : BunArchitecture} {handle : Option HandleRef}
    (hbuf : bunBufferPayloadHeaderSize ≤ buf.size)
    (hinit : bunWriterInit handles tid w₀ buf arch handle = (true, w, buf')) :
    Header h ⟨w, buf'.memory⟩ tid .none := by
  obtain ⟨hat, _, hmagic, _⟩ := bunWriterInit_at hbuf hinit
  obtain ⟨_, _, hpay⟩ := bunWriterInit_eq_true hinit
  obtain ⟨_, _, htid, hbackend⟩ := initHeader_fields buf.memory (buf.payload_room hbuf).1 arch tid
  rw [← hpay] at htid hbackend
  exact ⟨⟨_, hat⟩, hmagic, htid, hbackend⟩

/-- **Each call changes what it is for.** -/
theorem apply (hs : Header h s tid backend) (op : WriterOp) :
    Header h (op.apply h s) (lastTid tid [op]) ((lastBackendSet [op]).getD backend) := by
  obtain ⟨⟨off, hat⟩, hmagic, htid, hbackend⟩ := hs
  obtain ⟨off', _, hat'⟩ := hat.apply op
  cases op with
  | frameWrite f =>
      have hkeep := fun (g : HeaderField) => HeaderField.get_frameStep hat f (g := g)
      exact ⟨⟨off', hat'⟩, (hkeep .magic (by decide) (by decide)).trans hmagic,
        (hkeep .tid (by decide) (by decide)).trans htid,
        (hkeep .backend (by decide) (by decide)).trans hbackend⟩
  | tidSet tid' =>
      have hmem : (WriterOp.apply h s (.tidSet tid')).mem
          = s.mem.setField 0 HeaderField.tid tid'.toNat := hat.mem_setField _ _
      refine ⟨⟨off', hat'⟩, ?_, ?_, ?_⟩ <;> rw [hmem]
      · rw [HeaderField.get_setField_of_disjoint _ (by decide) hat.head _ (by decide)]
        exact hmagic
      · rw [HeaderField.get_setField _ (by decide) hat.head]
        exact Nat.mod_eq_of_lt tid'.toNat_lt
      · rw [HeaderField.get_setField_of_disjoint _ (by decide) hat.head _ (by decide)]
        exact hbackend
  | backendSet backend' =>
      have hmem : (WriterOp.apply h s (.backendSet backend')).mem
          = s.mem.setField 0 HeaderField.backend backend'.toUInt16 := hat.mem_setField _ _
      refine ⟨⟨off', hat'⟩, ?_, ?_, ?_⟩ <;> rw [hmem]
      · rw [HeaderField.get_setField_of_disjoint _ (by decide) hat.head _ (by decide)]
        exact hmagic
      · rw [HeaderField.get_setField_of_disjoint _ (by decide) hat.head _ (by decide)]
        exact htid
      · rw [HeaderField.get_setField _ (by decide) hat.head]
        cases backend' <;> rfl

theorem run (hs : Header h s tid backend) (ops : List WriterOp) :
    Header h (ops.foldl (WriterOp.apply h) s) (lastTid tid ops)
      ((lastBackendSet ops).getD backend) := by
  induction ops using List.reverseRecOn with
  | nil => exact hs
  | append_singleton ops op ih =>
      have htid : lastTid tid (ops ++ [op]) = lastTid (lastTid tid ops) [op] := by
        unfold lastTid
        rw [List.foldl_append]
      have hbackend : (lastBackendSet (ops ++ [op])).getD backend
          = (lastBackendSet [op]).getD ((lastBackendSet ops).getD backend) := by
        rw [lastBackendSet, List.foldl_append, ← lastBackendSet]
        cases op <;> rfl
      rw [List.foldl_append, htid, hbackend]
      exact ih.apply op

/-- What a reader on the same payload gets. -/
theorem get (hs : Header h s tid backend) {r : BunReader} (hr : r.data.buffer = 0) :
    bunHeaderTidGet s.mem.bytes r = some tid.toNat
      ∧ bunHeaderBackendGet s.mem.bytes r = some (backend.toUInt16 : Int) := by
  obtain ⟨off, hat⟩ := hs.at_
  have hhead := hat.head
  constructor
  · rw [bunHeaderTidGet, hr, HeaderField.read_eq_get (hhead.trans' (by decide)), hs.tid]
  · rw [bunHeaderBackendGet, hr, HeaderField.read_eq_get (hhead.trans' (by decide)), hs.backend]
    rfl

end Header

/-! ## What a reader sees -/

section

variable {mem mem' : List UInt8} {r : BunReader} {off : Nat} {rec : Record}

/-- What is next depends on the size in the header and on the bytes from the cursor on. -/
theorem Follows.congr (hrec : Follows h mem r off rec)
    (hsize : HeaderField.size.get mem' 0 = HeaderField.size.get mem 0)
    (hrest : mem'.drop off = mem.drop off) : Follows h mem' r off rec := by
  obtain ⟨hov, hgate, hdec⟩ := hrec
  refine ⟨hov, ?_, ?_⟩
  · rw [hsize]
    exact hgate
  · rw [hrest]
    exact hdec

/-- The calls that return true return the same on both payloads. -/
def SameFrames (h : Host) (mem mem' : List UInt8) (r : BunReader) : Prop :=
  ∀ f r' f', bunFrameRead h mem r f = some (true, r', f') ↔
    bunFrameRead h mem' r f = some (true, r', f')

/-- Payloads that agree on the size in the header and behind it hold the same frames. -/
theorem sameFrames_of_sameOn (hr : ReaderAt h mem r off) (hoff : headerSize ≤ off)
    (hsize : HeaderField.size.get mem' 0 = HeaderField.size.get mem 0)
    (hsame : Region.SameOn headerSize mem.length mem mem') : SameFrames h mem mem' r := by
  have hlen := hsame.1
  have hhead : headerSize ≤ mem.length := hoff.trans hr.off_le
  have hdrop : ∀ a, headerSize ≤ a → mem'.drop a = mem.drop a := fun a ha =>
    (hsame.drop_eq ha (Int.le_refl _)).symm
  have hr' : ReaderAt h mem' r off :=
    ⟨hr.buffer, hlen ▸ hr.size, hr.cursor, hlen ▸ hr.off_le, hlen ▸ hr.mem_le⟩
  have hdeliver : ∀ f rec, deliver h mem' off f rec = deliver h mem off f rec := by
    intro f rec
    unfold deliver
    dsimp only
    rw [hdrop _ (by omega)]
  intro f r' f'
  constructor
  · intro hcall
    obtain ⟨rec, hrec, rfl, rfl⟩ := follows_of_read hr hhead hcall
    rw [(hrec.congr hsize (hdrop off hoff)).read hr' (hlen ▸ hhead), hdeliver]
  · intro hcall
    obtain ⟨rec, hrec, rfl, rfl⟩ := follows_of_read hr' (hlen ▸ hhead) hcall
    rw [(hrec.congr hsize.symm (hdrop off hoff).symm).read hr hhead, hdeliver]

end

/-- `bun_header_tid_set` or `bun_header_backend_set`. -/
def WriterOp.IsSetter : WriterOp → Prop
  | frameWrite _ => False
  | tidSet _ => True
  | backendSet _ => True

/-- A setter changes neither the size nor anything behind the header. -/
theorem sameOn_setter {s : WriterState} {off : Nat} (hs : WriterAt h s off) {op : WriterOp}
    (hop : op.IsSetter) :
    HeaderField.size.get (op.apply h s).mem.bytes 0 = HeaderField.size.get s.mem.bytes 0
      ∧ Region.SameOn headerSize s.mem.bytes.length s.mem.bytes (op.apply h s).mem.bytes := by
  have hset : ∀ (f : HeaderField) (v : Nat), f.start + f.width ≤ headerSize →
      HeaderField.size.start + HeaderField.size.width ≤ f.start →
      HeaderField.size.get (s.setField f v).mem.bytes 0 = HeaderField.size.get s.mem.bytes 0
        ∧ Region.SameOn headerSize s.mem.bytes.length s.mem.bytes (s.setField f v).mem.bytes := by
    intro f v hf hsize
    rw [hs.mem_setField]
    exact ⟨HeaderField.get_setField_of_disjoint _ (by decide) hs.head v (Or.inl hsize),
      s.mem.sameOn_setField v _ hf⟩
  cases op with
  | frameWrite f => exact hop.elim
  | tidSet tid => exact hset _ _ (by decide) (by decide)
  | backendSet backend => exact hset _ _ (by decide) (by decide)

/-- Nothing a reader returns, wherever it has got to, depends on what the setters set. -/
theorem sameFrames_setter {s : WriterState} {off : Nat} (hs : WriterAt h s off) {op : WriterOp}
    (hop : op.IsSetter) {r₀ r : BunReader} (h₀ : ReaderAt h s.mem.bytes r₀ headerSize)
    (hov : r₀.data.overflow = false) {bs : List Bool} (hrun : ReaderRun h s.mem.bytes r₀ bs r) :
    SameFrames h s.mem.bytes (op.apply h s).mem.bytes r := by
  obtain ⟨off', hinv⟩ := runInv_of_run h₀ hov hrun
  obtain ⟨hsize, hsame⟩ := sameOn_setter hs hop
  exact sameFrames_of_sameOn hinv.at_ (le_trans (Nat.le_add_right _ _) hinv.progress) hsize hsame

/-! ## Metadata -/

theorem WriterOp.length_apply (h : Host) (s : WriterState) (op : WriterOp) :
    (op.apply h s).mem.bytes.length = s.mem.bytes.length := by
  cases op with
  | frameWrite f => exact length_bunFrameWrite h s f
  | tidSet tid => exact s.length_setField _ _
  | backendSet backend => exact s.length_setField _ _

theorem length_run (h : Host) (s : WriterState) (ops : List WriterOp) :
    (ops.foldl (WriterOp.apply h) s).mem.bytes.length = s.mem.bytes.length := by
  induction ops generalizing s with
  | nil => rfl
  | cons op ops ih => exact (ih (op.apply h s)).trans (op.length_apply h s)

/-- The buffer after calls on a writer. -/
def BunBuffer.after (buf : BunBuffer h) (w : BunWriter) (ops : List WriterOp) : BunBuffer h :=
  buf.withPayload (ops.foldl (WriterOp.apply h) ⟨w, buf.memory⟩).mem.bytes (length_run ..)

theorem BunBuffer.payload_after (buf : BunBuffer h) (w : BunWriter) (ops : List WriterOp) :
    (buf.after w ops).payload = (ops.foldl (WriterOp.apply h) ⟨w, buf.memory⟩).mem.bytes := rfl

/--
A reader opened on the buffer after the calls gets the id and the backend that were
set last, and setting either again changes no frame it will read.
-/
def MetadataSurvives (buf : BunBuffer h) (w : BunWriter) (tid : UInt32) (ops : List WriterOp) :
    Prop :=
  ∀ r₀ handle r, bunReaderInit r₀ (buf.after w ops) handle = some (true, r) →
    bunHeaderTidGet (buf.after w ops).payload r = some (lastTid tid ops).toNat
      ∧ bunHeaderBackendGet (buf.after w ops).payload r = some (lastBackend ops).toInt
      ∧ ∀ op : WriterOp, op.IsSetter → ∀ bs r', ReaderRun h (buf.after w ops).payload r bs r' →
        SameFrames h (buf.after w ops).payload (buf.after w (ops ++ [op])).payload r'

/-- Every backend but `BUN_BACKEND_NONE` comes back out of its sixteen bits. -/
theorem toUInt16_eq_toInt_iff (b : BunUnwindBackend) :
    (b.toUInt16 : Int) = b.toInt ↔ b ≠ .none := by
  cases b <;> decide

theorem lastBackend_ne_none_iff (ops : List WriterOp) :
    lastBackend ops ≠ .none ↔ ∃ b, lastBackendSet ops = some b ∧ b ≠ .none := by
  unfold lastBackend
  cases lastBackendSet ops <;> simp

/--
**The metadata survives exactly while a backend other than `BUN_BACKEND_NONE` is the
last that was set.** The calls are any calls on a writer that was opened on any buffer;
on one without room for the prefix and the header no reader is opened.
-/
theorem metadata_survives_iff {handles : HandleRef → BunHandle} {tid : UInt32} {w₀ w : BunWriter}
    {buf buf' : BunBuffer h} {arch : BunArchitecture} {handle : Option HandleRef}
    (hinit : bunWriterInit handles tid w₀ buf arch handle = (true, w, buf'))
    (ops : List WriterOp) :
    MetadataSurvives buf' w tid ops ↔
      buf.size < bunBufferPayloadHeaderSize
        ∨ ∃ b, lastBackendSet ops = some b ∧ b ≠ BunUnwindBackend.none := by
  obtain ⟨_, hsize, _⟩ := bunWriterInit_eq_true hinit
  by_cases hroom : buf.size < bunBufferPayloadHeaderSize
  · -- no reader is opened
    refine ⟨fun _ => Or.inl hroom, fun _ r₀ hd r hopen => ?_⟩
    have hread := (bunReaderInit_at hopen).2.2
    have hlt : (buf'.after w ops).size < bunBufferPayloadHeaderSize := hsize ▸ hroom
    exact absurd hread (Nat.not_le_of_lt hlt)
  · have hbuf : bunBufferPayloadHeaderSize ≤ buf.size := Nat.le_of_not_lt hroom
    have hheader := (Header.init hbuf hinit).run ops
    obtain ⟨off, hat⟩ := hheader.at_
    have hroom' : bunBufferPayloadHeaderSize ≤ (buf'.after w ops).size := hsize ▸ hbuf
    constructor
    · -- one reader is enough to see the backend
      intro hkept
      obtain ⟨r, hopen⟩ := bunReaderInit_of_magic hroom' hheader.magic unopenedReader none
      have hlast := (hkept _ _ r hopen).2.1
      rw [BunBuffer.payload_after, (hheader.get (bunReaderInit_at hopen).1.buffer).2,
        Option.some.injEq] at hlast
      exact Or.inr ((lastBackend_ne_none_iff ops).mp ((toUInt16_eq_toInt_iff _).mp hlast))
    · rintro (hlt | hset) r₀ hd r hopen
      · exact absurd hlt hroom
      · have hlast := (toUInt16_eq_toInt_iff _).mpr ((lastBackend_ne_none_iff ops).mpr hset)
        obtain ⟨h₀, hov, _⟩ := bunReaderInit_at hopen
        obtain ⟨htid, hbackend⟩ := hheader.get h₀.buffer
        refine ⟨htid, hbackend.trans (congrArg some hlast), fun op hop bs r' hrun => ?_⟩
        rw [BunBuffer.payload_after, BunBuffer.payload_after, List.foldl_append]
        exact sameFrames_setter hat hop h₀ hov hrun

/-- A backend, a frame and another thread's id. -/
theorem metadata_survives_three :
    ∃ buf buf' w, bunBufferInit (zeroedObject ⟨.w64, .little⟩ 100 (by decide)) = some buf
      ∧ bunWriterInit (fun _ => ⟨0⟩) 7 unopenedWriter buf .x86_64 none = (true, w, buf')
      ∧ MetadataSurvives buf' w 7
        [.backendSet .libunwind, .frameWrite BunFrame.zero, .tidSet 9] := by
  have hsetup : ∃ buf buf' w,
      bunBufferInit (zeroedObject ⟨.w64, .little⟩ 100 (by decide)) = some buf
      ∧ bunWriterInit (fun _ => ⟨0⟩) 7 unopenedWriter buf .x86_64 none = (true, w, buf') :=
    ⟨_, _, _, rfl, rfl⟩
  obtain ⟨buf, buf', w, hbuf, hinit⟩ := hsetup
  exact ⟨buf, buf', w, hbuf, hinit,
    (metadata_survives_iff hinit _).mpr (Or.inr ⟨.libunwind, rfl, by decide⟩)⟩

/-- A session in which no backend was set, and what it says its backend is. -/
theorem metadata_none_lost :
    ∃ buf buf' w r, bunBufferInit (zeroedObject ⟨.w64, .little⟩ 100 (by decide)) = some buf
      ∧ bunWriterInit (fun _ => ⟨0⟩) 7 unopenedWriter buf .x86_64 none = (true, w, buf')
      ∧ bunReaderInit unopenedReader buf' none = some (true, r)
      ∧ bunHeaderBackendGet buf'.payload r = some 65535
      ∧ BunUnwindBackend.none.toInt = -1
      ∧ ¬MetadataSurvives buf' w 7 [] := by
  refine ⟨_, _, _, _, rfl, rfl, rfl, rfl, rfl, fun hkept => ?_⟩
  have hbackend := (hkept unopenedReader none _ rfl).2.1
  exact absurd hbackend (by decide)

end LibBun
