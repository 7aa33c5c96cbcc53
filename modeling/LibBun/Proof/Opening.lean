import LibBun.Buffer

/-!
# What opening a writer does

`bun_writer_init` has three ways out. It turns the caller away without a trace, for
want of room or for the handle; or it settles the handle, counts the attempt where
the handle asks for that, and turns the caller away for what it found in the counter;
or it lets the caller in. What the caller's writer held before plays no part in it.

All that is said elsewhere of sessions, handles and counters is said from these three
cases.
-/

namespace LibBun

variable {h : Host} {handles : HandleRef → BunHandle} {tid : UInt32} {writer : BunWriter}
  {buf : BunBuffer h} {arch : BunArchitecture} {handle bound : Option HandleRef}

/-- The buffer when the handle is settled and the attempt, if it counts, is counted. -/
def BunBuffer.attempted (buf : BunBuffer h) (handles : HandleRef → BunHandle)
    (bound : Option HandleRef) : BunBuffer h :=
  { buf with
    handle := bound
    writeCount := if isWriteOnce handles bound then buf.writeCount + 1 else buf.writeCount }

/-- There were attempts before, by the `int` that is made of the counter. -/
def CountedOut (handles : HandleRef → BunHandle) (buf : BunBuffer h) (bound : Option HandleRef) :
    Prop :=
  isWriteOnce handles bound = true ∧ Int.bmod buf.writeCount.toNat (2 ^ 32) > 0

theorem CountedOut.writeCount_ne_zero (hout : CountedOut handles buf bound) :
    buf.writeCount ≠ 0 := fun hzero => by
  have hlast := hout.2
  rw [hzero] at hlast
  exact absurd hlast (by decide)

/-! ## The three ways out -/

/-- Turned away without a trace. -/
theorem bunWriterInit_of_turnedAway
    (hout : buf.size < headerSize ∨ bindHandle buf.handle handle = none) :
    bunWriterInit handles tid writer buf arch handle = (false, writer, buf) := by
  unfold bunWriterInit
  rcases hout with hsize | hbind
  · rw [if_pos hsize]
  · rw [hbind]
    split <;> rfl

/-- Turned away for the counter. -/
theorem bunWriterInit_of_countedOut (hroom : headerSize ≤ buf.size)
    (hbind : bindHandle buf.handle handle = some bound) (hout : CountedOut handles buf bound) :
    bunWriterInit handles tid writer buf arch handle
      = (false, writer, buf.attempted handles bound) := by
  unfold bunWriterInit BunBuffer.attempted
  rw [if_neg (by omega), hbind]
  dsimp only
  rw [if_pos ⟨hout.1, hout.2⟩, if_pos hout.1, if_pos hout.1]

/-- Let in. -/
theorem bunWriterInit_of_admitted (hroom : headerSize ≤ buf.size)
    (hbind : bindHandle buf.handle handle = some bound) (hin : ¬CountedOut handles buf bound) :
    bunWriterInit handles tid writer buf arch handle
      = (true, ⟨⟨0, headerSize, bunBufferPayloadSize buf, handle, false⟩⟩,
        (buf.attempted handles bound).withPayload (initHeader buf.memory arch tid).bytes
          (length_initHeader _ arch tid)) := by
  unfold bunWriterInit BunBuffer.attempted
  unfold CountedOut at hin
  rw [if_neg (by omega), hbind]
  dsimp only
  rw [if_neg hin]
  split <;> rfl

/-- **There are no others.** -/
theorem opening_cases (handles : HandleRef → BunHandle) (buf : BunBuffer h)
    (handle : Option HandleRef) :
    (buf.size < headerSize ∨ bindHandle buf.handle handle = none) ∨
    (∃ bound, headerSize ≤ buf.size ∧ bindHandle buf.handle handle = some bound
      ∧ CountedOut handles buf bound) ∨
    ∃ bound, headerSize ≤ buf.size ∧ bindHandle buf.handle handle = some bound
      ∧ ¬CountedOut handles buf bound := by
  by_cases hsize : buf.size < headerSize
  · exact Or.inl (Or.inl hsize)
  · cases hbind : bindHandle buf.handle handle with
    | none => exact Or.inl (Or.inr rfl)
    | some bound =>
        by_cases hout : CountedOut handles buf bound
        · exact Or.inr (Or.inl ⟨bound, Nat.le_of_not_lt hsize, rfl, hout⟩)
        · exact Or.inr (Or.inr ⟨bound, Nat.le_of_not_lt hsize, rfl, hout⟩)

/-! ## What follows from the result -/

/-- Who is let in has room, the right handle, and nobody before. -/
theorem admitted_of_init {w₀ w : BunWriter} {buf' : BunBuffer h}
    (hinit : bunWriterInit handles tid w₀ buf arch handle = (true, w, buf')) :
    ∃ bound, headerSize ≤ buf.size ∧ bindHandle buf.handle handle = some bound
      ∧ ¬CountedOut handles buf bound := by
  rcases opening_cases handles buf handle with hout | ⟨_, hroom, hbind, hout⟩ | hin
  · rw [bunWriterInit_of_turnedAway hout] at hinit
    exact absurd (congrArg Prod.fst hinit) Bool.false_ne_true
  · rw [bunWriterInit_of_countedOut hroom hbind hout] at hinit
    exact absurd (congrArg Prod.fst hinit) Bool.false_ne_true
  · exact hin

/-- A session that was opened has a filled-in header in an otherwise unchanged payload. -/
theorem bunWriterInit_eq_true {w₀ w : BunWriter} {buf' : BunBuffer h}
    (hinit : bunWriterInit handles tid w₀ buf arch handle = (true, w, buf')) :
    w = ⟨⟨0, headerSize, bunBufferPayloadSize buf, handle, false⟩⟩ ∧ buf'.size = buf.size
      ∧ buf'.payload = (initHeader buf.memory arch tid).bytes := by
  obtain ⟨bound, hroom, hbind, hin⟩ := admitted_of_init hinit
  rw [bunWriterInit_of_admitted hroom hbind hin] at hinit
  injection hinit with _ hinit
  injection hinit with hw hbuf'
  subst hw hbuf'
  exact ⟨rfl, rfl, rfl⟩

theorem headerSize_le_of_init {w₀ w : BunWriter} {buf' : BunBuffer h}
    (hinit : bunWriterInit handles tid w₀ buf arch handle = (true, w, buf')) :
    headerSize ≤ buf.size := by
  obtain ⟨_, hroom, _⟩ := admitted_of_init hinit
  exact hroom

/-- Whether a session is refused does not depend on the writer, which is not touched then. -/
theorem bunWriterInit_refused {w₀ : BunWriter}
    (href : (bunWriterInit handles tid w₀ buf arch handle).1 = false) (w : BunWriter) :
    ∃ buf', bunWriterInit handles tid w buf arch handle = (false, w, buf')
      ∧ buf'.payload = buf.payload := by
  rcases opening_cases handles buf handle with hout | ⟨bound, hroom, hbind, hout⟩ |
    ⟨_, hroom, hbind, hin⟩
  · exact ⟨buf, bunWriterInit_of_turnedAway hout, rfl⟩
  · exact ⟨buf.attempted handles bound, bunWriterInit_of_countedOut hroom hbind hout, rfl⟩
  · rw [bunWriterInit_of_admitted hroom hbind hin] at href
    exact Bool.noConfusion href

/-- Nor does what a session that was opened starts with. -/
theorem bunWriterInit_opened {w₀ w : BunWriter} {buf' : BunBuffer h}
    (hinit : bunWriterInit handles tid w₀ buf arch handle = (true, w, buf')) (w₁ : BunWriter) :
    bunWriterInit handles tid w₁ buf arch handle = (true, w, buf') := by
  obtain ⟨bound, hroom, hbind, hin⟩ := admitted_of_init hinit
  rw [bunWriterInit_of_admitted hroom hbind hin] at hinit ⊢
  exact hinit

/-- Callers who pass nothing are let in wherever no bound handle has the flag set. -/
theorem bunWriterInit_admits (hsize : headerSize ≤ buf.size) (tid : UInt32) (w₀ : BunWriter)
    (arch : BunArchitecture) :
    ∃ w buf', bunWriterInit (fun _ => ⟨0⟩) tid w₀ buf arch none = (true, w, buf') := by
  have hbind : bindHandle buf.handle none = some buf.handle := by simp [bindHandle]
  have hin : ¬CountedOut (fun _ => ⟨0⟩) buf buf.handle := fun hout => by
    have honce := hout.1
    cases hr : buf.handle with
    | none => rw [hr] at honce; exact Bool.noConfusion honce
    | some r => rw [hr] at honce; exact absurd honce (by simp [isWriteOnce])
  exact ⟨_, _, bunWriterInit_of_admitted hsize hbind hin⟩

/-- Whoever is the first to open a session on a buffer is let in. -/
theorem bunWriterInit_fresh {data : CObject h} (hbuf : bunBufferInit data = some buf)
    (handles : HandleRef → BunHandle) (tid : UInt32) (w₀ : BunWriter) (arch : BunArchitecture)
    (handle : Option HandleRef) :
    ∃ w buf', bunWriterInit handles tid w₀ buf arch handle = (true, w, buf') := by
  obtain ⟨_, _, hcount, hhandle, _⟩ := bunBufferInit_eq_some hbuf
  have hroom := headerSize_le_payloadHeaderSize.trans (bunBufferInit_size hbuf)
  have hbind : bindHandle buf.handle handle = some handle := by
    rw [hhandle]
    cases handle <;> rfl
  exact ⟨_, _, bunWriterInit_of_admitted hroom hbind fun hout => hout.writeCount_ne_zero hcount⟩

/-- A session on zeroed memory. -/
theorem exists_session (h : Host) {n : Nat} (hn : n < 2 ^ 31)
    (hroom : bunBufferPayloadHeaderSize ≤ n) :
    ∃ buf buf' w, bunBufferInit (zeroedObject h n hn) = some buf
      ∧ bunWriterInit (fun _ => ⟨0⟩) 7 unopenedWriter buf .x86_64 none = (true, w, buf')
      ∧ buf'.payload.length = n - payloadOffset := by
  obtain ⟨buf, hbuf, hlen⟩ := bunBufferInit_zeroedObject h hn hroom
  obtain ⟨w, buf', hinit⟩ := bunWriterInit_fresh hbuf (fun _ => ⟨0⟩) 7 unopenedWriter .x86_64 none
  obtain ⟨_, hsize, _⟩ := bunWriterInit_eq_true hinit
  refine ⟨buf, buf', w, hbuf, hinit, ?_⟩
  rw [buf'.payload_length, hsize, ← buf.payload_length, hlen]

end LibBun
