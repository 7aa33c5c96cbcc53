import LibBun.Proof.Opening
import LibBun.Session

/-!
# Which handle a buffer belongs to

The first handle that is passed with a buffer stays with it. `bun_writer_init` binds
before it looks at the flag of the handle, and `NULL` stands both for a buffer that
is not bound and for a caller who does not mind, so the order of the two tests
matters: a call could bind the buffer and then refuse, which would change the
buffer for everybody without a session to show for it.

It never does. The counter only goes up while a write-once handle is bound, so at a
buffer that was not bound it is zero, and a call that binds is let in. That is the
invariant `Bound`, and everything else is a matter of cases.
-/

namespace LibBun

variable {h : Host}

/-- A call that settles the handle keeps a bound one and takes the given one otherwise. -/
theorem bindHandle_eq_some {bound given b : Option HandleRef}
    (hb : bindHandle bound given = some b) : b = bound.or given := by
  unfold bindHandle at hb
  cases bound <;> cases given <;> simp_all

/-- Only a buffer that is bound turns a handle away. -/
theorem bindHandle_eq_none {bound given : Option HandleRef} (hb : bindHandle bound given = none) :
    ∃ r, bound = some r := by
  cases bound with
  | none => cases given <;> simp [bindHandle] at hb
  | some r => exact ⟨r, rfl⟩

/-- `NULL` is never write-once. -/
theorem isSome_of_isWriteOnce {handles : HandleRef → BunHandle} {bound : Option HandleRef}
    (honce : isWriteOnce handles bound = true) : ∃ r, bound = some r := by
  cases bound with
  | none => exact Bool.noConfusion honce
  | some r => exact ⟨r, rfl⟩

/-! ## The invariant -/

/-- The buffer is bound to the first handle of the calls, and counts only for one that says so. -/
structure Bound (handles : HandleRef → BunHandle) (calls : List InitCall) (buf : BunBuffer h) :
    Prop where
  room : headerSize ≤ buf.size
  handle : buf.handle = calls.findSome? InitCall.handle
  /-- Nothing is counted but for a write-once handle. -/
  counter : buf.writeCount ≠ 0 → isWriteOnce handles buf.handle = true

namespace Bound

variable {handles : HandleRef → BunHandle} {calls : List InitCall} {buf : BunBuffer h}

theorem fresh {data : CObject h} (hbuf : bunBufferInit data = some buf) :
    Bound handles [] buf := by
  obtain ⟨_, _, hcount, hhandle, _⟩ := bunBufferInit_eq_some hbuf
  refine ⟨?_, hhandle, fun hne => absurd hcount hne⟩
  exact headerSize_le_payloadHeaderSize.trans (bunBufferInit_size hbuf)

/-- Settling the handle and counting the attempt keep it so. -/
theorem attempted (hb : Bound handles calls buf) {c : InitCall} {bound : Option HandleRef}
    (hbind : bindHandle buf.handle c.handle = some bound) :
    Bound handles (calls ++ [c]) (buf.attempted handles bound) := by
  have hbound := bindHandle_eq_some hbind
  refine ⟨hb.room, ?_, fun hne => ?_⟩
  · rw [List.findSome?_append, ← hb.handle, List.findSome?_singleton]
    exact hbound
  · -- A counter that was not zero belongs to the handle that is still bound.
    show isWriteOnce handles bound = true
    dsimp only [BunBuffer.attempted] at hne
    by_cases honce : isWriteOnce handles bound = true
    · exact honce
    · rw [if_neg honce] at hne
      obtain ⟨r, hr⟩ := isSome_of_isWriteOnce (hb.counter hne)
      have hold := hb.counter hne
      rwa [hbound, hr, Option.some_or, ← hr]

/-- **One call**, whatever comes of it. -/
theorem call (hb : Bound handles calls buf) (c : InitCall) :
    Bound handles (calls ++ [c]) (c.run handles buf).2.2 := by
  unfold InitCall.run
  rcases opening_cases handles buf c.handle with hout | ⟨bound, hroom, hbind, hout⟩ |
    ⟨bound, hroom, hbind, hin⟩
  · rw [bunWriterInit_of_turnedAway hout]
    have hnone := hout.resolve_left (Nat.not_lt.mpr hb.room)
    obtain ⟨r, hr⟩ := bindHandle_eq_none hnone
    refine ⟨hb.room, ?_, hb.counter⟩
    rw [List.findSome?_append, ← hb.handle, hr, Option.some_or]
  · rw [bunWriterInit_of_countedOut hroom hbind hout]
    exact hb.attempted hbind
  · rw [bunWriterInit_of_admitted hroom hbind hin]
    have hnext := hb.attempted hbind
    exact ⟨hnext.room, hnext.handle, hnext.counter⟩

/-- A call with another handle than the one that is bound is refused. -/
theorem foreign {c : InitCall} {r s : HandleRef} (hr : buf.handle = some r)
    (hs : c.handle = some s) (hdiff : s ≠ r) : (c.run handles buf).1 = false := by
  have hnone : bindHandle buf.handle c.handle = none := by
    rw [hr, hs]
    simp [bindHandle, hdiff]
  rw [InitCall.run, bunWriterInit_of_turnedAway (Or.inr hnone)]

/-- **A call that is refused** leaves everything but the counter as it was. -/
theorem refused (hb : Bound handles calls buf) {c : InitCall}
    (hno : (c.run handles buf).1 = false) :
    (c.run handles buf).2.2.handle = buf.handle ∧ (c.run handles buf).2.2.size = buf.size
      ∧ (c.run handles buf).2.2.payload = buf.payload := by
  unfold InitCall.run at hno ⊢
  rcases opening_cases handles buf c.handle with hout | ⟨bound, hroom, hbind, hout⟩ |
    ⟨bound, hroom, hbind, hin⟩
  · rw [bunWriterInit_of_turnedAway hout]
    exact ⟨rfl, rfl, rfl⟩
  · rw [bunWriterInit_of_countedOut hroom hbind hout]
    -- The counter is not zero, so the buffer was bound before.
    obtain ⟨r, hr⟩ := isSome_of_isWriteOnce (hb.counter hout.writeCount_ne_zero)
    refine ⟨?_, rfl, rfl⟩
    show bound = buf.handle
    rw [bindHandle_eq_some hbind, hr, Option.some_or]
  · rw [bunWriterInit_of_admitted hroom hbind hin] at hno
    exact Bool.noConfusion hno

/-- **Any number of calls.** -/
theorem run (hb : Bound handles calls buf) (more : List InitCall) :
    Bound handles (calls ++ more) (initAll handles buf more) := by
  induction more generalizing calls buf with
  | nil =>
      rw [List.append_nil]
      exact hb
  | cons c more ih =>
      have hrest := ih (hb.call c)
      rwa [List.append_assoc, List.singleton_append] at hrest

end Bound

/-! ## Handle binding -/

/-- What the calls have come to, and what any call after them will do. -/
structure HandleBinding (handles : HandleRef → BunHandle) (calls : List InitCall)
    (buf : BunBuffer h) : Prop where
  /-- The buffer is bound to the first handle that was not `NULL`. -/
  first : buf.handle = calls.findSome? InitCall.handle
  /-- It stays bound to it, whatever calls follow. -/
  fixed : ∀ r, buf.handle = some r →
    ∀ more, (initAll handles buf more).handle = some r
  /-- A call with another handle returns false. -/
  foreign : ∀ r, buf.handle = some r → ∀ c : InitCall, ∀ s, c.handle = some s → s ≠ r →
    (c.run handles buf).1 = false
  counter : buf.writeCount ≠ 0 →
    ∃ r, buf.handle = some r ∧ (handles r).flags &&& bunHandleWriteOnce ≠ 0
  /-- A call that returns false changes neither handle nor payload, nor what readers see. -/
  refused : ∀ c : InitCall, (c.run handles buf).1 = false →
    (c.run handles buf).2.2.handle = buf.handle
      ∧ (c.run handles buf).2.2.payload = buf.payload
      ∧ (∀ reader hd, bunReaderInit reader (c.run handles buf).2.2 hd
        = bunReaderInit reader buf hd)
      ∧ ∀ fuel reader f, readFrames h (c.run handles buf).2.2.payload fuel reader f
        = readFrames h buf.payload fuel reader f

theorem isWriteOnce_eq_true {handles : HandleRef → BunHandle} {bound : Option HandleRef}
    (honce : isWriteOnce handles bound = true) :
    ∃ r, bound = some r ∧ (handles r).flags &&& bunHandleWriteOnce ≠ 0 := by
  obtain ⟨r, rfl⟩ := isSome_of_isWriteOnce honce
  exact ⟨r, rfl, by simpa [isWriteOnce] using honce⟩

/-- Opening looks at the size and the payload only. -/
theorem bunReaderInit_congr {buf buf' : BunBuffer h} (hsize : buf'.size = buf.size)
    (hpayload : buf'.payload = buf.payload) (reader : BunReader) (hd : Option HandleRef) :
    bunReaderInit reader buf' hd = bunReaderInit reader buf hd := by
  unfold bunReaderInit bunBufferPayloadSize
  rw [hsize, hpayload]

/--
**A buffer belongs to the first handle passed with it.** The calls are of any number,
with any handles, `NULL` among them, and the flags of a handle stay as they are.
-/
theorem handle_binding {data : CObject h} {buf : BunBuffer h}
    (hbuf : bunBufferInit data = some buf) (handles : HandleRef → BunHandle)
    (calls : List InitCall) : HandleBinding handles calls (initAll handles buf calls) := by
  have hb : Bound handles calls (initAll handles buf calls) := by
    have hfresh : Bound handles [] buf := Bound.fresh hbuf
    have hrun := hfresh.run calls
    rwa [List.nil_append] at hrun
  refine ⟨hb.handle, fun r hr more => ?_, fun r hr c s hs hdiff => ?_, fun hne => ?_,
    fun c hno => ?_⟩
  · rw [(hb.run more).handle, List.findSome?_append, ← hb.handle, hr, Option.some_or]
  · exact Bound.foreign hr hs hdiff
  · exact isWriteOnce_eq_true (hb.counter hne)
  · obtain ⟨hhandle, hsize, hpayload⟩ := hb.refused hno
    refine ⟨hhandle, hpayload, bunReaderInit_congr hsize hpayload, fun fuel reader f => ?_⟩
    rw [hpayload]

/-- `NULL` first, then a handle, then another one, which is refused. -/
theorem handle_binding_three :
    ∃ buf, bunBufferInit (zeroedObject ⟨.w64, .little⟩ 100 (by decide)) = some buf
      ∧ HandleBinding (fun _ => ⟨1⟩)
        [⟨7, unopenedWriter, .x86_64, none⟩, ⟨7, unopenedWriter, .x86_64, some 5⟩,
          ⟨8, unopenedWriter, .x86_64, some 6⟩]
        (initAll (fun _ => ⟨1⟩) buf
          [⟨7, unopenedWriter, .x86_64, none⟩, ⟨7, unopenedWriter, .x86_64, some 5⟩,
            ⟨8, unopenedWriter, .x86_64, some 6⟩]) := by
  have hopen : ∃ buf, bunBufferInit (zeroedObject ⟨.w64, .little⟩ 100 (by decide)) = some buf :=
    ⟨_, rfl⟩
  obtain ⟨buf, hbuf⟩ := hopen
  exact ⟨buf, hbuf, handle_binding hbuf _ _⟩

end LibBun
