import LibBun.Lib.Run
import LibBun.Proof.Opening
import LibBun.Session

/-!
# How often a buffer is written once

With `BUN_HANDLE_WRITE_ONCE` set, `bun_writer_init` counts every attempt and lets
the caller in unless somebody was there before. The counter is unsigned and has 32
bits; what the attempt finds in it is kept in an `int`. From the attempt after
`2 ^ 31` earlier ones on that `int` is negative, and the test `last > 0` takes the
caller for the first.

`Attempts` is the invariant: after `n` attempts the counter holds `n` cut to 32
bits, and the results are those `admits` says. `write_once_iff` is what follows:
the promise of the flag is kept exactly in histories of no more than `2 ^ 31`
attempts.
-/

namespace LibBun

variable {h : Host}

/-- The old value of the counter, as the `int` the test looks at. -/
def lastAttempt (count : UInt32) : Int := Int.bmod count.toNat (2 ^ 32)

/-- The attempt after `n` others is let in. -/
def admits (n : Nat) : Bool := decide (lastAttempt (UInt32.ofNat n) ≤ 0)

/-- As long as the counter fits an `int`, nothing is lost by the conversion. -/
theorem lastAttempt_of_lt {n : Nat} (hn : n < 2 ^ 31) : lastAttempt (UInt32.ofNat n) = n := by
  unfold lastAttempt
  rw [UInt32.toNat_ofNat', Nat.mod_eq_of_lt (by omega), Int.bmod_def]
  split <;> omega

theorem admits_of_lt {n : Nat} (hn : n < 2 ^ 31) : admits n = decide (n = 0) := by
  rw [admits, lastAttempt_of_lt hn, decide_eq_decide]
  omega

/-- So long only the first attempt is let in. -/
theorem map_admits {n : Nat} (hn : n < 2 ^ 31) :
    (List.range (n + 1)).map admits = true :: List.replicate n false := by
  have hfirst : admits 0 = true := by
    rw [admits_of_lt (by omega)]
    rfl
  rw [List.range_succ_eq_map, List.map_cons, List.map_map, hfirst]
  refine congrArg _ (List.eq_replicate_iff.mpr ⟨by simp, fun b hb => ?_⟩)
  obtain ⟨k, hk, rfl⟩ := List.mem_map.mp hb
  have hlt : k < n := List.mem_range.mp hk
  have hlate : admits (k + 1) = decide (k + 1 = 0) := admits_of_lt (by omega)
  rw [Function.comp_apply, hlate]
  exact decide_eq_false (Nat.succ_ne_zero k)

/-- Then the counter has come to the smallest `int`. -/
theorem admits_two_pow : admits (2 ^ 31) = true := by decide

/-! ## One attempt -/

/-- The handle of the callers is the one the buffer is bound to from the first attempt on. -/
theorem bindHandle_same {bound : Option HandleRef} {r : HandleRef}
    (hb : bound = none ∨ bound = some r) : bindHandle bound (some r) = some (some r) := by
  rcases hb with rfl | rfl <;> simp [bindHandle]

/-- **An attempt** with the flag set goes by the counter, which goes up by one either way. -/
theorem bunWriterInit_writeOnce {handles : HandleRef → BunHandle} {r : HandleRef}
    (hflag : (handles r).flags &&& bunHandleWriteOnce ≠ 0) {buf : BunBuffer h}
    (hroom : bunBufferPayloadHeaderSize ≤ buf.size)
    (hb : buf.handle = none ∨ buf.handle = some r) {n : Nat}
    (hn : buf.writeCount = UInt32.ofNat n) (tid : UInt32) (writer : BunWriter)
    (arch : BunArchitecture) :
    ∃ w buf', bunWriterInit handles tid writer buf arch (some r) = (admits n, w, buf')
      ∧ buf'.size = buf.size ∧ buf'.handle = some r ∧ buf'.writeCount = UInt32.ofNat (n + 1)
      ∧ (admits n = false → buf'.payload = buf.payload) := by
  have hsize : headerSize ≤ buf.size := headerSize_le_payloadHeaderSize.trans hroom
  have hbind := bindHandle_same hb
  have honce : isWriteOnce handles (some r) = true := by simpa [isWriteOnce] using hflag
  have hcount : (buf.attempted handles (some r)).writeCount = UInt32.ofNat (n + 1) := by
    rw [UInt32.ofNat_add, ← hn]
    exact if_pos honce
  by_cases hlast : lastAttempt (UInt32.ofNat n) ≤ 0
  · have hin : ¬CountedOut handles buf (some r) := fun hout => by
      have hpos := hout.2
      rw [hn] at hpos
      exact Int.not_le.mpr hpos hlast
    have hyes : admits n = true := decide_eq_true hlast
    rw [bunWriterInit_of_admitted hsize hbind hin, hyes]
    exact ⟨_, _, rfl, rfl, rfl, hcount, fun hno => Bool.noConfusion hno⟩
  · have hout : CountedOut handles buf (some r) := ⟨honce, by
      rw [hn]
      exact Int.not_le.mp hlast⟩
    have hno : admits n = false := decide_eq_false hlast
    rw [bunWriterInit_of_countedOut hsize hbind hout, hno]
    exact ⟨_, _, rfl, rfl, rfl, hcount, fun _ => rfl⟩

/-! ## The invariant -/

/-- There have been `n` attempts. -/
structure Attempts (r : HandleRef) (n : Nat) (s : Sessions h) : Prop where
  room : bunBufferPayloadHeaderSize ≤ s.buffer.size
  handle : s.buffer.handle = none ∨ s.buffer.handle = some r
  /-- The counter holds the number of attempts, cut to its width. -/
  count : s.buffer.writeCount = UInt32.ofNat n
  results : s.results = (List.range n).map admits
  /-- Every attempt that was let in opened a writer. -/
  writers : s.writers.length = s.results.count true

namespace Attempts

variable {r : HandleRef} {n : Nat} {s : Sessions h}

theorem fresh {data : CObject h} {buf : BunBuffer h} (hbuf : bunBufferInit data = some buf) :
    Attempts r 0 (Sessions.fresh buf) := by
  obtain ⟨_, _, hcount, hhandle, _⟩ := bunBufferInit_eq_some hbuf
  exact ⟨bunBufferInit_size hbuf, Or.inl hhandle, hcount, rfl, rfl⟩

/-- An attempt that is turned away leaves the payload as it was. -/
theorem init (hs : Attempts r n s) {handles : HandleRef → BunHandle} {tid : UInt32}
    {writer : BunWriter} {arch : BunArchitecture}
    (hflag : (SessionEvent.init handles tid writer arch).FlagSet r) :
    Attempts r (n + 1) (s.step r (.init handles tid writer arch))
      ∧ (admits n = false →
        (s.step r (.init handles tid writer arch)).buffer.payload = s.buffer.payload) := by
  obtain ⟨w, buf', hinit, hsize, hhandle, hcount, hkeep⟩ :=
    bunWriterInit_writeOnce hflag hs.room hs.handle hs.count tid writer arch
  have hstep : s.step r (.init handles tid writer arch) =
      ⟨buf', if admits n then s.writers ++ [w] else s.writers, s.results ++ [admits n]⟩ := by
    rw [Sessions.step, hinit]
  rw [hstep]
  refine ⟨⟨hsize ▸ hs.room, Or.inr hhandle, hcount, ?_, ?_⟩, hkeep⟩
  · rw [hs.results, List.range_succ, List.map_append, List.map_cons, List.map_nil]
  · rw [List.count_append, ← hs.writers]
    cases admits n with
    | true => exact List.length_append
    | false => rfl

/-- A call in a session leaves everything but the payload and the session's writer alone. -/
theorem write (hs : Attempts r n s) (i : Nat) (frame : BunFrame) :
    Attempts r n (s.step r (.write i frame)) := by
  rw [Sessions.step]
  split
  · exact hs
  · exact ⟨hs.room, hs.handle, hs.count, hs.results, by rw [List.length_set]; exact hs.writers⟩

/-- **After any history** the number of attempts is one more for every `bun_writer_init`. -/
theorem run (hs : Attempts r n s) {events : List SessionEvent}
    (hflag : ∀ ev ∈ events, ev.FlagSet r) :
    Attempts r (n + initCount events) (s.run r events) := by
  induction events generalizing n s with
  | nil => exact hs
  | cons ev events ih =>
      have hrest : ∀ ev ∈ events, ev.FlagSet r := fun e he => hflag e (List.mem_cons_of_mem _ he)
      cases ev with
      | init handles tid writer arch =>
          have hnext := (hs.init (hflag _ (List.mem_cons_self ..))).1
          have hcount : n + initCount (.init handles tid writer arch :: events)
              = n + 1 + initCount events := by
            rw [initCount, List.countP_cons_of_pos rfl, ← initCount]
            omega
          rw [hcount]
          exact ih hnext hrest
      | write i frame =>
          have hcount : initCount (.write i frame :: events) = initCount events :=
            List.countP_cons_of_neg Bool.false_ne_true
          rw [hcount]
          exact ih (hs.write i frame) hrest

/-- Up to `2 ^ 31` attempts, the first is let in and the others are turned away. -/
theorem result_eq (hs : Attempts r n s) (hn : n ≤ 2 ^ 31) {k : Nat} {b : Bool}
    (hk : s.results[k]? = some b) : b = true ↔ k = 0 := by
  rw [hs.results, List.getElem?_map, Option.map_eq_some_iff] at hk
  obtain ⟨j, hj, rfl⟩ := hk
  obtain ⟨hlt, rfl⟩ := List.getElem?_eq_some_iff.mp hj
  rw [List.length_range] at hlt
  rw [List.getElem_range, admits_of_lt (by omega), decide_eq_true_iff]

/-- With more, the one after `2 ^ 31` others is let in again. -/
theorem result_two_pow (hs : Attempts r n s) (hn : 2 ^ 31 < n) :
    s.results[2 ^ 31]? = some true := by
  rw [hs.results, List.getElem?_map, List.getElem?_range hn, Option.map_some, admits_two_pow]

/-- Up to `2 ^ 31` attempts, there is one session at most. -/
theorem writers_le_one (hs : Attempts r n s) (hn : n ≤ 2 ^ 31) : s.writers.length ≤ 1 := by
  rw [hs.writers, hs.results]
  cases n with
  | zero => exact Nat.zero_le 1
  | succ n =>
      rw [map_admits (by omega), List.count_cons_self, List.count_replicate]
      exact Nat.le_refl 1

end Attempts

/-! ## The promise of the flag -/

/-- The call is the first `bun_writer_init`, or is made by the caller that was let in first. -/
def SessionEvent.OfFirst (s : Sessions h) : SessionEvent → Prop
  | init .. => s.results = []
  | write i _ => i = 0

/-- A history in which the buffer is written once. -/
structure WriteOnce (r : HandleRef) (s : Sessions h) (events : List SessionEvent) : Prop where
  /-- The first `bun_writer_init` returned true and every later one false. -/
  results : ∀ k b, (s.run r events).results[k]? = some b → (b = true ↔ k = 0)
  /-- Whatever is in the payload was put there by the first session. -/
  payload : Run.Along (Sessions.step r)
    (fun t ev => ¬ev.OfFirst t → (t.step r ev).buffer.payload = t.buffer.payload) s events

/-- Before the counter gets out of hand, no call but those of the first session has an effect. -/
theorem Attempts.payload_along {r : HandleRef} {n : Nat} {s : Sessions h} (hs : Attempts r n s)
    {events : List SessionEvent} (hflag : ∀ ev ∈ events, ev.FlagSet r)
    (hn : n + initCount events ≤ 2 ^ 31) :
    Run.Along (Sessions.step r)
      (fun t ev => ¬ev.OfFirst t → (t.step r ev).buffer.payload = t.buffer.payload) s events := by
  induction events generalizing n s with
  | nil => trivial
  | cons ev events ih =>
      have hrest : ∀ ev ∈ events, ev.FlagSet r := fun e he => hflag e (List.mem_cons_of_mem _ he)
      cases ev with
      | init handles tid writer arch =>
          rw [initCount, List.countP_cons_of_pos rfl, ← initCount] at hn
          obtain ⟨hnext, hkeep⟩ := hs.init (hflag _ (List.mem_cons_self ..))
          refine ⟨fun hlater => hkeep ?_, ih hnext hrest (by omega)⟩
          have hpos : n ≠ 0 := fun h0 => hlater (by
            show s.results = []
            rw [hs.results, h0]
            rfl)
          rw [admits_of_lt (by omega), decide_eq_false hpos]
      | write i frame =>
          rw [initCount, List.countP_cons_of_neg Bool.false_ne_true, ← initCount] at hn
          refine ⟨fun hlater => ?_, ih (hs.write i frame) hrest hn⟩
          have hpos : i ≠ 0 := hlater
          have hone := hs.writers_le_one (by omega)
          rw [Sessions.step, List.getElem?_eq_none (by omega)]

/--
**A buffer is written once exactly in histories of at most `2 ^ 31` attempts.** The
attempts are all made with one handle that has the flag, by any threads, and calls
of `bun_frame_write` come between them in any order.
-/
theorem write_once_iff {data : CObject h} {buf : BunBuffer h}
    (hbuf : bunBufferInit data = some buf) (r : HandleRef) {events : List SessionEvent}
    (hflag : ∀ ev ∈ events, ev.FlagSet r) :
    WriteOnce r (Sessions.fresh buf) events ↔ initCount events ≤ 2 ^ 31 := by
  have hfresh : Attempts r 0 (Sessions.fresh buf) := Attempts.fresh hbuf
  have hrun := hfresh.run hflag
  rw [Nat.zero_add] at hrun
  constructor
  · intro honce
    refine Nat.le_of_not_lt fun hlt => ?_
    have hfirst := (honce.results _ _ (hrun.result_two_pow hlt)).mp rfl
    exact absurd hfirst (by decide)
  · intro hle
    refine ⟨fun k b hk => hrun.result_eq hle hk, ?_⟩
    exact hfresh.payload_along hflag (by omega)

/-- Two attempts and a frame in between. -/
theorem write_once_twice :
    ∃ buf, bunBufferInit (zeroedObject ⟨.w64, .little⟩ 100 (by decide)) = some buf
      ∧ WriteOnce 5 (Sessions.fresh buf)
        [.init (fun _ => ⟨1⟩) 7 unopenedWriter .x86_64, .write 0 BunFrame.zero,
          .init (fun _ => ⟨1⟩) 8 unopenedWriter .x86_64] := by
  have hopen : ∃ buf, bunBufferInit (zeroedObject ⟨.w64, .little⟩ 100 (by decide)) = some buf :=
    ⟨_, rfl⟩
  obtain ⟨buf, hbuf⟩ := hopen
  refine ⟨buf, hbuf, (write_once_iff hbuf 5 fun ev hev => ?_).mpr (by decide)⟩
  simp only [List.mem_cons, List.not_mem_nil, or_false] at hev
  rcases hev with rfl | rfl | rfl
  · exact (by decide : (1 : UInt64) &&& bunHandleWriteOnce ≠ 0)
  · trivial
  · exact (by decide : (1 : UInt64) &&& bunHandleWriteOnce ≠ 0)

/-- One attempt more than `2 ^ 31`, and no frame at all: the last attempt is let in. -/
theorem write_once_again :
    ∃ (buf : BunBuffer ⟨.w64, .little⟩) (events : List SessionEvent),
      bunBufferInit (zeroedObject ⟨.w64, .little⟩ 40 (by decide)) = some buf
        ∧ events = List.replicate (2 ^ 31 + 1) (.init (fun _ => ⟨1⟩) 7 unopenedWriter .x86_64)
        ∧ (∀ ev ∈ events, ev.FlagSet 5)
        ∧ ((Sessions.fresh buf).run 5 events).results[2 ^ 31]? = some true
        ∧ ¬WriteOnce 5 (Sessions.fresh buf) events := by
  have hopen : ∃ buf, bunBufferInit (zeroedObject ⟨.w64, .little⟩ 40 (by decide)) = some buf :=
    ⟨_, rfl⟩
  obtain ⟨buf, hbuf⟩ := hopen
  have hflag : ∀ ev ∈ List.replicate (2 ^ 31 + 1)
      (SessionEvent.init (fun _ => ⟨1⟩) 7 unopenedWriter .x86_64), ev.FlagSet 5 := fun ev hev => by
    rw [List.eq_of_mem_replicate hev]
    exact (by decide : (1 : UInt64) &&& bunHandleWriteOnce ≠ 0)
  have hcount : initCount (List.replicate (2 ^ 31 + 1)
      (SessionEvent.init (fun _ => ⟨1⟩) 7 unopenedWriter .x86_64)) = 2 ^ 31 + 1 := by
    rw [initCount, List.countP_replicate]
    rfl
  have hrun := (Attempts.fresh (r := 5) hbuf).run hflag
  rw [hcount] at hrun
  have hlast := hrun.result_two_pow (by omega)
  refine ⟨buf, _, hbuf, rfl, hflag, hlast, fun honce => ?_⟩
  exact absurd ((honce.results _ _ hlast).mp rfl) (by decide)

end LibBun
