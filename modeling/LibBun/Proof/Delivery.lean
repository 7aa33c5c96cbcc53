import LibBun.Proof.Refinement

/-!
# What readers are given, and what they are not

From what the calls of a run return one can tell which frames the session in progress
has accepted and which of them each reader has been given. On a journal the two hang
together: what a reader was given are the first of the accepted frames. So they do on a
buffer. It does not matter whether the reader was opened in the session or before, as
long as it had not been given anything when the session was opened. One that had is left
over, and of what it is given nothing is told.

The other way round something is missing. The declared size is behind the end of the
stream by the shortfall for every frame, so a reader that is told there is nothing more
may have frames in front of it; but never more than fit into that gap.
-/

namespace LibBun

open Journal

variable {h : Host} {cap : Nat}

/-! ## Reading a trace -/

/-- A call and what it returned. -/
abbrev Traced := BufferCall × CallResult

/-- The frames accepted in the session in progress, after one more call. -/
def acceptedStep (h : Host) (accepted : List FrameContent) : Traced → List FrameContent
  | (.writerInit .., .opened true) => []
  | (.frameWrite _ frame, .written n) => if n = 0 then accepted else accepted ++ [frame.content h]
  | _ => accepted

/--
The frames of the session in progress given to the `i`-th reader, after one more call;
`none` once it is left over from another session.
-/
def givenStep (i : Nat) (given : Option (List FrameContent)) : Traced → Option (List FrameContent)
  | (.writerInit .., .opened true) => given.filter List.isEmpty
  | (.frameRead k _, .frame (some content)) =>
      if k = i then given.map (· ++ [content]) else given
  | _ => given

def acceptedIn (h : Host) (trace : List Traced) : List FrameContent :=
  trace.foldl (acceptedStep h) []

def givenIn (i : Nat) (trace : List Traced) : Option (List FrameContent) :=
  trace.foldl (givenStep i) (some [])

/-! ## Traces of a journal -/

/-- Where the `i`-th reader is; one that was never opened is at the beginning. -/
def placeOf (readers : List (Option Nat)) (i : Nat) : Option Nat := (readers[i]?).getD (some 0)

/-- The session, and the frames a trace tells of. -/
structure SessionTold (h : Host) (cap : Nat) (readers : List (Option Nat))
    (session : JournalSession) (accepted : List FrameContent)
    (given : Nat → Option (List FrameContent)) : Prop where
  accepted : accepted = session.frames
  given : ∀ i, given i = (placeOf readers i).map session.frames.take
  inside : endOf session.frames ≤ cap
  /-- The declared size lags behind, by the shortfall for every frame. -/
  gap : session.declared + h.shortfall * session.frames.length = endOf session.frames
  /-- No reader is ahead of the frames. -/
  behind : ∀ i n, placeOf readers i = some n → n ≤ session.frames.length

/-- The same for a session that may not have been opened yet. -/
def Told (h : Host) (cap : Nat) (j : Journal) (accepted : List FrameContent)
    (given : Nat → Option (List FrameContent)) : Prop :=
  match j.session with
  | none => accepted = [] ∧ j.readers = [] ∧ ∀ i, given i = some []
  | some session => SessionTold h cap j.readers session accepted given

theorem endOf_append (frames : List FrameContent) (c : FrameContent) :
    endOf (frames ++ [c]) = endOf frames + c.length := by
  rw [endOf, endOf, List.map_append, List.sum_append, List.map_singleton, List.sum_singleton,
    Nat.add_assoc]

/-- The frames from the `n`-th on take what is between there and the end. -/
theorem endOf_take_add (frames : List FrameContent) (n : Nat) :
    endOf (frames.take n) + ((frames.drop n).map FrameContent.length).sum = endOf frames := by
  rw [endOf, endOf, Nat.add_assoc, ← List.sum_append, ← List.map_append, List.take_append_drop]

theorem shortfall_lt (h : Host) (f : BunFrame) : h.shortfall < f.encodedLength := by
  rw [Host.shortfall, BunFrame.encodedLength]
  omega

section

variable {readers : List (Option Nat)}

/-- A new reader is at the beginning, as it was before there was one. -/
@[simp] theorem placeOf_concat (i : Nat) : placeOf (readers ++ [some 0]) i = placeOf readers i := by
  rw [placeOf, placeOf, List.getElem?_append]
  split
  · rfl
  · rename_i hge
    rw [List.getElem?_eq_none (Nat.le_of_not_lt hge)]
    cases i - readers.length <;> rfl

@[simp] theorem placeOf_carried (i : Nat) :
    placeOf (readers.map carried) i = carried (placeOf readers i) := by
  rw [placeOf, placeOf, List.getElem?_map]
  cases readers[i]? <;> rfl

theorem placeOf_set {k : Nat} (hk : k < readers.length) (place : Option Nat) (i : Nat) :
    placeOf (readers.set k place) i = if k = i then place else placeOf readers i := by
  rw [placeOf, placeOf, List.getElem?_set]
  by_cases hik : k = i
  · rw [if_pos hik, if_pos hik, if_pos hk, Option.getD_some]
  · rw [if_neg hik, if_neg hik]

variable {session : JournalSession} {accepted : List FrameContent}
  {given : Nat → Option (List FrameContent)}

/-- A session that has just been opened, and what it makes of the readers. -/
theorem SessionTold.start (hcap : headerSize ≤ cap) (tid : UInt32) (backend : BunUnwindBackend)
    {frames : List FrameContent} (hgiven : ∀ i, given i = (placeOf readers i).map frames.take)
    (hbehind : ∀ i n, placeOf readers i = some n → n ≤ frames.length) :
    SessionTold h cap (readers.map carried) ⟨[], headerSize, tid, backend⟩ []
      (fun i => (given i).filter List.isEmpty) := by
  refine ⟨rfl, fun i => ?_, hcap, rfl, fun i n hn => ?_⟩
  · have hle := hbehind i
    dsimp only
    rw [hgiven i, placeOf_carried]
    cases hplace : placeOf readers i with
    | none => rfl
    | some n =>
        cases n with
        | zero => rfl
        | succ n =>
            -- it has been given something, so it is left over
            have hpos := hle (n + 1) hplace
            cases frames with
            | nil => exact absurd hpos (Nat.not_succ_le_zero n)
            | cons c frames => rfl
  · rw [placeOf_carried] at hn
    cases hplace : placeOf readers i with
    | none =>
        rw [hplace] at hn
        exact absurd hn (by simp [carried])
    | some m =>
        rw [hplace] at hn
        cases m with
        | zero => exact Nat.le_of_eq (Option.some.inj hn).symm
        | succ m => exact absurd hn (by simp [carried])

theorem SessionTold.write (hs : SessionTold h cap readers session accepted given)
    (hsmall : cap < 2 ^ 32) (k : Nat) (frame : BunFrame) :
    SessionTold h cap readers (Journal.write h cap frame session).2
      (acceptedStep h accepted (.frameWrite k frame, (Journal.write h cap frame session).1))
      given := by
  have hshort := shortfall_lt h frame
  have hlen := frame.length_content (h := h)
  have hgap := hs.gap
  rw [Journal.write]
  by_cases hfit : endOf session.frames + frame.encodedLength ≤ cap
  · have hne : frame.encodedLength - h.shortfall ≠ 0 := by omega
    have hend := endOf_append session.frames (frame.content h)
    rw [if_pos hfit]
    dsimp only
    refine ⟨?_, fun i => ?_, ?_, ?_, fun i n hn => ?_⟩
    · rw [acceptedStep, if_neg hne, hs.accepted]
    · rw [hs.given i]
      refine Option.map_congr fun n hn => ?_
      exact (List.take_append_of_le_length (hs.behind i n hn)).symm
    · rw [hend, hlen]
      exact hfit
    · dsimp only
      rw [hend, hlen, List.length_append, List.length_singleton, Nat.mul_succ,
        Nat.mod_eq_of_lt (by omega)]
      omega
    · rw [List.length_append]
      exact (hs.behind i n hn).trans (Nat.le_add_right _ _)
  · rw [if_neg hfit]
    exact ⟨hs.accepted, hs.given, hs.inside, hs.gap, hs.behind⟩

theorem SessionTold.readerInit (hs : SessionTold h cap readers session accepted given) :
    SessionTold h cap (readers ++ [some 0]) session accepted given := by
  refine ⟨hs.accepted, fun i => ?_, hs.inside, hs.gap, fun i n hn => ?_⟩
  · rw [placeOf_concat]
    exact hs.given i
  · rw [placeOf_concat] at hn
    exact hs.behind i n hn

/-- The next frame is given to a reader. -/
theorem SessionTold.give (hs : SessionTold h cap readers session accepted given) {k n : Nat}
    (hk : readers[k]? = some (some n)) (hn : n < session.frames.length) :
    SessionTold h cap (readers.set k (some (n + 1))) session accepted
      (fun i => if k = i then (given i).map (· ++ [session.frames[n]]) else given i) := by
  have hlt : k < readers.length := (List.getElem?_eq_some_iff.mp hk).1
  have hplace : placeOf readers k = some n := by rw [placeOf, hk, Option.getD_some]
  refine ⟨hs.accepted, fun i => ?_, hs.inside, hs.gap, fun i m hm => ?_⟩
  · rw [placeOf_set hlt]
    by_cases hik : k = i
    · subst hik
      rw [if_pos rfl, if_pos rfl, hs.given k, hplace, Option.map_some, Option.map_some,
        List.take_append_getElem hn, Option.map_some]
    · rw [if_neg hik, if_neg hik]
      exact hs.given i
  · rw [placeOf_set hlt] at hm
    by_cases hik : k = i
    · rw [if_pos hik] at hm
      rw [← Option.some.inj hm]
      exact hn
    · rw [if_neg hik] at hm
      exact hs.behind i m hm

/-- What a reader that is left over is given does not count. -/
theorem SessionTold.leave (hs : SessionTold h cap readers session accepted given) {k : Nat}
    (hk : readers[k]? = some none) (content : FrameContent) :
    SessionTold h cap readers session accepted
      (fun i => if k = i then (given i).map (· ++ [content]) else given i) := by
  refine ⟨hs.accepted, fun i => ?_, hs.inside, hs.gap, hs.behind⟩
  have hgiven := hs.given i
  by_cases hik : k = i
  · subst hik
    rw [placeOf, hk] at hgiven ⊢
    rw [if_pos rfl, hgiven]
    rfl
  · rw [if_neg hik]
    exact hgiven

/-- Below the declared size there is another frame. -/
theorem SessionTold.lt_of_open (hs : SessionTold h cap readers session accepted given) {n : Nat}
    (hopen : endOf (session.frames.take n) < session.declared) : n < session.frames.length := by
  by_contra hge
  have hgap := hs.gap
  rw [List.take_of_length_le (Nat.le_of_not_lt hge)] at hopen
  omega

end

section

variable {j : Journal} {accepted : List FrameContent} {given : Nat → Option (List FrameContent)}
  {o : CallResult}

/-- What a writer does is told where there is a session. -/
theorem Told.byWriter (ht : Told h cap j accepted given) {c : BufferCall} (k : Nat)
    {act : JournalSession → CallResult × JournalSession}
    (ho : Foretells (j.byWriter k act).1 o)
    (hmissing : acceptedStep h accepted (c, .missing) = accepted)
    (hact : ∀ session, SessionTold h cap j.readers session accepted given →
      SessionTold h cap j.readers (act session).2 (acceptedStep h accepted (c, (act session).1))
        given) :
    Told h cap (j.byWriter k act).2 (acceptedStep h accepted (c, o)) given := by
  unfold Told at ht ⊢
  unfold Journal.byWriter at ho ⊢
  cases hj : j.session with
  | none =>
      rw [hj] at ht ho
      rw [show o = .missing from ho, hmissing]
      dsimp only
      rw [hj]
      exact ht
  | some session =>
      rw [hj] at ht ho
      dsimp only at ho ⊢
      by_cases hk : k < j.sessions
      · rw [if_pos hk] at ho ⊢
        rw [show o = (act session).1 from ho]
        exact hact session ht
      · rw [if_neg hk] at ho ⊢
        rw [show o = .missing from ho, hmissing, hj]
        exact ht

theorem Told.writerInit (ht : Told h cap j accepted given) (hcap : headerSize ≤ cap)
    (handles : HandleRef → BunHandle) (tid : UInt32) (writer : BunWriter) (arch : BunArchitecture)
    (handle : Option HandleRef)
    (ho : Foretells (Journal.call h cap j (.writerInit handles tid writer arch handle)).1 o) :
    Told h cap (Journal.call h cap j (.writerInit handles tid writer arch handle)).2
      (acceptedStep h accepted (.writerInit handles tid writer arch handle, o))
      (fun i => givenStep i (given i) (.writerInit handles tid writer arch handle, o)) := by
  rw [Journal.call] at ho ⊢
  cases hbind : bindHandle j.handle handle with
  | none =>
      rw [hbind] at ho
      rw [show o = .opened false from ho]
      exact ht
  | some bound =>
      rw [hbind] at ho
      dsimp only at ho ⊢
      split at ho
      · rename_i hout
        rw [if_pos hout, show o = .opened false from ho]
        exact ht
      · rename_i hout
        rw [if_neg hout, show o = .opened true from ho]
        unfold Told at ht
        cases hj : j.session with
        | none =>
            rw [hj] at ht
            obtain ⟨_, hreaders, hgiven⟩ := ht
            have hempty : ∀ i, given i
                = (placeOf j.readers i).map ([] : List FrameContent).take := by
              intro i
              rw [hgiven i, hreaders]
              rfl
            have hbehind : ∀ i n, placeOf j.readers i = some n
                → n ≤ ([] : List FrameContent).length := by
              intro i n hn
              rw [hreaders] at hn
              exact Nat.le_of_eq (Option.some.inj hn).symm
            exact SessionTold.start hcap tid .none hempty hbehind
        | some session =>
            rw [hj] at ht
            exact SessionTold.start hcap tid .none ht.given ht.behind

theorem Told.frameRead (ht : Told h cap j accepted given) (k : Nat) (frame : BunFrame)
    (ho : Foretells (j.read k).1 o) :
    Told h cap (j.read k).2 (acceptedStep h accepted (.frameRead k frame, o))
      (fun i => givenStep i (given i) (.frameRead k frame, o)) := by
  unfold Told at ht
  unfold Journal.read at ho ⊢
  cases hj : j.session with
  | none =>
      rw [hj] at ht ho
      rw [show o = .missing from ho]
      unfold Told
      dsimp only
      rw [hj]
      exact ht
  | some session =>
      rw [hj] at ht ho
      unfold Told
      cases hk : j.readers[k]? with
      | none =>
          rw [hk] at ho
          rw [show o = .missing from ho]
          dsimp only
          rw [hj]
          exact ht
      | some place =>
          rw [hk] at ho
          cases place with
          | none =>
              dsimp only
              rw [hj]
              cases o with
              | frame content =>
                  cases content with
                  | none => exact ht
                  | some content => exact ht.leave hk content
              | _ => exact ht
          | some n =>
              dsimp only at ho ⊢
              by_cases hopen : endOf (session.frames.take n) < session.declared
              · have hn := ht.lt_of_open hopen
                rw [if_pos hopen, List.getElem?_eq_getElem hn] at ho
                rw [if_pos hopen, show o = _ from ho]
                exact ht.give hk hn
              · rw [if_neg hopen] at ho
                rw [if_neg hopen, show o = _ from ho]
                dsimp only
                rw [hj]
                exact ht

/-- **One call**, and the trace tells of one call more. -/
theorem Told.call (ht : Told h cap j accepted given) (hcap : headerSize ≤ cap)
    (hsmall : cap < 2 ^ 32) (c : BufferCall) (ho : Foretells (Journal.call h cap j c).1 o) :
    Told h cap (Journal.call h cap j c).2 (acceptedStep h accepted (c, o))
      (fun i => givenStep i (given i) (c, o)) := by
  cases c with
  | writerInit handles tid writer arch handle =>
      exact ht.writerInit hcap handles tid writer arch handle ho
  | frameWrite k frame =>
      exact ht.byWriter (c := .frameWrite k frame) k ho rfl fun session hs =>
        hs.write hsmall k frame
  | tidSet k tid | backendSet k backend =>
      exact ht.byWriter k ho rfl fun session hs =>
        ⟨hs.accepted, hs.given, hs.inside, hs.gap, hs.behind⟩
  | readerInit reader handle =>
      unfold Told at ht
      rw [Journal.call]
      unfold Told
      cases hj : j.session with
      | none =>
          rw [hj] at ht
          dsimp only
          rw [hj]
          exact ht
      | some session =>
          rw [hj] at ht
          exact ht.readerInit
  | frameRead k frame => exact ht.frameRead k frame ho
  | tidGet k | backendGet k =>
      rw [Journal.call, Journal.get]
      split <;> exact ht

/-- **A whole run**, from any state a trace tells of. -/
theorem Told.run (ht : Told h cap j accepted given) (hcap : headerSize ≤ cap)
    (hsmall : cap < 2 ^ 32) {calls : List BufferCall} {results : List CallResult}
    (hresults : List.Forall₂ Foretells (Run.outputs (Journal.call h cap) j calls) results) :
    Told h cap (Run.final (Journal.call h cap) j calls)
      ((calls.zip results).foldl (acceptedStep h) accepted)
      (fun i => (calls.zip results).foldl (givenStep i) (given i)) := by
  induction calls generalizing j accepted given results with
  | nil => exact ht
  | cons c calls ih =>
      cases hresults with
      | cons ho hrest => exact ih (ht.call hcap hsmall c ho) hrest

end

/-! ## Traces of a buffer -/

/-- The calls of a run on a fresh buffer, each with what it returned. -/
def traceOf (buf : BunBuffer h) (calls : List BufferCall) : List Traced :=
  calls.zip (Run.outputs BufferState.call (BufferState.fresh buf) calls)

/--
**Readers get the frames in order, and all but the gap.** In any run as above on a buffer
smaller than 4 GiB, what a reader has been given are the first of the frames accepted in
the session, unless it is left over from another. When `bun_frame_read` tells it there is
nothing more, the frames it has not been given take together no more bytes than the
shortfall, once for every accepted frame.
-/
theorem delivered_but_the_gap {data : CObject h} {buf : BunBuffer h}
    (hbuf : bunBufferInit data = some buf) (hsmall : buf.payload.length < 2 ^ 32)
    {calls : List BufferCall}
    (hallows : Run.Along (fun j c => (Journal.call h buf.payload.length j c).2)
      (Journal.Allows h buf.payload.length) Journal.blank calls) (i : Nat)
    {given : List FrameContent} (hgiven : givenIn i (traceOf buf calls) = some given) :
    given <+: acceptedIn h (traceOf buf calls)
    ∧ ∀ frame, ((Run.final BufferState.call (BufferState.fresh buf) calls).call
        (.frameRead i frame)).1 = .frame none →
      (((acceptedIn h (traceOf buf calls)).drop given.length).map FrameContent.length).sum
        ≤ h.shortfall * (acceptedIn h (traceOf buf calls)).length := by
  obtain ⟨hforetold, href⟩ := (Refines.fresh hbuf).run hallows
  have hcap := (buf.payload_room (bunBufferInit_size hbuf)).1
  have hblank : Told h buf.payload.length Journal.blank [] (fun _ => some []) :=
    ⟨rfl, rfl, fun _ => rfl⟩
  have htold : Told h buf.payload.length _ (acceptedIn h (traceOf buf calls))
      (fun i => givenIn i (traceOf buf calls)) := hblank.run hcap hsmall hforetold
  unfold Told at htold
  generalize Run.final (Journal.call h buf.payload.length) Journal.blank calls = j at htold href
  cases hj : j.session with
  | none =>
      rw [hj] at htold
      obtain ⟨haccepted, _, hempty⟩ := htold
      have hnothing : given = [] := Option.some.inj (hgiven.symm.trans (hempty i))
      rw [haccepted, hnothing]
      exact ⟨List.prefix_rfl, fun _ _ => Nat.zero_le _⟩
  | some session =>
      rw [hj] at htold
      have hplace := htold.given i
      rw [hgiven] at hplace
      obtain ⟨n, hn, rfl⟩ := Option.map_eq_some_iff.mp hplace.symm
      have hbehind := htold.behind i n hn
      rw [htold.accepted]
      refine ⟨List.take_prefix _ _, fun frame hnone => ?_⟩
      rw [List.length_take, Nat.min_eq_left hbehind]
      -- the journal has been asked as well, and has found the reader in front of the gap
      have hread := (agrees_frameRead href i frame).1
      rw [hnone, Journal.call, Journal.read, hj] at hread
      have hgap := htold.gap
      have hsum := endOf_take_add session.frames n
      cases hi : j.readers[i]? with
      | none =>
          rw [hi] at hread
          exact CallResult.noConfusion hread
      | some place =>
          obtain rfl : place = some n := by rwa [placeOf, hi, Option.getD_some] at hn
          rw [hi] at hread
          dsimp only at hread
          by_cases hopen : endOf (session.frames.take n) < session.declared
          · rw [if_pos hopen, List.getElem?_eq_getElem (htold.lt_of_open hopen)] at hread
            injection hread with hread
            exact absurd hread (by simp)
          · omega

/-- The reader that waited for the second session is given the first frame of that one. -/
theorem delivered_but_the_gap_twoSessions :
    ∃ buf given, bunBufferInit (zeroedObject ⟨.w64, .little⟩ 150 (by decide)) = some buf
      ∧ givenIn 2 (traceOf buf twoSessionCalls) = some given
      ∧ given = [leafFrame.content ⟨.w64, .little⟩]
      ∧ given <+: acceptedIn ⟨.w64, .little⟩ (traceOf buf twoSessionCalls) := by
  obtain ⟨buf, hbuf, hlen⟩ :=
    bunBufferInit_zeroedObject ⟨.w64, .little⟩ (by decide : 150 < 2 ^ 31) (by decide)
  have hrun : (bunBufferInit (zeroedObject ⟨.w64, .little⟩ 150 (by decide))).map
      (fun buf => givenIn 2 (traceOf buf twoSessionCalls))
        = some (some [leafFrame.content ⟨.w64, .little⟩]) := by decide +kernel
  rw [hbuf] at hrun
  have hgiven := Option.some.inj hrun
  exact ⟨buf, _, hbuf, hgiven, rfl, (delivered_but_the_gap hbuf (by omega)
    (hlen ▸ twoSessionCalls_allowed) 2 hgiven).1⟩

end LibBun
