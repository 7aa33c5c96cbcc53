import LibBun.Lib.Growing
import LibBun.Feed
import LibBun.Proof.Crash

/-!
# What a reader that follows a writer is given

A cut in the middle of a session is readable up to some of the frames committed so
far. Here the cuts are strung together: the records a reader can find only grow from
one store to the next, so a reader that has gone through the first few of them and
comes back later still stands in front of the next one.

It follows that nothing is torn, lost, repeated or out of order, however the calls of
the readers fall between the stores of the writer.
-/

namespace LibBun

variable {h : Host} {s : WriterState} {rs : List Record} {m m' : List UInt8} {r : BunReader}

/-! ## A reader between two records -/

/-- The reader has gone through the first `n` of the records. -/
structure Follower (h : Host) (m : List UInt8) (rs : List Record) (r : BunReader) (n : Nat) :
    Prop where
  le : n ≤ rs.length
  at_ : ReaderAt h m r (streamEnd (rs.take n))

theorem Follower.start (hr : ReaderAt h m r headerSize) (rs : List Record) :
    Follower h m rs r 0 := ⟨Nat.zero_le _, hr⟩

/-- It stays where it is when there are more records, in memory of the same size. -/
theorem Follower.grow {n : Nat} (hf : Follower h m rs r n) {rs' : List Record}
    (hrs : rs'.take n = rs.take n) (hm : m'.length = m.length) : Follower h m' rs' r n where
  le := by
    have hlen := congrArg List.length hrs
    have hle := hf.le
    rw [List.length_take, List.length_take] at hlen
    omega
  at_ := by
    rw [hrs]
    exact ⟨hf.at_.buffer, hm ▸ hf.at_.size, hf.at_.cursor, hm ▸ hf.at_.off_le, hm ▸ hf.at_.mem_le⟩

/-- What is in front of a reader: the records it has not gone through, and the rest. -/
theorem Readable.drop_take (hm : Readable h m rs) (n : Nat) :
    m.drop (streamEnd (rs.take n))
      = frameCodec.encodeAll (rs.drop n) ++ m.drop (streamEnd rs) := by
  have hsplit : frameCodec.encodeAll rs
      = frameCodec.encodeAll (rs.take n) ++ frameCodec.encodeAll (rs.drop n) := by
    rw [← frameCodec.encodeAll_append, List.take_append_drop]
  rw [streamEnd, ← List.drop_drop, hm.stream, hsplit, List.append_assoc, List.drop_left]

/-- **One call of `bun_frame_read`** gives the next record, or nothing and nothing is lost. -/
theorem Readable.call (hm : Readable h m rs) {n : Nat} (hf : Follower h m rs r n)
    (frame : BunFrame) :
    ∃ ok r' frame', bunFrameRead h m r frame = some (ok, r', frame')
      ∧ ((ok = false ∧ Follower h m rs r' n)
        ∨ (ok = true ∧ Follower h m rs r' (n + 1)
          ∧ (rs.take (n + 1)).map (Record.content h)
            = (rs.take n).map (Record.content h) ++ [frame'.content h])) := by
  have hhead : headerSize ≤ m.length :=
    (Nat.le_add_right headerSize _).trans hf.at_.off_le
  rcases bunFrameRead_cases hf.at_ hhead frame with ⟨hcall, _⟩ | ⟨frame', hcall, _⟩ |
    ⟨rec, rest, hdec, _, hgate, hcall⟩
  · exact ⟨false, r, frame, hcall, Or.inl ⟨rfl, hf⟩⟩
  · exact ⟨false, _, frame', hcall, Or.inl ⟨rfl, hf.le, hf.at_.setOverflow⟩⟩
  · have hfront := hm.drop_take n
    by_cases hlt : n < rs.length
    · -- the next record is what is decoded
      have hcons : rs.drop n = rs[n] :: rs.drop (n + 1) := List.drop_eq_getElem_cons hlt
      rw [hcons, Codec.encodeAll, List.append_assoc] at hfront
      have hrec : rs[n] = rec := by
        rw [hfront, frameCodec.decode_encode] at hdec
        exact (Prod.mk.inj (Option.some.inj hdec)).1
      have hsound := frameCodec.decode_sound hdec
      have hend := Record.end_le hsound
      have htake : rs.take (n + 1) = rs.take n ++ [rec] := by
        rw [← hrec, List.take_append_getElem hlt]
      have hnext : streamEnd (rs.take (n + 1)) = streamEnd (rs.take n) + rec.length := by
        rw [htake, streamEnd_append]
      refine ⟨true, _, _, hcall, Or.inr ⟨rfl, ⟨hlt, ?_⟩, ?_⟩⟩
      · rw [hnext]
        exact hf.at_.advance hend
      · rw [htake, List.map_append, List.map_singleton, content_deliver hsound]
    · -- behind the last record the gate is shut or there is nothing to decode
      have hall : rs.take n = rs := List.take_of_length_le (Nat.le_of_not_lt hlt)
      have hstops := hm.stops
      rw [hall] at hdec hgate
      rcases hstops with hshut | hnone
      · rw [hshut] at hgate
        exact Bool.noConfusion hgate
      · rw [hnone] at hdec
        exact absurd hdec (by simp)

/-! ## The records between one store and the next -/

/--
**Along a run the readable records only grow**, and are up to a prefix those that were
committed.
-/
theorem Live.growing (hl : Live h s rs) {ops : List WriterOp}
    (hops : ∀ op ∈ ops, op.WellFormed h) :
    ∃ g : Growing Record, ∀ k, ∃ new, g.at_ k = rs ++ new
      ∧ Readable h (Region.replay s.mem.bytes ((storesFrom h s ops).take k)) (rs ++ new)
      ∧ new.map (Record.content h) <+: (committed h s ops k).map (BunFrame.content h) := by
  induction ops generalizing s rs with
  | nil =>
      refine ⟨Growing.const rs, fun k => ⟨[], (List.append_nil rs).symm, ?_, List.nil_prefix⟩⟩
      have hnone : storesFrom h s [] = [] := List.drop_length
      rw [hnone, List.take_nil, List.append_nil]
      exact hl.readable (Region.SameOn.refl 0 (streamEnd rs) s.mem.bytes) (Int.le_refl _)
  | cons op ops ih =>
      have hop := hops op (List.mem_cons_self ..)
      have hrest : ∀ o ∈ ops, o.WellFormed h := fun o ho => hops o (List.mem_cons_of_mem _ ho)
      obtain ⟨ss, hcall⟩ := callStores hl.at_ hop
      have hstored : (op.apply h s).mem.log.length - s.mem.log.length = ss.length := by
        rw [hcall.log, List.length_append, Nat.add_sub_cancel_left]
      have hcut : ∀ k, k < ss.length →
          Readable h (Region.replay s.mem.bytes ((ss ++ storesFrom h (op.apply h s) ops).take k))
            rs := by
        intro k hk
        rw [List.take_append_of_le_length (Nat.le_of_lt hk)]
        exact hl.readable (Region.sameOn_replay_above 0 _ _ (hcall.above k hk)) (Int.le_refl _)
      have hpast : ∀ k, ss.length ≤ k →
          Region.replay s.mem.bytes ((ss ++ storesFrom h (op.apply h s) ops).take k)
            = Region.replay (op.apply h s).mem.bytes
              ((storesFrom h (op.apply h s) ops).take (k - ss.length)) := by
        intro k hk
        rw [List.take_append, List.take_of_length_le hk, Region.replay_append, ← hcall.bytes]
      rw [storesFrom_cons hl.at_ hops hcall]
      rcases hl.call hop with ⟨new, hl', hnew⟩ | ⟨off, hb⟩
      · obtain ⟨g, hg⟩ := ih hl' hrest
        have hfirst : rs <+: g.at_ 0 := by
          obtain ⟨more, hmore, _⟩ := hg 0
          rw [hmore, List.append_assoc]
          exact List.prefix_append _ _
        refine ⟨Growing.after ss.length rs g hfirst, fun k => ?_⟩
        rw [committed, hstored]
        by_cases hk : k < ss.length
        · refine ⟨[], ?_, ?_, List.nil_prefix⟩
          · rw [Growing.after_of_lt hfirst hk, List.append_nil]
          · rw [List.append_nil]
            exact hcut k hk
        · obtain ⟨more, hmore, hread, hprefix⟩ := hg (k - ss.length)
          refine ⟨new ++ more, ?_, ?_, ?_⟩
          · rw [Growing.after_of_le hfirst (Nat.le_of_not_lt hk), hmore, List.append_assoc]
          · rw [hpast k (Nat.le_of_not_lt hk), ← List.append_assoc]
            exact hread
          · rw [if_neg hk, List.map_append, List.map_append, hnew]
            exact (List.prefix_append_right_inj _).mpr hprefix
      · -- a broken stream never grows again
        refine ⟨Growing.const rs, fun k =>
          ⟨[], (List.append_nil rs).symm, ?_, List.nil_prefix⟩⟩
        rw [List.append_nil]
        by_cases hk : k < ss.length
        · exact hcut k hk
        · rw [hpast k (Nat.le_of_not_lt hk)]
          exact hb.readable fun st hst =>
            storesFrom_spares hb.at_ hrest st (List.mem_of_mem_take hst)

/-! ## The events of a feed -/

/-- The feed when the first `k` stores have been made. -/
structure FeedAt (h : Host) (m : List UInt8) (ss : List ByteStore) (g : Growing Record)
    (feed : Feed h) (k : Nat) : Prop where
  le : k ≤ ss.length
  pending : feed.pending = ss.drop k
  payload : feed.buffer.payload = Region.replay m (ss.take k)
  size : bunBufferPayloadHeaderSize ≤ feed.buffer.size
  readable : ∀ k, Readable h (Region.replay m (ss.take k)) (g.at_ k)
  /-- Every reader has been given the records it has gone through. -/
  followers : ∀ i r, feed.readers i = some r → ∃ n,
    Follower h feed.buffer.payload (g.at_ k) r n
      ∧ feed.delivered i = ((g.at_ k).take n).map (Record.content h)
  /-- And nobody else anything. -/
  others : ∀ i, feed.readers i = none → feed.delivered i = []

namespace FeedAt

variable {ss : List ByteStore} {g : Growing Record} {feed : Feed h} {k : Nat}

/-- What was given to a reader are the first of the records there are. -/
theorem delivered_prefix (hf : FeedAt h m ss g feed k) (i : Nat) :
    feed.delivered i <+: (g.at_ k).map (Record.content h) := by
  cases hr : feed.readers i with
  | none =>
      rw [hf.others i hr]
      exact List.nil_prefix
  | some r =>
      obtain ⟨n, _, hdel⟩ := hf.followers i r hr
      rw [hdel]
      exact (List.take_prefix n _).map _

/-- A reader gets to another place, and is given what is in front of it there. -/
theorem setReader (hf : FeedAt h m ss g feed k) (i : Nat) {r : BunReader} {n : Nat}
    (hr : Follower h feed.buffer.payload (g.at_ k) r n) {given : List FrameContent}
    (hgiven : given = ((g.at_ k).take n).map (Record.content h)) :
    FeedAt h m ss g { feed with
      readers := Function.update feed.readers i (some r)
      delivered := Function.update feed.delivered i given } k where
  le := hf.le
  pending := hf.pending
  payload := hf.payload
  size := hf.size
  readable := hf.readable
  followers := by
    intro j q hq
    dsimp only at hq ⊢
    by_cases hji : j = i
    · subst hji
      rw [Function.update_self] at hq ⊢
      obtain rfl : r = q := Option.some.inj hq
      exact ⟨n, hr, hgiven⟩
    · rw [Function.update_of_ne hji] at hq ⊢
      exact hf.followers j q hq
  others := by
    intro j hj
    dsimp only at hj ⊢
    by_cases hji : j = i
    · subst hji
      rw [Function.update_self] at hj
      exact absurd hj (by simp)
    · rw [Function.update_of_ne hji] at hj ⊢
      exact hf.others j hj

theorem store {st : ByteStore} {rest : List ByteStore} (hf : FeedAt h m ss g feed k)
    (hpend : feed.pending = st :: rest) :
    ∃ feed', feed.step .store = some feed' ∧ FeedAt h m ss g feed' (k + 1) := by
  have hdrop : ss.drop k = st :: rest := hf.pending.symm.trans hpend
  have hk : k < ss.length := by
    have hlen := congrArg List.length hdrop
    rw [List.length_drop, List.length_cons] at hlen
    omega
  have hcons := List.drop_eq_getElem_cons hk
  rw [hdrop] at hcons
  obtain ⟨hst, hrest⟩ := List.cons.inj hcons
  have hpayload : Region.patch feed.buffer.payload st.addr st.cells
      = Region.replay m (ss.take (k + 1)) := by
    rw [← List.take_append_getElem hk, Region.replay_append, ← hf.payload, hst]
    rfl
  refine ⟨_, by rw [Feed.step, hpend], ?_⟩
  refine ⟨hk, hrest, hpayload, hf.size, hf.readable, fun i r hr => ?_, hf.others⟩
  obtain ⟨n, hn, hdel⟩ := hf.followers i r hr
  have htake := g.take_eq hn.le
  exact ⟨n, hn.grow htake (Region.length_patch ..), by rw [htake]; exact hdel⟩

theorem readerInit (hf : FeedAt h m ss g feed k) (i : Nat) (handle : Option HandleRef) :
    ∃ feed', feed.step (.readerInit i handle) = some feed' ∧ FeedAt h m ss g feed' k := by
  have hmagic := (hf.readable k).magic
  rw [← hf.payload] at hmagic
  obtain ⟨r, hinit⟩ :=
    bunReaderInit_of_magic hf.size hmagic ((feed.readers i).getD unopenedReader) handle
  obtain ⟨hr, _, _⟩ := bunReaderInit_at hinit
  refine ⟨_, by rw [Feed.step, hinit]; rfl, hf.setReader i (Follower.start hr _) ?_⟩
  rfl

theorem frameRead (hf : FeedAt h m ss g feed k) (i : Nat) (frame : BunFrame) :
    ∃ feed', feed.step (.frameRead i frame) = some feed' ∧ FeedAt h m ss g feed' k := by
  cases hr : feed.readers i with
  | none => exact ⟨feed, by rw [Feed.step, hr], hf⟩
  | some r =>
      obtain ⟨n, hn, hdel⟩ := hf.followers i r hr
      have hread : Readable h feed.buffer.payload (g.at_ k) := by
        rw [hf.payload]
        exact hf.readable k
      obtain ⟨ok, r', frame', hcall, hres⟩ := hread.call hn frame
      rcases hres with ⟨rfl, hn'⟩ | ⟨rfl, hn', hcontent⟩
      · refine ⟨_, by rw [Feed.step, hr]; dsimp only; rw [hcall]; rfl, hf.setReader i hn' ?_⟩
        exact hdel
      · refine ⟨_, by rw [Feed.step, hr]; dsimp only; rw [hcall]; rfl, hf.setReader i hn' ?_⟩
        rw [if_pos rfl, hcontent, hdel]

/-- **Whatever happens next**, the feed is at one of its moments again. -/
theorem step (hf : FeedAt h m ss g feed k) (e : FeedEvent) :
    ∃ feed' k', feed.step e = some feed' ∧ FeedAt h m ss g feed' k' := by
  cases e with
  | store =>
      cases hpend : feed.pending with
      | nil => exact ⟨feed, k, by rw [Feed.step, hpend], hf⟩
      | cons st rest =>
          obtain ⟨feed', hstep, hf'⟩ := hf.store hpend
          exact ⟨feed', k + 1, hstep, hf'⟩
  | readerInit i handle =>
      obtain ⟨feed', hstep, hf'⟩ := hf.readerInit i handle
      exact ⟨feed', k, hstep, hf'⟩
  | frameRead i frame =>
      obtain ⟨feed', hstep, hf'⟩ := hf.frameRead i frame
      exact ⟨feed', k, hstep, hf'⟩

theorem run (hf : FeedAt h m ss g feed k) (events : List FeedEvent) :
    ∃ feed' k', feed.run events = some feed' ∧ FeedAt h m ss g feed' k' := by
  induction events generalizing feed k with
  | nil => exact ⟨feed, k, rfl, hf⟩
  | cons e events ih =>
      obtain ⟨next, k₁, hstep, hnext⟩ := hf.step e
      obtain ⟨feed', k', hrun, hf'⟩ := ih hnext
      refine ⟨feed', k', ?_, hf'⟩
      rw [Feed.run, List.foldlM_cons, hstep]
      exact hrun

end FeedAt

/-- The frames a session has committed by the time only `pending` of its stores are left. -/
def committedBefore (h : Host) (s : WriterState) (ops : List WriterOp)
    (pending : List ByteStore) : List BunFrame :=
  committed h s ops ((storesFrom h s ops).length - pending.length)

/--
**Nothing torn, lost, repeated or out of order.** A session is opened on any buffer with
room for a header, and its calls are any the interface allows. While its stores reach
the memory one by one, readers are opened and call `bun_frame_read`, any number of them
and at any time. No call reads outside the payload, and what a reader has been given
since it was opened are, in order, the first of the frames committed by then.
-/
theorem feed_delivers {buf buf' : BunBuffer h} (hbuf : bunBufferPayloadHeaderSize ≤ buf.size)
    {handles : HandleRef → BunHandle} {tid : UInt32} {w₀ w : BunWriter} {arch : BunArchitecture}
    {handle : Option HandleRef}
    (hinit : bunWriterInit handles tid w₀ buf arch handle = (true, w, buf'))
    {ops : List WriterOp} (hops : ∀ op ∈ ops, op.WellFormed h) (events : List FeedEvent) :
    ∃ feed, (Feed.start buf' (storesFrom h ⟨w, buf'.memory⟩ ops)).run events = some feed
      ∧ ∀ i, feed.delivered i <+: (committedBefore h ⟨w, buf'.memory⟩ ops feed.pending).map
        (BunFrame.content h) := by
  obtain ⟨g, hg⟩ := (Live.start hbuf hinit).growing hops
  have hsize : bunBufferPayloadHeaderSize ≤ buf'.size := by
    obtain ⟨_, hsize, _⟩ := bunWriterInit_eq_true hinit
    rwa [hsize]
  have hstart : FeedAt h buf'.payload (storesFrom h ⟨w, buf'.memory⟩ ops) g
      (Feed.start buf' (storesFrom h ⟨w, buf'.memory⟩ ops)) 0 := by
    refine ⟨Nat.zero_le _, rfl, rfl, hsize, fun k => ?_, fun i r hr => ?_, fun i _ => rfl⟩
    · obtain ⟨new, hnew, hread, _⟩ := hg k
      rw [hnew]
      exact hread
    · exact absurd hr (by simp [Feed.start])
  obtain ⟨feed, k, hrun, hat⟩ := hstart.run events
  refine ⟨feed, hrun, fun i => ?_⟩
  obtain ⟨new, hnew, _, hprefix⟩ := hg k
  have hmade : (storesFrom h ⟨w, buf'.memory⟩ ops).length - feed.pending.length = k := by
    have hle := hat.le
    rw [hat.pending, List.length_drop]
    omega
  have hdel := hat.delivered_prefix i
  rw [hnew, List.nil_append] at hdel
  rw [committedBefore, hmade]
  exact hdel.trans hprefix

/--
A reader calls before the first store, in the middle of the second frame and at the end;
another one is opened in between.
-/
def twoFrameSchedule : List FeedEvent :=
  [.readerInit 0 none, .frameRead 0 BunFrame.zero] ++ List.replicate 80 .store
    ++ [.frameRead 0 BunFrame.zero, .readerInit 1 none, .frameRead 1 mainFrame,
      .frameRead 1 mainFrame]
    ++ List.replicate 20 .store ++ [.frameRead 0 leafFrame]

theorem feed_delivers_twoFrames :
    ∃ (buf' : BunBuffer ⟨.w64, .little⟩) (w : BunWriter) (feed : Feed ⟨.w64, .little⟩),
      bunWriterInit (fun _ => ⟨0⟩) 7 unopenedWriter (staleBuffer ⟨.w64, .little⟩) .x86_64 none
        = (true, w, buf')
      ∧ (Feed.start buf' (storesFrom ⟨.w64, .little⟩ ⟨w, buf'.memory⟩ twoFrameOps)).run
        twoFrameSchedule = some feed
      ∧ (∀ i, feed.delivered i <+: (committedBefore ⟨.w64, .little⟩ ⟨w, buf'.memory⟩ twoFrameOps
        feed.pending).map (BunFrame.content ⟨.w64, .little⟩))
      ∧ feed.delivered 0 = [mainFrame, leafFrame].map (BunFrame.content ⟨.w64, .little⟩)
      ∧ feed.delivered 1 = [mainFrame.content ⟨.w64, .little⟩] := by
  have hopen : ∃ buf' w,
      bunWriterInit (fun _ => ⟨0⟩) 7 unopenedWriter (staleBuffer ⟨.w64, .little⟩) .x86_64 none
        = (true, w, buf')
      ∧ ((Feed.start buf' (storesFrom ⟨.w64, .little⟩ ⟨w, buf'.memory⟩ twoFrameOps)).run
        twoFrameSchedule).map (fun feed => (feed.delivered 0, feed.delivered 1))
        = some ([mainFrame, leafFrame].map (BunFrame.content ⟨.w64, .little⟩),
          [mainFrame.content ⟨.w64, .little⟩]) := ⟨_, _, rfl, by decide +kernel⟩
  obtain ⟨buf', w, hinit, hgiven⟩ := hopen
  obtain ⟨feed, hrun, hdel⟩ :=
    feed_delivers (by decide) hinit (twoFrameOps_wellFormed _) twoFrameSchedule
  rw [hrun] at hgiven
  obtain ⟨hzero, hone⟩ := Prod.mk.inj (Option.some.inj hgiven)
  exact ⟨buf', w, feed, hinit, hrun, hdel, hzero, hone⟩

end LibBun
