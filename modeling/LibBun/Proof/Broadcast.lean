import LibBun.Proof.Feed
import LibBun.Proof.Race
import LibBun.Proof.Saved

/-!
# What comes out of a race

One caller is let in, and the others store nothing in the payload. So the payload goes
through the states it would go through if the one were alone, from the first store of the
header on, and what was said of readers that follow a writer holds of readers that follow
a race. Until the magic number is stored no reader can be opened; from then on the header
declares nothing until there is something.
-/

namespace LibBun

variable {h : Host} {handles : HandleRef → BunHandle} {s : Race h} {buf : BunBuffer h}
  {m : List UInt8}

/-! ## A header in the making -/

/-- The fields `bun_writer_init` fills in after the magic number, in its order. -/
def openingFields (arch : BunArchitecture) (tid : UInt32) : List (HeaderField × Nat) :=
  [(.version, 1), (.architecture, arch.toNat), (.size, headerSize), (.tid, tid.toNat),
    (.backend, BunUnwindBackend.none.toUInt16)]

/-- The store of a field in the header of a payload. -/
def fieldStore (x : HeaderField × Nat) : ByteStore :=
  ⟨0 + (x.1.start : Int), LittleEndian.encode x.1.width x.2⟩

/-- A header that begins with the magic number and declares no frame. -/
structure Opening (h : Host) (m : List UInt8) : Prop where
  head : headerSize ≤ m.length
  mem_le : m.length ≤ h.ptrdiffMax
  magic : HeaderField.magic.get m 0 = bunHeaderMagic
  size_le : HeaderField.size.get m 0 ≤ headerSize

namespace Opening

/-- A field that can be filled in without a frame being declared. -/
def Keeps (x : HeaderField × Nat) : Prop :=
  HeaderField.magic.start + HeaderField.magic.width ≤ x.1.start
    ∧ (x.1 = .size ∧ x.2 ≤ headerSize
      ∨ HeaderField.size.start + HeaderField.size.width ≤ x.1.start
      ∨ x.1.start + x.1.width ≤ HeaderField.size.start)

theorem openingFields_keeps (arch : BunArchitecture) (tid : UInt32) :
    ∀ x ∈ openingFields arch tid, Keeps x := by
  intro x hx
  simp only [openingFields, List.mem_cons, List.not_mem_nil, or_false] at hx
  rcases hx with rfl | rfl | rfl | rfl | rfl
  · exact ⟨Nat.le_of_ble_eq_true rfl, Or.inr (Or.inr (Nat.le_of_ble_eq_true rfl))⟩
  · exact ⟨Nat.le_of_ble_eq_true rfl, Or.inr (Or.inr (Nat.le_of_ble_eq_true rfl))⟩
  · exact ⟨Nat.le_of_ble_eq_true rfl, Or.inl ⟨rfl, Nat.le_refl _⟩⟩
  · exact ⟨Nat.le_of_ble_eq_true rfl, Or.inr (Or.inl (Nat.le_of_ble_eq_true rfl))⟩
  · exact ⟨Nat.le_of_ble_eq_true rfl, Or.inr (Or.inl (Nat.le_of_ble_eq_true rfl))⟩

/-- Such a header can be read, and nothing is in it. -/
theorem readable (ho : Opening h m) : Readable h m [] :=
  ⟨ho.magic, rfl, Or.inl (gate_eq_false (ho.head.trans ho.mem_le) (HeaderField.size.get_lt m 0)
    ho.size_le)⟩

theorem field (ho : Opening h m) {x : HeaderField × Nat} (hx : Keeps x) :
    Opening h (Region.patch m (fieldStore x).addr (fieldStore x).cells) := by
  obtain ⟨f, v⟩ := x
  have hset : Region.patch m (fieldStore (f, v)).addr (fieldStore (f, v)).cells
      = ((⟨m, []⟩ : Memory).setField 0 f v).bytes := rfl
  rw [hset]
  refine ⟨?_, ?_, ?_, ?_⟩
  · rw [Memory.setField, Memory.store, Region.length_patch]
    exact ho.head
  · rw [Memory.setField, Memory.store, Region.length_patch]
    exact ho.mem_le
  · rw [HeaderField.get_setField_of_disjoint _ (by decide) ho.head v (Or.inl hx.1)]
    exact ho.magic
  · rcases hx.2 with ⟨rfl, hv⟩ | hdisjoint
    · rw [HeaderField.get_setField _ (by decide) ho.head]
      exact (Nat.mod_le _ _).trans hv
    · rw [HeaderField.get_setField_of_disjoint _ (by decide) ho.head v hdisjoint]
      exact ho.size_le

theorem fields (ho : Opening h m) {xs : List (HeaderField × Nat)} (hxs : ∀ x ∈ xs, Keeps x) :
    Opening h (Region.replay m (xs.map fieldStore)) := by
  induction xs generalizing m with
  | nil => exact ho
  | cons x xs ih =>
      exact ih (ho.field (hxs x (List.mem_cons_self ..)))
        fun y hy => hxs y (List.mem_cons_of_mem _ hy)

/-- The magic number in an otherwise blank header. -/
theorem magic_stored {data : CObject h} (hbuf : bunBufferInit data = some buf) :
    Opening h (Region.patch buf.payload (fieldStore (.magic, bunHeaderMagic)).addr
      (fieldStore (.magic, bunHeaderMagic)).cells) := by
  obtain ⟨hhead, hle, _⟩ := buf.payload_room (bunBufferInit_size hbuf)
  have hset : Region.patch buf.payload (fieldStore (.magic, bunHeaderMagic)).addr
      (fieldStore (.magic, bunHeaderMagic)).cells
      = (buf.memory.setField 0 .magic bunHeaderMagic).bytes := rfl
  rw [hset]
  refine ⟨?_, ?_, ?_, ?_⟩
  · rw [Memory.setField, Memory.store, Region.length_patch]
    exact hhead
  · rw [Memory.setField, Memory.store, Region.length_patch]
    exact hle
  · rw [HeaderField.get_setField _ (by decide) hhead]
    decide
  · have hhead' : headerSize ≤ buf.memory.bytes.length := hhead
    rw [HeaderField.get_setField_of_disjoint _ (by decide) hhead' _ (Or.inr (by decide))]
    have hzero : HeaderField.size.get buf.memory.bytes 0 = 0 := by
      obtain ⟨hlen, _, _, _, hpayload⟩ := bunBufferInit_eq_some hbuf
      have hfits : 0 + (List.replicate headerSize (0 : UInt8)).length
          ≤ (data.1.drop payloadOffset).length := by
        rw [List.length_replicate, List.length_drop]
        rw [bunBufferPayloadHeaderSize] at hlen
        rw [headerSize, payloadOffset]
        omega
      have hfront := Region.drop_patch_of_fits hfits
      rw [List.drop_zero, Nat.cast_zero] at hfront
      rw [HeaderField.get_of_head (by decide) hhead']
      show LittleEndian.decode ((buf.payload.drop _).take _) = 0
      rw [hpayload, hfront, List.drop_append_of_le_length (by decide),
        List.take_append_of_le_length (by decide)]
      rfl
    rw [hzero]
    exact Nat.zero_le _

end Opening

/-! ## The stores of a caller that is let in -/

/-- What it stores after the magic number. -/
def Caller.rest (c : Caller) (buffer : BunBuffer h) : List ByteStore :=
  (openingFields c.arch c.tid).map fieldStore ++ storesFrom h (c.session buffer) c.ops

/-- The payload when the magic number is stored. -/
def announced (buffer : BunBuffer h) : List UInt8 :=
  Region.patch buffer.payload (fieldStore (.magic, bunHeaderMagic)).addr
    (fieldStore (.magic, bunHeaderMagic)).cells

/-- When the header is filled in nothing is written yet. -/
theorem Caller.live (c : Caller) {data : CObject h} (hbuf : bunBufferInit data = some buf) :
    Live h (c.session buf) [] := by
  have hroom := bunBufferInit_size hbuf
  obtain ⟨_, _, _, hhandle, _⟩ := bunBufferInit_eq_some hbuf
  have hbind : bindHandle buf.handle c.handle = some c.handle := by
    rw [hhandle]
    cases hgiven : c.handle <;> simp [bindHandle]
  have hin : ¬CountedOut (fun _ => ⟨0⟩) buf c.handle := by
    intro hout
    have honce := hout.1
    cases hgiven : c.handle <;> rw [hgiven] at honce <;> simp [isWriteOnce] at honce
  have hinit : bunWriterInit _ c.tid unopenedWriter buf c.arch c.handle = _ :=
    bunWriterInit_of_admitted (headerSize_le_payloadHeaderSize.trans hroom) hbind hin
  have hl := Live.start hroom hinit
  exact ⟨⟨hl.at_.buffer, hl.at_.size, hl.at_.mem_le, hl.at_.head, hl.at_.cursor, hl.at_.start,
    hl.at_.tight⟩, hl.inside, hl.clear, hl.magic, hl.stream, hl.size_le⟩

theorem Caller.stores_eq {c : Caller} {data : CObject h} (hbuf : bunBufferInit data = some buf)
    (hops : ∀ op ∈ c.ops, op.WellFormed h) :
    c.stores buf = fieldStore (.magic, bunHeaderMagic) :: c.rest buf := by
  obtain ⟨more, hmore⟩ := log_prefix (c.live hbuf).at_ hops
  have hlog : (c.session buf).mem.log
      = fieldStore (.magic, bunHeaderMagic) :: (openingFields c.arch c.tid).map fieldStore := rfl
  rw [Caller.stores, Caller.rest, storesFrom, ← hmore, List.drop_left, hlog]
  rfl

/--
**From the magic number on the payload is readable** at every store, and what is in it
only grows.
-/
theorem Caller.growing {c : Caller} {data : CObject h} (hbuf : bunBufferInit data = some buf)
    (hops : ∀ op ∈ c.ops, op.WellFormed h) :
    ∃ g : Growing Record, ∀ k, Readable h (Region.replay (announced buf) ((c.rest buf).take k))
        (g.at_ k)
      ∧ (g.at_ k).map (Record.content h)
        <+: (committed h (c.session buf) c.ops (k - 5)).map (BunFrame.content h) := by
  obtain ⟨g, hg⟩ := (c.live hbuf).growing hops
  have hfive : ((openingFields c.arch c.tid).map fieldStore).length = 5 := rfl
  refine ⟨Growing.after 5 [] g List.nil_prefix, fun k => ?_⟩
  by_cases hk : k < 5
  · -- some of the header's fields are not filled in yet
    rw [Growing.after_of_lt _ hk, Caller.rest, List.take_append_of_le_length (by omega),
      ← List.map_take]
    refine ⟨Opening.readable (Opening.fields (Opening.magic_stored hbuf) fun x hx => ?_),
      List.nil_prefix⟩
    exact Opening.openingFields_keeps _ _ x (List.mem_of_mem_take hx)
  · obtain ⟨new, hnew, hread, hprefix⟩ := hg (k - 5)
    rw [Growing.after_of_le _ (Nat.le_of_not_lt hk), hnew, Caller.rest, List.take_append,
      List.take_of_length_le (by omega), hfive, Region.replay_append]
    exact ⟨hread, hprefix⟩

/-! ## The events of a race -/

/-- Nothing has been stored in the payload, and nobody reads it. -/
structure Quiet (buf : BunBuffer h) (s : Race h) : Prop where
  payload : s.buffer.payload = buf.payload
  size : s.buffer.size = buf.size
  readers : ∀ i, s.readers i = none
  delivered : ∀ i, s.delivered i = []

/-- The race as those who read the payload see it. -/
inductive Broadcast (buf : BunBuffer h) (s : Race h) : Prop where
  /-- Nobody is let in yet. -/
  | quiet (hnone : s.sessions = 0) (hquiet : Quiet buf s)
  /-- Somebody is, and has stored nothing. -/
  | opened (i : Nat) (c : Caller) (hc : s.contenders[i]? = some ⟨c, .inside (c.stores buf)⟩)
      (hquiet : Quiet buf s)
  /-- Somebody is, and has stored the magic number and `k` times since. -/
  | airing (i : Nat) (c : Caller) (pending : List ByteStore)
      (hc : s.contenders[i]? = some ⟨c, .inside pending⟩) (g : Growing Record) (k : Nat)
      (hg : ∀ k, (g.at_ k).map (Record.content h)
        <+: (committed h (c.session buf) c.ops (k - 5)).map (BunFrame.content h))
      (hfeed : FeedAt h (announced buf) (c.rest buf) g (s.feed pending) k)

/-- What a caller is to store depends on the payload only. -/
theorem Caller.stores_congr (c : Caller) {b : BunBuffer h} (hpayload : b.payload = buf.payload)
    (hsize : b.size = buf.size) : c.stores b = c.stores buf := by
  have hsession : c.session b = c.session buf := by
    rw [Caller.session, Caller.session, BunBuffer.memory, BunBuffer.memory, hpayload,
      bunBufferPayloadSize, bunBufferPayloadSize, hsize]
  rw [Caller.stores, Caller.stores, hsession]

/-- An access stores in the payload only if the caller is inside. -/
theorem Caller.access_payload {c : Caller} {b b' : BunBuffer h} {p p' : InitPoint}
    (haccess : c.access handles b p = some (p', b')) :
    (p.isInside = false ∧ b'.payload = b.payload ∧ b'.size = b.size
        ∧ (p'.isInside = true → p' = .inside (c.stores b))) ∨
    (p = .inside [] ∧ p' = .inside [] ∧ b' = b) ∨
    ∃ st pending, p = .inside (st :: pending) ∧ p' = .inside pending
      ∧ b' = b.withPayload (Region.patch b.payload st.addr st.cells) (Region.length_patch ..) := by
  have hend : ∀ {q : InitPoint} {buffer : BunBuffer h}, some (q, buffer) = some (p', b') →
      p' = q ∧ b' = buffer := by
    intro q buffer heq
    obtain ⟨hq, hbuffer⟩ := Prod.mk.inj (Option.some.inj heq)
    exact ⟨hq.symm, hbuffer.symm⟩
  cases p with
  | size =>
      obtain ⟨rfl, rfl⟩ := hend haccess
      refine Or.inl ⟨rfl, rfl, rfl, fun hin => ?_⟩
      split at hin <;> exact Bool.noConfusion hin
  | bound =>
      rw [access] at haccess
      split at haccess <;> obtain ⟨rfl, rfl⟩ := hend haccess <;>
        refine Or.inl ⟨rfl, rfl, rfl, fun hin => ?_⟩ <;>
        split at hin <;> exact Bool.noConfusion hin
  | compare =>
      obtain ⟨rfl, rfl⟩ := hend haccess
      refine Or.inl ⟨rfl, rfl, rfl, fun hin => ?_⟩
      split at hin <;> exact Bool.noConfusion hin
  | bind =>
      obtain ⟨rfl, rfl⟩ := hend haccess
      exact Or.inl ⟨rfl, rfl, rfl, fun hin => Bool.noConfusion hin⟩
  | rebound =>
      obtain ⟨rfl, rfl⟩ := hend haccess
      refine Or.inl ⟨rfl, rfl, rfl, fun hin => ?_⟩
      split at hin
      · exact Bool.noConfusion hin
      · rename_i hnone
        rw [if_neg hnone]
  | flags =>
      rw [access] at haccess
      split at haccess
      · exact absurd haccess (by simp)
      · split at haccess <;> obtain ⟨rfl, rfl⟩ := hend haccess
        · exact Or.inl ⟨rfl, rfl, rfl, fun hin => Bool.noConfusion hin⟩
        · exact Or.inl ⟨rfl, rfl, rfl, fun _ => rfl⟩
  | count =>
      rw [access] at haccess
      obtain ⟨hp, hb⟩ := hend haccess
      rw [hp, hb]
      refine Or.inl ⟨rfl, rfl, rfl, fun hin => ?_⟩
      split at hin
      · exact Bool.noConfusion hin
      · rename_i hlast
        have hsame : c.stores { b with writeCount := b.writeCount + 1 } = c.stores b :=
          c.stores_congr rfl rfl
        rw [if_neg hlast, hsame]
  | inside pending =>
      cases pending with
      | nil =>
          obtain ⟨rfl, rfl⟩ := hend haccess
          exact Or.inr (Or.inl ⟨rfl, rfl, rfl⟩)
      | cons st pending =>
          obtain ⟨rfl, rfl⟩ := hend haccess
          exact Or.inr (Or.inr ⟨st, pending, rfl, rfl, rfl⟩)
  | turnedAway =>
      obtain ⟨rfl, rfl⟩ := hend haccess
      exact Or.inl ⟨rfl, rfl, rfl, fun hin => Bool.noConfusion hin⟩
  | countedOut =>
      obtain ⟨rfl, rfl⟩ := hend haccess
      exact Or.inl ⟨rfl, rfl, rfl, fun hin => Bool.noConfusion hin⟩

/-- What a reader does has nothing to do with the stores that are still to come. -/
theorem Feed.step_reader {feed feed' : Feed h} {e : FeedEvent} (he : e ≠ .store)
    (hstep : feed.step e = some feed') (pending : List ByteStore) :
    feed'.buffer = feed.buffer ∧ feed'.pending = feed.pending
      ∧ Feed.step { feed with pending := pending } e = some { feed' with pending := pending } := by
  cases e with
  | store => exact absurd rfl he
  | readerInit i handle =>
      rw [Feed.step] at hstep ⊢
      obtain ⟨⟨ok, r⟩, hinit, hrest⟩ := Option.bind_eq_some_iff.mp hstep
      dsimp only at hrest ⊢
      rw [hinit]
      cases ok with
      | false =>
          obtain rfl := Option.some.inj hrest
          exact ⟨rfl, rfl, rfl⟩
      | true =>
          obtain rfl := Option.some.inj hrest
          exact ⟨rfl, rfl, rfl⟩
  | frameRead i frame =>
      rw [Feed.step] at hstep ⊢
      dsimp only at hstep ⊢
      cases hr : feed.readers i with
      | none =>
          rw [hr] at hstep
          obtain rfl := Option.some.inj hstep
          exact ⟨rfl, rfl, rfl⟩
      | some r =>
          rw [hr] at hstep
          obtain ⟨⟨ok, r', frame'⟩, hread, hrest⟩ := Option.bind_eq_some_iff.mp hstep
          obtain rfl := Option.some.inj hrest
          dsimp only
          rw [hread]
          exact ⟨rfl, rfl, rfl⟩

namespace Quiet

theorem congr (hq : Quiet buf s) {s' : Race h} (hpayload : s'.buffer.payload = s.buffer.payload)
    (hsize : s'.buffer.size = s.buffer.size) (hreaders : s'.readers = s.readers)
    (hdelivered : s'.delivered = s.delivered) : Quiet buf s' :=
  ⟨hpayload.trans hq.payload, hsize.trans hq.size, by rw [hreaders]; exact hq.readers,
    by rw [hdelivered]; exact hq.delivered⟩

/-- Before the magic number nobody can read. -/
theorem watch (hq : Quiet buf s) {data : CObject h} (hbuf : bunBufferInit data = some buf)
    {e : FeedEvent} (he : e ≠ .store) : s.watch e = some s := by
  have hstep : (s.feed []).step e = some (s.feed []) := by
    cases e with
    | store => exact absurd rfl he
    | readerInit i handle =>
        have hinit : bunReaderInit unopenedReader s.buffer handle
            = some (false, unopenedReader) := by
          have hfresh := bunReaderInit_fresh hbuf unopenedReader handle
          unfold bunReaderInit bunBufferPayloadSize at hfresh ⊢
          rwa [hq.payload, hq.size]
        rw [Feed.step, Race.feed]
        dsimp only
        rw [hq.readers i, Option.getD_none, hinit]
        rfl
    | frameRead i frame =>
        rw [Feed.step, Race.feed]
        dsimp only
        rw [hq.readers i]
  rw [Race.watch, hstep]
  rfl

end Quiet

namespace Broadcast

variable {i : Nat}

theorem start (buf : BunBuffer h) (callers : List Caller) :
    Broadcast buf (Race.start buf callers) := by
  refine quiet (List.countP_eq_zero.mpr fun c hc => ?_) ⟨rfl, rfl, fun _ => rfl, fun _ => rfl⟩
  obtain ⟨caller, _, rfl⟩ := List.mem_map.mp hc
  exact Bool.false_ne_true

/-- Somebody else goes on, outside. -/
theorem outside (hb : Broadcast buf s) {d : Contender} (hd : s.contenders[i]? = some d)
    (hout : d.point.isInside = false) {b : BunBuffer h} (hpayload : b.payload = s.buffer.payload)
    (hsize : b.size = s.buffer.size) {p : InitPoint} (hp : p.isInside = false) :
    Broadcast buf { s with
      buffer := b, contenders := s.contenders.set i { d with point := p } } := by
  have hne : ∀ {j : Nat} {c : Caller} {pending : List ByteStore},
      s.contenders[j]? = some ⟨c, .inside pending⟩ → i ≠ j := by
    intro j c pending hc hij
    rw [hij, hc] at hd
    rw [← Option.some.inj hd] at hout
    exact Bool.noConfusion hout
  cases hb with
  | quiet hnone hquiet =>
      refine quiet ?_ (hquiet.congr hpayload hsize rfl rfl)
      exact (countP_point_same hd (hp.trans hout.symm)).trans hnone
  | opened j c hc hquiet =>
      exact opened j c ((List.getElem?_set_ne (hne hc)).trans hc)
        (hquiet.congr hpayload hsize rfl rfl)
  | airing j c pending hc g k hg hfeed =>
      refine airing j c pending ((List.getElem?_set_ne (hne hc)).trans hc) g k hg ?_
      refine ⟨hfeed.le, hfeed.pending, hpayload.trans hfeed.payload, ?_, hfeed.readable, ?_,
        hfeed.others⟩
      · exact hfeed.size.trans_eq hsize.symm
      · intro r reader hr
        obtain ⟨n, hn, hdel⟩ := hfeed.followers r reader hr
        refine ⟨n, ?_, hdel⟩
        show Follower h b.payload (g.at_ k) reader n
        rw [hpayload]
        exact hn

/-- Where somebody is inside, somebody is let in. -/
theorem sessions_pos {c : Caller} {pending : List ByteStore}
    (hc : s.contenders[i]? = some ⟨c, .inside pending⟩) : 0 < s.sessions :=
  List.countP_pos_iff.mpr ⟨_, Places.mem hc, rfl⟩

/-- **One access** of a caller. -/
theorem access (hb : Broadcast buf s) (hs : Contest handles s) {data : CObject h}
    (hbuf : bunBufferInit data = some buf)
    (hops : ∀ c ∈ s.contenders, ∀ op ∈ c.caller.ops, op.WellFormed h) {d : Contender}
    (hd : s.contenders[i]? = some d) {p : InitPoint} {b : BunBuffer h}
    (haccess : d.caller.access handles s.buffer d.point = some (p, b))
    (hnext : Contest handles { s with
      buffer := b, contenders := s.contenders.set i { d with point := p } }) :
    Broadcast buf { s with
      buffer := b, contenders := s.contenders.set i { d with point := p } } := by
  have hself : ∀ q : InitPoint,
      (s.contenders.set i { d with point := q })[i]? = some { d with point := q } :=
    fun q => List.getElem?_set_self (Places.lt_length hd)
  -- nobody else is inside where this caller is
  have hsame : ∀ {q : List ByteStore}, d.point = .inside q → ∀ {j : Nat} {c : Caller}
      {pending : List ByteStore}, s.contenders[j]? = some ⟨c, .inside pending⟩ →
      i = j ∧ d.caller = c ∧ q = pending := by
    intro q hq j c pending hc
    obtain rfl : i = j :=
      Places.eq_of_countP_le_one hs.sessions_le_one hd hc (by rw [hq]; rfl) rfl
    obtain rfl : d = ⟨c, .inside pending⟩ := Option.some.inj (hd.symm.trans hc)
    injection hq with hq
    exact ⟨rfl, rfl, hq.symm⟩
  rcases Caller.access_payload haccess with ⟨hout, hpayload, hsize, hin⟩ | ⟨hin, rfl, rfl⟩ |
    ⟨st, pending, hin, rfl, rfl⟩
  · cases hp : p.isInside with
    | false => exact hb.outside hd hout hpayload hsize hp
    | true =>
        -- the first to be let in
        have hone := hnext.sessions_le_one
        have hmove := countP_point hd p InitPoint.isInside
        rw [hout, hp, if_neg Bool.false_ne_true, if_pos rfl, Nat.add_zero] at hmove
        have hnobody : s.sessions = 0 := by
          rw [Race.sessions, hmove] at hone
          exact Nat.le_zero.mp (Nat.le_of_succ_le_succ hone)
        cases hb with
        | quiet _ hquiet =>
            refine opened i d.caller ?_ (hquiet.congr hpayload hsize rfl rfl)
            rw [hself, hin hp, d.caller.stores_congr hquiet.payload hquiet.size]
        | opened j c hc _ => exact absurd (sessions_pos hc) (by omega)
        | airing j c pending hc => exact absurd (sessions_pos hc) (by omega)
  · -- the caller has nothing left to store
    have heq : s.contenders.set i { d with point := .inside [] } = s.contenders := by
      rw [← hin]
      exact Places.move_self hd
    rw [heq]
    exact hb
  · -- one more store
    have hops := hops d (Places.mem hd)
    cases hb with
    | quiet hnone _ =>
        have hd' : s.contenders[i]? = some ⟨d.caller, .inside (st :: pending)⟩ := by
          rw [← hin]
          exact hd
        exact absurd (sessions_pos hd') (by omega)
    | opened j c hc hquiet =>
        obtain ⟨rfl, rfl, hstores⟩ := hsame hin hc
        rw [Caller.stores_eq hbuf hops] at hstores
        obtain ⟨rfl, rfl⟩ := List.cons.inj hstores
        obtain ⟨g, hg⟩ := Caller.growing hbuf hops
        refine airing i d.caller _ (hself _) g 0 (fun k => (hg k).2) ?_
        refine ⟨Nat.zero_le _, rfl, ?_, ?_, fun k => (hg k).1, ?_, fun r _ => hquiet.delivered r⟩
        · show Region.patch s.buffer.payload _ _ = announced buf
          rw [hquiet.payload, announced]
        · exact (bunBufferInit_size hbuf).trans_eq hquiet.size.symm
        · intro r reader hr
          exact absurd ((hquiet.readers r).symm.trans hr) (by simp)
    | airing j c pending' hc g k hg hfeed =>
        obtain ⟨rfl, rfl, rfl⟩ := hsame hin hc
        obtain ⟨feed', hstep, hfeed'⟩ := hfeed.store rfl
        obtain rfl := Option.some.inj hstep
        exact airing i d.caller pending (hself _) g (k + 1) hg hfeed'

/-- **A reader's turn**: it reads nothing outside the payload. -/
theorem watch (hb : Broadcast buf s) {data : CObject h} (hbuf : bunBufferInit data = some buf)
    {e : FeedEvent} (he : e ≠ .store) :
    ∃ s', s.watch e = some s' ∧ s'.contenders = s.contenders ∧ s'.buffer = s.buffer
      ∧ Broadcast buf s' := by
  cases hb with
  | quiet hnone hquiet => exact ⟨s, hquiet.watch hbuf he, rfl, rfl, quiet hnone hquiet⟩
  | opened i c hc hquiet => exact ⟨s, hquiet.watch hbuf he, rfl, rfl, opened i c hc hquiet⟩
  | airing i c pending hc g k hg hfeed =>
      obtain ⟨feed, k', hstep, hfeed'⟩ := hfeed.step e
      obtain ⟨hbuffer, hpending, hsame⟩ := Feed.step_reader he hstep []
      refine ⟨{ s with readers := feed.readers, delivered := feed.delivered }, ?_, rfl, rfl, ?_⟩
      · show (s.feed []).step e >>= _ = _
        rw [show (s.feed []).step e = _ from hsame]
        rfl
      · refine airing i c pending hc g k' hg ?_
        have heq : Race.feed { s with readers := feed.readers, delivered := feed.delivered } pending
            = feed := by
          rw [Race.feed]
          dsimp only
          rw [show s.buffer = feed.buffer from hbuffer.symm,
            show pending = feed.pending from hpending.symm]
        rw [heq]
        exact hfeed'

/-! ## Whole races -/

/-- All there is to know of a race on a fresh buffer. -/
structure Together (handles : HandleRef → BunHandle) (buf : BunBuffer h) (s : Race h) : Prop where
  contest : Contest handles s
  ops : ∀ c ∈ s.contenders, ∀ op ∈ c.caller.ops, op.WellFormed h
  broadcast : Broadcast buf s

theorem together_step (ht : Together handles buf s) {data : CObject h}
    (hbuf : bunBufferInit data = some buf) (e : RaceEvent) :
    ∃ s', s.step handles e = some s' ∧ Together handles buf s' := by
  cases e with
  | caller i =>
      cases hd : s.contenders[i]? with
      | none => exact ⟨s, by rw [Race.step, hd], ht⟩
      | some d =>
          obtain ⟨p, b, haccess, hnext⟩ := ht.contest.access hd
          refine ⟨_, by rw [Race.step, hd]; dsimp only; rw [haccess]; rfl, hnext, ?_, ?_⟩
          · exact Places.forall_move ht.ops (ht.ops d (Places.mem hd))
          · exact ht.broadcast.access ht.contest hbuf ht.ops hd haccess hnext
  | readerInit i handle =>
      obtain ⟨s', hstep, hcontenders, hbuffer, hb⟩ :=
        ht.broadcast.watch hbuf (FeedEvent.noConfusion : FeedEvent.readerInit i handle ≠ .store)
      exact ⟨s', hstep, ht.contest.congr hcontenders hbuffer, by rw [hcontenders]; exact ht.ops, hb⟩
  | frameRead i frame =>
      obtain ⟨s', hstep, hcontenders, hbuffer, hb⟩ :=
        ht.broadcast.watch hbuf (FeedEvent.noConfusion : FeedEvent.frameRead i frame ≠ .store)
      exact ⟨s', hstep, ht.contest.congr hcontenders hbuffer, by rw [hcontenders]; exact ht.ops, hb⟩

theorem together_run (ht : Together handles buf s) {data : CObject h}
    (hbuf : bunBufferInit data = some buf) (events : List RaceEvent) :
    ∃ s', s.run handles events = some s' ∧ Together handles buf s' := by
  induction events generalizing s with
  | nil => exact ⟨s, rfl, ht⟩
  | cons e events ih =>
      obtain ⟨next, hstep, hnext⟩ := together_step ht hbuf e
      obtain ⟨s', hrun, ht'⟩ := ih hnext
      refine ⟨s', ?_, ht'⟩
      rw [Race.run, List.foldlM_cons, hstep]
      exact hrun

/-- A caller that is inside has made all its stores but those that are pending. -/
theorem Together.stored (ht : Together handles buf s) {data : CObject h}
    (hbuf : bunBufferInit data = some buf) {c : Caller} {pending : List ByteStore}
    (hc : ⟨c, .inside pending⟩ ∈ s.contenders) :
    s.buffer.payload = Region.replay buf.payload
        ((c.stores buf).take ((c.stores buf).length - pending.length))
      ∧ ∀ r, s.delivered r <+: (committedBefore h (c.session buf) c.ops pending).map
        (BunFrame.content h) := by
  have hops : ∀ op ∈ c.ops, op.WellFormed h := ht.ops _ hc
  obtain ⟨i, hi⟩ := List.mem_iff_getElem?.mp hc
  have hstores := Caller.stores_eq hbuf hops
  have hsame : ∀ {j : Nat} {d : Caller} {q : List ByteStore},
      s.contenders[j]? = some ⟨d, .inside q⟩ → c = d ∧ pending = q := by
    intro j d q hj
    obtain rfl : i = j :=
      Places.eq_of_countP_le_one ht.contest.sessions_le_one hi hj rfl rfl
    injection Option.some.inj (hi.symm.trans hj) with hcaller hpoint
    injection hpoint with hpending
    exact ⟨hcaller, hpending⟩
  cases ht.broadcast with
  | quiet hnone _ => exact absurd (Broadcast.sessions_pos hi) (by omega)
  | opened j d hd hquiet =>
      obtain ⟨rfl, rfl⟩ := hsame hd
      refine ⟨?_, fun r => ?_⟩
      · rw [Nat.sub_self, List.take_zero]
        exact hquiet.payload
      · rw [hquiet.delivered r]
        exact List.nil_prefix
  | airing j d q hd g k hg hfeed =>
      obtain ⟨rfl, rfl⟩ := hsame hd
      have hpending : pending.length = (c.rest buf).length - k := by
        rw [show pending = (c.rest buf).drop k from hfeed.pending, List.length_drop]
      have hle := hfeed.le
      refine ⟨?_, fun r => ?_⟩
      · have hmade : (c.stores buf).length - pending.length = k + 1 := by
          rw [hstores, List.length_cons]
          omega
        rw [hmade, hstores, List.take_succ_cons]
        exact hfeed.payload
      · have hmade : (storesFrom h (c.session buf) c.ops).length - pending.length = k - 5 := by
          rw [hpending, Caller.rest, List.length_append]
          rw [Caller.rest, List.length_append] at hle
          have hfive : ((openingFields c.arch c.tid).map fieldStore).length = 5 := rfl
          omega
        rw [committedBefore, hmade]
        exact (hfeed.delivered_prefix r).trans (hg k)

/-- Where nobody is let in, nothing has happened to the payload. -/
theorem Together.untouched (ht : Together handles buf s) (hnone : s.sessions = 0) :
    s.buffer.payload = buf.payload ∧ ∀ r, s.delivered r = [] := by
  cases ht.broadcast with
  | quiet _ hquiet => exact ⟨hquiet.payload, hquiet.delivered⟩
  | opened i c hc _ => exact absurd (Broadcast.sessions_pos hc) (by omega)
  | airing i c pending hc => exact absurd (Broadcast.sessions_pos hc) (by omega)

end Broadcast

/--
**One session comes out of a race.** Any number of callers, up to `2 ^ 31`, call
`bun_writer_init` on a fresh buffer, each with a handle that has
`BUN_HANDLE_WRITE_ONCE`; their accesses to the buffer, and the calls of any number of
readers, fall between one another in any order. Nothing outside the payload is read and
no `NULL` is looked through. At most one caller is let in; one is, once every caller has
had six turns. The payload is at any moment what the one that was let in has stored so
far, and readers are given, in order, the first of the frames it has committed.
-/
theorem race_delivers {data : CObject h} {buf : BunBuffer h} (hbuf : bunBufferInit data = some buf)
    {handles : HandleRef → BunHandle} {callers : List Caller}
    (honce : ∀ c ∈ callers, c.Once handles)
    (hops : ∀ c ∈ callers, ∀ op ∈ c.ops, op.WellFormed h) (hfew : callers.length ≤ 2 ^ 31)
    (events : List RaceEvent) :
    ∃ s, (Race.start buf callers).run handles events = some s
      ∧ s.sessions ≤ 1
      ∧ (callers ≠ [] → (∀ i < callers.length, 6 ≤ events.countP (·.isBy i)) → s.sessions = 1)
      ∧ (s.sessions = 0 → s.buffer.payload = buf.payload ∧ ∀ r, s.delivered r = [])
      ∧ ∀ c pending, ⟨c, .inside pending⟩ ∈ s.contenders →
        s.buffer.payload = Region.replay buf.payload
          ((c.stores buf).take ((c.stores buf).length - pending.length))
        ∧ ∀ r, s.delivered r <+: (committedBefore h (c.session buf) c.ops pending).map
          (BunFrame.content h) := by
  have hstart : Broadcast.Together handles buf (Race.start buf callers) := by
    refine ⟨Contest.start hbuf honce hfew, fun c hc => ?_, Broadcast.start buf callers⟩
    obtain ⟨caller, hcaller, rfl⟩ := List.mem_map.mp hc
    exact hops caller hcaller
  obtain ⟨s, hrun, ht⟩ := Broadcast.together_run hstart hbuf events
  refine ⟨s, hrun, ht.contest.sessions_le_one, fun hany hturns => ?_, ht.untouched,
    fun c pending hc => ht.stored hbuf hc⟩
  -- everybody is through
  have hat : ∀ i (hi : i < callers.length),
      (Race.start buf callers).contenders[i]? = some ⟨callers[i], .size⟩ := by
    intro i hi
    rw [Race.start, List.getElem?_map, List.getElem?_eq_getElem hi]
    rfl
  have hlength : s.contenders.length = callers.length := by
    have hcallers := Race.length_run hrun
    rw [hcallers, Race.start, List.length_map]
  refine ht.contest.sessions_eq_one ?_ fun c hc => ?_
  · intro hnil
    rw [hnil] at hlength
    exact hany (List.eq_nil_of_length_eq_zero hlength.symm)
  · obtain ⟨i, hi⟩ := List.mem_iff_getElem?.mp hc
    have hlt : i < callers.length := hlength ▸ Places.lt_length hi
    obtain ⟨p, hp, hleft⟩ := Race.left_run hrun (hat i hlt)
    obtain rfl := Option.some.inj (hi.symm.trans hp)
    refine InitPoint.isDone_of_left ?_
    have hsix := hturns i hlt
    have hsize : InitPoint.size.left = 6 := rfl
    dsimp only at hleft ⊢
    omega

/-- Two callers take turns, and a reader looks in. -/
theorem race_delivers_two :
    ∃ (buf : BunBuffer ⟨.w64, .little⟩) (s : Race ⟨.w64, .little⟩),
      bunBufferInit (zeroedObject ⟨.w64, .little⟩ 100 (by decide)) = some buf
      ∧ (Race.start buf [⟨7, .x86_64, some 5, [.frameWrite BunFrame.zero]⟩,
          ⟨8, .x86_64, some 6, []⟩]).run (fun _ => ⟨1⟩)
          ((List.replicate 6 [.caller 0, .caller 1, .readerInit 0 none]).flatten) = some s
      ∧ s.sessions = 1 := by
  obtain ⟨buf, hbuf⟩ : ∃ buf,
      bunBufferInit (zeroedObject ⟨.w64, .little⟩ 100 (by decide)) = some buf := ⟨_, rfl⟩
  have hcallers : ∀ c ∈ ([⟨7, .x86_64, some 5, [.frameWrite BunFrame.zero]⟩,
      ⟨8, .x86_64, some 6, []⟩] : List Caller),
      c.Once (fun _ => ⟨1⟩) ∧ ∀ op ∈ c.ops, op.WellFormed ⟨.w64, .little⟩ := by
    intro c hc
    simp only [List.mem_cons, List.not_mem_nil, or_false] at hc
    rcases hc with rfl | rfl
    · refine ⟨⟨5, rfl, (by decide : (1 : UInt64) &&& bunHandleWriteOnce ≠ 0)⟩, fun op hop => ?_⟩
      rw [List.mem_singleton.mp hop]
      exact BunFrame.zero_wellFormed _
    · refine ⟨⟨6, rfl, (by decide : (1 : UInt64) &&& bunHandleWriteOnce ≠ 0)⟩, fun op hop => ?_⟩
      exact absurd hop (List.not_mem_nil)
  obtain ⟨s, hrun, _, hone, _⟩ := race_delivers hbuf (fun c hc => (hcallers c hc).1)
    (fun c hc => (hcallers c hc).2) (by decide)
    ((List.replicate 6 [.caller 0, .caller 1, .readerInit 0 none]).flatten)
  refine ⟨buf, s, hbuf, hrun, hone (by simp) fun i hi => ?_⟩
  have hcases : i = 0 ∨ i = 1 := by
    simp only [List.length_cons, List.length_nil] at hi
    omega
  rcases hcases with rfl | rfl <;> decide

end LibBun
