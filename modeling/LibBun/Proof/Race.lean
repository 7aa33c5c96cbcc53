import LibBun.Lib.Places
import LibBun.Proof.WriteOnce
import LibBun.Race

/-!
# Who is let in

`bun_writer_init` looks at the bound handle up to four times, and another caller may
store it in between. With `BUN_HANDLE_WRITE_ONCE` on every handle this does no harm. The
handle, once stored, is never `NULL` again, and whichever it is it has the flag. So
whoever gets past the comparison gets to the `atomic_fetch_add`, and the first there is
let in.

`Contest` says this as an invariant of single accesses. It counts: the counter is the
number of callers that are past it, and one of them, if there are any, is inside.
-/

namespace LibBun

variable {h : Host} {handles : HandleRef → BunHandle} {s : Race h}

/-- The handle has `BUN_HANDLE_WRITE_ONCE` set. -/
def OnceFlag (handles : HandleRef → BunHandle) (r : HandleRef) : Prop :=
  (handles r).flags &&& bunHandleWriteOnce ≠ 0

/-- The caller passes a handle that has the flag. -/
def Caller.Once (handles : HandleRef → BunHandle) (c : Caller) : Prop :=
  ∃ r, c.handle = some r ∧ OnceFlag handles r

namespace InitPoint

/-- The caller is let in. -/
def isInside : InitPoint → Bool
  | inside _ => true
  | _ => false

/-- The attempt has been counted. -/
def isCounted : InitPoint → Bool
  | inside _ => true
  | countedOut => true
  | _ => false

/-- The caller is through with `bun_writer_init`. -/
def isDone : InitPoint → Bool
  | inside _ => true
  | turnedAway => true
  | countedOut => true
  | _ => false

/-- A caller can be here while no handle is bound. -/
def isEarly : InitPoint → Bool
  | size => true
  | bound => true
  | bind => true
  | _ => false

/-- The caller is past the comparison, and will not be turned away uncounted. -/
def isAdmissible : InitPoint → Bool
  | rebound => true
  | flags => true
  | count => true
  | inside _ => true
  | countedOut => true
  | _ => false

end InitPoint

/-- The number of callers that are let in. -/
def Race.sessions (s : Race h) : Nat := s.contenders.countP (·.point.isInside)

/-- The number of attempts that were counted. -/
def Race.counted (s : Race h) : Nat := s.contenders.countP (·.point.isCounted)

/-- How many callers are at a point of some kind, when one of them has gone on. -/
theorem countP_point {i : Nat} {c : Contender} (hc : s.contenders[i]? = some c) (p : InitPoint)
    (q : InitPoint → Bool) :
    (s.contenders.set i { c with point := p }).countP (fun c => q c.point)
        + (if q c.point = true then 1 else 0)
      = s.contenders.countP (fun c => q c.point) + (if q p = true then 1 else 0) :=
  Places.countP_move hc { c with point := p } fun c => q c.point

/-- It is as many as before if one kind of point was exchanged for the same kind. -/
theorem countP_point_same {i : Nat} {c : Contender} (hc : s.contenders[i]? = some c)
    {p : InitPoint} {q : InitPoint → Bool} (hq : q p = q c.point) :
    (s.contenders.set i { c with point := p }).countP (fun c => q c.point)
      = s.contenders.countP (fun c => q c.point) := by
  have hmove := countP_point hc p q
  rw [hq] at hmove
  exact Nat.add_right_cancel hmove

/-- **What an event can do**: one caller goes on, or the callers and the buffer stay. -/
theorem Race.step_cases {e : RaceEvent} {s' : Race h} (hstep : s.step handles e = some s') :
    (∃ i c p b, e = .caller i ∧ s.contenders[i]? = some c
      ∧ c.caller.access handles s.buffer c.point = some (p, b)
      ∧ s' = { s with buffer := b, contenders := s.contenders.set i { c with point := p } }) ∨
    ((∀ i c, s.contenders[i]? = some c → e.isBy i = false)
      ∧ s'.contenders = s.contenders ∧ s'.buffer = s.buffer) := by
  have hwatch : ∀ {e : FeedEvent}, s.watch e = some s' →
      s'.contenders = s.contenders ∧ s'.buffer = s.buffer := by
    intro e he
    obtain ⟨feed, _, heq⟩ := Option.bind_eq_some_iff.mp he
    obtain rfl := Option.some.inj heq
    exact ⟨rfl, rfl⟩
  cases e with
  | caller i =>
      rw [Race.step] at hstep
      cases hc : s.contenders[i]? with
      | none =>
          rw [hc] at hstep
          obtain rfl := Option.some.inj hstep
          refine Or.inr ⟨fun j c hj => beq_eq_false_iff_ne.mpr fun hji => ?_, rfl, rfl⟩
          rw [hji, hc] at hj
          exact absurd hj (by simp)
      | some c =>
          rw [hc] at hstep
          obtain ⟨⟨p, b⟩, haccess, heq⟩ := Option.bind_eq_some_iff.mp hstep
          exact Or.inl ⟨i, c, p, b, rfl, hc, haccess, (Option.some.inj heq).symm⟩
  | readerInit i handle => exact Or.inr ⟨fun _ _ _ => rfl, hwatch hstep⟩
  | frameRead i frame => exact Or.inr ⟨fun _ _ _ => rfl, hwatch hstep⟩

/-! ## The invariant -/

/-- The race so far, when every caller passes a handle with the flag. -/
structure Contest (handles : HandleRef → BunHandle) (s : Race h) : Prop where
  room : bunBufferPayloadHeaderSize ≤ s.buffer.size
  once : ∀ c ∈ s.contenders, c.caller.Once handles
  few : s.contenders.length ≤ 2 ^ 31
  flagged : ∀ r, s.buffer.handle = some r → OnceFlag handles r
  /-- Before a handle is bound nobody has got far, and somebody will after. -/
  early : s.buffer.handle = none → ∀ c ∈ s.contenders, c.point.isEarly = true
  admissible : s.buffer.handle ≠ none → ∃ c ∈ s.contenders, c.point.isAdmissible = true
  count : s.buffer.writeCount = UInt32.ofNat s.counted
  /-- The first to be counted is let in, and nobody else. -/
  first : s.sessions = min 1 s.counted

namespace Contest

variable {i : Nat} {c : Contender} {p : InitPoint}

theorem start {data : CObject h} {buf : BunBuffer h} (hbuf : bunBufferInit data = some buf)
    {callers : List Caller} (honce : ∀ c ∈ callers, c.Once handles)
    (hfew : callers.length ≤ 2 ^ 31) : Contest handles (Race.start buf callers) := by
  obtain ⟨_, _, hcount, hhandle, _⟩ := bunBufferInit_eq_some hbuf
  have hmem : ∀ c ∈ (Race.start buf callers).contenders, c.caller ∈ callers ∧ c.point = .size := by
    intro c hc
    obtain ⟨caller, hcaller, rfl⟩ := List.mem_map.mp hc
    exact ⟨hcaller, rfl⟩
  have hnobody : ∀ q : InitPoint → Bool, q .size = false →
      (Race.start buf callers).contenders.countP (fun c => q c.point) = 0 := by
    intro q hq
    refine List.countP_eq_zero.mpr fun c hc => ?_
    rw [(hmem c hc).2, hq]
    exact Bool.false_ne_true
  have hzero : (Race.start buf callers).counted = 0 := hnobody _ rfl
  refine ⟨bunBufferInit_size hbuf, fun c hc => honce _ (hmem c hc).1, ?_, ?_, ?_, ?_, ?_, ?_⟩
  · rw [Race.start, List.length_map]
    exact hfew
  · intro r hr
    exact absurd (hhandle.symm.trans hr) (by simp)
  · intro _ c hc
    rw [(hmem c hc).2]
    rfl
  · intro hne
    exact absurd hhandle hne
  · rw [hzero]
    exact hcount
  · rw [hzero]
    exact hnobody _ rfl

/-- A step that neither counts nor binds moves one caller. -/
theorem move (hs : Contest handles s) (hc : s.contenders[i]? = some c) {buffer : BunBuffer h}
    (hsize : buffer.size = s.buffer.size) (hhandle : buffer.handle = s.buffer.handle)
    (hcount : buffer.writeCount = s.buffer.writeCount)
    (hearly : s.buffer.handle = none → p.isEarly = true)
    (hadm : c.point.isAdmissible = true → p.isAdmissible = true)
    (hcounted : p.isCounted = c.point.isCounted) (hinside : p.isInside = c.point.isInside) :
    Contest handles { s with
      buffer := buffer, contenders := s.contenders.set i { c with point := p } } := by
  have hcounts : Race.counted (h := h) { s with
      buffer := buffer, contenders := s.contenders.set i { c with point := p } } = s.counted :=
    countP_point_same hc hcounted
  refine ⟨hsize ▸ hs.room, ?_, ?_, ?_, ?_, ?_, ?_, ?_⟩
  · exact Places.forall_move hs.once (hs.once c (Places.mem hc))
  · rw [List.length_set]
    exact hs.few
  · rw [hhandle]
    exact hs.flagged
  · rw [hhandle]
    intro hnone
    exact Places.forall_move (hs.early hnone) (hearly hnone)
  · rw [hhandle]
    intro hne
    exact Places.exists_move hc (hs.admissible hne) hadm
  · rw [hcounts]
    exact hcount.trans hs.count
  · rw [hcounts]
    exact (countP_point_same hc hinside).trans hs.first

/-- The store of a handle. -/
theorem bind (hs : Contest handles s) (hc : s.contenders[i]? = some c) (hpoint : c.point = .bind) :
    Contest handles { s with
      buffer := { s.buffer with handle := c.caller.handle }
      contenders := s.contenders.set i { c with point := .rebound } } := by
  obtain ⟨r, hr, hflag⟩ := hs.once c (Places.mem hc)
  have hcounts : Race.counted (h := h) { s with
      buffer := { s.buffer with handle := c.caller.handle }
      contenders := s.contenders.set i { c with point := .rebound } } = s.counted :=
    countP_point_same hc (by rw [hpoint]; rfl)
  refine ⟨hs.room, ?_, ?_, ?_, ?_, ?_, ?_, ?_⟩
  · exact Places.forall_move hs.once (hs.once c (Places.mem hc))
  · rw [List.length_set]
    exact hs.few
  · intro r' hr'
    obtain rfl : r = r' := Option.some.inj (hr.symm.trans hr')
    exact hflag
  · intro hnone
    exact absurd (hr.symm.trans hnone) (by simp)
  · intro _
    exact ⟨_, Places.mem_move hc _, rfl⟩
  · rw [hcounts]
    exact hs.count
  · rw [hcounts]
    exact (countP_point_same hc (by rw [hpoint]; rfl)).trans hs.first

/-- The number a caller finds in the counter is that of the callers before it. -/
theorem lastAttempt_eq (hs : Contest handles s) (hc : s.contenders[i]? = some c)
    (hpoint : c.point.isCounted = false) :
    Int.bmod s.buffer.writeCount.toNat (2 ^ 32) = s.counted := by
  have hlt : s.counted < s.contenders.length := Places.countP_lt hc hpoint
  rw [hs.count]
  exact lastAttempt_of_lt (Nat.lt_of_lt_of_le hlt hs.few)

/-- The counter goes up, and whoever found it at zero is let in. -/
theorem counts (hs : Contest handles s) (hc : s.contenders[i]? = some c)
    (hpoint : c.point = .count) (hp : p.isCounted = true) (hadm : p.isAdmissible = true)
    (hin : p.isInside = decide (s.counted = 0)) :
    Contest handles { s with
      buffer := { s.buffer with writeCount := s.buffer.writeCount + 1 }
      contenders := s.contenders.set i { c with point := p } } := by
  have hcounts : Race.counted (h := h) { s with
      buffer := { s.buffer with writeCount := s.buffer.writeCount + 1 }
      contenders := s.contenders.set i { c with point := p } } = s.counted + 1 := by
    have hmove := countP_point hc p InitPoint.isCounted
    rw [hpoint, hp] at hmove
    exact hmove
  have hsessions : Race.sessions (h := h) { s with
      buffer := { s.buffer with writeCount := s.buffer.writeCount + 1 }
      contenders := s.contenders.set i { c with point := p } }
        = s.sessions + if s.counted = 0 then 1 else 0 := by
    have hmove := countP_point hc p InitPoint.isInside
    rw [hpoint, hin] at hmove
    simp only [decide_eq_true_eq] at hmove
    exact hmove
  have hbound : s.buffer.handle ≠ none := fun hnone => by
    have hearly := hs.early hnone c (Places.mem hc)
    rw [hpoint] at hearly
    exact Bool.noConfusion hearly
  refine ⟨hs.room, ?_, ?_, hs.flagged, ?_, ?_, ?_, ?_⟩
  · exact Places.forall_move hs.once (hs.once c (Places.mem hc))
  · rw [List.length_set]
    exact hs.few
  · intro hnone
    exact absurd hnone hbound
  · intro _
    exact ⟨_, Places.mem_move hc _, hadm⟩
  · rw [hcounts, UInt32.ofNat_add, ← hs.count]
    rfl
  · rw [hcounts, hsessions, hs.first]
    split <;> omega

/-- **One access**: nobody looks through `NULL`, and the invariant is kept. -/
theorem access (hs : Contest handles s) (hc : s.contenders[i]? = some c) :
    ∃ p buffer, c.caller.access handles s.buffer c.point = some (p, buffer)
      ∧ Contest handles { s with
        buffer := buffer, contenders := s.contenders.set i { c with point := p } } := by
  have hsize : ¬s.buffer.size < headerSize :=
    Nat.not_lt.mpr (headerSize_le_payloadHeaderSize.trans hs.room)
  obtain ⟨r, hr, hflag⟩ := hs.once c (Places.mem hc)
  have hgiven : c.caller.handle ≠ none := by rw [hr]; simp
  -- somewhere a handle is bound
  have hbound : c.point.isEarly = false → s.buffer.handle ≠ none := by
    intro hlate hnone
    rw [hs.early hnone c (Places.mem hc)] at hlate
    exact Bool.noConfusion hlate
  cases hpoint : c.point with
  | size =>
      refine ⟨.bound, s.buffer, by rw [Caller.access, if_neg hsize], ?_⟩
      exact hs.move hc rfl rfl rfl (fun _ => rfl) (fun hno => by rw [hpoint] at hno; exact hno)
        (by rw [hpoint]; rfl) (by rw [hpoint]; rfl)
  | bound =>
      by_cases hnone : s.buffer.handle = none
      · refine ⟨.bind, s.buffer, ?_, ?_⟩
        · rw [Caller.access, if_neg (not_not.mpr hnone), if_pos hgiven]
        · exact hs.move hc rfl rfl rfl (fun _ => rfl)
            (fun hno => by rw [hpoint] at hno; exact hno) (by rw [hpoint]; rfl)
            (by rw [hpoint]; rfl)
      · refine ⟨.compare, s.buffer, ?_, ?_⟩
        · rw [Caller.access, if_pos hnone, if_pos hgiven]
        · exact hs.move hc rfl rfl rfl (fun hno => absurd hno hnone)
            (fun hno => by rw [hpoint] at hno; exact Bool.noConfusion hno) (by rw [hpoint]; rfl)
            (by rw [hpoint]; rfl)
  | compare =>
      have hne := hbound (by rw [hpoint]; rfl)
      refine ⟨_, s.buffer, rfl, ?_⟩
      split
      · exact hs.move hc rfl rfl rfl (fun hno => absurd hno hne)
          (fun hno => by rw [hpoint] at hno; exact Bool.noConfusion hno) (by rw [hpoint]; rfl)
          (by rw [hpoint]; rfl)
      · exact hs.move hc rfl rfl rfl (fun hno => absurd hno hne) (fun _ => rfl)
          (by rw [hpoint]; rfl) (by rw [hpoint]; rfl)
  | bind => exact ⟨_, _, rfl, hs.bind hc hpoint⟩
  | rebound =>
      have hne := hbound (by rw [hpoint]; rfl)
      refine ⟨.flags, s.buffer, by rw [Caller.access, if_pos hne], ?_⟩
      exact hs.move hc rfl rfl rfl (fun hno => absurd hno hne) (fun _ => rfl)
        (by rw [hpoint]; rfl) (by rw [hpoint]; rfl)
  | flags =>
      have hne := hbound (by rw [hpoint]; rfl)
      obtain ⟨r', hr'⟩ := Option.ne_none_iff_exists'.mp hne
      have honce : (handles r').flags &&& bunHandleWriteOnce ≠ 0 := hs.flagged r' hr'
      refine ⟨.count, s.buffer, by rw [Caller.access, hr']; exact if_pos honce, ?_⟩
      exact hs.move hc rfl rfl rfl (fun hno => absurd hno hne) (fun _ => rfl)
        (by rw [hpoint]; rfl) (by rw [hpoint]; rfl)
  | count =>
      have hlast := hs.lastAttempt_eq hc (by rw [hpoint]; rfl)
      refine ⟨_, _, rfl, ?_⟩
      rw [hlast]
      split
      · rename_i hpos
        refine hs.counts hc hpoint rfl rfl (decide_eq_false ?_).symm
        omega
      · rename_i hpos
        refine hs.counts hc hpoint rfl rfl (decide_eq_true ?_).symm
        omega
  | inside pending =>
      have hne := hbound (by rw [hpoint]; rfl)
      cases pending with
      | nil =>
          refine ⟨_, _, rfl, ?_⟩
          exact hs.move hc rfl rfl rfl (fun hno => absurd hno hne) (fun _ => rfl)
            (by rw [hpoint]) (by rw [hpoint])
      | cons st pending =>
          refine ⟨_, _, rfl, ?_⟩
          exact hs.move hc rfl rfl rfl (fun hno => absurd hno hne) (fun _ => rfl)
            (by rw [hpoint]; rfl) (by rw [hpoint]; rfl)
  | turnedAway =>
      have hne := hbound (by rw [hpoint]; rfl)
      refine ⟨_, _, rfl, ?_⟩
      exact hs.move hc rfl rfl rfl (fun hno => absurd hno hne)
        (fun hno => by rw [hpoint] at hno; exact hno) (by rw [hpoint]) (by rw [hpoint])
  | countedOut =>
      have hne := hbound (by rw [hpoint]; rfl)
      refine ⟨_, _, rfl, ?_⟩
      exact hs.move hc rfl rfl rfl (fun hno => absurd hno hne) (fun _ => rfl)
        (by rw [hpoint]) (by rw [hpoint])

/-! ## What the invariant says of the outcome -/

theorem sessions_le_one (hs : Contest handles s) : s.sessions ≤ 1 := by
  rw [hs.first]
  exact Nat.min_le_left 1 _

/-- When everybody is through, somebody was let in. -/
theorem sessions_eq_one (hs : Contest handles s) (hany : s.contenders ≠ [])
    (hdone : ∀ c ∈ s.contenders, c.point.isDone = true) : s.sessions = 1 := by
  have hbound : s.buffer.handle ≠ none := by
    intro hnone
    obtain ⟨c, hc⟩ := List.exists_mem_of_ne_nil _ hany
    have hearly := hs.early hnone c hc
    have hthrough := hdone c hc
    cases hp : c.point <;> rw [hp] at hearly hthrough <;>
      first | exact Bool.noConfusion hearly | exact Bool.noConfusion hthrough
  obtain ⟨c, hc, hadm⟩ := hs.admissible hbound
  have hcounted : c.point.isCounted = true := by
    have hthrough := hdone c hc
    cases hp : c.point <;> rw [hp] at hadm hthrough <;>
      first | rfl | exact Bool.noConfusion hadm | exact Bool.noConfusion hthrough
  have hpos : 0 < s.counted := List.countP_pos_iff.mpr ⟨c, hc, hcounted⟩
  rw [hs.first]
  omega

/-! ## Whole races -/

/-- Only the callers and the buffer matter. -/
theorem congr (hs : Contest handles s) {s' : Race h} (hcontenders : s'.contenders = s.contenders)
    (hbuffer : s'.buffer = s.buffer) : Contest handles s' := by
  obtain ⟨buffer, contenders, readers, delivered⟩ := s'
  obtain rfl : contenders = s.contenders := hcontenders
  obtain rfl : buffer = s.buffer := hbuffer
  exact ⟨hs.room, hs.once, hs.few, hs.flagged, hs.early, hs.admissible, hs.count, hs.first⟩

theorem step (hs : Contest handles s) {e : RaceEvent} {s' : Race h}
    (hstep : s.step handles e = some s') : Contest handles s' := by
  rcases Race.step_cases hstep with ⟨i, c, p, b, _, hc, haccess, rfl⟩ |
    ⟨_, hcontenders, hbuffer⟩
  · obtain ⟨p', b', haccess', hnext⟩ := hs.access hc
    rw [haccess] at haccess'
    obtain ⟨rfl, rfl⟩ := Prod.mk.inj (Option.some.inj haccess')
    exact hnext
  · exact hs.congr hcontenders hbuffer

theorem run (hs : Contest handles s) {events : List RaceEvent} {s' : Race h}
    (hrun : s.run handles events = some s') : Contest handles s' := by
  induction events generalizing s with
  | nil =>
      obtain rfl := Option.some.inj hrun
      exact hs
  | cons e events ih =>
      rw [Race.run, List.foldlM_cons] at hrun
      obtain ⟨next, hstep, hrest⟩ := Option.bind_eq_some_iff.mp hrun
      exact ih (hs.step hstep) hrest

end Contest

/-! ## No caller waits for another -/

/-- The number of accesses that are at most left to a caller. -/
def InitPoint.left : InitPoint → Nat
  | size => 6
  | bound => 5
  | compare => 4
  | bind => 4
  | rebound => 3
  | flags => 2
  | count => 1
  | inside _ => 0
  | turnedAway => 0
  | countedOut => 0

theorem InitPoint.isDone_of_left {p : InitPoint} (hp : p.left = 0) : p.isDone = true := by
  cases p <;> first | rfl | exact absurd hp (by decide)

/-- Whatever it finds, a caller has one access less to make. -/
theorem Caller.access_left {c : Caller} {b b' : BunBuffer h} {p p' : InitPoint}
    (haccess : c.access handles b p = some (p', b')) : p'.left ≤ p.left - 1 := by
  have hend : ∀ {q : InitPoint} {buffer : BunBuffer h},
      some (q, buffer) = some (p', b') → p' = q := by
    intro q buffer heq
    exact (Prod.mk.inj (Option.some.inj heq)).1.symm
  cases p with
  | size =>
      rw [hend haccess]
      split <;> decide
  | bound =>
      rw [access] at haccess
      split at haccess <;> rw [hend haccess] <;> split <;> decide
  | compare =>
      rw [hend haccess]
      split <;> decide
  | bind =>
      rw [hend haccess]
      decide
  | rebound =>
      rw [hend haccess]
      split
      · decide
      · exact Nat.zero_le _
  | flags =>
      rw [access] at haccess
      split at haccess
      · exact absurd haccess (by simp)
      · split at haccess <;> rw [hend haccess]
        · decide
        · exact Nat.zero_le _
  | count =>
      rw [hend haccess]
      split <;> exact Nat.zero_le _
  | inside pending => cases pending <;> rw [hend haccess] <;> exact Nat.zero_le _
  | turnedAway =>
      rw [hend haccess]
      exact Nat.zero_le _
  | countedOut =>
      rw [hend haccess]
      exact Nat.zero_le _

theorem Race.left_step {e : RaceEvent} {s' : Race h} (hstep : s.step handles e = some s')
    {i : Nat} {c : Contender} (hc : s.contenders[i]? = some c) :
    ∃ p, s'.contenders[i]? = some { c with point := p }
      ∧ p.left ≤ c.point.left - if e.isBy i = true then 1 else 0 := by
  -- it makes no access itself
  have hother : e.isBy i = false →
      c.point.left ≤ c.point.left - if e.isBy i = true then 1 else 0 := by
    intro he
    rw [if_neg (by rw [he]; exact Bool.false_ne_true)]
    exact Nat.le_refl _
  rcases Race.step_cases hstep with ⟨j, d, p, b, rfl, hd, haccess, rfl⟩ |
    ⟨hby, hcontenders, _⟩
  · by_cases hij : i = j
    · subst hij
      obtain rfl : c = d := Option.some.inj (hc.symm.trans hd)
      refine ⟨p, List.getElem?_set_self (Places.lt_length hc), ?_⟩
      rw [if_pos (show RaceEvent.isBy i (.caller i) = true from beq_self_eq_true i)]
      exact Caller.access_left haccess
    · exact ⟨c.point, (List.getElem?_set_ne (Ne.symm hij)).trans hc,
        hother (beq_eq_false_iff_ne.mpr hij)⟩
  · exact ⟨c.point, by rw [hcontenders]; exact hc, hother (hby i c hc)⟩

/-- **After six turns a caller is through**, whatever the others do or leave undone. -/
theorem Race.left_run {events : List RaceEvent} {s' : Race h}
    (hrun : s.run handles events = some s') {i : Nat} {c : Contender}
    (hc : s.contenders[i]? = some c) :
    ∃ p, s'.contenders[i]? = some { c with point := p }
      ∧ p.left ≤ c.point.left - events.countP (·.isBy i) := by
  induction events generalizing s c with
  | nil =>
      obtain rfl := Option.some.inj hrun
      exact ⟨c.point, hc, Nat.le_refl _⟩
  | cons e events ih =>
      rw [Race.run, List.foldlM_cons] at hrun
      obtain ⟨next, hstep, hrest⟩ := Option.bind_eq_some_iff.mp hrun
      obtain ⟨p, hp, hleft⟩ := Race.left_step hstep hc
      obtain ⟨p', hp', hleft'⟩ := ih hrest hp
      refine ⟨p', hp', hleft'.trans ?_⟩
      dsimp only
      rw [List.countP_cons]
      omega

/-- Nobody comes or goes. -/
theorem Race.length_run {events : List RaceEvent} {s' : Race h}
    (hrun : s.run handles events = some s') : s'.contenders.length = s.contenders.length := by
  induction events generalizing s with
  | nil =>
      obtain rfl := Option.some.inj hrun
      rfl
  | cons e events ih =>
      rw [Race.run, List.foldlM_cons] at hrun
      obtain ⟨next, hstep, hrest⟩ := Option.bind_eq_some_iff.mp hrun
      refine (ih hrest).trans ?_
      rcases Race.step_cases hstep with ⟨i, c, p, b, _, _, _, rfl⟩ | ⟨_, hcontenders, _⟩
      · exact List.length_set
      · rw [hcontenders]

/-! ## Two callers that are both let in

Without the flag on every handle there is a race that lets two callers in. A caller that
passes `NULL` need only be first. One that passes a handle without the flag must have
found no handle bound, as the other caller did, and store its own when the other is
through. -/

/-- There is a race that leads from the one state to the other. -/
def Race.Reaches (handles : HandleRef → BunHandle) (s s' : Race h) : Prop :=
  ∃ events, s.run handles events = some s'

theorem Race.Reaches.trans {s₁ s₂ s₃ : Race h} (h₁ : Race.Reaches handles s₁ s₂)
    (h₂ : Race.Reaches handles s₂ s₃) : Race.Reaches handles s₁ s₃ := by
  obtain ⟨es₁, hrun₁⟩ := h₁
  obtain ⟨es₂, hrun₂⟩ := h₂
  refine ⟨es₁ ++ es₂, ?_⟩
  rw [Race.run, List.foldlM_append]
  exact Option.bind_eq_some_iff.mpr ⟨s₂, hrun₁, hrun₂⟩

/-- Two of the callers, where they are, and the buffer they find. -/
structure Duel (s : Race h) (b : BunBuffer h) (i j : Nat) (ci cj : Caller) (pi pj : InitPoint) :
    Prop where
  buffer : s.buffer = b
  left : s.contenders[i]? = some ⟨ci, pi⟩
  right : s.contenders[j]? = some ⟨cj, pj⟩

namespace Duel

variable {b b' : BunBuffer h} {i j : Nat} {ci cj : Caller} {pi pi' pj : InitPoint} {r : HandleRef}

theorem symm (hd : Duel s b i j ci cj pi pj) : Duel s b j i cj ci pj pi :=
  ⟨hd.buffer, hd.right, hd.left⟩

/-- One access by one of the two. -/
theorem access (hd : Duel s b i j ci cj pi pj) (handles : HandleRef → BunHandle) (hij : i ≠ j)
    (haccess : ci.access handles b pi = some (pi', b')) :
    ∃ s', Race.Reaches handles s s' ∧ Duel s' b' i j ci cj pi' pj := by
  refine ⟨{ s with buffer := b', contenders := s.contenders.set i ⟨ci, pi'⟩ },
    ⟨[.caller i], ?_⟩, rfl, ?_, ?_⟩
  · rw [Race.run, List.foldlM_cons, Race.step, hd.left]
    dsimp only
    rw [hd.buffer, haccess]
    rfl
  · exact List.getElem?_set_self (Places.lt_length hd.left)
  · exact (List.getElem?_set_ne hij).trans hd.right

/-- A caller that passes `NULL` is let in if nobody has bound a handle. -/
theorem enter_null (hd : Duel s b i j ci cj .size pj) (handles : HandleRef → BunHandle)
    (hij : i ≠ j)
    (hroom : ¬b.size < headerSize) (hnone : b.handle = none) (hnull : ci.handle = none) :
    ∃ s' pending, Race.Reaches handles s s' ∧ Duel s' b i j ci cj (.inside pending) pj := by
  obtain ⟨s₁, hr₁, hd₁⟩ := hd.access handles hij
    (by rw [Caller.access, if_neg hroom])
  obtain ⟨s₂, hr₂, hd₂⟩ := hd₁.access handles hij
    (by rw [Caller.access, if_neg (not_not.mpr hnone), if_neg (not_not.mpr hnull)])
  obtain ⟨s₃, hr₃, hd₃⟩ := hd₂.access handles hij
    (by rw [Caller.access, if_neg (not_not.mpr hnone)])
  exact ⟨s₃, _, (hr₁.trans hr₂).trans hr₃, hd₃⟩

/-- Another gets to the point of storing its handle. -/
theorem to_bind (hd : Duel s b i j ci cj .size pj) (handles : HandleRef → BunHandle)
    (hij : i ≠ j) (hroom : ¬b.size < headerSize) (hnone : b.handle = none)
    (hgiven : ci.handle = some r) :
    ∃ s', Race.Reaches handles s s' ∧ Duel s' b i j ci cj .bind pj := by
  have hne : ci.handle ≠ none := by rw [hgiven]; simp
  obtain ⟨s₁, hr₁, hd₁⟩ := hd.access handles hij
    (by rw [Caller.access, if_neg hroom])
  obtain ⟨s₂, hr₂, hd₂⟩ := hd₁.access handles hij
    (by rw [Caller.access, if_neg (not_not.mpr hnone), if_pos hne])
  exact ⟨s₂, hr₁.trans hr₂, hd₂⟩

/-- And from there it is let in, unless its attempt counts and is not the first. -/
theorem enter_bind (hd : Duel s b i j ci cj .bind pj) (hij : i ≠ j) (hgiven : ci.handle = some r)
    (hfirst : OnceFlag handles r → b.writeCount = 0) :
    ∃ s' b' pending, Race.Reaches handles s s'
      ∧ Duel s' b' i j ci cj (.inside pending) pj := by
  obtain ⟨s₁, hr₁, hd₁⟩ := hd.access handles hij rfl
  obtain ⟨s₂, hr₂, hd₂⟩ := hd₁.access handles hij
    (by rw [Caller.access, if_pos (by rw [hgiven]; simp)])
  by_cases hflag : (handles r).flags &&& bunHandleWriteOnce ≠ 0
  · obtain ⟨s₃, hr₃, hd₃⟩ := hd₂.access handles hij
      (by rw [Caller.access, hgiven]; exact if_pos hflag)
    have hzero : ¬Int.bmod b.writeCount.toNat (2 ^ 32) > 0 := by
      rw [hfirst hflag]
      decide
    obtain ⟨s₄, hr₄, hd₄⟩ := hd₃.access handles hij
      (by rw [Caller.access, if_neg hzero])
    exact ⟨s₄, _, _, ((hr₁.trans hr₂).trans hr₃).trans hr₄, hd₄⟩
  · obtain ⟨s₃, hr₃, hd₃⟩ := hd₂.access handles hij
      (by rw [Caller.access, hgiven]; exact if_neg hflag)
    exact ⟨s₃, _, _, (hr₁.trans hr₂).trans hr₃, hd₃⟩

/-- **Both are let in** by some race, if one of them passes no handle with the flag. -/
theorem enter_both (hd : Duel s b i j ci cj .size .size) (hij : i ≠ j)
    (hroom : ¬b.size < headerSize) (hnone : b.handle = none) (hzero : b.writeCount = 0)
    (hbad : ¬ci.Once handles) :
    ∃ s' b' pi pj, Race.Reaches handles s s'
      ∧ Duel s' b' i j ci cj (.inside pi) (.inside pj) := by
  cases hgiven : ci.handle with
  | none =>
      obtain ⟨s₁, pi, hr₁, hd₁⟩ := hd.enter_null handles hij hroom hnone hgiven
      cases hgiven' : cj.handle with
      | none =>
          obtain ⟨s₂, pj, hr₂, hd₂⟩ :=
            hd₁.symm.enter_null handles hij.symm hroom hnone hgiven'
          exact ⟨s₂, b, pi, pj, hr₁.trans hr₂, hd₂.symm⟩
      | some r' =>
          obtain ⟨s₂, hr₂, hd₂⟩ :=
            hd₁.symm.to_bind handles hij.symm hroom hnone hgiven'
          obtain ⟨s₃, b', pj, hr₃, hd₃⟩ := hd₂.enter_bind hij.symm hgiven' fun _ => hzero
          exact ⟨s₃, b', pi, pj, (hr₁.trans hr₂).trans hr₃, hd₃.symm⟩
  | some r =>
      have hunflagged : ¬OnceFlag handles r := fun hflag => hbad ⟨r, hgiven, hflag⟩
      cases hgiven' : cj.handle with
      | none =>
          obtain ⟨s₁, pj, hr₁, hd₁⟩ :=
            hd.symm.enter_null handles hij.symm hroom hnone hgiven'
          obtain ⟨s₂, hr₂, hd₂⟩ :=
            hd₁.symm.to_bind handles hij hroom hnone hgiven
          obtain ⟨s₃, b', pi, hr₃, hd₃⟩ :=
            hd₂.enter_bind hij hgiven fun hflag => absurd hflag hunflagged
          exact ⟨s₃, b', pi, pj, (hr₁.trans hr₂).trans hr₃, hd₃⟩
      | some r' =>
          -- both have found no handle when the first of them stores its own
          obtain ⟨s₁, hr₁, hd₁⟩ := hd.to_bind handles hij hroom hnone hgiven
          obtain ⟨s₂, hr₂, hd₂⟩ :=
            hd₁.symm.to_bind handles hij.symm hroom hnone hgiven'
          obtain ⟨s₃, b₃, pj, hr₃, hd₃⟩ := hd₂.enter_bind hij.symm hgiven' fun _ => hzero
          obtain ⟨s₄, b₄, pi, hr₄, hd₄⟩ :=
            hd₃.symm.enter_bind hij hgiven fun hflag => absurd hflag hunflagged
          exact ⟨s₄, b₄, pi, pj, ((hr₁.trans hr₂).trans hr₃).trans hr₄, hd₄⟩

theorem two_sessions {pi pj : List ByteStore}
    (hd : Duel s b i j ci cj (.inside pi) (.inside pj)) (hij : i ≠ j) : ¬s.sessions ≤ 1 :=
  fun hone => hij (Places.eq_of_countP_le_one hone hd.left hd.right rfl rfl)

end Duel

/--
**At most one caller is let in, whatever the order of the accesses, exactly if every
caller passes a handle with `BUN_HANDLE_WRITE_ONCE`.** The handles need not be the same
one. The buffer is fresh, and there are between two and `2 ^ 31` callers.
-/
theorem race_exclusive_iff {data : CObject h} {buf : BunBuffer h}
    (hbuf : bunBufferInit data = some buf) (handles : HandleRef → BunHandle)
    {callers : List Caller} (htwo : 2 ≤ callers.length) (hfew : callers.length ≤ 2 ^ 31) :
    (∀ s, Race.Reaches handles (Race.start buf callers) s → s.sessions ≤ 1)
      ↔ ∀ c ∈ callers, c.Once handles := by
  constructor
  · intro hexclusive c hc
    refine Classical.byContradiction fun hbad => ?_
    obtain ⟨_, _, hcount, hhandle, _⟩ := bunBufferInit_eq_some hbuf
    have hroom : ¬buf.size < headerSize :=
      Nat.not_lt.mpr (headerSize_le_payloadHeaderSize.trans (bunBufferInit_size hbuf))
    obtain ⟨i, hi⟩ := List.mem_iff_getElem?.mp hc
    have hlt := Places.lt_length hi
    -- any other caller will do
    obtain ⟨j, hj, hij⟩ : ∃ j, j < callers.length ∧ i ≠ j := by
      by_cases hzero : i = 0
      · exact ⟨1, by omega, by omega⟩
      · exact ⟨0, by omega, hzero⟩
    have hat : ∀ {k : Nat} {d : Caller}, callers[k]? = some d →
        (Race.start buf callers).contenders[k]? = some ⟨d, .size⟩ := by
      intro k d hd
      rw [Race.start, List.getElem?_map, hd]
      rfl
    have hd : Duel (Race.start buf callers) buf i j c callers[j] .size .size :=
      ⟨rfl, hat hi, hat (List.getElem?_eq_getElem hj)⟩
    obtain ⟨s, b, pi, pj, hreach, hboth⟩ := hd.enter_both hij hroom hhandle hcount hbad
    exact hboth.two_sessions hij (hexclusive s hreach)
  · intro honce s hreach
    obtain ⟨events, hrun⟩ := hreach
    exact ((Contest.start hbuf honce hfew).run hrun).sessions_le_one

/-- Two callers with handles of their own, both with the flag. -/
theorem race_exclusive_two :
    ∃ buf : BunBuffer ⟨.w64, .little⟩,
      bunBufferInit (zeroedObject ⟨.w64, .little⟩ 100 (by decide)) = some buf
      ∧ ((∀ s, Race.Reaches (fun _ => ⟨1⟩)
          (Race.start buf [⟨7, .x86_64, some 5, []⟩, ⟨8, .x86_64, some 6, []⟩]) s → s.sessions ≤ 1)
        ↔ ∀ c ∈ ([⟨7, .x86_64, some 5, []⟩, ⟨8, .x86_64, some 6, []⟩] : List Caller),
          c.Once fun _ => ⟨1⟩) := by
  obtain ⟨buf, hbuf⟩ : ∃ buf,
      bunBufferInit (zeroedObject ⟨.w64, .little⟩ 100 (by decide)) = some buf := ⟨_, rfl⟩
  exact ⟨buf, hbuf, race_exclusive_iff hbuf _ (by decide) (by decide)⟩

end LibBun
