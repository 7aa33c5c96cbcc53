import Mathlib.Data.List.ReduceOption
import LibBun.Print
import LibBun.Proof.Report

/-!
# What is printed

`bun_reader_print` puts out a text for every frame it reads, made from its name, its
address and its registers. `Printed` is what is shown of a frame. On a host with 64-bit
`long` the text of the frames that were read is all that is put out; with 32 bits there
must be no register among them.

A text can be taken apart again if no name has a newline in it. With a newline in it a
name may look like anything that is printed, frames and all.
-/

namespace LibBun

variable {h : Host}

/-! ## What is shown of a frame -/

/-- What is shown of a frame. -/
structure Printed where
  symbol : List UInt8
  pc : Nat
  registers : List (Nat × UInt64)

/-- The line of a register. -/
def registerLine (reg : Nat × UInt64) : List UInt8 :=
  literal "    Register " ++ literal (bunRegisterToString reg.1) ++ literal "(" ++ format04X reg.1
    ++ literal "): " ++ formatLX reg.2.toNat ++ literal "\n"

/-- The lines of a frame. -/
def Printed.text (p : PointerText) (x : Printed) : List UInt8 :=
  literal "Frame: " ++ x.symbol ++ literal "\n"
    ++ literal "  PC: " ++ p.text x.pc ++ literal "\n"
    ++ literal "  Registers: " ++ formatZu x.registers.length ++ literal "\n"
    ++ x.registers.flatMap registerLine

/-- What follows the name. -/
def Printed.tail (p : PointerText) (x : Printed) : List UInt8 :=
  literal "\n" ++ literal "  PC: " ++ p.text x.pc ++ literal "\n"
    ++ literal "  Registers: " ++ formatZu x.registers.length ++ literal "\n"
    ++ x.registers.flatMap registerLine

theorem Printed.text_eq (p : PointerText) (x : Printed) :
    x.text p = literal "Frame: " ++ x.symbol ++ x.tail p := by
  rw [text, tail]
  simp only [List.append_assoc]

/-- What is shown of what a frame says. -/
def FrameContent.printed (h : Host) (c : FrameContent) : Printed :=
  ⟨c.symbol, h.toSizeT c.addr.toNat, c.registers.reduceOption⟩

/-- There is a text for it. -/
def Printable (h : Host) (x : Printed) : Prop := h.word = .w64 ∨ x.registers.length = 0

instance (h : Host) (x : Printed) : Decidable (Printable h x) :=
  inferInstanceAs (Decidable (_ ∨ _))

/-- The text of what is shown, if there is one. -/
def textOf (p : PointerText) (h : Host) (xs : List Printed) : Option (List UInt8) :=
  if ∀ x ∈ xs, Printable h x then some (xs.flatMap (Printed.text p)) else none

theorem length_printed_registers (f : BunFrame) :
    ((f.content h).printed h).registers.length = f.registerCount := by
  have hall : ∀ reg ∈ (f.content h).registers, reg.isSome := by
    intro reg hreg
    obtain ⟨i, hi, rfl⟩ := List.mem_map.mp hreg
    rw [bunFrameRegisterGet_eq (List.mem_range.mp hi)]
    rfl
  have hlen : (f.content h).registers.length = f.registerCount := by
    rw [BunFrame.content, List.length_map, List.length_range]
  rw [← hlen]
  exact List.reduceOption_length_eq_iff.mpr hall

theorem registerText_eq (reg : Nat) (val : UInt64) :
    registerText h reg val = if h.word = .w64 then some (registerLine (reg, val)) else none := by
  unfold registerText
  cases h.word <;> rfl

theorem registersText_eq (f : BunFrame) {n i : Nat} (hn : i + n ≤ f.registerCount) :
    registersText h f n i = if h.word = .w64 ∨ n = 0 then
      some (((List.range' i n).map (bunFrameRegisterGet h f)).reduceOption.flatMap registerLine)
    else none := by
  induction n generalizing i with
  | zero => exact (if_pos (Or.inr rfl)).symm
  | succ n ih =>
      have hreg := bunFrameRegisterGet_eq (h := h) (f := f) (i := i) (by omega)
      rw [registersText, hreg, ih (by omega), List.range'_succ, List.map_cons, hreg,
        List.reduceOption_cons_of_some, List.flatMap_cons]
      simp only [Option.bind_eq_bind, Option.bind_some, registerText_eq]
      by_cases hword : h.word = .w64
      · rw [if_pos hword, if_pos (Or.inl hword), if_pos (Or.inl hword)]
        rfl
      · rw [if_neg hword, if_neg (not_or.mpr ⟨hword, Nat.succ_ne_zero n⟩)]
        rfl

/-- The text of a frame is the text of what is shown of it. -/
theorem frameText_eq (p : PointerText) (f : BunFrame) :
    frameText p h f = if Printable h ((f.content h).printed h) then
      some (((f.content h).printed h).text p) else none := by
  have hiff : Printable h ((f.content h).printed h) ↔ h.word = .w64 ∨ f.registerCount = 0 := by
    rw [← length_printed_registers (h := h) f]
    exact Iff.rfl
  rw [frameText, registersText_eq f (Nat.le_of_eq (Nat.zero_add _))]
  by_cases hprint : Printable h ((f.content h).printed h)
  · rw [if_pos hprint, if_pos (hiff.mp hprint), Printed.text, length_printed_registers,
      ← List.range_eq_range']
    rfl
  · rw [if_neg hprint, if_neg (hprint ∘ hiff.mpr)]
    rfl

theorem textOf_cons (p : PointerText) (x : Printed) (xs : List Printed) :
    textOf p h (x :: xs) = if Printable h x then (textOf p h xs).map (x.text p ++ ·) else none := by
  unfold textOf
  by_cases hx : Printable h x
  · rw [if_pos hx]
    by_cases hxs : ∀ y ∈ xs, Printable h y
    · rw [if_pos (List.forall_mem_cons.mpr ⟨hx, hxs⟩), if_pos hxs]
      rfl
    · rw [if_neg fun hall => hxs (List.forall_mem_cons.mp hall).2, if_neg hxs]
      rfl
  · rw [if_neg hx, if_neg fun hall => hx (List.forall_mem_cons.mp hall).1]

/-- **What is put out is the text of the frames that are read.** -/
theorem bunReaderPrint_eq (p : PointerText) (mem : List UInt8) (fuel : Nat) (r : BunReader)
    (f : BunFrame) : bunReaderPrint p h mem fuel r f = (readFrames h mem fuel r f).bind
      fun frames => textOf p h (frames.map fun g => (g.content h).printed h) := by
  induction fuel generalizing r f with
  | zero => rfl
  | succ fuel ih =>
      rw [bunReaderPrint, readFrames]
      cases bunFrameRead h mem r f with
      | none => rfl
      | some result =>
          obtain ⟨more, r', f'⟩ := result
          simp only [Option.bind_eq_bind, Option.bind_some]
          cases more with
          | false => rfl
          | true =>
              rw [if_pos rfl, if_pos rfl, frameText_eq, ih]
              cases readFrames h mem fuel r' f' with
              | none =>
                  split <;> rfl
              | some frames =>
                  simp only [Option.bind_some, Option.pure_def, List.map_cons, textOf_cons]
                  split
                  · rw [Option.map_eq_bind]
                    rfl
                  · rfl

/-! ## Telling texts apart -/

/-- The number a digit of `%X`, or of `%x`, stands for. -/
def hexValue (letterA : Nat) (x : UInt8) : Nat :=
  if x.toNat < letterA then x.toNat - 0x30 else x.toNat - letterA + 10

theorem hexValue_hexDigit : ∀ d < 16, hexValue 0x41 (hexDigit 0x41 d) = d := by decide

theorem hexDigit_ne : ∀ d < 16, hexDigit 0x41 d ≠ newline ∧ hexDigit 0x41 d ≠ 0x29
    ∧ hexDigit 0x41 d ≠ 0 := by decide

theorem formatLX_injective : Function.Injective formatLX :=
  Text.numeral_injective (by decide) hexValue_hexDigit

theorem format04X_injective : Function.Injective format04X :=
  Text.padded_injective (by decide) hexValue_hexDigit 4

theorem formatZu_injective : Function.Injective formatZu :=
  Text.numeral_injective (by decide) fun d hd => hexValue_hexDigit d (by omega)

theorem newline_not_mem_formatLX (n : Nat) : newline ∉ formatLX n := by
  intro hmem
  obtain ⟨d, hd, heq⟩ := Text.mem_numeral (by decide) hmem
  exact (hexDigit_ne d hd).1 heq

theorem newline_not_mem_formatZu (n : Nat) : newline ∉ formatZu n := by
  intro hmem
  obtain ⟨d, hd, heq⟩ := Text.mem_numeral (by decide) hmem
  exact (hexDigit_ne d (by omega)).1 heq

theorem paren_not_mem_format04X (n : Nat) : 0x29 ∉ format04X n := by
  intro hmem
  obtain ⟨d, hd, heq⟩ := Text.mem_padded (by decide) hmem
  exact (hexDigit_ne d hd).2.1 heq

/-- `%p` where a `0x` is always put in front, for null pointers too. -/
def PointerText.prefixed : PointerText where
  text n := literal "0x" ++ Text.numeral (hexDigit 0x61) 16 n
  injective := by
    have hvalue : ∀ d < 16, hexValue 0x61 (hexDigit 0x61 d) = d := by decide
    intro m n heq
    exact Text.numeral_injective (by decide) hvalue (List.append_cancel_left heq)
  no_newline := by
    have hdigit : ∀ d < 16, hexDigit 0x61 d ≠ newline := by decide
    intro n hmem
    rcases List.mem_append.mp hmem with hmem | hmem
    · exact absurd hmem (by decide)
    · obtain ⟨d, hd, heq⟩ := Text.mem_numeral (by decide) hmem
      exact hdigit d hd heq
  no_nul := by
    have hdigit : ∀ d < 16, hexDigit 0x61 d ≠ 0 := by decide
    intro n hmem
    rcases List.mem_append.mp hmem with hmem | hmem
    · exact absurd hmem (by decide)
    · obtain ⟨d, hd, heq⟩ := Text.mem_numeral (by decide) hmem
      exact hdigit d hd heq

/-- No name of a register has a parenthesis in it. -/
theorem paren_not_mem_cases : ∀ c ∈ registerCases, (0x28 : UInt8) ∉ literal c.2 := by decide

theorem paren_not_mem_registerToString (val : Nat) :
    (0x28 : UInt8) ∉ literal (bunRegisterToString val) := by
  unfold bunRegisterToString
  split
  · rename_i hfind
    exact paren_not_mem_cases _ (List.mem_of_find?_eq_some hfind)
  · decide

/-- The line of a register tells its id and its value. -/
theorem registerLine_prefixFree : Text.PrefixFree (fun _ => True) registerLine := by
  intro a b r s _ _ heq
  simp only [registerLine, List.append_assoc] at heq
  have hname := List.append_cancel_left heq
  obtain ⟨_, hid⟩ := Text.append_cons_inj (paren_not_mem_registerToString a.1)
    (paren_not_mem_registerToString b.1) hname
  obtain ⟨hfst, hval⟩ := Text.append_cons_inj (paren_not_mem_format04X a.1)
    (paren_not_mem_format04X b.1) hid
  obtain ⟨hsnd, hrest⟩ := Text.append_cons_inj (newline_not_mem_formatLX _)
    (newline_not_mem_formatLX _) (@List.append_cancel_left _ (literal ": ") _ _ hval)
  refine ⟨Prod.ext (format04X_injective hfst) ?_, hrest⟩
  exact UInt64.toNat_inj.mp (formatLX_injective hsnd)

/-- **The text of a frame tells what is shown of it**, if its name is on one line. -/
theorem text_prefixFree (p : PointerText) :
    Text.PrefixFree (fun x : Printed => newline ∉ x.symbol) (Printed.text p) := by
  intro a b r s ha hb heq
  simp only [Printed.text, List.append_assoc] at heq
  obtain ⟨hsymbol, hpc⟩ := Text.append_cons_inj ha hb (List.append_cancel_left heq)
  obtain ⟨hpc, hcount⟩ := Text.append_cons_inj (p.no_newline _) (p.no_newline _)
    (@List.append_cancel_left _ (literal "  PC: ") _ _ hpc)
  obtain ⟨hcount, hregs⟩ := Text.append_cons_inj (newline_not_mem_formatZu _)
    (newline_not_mem_formatZu _) (@List.append_cancel_left _ (literal "  Registers: ") _ _ hcount)
  obtain ⟨hregs, hrest⟩ := registerLine_prefixFree.flatMap (fun _ _ => trivial)
    (fun _ _ => trivial) (formatZu_injective hcount) hregs
  obtain ⟨symbol, pc, registers⟩ := a
  obtain ⟨symbol', pc', registers'⟩ := b
  obtain rfl : symbol = symbol' := hsymbol
  obtain rfl : pc = pc' := p.injective hpc
  obtain rfl : registers = registers' := hregs
  exact ⟨rfl, hrest⟩

/-! ## What an unwind leaves to be printed -/

theorem find_registerCases (r : BunRegister) : ∃ name,
    registerCases.find? (fun c => c.1.toNat == r.toNat % 2 ^ 16) = some (r, name) := by
  cases r <;> exact ⟨_, rfl⟩

/-- It is a register of the enumeration, and it is printed under its name. -/
def PrintedByName (reg : Option (Nat × UInt64)) : Prop :=
  ∃ (r : BunRegister) (val : UInt64) (name : String), reg = some (r.toNat, val)
    ∧ (r, name) ∈ registerCases ∧ bunRegisterToString r.toNat = name

theorem printedByName (r : BunRegister) (val : UInt64) : PrintedByName (some (r.toNat, val)) := by
  obtain ⟨name, hfind⟩ := find_registerCases r
  refine ⟨r, val, name, rfl, List.mem_of_find?_eq_some hfind, ?_⟩
  rw [bunRegisterToString, hfind]

theorem stackReport_byName {arch : BunArchitecture} {data : List (FrameData × (Nat → UInt64))} :
    ∀ c ∈ stackReport h arch data, ∀ reg ∈ c.registers, PrintedByName reg := by
  intro c hc reg hreg
  obtain ⟨d, _, rfl⟩ := List.mem_map.mp hc
  obtain ⟨x, _, rfl⟩ := List.mem_map.mp hreg
  exact printedByName x.1 _

/-- The backends report no register without a name. -/
theorem report_byName {arch : BunArchitecture} {locals : Locals} (e : EntryPoint) :
    ∀ c ∈ e.report h arch locals, ∀ reg ∈ c.registers, PrintedByName reg := by
  cases e with
  | libbacktraceUnwind answers =>
      intro c hc reg hreg
      obtain ⟨call, _, rfl⟩ := List.mem_map.mp hc
      exact absurd hreg List.not_mem_nil
  | libunwindUnwindImpl tid safety steps =>
      intro c hc reg hreg
      obtain ⟨step, _, rfl⟩ := List.mem_map.mp hc
      obtain ⟨r, hr, rfl⟩ := List.mem_map.mp hreg
      obtain ⟨x, _, hx⟩ := List.mem_filterMap.mp hr
      obtain ⟨val, _, rfl⟩ := Option.map_eq_some_iff.mp hx
      exact printedByName x.1 val
  | libunwindstackUnwind answers => exact stackReport_byName
  | libunwindstackUnwindRemote pid answers => exact stackReport_byName
  | libunwindstackUnwindContext answers => exact stackReport_byName

/-- A fresh reader prints the first of the report, every register under its name. -/
def Prints (p : PointerText) (arch : BunArchitecture) (locals : Locals) (e : EntryPoint)
    (u : Unwound h) : Prop :=
  ∀ r₀ handle f₀, ∃ r said, bunReaderInit r₀ u.buffer handle = some (true, r)
    ∧ bunReaderPrint p h u.buffer.payload (u.buffer.payload.length / 28 + 1) r f₀
      = textOf p h (said.map (FrameContent.printed h))
    ∧ said <+: e.report h arch locals
    ∧ (ReportFits u.buffer (e.report h arch locals) →
      said = startingBefore (declaredSize h (e.report h arch locals)) headerSize
        (e.report h arch locals))
    ∧ ∀ c ∈ said, ∀ reg ∈ c.registers, PrintedByName reg

theorem Reports.prints {self : UInt32} {arch : BunArchitecture} {locals : Locals} {e : EntryPoint}
    {u : Unwound h} (hreports : Reports self arch locals e u) (p : PointerText) :
    Prints p arch locals e u := by
  intro r₀ handle f₀
  obtain ⟨hread, _, _⟩ := hreports
  obtain ⟨r, frames, hr, _, _, hread, hpre, hfits⟩ := hread r₀ handle f₀
  refine ⟨r, frames.map (BunFrame.content h), hr, ?_, hpre, hfits, fun c hc => ?_⟩
  · rw [bunReaderPrint_eq, hread, Option.bind_some, List.map_map]
    rfl
  · exact report_byName e c (hpre.subset hc)

/--
**What the unwinder answers is what a reader gets, and what is printed.** For every
entry point, every answer of the unwinder, and every buffer on which the session is
opened. What the stack held plays no part if every question is answered.
-/
theorem entry_point_reports {handles : HandleRef → BunHandle} {self : UInt32} {w : BunWriter}
    {buf buf' : BunBuffer h} {arch : BunArchitecture} {handle : Option HandleRef}
    (hend : h.endian = .little) (hbuf : bunBufferPayloadHeaderSize ≤ buf.size)
    (hinit : bunWriterInit handles self unopenedWriter buf arch handle = (true, w, buf'))
    {e : EntryPoint} (he : e.Sound h) (locals : Locals) :
    Reports self arch locals e (e.run handles self locals buf arch handle)
      ∧ (∀ p, Prints p arch locals e (e.run handles self locals buf arch handle))
      ∧ (e.Answered → ∀ locals',
        Reports self arch locals' e (e.run handles self locals buf arch handle)
          ∧ ∀ p, Prints p arch locals' e (e.run handles self locals buf arch handle)) := by
  have hreports := reports_of_opened hend hbuf hinit he locals
  refine ⟨hreports, hreports.prints, fun hanswered locals' => ?_⟩
  have hreports' := hreports.of_answered hanswered locals'
  exact ⟨hreports', hreports'.prints⟩

/--
Two frames of libunwindstack in ample room, and two steps of libunwind, of which nothing
is left to the stack.
-/
theorem entry_point_reports_named :
    ∃ buf, bunBufferInit (zeroedObject ⟨.w64, .little⟩ 500 (by decide)) = some buf
      ∧ ((EntryPoint.libunwindstackUnwind stackAnswers).run (fun _ => ⟨0⟩) 7
        (strayLocals unopenedWriter) buf .x86_64 none).ret = 431
      ∧ (∀ p, Prints p .x86_64 (strayLocals unopenedWriter) (.libunwindstackUnwind stackAnswers)
        ((EntryPoint.libunwindstackUnwind stackAnswers).run (fun _ => ⟨0⟩) 7
          (strayLocals unopenedWriter) buf .x86_64 none))
      ∧ ∀ locals', Reports 7 .x86_64 locals'
        (.libunwindUnwindImpl 8 .required [leafStep, mainStep])
        ((EntryPoint.libunwindUnwindImpl 8 .required [leafStep, mainStep]).run (fun _ => ⟨0⟩) 7
          (strayLocals unopenedWriter) buf .x86_64 none) := by
  obtain ⟨buf, buf', w, hbuf, hinit, hlen⟩ :=
    exists_session ⟨.w64, .little⟩ (by decide : 500 < 2 ^ 31) (by decide)
  have hroom := bunBufferInit_size hbuf
  obtain ⟨_, hsize, _⟩ := bunWriterInit_eq_true hinit
  obtain ⟨⟨_, hret, _⟩, hprints, _⟩ := entry_point_reports rfl hroom hinit stackAnswers_sound
    (strayLocals unopenedWriter)
  obtain ⟨_, _, hsettled⟩ := entry_point_reports rfl hroom hinit
    (e := .libunwindUnwindImpl 8 .required [leafStep, mainStep]) trivial
    (strayLocals unopenedWriter)
  refine ⟨buf, hbuf, ?_, hprints, fun locals' => (hsettled (steps_answered 8 .required) locals').1⟩
  have hpayload := ((EntryPoint.libunwindstackUnwind stackAnswers).run (h := ⟨.w64, .little⟩)
    (fun _ => ⟨0⟩) 7 (strayLocals unopenedWriter) buf .x86_64 none).buffer.payload_length
  rw [EntryPoint.size_run _ _ _ hinit, ← hsize, ← buf'.payload_length, hlen] at hpayload
  refine (hret ⟨?_, ?_⟩).trans (by decide +kernel)
  · rw [hpayload]
    decide +kernel
  · rw [hpayload]
    decide

/--
**What was printed tells what was shown**, for any readers of any buffers: the same is
put out if and only if the same names, addresses and registers were read in the same
order, provided that no name has a newline in it. Of an address that is as much as a
pointer holds.
-/
theorem print_eq_iff {h' : Host} (p : PointerText) {mem mem' : List UInt8} {fuel fuel' : Nat}
    {r r' : BunReader} {f f' : BunFrame} {frames frames' : List BunFrame} {t t' : List UInt8}
    (hread : readFrames h mem fuel r f = some frames)
    (hread' : readFrames h' mem' fuel' r' f' = some frames')
    (hprint : bunReaderPrint p h mem fuel r f = some t)
    (hprint' : bunReaderPrint p h' mem' fuel' r' f' = some t')
    (hline : ∀ g ∈ frames, newline ∉ g.symbolStr.1)
    (hline' : ∀ g ∈ frames', newline ∉ g.symbolStr.1) :
    t = t' ↔ frames.map (fun g => (g.content h).printed h)
      = frames'.map (fun g => (g.content h').printed h') := by
  rw [bunReaderPrint_eq, hread, Option.bind_some, textOf, Option.ite_none_right_eq_some,
    Option.some.injEq] at hprint
  rw [bunReaderPrint_eq, hread', Option.bind_some, textOf, Option.ite_none_right_eq_some,
    Option.some.injEq] at hprint'
  rw [← hprint.2, ← hprint'.2]
  constructor
  · intro heq
    refine Text.PrefixFree.flatMap_inj (text_prefixFree p) (fun x => ?_) ?_ ?_ heq
    · exact fun hnil => absurd (congrArg List.length hnil) (by simp [Printed.text, literal])
    · intro x hx
      obtain ⟨g, hg, rfl⟩ := List.mem_map.mp hx
      exact hline g hg
    · intro x hx
      obtain ⟨g, hg, rfl⟩ := List.mem_map.mp hx
      exact hline' g hg
  · intro heq
    rw [heq]

/-- Two buffers that differ in a line number, which is not printed. -/
theorem print_eq_iff_oneFrame :
    ∃ frames frames' t t',
      readFrames ⟨.w64, .little⟩ (oneFrameBuffer ⟨.w64, .little⟩ 52 7).payload 3 (openedReader 52)
        BunFrame.zero = some frames
      ∧ readFrames ⟨.w64, .little⟩ (oneFrameBuffer ⟨.w64, .little⟩ 52 8).payload 3
        (openedReader 52) BunFrame.zero = some frames'
      ∧ bunReaderPrint PointerText.prefixed ⟨.w64, .little⟩
        (oneFrameBuffer ⟨.w64, .little⟩ 52 7).payload 3 (openedReader 52) BunFrame.zero = some t
      ∧ bunReaderPrint PointerText.prefixed ⟨.w64, .little⟩
        (oneFrameBuffer ⟨.w64, .little⟩ 52 8).payload 3 (openedReader 52) BunFrame.zero = some t'
      ∧ (t = t' ↔ frames.map (fun g => (g.content ⟨.w64, .little⟩).printed ⟨.w64, .little⟩)
        = frames'.map (fun g => (g.content ⟨.w64, .little⟩).printed ⟨.w64, .little⟩)) := by
  have hread : ∀ line : UInt64, line = 7 ∨ line = 8 → ∃ frames t,
      readFrames ⟨.w64, .little⟩ (oneFrameBuffer ⟨.w64, .little⟩ 52 line).payload 3
        (openedReader 52) BunFrame.zero = some frames
      ∧ bunReaderPrint PointerText.prefixed ⟨.w64, .little⟩
        (oneFrameBuffer ⟨.w64, .little⟩ 52 line).payload 3 (openedReader 52) BunFrame.zero = some t
      ∧ ∀ g ∈ frames, newline ∉ g.symbolStr.1 := by
    rintro line (rfl | rfl)
    · exact ⟨_, _, rfl, rfl, by decide⟩
    · exact ⟨_, _, rfl, rfl, by decide⟩
  obtain ⟨frames, t, hframes, hprint, hline⟩ := hread 7 (Or.inl rfl)
  obtain ⟨frames', t', hframes', hprint', hline'⟩ := hread 8 (Or.inr rfl)
  exact ⟨frames, frames', t, t', hframes, hframes', hprint, hprint',
    print_eq_iff PointerText.prefixed hframes hframes' hprint hprint' hline hline'⟩

/-! ## A name that looks like frames -/

/-- No byte of a string literal that is printed ends a string. -/
theorem nul_not_mem_cases : ∀ c ∈ registerCases, (0 : UInt8) ∉ literal c.2 := by decide

theorem nul_not_mem_registerLine (reg : Nat × UInt64) : 0 ∉ registerLine reg := by
  have hname : (0 : UInt8) ∉ literal (bunRegisterToString reg.1) := by
    unfold bunRegisterToString
    split
    · rename_i hfind
      exact nul_not_mem_cases _ (List.mem_of_find?_eq_some hfind)
    · decide
  have hid : (0 : UInt8) ∉ format04X reg.1 := by
    intro hmem
    obtain ⟨d, hd, heq⟩ := Text.mem_padded (by decide) hmem
    exact (hexDigit_ne d hd).2.2 heq
  have hval : (0 : UInt8) ∉ formatLX reg.2.toNat := by
    intro hmem
    obtain ⟨d, hd, heq⟩ := Text.mem_numeral (by decide) hmem
    exact (hexDigit_ne d hd).2.2 heq
  simp only [registerLine, List.mem_append, not_or]
  exact ⟨⟨⟨⟨⟨⟨by decide, hname⟩, by decide⟩, hid⟩, by decide⟩, hval⟩, by decide⟩

theorem nul_not_mem_text (p : PointerText) {x : Printed} (hx : 0 ∉ x.symbol) : 0 ∉ x.text p := by
  have hcount : (0 : UInt8) ∉ formatZu x.registers.length := by
    intro hmem
    obtain ⟨d, hd, heq⟩ := Text.mem_numeral (by decide) hmem
    exact (hexDigit_ne d (by omega)).2.2 heq
  have hregs : 0 ∉ x.registers.flatMap registerLine := by
    intro hmem
    obtain ⟨reg, _, hreg⟩ := List.mem_flatMap.mp hmem
    exact nul_not_mem_registerLine reg hreg
  simp only [Printed.text, List.mem_append, not_or]
  exact ⟨⟨⟨⟨⟨⟨⟨⟨⟨by decide, hx⟩, by decide⟩, by decide⟩, p.no_nul _⟩, by decide⟩, by decide⟩,
    hcount⟩, by decide⟩, hregs⟩

/-- Any frames look like one frame that has a name to match, and all else from the last. -/
theorem exists_symbol (p : PointerText) (xs : List Printed) (last : Printed)
    (hxs : ∀ x ∈ xs, 0 ∉ x.symbol) (hlast : 0 ∉ last.symbol) :
    ∃ symbol, 0 ∉ symbol
      ∧ Printed.text p { last with symbol := symbol }
        = (xs ++ [last]).flatMap (Printed.text p) := by
  cases xs with
  | nil =>
      refine ⟨last.symbol, hlast, ?_⟩
      rw [List.nil_append, List.flatMap_singleton]
  | cons x xs =>
      -- the name goes from the first `Frame: ` to the end of the last name
      refine ⟨x.symbol ++ x.tail p ++ xs.flatMap (Printed.text p) ++ literal "Frame: "
        ++ last.symbol, ?_, ?_⟩
      · have hx := hxs x (List.mem_cons_self ..)
        have htext := nul_not_mem_text p hx
        have hrest : 0 ∉ xs.flatMap (Printed.text p) := by
          intro hmem
          obtain ⟨y, hy, hy'⟩ := List.mem_flatMap.mp hmem
          exact nul_not_mem_text p (hxs y (List.mem_cons_of_mem _ hy)) hy'
        rw [Printed.text_eq, List.mem_append, not_or] at htext
        simp only [List.mem_append, not_or] at htext ⊢
        exact ⟨⟨⟨⟨hx, htext.2⟩, hrest⟩, by decide⟩, hlast⟩
      · rw [List.cons_append, List.flatMap_cons, List.flatMap_append, List.flatMap_singleton,
          Printed.text_eq, Printed.text_eq p x, Printed.text_eq p last]
        simp only [List.append_assoc]
        rfl

/-- A frame with the name, the address and the registers that are shown of another. -/
def BunFrame.showing (symbol : CString) (g : BunFrame) : BunFrame :=
  { BunFrame.zero with
    addr := g.addr
    symbol := some symbol.ptr
    registerCount := g.registerCount
    registerData := g.registerData }

theorem BunFrame.printed_showing (symbol : CString) (g : BunFrame) :
    ((g.showing symbol).content h).printed h
      = { (g.content h).printed h with symbol := symbol.1 } := rfl

/-- What is read from `w` bytes fits `w` bytes. -/
theorem readLe_lt {w : Nat} {mem : List UInt8} {r r' : BunReader} {n : Nat}
    (hread : readLe h w mem r = some (n, r')) : n < 256 ^ w := by
  unfold readLe at hread
  split at hread
  · obtain ⟨rfl, _⟩ := Prod.mk.inj (Option.some.inj hread)
    exact Nat.pow_pos (by decide)
  · obtain ⟨value, hload, hread⟩ := Option.bind_eq_some_iff.mp hread
    obtain ⟨rfl, _⟩ := Prod.mk.inj (Option.some.inj hread)
    have hlen := Region.length_of_load hload
    rw [h.letoh_valueOf hlen, ← hlen]
    exact LittleEndian.decode_lt value

/-- A frame that is read has no more registers than two bytes can count. -/
theorem registerCount_lt_of_frameRead {mem : List UInt8} {r r' : BunReader} {f f' : BunFrame}
    (hread : bunFrameRead h mem r f = some (true, r', f')) : f'.registerCount < 2 ^ 16 := by
  unfold bunFrameRead at hread
  dsimp only at hread
  obtain ⟨size, _, hread⟩ := Option.bind_eq_some_iff.mp hread
  split at hread
  · cases hread
  split at hread
  · cases hread
  -- the three numbers
  obtain ⟨_, _, hread⟩ := Option.bind_eq_some_iff.mp hread
  obtain ⟨_, _, hread⟩ := Option.bind_eq_some_iff.mp hread
  obtain ⟨_, _, hread⟩ := Option.bind_eq_some_iff.mp hread
  split at hread
  · cases hread
  -- the two strings
  obtain ⟨_, _, hread⟩ := Option.bind_eq_some_iff.mp hread
  split at hread
  · cases hread
  obtain ⟨_, _, hread⟩ := Option.bind_eq_some_iff.mp hread
  split at hread
  · cases hread
  -- the count
  obtain ⟨⟨count, _⟩, hcount, hread⟩ := Option.bind_eq_some_iff.mp hread
  have hlt : count < 2 ^ 16 := readLe_lt hcount
  split at hread
  · cases hread
  split at hread
  · cases hread
  split at hread
  · cases hread
    exact hlt
  · cases hread
    exact hlt

theorem registerCount_lt_of_read {mem : List UInt8} {fuel : Nat} {r : BunReader} {f : BunFrame}
    {frames : List BunFrame} (hread : readFrames h mem fuel r f = some frames) :
    ∀ g ∈ frames, g.registerCount < 2 ^ 16 := by
  induction fuel generalizing r f frames with
  | zero => cases hread
  | succ fuel ih =>
      obtain ⟨⟨more, r', f'⟩, hone, hread⟩ := Option.bind_eq_some_iff.mp hread
      dsimp only at hread
      split at hread
      · rename_i hmore
        obtain ⟨rest, hrest, hread⟩ := Option.bind_eq_some_iff.mp hread
        obtain rfl := Option.some.inj hread
        intro g hg
        rcases List.mem_cons.mp hg with heq | htail
        · rw [heq]
          exact registerCount_lt_of_frameRead (hmore ▸ hone)
        · exact ih hrest g htail
      · obtain rfl := Option.some.inj hread
        exact fun g hg => absurd hg List.not_mem_nil

/-- What is printed of a frame is longer than its name and its registers. -/
theorem length_text_ge (p : PointerText) (x : Printed) :
    x.symbol.length + registerSize * x.registers.length ≤ (x.text p).length := by
  have hline : ∀ reg, registerSize ≤ (registerLine reg).length := by
    intro reg
    have hstart : (literal "    Register ").length = 13 := by decide
    simp only [registerLine, List.length_append, hstart, registerSize]
    omega
  have hlines : ∀ regs : List (Nat × UInt64),
      registerSize * regs.length ≤ (regs.flatMap registerLine).length := by
    intro regs
    induction regs with
    | nil => exact Nat.le_refl _
    | cons reg regs ih =>
        have := hline reg
        rw [List.length_cons, List.flatMap_cons, List.length_append, Nat.mul_succ]
        omega
  have := hlines x.registers
  simp only [Printed.text, List.length_append]
  omega

/-- A frame that shows something short enough is one that can be written. -/
theorem BunFrame.showing_wellFormed {symbol : CString} {g : BunFrame}
    (hcount : g.registerCount < 2 ^ 16) (hsymbol : symbol.1.length < h.ptrdiffMax) :
    (g.showing symbol).WellFormed h := by
  have hzero := zero_wellFormed h
  exact ⟨hzero.lineNo_lt, hzero.offset_lt, hsymbol, hzero.filename_lt, Or.inl rfl, Or.inl rfl,
    hcount⟩

/-- One frame alone in a new session comes back, if it fits. -/
theorem RoundTrips.of_one {handles : HandleRef → BunHandle} {tid : UInt32} {w₀ w : BunWriter}
    {buf buf' : BunBuffer h} {arch : BunArchitecture} {handle : Option HandleRef}
    (hbuf : bunBufferPayloadHeaderSize ≤ buf.size)
    (hinit : bunWriterInit handles tid w₀ buf arch handle = (true, w, buf'))
    (hsmall : buf'.payload.length < 2 ^ 32) {f : BunFrame} (hf : f.WellFormed h)
    (hfit : headerSize + f.encodedLength ≤ buf'.payload.length) :
    RoundTrips h buf' (writeFrames h ⟨w, buf'.memory⟩ [f]).2.mem.bytes [f] := by
  have hroom : bunBufferPayloadHeaderSize ≤ buf'.size := by
    obtain ⟨_, hsize, _⟩ := bunWriterInit_eq_true hinit
    rwa [hsize]
  have hsize := (bunWriterInit_at hbuf hinit).2.2.2
  have hall : ∀ g ∈ [f], g.WellFormed h := fun g hg => List.mem_singleton.mp hg ▸ hf
  obtain ⟨rs, hl, hrs, hgap⟩ := (Live.start hbuf hinit).run hsmall hall hfit
  rw [List.nil_append] at hl
  refine (hl.roundTrips_iff (length_writeFrames ..) hroom hrs).mpr fun last hlast => ?_
  obtain rfl : f = last := Option.some.inj hlast
  have hend := length_encodeAll_of_content hrs
  have hshort : h.shortfall < f.encodedLength := by
    rw [Host.shortfall, BunFrame.encodedLength]
    omega
  rw [streamEnd, hend]
  have hsize' : HeaderField.size.get (⟨w, buf'.memory⟩ : WriterState).mem.bytes 0 = headerSize :=
    hsize
  rw [hsize', List.length_singleton, Nat.mul_one] at hgap
  omega

/--
**What is printed can be forged.** For anything that any reader of any memory ever
printed, a frame or more, there is one well-formed frame that, written alone to a new
session with room for it, makes a reader print the same.
-/
theorem print_forged (p : PointerText) {mem : List UInt8} {r : BunReader} {fuel : Nat}
    {f₀ : BunFrame} {t : List UInt8} (hprint : bunReaderPrint p h mem fuel r f₀ = some t)
    (hne : t ≠ [])
    {handles : HandleRef → BunHandle} {tid : UInt32} {w₀ w : BunWriter} {buf₁ buf₂ : BunBuffer h}
    {arch : BunArchitecture} {handle' : Option HandleRef}
    (hbuf : bunBufferPayloadHeaderSize ≤ buf₁.size)
    (hinit : bunWriterInit handles tid w₀ buf₁ arch handle' = (true, w, buf₂))
    (hroom : headerSize + 28 + t.length ≤ buf₂.payload.length)
    (hsmall : buf₂.payload.length < 2 ^ 32) :
    ∃ forged : BunFrame, forged.WellFormed h ∧ ∀ r₀ handle f₀, ∃ r,
      bunReaderInit r₀ (buf₂.withPayload (writeFrames h ⟨w, buf₂.memory⟩ [forged]).2.mem.bytes
        (length_writeFrames ..)) handle = some (true, r)
      ∧ bunReaderPrint p h (writeFrames h ⟨w, buf₂.memory⟩ [forged]).2.mem.bytes 2 r f₀
        = some t := by
  rw [bunReaderPrint_eq] at hprint
  obtain ⟨frames, hread, htext⟩ := Option.bind_eq_some_iff.mp hprint
  rw [textOf, Option.ite_none_right_eq_some, Option.some.injEq] at htext
  obtain ⟨hprintable, htext⟩ := htext
  have hframes : frames ≠ [] := by
    rintro rfl
    exact hne htext.symm
  -- the last of the frames, with the text of the others in front of its name
  obtain ⟨front, g, rfl⟩ := (List.eq_nil_or_concat frames).resolve_left hframes
  rw [List.concat_eq_append] at hprintable htext hread
  have hcount := registerCount_lt_of_read hread g (List.mem_append_right _ (by simp))
  rw [List.map_append, List.map_singleton] at hprintable htext
  obtain ⟨symbol, hnul, hsymbol⟩ := exists_symbol p
    (front.map fun g => (g.content h).printed h) ((g.content h).printed h) (by
      intro x hx
      obtain ⟨f, _, rfl⟩ := List.mem_map.mp hx
      exact f.symbolStr.2) g.symbolStr.2
  rw [htext] at hsymbol
  have hlen := length_text_ge p { (g.content h).printed h with symbol := symbol }
  rw [hsymbol, length_printed_registers] at hlen
  have hlong : symbol.length + registerSize * g.registerCount ≤ t.length := hlen
  have hinside := (buf₂.payload_room (by
    obtain ⟨_, hsize, _⟩ := bunWriterInit_eq_true hinit
    rwa [hsize])).2.1
  have hf : (g.showing ⟨symbol, hnul⟩).WellFormed h :=
    BunFrame.showing_wellFormed hcount (by show symbol.length < h.ptrdiffMax; omega)
  have hfit : headerSize + (g.showing ⟨symbol, hnul⟩).encodedLength ≤ buf₂.payload.length := by
    show headerSize + (28 + symbol.length + 0 + registerSize * g.registerCount) ≤ _
    omega
  obtain ⟨_, hrt⟩ := RoundTrips.of_one hbuf hinit hsmall hf hfit
  refine ⟨g.showing ⟨symbol, hnul⟩, hf, fun r₀ handle f₀ => ?_⟩
  obtain ⟨r, frames, hr, hread, hsame⟩ := hrt r₀ handle f₀
  refine ⟨r, hr, ?_⟩
  rw [List.length_singleton] at hread
  have hshown : frames.map (fun g => (g.content h).printed h)
      = [{ (g.content h).printed h with symbol := symbol }] := by
    have hprinted := congrArg (List.map (FrameContent.printed h)) hsame
    rw [List.map_map, List.map_map, List.map_singleton, Function.comp_apply,
      BunFrame.printed_showing] at hprinted
    exact hprinted
  have hlast : Printable h { (g.content h).printed h with symbol := symbol } :=
    hprintable ((g.content h).printed h) (List.mem_append_right _ (List.mem_singleton_self _))
  rw [bunReaderPrint_eq, hread, Option.bind_some, hshown, textOf,
    if_pos fun x hx => List.mem_singleton.mp hx ▸ hlast, List.flatMap_singleton, hsymbol]

/-- The payload of a session with two frames. -/
def twoFramePayload (h : Host) : List UInt8 :=
  (writeFrames h ⟨⟨⟨0, headerSize, 118, none, false⟩⟩,
    initHeader ⟨List.replicate 118 0, []⟩ .x86_64 7⟩ [mainFrame, leafFrame]).2.mem.bytes

/-- What is printed of them, forged. -/
theorem print_forged_twoFrames :
    ∃ t buf buf' w, bunReaderPrint PointerText.prefixed ⟨.w64, .little⟩
        (twoFramePayload ⟨.w64, .little⟩) 3 (openedReader 118) BunFrame.zero = some t
      ∧ bunBufferInit (zeroedObject ⟨.w64, .little⟩ 500 (by decide)) = some buf
      ∧ bunWriterInit (fun _ => ⟨0⟩) 7 unopenedWriter buf .x86_64 none = (true, w, buf')
      ∧ ∃ forged : BunFrame, forged.WellFormed ⟨.w64, .little⟩ ∧ ∀ r₀ handle f₀, ∃ r,
        bunReaderInit r₀ (buf'.withPayload (writeFrames ⟨.w64, .little⟩ ⟨w, buf'.memory⟩
          [forged]).2.mem.bytes (length_writeFrames ..)) handle = some (true, r)
        ∧ bunReaderPrint PointerText.prefixed ⟨.w64, .little⟩
          (writeFrames ⟨.w64, .little⟩ ⟨w, buf'.memory⟩ [forged]).2.mem.bytes 2 r f₀
          = some t := by
  have hlen : (bunReaderPrint PointerText.prefixed ⟨.w64, .little⟩
      (twoFramePayload ⟨.w64, .little⟩) 3 (openedReader 118) BunFrame.zero).map List.length
        = some 238 := by decide +kernel
  obtain ⟨t, hprint, ht⟩ := Option.map_eq_some_iff.mp hlen
  obtain ⟨buf, buf', w, hbuf, hinit, hpayload⟩ :=
    exists_session ⟨.w64, .little⟩ (by decide : 500 < 2 ^ 31) (by decide)
  have hne : t ≠ [] := fun hnil => by
    rw [hnil] at ht
    exact absurd ht (by decide)
  exact ⟨t, buf, buf', w, hprint, hbuf, hinit, print_forged PointerText.prefixed hprint hne
    (bunBufferInit_size hbuf) hinit (by rw [ht, hpayload]; decide) (by rw [hpayload]; decide)⟩

end LibBun
