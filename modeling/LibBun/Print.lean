import LibBun.Lib.Text
import LibBun.Backend
import LibBun.Frame

/-!
# Printing

`bun_reader_print` writes a few lines for every frame it reads, and a line for every
register. What `fprintf` makes of its arguments is documented, but for `%p`, which is up
to the C library: `PointerText` is all that is promised of it here. The last conversion
of a register's line is `%lX` and its argument an `uintmax_t`; where `long` has four
bytes that is a call without a meaning, and there is no text.
-/

namespace LibBun

variable {h : Host}

/-! ## What `fprintf` puts out -/

/-- The bytes of a string literal. -/
def literal (s : String) : List UInt8 := s.toUTF8.data.toList

/-- `'\n'`. -/
def newline : UInt8 := 0x0a

/-- A digit of `%X`. With an `'a'` in place of the `'A'` it is one of `%x`. -/
def hexDigit (letterA d : Nat) : UInt8 :=
  UInt8.ofNat (if d < 10 then 0x30 + d else letterA + (d - 10))

/-- `%zu`. -/
def formatZu (n : Nat) : List UInt8 := Text.numeral (hexDigit 0x41) 10 n

/-- `%lX`. -/
def formatLX (n : Nat) : List UInt8 := Text.numeral (hexDigit 0x41) 16 n

/-- `%04X`. -/
def format04X (n : Nat) : List UInt8 := Text.padded 4 (hexDigit 0x41) 16 n

/-- `%p`: pointers can be told apart, take one line, and are no end of a string. -/
structure PointerText where
  text : Nat → List UInt8
  injective : Function.Injective text
  no_newline : ∀ v, newline ∉ text v
  no_nul : ∀ v, 0 ∉ text v

/-! ## `register_to_string.c` -/

/-- The cases of the `switch`, in their order. -/
def registerCases : List (BunRegister × String) := [
  (.x86_64Rax, "BUN_REGISTER_X86_64_RAX"), (.x86_64Rbx, "BUN_REGISTER_X86_64_RBX"),
  (.x86_64Rcx, "BUN_REGISTER_X86_64_RCX"), (.x86_64Rdx, "BUN_REGISTER_X86_64_RDX"),
  (.x86_64Rsi, "BUN_REGISTER_X86_64_RSI"), (.x86_64Rdi, "BUN_REGISTER_X86_64_RDI"),
  (.x86_64Rbp, "BUN_REGISTER_X86_64_RBP"), (.x86_64Rsp, "BUN_REGISTER_X86_64_RSP"),
  (.x86_64R8, "BUN_REGISTER_X86_64_R8"), (.x86_64R9, "BUN_REGISTER_X86_64_R9"),
  (.x86_64R10, "BUN_REGISTER_X86_64_R10"), (.x86_64R11, "BUN_REGISTER_X86_64_R11"),
  (.x86_64R12, "BUN_REGISTER_X86_64_R12"), (.x86_64R13, "BUN_REGISTER_X86_64_R13"),
  (.x86_64R14, "BUN_REGISTER_X86_64_R14"), (.x86_64R15, "BUN_REGISTER_X86_64_R15"),
  (.x86_64Rip, "BUN_REGISTER_X86_64_RIP"), (.x86Eax, "BUN_REGISTER_X86_EAX"),
  (.x86Ebx, "BUN_REGISTER_X86_EBX"), (.x86Ecx, "BUN_REGISTER_X86_ECX"),
  (.x86Edx, "BUN_REGISTER_X86_EDX"), (.x86Esi, "BUN_REGISTER_X86_ESI"),
  (.x86Edi, "BUN_REGISTER_X86_EDI"), (.x86Ebp, "BUN_REGISTER_X86_EBP"),
  (.x86Esp, "BUN_REGISTER_X86_ESP"), (.x86Eip, "BUN_REGISTER_X86_EIP"),
  (.aarch64X0, "BUN_REGISTER_AARCH64_X0"), (.aarch64X1, "BUN_REGISTER_AARCH64_X1"),
  (.aarch64X2, "BUN_REGISTER_AARCH64_X2"), (.aarch64X3, "BUN_REGISTER_AARCH64_X3"),
  (.aarch64X4, "BUN_REGISTER_AARCH64_X4"), (.aarch64X5, "BUN_REGISTER_AARCH64_X5"),
  (.aarch64X6, "BUN_REGISTER_AARCH64_X6"), (.aarch64X7, "BUN_REGISTER_AARCH64_X7"),
  (.aarch64X8, "BUN_REGISTER_AARCH64_X8"), (.aarch64X9, "BUN_REGISTER_AARCH64_X9"),
  (.aarch64X10, "BUN_REGISTER_AARCH64_X10"), (.aarch64X11, "BUN_REGISTER_AARCH64_X11"),
  (.aarch64X12, "BUN_REGISTER_AARCH64_X12"), (.aarch64X13, "BUN_REGISTER_AARCH64_X13"),
  (.aarch64X14, "BUN_REGISTER_AARCH64_X14"), (.aarch64X15, "BUN_REGISTER_AARCH64_X15"),
  (.aarch64X16, "BUN_REGISTER_AARCH64_X16"), (.aarch64X17, "BUN_REGISTER_AARCH64_X17"),
  (.aarch64X18, "BUN_REGISTER_AARCH64_X18"), (.aarch64X19, "BUN_REGISTER_AARCH64_X19"),
  (.aarch64X20, "BUN_REGISTER_AARCH64_X20"), (.aarch64X21, "BUN_REGISTER_AARCH64_X21"),
  (.aarch64X22, "BUN_REGISTER_AARCH64_X22"), (.aarch64X23, "BUN_REGISTER_AARCH64_X23"),
  (.aarch64X24, "BUN_REGISTER_AARCH64_X24"), (.aarch64X25, "BUN_REGISTER_AARCH64_X25"),
  (.aarch64X26, "BUN_REGISTER_AARCH64_X26"), (.aarch64X27, "BUN_REGISTER_AARCH64_X27"),
  (.aarch64X28, "BUN_REGISTER_AARCH64_X28"), (.aarch64X29, "BUN_REGISTER_AARCH64_X29"),
  (.aarch64X30, "BUN_REGISTER_AARCH64_X30"), (.aarch64X31, "BUN_REGISTER_AARCH64_X31"),
  (.aarch64Pc, "BUN_REGISTER_AARCH64_PC"), (.aarch64Pstate, "BUN_REGISTER_AARCH64_PSTATE"),
  (.armR0, "BUN_REGISTER_ARM_R0"), (.armR1, "BUN_REGISTER_ARM_R1"),
  (.armR2, "BUN_REGISTER_ARM_R2"), (.armR3, "BUN_REGISTER_ARM_R3"),
  (.armR4, "BUN_REGISTER_ARM_R4"), (.armR5, "BUN_REGISTER_ARM_R5"),
  (.armR6, "BUN_REGISTER_ARM_R6"), (.armR7, "BUN_REGISTER_ARM_R7"),
  (.armR8, "BUN_REGISTER_ARM_R8"), (.armR9, "BUN_REGISTER_ARM_R9"),
  (.armR10, "BUN_REGISTER_ARM_R10"), (.armR11, "BUN_REGISTER_ARM_R11"),
  (.armR12, "BUN_REGISTER_ARM_R12"), (.armR13, "BUN_REGISTER_ARM_R13"),
  (.armR14, "BUN_REGISTER_ARM_R14"), (.armR15, "BUN_REGISTER_ARM_R15"),
  (.armPstate, "BUN_REGISTER_ARM_PSTATE")]

/-- `bun_register_to_string`. -/
def bunRegisterToString (val : Nat) : String :=
  match registerCases.find? fun c => c.1.toNat == val % 2 ^ 16 with
  | some (_, name) => name
  | none => "<unknown>"

/-! ## `bun_reader_print` -/

/-- The line of a register. -/
def registerText (h : Host) (reg : Nat) (val : UInt64) : Option (List UInt8) :=
  match h.word with
  | .w32 => none
  | .w64 => some (literal "    Register " ++ literal (bunRegisterToString reg) ++ literal "("
      ++ format04X reg ++ literal "): " ++ formatLX val.toNat ++ literal "\n")

/-- The lines of the registers from `i` on; `n` are left. -/
def registersText (h : Host) (frame : BunFrame) : Nat → Nat → Option (List UInt8)
  | 0, _ => some []
  | n + 1, i => do
      let (reg, val) ← bunFrameRegisterGet h frame i
      let line ← registerText h reg val
      let rest ← registersText h frame n (i + 1)
      return line ++ rest

/-- The lines of a frame that was just read. -/
def frameText (p : PointerText) (h : Host) (frame : BunFrame) : Option (List UInt8) := do
  let registers ← registersText h frame frame.registerCount 0
  return literal "Frame: " ++ frame.symbolStr.1 ++ literal "\n"
    ++ literal "  PC: " ++ p.text (h.toSizeT frame.addr.toNat) ++ literal "\n"
    ++ literal "  Registers: " ++ formatZu frame.registerCount ++ literal "\n"
    ++ registers

/--
`bun_reader_print`, with `frame` in the local variable: what it puts out. It is `none`
if there is a read outside the payload or a `fprintf` without a meaning, or if the loop
is still running after `fuel` calls of `bun_frame_read`.
-/
def bunReaderPrint (p : PointerText) (h : Host) (mem : List UInt8) :
    Nat → BunReader → BunFrame → Option (List UInt8)
  | 0, _, _ => none
  | fuel + 1, reader, frame => do
      let (more, reader, frame) ← bunFrameRead h mem reader frame
      if more = true then
        let text ← frameText p h frame
        let rest ← bunReaderPrint p h mem fuel reader frame
        return text ++ rest
      else
        return []

end LibBun
