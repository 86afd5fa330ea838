import UefiDebugger.Platform

/-!
# The register tables

`gRegisterOffsets` and `GdbTargetInfo` of the two architectures.  `OFFSET_OF` of a field of the
architecture's context structure is a parameter.
-/
namespace UefiDebugger
open HexText

namespace X64

/-- `gRegisterOffsets` of `GdbStubX64.c`. -/
def gRegisterOffsets (OFFSET_OF : String → Nat) : List RegisterOffsetData :=
  [ ⟨OFFSET_OF "Rax", 8, some (text "rax"), text "int64"⟩,
    ⟨OFFSET_OF "Rbx", 8, some (text "rbx"), text "int64"⟩,
    ⟨OFFSET_OF "Rcx", 8, some (text "rcx"), text "int64"⟩,
    ⟨OFFSET_OF "Rdx", 8, some (text "rdx"), text "int64"⟩,
    ⟨OFFSET_OF "Rsi", 8, some (text "rsi"), text "int64"⟩,
    ⟨OFFSET_OF "Rdi", 8, some (text "rdi"), text "int64"⟩,
    ⟨OFFSET_OF "Rbp", 8, some (text "rbp"), text "int64"⟩,
    ⟨OFFSET_OF "Rsp", 8, some (text "rsp"), text "int64"⟩,
    ⟨OFFSET_OF "R8", 8, some (text "r8"), text "int64"⟩,
    ⟨OFFSET_OF "R9", 8, some (text "r9"), text "int64"⟩,
    ⟨OFFSET_OF "R10", 8, some (text "r10"), text "int64"⟩,
    ⟨OFFSET_OF "R11", 8, some (text "r11"), text "int64"⟩,
    ⟨OFFSET_OF "R12", 8, some (text "r12"), text "int64"⟩,
    ⟨OFFSET_OF "R13", 8, some (text "r13"), text "int64"⟩,
    ⟨OFFSET_OF "R14", 8, some (text "r14"), text "int64"⟩,
    ⟨OFFSET_OF "R15", 8, some (text "r15"), text "int64"⟩,
    ⟨OFFSET_OF "Rip", 8, some (text "rip"), text "int64"⟩,
    ⟨OFFSET_OF "Rflags", 8, some (text "eflags"), text "int64"⟩,
    ⟨OFFSET_OF "Cs", 4, some (text "cs"), text "int32"⟩,
    ⟨OFFSET_OF "Ss", 4, some (text "ss"), text "int32"⟩,
    ⟨OFFSET_OF "Ds", 4, some (text "ds"), text "int32"⟩,
    ⟨OFFSET_OF "Es", 4, some (text "es"), text "int32"⟩,
    ⟨OFFSET_OF "Fs", 4, some (text "fs"), text "int32"⟩,
    ⟨OFFSET_OF "Gs", 4, some (text "gs"), text "int32"⟩,
    ⟨OFFSET_OF "Cr0", 8, some (text "cr0"), text "int64"⟩,
    ⟨OFFSET_OF "Cr2", 8, some (text "cr2"), text "int64"⟩,
    ⟨OFFSET_OF "Cr3", 8, some (text "cr3"), text "int64"⟩,
    ⟨OFFSET_OF "Cr4", 8, some (text "cr4"), text "int64"⟩,
    ⟨OFFSET_OF "Cr8", 8, some (text "cr8"), text "int64"⟩,
    ⟨regNotPresent, 4, some (text "fctrl"), text "int"⟩,
    ⟨regNotPresent, 4, some (text "fstat"), text "int"⟩,
    ⟨regNotPresent, 4, some (text "ftag"), text "int"⟩,
    ⟨regNotPresent, 4, some (text "fiseg"), text "int"⟩,
    ⟨regNotPresent, 4, some (text "fioff"), text "int"⟩,
    ⟨regNotPresent, 4, some (text "foseg"), text "int"⟩,
    ⟨regNotPresent, 4, some (text "fooff"), text "int"⟩,
    ⟨regNotPresent, 10, some (text "fop"), text "i387_ext"⟩,
    ⟨regNotPresent, 10, some (text "st0"), text "i387_ext"⟩,
    ⟨regNotPresent, 10, some (text "st1"), text "i387_ext"⟩,
    ⟨regNotPresent, 10, some (text "st2"), text "i387_ext"⟩,
    ⟨regNotPresent, 10, some (text "st3"), text "i387_ext"⟩,
    ⟨regNotPresent, 10, some (text "st4"), text "i387_ext"⟩,
    ⟨regNotPresent, 10, some (text "st5"), text "i387_ext"⟩,
    ⟨regNotPresent, 10, some (text "st6"), text "i387_ext"⟩,
    ⟨regNotPresent, 10, some (text "st7"), text "i387_ext"⟩ ]

/-- `GdbTargetInfo` of `GdbStubX64.c`. -/
def gdbTargetInfo : TargetInfo := ⟨text "i386:x86-64", text "org.gnu.gdb.i386.core"⟩

end X64

namespace AArch64

/-- `gRegisterOffsets` of `GdbStubAarch64.c`. -/
def gRegisterOffsets (OFFSET_OF : String → Nat) : List RegisterOffsetData :=
  [ ⟨OFFSET_OF "X0", 8, some (text "x0"), text "int64"⟩,
    ⟨OFFSET_OF "X1", 8, some (text "x1"), text "int64"⟩,
    ⟨OFFSET_OF "X2", 8, some (text "x2"), text "int64"⟩,
    ⟨OFFSET_OF "X3", 8, some (text "x3"), text "int64"⟩,
    ⟨OFFSET_OF "X4", 8, some (text "x4"), text "int64"⟩,
    ⟨OFFSET_OF "X5", 8, some (text "x5"), text "int64"⟩,
    ⟨OFFSET_OF "X6", 8, some (text "x6"), text "int64"⟩,
    ⟨OFFSET_OF "X7", 8, some (text "x7"), text "int64"⟩,
    ⟨OFFSET_OF "X8", 8, some (text "x8"), text "int64"⟩,
    ⟨OFFSET_OF "X9", 8, some (text "x9"), text "int64"⟩,
    ⟨OFFSET_OF "X10", 8, some (text "x10"), text "int64"⟩,
    ⟨OFFSET_OF "X11", 8, some (text "x11"), text "int64"⟩,
    ⟨OFFSET_OF "X12", 8, some (text "x12"), text "int64"⟩,
    ⟨OFFSET_OF "X13", 8, some (text "x13"), text "int64"⟩,
    ⟨OFFSET_OF "X14", 8, some (text "x14"), text "int64"⟩,
    ⟨OFFSET_OF "X15", 8, some (text "x15"), text "int64"⟩,
    ⟨OFFSET_OF "X16", 8, some (text "x16"), text "int64"⟩,
    ⟨OFFSET_OF "X17", 8, some (text "x17"), text "int64"⟩,
    ⟨OFFSET_OF "X18", 8, some (text "x18"), text "int64"⟩,
    ⟨OFFSET_OF "X19", 8, some (text "x19"), text "int64"⟩,
    ⟨OFFSET_OF "X20", 8, some (text "x20"), text "int64"⟩,
    ⟨OFFSET_OF "X21", 8, some (text "x21"), text "int64"⟩,
    ⟨OFFSET_OF "X22", 8, some (text "x22"), text "int64"⟩,
    ⟨OFFSET_OF "X23", 8, some (text "x23"), text "int64"⟩,
    ⟨OFFSET_OF "X24", 8, some (text "x24"), text "int64"⟩,
    ⟨OFFSET_OF "X25", 8, some (text "x25"), text "int64"⟩,
    ⟨OFFSET_OF "X26", 8, some (text "x26"), text "int64"⟩,
    ⟨OFFSET_OF "X27", 8, some (text "x27"), text "int64"⟩,
    ⟨OFFSET_OF "X28", 8, some (text "x28"), text "int64"⟩,
    ⟨OFFSET_OF "FP", 8, some (text "x29"), text "int64"⟩,
    ⟨OFFSET_OF "LR", 8, some (text "x30"), text "int64"⟩,
    ⟨OFFSET_OF "SP", 8, some (text "sp"), text "data_ptr"⟩,
    ⟨OFFSET_OF "ELR", 8, some (text "pc"), text "code_ptr"⟩,
    ⟨OFFSET_OF "FPSR", 8, some (text "fpcr"), text "int64"⟩,
    ⟨OFFSET_OF "SPSR", 4, some (text "cpsr"), text "int32"⟩ ]

/-- `GdbTargetInfo` of `GdbStubAarch64.c`. -/
def gdbTargetInfo : TargetInfo := ⟨text "aarch64", text "org.gnu.gdb.aarch64.core"⟩

end AArch64

/-- What the register commands rely on: a register fits into ten bytes, and the digits of all of
them into a response of `0x1000` characters. -/
structure TableFits (rs : List RegisterOffsetData) : Prop where
  register : ∀ r ∈ rs, r.size ≤ 10
  response : 2 * (rs.map RegisterOffsetData.size).sum ≤ 0x1000

/-- The sizes do not depend on where the registers are. -/
theorem tableFits_of_sizes {rs : List RegisterOffsetData} (rs' : List RegisterOffsetData)
    (h : rs.map RegisterOffsetData.size = rs'.map RegisterOffsetData.size) (hfits : TableFits rs') :
    TableFits rs := by
  refine ⟨fun r hr => ?_, by rw [h]; exact hfits.response⟩
  have hsize : r.size ∈ rs'.map RegisterOffsetData.size := h ▸ List.mem_map_of_mem hr
  obtain ⟨r', hr', heq⟩ := List.mem_map.mp hsize
  exact heq ▸ hfits.register r' hr'

theorem X64.tableFits (OFFSET_OF : String → Nat) : TableFits (X64.gRegisterOffsets OFFSET_OF) :=
  tableFits_of_sizes (X64.gRegisterOffsets fun _ => 0) rfl ⟨by decide +kernel, by decide +kernel⟩

theorem AArch64.tableFits (OFFSET_OF : String → Nat) :
    TableFits (AArch64.gRegisterOffsets OFFSET_OF) :=
  tableFits_of_sizes (AArch64.gRegisterOffsets fun _ => 0) rfl
  ⟨by decide +kernel, by decide +kernel⟩

end UefiDebugger
