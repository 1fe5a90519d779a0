import VDebugger.Machine.Memory

namespace VDebugger

open Machine

abbrev UWORD := Word

abbrev WORD := Word

-- `struct user_regs_struct`
structure RegsStruct where
  r15 : UWORD := 0
  r14 : UWORD := 0
  r13 : UWORD := 0
  r12 : UWORD := 0
  rbp : UWORD := 0
  rbx : UWORD := 0
  r11 : UWORD := 0
  r10 : UWORD := 0
  r9 : UWORD := 0
  r8 : UWORD := 0
  rax : UWORD := 0
  rcx : UWORD := 0
  rdx : UWORD := 0
  rsi : UWORD := 0
  rdi : UWORD := 0
  orig_rax : UWORD := 0
  rip : UWORD := 0
  cs : UWORD := 0
  eflags : UWORD := 0
  rsp : UWORD := 0
  ss : UWORD := 0
  fs_base : UWORD := 0
  gs_base : UWORD := 0
  ds : UWORD := 0
  es : UWORD := 0
  fs : UWORD := 0
  gs : UWORD := 0

-- The enumerators stand in the source's order: `REGISTER` numbers a register by
-- its place in `user_regs_struct`, not by its DWARF number.
inductive REGISTER where
  | r15 | r14 | r13 | r12 | rbp | rbx | r11 | r10 | r9 | r8 | rax | rcx | rdx | rsi | rdi
  | orig_rax | rip | cs | eflags | rsp | ss | fs_base | gs_base | ds | es | fs | gs
  deriving DecidableEq, Repr

namespace REGISTER

def all : List REGISTER :=
  [.r15, .r14, .r13, .r12, .rbp, .rbx, .r11, .r10, .r9, .r8, .rax, .rcx, .rdx, .rsi, .rdi,
    .orig_rax, .rip, .cs, .eflags, .rsp, .ss, .fs_base, .gs_base, .ds, .es, .fs, .gs]

end REGISTER

-- The field a `REGISTER` names, read through the pointer `get_register` returns.
def RegsStruct.get (regs : RegsStruct) : REGISTER → UWORD
  | .r15 => regs.r15
  | .r14 => regs.r14
  | .r13 => regs.r13
  | .r12 => regs.r12
  | .rbp => regs.rbp
  | .rbx => regs.rbx
  | .r11 => regs.r11
  | .r10 => regs.r10
  | .r9 => regs.r9
  | .r8 => regs.r8
  | .rax => regs.rax
  | .rcx => regs.rcx
  | .rdx => regs.rdx
  | .rsi => regs.rsi
  | .rdi => regs.rdi
  | .orig_rax => regs.orig_rax
  | .rip => regs.rip
  | .cs => regs.cs
  | .eflags => regs.eflags
  | .rsp => regs.rsp
  | .ss => regs.ss
  | .fs_base => regs.fs_base
  | .gs_base => regs.gs_base
  | .ds => regs.ds
  | .es => regs.es
  | .fs => regs.fs
  | .gs => regs.gs

-- The field written through that pointer.
def RegsStruct.set (regs : RegsStruct) (reg : REGISTER) (value : UWORD) : RegsStruct :=
  match reg with
  | .r15 => { regs with r15 := value }
  | .r14 => { regs with r14 := value }
  | .r13 => { regs with r13 := value }
  | .r12 => { regs with r12 := value }
  | .rbp => { regs with rbp := value }
  | .rbx => { regs with rbx := value }
  | .r11 => { regs with r11 := value }
  | .r10 => { regs with r10 := value }
  | .r9 => { regs with r9 := value }
  | .r8 => { regs with r8 := value }
  | .rax => { regs with rax := value }
  | .rcx => { regs with rcx := value }
  | .rdx => { regs with rdx := value }
  | .rsi => { regs with rsi := value }
  | .rdi => { regs with rdi := value }
  | .orig_rax => { regs with orig_rax := value }
  | .rip => { regs with rip := value }
  | .cs => { regs with cs := value }
  | .eflags => { regs with eflags := value }
  | .rsp => { regs with rsp := value }
  | .ss => { regs with ss := value }
  | .fs_base => { regs with fs_base := value }
  | .gs_base => { regs with gs_base := value }
  | .ds => { regs with ds := value }
  | .es => { regs with es := value }
  | .fs => { regs with fs := value }
  | .gs => { regs with gs := value }

theorem RegsStruct.get_set (regs : RegsStruct) (reg other : REGISTER) (value : UWORD) :
    (regs.set reg value).get other = if other = reg then value else regs.get other := by
  by_cases h : other = reg
  · subst other
    cases reg <;> rfl
  · rw [if_neg h]
    cases reg <;> cases other <;> first | rfl | exact absurd rfl h

-- The `switch` of `get_register` on a register number: the field pointed to, or
-- `none` where the function returns 1.
def getRegister (reg : Nat) : Option REGISTER :=
  REGISTER.all[reg]?

end VDebugger
