import TwinpassGateway.Foundation.Numeral

/-!
The kernel command line that `prom_init` puts together. A result of `none` is an access outside `arcs_cmdline`.
-/

namespace TwinpassGateway.Boot

open Foundation

def clSize : Nat := 256

abbrev CmdLine := CharArray clSize

/-! ### The string functions of the kernel -/

/-- `strncpy` of `asm-mips/string.h`, which does not fill up with zeros. -/
def strncpy (a : CmdLine) (p : Int) (src : CString) (n : Nat) : Option CmdLine :=
  a.store p ((src.chars ++ [0#8]).take n)

/-- Whether `strncmp` finds a text, which has no NUL, in front of the characters. -/
def strncmpEq : List U8 → List U8 → Option Bool
  | _, [] => some true
  | [], _ :: _ => none
  | c :: rest, d :: text => if c = d then strncmpEq rest text else some false

def strcat (a : CmdLine) (p : Int) (src : List U8) : Option CmdLine :=
  (a.strlen p).bind fun n => a.store (p + n) (src ++ [0#8])

/-- `snprintf`, with what the format gives; it returns how long that is, also when there is no room for all of it. -/
def snprintf (a : CmdLine) (p : Int) (size : Nat) (text : List U8) : Option (CmdLine × Int) :=
  if size = 0 then some (a, text.length)
  else (a.store p (text.take (size - 1) ++ [0#8])).map fun a => (a, text.length)

/-! ### The function -/

/-- The variables of the copying loop. The lengths of strings are exact: none is as long as the address space allows. -/
structure Copy where
  arcsCmdline : CmdLine
  dest : Int
  left : Int
  len : Int
  gotMem : Bool

def copyArg (s : Copy) (arg : CString) : Option (Bool × Copy) := do
  let copied ← strncpy s.arcsCmdline s.dest arg (sizeT s.left)
  let mem ← strncmpEq (copied.bytes.drop s.dest.toNat) (asciiText "mem=")
  let len : Int := arg.chars.length
  let s : Copy := { s with arcsCmdline := copied, left := s.left - (len + 1), len := len, gotMem := s.gotMem || mem }
  if s.left ≤ 0 then some (false, s)
  else do
    let spaced ← copied.store (s.dest + len) [ascii ' ']
    some (true, { s with arcsCmdline := spaced, dest := s.dest + len + 1 })

def copyArgs : Copy → List (Option CString) → Option Copy
  | s, [] => some s
  | s, none :: _ => some s
  | s, some arg :: rest => do
    let (goesOn, s) ← copyArg s arg
    if goesOn then copyArgs s rest else some s

/-- `if ( left > 0 ) dest[len] = '\0'`: the length is the one of the last argument. -/
def terminate (s : Copy) : Option Copy :=
  if s.left > 0 then (s.arcsCmdline.store (s.dest + s.len) [0#8]).map fun a => { s with arcsCmdline := a } else some s

def appendMem (memsz : U32) (s : Copy) : Option CmdLine :=
  if memsz ≠ 0 ∧ s.gotMem = false ∧ s.left > 8 then do
    let a ← s.arcsCmdline.store s.dest [ascii ' ']
    let a ← strcat a (s.dest + 1) (asciiText "mem=")
    let (a, i) ← snprintf a (s.dest + 5) (sizeT (s.left - 5)) (signedNumeral memsz.toInt)
    strcat a (s.dest + 5 + i) (asciiText "M")
  else some s.arcsCmdline

def fakeCmdline : CString := ⟨asciiText "console=ttyS0,115200", by decide⟩

def zeroed : CmdLine := ⟨List.replicate clSize 0#8, List.length_replicate⟩

def arguments (argc : Int) (argv : Nat → Option CString) : List (Option CString) :=
  (List.range' 1 (argc.toNat - 1)).map argv

def promInit (argc : Int) (argv : Nat → Option CString) (memsz : U32) : Option CmdLine :=
  let start : Copy := { arcsCmdline := zeroed, dest := 0, left := clSize - 1, len := 0, gotMem := false }
  if argc > 0 then do
    let s ← copyArgs start (arguments argc argv)
    let s ← terminate s
    appendMem memsz s
  else do
    let a ← strncpy zeroed 0 fakeCmdline 21
    appendMem memsz { start with arcsCmdline := a, left := 0 }

end TwinpassGateway.Boot
