import Mathlib.Data.List.Chain
import Mathlib.Logic.Function.Basic
import TwinpassGateway.Build.MkconfigLine
import TwinpassGateway.Foundation.Run

/-!
The main loop of `mkconfig.c`, with its stack of the files that include each other.
-/

namespace TwinpassGateway.Build

open Foundation

def maxNFiles : Nat := 256

def includeCommand : List U8 := [0x69#8, 0x6E#8, 0x63#8, 0x6C#8, 0x75#8, 0x64#8, 0x65#8, 0x20#8]

/-- A `FILE`: what is left to read, how often it was closed, and the one with the line that included it. -/
structure Stream where
  content : List U8
  closed : Nat
  parent : Option Nat

inductive Status where
  | running
  | exited (code : Nat)
  | undefined
  deriving DecidableEq

/-- The variables of `main`, the static `state` of `process_line`, and the streams in the order of their `fopen`. An entry
of `mkfile` keeps its stream when the stream is closed. -/
structure Mkconfig where
  mkindex : Int
  mkfile : Nat → Option Nat
  line : CharArray lineSize
  comment : Bool
  streams : Nat → Stream
  opened : Nat
  output : List ConfigLine
  status : Status

/-- The characters that `fgets` takes, up to a newline or to so many, and the rest. -/
def takeLine : Nat → List U8 → List U8 × List U8
  | 0, s => ([], s)
  | _ + 1, [] => ([], [])
  | n + 1, c :: s =>
    if c = newline then ([c], s)
    else
      let (chars, rest) := takeLine n s
      (c :: chars, rest)

/-- `fgets(line, sizeof(line), f)`; `none` at the end of the file. -/
def fgets (line : CharArray lineSize) (content : List U8) : Option (Option (CharArray lineSize) × List U8) :=
  if content = [] then none
  else
    let (chars, rest) := takeLine (lineSize - 1) content
    some (line.store 0 (chars ++ [0#8]), rest)

def strchr (ch : U8) : List U8 → Option (List U8)
  | [] => none
  | c :: s => if c = ch then some (c :: s) else if c = 0#8 then none else strchr ch s

/-- The loop `for (i=1; ...; i++)` over the bytes from `pname+1` on: how far it goes. -/
def nameScan : List U8 → Option Nat
  | [] => none
  | c :: s => if c = 0#8 ∨ isspace c then some 0 else (nameScan s).map (· + 1)

namespace Mkconfig

/-- `exit`, which closes the streams that are open. -/
def exit (s : Mkconfig) (code : Nat) : Mkconfig :=
  { s with
    streams := fun f => if (s.streams f).closed = 0 then { s.streams f with closed := 1 } else s.streams f
    status := .exited code }

def lost (s : Mkconfig) : Mkconfig := { s with status := .undefined }

/-- `mkfile[mkindex] = fopen(pname, "r")`, with what the file holds. -/
def fopen (s : Mkconfig) (content : Option (List U8)) (parent : Option Nat) : Mkconfig :=
  match content with
  | none => { s with mkfile := Function.update s.mkfile s.mkindex.toNat none }.exit 2
  | some content =>
    { s with
      mkfile := Function.update s.mkfile s.mkindex.toNat (some s.opened)
      streams := Function.update s.streams s.opened ⟨content, 0, parent⟩
      opened := s.opened + 1 }

def includeFile (files : List U8 → Option (List U8)) (s : Mkconfig) (f : Nat) : Mkconfig :=
  if s.mkindex + 1 ≥ maxNFiles then s
  else
    let s := { s with mkindex := s.mkindex + 1 }
    match strchr 0x20#8 s.line.bytes with
    | none => s
    | some pname =>
      match skipSpaces pname with
      | none => s.lost
      | some pname =>
        match nameScan pname.tail with
        | none => s.lost
        | some k =>
          let i := 1 + k
          match s.line.store (lineSize - pname.length + i : Nat) [0#8] with
          | none => s.lost
          | some line =>
            let s := { s with line }
            if i = 1 then s else s.fopen (files (line.text (lineSize - pname.length))) (some f)

def otherLine (s : Mkconfig) : Mkconfig :=
  match processLine s.comment s.line.bytes with
  | none => s.lost
  | some .exited => s.exit 3
  | some (.returned comment printed) => { s with comment, output := s.output ++ printed.toList }

def step (files : List U8 → Option (List U8)) (s : Mkconfig) : Mkconfig :=
  if s.status ≠ .running then s
  else if s.mkindex < 0 then s.exit 0
  else
    match s.mkfile s.mkindex.toNat with
    | none => s.lost
    | some f =>
      if (s.streams f).closed ≠ 0 then s.lost
      else
        match fgets s.line (s.streams f).content with
        | none =>
          { s with
            streams := Function.update s.streams f { s.streams f with closed := (s.streams f).closed + 1 }
            mkindex := s.mkindex - 1 }
        | some (none, _) => s.lost
        | some (some line, rest) =>
          let s := { s with line, streams := Function.update s.streams f { s.streams f with content := rest } }
          if includeCommand <+: line.bytes then s.includeFile files f else s.otherLine

/-- `main` up to its loop, with what the line's buffer holds before it is written. -/
def start (files : List U8 → Option (List U8)) (arg : Option (List U8)) (line : CharArray lineSize) : Mkconfig :=
  let s : Mkconfig := ⟨0, fun _ => none, line, false, fun _ => ⟨[], 0, none⟩, 0, [], .running⟩
  match arg with
  | none => s.exit 1
  | some arg => s.fopen (files arg) none

end Mkconfig

end TwinpassGateway.Build
