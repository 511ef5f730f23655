import TwinpassGateway.Eth.RouteText

/-!
The files below `/proc/eth` that show the tables of the packet processor: how `danube_ppa_eth_d2.c` prints them on a page,
and how they are read by `proc_file_read` (`fs/proc/generic.c`) for a program that asks for the next bytes until it gets
none.
-/

namespace TwinpassGateway.Eth.ReadProc

open Foundation Parsers Route

/-! ### A page -/

inductive Piece where
  /-- `llen = sprintf(pstr, ...); pstr += llen; len += llen;` -/
  | direct (str : List U8)
  /-- Printed to `str`, of which the part behind `off` is copied. -/
  | copied (str : List U8)
  /-- The same, and then `if ( len >= len_max ) goto PROC_READ_..._OVERRUN_END;` -/
  | tested (str : List U8)

def Piece.text : Piece → List U8
  | direct str => str
  | copied str => str
  | tested str => str

structure Page where
  written : List U8
  len : Nat

/-- `memcpy` of a piece that reaches behind `off`, or of one that lies there. -/
def Page.copy (off : Nat) (s : Page) (str : List U8) : Page where
  written :=
    if s.len ≤ off ∧ off < s.len + str.length then s.written ++ str.drop (off - s.len)
    else if off < s.len then s.written ++ str
    else s.written
  len := s.len + str.length

/-- What a `read_proc` function gives: the page, from which `*start` is, the result and `*eof`. -/
structure Answer where
  page : List U8
  n : Int
  eof : Bool

def readPieces (off count : Nat) (s : Page) : List Piece → Answer
  | [] => ⟨s.written, s.len - off, true⟩
  | .direct str :: rest => readPieces off count ⟨s.written ++ str, s.len + str.length⟩ rest
  | .copied str :: rest => readPieces off count (s.copy off str) rest
  | .tested str :: rest =>
    if off + count ≤ (s.copy off str).len then
      ⟨(s.copy off str).written, (s.copy off str).len - str.length - off, false⟩
    else readPieces off count (s.copy off str) rest

def readFile (pieces : List Piece) (off count : Nat) : Answer := readPieces off count ⟨[], 0⟩ pieces

/-! ### The tables -/

def spaced (width : Nat) (v : Int) : List U8 :=
  List.replicate (width - (signedNumeral v).length) (ascii ' ') ++ signedNumeral v

def compareRow (w : Words) (side : Side) (i : Nat) : Row := fun k => w (compareTbl w side i + k)

def actionRow (w : Words) (side : Side) (i : Nat) : Row := fun k => w (actionTbl w side i + k)

def routeEntries (w : Words) (side : Side) (print : Int → CompareTbl → ActionTbl → List U8) : List (List U8) :=
  ((List.range (routNum w side)).filter fun i => compareRow w side i 0 ≠ 0 ∧ compareRow w side i 1 ≠ 0).map fun (i : Nat) =>
    print i (.ofWords (compareRow w side i)) (.ofWords (actionRow w side i))

def routeTitle : List U8 := asciiText "Wan Routing Table\n"

def routeTexts (w : Words) : List (List U8) :=
  routeEntries w .wan printWanRoute ++ asciiText "Lan Routing Table\n" :: routeEntries w .lan printLanRoute

/-- There is no test behind the first title. -/
def procReadRoute (w : Words) : Nat → Nat → Answer := readFile (.copied routeTitle :: (routeTexts w).map .tested)

def VLAN_CFG_TBL (i : Nat) : Nat := 0x5170 + i

def PPPOE_CFG_TBL (i : Nat) : Nat := 0x5180 + i

def MTU_CFG_TBL (i : Nat) : Nat := 0x5190 + i

def LAN_ROUT_MAC_CFG_TBL (i : Nat) : Nat := 0x51A0 + i * 2

def WAN_ROUT_MAC_CFG_TBL (i : Nat) : Nat := 0x51B0 + i * 2

def ROUT_FWD_HIT_STAT_TBL (i : Nat) : Nat := 0x57E0 + i

/-- `  %d: %4d %3d %4d` -/
def vlanLine (w : Words) (i : Nat) : List U8 :=
  let vlan := w (VLAN_CFG_TBL i)
  asciiText "  " ++ signedNumeral (i + 1) ++ asciiText ": " ++ spaced 4 (vlan >>> 13).toInt ++ asciiText " " ++
    spaced 3 (vlan >>> 12 &&& 0x01).toInt ++ asciiText " " ++ spaced 4 (vlan &&& 0x0FFF).toInt ++ newline

/-- `  %d: %d` -/
def numberLine (i : Nat) (v : U32) : List U8 :=
  asciiText "  " ++ signedNumeral (i + 1) ++ asciiText ": " ++ signedNumeral v.toInt ++ newline

/-- `    %d: %02X:%02X:%02X:%02X:%02X:%02X` -/
def macLine (w : Words) (table : Nat → Nat) (i : Nat) : List U8 :=
  let mac52 := w (table i)
  let mac10 := w (table i + 1)
  asciiText "    " ++ signedNumeral (i + 1) ++ asciiText ": " ++ hexPair (mac52 >>> 24).toNat ++ asciiText ":" ++
    hexPair (mac52 >>> 16 &&& 0xFF).toNat ++ asciiText ":" ++ hexPair (mac52 >>> 8 &&& 0xFF).toNat ++ asciiText ":" ++
      hexPair (mac52 &&& 0xFF).toNat ++ asciiText ":" ++ hexPair (mac10 >>> 24).toNat ++ asciiText ":" ++
        hexPair (mac10 >>> 16 &&& 0xFF).toNat ++ newline

/-- The bits of the hit table, the high one of each word first. -/
def hitBits (w : Words) : List Bool :=
  (List.range 12).flatMap fun i => (List.range 32).map fun j => (w (ROUT_FWD_HIT_STAT_TBL i)).getMsbD j

/-- The line of the bits from bit `n` on, which are ten or, at the end, four. -/
def hitLine (w : Words) (n : Nat) : List U8 :=
  asciiText "  " ++ spaced 3 n ++ asciiText " - " ++ spaced 3 (n + 9) ++ asciiText ":" ++
    (((hitBits w).drop (n - 1)).take 10).flatMap (fun bit => asciiText (if bit then " 1" else " 0")) ++ newline

inductive Table where
  | vlan
  | pppoe
  | mtu
  | hit
  | mac

def Table.titles : Table → List (List U8)
  | vlan => [asciiText "VLAN Table:\n", asciiText "  No. Prio Cfi  ID\n"]
  | pppoe => [asciiText "PPPoE Table (Session ID):\n"]
  | mtu => [asciiText "MTU Table:\n"]
  | hit => [asciiText "Unicast Hit Table:\n", asciiText "             1 2 3 4 5 6 7 8 9 10\n"]
  | mac => [asciiText "MAC Table:\n", asciiText "  WAN\n"]

def Table.lines (w : Words) : Table → List (List U8)
  | vlan => (List.range 8).map (vlanLine w)
  | pppoe => (List.range 8).map fun i => numberLine i (w (PPPOE_CFG_TBL i))
  | mtu => (List.range 8).map fun i => numberLine i (w (MTU_CFG_TBL i))
  | hit => (List.range 39).map fun i => hitLine w (10 * i + 1)
  | mac =>
    (List.range 8).map (macLine w WAN_ROUT_MAC_CFG_TBL) ++
      asciiText "  LAN\n" :: (List.range 8).map (macLine w LAN_ROUT_MAC_CFG_TBL)

def Table.read (w : Words) (table : Table) : Nat → Nat → Answer :=
  readFile (table.titles.map .direct ++ (table.lines w).map .tested)

def procReadVlan (w : Words) : Nat → Nat → Answer := Table.vlan.read w

def procReadPppoe (w : Words) : Nat → Nat → Answer := Table.pppoe.read w

def procReadMtu (w : Words) : Nat → Nat → Answer := Table.mtu.read w

def procReadHit (w : Words) : Nat → Nat → Answer := Table.hit.read w

def procReadMac (w : Words) : Nat → Nat → Answer := Table.mac.read w

/-! ### Reading -/

/-- The variables of `proc_file_read`, and what has been copied to the buffer of the caller. -/
structure Call where
  ppos : Nat
  nbytes : U32
  buf : List U8 := []
  retval : Int := 0
  eof : Bool := false
  returned : Bool := false

/-- `PROC_BLOCK_SIZE`, with pages of 4096 bytes. -/
def procBlockSize : Nat := 4096 - 1024

/-- An iteration of the loop, for a `read_proc` function that sets `*start` to the page. The buffer can be written to, and
`copy_to_user` does not know how long it is. -/
def Call.step (readProc : Nat → Nat → Answer) (c : Call) : Call :=
  if c.nbytes = 0 ∨ c.eof then { c with returned := true }
  else
    let answer := readProc c.ppos (min procBlockSize c.nbytes.toNat)
    if answer.n = 0 then { c with returned := true }
    else if answer.n < 0 then { c with retval := if c.retval = 0 then answer.n else c.retval, returned := true }
    else
      { c with
        ppos := c.ppos + answer.n.toNat
        nbytes := c.nbytes - BitVec.ofInt 32 answer.n
        buf := c.buf ++ answer.page.take answer.n.toNat
        retval := c.retval + answer.n
        eof := c.eof || answer.eof }

/-- A program that reads a file with a buffer of one size until a read gives it nothing. -/
structure Program where
  call : Call
  out : List U8 := []
  ended : Bool := false

def Program.start (n : U32) : Program where
  call := { ppos := 0, nbytes := n }

def Program.step (readProc : Nat → Nat → Answer) (n : U32) (p : Program) : Program :=
  if p.ended then p
  else if p.call.returned = false then { p with call := p.call.step readProc }
  else if 0 < p.call.retval then
    { p with
      call := { ppos := p.call.ppos, nbytes := n }
      out := p.out ++ p.call.buf }
  else { p with ended := true }

/-- The program has come to the end of the file as it sees it, with this text. -/
def Gets (readProc : Nat → Nat → Answer) (n : U32) (text : List U8) : Prop :=
  ∃ k, ((Program.step readProc n)^[k] (Program.start n)).ended = true ∧
    ((Program.step readProc n)^[k] (Program.start n)).out = text

end TwinpassGateway.Eth.ReadProc
