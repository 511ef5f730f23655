import TwinpassGateway.Foundation.Numeral
import TwinpassGateway.Eth.ProcParsers
import TwinpassGateway.Eth.RouteTable

/-!
The text form of the route entries in `danube_ppa_eth_d2.c`: `print_wan_route` and `print_lan_route`, and the loop over the
tokens with which `proc_write_route` reads it.
-/

namespace TwinpassGateway.Eth.Route

open Foundation Parsers

/-! ### The entries -/

structure CompareTbl where
  srcIp : U32 := 0
  destIp : U32 := 0
  srcPort : BitVec 16 := 0
  destPort : BitVec 16 := 0
  res1 : U32 := 0

/-- `wan_rout_forward_action_tbl` and `lan_rout_forward_action_tbl`, which have the same bits: the new address and port are
those of the destination in one and of the source in the other. -/
structure ActionTbl where
  newPort : BitVec 16 := 0
  newDestMac54 : BitVec 16 := 0
  newDestMac30 : U32 := 0
  newIp : U32 := 0
  routType : BitVec 2 := 0
  newDscp : BitVec 6 := 0
  mtuIx : BitVec 3 := 0
  vlanIns : BitVec 1 := 0
  vlanRm : BitVec 1 := 0
  vlanIx : BitVec 3 := 0
  destList : BitVec 8 := 0
  pppoeMode : BitVec 1 := 0
  pppoeIx : BitVec 3 := 0
  newDscpEn : BitVec 1 := 0
  destChid : BitVec 3 := 0

/-- The words of the struct, whose first bit fields are the high ones. -/
def CompareTbl.words (t : CompareTbl) : Row := ![t.srcIp, t.destIp, t.srcPort ++ t.destPort, t.res1]

def CompareTbl.ofWords (row : Row) : CompareTbl where
  srcIp := row 0
  destIp := row 1
  srcPort := (row 2).extractLsb' 16 16
  destPort := (row 2).extractLsb' 0 16
  res1 := row 3

def ActionTbl.words (t : ActionTbl) : Row :=
  ![t.newPort ++ t.newDestMac54, t.newDestMac30, t.newIp,
    t.routType ++ t.newDscp ++ t.mtuIx ++ t.vlanIns ++ t.vlanRm ++ t.vlanIx ++ t.destList ++ t.pppoeMode ++ t.pppoeIx ++
      t.newDscpEn ++ t.destChid]

def ActionTbl.ofWords (row : Row) : ActionTbl where
  newPort := (row 0).extractLsb' 16 16
  newDestMac54 := (row 0).extractLsb' 0 16
  newDestMac30 := row 1
  newIp := row 2
  routType := (row 3).extractLsb' 30 2
  newDscp := (row 3).extractLsb' 24 6
  mtuIx := (row 3).extractLsb' 21 3
  vlanIns := (row 3).extractLsb' 20 1
  vlanRm := (row 3).extractLsb' 19 1
  vlanIx := (row 3).extractLsb' 16 3
  destList := (row 3).extractLsb' 8 8
  pppoeMode := (row 3).extractLsb' 7 1
  pppoeIx := (row 3).extractLsb' 4 3
  newDscpEn := (row 3).extractLsb' 3 1
  destChid := (row 3).extractLsb' 0 3

/-! ### Printing -/

def destNames : List String := ["ETH0", "ETH1", "CPU0", "EXT_INT1", "EXT_INT2", "EXT_INT3", "EXT_INT4", "EXT_INT5"]

def decimal (n : Nat) : List U8 := signedNumeral n

def hexPair (n : Nat) : List U8 := paddedNumeral 2 16 n

def newline : List U8 := asciiText "\n"

/-- `%d.%d.%d.%d:%d` -/
def printIpPort (ip : U32) (port : BitVec 16) : List U8 :=
  decimal (ip >>> 24).toNat ++ asciiText "." ++ decimal (ip >>> 16 &&& 0xFF).toNat ++ asciiText "." ++
    decimal (ip >>> 8 &&& 0xFF).toNat ++ asciiText "." ++ decimal (ip &&& 0xFF).toNat ++ asciiText ":" ++
      decimal port.toNat

/-- `%02X:%02X:%02X:%02X:%02X:%02X` -/
def printMac (mac54 : BitVec 16) (mac30 : U32) : List U8 :=
  hexPair (mac54 >>> 8 &&& 0xFF).toNat ++ asciiText ":" ++ hexPair (mac54 &&& 0xFF).toNat ++ asciiText ":" ++
    hexPair (mac30 >>> 24).toNat ++ asciiText ":" ++ hexPair (mac30 >>> 16 &&& 0xFF).toNat ++ asciiText ":" ++
      hexPair (mac30 >>> 8 &&& 0xFF).toNat ++ asciiText ":" ++ hexPair (mac30 &&& 0xFF).toNat

def printRoutType (routType : BitVec 2) : List U8 :=
  if routType = 1 then asciiText "      route type:  IPv4\n"
  else if routType = 2 then asciiText "      route type:  NAT\n"
  else if routType = 3 then asciiText "      route type:  NAPT\n"
  else asciiText "      route type:  NULL\n"

def printDscp (a : ActionTbl) : List U8 :=
  if a.newDscpEn ≠ 0 then asciiText "      new DSCP:    " ++ decimal a.newDscp.toNat ++ newline
  else asciiText "      new DSCP:    original (not modified)\n"

def printVlanInsert (a : ActionTbl) : List U8 :=
  if a.vlanIns ≠ 0 then asciiText "      VLAN insert: enable, index " ++ decimal a.vlanIx.toNat ++ newline
  else asciiText "      VLAN insert: disable\n"

/-- The loop over the bits of `dest_list`, from bit `j` on; `k` says that a name has been printed. -/
def printDestNames (destList : BitVec 8) : Nat → Bool → List String → List U8
  | _, _, [] => []
  | j, k, name :: rest =>
    if destList.getLsbD j then
      (if k then asciiText ", " else []) ++ asciiText name ++ printDestNames destList (j + 1) true rest
    else printDestNames destList (j + 1) k rest

def printDestList (destList : BitVec 8) : List U8 :=
  if destList = 0 then asciiText "      dest list:   none\n"
  else asciiText "      dest list:   " ++ printDestNames destList 0 false destNames ++ newline

def printPppoeMode (pppoeMode : BitVec 1) : List U8 :=
  if pppoeMode ≠ 0 then asciiText "      PPPoE mode:  termination\n" else asciiText "      PPPoE mode:  transparent\n"

/-- What the two functions share; their lines differ in two places. -/
def printRoute (newLabel macLabel : String) (i : Int) (c : CompareTbl) (a : ActionTbl) : List U8 :=
  asciiText "  entry " ++ signedNumeral i ++ newline ++
  (asciiText "    compare\n" ++
  (asciiText "      src:  " ++ printIpPort c.srcIp c.srcPort ++ newline ++
  (asciiText "      dest: " ++ printIpPort c.destIp c.destPort ++ newline ++
  (asciiText "    action\n" ++
  (asciiText newLabel ++ printIpPort a.newIp a.newPort ++ newline ++
  (asciiText macLabel ++ printMac a.newDestMac54 a.newDestMac30 ++ newline ++
  (printRoutType a.routType ++
  (printDscp a ++
  (asciiText "      MTU index:   " ++ decimal a.mtuIx.toNat ++ newline ++
  (printVlanInsert a ++
  (asciiText (if a.vlanRm ≠ 0 then "      VLAN remove: enable\n" else "      VLAN remove: disable\n") ++
  (printDestList a.destList ++
  (printPppoeMode a.pppoeMode ++
  (asciiText "      PPPoE index: " ++ decimal a.pppoeIx.toNat ++ newline ++
  (asciiText "      dest ch id:  " ++ decimal a.destChid.toNat ++ newline)))))))))))))))

def printWanRoute : Int → CompareTbl → ActionTbl → List U8 := printRoute "      new dest:    " "      new MAC :    "

def printLanRoute : Int → CompareTbl → ActionTbl → List U8 := printRoute "      new src:     " "      new MAC:     "

/-! ### Reading -/

inductive Keyword where
  | add
  | del
  | lan
  | wan
  | new
  | src
  | dest
  | mac
  | route
  | type
  | dscp
  | mtu
  | index
  | vlan
  | insert
  | remove
  | list
  | pppoe
  | mode
  | ch
  | id
  | delete
  | disable
  | enable
  | transparent
  | termination
  | null
  | ipv4
  | nat
  | napt
  | entry
  | help
  deriving DecidableEq

def command : List (String × Keyword) :=
  [("add", .add), ("del", .del), ("LAN", .lan), ("WAN", .wan), ("new", .new), ("src", .src), ("dest", .dest), ("MAC", .mac),
    ("route", .route), ("type", .type), ("DSCP", .dscp), ("MTU", .mtu), ("index", .index), ("VLAN", .vlan),
    ("insert", .insert), ("remove", .remove), ("list", .list), ("PPPoE", .pppoe), ("mode", .mode), ("ch", .ch), ("id", .id),
    ("delete", .delete), ("disable", .disable), ("enable", .enable), ("transparent", .transparent),
    ("termination", .termination), ("NULL", .null), ("IPv4", .ipv4), ("NAT", .nat), ("NAPT", .napt), ("entry", .entry),
    ("help", .help)]

structure Gathered where
  operation : Operation := .none
  type : TableType := .auto
  entry : Int := -1
  compareTbl : CompareTbl := {}
  actionTbl : ActionTbl := {}

structure RouteVars where
  state : Nat := 0
  prevCmd : Option Keyword := none
  data : Gathered := {}

namespace RouteVars

def reset (v : RouteVars) : RouteVars := { v with state := 0, prevCmd := none }

def withCompare (v : RouteVars) (f : CompareTbl → CompareTbl) : RouteVars :=
  { v with data := { v.data with compareTbl := f v.data.compareTbl } }

def withAction (v : RouteVars) (f : ActionTbl → ActionTbl) : RouteVars :=
  { v with data := { v.data with actionTbl := f v.data.actionTbl } }

/-- The first word of a command: `new`, `route`, `MTU`, `VLAN` and `PPPoE`. -/
def first (v : RouteVars) (k : Keyword) : RouteVars :=
  if v.state = 0 then { v with state := 1, prevCmd := some k } else v.reset

end RouteVars

section Reading

variable {size : Nat}

/-- `ignore_space(&p2, &len)` -/
def skipSpace (s : Cursor size) : Parser (Cursor size) := do
  let (p2, len) ← ignoreSpace s.buf (← s.second) s.len
  pure { s with p2 := some p2, len := len }

/-- `get_number(&p2, &len, is_hex)` -/
def number (isHex : Bool) (s : Cursor size) : Parser (U32 × Cursor size) := do
  let (p2, len, value) ← getNumber s.buf isHex (← s.second) s.len 0
  pure (value, { s with p2 := some p2, len := len })

/-- The loop of `get_ip_port` and `get_mac`, whose values are zero at first. -/
def getValues (isHex : Bool) : Nat → Cursor size → Parser (List U32 × Cursor size)
  | 0, s => pure ([], s)
  | n + 1, s => do
    let s ← skipSpace s
    if s.len = 0 then pure (List.replicate (n + 1) 0, s)
    else do
      let (val, s) ← number isHex s
      let (vals, s) ← getValues isHex n s
      pure (val :: vals, s)

def getIpPort : Cursor size → Parser (List U32 × Cursor size) := getValues false 5

def getMac : Cursor size → Parser (List U32 × Cursor size) := getValues true 6

/-- `(val[0] << 24) | (val[1] << 16) | (val[2] << 8) | val[3]`, from `val[i]` on. -/
def fourBytes (val : List U32) (i : Nat) : U32 :=
  (val.getD i 0 <<< 24) ||| (val.getD (i + 1) 0 <<< 16) ||| (val.getD (i + 2) 0 <<< 8) ||| val.getD (i + 3) 0

/-- `strincmp` with the whole of a literal. -/
def strincmp (buf : LocalChars size) (p : Nat) : List U8 → Parser Int
  | [] => pure 0
  | d :: rest => do
    let c ← buf.load p
    if c = 0#8 then pure (-d.toInt)
    else if folded c ≠ folded d then pure (folded c - folded d)
    else strincmp buf (p + 1) rest

/-- `(len == n || (len > n && (p2[n] <= ' ' || p2[n] == ','))) && strincmp(p2, word, n) == 0` -/
def wordAt (s : Cursor size) (word : String) : Parser Bool := do
  let p2 ← s.second
  let n := word.length
  let ended ← (if s.len = n then pure true
    else if s.len > n then do
      let c ← s.buf.load (p2 + n : Nat)
      pure (!aboveSpace c || c = ascii ',')
    else pure false : Parser Bool)
  if ended then return (← strincmp s.buf p2 (asciiText word)) = 0 else pure false

/-- `p2 += n; len -= n` -/
def advance (s : Cursor size) (n : Nat) : Parser (Cursor size) := do
  let p2 ← s.second
  pure { s with p2 := some (p2 + n), len := s.len - n }

def isDigit (c : U8) : Bool := 0x30#8 ≤ c && c ≤ 0x39#8

/-- `len && *p2 >= '0' && *p2 <= '9'` -/
def digitAt (s : Cursor size) : Parser Bool :=
  if s.len = 0 then pure false else do return isDigit (← s.buf.load (← s.second))

/-- The bit of the first name in the text, and how long it is. -/
def findDest (s : Cursor size) : Nat → List String → Parser (Option (U32 × Nat))
  | _, [] => pure none
  | j, name :: rest => do
    if ← wordAt s name then pure (some (1#32 <<< j, name.length)) else findDest s (j + 1) rest

def readDestList : Nat → U32 → Cursor size → Parser (U32 × Cursor size)
  | 0, _, _ => .waits
  | fuel + 1, mask, s => do
    let s ← skipSpace s
    if s.len = 0 then pure (mask, s)
    else
      match ← findDest s 0 destNames with
      | some (bit, n) => do
        let s ← advance s n
        readDestList fuel (mask ||| bit) s
      | none => pure (mask, s)

/-- Whether a colon or a digit is next behind blanks. -/
def colonOrDigit (buf : LocalChars size) (p1 : Nat) : Nat → Parser Bool
  | 0 => pure false
  | llen + 1 => do
    let c ← buf.load p1
    if !aboveSpace c then colonOrDigit buf (p1 + 1) llen else pure (c = ascii ':' || isDigit c)

def second (prev k : Keyword) (v : RouteVars) (s : Cursor size) : Parser (RouteVars × Cursor size) :=
  if v.state = 1 ∧ v.prevCmd = some prev then do
    let s ← skipSpace s
    pure ({ v with state := 2, prevCmd := some k }, s)
  else pure (v.reset, s)

/-- The cases of `new src` and `new dest`, which set the type when it is not known. -/
def newIpPort (type : TableType) (v : RouteVars) (s : Cursor size) : Parser (RouteVars × Cursor size) := do
  let v := if v.data.type = .auto then { v with data := { v.data with type := type } } else v
  let (val, s) ← getIpPort s
  pure (v.withAction fun a => { a with newIp := fourBytes val 0, newPort := (val.getD 4 0).setWidth 16 }, s)

def caseSrc (v : RouteVars) (s : Cursor size) : Parser (RouteVars × Cursor size) := do
  if v.state = 1 ∧ v.prevCmd = some .new then do
    let (v, s) ← newIpPort .lan v s
    pure (v.reset, s)
  else if v.state = 1 ∨ v.state = 0 then do
    let (val, s) ← getIpPort s
    pure ((v.withCompare fun c => { c with srcIp := fourBytes val 0, srcPort := (val.getD 4 0).setWidth 16 }).reset, s)
  else pure (v.reset, s)

def caseDest (v : RouteVars) (s : Cursor size) : Parser (RouteVars × Cursor size) := do
  if v.state = 1 ∧ v.prevCmd = some .new then do
    let (v, s) ← newIpPort .wan v s
    pure (v.reset, s)
  else if v.state = 1 ∨ v.state = 0 then do
    let colon ← (if s.colon then pure true else do colonOrDigit s.buf (← s.second) s.len : Parser Bool)
    if colon then do
      let (val, s) ← getIpPort s
      pure ((v.withCompare fun c => { c with destIp := fourBytes val 0, destPort := (val.getD 4 0).setWidth 16 }).reset, s)
    else pure ({ v with state := 1, prevCmd := some .dest }, s)
  else pure (v.reset, s)

def caseMac (v : RouteVars) (s : Cursor size) : Parser (RouteVars × Cursor size) := do
  if v.state = 1 ∧ v.prevCmd = some .new then do
    let (val, s) ← getMac s
    let mac54 := (val.getD 0 0 <<< 8) ||| val.getD 1 0
    pure ((v.withAction fun a => { a with newDestMac54 := mac54.setWidth 16, newDestMac30 := fourBytes val 2 }).reset, s)
  else pure (v.reset, s)

def ActionTbl.setDscp (val : U32) (a : ActionTbl) : ActionTbl :=
  if a.newDscpEn = 0 then { a with newDscpEn := 1, newDscp := val.setWidth 6 } else a

def ActionTbl.setVlan (val : U32) (a : ActionTbl) : ActionTbl :=
  if a.vlanIns = 0 then { a with vlanIns := 1, vlanIx := val.setWidth 3 } else a

def caseDscp (v : RouteVars) (s : Cursor size) : Parser (RouteVars × Cursor size) := do
  if v.state = 1 ∧ v.prevCmd = some .new then do
    let s ← skipSpace s
    if ← digitAt s then do
      let (val, s) ← number false s
      pure ((v.withAction (.setDscp val)).reset, s)
    else if ← wordAt s "original" then do
      let s ← advance s 8
      pure (v.reset, s)
    else pure (v.reset, s)
  else pure (v.reset, s)

def caseIndex (v : RouteVars) (s : Cursor size) : Parser (RouteVars × Cursor size) := do
  if v.state = 1 ∧ (v.prevCmd = some .mtu ∨ v.prevCmd = some .vlan ∨ v.prevCmd = some .pppoe) then do
    let (val, s) ← argument false s
    let v := v.withAction fun a =>
      if v.prevCmd = some .mtu then { a with mtuIx := val.setWidth 3 }
      else if v.prevCmd = some .vlan then a.setVlan val
      else { a with pppoeIx := val.setWidth 3 }
    pure (v.reset, s)
  else pure (v.reset, s)

def caseList (fuel : Nat) (v : RouteVars) (s : Cursor size) : Parser (RouteVars × Cursor size) := do
  if v.state = 1 ∧ v.prevCmd = some .dest then do
    let (mask, s) ← readDestList fuel 0 s
    pure ((v.withAction fun a => { a with destList := mask.setWidth 8 }).reset, s)
  else pure (v.reset, s)

/-- `len > 5 && (p2[5] <= ' ' || p2[5] == ':') && strincmp(p2, "index", 5) == 0` -/
def indexAt (s : Cursor size) : Parser Bool := do
  let p2 ← s.second
  if s.len > 5 then do
    let c ← s.buf.load (p2 + 5 : Nat)
    if !aboveSpace c || c = ascii ':' then return (← strincmp s.buf p2 (asciiText "index")) = 0 else pure false
  else pure false

def caseEnable (enable : Bool) (v : RouteVars) (s : Cursor size) : Parser (RouteVars × Cursor size) := do
  if v.state = 2 ∧ v.prevCmd = some .insert ∧ enable then do
    let s ← skipSpace s
    if ← indexAt s then do
      let s ← advance s 6
      let (val, s) ← argument false s
      pure ((v.withAction (.setVlan val)).reset, s)
    else pure (v.reset, s)
  else if v.state = 2 ∧ v.prevCmd = some .remove ∧ enable then
    pure ((v.withAction fun a => if a.vlanRm = 0 then { a with vlanRm := 1 } else a).reset, s)
  else pure (v.reset, s)

def caseId (v : RouteVars) (s : Cursor size) : Parser (RouteVars × Cursor size) := do
  if v.state = 2 ∧ v.prevCmd = some .ch then do
    let (val, s) ← argument false s
    pure ((v.withAction fun a => { a with destChid := val.setWidth 3 }).reset, s)
  else pure (v.reset, s)

def third (prev : Keyword) (f : ActionTbl → ActionTbl) (v : RouteVars) : RouteVars :=
  if v.state = 2 ∧ v.prevCmd = some prev then (v.withAction f).reset else v.reset

def caseEntry (v : RouteVars) (s : Cursor size) : Parser (RouteVars × Cursor size) := do
  if v.state = 0 ∧ v.data.entry < 0 then do
    let s ← skipSpace s
    if ← digitAt s then do
      let (val, s) ← number false s
      pure ({ v with data := { v.data with entry := val.toInt } }.reset, s)
    else pure (v.reset, s)
  else pure (v.reset, s)

def setOperation (operation : Operation) (v : RouteVars) : RouteVars :=
  if v.state = 0 ∧ v.data.operation = .none then { v with data := { v.data with operation := operation } }.reset else v.reset

def setType (type : TableType) (v : RouteVars) : RouteVars :=
  if v.state = 0 ∧ v.data.type = .auto then { v with data := { v.data with type := type } }.reset else v.reset

def routeCommand (fuel : Nat) (v : RouteVars) (s : Cursor size) : Keyword → Parser (RouteVars × Cursor size)
  | .add => pure (setOperation .add v, s)
  | .del | .delete => pure (setOperation .delete v, s)
  | .lan => pure (setType .lan v, s)
  | .wan => pure (setType .wan v, s)
  | .new => pure (v.first .new, s)
  | .src => caseSrc v s
  | .dest => caseDest v s
  | .mac => caseMac v s
  | .route => pure (v.first .route, s)
  | .type => second .route .type v s
  | .dscp => caseDscp v s
  | .mtu => pure (v.first .mtu, s)
  | .index => caseIndex v s
  | .vlan => pure (v.first .vlan, s)
  | .insert => second .vlan .insert v s
  | .remove => second .vlan .remove v s
  | .list => caseList fuel v s
  | .pppoe => pure (v.first .pppoe, s)
  | .mode => second .pppoe .mode v s
  | .ch => pure (if v.state = 1 ∧ v.prevCmd = some .dest then { v with state := 2, prevCmd := some .ch } else v.reset, s)
  | .id => caseId v s
  | .disable => caseEnable false v s
  | .enable => caseEnable true v s
  | .transparent => pure (third .mode (fun a => { a with pppoeMode := 0 }) v, s)
  | .termination => pure (third .mode (fun a => { a with pppoeMode := 1 }) v, s)
  | .null => pure (third .type (fun a => { a with routType := 0 }) v, s)
  | .ipv4 => pure (third .type (fun a => { a with routType := 1 }) v, s)
  | .nat => pure (third .type (fun a => { a with routType := 2 }) v, s)
  | .napt => pure (third .type (fun a => { a with routType := 3 }) v, s)
  | .entry => caseEntry v s
  | .help => pure (v.reset, s)

def findCommandAt (buf : LocalChars size) (p1 : Nat) : List (String × Keyword) → Parser (Option Keyword)
  | [] => pure none
  | (word, k) :: rest => do
    if (← stricmp buf p1 (asciiText word)) = 0 then pure (some k) else findCommandAt buf p1 rest

def routeTokens : Nat → RouteVars → Cursor size → Parser RouteVars
  | 0, _, _ => .waits
  | fuel + 1, v, s => do
    let (tlen, s) ← getToken s
    if tlen = 0 then pure v
    else do
      let found ← findCommandAt s.buf s.p1 command
      let (v, s) ← (match found with
        | some k => routeCommand (fuel + 1) v s k
        | none => pure (v.reset, s) : Parser (RouteVars × Cursor size))
      let p2 ← s.second
      routeTokens fuel v { s with p1 := p2, colon := true }

end Reading

def Gathered.command (d : Gathered) : Command where
  operation := d.operation
  type := d.type
  entry := d.entry
  compare := d.compareTbl.words
  action := d.actionTbl.words

/-- `proc_write_route`; an edit that leaves the tables is a bad access. -/
def procWriteRoute (u : UserBuffer) (fuel : Nat) (start : LocalChars 1024) (w : Words) : Parser (Nat × Words) := do
  let s ← copyIn u start
  let v ← routeTokens fuel {} s
  match edit w v.data.command with
  | some w => pure (u.count, w)
  | none => .stops .outside

end TwinpassGateway.Eth.Route
