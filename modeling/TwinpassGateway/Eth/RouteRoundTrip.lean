import TwinpassGateway.Eth.RouteLines

/-!
A printed route entry that is written back with the command to add it: `proc_write_route` stores the words that were printed.
-/

namespace TwinpassGateway.Eth.Route

open Foundation LocalChars Parsers

/-! ### The words of an entry -/

theorem compare_words (row : Row) : (CompareTbl.ofWords row).words = row := by
  have ports : (row 2).extractLsb' 16 16 ++ (row 2).extractLsb' 0 16 = row 2 :=
    (BitVec.extractLsb'_append_extractLsb'_eq_extractLsb' rfl).trans BitVec.extractLsb'_eq_self
  funext k
  fin_cases k
  · rfl
  · rfl
  · exact ports
  · rfl

theorem action_words (row : Row) : (ActionTbl.ofWords row).words = row := by
  have join (low width wide : Nat) : (row 3).extractLsb' (low + width) wide ++ (row 3).extractLsb' low width =
      (row 3).extractLsb' low (wide + width) :=
    BitVec.extractLsb'_append_extractLsb'_eq_extractLsb' rfl
  have high : (row 0).extractLsb' 16 16 ++ (row 0).extractLsb' 0 16 = row 0 :=
    (BitVec.extractLsb'_append_extractLsb'_eq_extractLsb' rfl).trans BitVec.extractLsb'_eq_self
  funext k
  fin_cases k
  · exact high
  · rfl
  · rfl
  · show (row 3).extractLsb' 30 2 ++ (row 3).extractLsb' 24 6 ++ (row 3).extractLsb' 21 3 ++ (row 3).extractLsb' 20 1 ++
      (row 3).extractLsb' 19 1 ++ (row 3).extractLsb' 16 3 ++ (row 3).extractLsb' 8 8 ++ (row 3).extractLsb' 7 1 ++
        (row 3).extractLsb' 4 3 ++ (row 3).extractLsb' 3 1 ++ (row 3).extractLsb' 0 3 = row 3
    rw [join 24 6 2, join 21 3 8, join 20 1 11, join 19 1 12, join 16 3 13, join 8 8 16, join 7 1 24, join 4 3 25, join 3 1 28,
      join 0 3 29]
    exact BitVec.extractLsb'_eq_self

/-! ### The whole text -/

/-- A new DSCP and a VLAN index where they are enabled only, no bits that are reserved, and a key that can be added. -/
structure Normalised (c : CompareTbl) (a : ActionTbl) : Prop where
  reserved : c.res1 = 0
  dscp : a.newDscpEn = 0 → a.newDscp = 0
  vlan : a.vlanIns = 0 → a.vlanIx = 0
  source : c.srcIp ≠ 0
  destination : c.destIp ≠ 0

variable {d : Gathered} {c : CompareTbl} {a : ActionTbl} {n k : Nat}

theorem one_bit {x : BitVec 1} (some_bit : x ≠ 0) : x = 1 := by
  revert x
  decide

/-- What the lines of an action make of the action that has been gathered. -/
def ActionTbl.readOnto (a b : ActionTbl) : ActionTbl :=
  let b := { b with newIp := a.newIp, newPort := a.newPort }
  let b := { b with newDestMac54 := a.newDestMac54, newDestMac30 := a.newDestMac30 }
  let b := { b with routType := a.routType }
  let b := if a.newDscpEn ≠ 0 then b.setDscp (BitVec.ofNat 32 a.newDscp.toNat) else b
  let b := { b with mtuIx := a.mtuIx }
  let b := if a.vlanIns ≠ 0 then b.setVlan (BitVec.ofNat 32 a.vlanIx.toNat) else b
  let b := if a.vlanRm ≠ 0 then (if b.vlanRm = 0 then { b with vlanRm := 1 } else b) else b
  let b := { b with destList := a.destList, pppoeMode := a.pppoeMode }
  let b := { b with pppoeIx := a.pppoeIx }
  { b with destChid := a.destChid }

theorem dscp_read (normal : Normalised c a) {b : ActionTbl} (unset : b.newDscpEn = 0 ∧ b.newDscp = 0) :
    (if a.newDscpEn ≠ 0 then b.setDscp (BitVec.ofNat 32 a.newDscp.toNat) else b) =
      { b with newDscpEn := a.newDscpEn, newDscp := a.newDscp } := by
  split
  · rename_i enabled
    rw [ActionTbl.setDscp, if_pos unset.1, setWidth_ofNat (by decide), one_bit enabled]
  · rename_i disabled
    have off := not_not.mp disabled
    rw [off, normal.dscp off, ← unset.1, ← unset.2]

theorem vlan_read (normal : Normalised c a) {b : ActionTbl} (unset : b.vlanIns = 0 ∧ b.vlanIx = 0) :
    (if a.vlanIns ≠ 0 then b.setVlan (BitVec.ofNat 32 a.vlanIx.toNat) else b) =
      { b with vlanIns := a.vlanIns, vlanIx := a.vlanIx } := by
  split
  · rename_i enabled
    rw [ActionTbl.setVlan, if_pos unset.1, setWidth_ofNat (by decide), one_bit enabled]
  · rename_i disabled
    have off := not_not.mp disabled
    rw [off, normal.vlan off, ← unset.1, ← unset.2]

theorem remove_read {b : ActionTbl} (unset : b.vlanRm = 0) :
    (if a.vlanRm ≠ 0 then (if b.vlanRm = 0 then { b with vlanRm := 1 } else b) else b) = { b with vlanRm := a.vlanRm } := by
  rw [if_pos unset]
  split
  · rename_i enabled
    rw [one_bit enabled]
  · rename_i disabled
    rw [not_not.mp disabled, ← unset]

theorem readOnto_empty (normal : Normalised c a) : a.readOnto {} = a := by
  unfold ActionTbl.readOnto
  dsimp only
  rw [dscp_read normal ⟨rfl, rfl⟩, vlan_read normal ⟨rfl, rfl⟩, remove_read rfl]

/-- The whole entry. -/
theorem consumes_printRoute {newLabel macLabel : String} (small : n < 2 ^ 31) (unset : d.entry < 0) (known : d.type ≠ .auto)
    (newLine : ∀ d : Gathered, d.type ≠ .auto → ∀ ip port, Consumes (asciiText newLabel ++ printIpPort ip port ++ newline) d
      (d.withAction fun a => { a with newIp := ip, newPort := port }))
    (macLine : ∀ (d : Gathered) mac54 mac30, Consumes (asciiText macLabel ++ printMac mac54 mac30 ++ newline) d
      (d.withAction fun a => { a with newDestMac54 := mac54, newDestMac30 := mac30 })) :
    Consumes (printRoute newLabel macLabel n c a) d
      { d with entry := n, compareTbl := { c with res1 := d.compareTbl.res1 }, actionTbl := a.readOnto d.actionTbl } := by
  have compareLine {d : Gathered} : Consumes (asciiText "    compare\n") d d :=
    @consumes_other "compare" d _ "    " rfl (by decide) (by decide) (by decide)
  have actionLine {d : Gathered} : Consumes (asciiText "    action\n") d d :=
    @consumes_other "action" d _ "    " rfl (by decide) (by decide) (by decide)
  unfold printRoute
  rw [← List.append_assoc (printDestList _)]
  apply (consumes_entry small unset).append
  apply compareLine.append
  apply (consumes_src _ _).append
  apply (consumes_dest _ _).append
  apply actionLine.append
  refine (newLine _ ?_ _ _).append ?_
  · exact known
  apply (macLine _ _ _).append
  apply (consumes_routType _).append
  apply (consumes_dscp _).append
  apply (consumes_mtuIx _).append
  apply (consumes_vlanInsert _).append
  apply (consumes_vlanRemove _).append
  apply (consumes_destList _ _).append
  apply (consumes_pppoeIx _).append
  exact consumes_destChid _

/-! ### How long the text is -/

theorem decimal_length_le (some_digit : 0 < k) (below : n < 10 ^ k) : (decimal n).length ≤ k := by
  rw [decimal, signedNumeral_natCast]
  exact numeral_length_le (by decide) some_digit below

theorem highByte_lt (x : U32) : (x >>> 24).toNat < 256 := by
  rw [BitVec.toNat_ushiftRight, Nat.shiftRight_eq_div_pow]
  have := x.isLt
  omega

theorem lowByte_lt {m : Nat} (x : BitVec m) : (x &&& BitVec.ofNat m 0xFF).toNat < 256 := by
  rw [BitVec.toNat_and, BitVec.toNat_ofNat]
  exact Nat.lt_of_le_of_lt (Nat.and_le_right.trans (Nat.mod_le _ _)) (by decide)

theorem printIpPort_length_le (ip : U32) (port : BitVec 16) : (printIpPort ip port).length ≤ 21 := by
  have byte {n : Nat} (below : n < 256) : (decimal n).length ≤ 3 := decimal_length_le (by decide) (by omega)
  have first := byte (highByte_lt ip)
  have others (x : U32) : (decimal (x &&& 0xFF).toNat).length ≤ 3 := byte (lowByte_lt x)
  have port_ : (decimal port.toNat).length ≤ 5 := decimal_length_le (by decide) (by omega)
  have signs : (asciiText ".").length = 1 ∧ (asciiText ":").length = 1 := by decide
  have second_ := others (ip >>> 16)
  have third_ := others (ip >>> 8)
  have fourth := others ip
  simp only [printIpPort, List.length_append, signs.1, signs.2]
  omega

theorem printMac_length_le (mac54 : BitVec 16) (mac30 : U32) : (printMac mac54 mac30).length ≤ 17 := by
  have pair {n : Nat} (below : n < 256) : (hexPair n).length ≤ 2 := paddedNumeral_length_le (by decide) (by decide) below
  have first : (hexPair (mac54 >>> 8 &&& 0xFF).toNat).length ≤ 2 := pair (lowByte_lt _)
  have second_ : (hexPair (mac54 &&& 0xFF).toNat).length ≤ 2 := pair (lowByte_lt _)
  have third_ := pair (highByte_lt mac30)
  have others (x : U32) : (hexPair (x &&& 0xFF).toNat).length ≤ 2 := pair (lowByte_lt x)
  have fourth := others (mac30 >>> 16)
  have fifth := others (mac30 >>> 8)
  have sixth := others mac30
  have sign : (asciiText ":").length = 1 := by decide
  simp only [printMac, List.length_append, sign]
  omega

theorem printDestNames_length_le (destList : BitVec 8) (j : Nat) (k : Bool) (names : List String) :
    (printDestNames destList j k names).length ≤ (names.map fun name => 2 + (asciiText name).length).sum := by
  induction names generalizing j k with
  | nil => rfl
  | cons name names ih =>
    have comma : (asciiText ", ").length = 2 := by decide
    rw [printDestNames, List.map_cons, List.sum_cons]
    split
    · have later := ih (j + 1) true
      rw [List.length_append, List.length_append]
      split
      · omega
      · rw [List.length_nil]
        omega
    · have later := ih (j + 1) k
      omega

theorem newline_length : newline.length = 1 := by decide

theorem printDestList_length_le (destList : BitVec 8) : (printDestList destList).length ≤ 88 := by
  have names := printDestNames_length_le destList 0 false destNames
  have sum : (destNames.map fun name => 2 + (asciiText name).length).sum = 68 := by decide
  have labels : (asciiText "      dest list:   none\n").length = 24 ∧ (asciiText "      dest list:   ").length = 19 := by decide
  unfold printDestList
  split
  · omega
  · rw [List.length_append, List.length_append, newline_length]
    omega

theorem printRoutType_length_le (routType : BitVec 2) : (printRoutType routType).length ≤ 24 := by
  revert routType
  decide

theorem index_length_le (x : BitVec 3) : (decimal x.toNat).length ≤ 1 :=
  decimal_length_le (by decide) (by have := x.isLt; omega)

theorem printDscp_length_le (a : ActionTbl) : (printDscp a).length ≤ 43 := by
  have label : (asciiText "      new DSCP:    ").length = 19 := by decide
  have original : (asciiText "      new DSCP:    original (not modified)\n").length = 43 := by decide
  have number_ : (decimal a.newDscp.toNat).length ≤ 2 := decimal_length_le (by decide) (by have := a.newDscp.isLt; omega)
  unfold printDscp
  split
  · rw [List.length_append, List.length_append, newline_length]
    omega
  · omega

theorem printVlanInsert_length_le (a : ActionTbl) : (printVlanInsert a).length ≤ 35 := by
  have enable : (asciiText "      VLAN insert: enable, index ").length = 33 := by decide
  have disable : (asciiText "      VLAN insert: disable\n").length = 27 := by decide
  have number_ := index_length_le a.vlanIx
  unfold printVlanInsert
  split
  · rw [List.length_append, List.length_append, newline_length]
    omega
  · omega

theorem printPppoeMode_length_le (pppoeMode : BitVec 1) : (printPppoeMode pppoeMode).length ≤ 31 := by
  revert pppoeMode
  decide

theorem remove_length_le (vlanRm : BitVec 1) :
    (asciiText (if vlanRm ≠ 0 then "      VLAN remove: enable\n" else "      VLAN remove: disable\n")).length ≤ 27 := by
  revert vlanRm
  decide

theorem line_length_le {label text : List U8} {m k : Nat} (width : label.length = m) (short : text.length ≤ k) :
    (label ++ text ++ newline).length ≤ m + k + 1 := by
  rw [List.length_append, List.length_append, newline_length, width]
  omega

theorem append_length_le {text text' : List U8} {m k : Nat} (short : text.length ≤ m) (short' : text'.length ≤ k) :
    (text ++ text').length ≤ m + k := by
  rw [List.length_append]
  exact Nat.add_le_add short short'

theorem printRoute_length_le {newLabel macLabel : String} (newWidth : (asciiText newLabel).length = 19)
    (macWidth : (asciiText macLabel).length = 19) (below : n < 1000) (c : CompareTbl) (a : ActionTbl) :
    (printRoute newLabel macLabel n c a).length ≤ 500 := by
  have entry : (asciiText "  entry " ++ signedNumeral n ++ newline).length ≤ 12 :=
    line_length_le (by decide) (show (decimal n).length ≤ 3 from decimal_length_le (by decide) below)
  have compareLine : (asciiText "    compare\n").length ≤ 12 := by decide
  have source : (asciiText "      src:  " ++ printIpPort c.srcIp c.srcPort ++ newline).length ≤ 34 :=
    line_length_le (by decide) (printIpPort_length_le _ _)
  have destination : (asciiText "      dest: " ++ printIpPort c.destIp c.destPort ++ newline).length ≤ 34 :=
    line_length_le (by decide) (printIpPort_length_le _ _)
  have actionLine : (asciiText "    action\n").length ≤ 11 := by decide
  have address := line_length_le newWidth (printIpPort_length_le a.newIp a.newPort)
  have mac := line_length_le macWidth (printMac_length_le a.newDestMac54 a.newDestMac30)
  have mtu : (asciiText "      MTU index:   " ++ decimal a.mtuIx.toNat ++ newline).length ≤ 21 :=
    line_length_le (by decide) (index_length_le _)
  have pppoe : (asciiText "      PPPoE index: " ++ decimal a.pppoeIx.toNat ++ newline).length ≤ 21 :=
    line_length_le (by decide) (index_length_le _)
  have chid : (asciiText "      dest ch id:  " ++ decimal a.destChid.toNat ++ newline).length ≤ 21 :=
    line_length_le (by decide) (index_length_le _)
  have behind := append_length_le (printVlanInsert_length_le a) <| append_length_le (remove_length_le a.vlanRm) <|
    append_length_le (printDestList_length_le a.destList) <| append_length_le (printPppoeMode_length_le a.pppoeMode) <|
      append_length_le pppoe chid
  have action := append_length_le address <| append_length_le mac <| append_length_le (printRoutType_length_le a.routType) <|
    append_length_le (printDscp_length_le a) <| append_length_le mtu behind
  have all := append_length_le entry <| append_length_le compareLine <| append_length_le source <|
    append_length_le destination <| append_length_le actionLine action
  exact all.trans (by decide)

/-! ### The command -/

def Side.type : Side → TableType
  | .lan => .lan
  | .wan => .wan

def addCommand : Side → String
  | .lan => "add LAN"
  | .wan => "add WAN"

def printed (side : Side) (i : Nat) (compare action : Row) : List U8 :=
  match side with
  | .lan => printLanRoute i (.ofWords compare) (.ofWords action)
  | .wan => printWanRoute i (.ofWords compare) (.ofWords action)

def gathered (side : Side) (i : Nat) (compare action : Row) : Gathered where
  operation := .add
  type := side.type
  entry := i
  compareTbl := .ofWords compare
  actionTbl := .ofWords action

theorem consumes_printed {side : Side} {compare action : Row} (normal : Normalised (.ofWords compare) (.ofWords action))
    (small : n < 2 ^ 31) :
    Consumes (printed side n compare action) { operation := .add, type := side.type } (gathered side n compare action) := by
  have empty := readOnto_empty normal
  have reserved : { CompareTbl.ofWords compare with res1 := 0 } = CompareTbl.ofWords compare := by rw [← normal.reserved]
  cases side with
  | lan =>
    have reads := @consumes_printRoute { operation := .add, type := .lan } (.ofWords compare) (.ofWords action) n
      "      new src:     " "      new MAC:     " small (by decide) nofun (fun d known ip port => consumes_newSrc known ip port)
      fun d mac54 mac30 => @consumes_mac (ascii ':') d _ ":" "     " rfl colon_eq (by decide) (by decide) mac54 mac30
    dsimp only at reads
    rwa [empty, reserved] at reads
  | wan =>
    have reads := @consumes_printRoute { operation := .add, type := .wan } (.ofWords compare) (.ofWords action) n
      "      new dest:    " "      new MAC :    " small (by decide) nofun (fun d known ip port => consumes_newDest known ip port)
      fun d mac54 mac30 => @consumes_mac (ascii ' ') d _ " " ":    " rfl space_eq (by decide) (by decide) mac54 mac30
    dsimp only at reads
    rwa [empty, reserved] at reads

theorem blank_character {e : U8} (blank : aboveSpace e = false) : inToken e = false ∧ isLetter e = false := by
  revert e
  decide

theorem leads_add (side : Side) {e : U8} {rest : List U8} (blank : aboveSpace e = false) :
    Leads (idle {}) (skip (asciiText (addCommand side) ++ e :: rest)) (idle { operation := .add, type := side.type })
      (skip rest) := by
  have ended := (blank_character blank).1
  cases side with
  | lan =>
    have words : asciiText "add LAN" = asciiText "add" ++ ascii ' ' :: asciiText "LAN" := by decide
    rw [addCommand, words, List.append_assoc, List.cons_append]
    refine Leads.trans (@leads_still _ _ _ [] "add" (ascii ' ') .add nofun (by simp [command]) (by decide) fun _ _ => rfl :
      Leads _ _ (idle { operation := .add }) _) ?_
    exact @leads_still _ _ rest [] "LAN" e .lan nofun (by simp [command]) ended fun _ _ => rfl
  | wan =>
    have words : asciiText "add WAN" = asciiText "add" ++ ascii ' ' :: asciiText "WAN" := by decide
    rw [addCommand, words, List.append_assoc, List.cons_append]
    refine Leads.trans (@leads_still _ _ _ [] "add" (ascii ' ') .add nofun (by simp [command]) (by decide) fun _ _ => rfl :
      Leads _ _ (idle { operation := .add }) _) ?_
    exact @leads_still _ _ rest [] "WAN" e .wan nofun (by simp [command]) ended fun _ _ => rfl

theorem printed_head (side : Side) (i : Nat) (compare action : Row) :
    ∃ rest, printed side i compare action = ascii ' ' :: rest := by
  have label : asciiText "  entry " = ascii ' ' :: asciiText " entry " := by decide
  cases side <;> exact ⟨_, congrArg (fun first => first ++ signedNumeral i ++ newline ++ _) label⟩

/-- The command and the text of an entry, with blanks between them. -/
theorem leads_written {side : Side} {compare action : Row} (normal : Normalised (.ofWords compare) (.ofWords action))
    (small : n < 2 ^ 31) {gap : List U8} (blank : ∀ e ∈ gap, aboveSpace e = false) :
    Leads (idle {}) (skip (asciiText (addCommand side) ++ (gap ++ printed side n compare action)))
      (idle (gathered side n compare action)) [] := by
  obtain ⟨rest, head⟩ := printed_head side n compare action
  have letters : ∀ e ∈ gap, isLetter e = false := fun e member => (blank_character (blank e member)).2
  have first : ∃ e tail, gap ++ printed side n compare action = e :: tail ∧ aboveSpace e = false := by
    cases gap with
    | nil => exact ⟨_, _, head, by decide⟩
    | cons e gap => exact ⟨e, _, rfl, blank e List.mem_cons_self⟩
  obtain ⟨e, tail, shape, ended⟩ := first
  have add := @leads_add side e tail ended
  rw [← skip_cons (blank_character ended).2 tail, ← shape, skip_append letters] at add
  have reads := @consumes_printed n side compare action normal small []
  rw [List.append_nil] at reads
  exact add.trans reads

/-- A text that is read to its end. -/
theorem routeTokens_eq {text : List U8} (leads : Leads (idle {}) (skip text) (idle d) []) (short : text.length < 1024)
    (start : LocalChars 1024) {fuel : Nat} (enough : text.length < fuel) :
    routeTokens fuel {} { buf := start.withText text, len := text.length } = pure (idle d) := by
  have before : Cursor.Before { buf := start.withText text, len := text.length } (skip text) :=
    Cursor.before_skip rfl rfl (shows_withText short)
  obtain ⟨s, left, ended, more, same⟩ := leads _ fuel before (Nat.lt_of_le_of_lt (skip_length_le text) enough)
  obtain ⟨left, rfl⟩ := Nat.exists_eq_add_of_le' (show 1 ≤ left from more)
  obtain ⟨t, none⟩ := getToken_end ended
  refine same.trans ?_
  rw [routeTokens, Routine.run_then none]
  rfl

/-! ### The entry that is stored -/

variable {w : Words} {side : Side} {i : Nat} {compare action : Row}

theorem type_side (side : Side) : side.type.side = side := by cases side <;> rfl

/-- The search ends at the entry itself or finds nothing, since no other one has the key. -/
theorem addEntry_named (inside : i < routNum w side)
    (only : ∀ j < routNum w side, j ≠ i → ¬ SameKey (compareRow w side j) compare) :
    addEntry w { operation := .add, type := side.type, entry := i, compare := compare, action := action } = some (some i) := by
  obtain ⟨keyed, found, -, passed, -⟩ := search_table fun j below => @sameKey_eq w side j below compare
  unfold addEntry
  dsimp only
  rw [type_side, found, if_neg (Int.not_lt.mpr (Int.natCast_nonneg i))]
  by_cases here : keyed < routNum w side
  · have same : keyed = i := by_contra fun other => only keyed here other (passed here)
    simp only [bind, Option.bind, here, if_true]
    rw [same]
    rfl
  · have known : ¬ (¬ (side.type = .lan ∧ (i : Int) < routNum w .lan) ∧
        ¬ (side.type = .wan ∧ (i : Int) < routNum w .wan)) := by
      rintro ⟨lan, wan⟩
      cases side with
      | lan => exact lan ⟨rfl, by exact_mod_cast inside⟩
      | wan => exact wan ⟨rfl, by exact_mod_cast inside⟩
    simp only [bind, Option.bind, here, if_false]
    rw [if_neg known, Int.toNat_natCast]
    rfl

theorem edit_named (inside : i < routNum w side)
    (only : ∀ j < routNum w side, j ≠ i → ¬ SameKey (compareRow w side j) compare)
    (source : compare 0 ≠ 0) (destination : compare 1 ≠ 0) :
    edit w { operation := .add, type := side.type, entry := i, compare := compare, action := action } =
      some (putEntry w side i compare action) := by
  have known : side.type ≠ .auto := by cases side <;> nofun
  unfold edit
  dsimp only
  rw [if_neg nofun, if_pos ⟨rfl, known, source, destination⟩, addEntry_named inside only, type_side]
  exact storeRows_eq inside compare action

theorem written_short (inside : i < 512) {gap : List U8} (short : gap.length ≤ 500) :
    (asciiText (addCommand side) ++ (gap ++ printed side i compare action)).length < 1024 := by
  have command_ : (asciiText (addCommand side)).length = 7 := by cases side <;> decide
  have entry : (printed side i compare action).length ≤ 500 := by
    cases side with
    | lan => exact printRoute_length_le (by decide) (by decide) (by omega) _ _
    | wan => exact printRoute_length_le (by decide) (by decide) (by omega) _ _
  rw [List.length_append, List.length_append, command_]
  omega

/-- A printed entry that is written back, behind the command to add it, is stored as it was. -/
theorem printed_route_returns (inside : i < routNum w side) (normal : Normalised (.ofWords compare) (.ofWords action))
    (only : ∀ j < routNum w side, j ≠ i → ¬ SameKey (compareRow w side j) compare)
    {gap : List U8} (blank : ∀ e ∈ gap, aboveSpace e = false) (short : gap.length ≤ 500) {u : UserBuffer}
    (given : Given u (asciiText (addCommand side) ++ (gap ++ printed side i compare action))) (start : LocalChars 1024)
    {fuel : Nat} (enough : u.count < fuel) :
    ∃ w', procWriteRoute u fuel start w = pure (u.count, w') ∧ compareRow w' side i = compare ∧ actionRow w' side i = action := by
  have below := routNum_lt w side
  have fits := @written_short side i compare action (by omega) gap short
  have leads := @leads_written i side compare action normal (by omega) gap blank
  have read := routeTokens_eq leads fits start (given.1 ▸ enough)
  have stored := @edit_named w side i compare action inside only normal.source normal.destination
  refine ⟨putEntry w side i compare action, ?_, putEntry_rows inside compare action⟩
  rw [procWriteRoute, Routine.run_then (copyIn_eq given fits start), Routine.run_then read]
  have command_ : (gathered side i compare action).command =
      { operation := .add, type := side.type, entry := i, compare := compare, action := action } := by
    rw [Gathered.command, gathered, compare_words, action_words]
  dsimp only [idle]
  rw [command_, stored]

def oneCompare : Row := ![0xC0A80102, 0x0A000001, 0x04D20050, 0]

def oneAction : Row := ![0x1F900011, 0x22334455, 0x0A000002, 0xC2330519]

def oneText : List U8 := asciiText (addCommand .wan) ++ (newline ++ printed .wan 7 oneCompare oneAction)

theorem one_route_returns :
    ∃ w', procWriteRoute (.ofText oneText oneText.length) 1024 { cells := fun _ => none } initWords = pure (oneText.length, w') ∧
      compareRow w' .wan 7 = oneCompare ∧ actionRow w' .wan 7 = oneAction := by
  have normal : Normalised (.ofWords oneCompare) (.ofWords oneAction) :=
    ⟨by decide, by decide, by decide, by decide, by decide⟩
  refine printed_route_returns (by decide) normal (fun j inside _ same => ?_) (by decide) (by decide)
    ⟨rfl, fun _ _ => rfl⟩ _ (written_short (by decide) (by decide))
  have zero : compareRow initWords .wan j 0 = 0 := initWords_above (inRange_low (inRange_compare inside (Nat.zero_lt_succ 3)))
  exact absurd (zero.symm.trans same.1) (by decide)

end TwinpassGateway.Eth.Route
