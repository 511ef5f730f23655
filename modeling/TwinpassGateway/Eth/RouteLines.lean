import TwinpassGateway.Eth.RouteArguments

/-!
The lines of a printed route entry, read one after the other by the loop over the tokens.
-/

namespace TwinpassGateway.Eth.Route

open Foundation LocalChars Parsers

/-! ### Rounds of the loop -/

/-- Some rounds of the loop in `proc_write_route` come from one text to another, with enough rounds left. -/
def Leads (v : RouteVars) (text : List U8) (v' : RouteVars) (text' : List U8) : Prop :=
  ∀ (s : Cursor 1024) (fuel : Nat), s.Before text → text.length < fuel →
    ∃ (s' : Cursor 1024) (fuel' : Nat), s'.Before text' ∧ text'.length < fuel' ∧
      routeTokens fuel v s = routeTokens fuel' v' s'

variable {v v' v'' : RouteVars} {text text' text'' rest word gap : List U8} {w : String} {c : U8} {k : Keyword}

theorem Leads.trans (first : Leads v text v' text') (then_ : Leads v' text' v'' text'') : Leads v text v'' text'' := by
  intro s fuel before enough
  obtain ⟨s', fuel', before, enough, same⟩ := first s fuel before enough
  obtain ⟨s'', fuel'', before, enough, same'⟩ := then_ s' fuel' before enough
  exact ⟨s'', fuel'', before, enough, same.trans same'⟩

def isToken : List U8 → Bool
  | [] => false
  | d :: word => isLetter d && (d :: word).all inToken

theorem isToken_letter (token : isToken word = true) : ∃ d w, word = d :: w ∧ isLetter d = true := by
  cases word with
  | nil => cases token
  | cons d w => exact ⟨d, w, rfl, ((Bool.and_eq_true _ _).mp token).1⟩

theorem isToken_all (token : isToken word = true) : ∀ d ∈ word, inToken d = true := by
  cases word with
  | nil => cases token
  | cons d w => exact List.all_eq_true.mp ((Bool.and_eq_true _ _).mp token).2

def commandOf (word : List U8) : List (String × Keyword) → Option Keyword
  | [] => none
  | (w, k) :: rest => if compareText (word ++ [0#8]) (asciiText w) = 0 then some k else commandOf word rest

theorem findCommandAt_eq {size p : Nat} {buf : LocalChars size} (shows_ : buf.Shows p (word ++ [0#8]))
    (commands : List (String × Keyword)) : findCommandAt buf p commands = pure (commandOf word commands) := by
  induction commands with
  | nil => rfl
  | cons first commands ih =>
    obtain ⟨w, k⟩ := first
    rw [findCommandAt, Routine.run_then (stricmp_eq shows_ (by simp) (asciiText w)), commandOf]
    split
    · rfl
    · exact ih

theorem skip_token (token : isToken word = true) (blank : ∀ d ∈ gap, isLetter d = false) (text : List U8) :
    skip (gap ++ (word ++ text)) = word ++ text := by
  obtain ⟨d, w, rfl, letter⟩ := isToken_letter token
  rw [skip_append blank]
  exact skip_letter letter _

theorem skip_cons (blank : isLetter c = false) (text : List U8) : skip (c :: text) = skip text := by
  refine @skip_append [c] (fun d member => ?_) text
  rw [List.mem_singleton.mp member]
  exact blank

/-- One round, for a token and what its command does. -/
theorem leads_round (blank : ∀ d ∈ gap, isLetter d = false) (token : isToken word = true) (ended : inToken c = false)
    (act : ∀ (s : Cursor 1024) (fuel : Nat), s.At (0#8 :: rest) → s.colon = decide (c = ascii ':') →
      rest.length < fuel → ∃ t, (match commandOf word command with
        | some k => routeCommand fuel v s k
        | none => pure (v.reset, s) : Parser (RouteVars × Cursor 1024)) = pure (v', t) ∧ t.At text)
    (shorter : text.length ≤ rest.length + 1) : Leads v (skip (gap ++ (word ++ c :: rest))) v' (skip text) := by
  rw [skip_token token blank]
  intro s fuel before enough
  obtain ⟨t, got, at_, colon, shows_⟩ := getToken_eq before (isToken_letter token) (isToken_all token) ended
  obtain ⟨d, w, shape, -⟩ := isToken_letter token
  have nonempty : word.length ≠ 0 := by
    rw [shape]
    exact Nat.succ_ne_zero _
  rw [List.length_append, List.length_cons] at enough
  obtain ⟨fuel, rfl⟩ := Nat.exists_eq_add_of_le' (show 1 ≤ fuel by omega)
  obtain ⟨t', acted, at_⟩ := act t (fuel + 1) at_ colon (by omega)
  obtain ⟨p, second_, before⟩ := at_.next
  refine ⟨_, fuel, before, Nat.lt_of_le_of_lt (skip_length_le text) (by omega), ?_⟩
  rw [routeTokens, Routine.run_then got]
  dsimp only
  rw [if_neg nonempty, Routine.run_then (findCommandAt_eq shows_ command)]
  refine (Routine.run_then acted _).trans ?_
  dsimp only
  rw [Routine.run_then second_]

/-- Every command is a token, and is found. -/
theorem command_words : ∀ e ∈ command, isToken (asciiText e.1) = true ∧ commandOf (asciiText e.1) command = some e.2 := by
  decide +kernel

theorem leads_command (blank : ∀ d ∈ gap, isLetter d = false) (listed : (w, k) ∈ command) (ended : inToken c = false)
    (act : ∀ (s : Cursor 1024) (fuel : Nat), s.At (0#8 :: rest) → s.colon = decide (c = ascii ':') →
      rest.length < fuel → ∃ t, routeCommand fuel v s k = pure (v', t) ∧ t.At text)
    (shorter : text.length ≤ rest.length + 1) : Leads v (skip (gap ++ (asciiText w ++ c :: rest))) v' (skip text) := by
  obtain ⟨token, found⟩ := command_words _ listed
  refine leads_round blank token ended (fun s fuel at_ colon enough => ?_) shorter
  rw [found]
  exact act s fuel at_ colon enough

/-- The same where the text begins with the token. -/
theorem leads_next (listed : (w, k) ∈ command) (ended : inToken c = false)
    (act : ∀ (s : Cursor 1024) (fuel : Nat), s.At (0#8 :: rest) → s.colon = decide (c = ascii ':') →
      rest.length < fuel → ∃ t, routeCommand fuel v s k = pure (v', t) ∧ t.At text)
    (shorter : text.length ≤ rest.length + 1) : Leads v (skip (asciiText w ++ c :: rest)) v' (skip text) :=
  @leads_command v v' text rest [] w c k nofun listed ended act shorter

/-- A command that reads nothing. -/
theorem leads_still (blank : ∀ d ∈ gap, isLetter d = false) (listed : (w, k) ∈ command) (ended : inToken c = false)
    (act : ∀ (s : Cursor 1024) (fuel : Nat), routeCommand fuel v s k = pure (v', s)) :
    Leads v (skip (gap ++ (asciiText w ++ c :: rest))) v' (skip rest) := by
  have leads := @leads_command v v' (0#8 :: rest) rest gap w c k blank listed ended
    (fun s fuel at_ _ _ => ⟨s, act s fuel, at_⟩) le_rfl
  rwa [skip_cons (by decide)] at leads

/-- A word that is no command. -/
theorem leads_other (blank : ∀ d ∈ gap, isLetter d = false) (token : isToken word = true)
    (found : commandOf word command = none) (ended : inToken c = false) :
    Leads v (skip (gap ++ (word ++ c :: rest))) v.reset (skip rest) := by
  have leads := @leads_round v v.reset (0#8 :: rest) rest word gap c blank token ended
    (fun s fuel at_ _ _ => ⟨s, by rw [found], at_⟩) le_rfl
  rwa [skip_cons (by decide)] at leads

/-- The second word of three, behind which blanks are passed over. -/
theorem leads_second {prev : Keyword} (listed : (w, k) ∈ command) (ended : inToken c = false)
    (act : ∀ (s : Cursor 1024) (fuel : Nat), routeCommand fuel v s k = second prev k v s)
    (began : v.state = 1 ∧ v.prevCmd = some prev) :
    Leads v (skip (asciiText w ++ c :: rest)) { v with state := 2, prevCmd := some k } (skip rest) := by
  have leads := @leads_next v { v with state := 2, prevCmd := some k } ((0#8 :: rest).dropWhile ignored) rest w c k
    listed ended (fun s fuel at_ _ _ => by
      obtain ⟨t, passed, at_, -⟩ := skipSpace_at at_
      refine ⟨t, ?_, at_⟩
      rw [act, second, if_pos began, Routine.run_then passed]) (List.length_dropWhile_le _ _)
  rwa [skip_dropWhile_ignored, skip_cons (by decide)] at leads

/-! ### Lines -/

def idle (d : Gathered) : RouteVars := { data := d }

theorem idle_not_begun {d : Gathered} {P : Prop} : ¬ ((idle d).state = 1 ∧ P) := fun begun => absurd begun.1 Nat.zero_ne_one

def Consumes (line : List U8) (d d' : Gathered) : Prop :=
  ∀ rest, Leads (idle d) (skip (line ++ rest)) (idle d') (skip rest)

variable {d d' d'' : Gathered} {line line' : List U8}

theorem Consumes.append (first : Consumes line d d') (then_ : Consumes line' d' d'') : Consumes (line ++ line') d d'' := by
  intro rest
  rw [List.append_assoc]
  exact (first (line' ++ rest)).trans (then_ rest)

theorem newline_eq : asciiText "\n" = [ascii '\n'] := by decide

theorem space_eq : asciiText " " = [ascii ' '] := by decide

theorem colon_eq : asciiText ":" = [ascii ':'] := by decide

theorem skip_newline (rest : List U8) : skip (ascii '\n' :: rest) = skip rest := skip_cons (by decide) rest

theorem nul_blank {gap : List U8} (blank : ∀ e ∈ gap, ignored e = true) : ∀ e ∈ 0#8 :: gap, ignored e = true := by
  intro e member
  obtain rfl | inside := List.mem_cons.mp member
  · decide
  · exact blank e inside

/-- A number behind a NUL and blanks. -/
theorem argument_behind {n : Nat} {s : Cursor 1024} (blank : ∀ e ∈ gap, ignored e = true)
    (at_ : s.At (0#8 :: (gap ++ (decimal n ++ ascii '\n' :: rest)))) :
    ∃ t, argument false s = pure (BitVec.ofNat 32 n, t) ∧ t.At (ascii '\n' :: rest) :=
  @argument_at 1024 s (0#8 :: gap) rest (ascii '\n') false n at_ (nul_blank blank) (by decide)

/-- A word behind a NUL and blanks. -/
theorem skipSpace_word {s : Cursor 1024} (blank : ∀ e ∈ gap, ignored e = true) (token : isToken word = true)
    (at_ : s.At (0#8 :: (gap ++ (word ++ text)))) : ∃ t, skipSpace s = pure t ∧ t.At (word ++ text) := by
  obtain ⟨e, w, rfl, letter⟩ := isToken_letter token
  obtain ⟨t, passed, at_, -⟩ := skipSpace_at at_
  have stop : ignored e = false := by
    by_contra other
    rw [ignored_not_letter (eq_true_of_ne_false other)] at letter
    cases letter
  have left : (0#8 :: (gap ++ (e :: w ++ text))).dropWhile ignored = e :: (w ++ text) :=
    @dropWhile_ignored (0#8 :: gap) e (nul_blank blank) stop (w ++ text)
  rw [left] at at_
  exact ⟨t, passed, at_⟩

/-- A number that must begin with a digit. -/
theorem digits_behind {n : Nat} {s : Cursor 1024} (blank : ∀ e ∈ gap, ignored e = true)
    (at_ : s.At (0#8 :: (gap ++ (decimal n ++ ascii '\n' :: rest)))) :
    ∃ t t', skipSpace s = pure t ∧ digitAt t = pure true ∧ number false t = pure (BitVec.ofNat 32 n, t') ∧
      t'.At (ascii '\n' :: rest) := by
  obtain ⟨t, passed, at_, -⟩ := @skipSpace_number 1024 s (0#8 :: gap) (ascii '\n' :: rest) false n at_ (nul_blank blank)
  obtain ⟨e, tail, head, -, digit⟩ := printNumber_head false n (ascii '\n' :: rest)
  obtain ⟨t', read, at_'⟩ := number_at at_ (by decide)
  rw [head] at at_
  refine ⟨t, t', passed, ?_, read, at_'⟩
  rw [digitAt_at at_, digit rfl]

/-- A word with something behind it. -/
theorem consumes_one {label lead sep gap : String} {text : List U8} (shape : label = lead ++ (w ++ (sep ++ gap)))
    (single : asciiText sep = [c]) (blank : ∀ e ∈ asciiText lead, isLetter e = false) (listed : (w, k) ∈ command)
    (ended : inToken c = false)
    (act : ∀ (s : Cursor 1024) (fuel : Nat) (rest : List U8),
      s.At (0#8 :: (asciiText gap ++ (text ++ ascii '\n' :: rest))) → s.colon = decide (c = ascii ':') →
        ∃ t, routeCommand fuel (idle d) s k = pure (idle d', t) ∧ t.At (ascii '\n' :: rest)) :
    Consumes (asciiText label ++ text ++ newline) d d' := by
  intro rest
  rw [shape, newline, newline_eq, ← skip_newline rest]
  simp only [asciiText_append, single, List.append_assoc, List.cons_append, List.nil_append]
  refine leads_command blank listed ended (fun s fuel at_ colon _ => act s fuel rest at_ colon) ?_
  simp only [List.length_append, List.length_cons]
  omega

theorem consumes_entry {n : Nat} (small : n < 2 ^ 31) (unset : d.entry < 0) :
    Consumes (asciiText "  entry " ++ signedNumeral n ++ newline) d { d with entry := n } := by
  refine @consumes_one "entry" (ascii ' ') .entry d _ "  entry " "  " " " "" (decimal n) rfl space_eq (by decide)
    (by simp [command]) (by decide) fun s fuel rest at_ _ => ?_
  obtain ⟨t, t', passed, digit, read, at_⟩ := digits_behind (by decide) at_
  have value : (BitVec.ofNat 32 n).toInt = n := by
    rw [BitVec.toInt_eq_toNat_cond, BitVec.toNat_ofNat, Nat.mod_eq_of_lt (by omega), if_pos (by omega)]
  refine ⟨t', ?_, at_⟩
  show caseEntry _ s = _
  rw [caseEntry, if_pos ⟨rfl, unset⟩, Routine.run_then passed, Routine.run_then digit, if_pos rfl, Routine.run_then read]
  dsimp only
  rw [value]
  rfl

theorem consumes_other {label lead : String} (shape : label = lead ++ (w ++ "\n"))
    (blank : ∀ e ∈ asciiText lead, isLetter e = false)
    (token : isToken (asciiText w) = true) (found : commandOf (asciiText w) command = none) :
    Consumes (asciiText label) d d := by
  intro rest
  rw [shape]
  simp only [asciiText_append, newline_eq, List.append_assoc, List.singleton_append]
  exact leads_other blank token found (by decide)

/-- An address behind a word with a colon. -/
theorem ipPort_behind {ip : U32} {port : BitVec 16} {s : Cursor 1024} (blank : ∀ e ∈ gap, ignored e = true)
    (at_ : s.At (0#8 :: (gap ++ (printIpPort ip port ++ ascii '\n' :: rest)))) :
    ∃ t, getIpPort s = pure (ipVals ip port, t) ∧ t.At (ascii '\n' :: rest) :=
  @getIpPort_at 1024 s (0#8 :: gap) rest (ascii '\n') ip port at_ (nul_blank blank) (by decide)

theorem port_ipVals (ip : U32) (port : BitVec 16) : ((ipVals ip port).getD 4 0).setWidth 16 = port :=
  setWidth_ofNat (by decide) port

theorem consumes_src (ip : U32) (port : BitVec 16) :
    Consumes (asciiText "      src:  " ++ printIpPort ip port ++ newline) d
      { d with compareTbl := { d.compareTbl with srcIp := ip, srcPort := port } } := by
  refine @consumes_one "src" (ascii ':') .src d _ _ "      " ":" "  " _ rfl colon_eq (by decide)
    (by simp [command]) (by decide) fun s fuel rest at_ _ => ?_
  obtain ⟨t, read, at_⟩ := ipPort_behind (by decide) at_
  refine ⟨t, ?_, at_⟩
  show caseSrc _ s = _
  rw [caseSrc, if_neg idle_not_begun, if_pos (.inr rfl), Routine.run_then read]
  dsimp only
  rw [fourBytes_ipVals, port_ipVals]
  rfl

theorem consumes_dest (ip : U32) (port : BitVec 16) :
    Consumes (asciiText "      dest: " ++ printIpPort ip port ++ newline) d
      { d with compareTbl := { d.compareTbl with destIp := ip, destPort := port } } := by
  refine @consumes_one "dest" (ascii ':') .dest d _ _ "      " ":" " " _ rfl colon_eq (by decide)
    (by simp [command]) (by decide) fun s fuel rest at_ colon => ?_
  obtain ⟨t, read, at_⟩ := ipPort_behind (by decide) at_
  refine ⟨t, ?_, at_⟩
  show caseDest _ s = _
  rw [caseDest, if_neg idle_not_begun, if_pos (.inr rfl), colon, decide_eq_true rfl, if_pos rfl,
    Routine.pure_then, if_pos rfl, Routine.run_then read]
  dsimp only
  rw [fourBytes_ipVals, port_ipVals]
  rfl

/-! ### The action -/

def Gathered.withAction (d : Gathered) (f : ActionTbl → ActionTbl) : Gathered := { d with actionTbl := f d.actionTbl }

def begun (d : Gathered) (k : Keyword) : RouteVars := { state := 1, prevCmd := some k, data := d }

def awaiting (d : Gathered) (k : Keyword) : RouteVars := { state := 2, prevCmd := some k, data := d }

/-- The first word of a command of several. -/
theorem leads_first (blank : ∀ e ∈ gap, isLetter e = false) (listed : (w, k) ∈ command) (ended : inToken c = false)
    (act : ∀ (s : Cursor 1024) (fuel : Nat), routeCommand fuel (idle d) s k = pure ((idle d).first k, s)) :
    Leads (idle d) (skip (gap ++ (asciiText w ++ c :: rest))) (begun d k) (skip rest) :=
  leads_still blank listed ended act

theorem indent_blank : ∀ e ∈ asciiText "      ", isLetter e = false := by decide

/-- Two words with something behind them. -/
theorem consumes_two {label w' sep gap : String} {k' : Keyword} {text : List U8}
    (shape : label = "      " ++ (w ++ (" " ++ (w' ++ (sep ++ gap))))) (single : asciiText sep = [c])
    (listed : (w, k) ∈ command) (listed' : (w', k') ∈ command) (ended : inToken c = false)
    (first : ∀ (s : Cursor 1024) (fuel : Nat), routeCommand fuel (idle d) s k = pure ((idle d).first k, s))
    (act : ∀ (s : Cursor 1024) (fuel : Nat) (rest : List U8),
      s.At (0#8 :: (asciiText gap ++ (text ++ ascii '\n' :: rest))) → ∃ t, routeCommand fuel (begun d k) s k' = pure (idle d', t) ∧ t.At (ascii '\n' :: rest)) :
    Consumes (asciiText label ++ text ++ newline) d d' := by
  intro rest
  rw [shape, newline, newline_eq, ← skip_newline rest]
  simp only [asciiText_append, space_eq, single, List.append_assoc, List.cons_append, List.nil_append]
  refine Leads.trans (leads_first indent_blank listed (by decide) first) ?_
  refine leads_next listed' ended (fun s fuel at_ _ _ => act s fuel rest at_) ?_
  simp only [List.length_append, List.length_cons]
  omega

/-- The type of the table is known, so that the new address does not set it. -/
theorem newIpPort_known {type : TableType} (known : d.type ≠ .auto) {ip : U32} {port : BitVec 16} {s : Cursor 1024}
    (blank : ∀ e ∈ gap, ignored e = true) (at_ : s.At (0#8 :: (gap ++ (printIpPort ip port ++ ascii '\n' :: rest)))) :
    ∃ t, newIpPort type (begun d .new) s =
        pure (begun (d.withAction fun a => { a with newIp := ip, newPort := port }) .new, t) ∧ t.At (ascii '\n' :: rest) := by
  obtain ⟨t, read, at_⟩ := ipPort_behind blank at_
  refine ⟨t, ?_, at_⟩
  have set_ : ¬ (begun d .new).data.type = .auto := known
  rw [newIpPort, Routine.run_then read]
  dsimp only
  rw [if_neg set_, fourBytes_ipVals, port_ipVals]
  rfl

theorem consumes_newDest (known : d.type ≠ .auto) (ip : U32) (port : BitVec 16) :
    Consumes (asciiText "      new dest:    " ++ printIpPort ip port ++ newline) d
      (d.withAction fun a => { a with newIp := ip, newPort := port }) := by
  refine @consumes_two "new" (ascii ':') .new d _ _ "dest" ":" "    " .dest _ rfl colon_eq (by simp [command])
    (by simp [command]) (by decide) (fun _ _ => rfl) fun s fuel rest at_ => ?_
  obtain ⟨t, read, at_⟩ := @newIpPort_known _ _ _ .wan known ip port s (by decide) at_
  refine ⟨t, ?_, at_⟩
  show caseDest _ s = _
  rw [caseDest, if_pos ⟨rfl, rfl⟩, Routine.run_then read]
  rfl

theorem consumes_newSrc (known : d.type ≠ .auto) (ip : U32) (port : BitVec 16) :
    Consumes (asciiText "      new src:     " ++ printIpPort ip port ++ newline) d
      (d.withAction fun a => { a with newIp := ip, newPort := port }) := by
  refine @consumes_two "new" (ascii ':') .new d _ _ "src" ":" "     " .src _ rfl colon_eq (by simp [command])
    (by simp [command]) (by decide) (fun _ _ => rfl) fun s fuel rest at_ => ?_
  obtain ⟨t, read, at_⟩ := @newIpPort_known _ _ _ .lan known ip port s (by decide) at_
  refine ⟨t, ?_, at_⟩
  show caseSrc _ s = _
  rw [caseSrc, if_pos ⟨rfl, rfl⟩, Routine.run_then read]
  rfl

/-- The address, whether a blank stands in front of the colon or behind it. -/
theorem consumes_mac {label sep gap : String} (shape : label = "      " ++ ("new" ++ (" " ++ ("MAC" ++ (sep ++ gap)))))
    (single : asciiText sep = [c]) (blank : ∀ e ∈ asciiText gap, ignored e = true) (ended : inToken c = false)
    (mac54 : BitVec 16) (mac30 : U32) :
    Consumes (asciiText label ++ printMac mac54 mac30 ++ newline) d
      (d.withAction fun a => { a with newDestMac54 := mac54, newDestMac30 := mac30 }) := by
  refine @consumes_two "new" c .new d _ _ "MAC" _ gap .mac _ shape single (by simp [command]) (by simp [command]) ended
    (fun _ _ => rfl) fun s fuel rest at_ => ?_
  obtain ⟨t, read, at_⟩ :=
    @getMac_at 1024 s (0#8 :: asciiText gap) rest (ascii '\n') mac54 mac30 at_ (nul_blank blank) (by decide)
  refine ⟨t, ?_, at_⟩
  have high : (((macVals mac54 mac30).getD 0 0 <<< 8) ||| (macVals mac54 mac30).getD 1 0).setWidth 16 = mac54 :=
    twoBytes_macVals mac54
  show caseMac _ s = _
  rw [caseMac, if_pos ⟨rfl, rfl⟩, Routine.run_then read]
  dsimp only
  rw [high, fourBytes_macVals]
  rfl

/-- Three words, of which the last one sets a field. -/
theorem consumes_three {label w' gap w'' : String} {k' k'' : Keyword} {f : ActionTbl → ActionTbl}
    (shape : label = "      " ++ (w ++ (" " ++ (w' ++ (":" ++ (gap ++ (w'' ++ "\n")))))))
    (listed : (w, k) ∈ command) (listed' : (w', k') ∈ command) (listed'' : (w'', k'') ∈ command)
    (blank : ∀ e ∈ asciiText gap, isLetter e = false)
    (first : ∀ (s : Cursor 1024) (fuel : Nat), routeCommand fuel (idle d) s k = pure ((idle d).first k, s))
    (then_ : ∀ (s : Cursor 1024) (fuel : Nat), routeCommand fuel (begun d k) s k' = second k k' (begun d k) s)
    (last : ∀ (s : Cursor 1024) (fuel : Nat),
      routeCommand fuel (awaiting d k') s k'' = pure (idle (d.withAction f), s)) :
    Consumes (asciiText label) d (d.withAction f) := by
  intro rest
  rw [shape]
  simp only [asciiText_append, space_eq, colon_eq, newline_eq, List.append_assoc, List.cons_append, List.nil_append]
  refine Leads.trans (leads_first indent_blank listed (by decide) first) ?_
  refine Leads.trans (leads_second listed' (by decide) then_ ⟨rfl, rfl⟩) ?_
  exact leads_still blank listed'' (by decide) last

theorem consumes_routType (routType : BitVec 2) :
    Consumes (printRoutType routType) d (d.withAction fun a => { a with routType := routType }) := by
  obtain rfl | rfl | rfl | rfl : routType = 1 ∨ routType = 2 ∨ routType = 3 ∨ routType = 0 := by
    revert routType
    decide
  · exact @consumes_three "route" .route d "      route type:  IPv4\n" "type" "  " "IPv4" .type .ipv4 _ rfl
      (by simp [command]) (by simp [command]) (by simp [command]) (by decide) (fun _ _ => rfl) (fun _ _ => rfl)
      fun _ _ => rfl
  · exact @consumes_three "route" .route d "      route type:  NAT\n" "type" "  " "NAT" .type .nat _ rfl
      (by simp [command]) (by simp [command]) (by simp [command]) (by decide) (fun _ _ => rfl) (fun _ _ => rfl)
      fun _ _ => rfl
  · exact @consumes_three "route" .route d "      route type:  NAPT\n" "type" "  " "NAPT" .type .napt _ rfl
      (by simp [command]) (by simp [command]) (by simp [command]) (by decide) (fun _ _ => rfl) (fun _ _ => rfl)
      fun _ _ => rfl
  · exact @consumes_three "route" .route d "      route type:  NULL\n" "type" "  " "NULL" .type .null _ rfl
      (by simp [command]) (by simp [command]) (by simp [command]) (by decide) (fun _ _ => rfl) (fun _ _ => rfl)
      fun _ _ => rfl

theorem consumes_dscp (a : ActionTbl) :
    Consumes (printDscp a) d
      (d.withAction fun b => if a.newDscpEn ≠ 0 then b.setDscp (BitVec.ofNat 32 a.newDscp.toNat) else b) := by
  unfold printDscp
  split
  · refine @consumes_two "new" (ascii ':') .new d _ _ "DSCP" ":" "    " .dscp _ rfl colon_eq (by simp [command])
      (by simp [command]) (by decide) (fun _ _ => rfl) fun s fuel rest at_ => ?_
    obtain ⟨t, t', passed, digit, read, at_⟩ := digits_behind (by decide) at_
    refine ⟨t', ?_, at_⟩
    show caseDscp _ s = _
    rw [caseDscp, if_pos ⟨rfl, rfl⟩, Routine.run_then passed, Routine.run_then digit, if_pos rfl, Routine.run_then read]
    rfl
  · intro rest
    have label : "      new DSCP:    original (not modified)\n" = "      " ++ ("new" ++ (" " ++ ("DSCP" ++ (":" ++ ("    " ++
        ("original" ++ (" " ++ ("(" ++ ("not" ++ (" " ++ ("modified)" ++ "\n"))))))))))) := rfl
    -- the words in brackets are no commands
    have bracketed : Leads (idle d) (skip (ascii ' ' :: (asciiText "(" ++ (asciiText "not" ++ ascii ' ' ::
        (asciiText "modified)" ++ ascii '\n' :: rest))))) (idle d) (skip rest) := by
      refine Leads.trans (?_ : Leads _ _ (idle d) _)
        (@leads_other _ rest (asciiText "modified)") [] (ascii '\n') nofun (by decide) (by decide) (by decide))
      exact @leads_other _ _ _ (ascii ' ' :: asciiText "(") _ (by decide) (by decide) (by decide) (by decide)
    rw [label]
    simp only [asciiText_append, space_eq, colon_eq, newline_eq, List.append_assoc, List.cons_append, List.nil_append]
    refine Leads.trans (leads_first indent_blank (k := .new) (by simp [command]) (by decide) fun _ _ => rfl) ?_
    refine Leads.trans (leads_next (k := .dscp) (by simp [command]) (by decide) (fun s fuel at_ _ _ => ?_) ?_) bracketed
    · obtain ⟨t, passed, at_⟩ := @skipSpace_word _ (asciiText "original") (asciiText "    ") s (by decide) (by decide) at_
      have other : digitAt t = pure false := digitAt_at at_
      obtain ⟨t', advanced, at_'⟩ := advance_at (asciiText "original") at_
      refine ⟨t', ?_, at_'⟩
      show caseDscp _ s = _
      rw [caseDscp, if_pos ⟨rfl, rfl⟩, Routine.run_then passed, Routine.run_then other, if_neg Bool.false_ne_true,
        Routine.run_then (wordAt_hit (by decide) at_ (by decide)), if_pos rfl]
      exact Routine.run_then advanced _
    · simp only [List.length_append, List.length_cons]
      omega

/-- An index, which the word in front of it names. -/
theorem consumes_index {label gap : String} {f : U32 → ActionTbl → ActionTbl}
    (shape : label = "      " ++ (w ++ (" " ++ ("index" ++ (":" ++ gap)))))
    (listed : (w, k) ∈ command) (blank : ∀ e ∈ asciiText gap, ignored e = true)
    (first : ∀ (s : Cursor 1024) (fuel : Nat), routeCommand fuel (idle d) s k = pure ((idle d).first k, s))
    (then_ : ∀ (s t : Cursor 1024) (val : U32), argument false s = pure (val, t) →
      caseIndex (begun d k) s = pure (idle (d.withAction (f val)), t)) (n : Nat) :
    Consumes (asciiText label ++ decimal n ++ newline) d (d.withAction (f (BitVec.ofNat 32 n))) := by
  refine @consumes_two w (ascii ':') k d _ label "index" ":" gap .index _ shape colon_eq listed (by simp [command]) (by decide)
    first fun s fuel rest at_ => ?_
  obtain ⟨t, read, at_⟩ := argument_behind blank at_
  exact ⟨t, then_ s t _ read, at_⟩

theorem consumes_mtuIx (mtuIx : BitVec 3) :
    Consumes (asciiText "      MTU index:   " ++ decimal mtuIx.toNat ++ newline) d
      (d.withAction fun a => { a with mtuIx := mtuIx }) := by
  have line := @consumes_index "MTU" .mtu d "      MTU index:   " "   "
    (fun val a => { a with mtuIx := val.setWidth 3 }) rfl (by simp [command]) (by decide) (fun _ _ => rfl)
    (fun s t val read => by
      rw [caseIndex, if_pos ⟨rfl, .inl rfl⟩, Routine.run_then read]
      rfl) mtuIx.toNat
  simp only [setWidth_ofNat (show 3 ≤ 32 by decide)] at line
  exact line

theorem consumes_pppoeIx (pppoeIx : BitVec 3) :
    Consumes (asciiText "      PPPoE index: " ++ decimal pppoeIx.toNat ++ newline) d
      (d.withAction fun a => { a with pppoeIx := pppoeIx }) := by
  have line := @consumes_index "PPPoE" .pppoe d "      PPPoE index: " " "
    (fun val a => { a with pppoeIx := val.setWidth 3 }) rfl (by simp [command]) (by decide) (fun _ _ => rfl)
    (fun s t val read => by
      rw [caseIndex, if_pos ⟨rfl, .inr (.inr rfl)⟩, Routine.run_then read]
      rfl) pppoeIx.toNat
  simp only [setWidth_ofNat (show 3 ≤ 32 by decide)] at line
  exact line

theorem consumes_vlanInsert (a : ActionTbl) :
    Consumes (printVlanInsert a) d
      (d.withAction fun b => if a.vlanIns ≠ 0 then b.setVlan (BitVec.ofNat 32 a.vlanIx.toNat) else b) := by
  unfold printVlanInsert
  split
  · intro rest
    have label : "      VLAN insert: enable, index " = "      " ++ ("VLAN" ++ (" " ++ ("insert" ++ (":" ++ (" " ++ ("enable" ++
        ("," ++ (" " ++ ("index" ++ " "))))))))) := rfl
    have comma : asciiText "," = [ascii ','] := by decide
    rw [label, newline, newline_eq, ← skip_newline rest]
    simp only [asciiText_append, space_eq, colon_eq, comma, List.append_assoc, List.cons_append, List.nil_append]
    refine Leads.trans (leads_first indent_blank (k := .vlan) (by simp [command]) (by decide) fun _ _ => rfl) ?_
    refine Leads.trans (leads_second (k := .insert) (by simp [command]) (by decide) (fun _ _ => rfl) ⟨rfl, rfl⟩) ?_
    refine @leads_command _ _ _ _ [ascii ' '] "enable" (ascii ',') .enable (by decide) (by simp [command]) (by decide)
      (fun s fuel at_ _ _ => ?_) (by simp; omega)
    obtain ⟨t, passed, at_⟩ := @skipSpace_word _ (asciiText "index") [ascii ' '] s (by decide) (by decide) at_
    have index := indexAt_hit at_ (.inl (by decide))
    obtain ⟨t', advanced, at_⟩ := advance_at (asciiText "index" ++ [ascii ' ']) at_
    obtain ⟨t'', read, at_⟩ := @argument_at _ t' [] rest (ascii '\n') false a.vlanIx.toNat at_ nofun (by decide)
    refine ⟨t'', ?_, at_⟩
    show caseEnable true _ s = _
    rw [caseEnable, if_pos ⟨rfl, rfl, rfl⟩, Routine.run_then passed, Routine.run_then index, if_pos rfl]
    refine (Routine.run_then advanced _).trans ?_
    rw [Routine.run_then read]
    rfl
  · exact @consumes_three "VLAN" .vlan d "      VLAN insert: disable\n" "insert" " " "disable" .insert .disable _ rfl
      (by simp [command]) (by simp [command]) (by simp [command]) (by decide) (fun _ _ => rfl) (fun _ _ => rfl)
      fun _ _ => rfl

theorem consumes_vlanRemove (vlanRm : BitVec 1) :
    Consumes (asciiText (if vlanRm ≠ 0 then "      VLAN remove: enable\n" else "      VLAN remove: disable\n")) d
      (d.withAction fun b => if vlanRm ≠ 0 then (if b.vlanRm = 0 then { b with vlanRm := 1 } else b) else b) := by
  split
  · exact @consumes_three "VLAN" .vlan d "      VLAN remove: enable\n" "remove" " " "enable" .remove .enable _ rfl
      (by simp [command]) (by simp [command]) (by simp [command]) (by decide) (fun _ _ => rfl) (fun _ _ => rfl)
      fun _ _ => rfl
  · exact @consumes_three "VLAN" .vlan d "      VLAN remove: disable\n" "remove" " " "disable" .remove .disable _ rfl
      (by simp [command]) (by simp [command]) (by simp [command]) (by decide) (fun _ _ => rfl) (fun _ _ => rfl)
      fun _ _ => rfl

theorem consumes_pppoeMode (pppoeMode : BitVec 1) :
    Consumes (printPppoeMode pppoeMode) d (d.withAction fun a => { a with pppoeMode := pppoeMode }) := by
  obtain rfl | rfl : pppoeMode = 1 ∨ pppoeMode = 0 := by
    revert pppoeMode
    decide
  · exact @consumes_three "PPPoE" .pppoe d "      PPPoE mode:  termination\n" "mode" "  " "termination" .mode .termination
      _ rfl (by simp [command]) (by simp [command]) (by simp [command]) (by decide) (fun _ _ => rfl) (fun _ _ => rfl)
      fun _ _ => rfl
  · exact @consumes_three "PPPoE" .pppoe d "      PPPoE mode:  transparent\n" "mode" "  " "transparent" .mode .transparent
      _ rfl (by simp [command]) (by simp [command]) (by simp [command]) (by decide) (fun _ _ => rfl) (fun _ _ => rfl)
      fun _ _ => rfl

/-- Behind `dest` and a blank, a word shows that no address follows. -/
theorem leads_dest (token : isToken word = true) :
    Leads (idle d) (skip (asciiText "      " ++ (asciiText "dest" ++ ascii ' ' :: (word ++ text)))) (begun d .dest)
      (skip (word ++ text)) := by
  obtain ⟨e, w, rfl, letter⟩ := isToken_letter token
  have leads : Leads (idle d) (skip (asciiText "      " ++ (asciiText "dest" ++ ascii ' ' :: (e :: w ++ text))))
      (begun d .dest) (skip (0#8 :: (e :: w ++ text))) := by
    refine leads_command (by decide) (k := .dest) (by simp [command]) (by decide) (fun s fuel at_ colon _ => ?_) le_rfl
    obtain ⟨p, second_, len, shows_⟩ := at_.second
    have total : s.len = [0#8].length + ((w ++ text).length + 1) := by
      rw [len, List.cons_append, List.length_cons, List.length_cons, Nat.add_comm]
      rfl
    have other : colonOrDigit s.buf p s.len = pure false := by
      rw [total]
      exact @colonOrDigit_letter _ [0#8] _ e s.buf p shows_ (by decide) letter _
    have blank : s.colon = false := colon.trans (by decide)
    refine ⟨s, ?_, at_⟩
    show caseDest _ s = _
    rw [caseDest, if_neg idle_not_begun, if_pos (.inr rfl), blank, if_neg Bool.false_ne_true, Routine.run_then second_,
      Routine.run_then other]
    rfl
  rwa [skip_cons (by decide)] at leads

/-- The word behind the list, which is none of its names. -/
theorem printPppoeMode_word (pppoeMode : BitVec 1) :
    ∃ tail, printPppoeMode pppoeMode = asciiText "      " ++ (asciiText "PPPoE" ++ tail) := by
  unfold printPppoeMode
  split
  · exact ⟨asciiText " mode:  termination\n", by decide⟩
  · exact ⟨asciiText " mode:  transparent\n", by decide⟩

theorem leads_destNames (destList : BitVec 8) :
    Leads (begun d .dest) (skip (asciiText "list" ++ ascii ':' :: (asciiText "   " ++
      (printDestNames destList 0 false destNames ++ ascii '\n' :: (asciiText "      " ++ (asciiText "PPPoE" ++ rest))))))
      (idle (d.withAction fun a => { a with destList := destList })) (skip (asciiText "PPPoE" ++ rest)) := by
  refine leads_next (k := .list) (by simp [command]) (by decide) (fun s fuel at_ _ enough => ?_) (by simp; omega)
  have behind : (ascii '\n' :: (asciiText "      " ++ (asciiText "PPPoE" ++ rest))).dropWhile ignored =
      asciiText "PPPoE" ++ rest :=
    @dropWhile_ignored (ascii '\n' :: asciiText "      ") (ascii 'P') (by decide) (by decide) (asciiText "PPoE" ++ rest)
  obtain ⟨t, read, at_⟩ := @readDestList_at 1024 s (ascii '\n') _ (asciiText "PPPoE") rest (by decide) behind (by decide)
    (by decide) [] destNames rfl destList false 0 (0#8 :: asciiText "   ") (by decide) fuel (by
      have names : destNames.length = 8 := rfl
      have blanks : (asciiText "   ").length = 3 ∧ (asciiText "      ").length = 6 := by decide
      simp only [List.length_append, List.length_cons] at enough
      omega) at_
  refine ⟨t, ?_, at_⟩
  have all : (destBits destList 0 destNames 0).setWidth 8 = destList := destBits_all destList
  show caseList fuel _ s = _
  rw [caseList, if_pos ⟨rfl, rfl⟩]
  refine (Routine.run_then read _).trans ?_
  dsimp only
  rw [List.length_nil, all]
  rfl

theorem leads_noDest :
    Leads (begun d .dest)
      (skip (asciiText "list" ++ ascii ':' :: (asciiText "   " ++ (asciiText "none" ++ ascii '\n' :: rest))))
      (idle (d.withAction fun a => { a with destList := 0 })) (skip rest) := by
  refine Leads.trans (leads_next (k := .list) (by simp [command]) (by decide) (fun s fuel at_ _ enough => ?_) ?_ :
      Leads _ _ (idle (d.withAction fun a => { a with destList := 0 })) _)
    (@leads_other _ rest (asciiText "none") [] (ascii '\n') nofun (by decide) (by decide) (by decide))
  · obtain ⟨t, passed, at_⟩ := @skipSpace_word _ (asciiText "none") (asciiText "   ") s (by decide) (by decide) at_
    have more : t.len ≠ 0 := by
      obtain ⟨p, -, len, -⟩ := at_
      rw [len, List.length_append]
      exact Nat.succ_ne_zero _
    obtain ⟨fuel, rfl⟩ := Nat.exists_eq_add_of_le' (show 1 ≤ fuel by omega)
    have read : readDestList (fuel + 1) 0 s = pure (0, t) := by
      rw [readDestList, Routine.run_then passed, if_neg more,
        Routine.run_then (findDest_none at_ destNames_noNul (by decide) 0)]
    refine ⟨t, ?_, at_⟩
    show caseList _ _ s = _
    rw [caseList, if_pos ⟨rfl, rfl⟩, Routine.run_then read]
    rfl
  · rw [List.nil_append, @List.length_append _ (asciiText "   ")]
    exact Nat.le_add_right_of_le (Nat.le_add_left _ _)

/-- The list and the word behind it, up to which it is read. -/
theorem consumes_destList (destList : BitVec 8) (pppoeMode : BitVec 1) :
    Consumes (printDestList destList ++ printPppoeMode pppoeMode) d
      (d.withAction fun a => { a with destList := destList, pppoeMode := pppoeMode }) := by
  intro rest
  have mode := @consumes_pppoeMode (d.withAction fun a => { a with destList := destList }) pppoeMode rest
  refine Leads.trans ?_ mode
  obtain ⟨tail, word⟩ := printPppoeMode_word pppoeMode
  have ahead : skip (asciiText "      " ++ (asciiText "PPPoE" ++ (tail ++ rest))) =
      skip (asciiText "PPPoE" ++ (tail ++ rest)) :=
    skip_append (by decide) _
  rw [List.append_assoc, word, List.append_assoc, List.append_assoc, ahead]
  by_cases none : destList = 0
  · rw [printDestList, if_pos none, none]
    have label : "      dest list:   none\n" =
        "      " ++ ("dest" ++ (" " ++ ("list" ++ (":" ++ ("   " ++ ("none" ++ "\n")))))) := rfl
    rw [label]
    simp only [asciiText_append, space_eq, colon_eq, newline_eq, List.append_assoc, List.cons_append, List.nil_append]
    have noDest := @leads_noDest (asciiText "      " ++ (asciiText "PPPoE" ++ (tail ++ rest))) d
    rw [ahead] at noDest
    exact (leads_dest (by decide)).trans noDest
  · rw [printDestList, if_neg none]
    have label : "      dest list:   " = "      " ++ ("dest" ++ (" " ++ ("list" ++ (":" ++ "   ")))) := rfl
    rw [label, newline]
    simp only [asciiText_append, space_eq, colon_eq, newline_eq, List.append_assoc, List.cons_append, List.nil_append]
    exact (leads_dest (by decide)).trans (leads_destNames destList)

theorem consumes_destChid (destChid : BitVec 3) :
    Consumes (asciiText "      dest ch id:  " ++ decimal destChid.toNat ++ newline) d
      (d.withAction fun a => { a with destChid := destChid }) := by
  intro rest
  have label : "      dest ch id:  " = "      " ++ ("dest" ++ (" " ++ ("ch" ++ (" " ++ ("id" ++ (":" ++ "  ")))))) := rfl
  rw [label, newline, newline_eq, ← skip_newline rest]
  simp only [asciiText_append, space_eq, colon_eq, List.append_assoc, List.cons_append, List.nil_append]
  refine Leads.trans (leads_dest (by decide)) ?_
  refine Leads.trans (@leads_still _ _ _ [] "ch" (ascii ' ') .ch nofun (by simp [command]) (by decide) fun _ _ => rfl :
    Leads _ _ (awaiting d .ch) _) ?_
  refine leads_next (k := .id) (by simp [command]) (by decide) (fun s fuel at_ _ _ => ?_) (by simp; omega)
  obtain ⟨t, read, at_⟩ := argument_behind (by decide) at_
  refine ⟨t, ?_, at_⟩
  show caseId _ s = _
  rw [caseId, if_pos ⟨rfl, rfl⟩, Routine.run_then read]
  dsimp only
  rw [setWidth_ofNat (by decide)]
  rfl

end TwinpassGateway.Eth.Route
