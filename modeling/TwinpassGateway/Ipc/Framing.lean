import TwinpassGateway.Ipc.BioSocket

/-!
The messages of `ipc.c`: a string is sent as its length, terminator included, in network byte order and then its
bytes with the terminator.
-/

namespace TwinpassGateway.Ipc

open Foundation

/-- A string in the memory of a process, whose addresses have 31 bits: its length and terminator fit in an `int`. -/
structure CString where
  chars : List U8
  noNul : 0#8 ∉ chars
  fits : chars.length + 1 < 2 ^ 31

def CString.buffer (str : CString) : List U8 := str.chars ++ [0#8]

def ipcU32Read (c : Conn) : Option (Int × Nat × Conn) :=
  (bioRead c 4).map fun (rc, data, c) => if rc ≠ 0 then (-1, 0, c) else (0, (be32 data).toNat, c)

def ipcU32Write (c : Conn) (n : Nat) : Option (Int × Conn) := bioWrite c (bytes32 (BitVec.ofNat 32 n))

def Conn.malloc (c : Conn) : Option (Bool × Conn) :=
  match c.mallocs with
  | [] => none
  | ok :: mallocs => some (ok, { c with mallocs })

/-- `ipc_varbuf_read`: the result, the data and their length. -/
def ipcVarbufRead (c : Conn) : Option (Int × List U8 × Nat × Conn) :=
  (ipcU32Read c).bind fun (rc, len, c) =>
    if rc ≠ 0 then some (-1, [], len, c)
    else
      c.malloc.bind fun (ok, c) =>
        if ok = false then some (-1, [], len, c)
        else
          (bioRead c len).map fun (rc, data, c) => if rc ≠ 0 then (-1, [], len, c) else (0, data, len, c)

/-- `ipc_string_read`: the buffer it returns, `none` for the null pointer. -/
def ipcStringRead (c : Conn) : Option (Option (List U8) × Conn) :=
  (ipcVarbufRead c).map fun (rc, data, len, c) =>
    if rc ≠ 0 ∨ len = 0 then (none, c) else (some (data.set (len - 1) 0#8), c)

def ipcStringWrite (c : Conn) (str : CString) : Option (Int × Conn) :=
  let len := str.chars.length + 1
  (ipcU32Write c len).bind fun (rc, c) =>
    if rc ≠ 0 then some (-1, c)
    else (bioWrite c (str.buffer.take len)).map fun (rc, c) => if rc ≠ 0 then (-1, c) else (0, c)

/-! ### One string -/

def CString.frame (str : CString) : List U8 := bytes32 (BitVec.ofNat 32 (str.chars.length + 1)) ++ str.buffer

variable {c : Conn} {str : CString} {n : Nat}

theorem buffer_length (str : CString) : str.buffer.length = str.chars.length + 1 := by
  rw [CString.buffer, List.length_append, List.length_singleton]

theorem frame_length (str : CString) : str.frame.length = 4 + str.buffer.length := by
  rw [CString.frame, List.length_append, bytes32_length]

theorem ipcStringWrite_steady (steady : Steady c.writes (n + str.frame.length)) :
    ∃ writes, ipcStringWrite c str = some (0, { c with writes, sent := c.sent ++ str.frame }) ∧ Steady writes n := by
  have whole : str.buffer.take (str.chars.length + 1) = str.buffer := by rw [← buffer_length, List.take_length]
  have enough : Steady c.writes (n + str.buffer.length + 4) := steady.mono (by rw [frame_length]; omega)
  obtain ⟨first, header, between⟩ := bioWrite_steady (bytes32 (BitVec.ofNat 32 (str.chars.length + 1))) enough
  obtain ⟨writes, body, rest⟩ := bioWrite_steady (c := { c with
    writes := first, sent := c.sent ++ bytes32 (BitVec.ofNat 32 (str.chars.length + 1)) }) str.buffer between
  refine ⟨writes, ?_, rest⟩
  simp only [ipcStringWrite, ipcU32Write, header, whole, Option.bind_some, ne_eq, not_true_eq_false, if_false, body,
    Option.map_some]
  rw [CString.frame, List.append_assoc]

theorem buffer_set (str : CString) : str.buffer.set str.chars.length 0#8 = str.buffer := by
  rw [CString.buffer, List.set_append_right _ _ (Nat.le_refl _), Nat.sub_self]
  rfl

theorem ipcVarbufRead_steady {mallocs : List Bool} {more : List U8} (steady : Steady c.reads (n + str.frame.length))
    (memory : c.mallocs = true :: mallocs) (there : c.wire = str.frame ++ more) :
    ∃ reads, ipcVarbufRead c = some (0, str.buffer, str.buffer.length, { c with reads, mallocs, wire := more }) ∧
      Steady reads n := by
  let header := bytes32 (BitVec.ofNat 32 (str.chars.length + 1))
  have enough : Steady c.reads (n + str.buffer.length + header.length) :=
    steady.mono (by rw [frame_length, bytes32_length]; omega)
  have front : c.wire = header ++ (str.buffer ++ more) := by rw [there, CString.frame, List.append_assoc]
  obtain ⟨first, readHeader, between⟩ := bioRead_steady enough front
  obtain ⟨reads, readBody, rest⟩ := bioRead_steady (c := { c with reads := first, mallocs, wire := str.buffer ++ more })
    between rfl
  have size : (be32 header).toNat = str.buffer.length := by
    have fits := str.fits
    rw [be32_bytes32, BitVec.toNat_ofNat, buffer_length, Nat.mod_eq_of_lt (by omega)]
  refine ⟨reads, ?_, rest⟩
  rw [bytes32_length] at readHeader
  simp only [ipcVarbufRead, ipcU32Read, readHeader, Option.map_some, Option.bind_some, ne_eq, not_true_eq_false,
    if_false, Conn.malloc, memory, Bool.true_eq_false, size, readBody]

theorem ipcStringRead_steady {mallocs : List Bool} {more : List U8} (steady : Steady c.reads (n + str.frame.length))
    (memory : c.mallocs = true :: mallocs) (there : c.wire = str.frame ++ more) :
    ∃ reads, ipcStringRead c = some (some str.buffer, { c with reads, mallocs, wire := more }) ∧ Steady reads n := by
  obtain ⟨reads, varbuf, rest⟩ := ipcVarbufRead_steady steady memory there
  have size := buffer_length str
  refine ⟨reads, ?_, rest⟩
  rw [ipcStringRead, varbuf, Option.map_some]
  simp only [ne_eq, not_true_eq_false, false_or, size, Nat.add_one_ne_zero, if_false, Nat.add_sub_cancel, buffer_set]

/-! ### All strings -/

/-- The writes one after another, each with its result and the bytes it has produced. -/
def sendStrings (c : Conn) : List CString → Option (List (Int × List U8) × Conn)
  | [] => some ([], c)
  | str :: rest =>
    (ipcStringWrite c str).bind fun (rc, next) =>
      (sendStrings next rest).map fun (sent, last) => ((rc, next.sent.drop c.sent.length) :: sent, last)

/-- So many reads one after another, each with its string and the bytes it has consumed. -/
def receiveStrings (c : Conn) : Nat → Option (List (Option (List U8) × List U8) × Conn)
  | 0 => some ([], c)
  | n + 1 =>
    (ipcStringRead c).bind fun (str, next) =>
      (receiveStrings next n).map fun (received, last) =>
        ((str, c.wire.take (c.wire.length - next.wire.length)) :: received, last)

def frames (strings : List CString) : List U8 := strings.flatMap CString.frame

theorem frames_cons (str : CString) (rest : List CString) : frames (str :: rest) = str.frame ++ frames rest := rfl

theorem sendStrings_steady (strings : List CString) (steady : Steady c.writes (frames strings).length) :
    ∃ last, sendStrings c strings = some (strings.map fun str => ((0 : Int), str.frame), last) ∧
      last.sent = c.sent ++ frames strings := by
  induction strings generalizing c with
  | nil => exact ⟨c, rfl, (List.append_nil _).symm⟩
  | cons str rest ih =>
    have enough : Steady c.writes ((frames rest).length + str.frame.length) :=
      steady.mono (by rw [frames_cons, List.length_append]; omega)
    obtain ⟨writes, wrote, left⟩ := ipcStringWrite_steady enough
    obtain ⟨last, others, sent⟩ := ih (c := { c with writes, sent := c.sent ++ str.frame }) left
    refine ⟨last, ?_, ?_⟩
    · simp only [sendStrings, wrote, Option.bind_some, others, Option.map_some, List.drop_left, List.map_cons]
    · rw [sent, List.append_assoc, frames_cons]

theorem receiveStrings_steady (strings : List CString) (more : List U8)
    (steady : Steady c.reads (frames strings).length)
    (memory : c.mallocs = List.replicate strings.length true) (there : c.wire = frames strings ++ more) :
    ∃ last, receiveStrings c strings.length =
        some (strings.map fun str => (some str.buffer, str.frame), last) ∧ last.wire = more := by
  induction strings generalizing c with
  | nil => exact ⟨c, rfl, there⟩
  | cons str rest ih =>
    have enough : Steady c.reads ((frames rest).length + str.frame.length) :=
      steady.mono (by rw [frames_cons, List.length_append]; omega)
    have front : c.wire = str.frame ++ (frames rest ++ more) := by
      rw [there, frames_cons, List.append_assoc]
    obtain ⟨reads, read, left⟩ := ipcStringRead_steady enough memory front
    obtain ⟨last, others, wire⟩ := ih
      (c := { c with reads, mallocs := List.replicate rest.length true, wire := frames rest ++ more }) left rfl rfl
    refine ⟨last, ?_, wire⟩
    have consumed : c.wire.take (c.wire.length - (frames rest ++ more).length) = str.frame := by
      rw [front, List.length_append, Nat.add_sub_cancel, List.take_left]
    simp only [receiveStrings, List.length_cons, read, Option.bind_some, others, Option.map_some, consumed,
      List.map_cons]

/-! ### The round trip -/

structure Progress (calls : Nat → Attempt) : Prop where
  fine : ∀ i, calls i = .again ∨ ∃ k, 0 < k ∧ calls i = .moved k
  goesOn : ∀ i, ∃ j, i ≤ j ∧ calls j ≠ .again

def firstCalls (calls : Nat → Attempt) (m : Nat) : List Attempt := (List.range m).map calls

theorem firstCalls_succ (calls : Nat → Attempt) (m : Nat) :
    firstCalls calls (m + 1) = firstCalls calls m ++ [calls m] := by
  rw [firstCalls, List.range_succ, List.map_append]
  rfl

theorem firstCalls_add (calls : Nat → Attempt) (m k : Nat) :
    firstCalls calls (m + k) = firstCalls calls m ++ (List.range k).map fun i => calls (m + i) := by
  rw [firstCalls, List.range_add, List.map_append, List.map_map]
  rfl

def effective (attempts : List Attempt) : Nat := (attempts.filter (· ≠ .again)).length

theorem effective_moved (n : Nat) (rest : List Attempt) : effective (.moved n :: rest) = effective rest + 1 := rfl

theorem effective_append (xs ys : List Attempt) : effective (xs ++ ys) = effective xs + effective ys := by
  unfold effective
  rw [List.filter_append, List.length_append]

/-- Of calls that do not only ask to try again, enough have any number of effective ones. -/
theorem effective_enough {calls : Nat → Attempt} (goesOn : ∀ i, ∃ j, i ≤ j ∧ calls j ≠ .again) (n : Nat) :
    ∃ start, ∀ m, start ≤ m → n ≤ effective (firstCalls calls m) := by
  induction n with
  | zero => exact ⟨0, fun _ _ => Nat.zero_le _⟩
  | succ n ih =>
    obtain ⟨start, enough⟩ := ih
    obtain ⟨j, later, other⟩ := goesOn start
    refine ⟨j + 1, fun m above => ?_⟩
    -- the calls up to `j` have `n` effective ones, and call `j` is another
    obtain ⟨k, rfl⟩ := Nat.exists_eq_add_of_le above
    have before := enough j later
    have single : effective [calls j] = 1 := by
      unfold effective
      rw [List.filter_cons_of_pos (by simpa using other)]
      rfl
    rw [firstCalls_add, effective_append, firstCalls_succ, effective_append, single]
    omega

theorem Progress.steady {calls : Nat → Attempt} (progress : Progress calls) (n : Nat) :
    ∃ start, ∀ m, start ≤ m → Steady (firstCalls calls m) n := by
  obtain ⟨start, enough⟩ := effective_enough progress.goesOn n
  refine ⟨start, fun m above => ⟨?_, enough m above⟩⟩
  intro a member
  obtain ⟨i, _, rfl⟩ := List.mem_map.mp member
  exact progress.fine i

/-- Every list of strings arrives as it was sent, each read consuming what its write produced, however the calls of
`write` and `read` split the stream. `more` is what follows on the stream. -/
theorem strings_round_trip (strings : List CString) (more : List U8) {writes reads : Nat → Attempt}
    (writing : Progress writes) (reading : Progress reads) :
    ∃ start, ∀ m, start ≤ m → ∃ produced written last,
      sendStrings { writes := firstCalls writes m, reads := [], mallocs := [], wire := [] } strings =
          some (produced.map fun bytes => ((0 : Int), bytes), written) ∧
        receiveStrings
            { writes := [], reads := firstCalls reads m, mallocs := List.replicate strings.length true
              wire := written.sent ++ more } strings.length =
          some ((strings.zip produced).map fun (str, bytes) => (some str.buffer, bytes), last) ∧
        produced.length = strings.length ∧ last.wire = more := by
  obtain ⟨first, send⟩ := writing.steady (frames strings).length
  obtain ⟨second, receive⟩ := reading.steady (frames strings).length
  refine ⟨max first second, fun m above => ?_⟩
  obtain ⟨written, sent, wire⟩ := sendStrings_steady strings
    (c := { writes := firstCalls writes m, reads := [], mallocs := [], wire := [] }) (send m (by omega))
  rw [List.nil_append] at wire
  obtain ⟨last, received, left⟩ := receiveStrings_steady strings more
    (c := { writes := [], reads := firstCalls reads m, mallocs := List.replicate strings.length true
            wire := written.sent ++ more }) (receive m (by omega)) rfl (by rw [wire])
  refine ⟨strings.map CString.frame, written, last, ?_, ?_, List.length_map _, left⟩
  · rw [sent, List.map_map]
    rfl
  · rw [received, ← List.map_prod_left_eq_zip, List.map_map]
    rfl

def hello : CString := ⟨[0x68#8, 0x65#8, 0x79#8], by decide, by decide⟩

def empty : CString := ⟨[], by decide, by decide⟩

/-- Byte by byte with an interrupt before each write, and in pieces of three bytes. -/
theorem strings_round_trip_hello :
    ∃ start, ∀ m, start ≤ m → ∃ produced written last,
      sendStrings { writes := firstCalls (fun i => if i % 2 = 0 then .again else .moved 1) m
                    reads := [], mallocs := [], wire := [] } [hello, empty] =
          some (produced.map fun bytes => ((0 : Int), bytes), written) ∧
        receiveStrings
            { writes := [], reads := firstCalls (fun _ => .moved 3) m, mallocs := [true, true]
              wire := written.sent ++ [7#8] } 2 =
          some (([hello, empty].zip produced).map fun (str, bytes) => (some str.buffer, bytes), last) ∧
        produced.length = 2 ∧ last.wire = [7#8] := by
  have writing : Progress fun i => if i % 2 = 0 then .again else .moved 1 := by
    refine ⟨fun i => ?_, fun i => ⟨2 * i + 1, by omega, ?_⟩⟩
    · split
      · exact Or.inl rfl
      · exact Or.inr ⟨1, by decide, rfl⟩
    · rw [if_neg (by omega)]
      exact nofun
  have reading : Progress fun _ => .moved 3 := ⟨fun _ => Or.inr ⟨3, by decide, rfl⟩, fun i => ⟨i, Nat.le_refl i, nofun⟩⟩
  exact strings_round_trip [hello, empty] [7#8] writing reading

end TwinpassGateway.Ipc
