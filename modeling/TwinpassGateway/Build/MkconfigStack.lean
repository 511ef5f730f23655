import TwinpassGateway.Build.MkconfigInclude

/-!
The stack of `mkconfig.c` over a whole run, for any files.
-/

namespace TwinpassGateway.Build

open Foundation

namespace Mkconfig

def entries (s : Mkconfig) : List (Option Nat) := (List.range (s.mkindex + 1).toNat).map s.mkfile

/-- The first stream is the one of the main file, and each other was included from the one before it. -/
def IncludeChain (streams : Nat → Stream) (chain : List Nat) : Prop :=
  (∀ f, chain.head? = some f → (streams f).parent = none) ∧
    chain.IsChain fun f g => (streams g).parent = some f

/-- The open streams lie on the stack, along a chain of includes. -/
def Stacked (s : Mkconfig) : Prop :=
  ∃ chain : List Nat, s.entries = chain.map some ∧ chain.Nodup ∧ IncludeChain s.streams chain ∧
    ∀ f, f ∈ chain ↔ f < s.opened ∧ (s.streams f).closed = 0

structure Sound (s : Mkconfig) : Prop where
  defined : s.status ≠ .undefined
  inside : s.status = .running → -1 ≤ s.mkindex ∧ s.mkindex < maxNFiles
  stacked : s.status = .running → s.Stacked
  once : ∀ f < s.opened, (s.streams f).closed ≤ 1
  ended : ∀ code, s.status = .exited code → ∀ f < s.opened, (s.streams f).closed = 1

/-- What the next iteration finds in `line`, if it reads one. -/
def NextLine (s : Mkconfig) (line : CharArray lineSize) : Prop :=
  s.status = .running ∧ 0 ≤ s.mkindex ∧ ∃ f, s.mkfile s.mkindex.toNat = some f ∧ (s.streams f).closed = 0 ∧
    ∃ rest, fgets s.line (s.streams f).content = some (some line, rest)

/-- The byte behind the first of an include's name belongs to the name, and its end lies in the line's buffer. -/
def Named (line : CharArray lineSize) : Prop :=
  ∃ t c d q, line.bytes = includeCommand ++ t ∧ t.dropWhile isspace = c :: d :: q ∧
    ¬ (d = 0#8 ∨ isspace d) ∧ ∃ e ∈ q, e = 0#8 ∨ isspace e

/-- The next line is an include of a name, if there is room on the stack, or a line that fits its buffers. -/
def Regular (s : Mkconfig) : Prop :=
  ∀ line, s.NextLine line →
    if includeCommand <+: line.bytes then s.mkindex + 1 < maxNFiles → Named line else Fits s.comment line.bytes

/-! ### Reading -/

theorem takeLine_short (n : Nat) (s : List U8) : (takeLine n s).1.length ≤ n := by
  induction n generalizing s with
  | zero => exact Nat.le_refl 0
  | succ n ih =>
    cases s with
    | nil => exact Nat.zero_le _
    | cons c s =>
      rw [takeLine]
      split
      · exact Nat.le_add_left 1 n
      · exact Nat.succ_le_succ (ih s)

theorem fgets_inside {line : CharArray lineSize} {content rest : List U8} {o : Option (CharArray lineSize)}
    (read : fgets line content = some (o, rest)) : ∃ line', o = some line' := by
  unfold fgets at read
  split at read
  · cases read
  · cases read
    have short := takeLine_short (lineSize - 1) content
    unfold lineSize at short
    obtain ⟨line', stored, _⟩ := line.store_eq 0 ((takeLine (lineSize - 1) content).1 ++ [0#8]) (by
      rw [List.length_append, List.length_singleton]
      unfold lineSize
      omega)
    exact ⟨line', stored⟩

theorem strchr_include (t : List U8) : strchr 0x20#8 (includeCommand ++ t) = some (0x20#8 :: t) := rfl

theorem nameScan_some {s : List U8} {k : Nat} (scanned : nameScan s = some k) : k < s.length := by
  induction s generalizing k with
  | nil => cases scanned
  | cons c s ih =>
    unfold nameScan at scanned
    split at scanned
    · cases scanned
      exact Nat.succ_pos _
    · obtain ⟨k', before, rfl⟩ := Option.map_eq_some_iff.mp scanned
      exact Nat.succ_lt_succ (ih before)

theorem nameScan_isSome (s : List U8) : (nameScan s).isSome ↔ ∃ e ∈ s, e = 0#8 ∨ isspace e := by
  induction s with
  | nil => exact iff_of_false nofun fun ⟨_, member, _⟩ => nomatch member
  | cons c s ih =>
    rw [nameScan, List.exists_mem_cons_iff]
    by_cases ends : c = 0#8 ∨ isspace c = true
    · rw [if_pos ends]
      exact iff_of_true rfl (Or.inl ends)
    · rw [if_neg ends, Option.isSome_map, ih, or_iff_right ends]

/-- The scan of a name goes behind its second byte exactly for a line that names a file. -/
theorem named_iff (line : CharArray lineSize) {t : List U8} (command : line.bytes = includeCommand ++ t) :
    Named line ↔ ∃ pname k, skipSpaces (0x20#8 :: t) = some pname ∧ nameScan pname.tail = some (k + 1) := by
  have skipped : skipSpaces (0x20#8 :: t) = if t.dropWhile isspace = [] then none else some (t.dropWhile isspace) :=
    skipSpaces_eq (0x20#8 :: t)
  rw [skipped]
  constructor
  · rintro ⟨t', c, d, q, command', there, plain, ends⟩
    obtain rfl := List.append_cancel_left (command.symm.trans command')
    obtain ⟨k, scanned⟩ := Option.isSome_iff_exists.mp ((nameScan_isSome q).mpr ends)
    refine ⟨c :: d :: q, k, by rw [if_neg (by rw [there]; nofun), there], ?_⟩
    rw [List.tail_cons, nameScan, if_neg plain, scanned, Option.map_some]
  · rintro ⟨pname, k, given, scanned⟩
    split at given
    · cases given
    · cases given
      match there : t.dropWhile isspace with
      | [] => rw [there] at scanned; cases scanned
      | [c] => rw [there] at scanned; cases scanned
      | c :: d :: q =>
        rw [there, List.tail_cons, nameScan] at scanned
        split at scanned
        · cases scanned
        · rename_i plain
          obtain ⟨k', scanned, _⟩ := Option.map_eq_some_iff.mp scanned
          exact ⟨t, c, d, q, command, there, plain, (nameScan_isSome q).mp (by rw [scanned]; rfl)⟩

/-! ### The stack -/

variable {s s' : Mkconfig} {f : Nat}

/-- Two states with the same stack and the same streams, but for what is left to read. -/
structure SameStack (s s' : Mkconfig) : Prop where
  status : s'.status = s.status
  mkindex : s'.mkindex = s.mkindex
  mkfile : s'.mkfile = s.mkfile
  opened : s'.opened = s.opened
  closed : ∀ f, (s'.streams f).closed = (s.streams f).closed
  parent : ∀ f, (s'.streams f).parent = (s.streams f).parent

theorem IncludeChain.congr {streams streams' : Nat → Stream} {chain : List Nat}
    (linked : IncludeChain streams chain) (same : ∀ f ∈ chain, (streams' f).parent = (streams f).parent) :
    IncludeChain streams' chain := by
  refine ⟨fun f first => ?_, ?_⟩
  · rw [same f (List.mem_of_mem_head? first)]
    exact linked.1 f first
  · refine linked.2.imp_of_mem_imp fun f g _ inside included => ?_
    rw [same g inside]
    exact included

theorem SameStack.stacked (same : SameStack s s') (stacked : s.Stacked) : s'.Stacked := by
  obtain ⟨chain, entries, nodup, linked, exact_⟩ := stacked
  refine ⟨chain, ?_, nodup, linked.congr fun f _ => same.parent f, fun f => ?_⟩
  · rw [← entries, Mkconfig.entries, Mkconfig.entries, same.mkindex, same.mkfile]
  · rw [exact_, same.opened, same.closed]

theorem SameStack.sound (same : SameStack s s') (sound : s.Sound) : s'.Sound where
  defined := by rw [same.status]; exact sound.defined
  inside running := by
    rw [same.mkindex]
    exact sound.inside (same.status.symm.trans running)
  stacked running := same.stacked (sound.stacked (same.status.symm.trans running))
  once f there := by
    rw [same.closed]
    exact sound.once f (by rwa [same.opened] at there)
  ended code exited f there := by
    rw [same.closed]
    exact sound.ended code (same.status.symm.trans exited) f (by rwa [same.opened] at there)

theorem exit_sound (once : ∀ f < s.opened, (s.streams f).closed ≤ 1) (code : Nat) : (s.exit code).Sound := by
  have closed : ∀ f < s.opened, ((s.exit code).streams f).closed = 1 := by
    intro f there
    have before := once f there
    unfold Mkconfig.exit
    dsimp only
    split
    · rfl
    · omega
  exact ⟨nofun, nofun, nofun, fun f there => (closed f there).le, fun _ _ => closed⟩

theorem entries_top {chain : List Nat} (stacked : s.entries = chain.map some) (high : 0 ≤ s.mkindex) :
    ∃ below f, chain = below ++ [f] ∧ s.mkfile s.mkindex.toNat = some f ∧
      (List.range s.mkindex.toNat).map s.mkfile = below.map some := by
  have count : (s.mkindex + 1).toNat = s.mkindex.toNat + 1 := by omega
  rw [Mkconfig.entries, count, List.range_succ, List.map_append] at stacked
  obtain ⟨below, top, rfl, first, last⟩ := List.map_eq_append_iff.mp stacked.symm
  obtain ⟨f, rfl, here⟩ := List.map_eq_singleton_iff.mp last
  exact ⟨below, f, rfl, here.symm, first.symm⟩

theorem fclose_stacked (stacked : s.Stacked) (high : 0 ≤ s.mkindex) (top : s.mkfile s.mkindex.toNat = some f) :
    Stacked { s with
      streams := Function.update s.streams f { s.streams f with closed := (s.streams f).closed + 1 }
      mkindex := s.mkindex - 1 } := by
  obtain ⟨chain, entries, nodup, linked, exact_⟩ := stacked
  obtain ⟨below, f', rfl, top', rest⟩ := entries_top entries high
  obtain rfl : f' = f := Option.some.inj (top'.symm.trans top)
  have count : (s.mkindex - 1 + 1).toNat = s.mkindex.toNat := by rw [Int.sub_add_cancel]
  have apart : f' ∉ below := fun member =>
    (List.nodup_append.mp nodup).2.2 f' member f' (List.mem_singleton_self f') rfl
  have parent : ∀ g, (Function.update s.streams f' { s.streams f' with closed := (s.streams f').closed + 1 } g).parent =
      (s.streams g).parent := by
    intro g
    by_cases own : g = f'
    · rw [own, Function.update_self]
    · rw [Function.update_of_ne own]
  refine ⟨below, ?_, (List.nodup_append.mp nodup).1, ?_, fun g => ?_⟩
  · rw [Mkconfig.entries]
    dsimp only
    rw [count]
    exact rest
  · have shorter : IncludeChain s.streams below := by
      refine ⟨fun g first => linked.1 g ?_, linked.2.left_of_append⟩
      rw [List.head?_append, first]
      rfl
    exact shorter.congr fun g _ => parent g
  · dsimp only
    by_cases own : g = f'
    · rw [own, Function.update_self]
      exact iff_of_false apart fun ⟨_, none_⟩ => nomatch none_
    · rw [Function.update_of_ne own, ← exact_, List.mem_append, List.mem_singleton, or_iff_left own]

theorem fopen_stacked (stacked : s.Stacked) (high : 0 ≤ s.mkindex) (top : s.mkfile s.mkindex.toNat = some f)
    (line : CharArray lineSize) (content : List U8) :
    (({ s with line, mkindex := s.mkindex + 1 } : Mkconfig).fopen (some content) (some f)).Stacked := by
  obtain ⟨chain, entries, nodup, linked, exact_⟩ := stacked
  obtain ⟨below, f', rfl, top', rest⟩ := entries_top entries high
  obtain rfl : f' = f := Option.some.inj (top'.symm.trans top)
  have old : ∀ g ∈ below ++ [f'], g ≠ s.opened := fun g member => ((exact_ g).mp member).1.ne
  have fresh : s.opened ∉ below ++ [f'] := fun member => old _ member rfl
  refine ⟨below ++ [f'] ++ [s.opened], ?_, ?_, ?_, fun g => ?_⟩
  · have count : (s.mkindex + 1 + 1).toNat = (s.mkindex + 1).toNat + 1 := by omega
    rw [Mkconfig.entries, Mkconfig.fopen]
    dsimp only
    rw [count, List.range_succ, List.map_append, List.map_append, ← entries, Mkconfig.entries]
    congr 1
    · apply List.map_congr_left
      intro i low
      rw [Function.update_of_ne (List.mem_range.mp low).ne]
    · rw [List.map_singleton, Function.update_self]
      rfl
  · refine List.nodup_append.mpr ⟨nodup, List.nodup_singleton _, ?_⟩
    rintro g member _ last rfl
    rw [List.mem_singleton.mp last] at member
    exact fresh member
  · unfold Mkconfig.fopen
    dsimp only
    have kept : IncludeChain (Function.update s.streams s.opened ⟨content, 0, some f'⟩) (below ++ [f']) :=
      linked.congr fun g member => by rw [Function.update_of_ne (old g member)]
    refine ⟨fun g first => kept.1 g ?_, kept.2.append (.singleton _) ?_⟩
    · rwa [List.head?_append_of_ne_nil _ (by simp)] at first
    · intro g last h first
      obtain rfl : f' = g := by simpa using last
      obtain rfl : s.opened = h := by simpa using first
      rw [Function.update_self]
  · unfold Mkconfig.fopen
    dsimp only
    by_cases own : g = s.opened
    · subst own
      rw [Function.update_self]
      exact iff_of_true (List.mem_append_right _ (List.mem_singleton_self _)) ⟨Nat.lt_succ_self _, rfl⟩
    · rw [Function.update_of_ne own, List.mem_append, List.mem_singleton, or_iff_left own, exact_]
      exact and_congr_left' ⟨fun below => Nat.lt_succ_of_lt below, fun below => by omega⟩

/-! ### One iteration -/

variable {files : List U8 → Option (List U8)}

theorem top_open (sound : s.Sound) (running : s.status = .running) (high : 0 ≤ s.mkindex) :
    ∃ f, s.mkfile s.mkindex.toNat = some f ∧ (s.streams f).closed = 0 := by
  obtain ⟨chain, entries, _, _, exact_⟩ := sound.stacked running
  obtain ⟨below, f, rfl, top, _⟩ := entries_top entries high
  exact ⟨f, top, ((exact_ f).mp (List.mem_append_right _ (List.mem_singleton_self f))).2⟩

/-- The state in which a line that was read is looked at. -/
def afterRead (s : Mkconfig) (f : Nat) (line : CharArray lineSize) (rest : List U8) : Mkconfig :=
  { s with line, streams := Function.update s.streams f { s.streams f with content := rest } }

theorem afterRead_same (s : Mkconfig) (f : Nat) (line : CharArray lineSize) (rest : List U8) :
    SameStack s (s.afterRead f line rest) := by
  have kept : ∀ g, ((s.afterRead f line rest).streams g).closed = (s.streams g).closed ∧
      ((s.afterRead f line rest).streams g).parent = (s.streams g).parent := by
    intro g
    unfold afterRead
    dsimp only
    by_cases own : g = f
    · rw [own, Function.update_self]
      exact ⟨rfl, rfl⟩
    · rw [Function.update_of_ne own]
      exact ⟨rfl, rfl⟩
  exact ⟨rfl, rfl, rfl, rfl, fun g => (kept g).1, fun g => (kept g).2⟩

theorem step_line (running : s.status = .running) (high : 0 ≤ s.mkindex) (top : s.mkfile s.mkindex.toNat = some f)
    (open_ : (s.streams f).closed = 0) {line : CharArray lineSize} {rest : List U8}
    (read : fgets s.line (s.streams f).content = some (some line, rest)) :
    s.step files = if includeCommand <+: line.bytes then (s.afterRead f line rest).includeFile files f
      else (s.afterRead f line rest).otherLine := by
  unfold step
  rw [if_neg (not_not.mpr running), if_neg (not_lt.mpr high), top]
  dsimp only
  rw [if_neg (not_not.mpr open_), read]
  rfl

theorem step_close (running : s.status = .running) (high : 0 ≤ s.mkindex) (top : s.mkfile s.mkindex.toNat = some f)
    (open_ : (s.streams f).closed = 0) (ended : fgets s.line (s.streams f).content = none) :
    s.step files = { s with
      streams := Function.update s.streams f { s.streams f with closed := (s.streams f).closed + 1 }
      mkindex := s.mkindex - 1 } := by
  unfold step
  rw [if_neg (not_not.mpr running), if_neg (not_lt.mpr high), top]
  dsimp only
  rw [if_neg (not_not.mpr open_), ended]

theorem includeFile_named (files : List U8 → Option (List U8)) (f : Nat) (room : s.mkindex + 1 < maxNFiles)
    (named : Named s.line) :
    ∃ line name, s.includeFile files f =
      ({ s with line, mkindex := s.mkindex + 1 } : Mkconfig).fopen (files name) (some f) := by
  obtain ⟨t, _, _, _, command, _⟩ := id named
  obtain ⟨pname, k, skipped, scanned⟩ := (named_iff s.line command).mp named
  have inside := nameScan_some scanned
  have part : pname.length ≤ t.length + 1 := by
    have skipped' := skipped
    rw [skipSpaces_eq] at skipped'
    split at skipped'
    · cases skipped'
    · cases skipped'
      exact (List.dropWhile_suffix _).length_le
  have length := s.line.length_eq
  rw [command, List.length_append] at length
  have command_length : includeCommand.length = 8 := rfl
  rw [List.length_tail] at inside
  unfold lineSize at length
  obtain ⟨line, stored, _⟩ := s.line.store_eq (lineSize - pname.length + (1 + (k + 1))) [0#8] (by
    rw [List.length_singleton]
    unfold lineSize
    omega)
  refine ⟨line, line.text (lineSize - pname.length), ?_⟩
  unfold includeFile
  rw [if_neg (not_le.mpr room)]
  dsimp only
  rw [command, strchr_include]
  dsimp only
  rw [skipped]
  dsimp only
  rw [scanned]
  dsimp only
  rw [stored]
  dsimp only
  rw [if_neg (by omega)]

/-- Any other include raises the index without a file, or is lost. -/
theorem includeFile_unnamed (files : List U8 → Option (List U8)) (f : Nat) (room : s.mkindex + 1 < maxNFiles)
    (command : includeCommand <+: s.line.bytes) (unnamed : ¬ Named s.line) :
    (s.includeFile files f).status = .undefined ∨
      ∃ line, s.includeFile files f = { s with line, mkindex := s.mkindex + 1 } := by
  obtain ⟨t, command⟩ := command
  rw [named_iff s.line command.symm] at unnamed
  unfold includeFile
  rw [if_neg (not_le.mpr room)]
  dsimp only
  rw [← command, strchr_include]
  dsimp only
  cases skipped : skipSpaces (0x20#8 :: t) with
  | none => exact Or.inl rfl
  | some pname =>
    dsimp only
    cases scanned : nameScan pname.tail with
    | none => exact Or.inl rfl
    | some k =>
      dsimp only
      cases s.line.store (lineSize - pname.length + (1 + k) : Nat) [0#8] with
      | none => exact Or.inl rfl
      | some line =>
        cases k with
        | zero => exact Or.inr ⟨line, if_pos rfl⟩
        | succ k => exact absurd ⟨pname, k, skipped, scanned⟩ unnamed

theorem fopen_sound (sound : s.Sound) (running : s.status = .running) (high : 0 ≤ s.mkindex)
    (room : s.mkindex + 1 < maxNFiles) (top : s.mkfile s.mkindex.toNat = some f) (line : CharArray lineSize)
    (content : Option (List U8)) :
    (({ s with line, mkindex := s.mkindex + 1 } : Mkconfig).fopen content (some f)).Sound := by
  cases content with
  | none =>
    unfold Mkconfig.fopen
    apply exit_sound
    exact sound.once
  | some content =>
    refine ⟨?_, fun _ => ⟨?_, room⟩, fun _ => fopen_stacked (sound.stacked running) high top line content, ?_, ?_⟩
    · show s.status ≠ .undefined
      rw [running]
      nofun
    · show -1 ≤ s.mkindex + 1
      omega
    · intro g there
      unfold Mkconfig.fopen
      dsimp only
      by_cases own : g = s.opened
      · rw [own, Function.update_self]
        exact Nat.zero_le 1
      · rw [Function.update_of_ne own]
        have before : g < s.opened + 1 := there
        exact sound.once g (by omega)
    · intro code exited
      have exited : s.status = .exited code := exited
      exact nomatch running.symm.trans exited

theorem sound_step (files : List U8 → Option (List U8)) (sound : s.Sound) (regular : s.Regular) :
    (s.step files).Sound := by
  by_cases running : s.status = .running
  · by_cases high : 0 ≤ s.mkindex
    · obtain ⟨f, top, open_⟩ := top_open sound running high
      cases read : fgets s.line (s.streams f).content with
      | none =>
        rw [step_close running high top open_ read]
        refine ⟨sound.defined, fun _ => ?_, fun _ => fclose_stacked (sound.stacked running) high top, ?_, ?_⟩
        · have inside := sound.inside running
          dsimp only
          omega
        · intro g there
          dsimp only
          by_cases own : g = f
          · rw [own, Function.update_self, open_]
          · rw [Function.update_of_ne own]
            exact sound.once g there
        · intro code exited
          exact nomatch running.symm.trans exited
      | some pair =>
        obtain ⟨o, rest⟩ := pair
        obtain ⟨line, rfl⟩ := fgets_inside read
        have kind := regular line ⟨running, high, f, top, open_, rest, read⟩
        have same := afterRead_same s f line rest
        have sound' := same.sound sound
        rw [step_line running high top open_ read]
        split
        · rename_i command
          rw [if_pos command] at kind
          by_cases room : s.mkindex + 1 < maxNFiles
          · obtain ⟨line', name, opened⟩ := includeFile_named files f (s := s.afterRead f line rest) room
              (kind room)
            rw [opened]
            exact fopen_sound sound' running high room top line' (files name)
          · rw [includeFile, if_pos (show (s.afterRead f line rest).mkindex + 1 ≥ maxNFiles from not_lt.mp room)]
            exact sound'
        · rename_i other
          rw [if_neg other] at kind
          obtain ⟨processed, run⟩ := Option.isSome_iff_exists.mp ((processLine_inside_iff s.comment line).mpr kind)
          have run' : processLine (s.afterRead f line rest).comment (s.afterRead f line rest).line.bytes = some processed :=
            run
          unfold otherLine
          rw [run']
          cases processed with
          | exited => exact exit_sound sound'.once 3
          | returned comment printed =>
            have again : SameStack (s.afterRead f line rest) { s.afterRead f line rest with
                comment, output := (s.afterRead f line rest).output ++ printed.toList } :=
              ⟨rfl, rfl, rfl, rfl, fun _ => rfl, fun _ => rfl⟩
            exact again.sound sound'
    · have ends : s.step files = s.exit 0 := by
        unfold step
        rw [if_neg (not_not.mpr running), if_pos (not_le.mp high)]
      rw [ends]
      exact exit_sound sound.once 0
  · have idle : s.step files = s := if_pos running
    rw [idle]
    exact sound

/-- A stack that is longer than before with the same streams open is not sound. -/
theorem raised_unsound (sound : s.Sound) (running : s.status = .running) (high : 0 ≤ s.mkindex)
    (line : CharArray lineSize) : ¬ ({ s with line, mkindex := s.mkindex + 1 } : Mkconfig).Sound := by
  intro raised
  obtain ⟨chain, entries, nodup, _, exact_⟩ := sound.stacked running
  obtain ⟨chain', entries', nodup', _, exact_'⟩ := raised.stacked running
  have same : chain.Perm chain' := (List.perm_ext_iff_of_nodup nodup nodup').mpr fun f =>
    (exact_ f).trans (exact_' f).symm
  have length := congrArg List.length entries
  have length' := congrArg List.length entries'
  rw [Mkconfig.entries, List.length_map, List.length_range, List.length_map] at length length'
  dsimp only at length'
  rw [same.length_eq] at length
  omega

theorem irregular_step (sound : s.Sound) (irregular : ¬ s.Regular) : ¬ (s.step files).Sound := by
  unfold Regular at irregular
  push Not at irregular
  obtain ⟨line, ⟨running, high, f, top, open_, rest, read⟩, broken⟩ := irregular
  have same := afterRead_same s f line rest
  rw [step_line running high top open_ read]
  split
  · rename_i command
    rw [if_pos command] at broken
    push Not at broken
    obtain ⟨room, unnamed⟩ := broken
    obtain lost | ⟨line', raised⟩ := includeFile_unnamed files f (s := s.afterRead f line rest) room command
      unnamed
    · exact fun sound => sound.defined lost
    · rw [raised]
      exact raised_unsound (same.sound sound) running high line'
  · rename_i other
    rw [if_neg other, ← processLine_inside_iff, Option.not_isSome_iff_eq_none] at broken
    have run : processLine (s.afterRead f line rest).comment (s.afterRead f line rest).line.bytes = none := broken
    unfold otherLine
    rw [run]
    exact fun sound => sound.defined rfl

/-! ### Runs -/

theorem start_sound (files : List U8 → Option (List U8)) (arg : Option (List U8)) (line : CharArray lineSize) :
    (start files arg line).Sound := by
  unfold start
  cases arg with
  | none =>
    apply exit_sound
    exact fun f there => absurd there (Nat.not_lt_zero f)
  | some arg =>
    dsimp only
    unfold Mkconfig.fopen
    cases files arg with
    | none =>
      apply exit_sound
      exact fun f there => absurd there (Nat.not_lt_zero f)
    | some content =>
      have inside : (-1 : Int) ≤ 0 ∧ (0 : Int) < maxNFiles := by decide
      refine ⟨nofun, fun _ => inside, fun _ => ⟨[0], rfl, List.nodup_singleton 0, ⟨?_, .singleton 0⟩, fun f => ?_⟩, ?_,
        nofun⟩
      · rintro f first
        cases first
        rfl
      · rw [List.mem_singleton]
        constructor
        · rintro rfl
          exact ⟨Nat.zero_lt_one, rfl⟩
        · rintro ⟨below, _⟩
          exact Nat.lt_one_iff.mp below
      · intro f below
        obtain rfl := Nat.lt_one_iff.mp below
        exact Nat.zero_le 1

/-- The stack is sound at every iteration and at the end, if and only if each line that is read is regular. -/
theorem sound_iff_regular (files : List U8 → Option (List U8)) (arg : Option (List U8)) (line : CharArray lineSize) :
    (∀ n, ((step files)^[n] (start files arg line)).Sound) ↔ ∀ n, ((step files)^[n] (start files arg line)).Regular := by
  have preserved (s : Mkconfig) : s.Sound → s.Regular → (s.step files).Sound := sound_step files
  exact always_iterate_iff preserved (fun _ => id) (fun _ => irregular_step) (start_sound files arg line)

def blankLine : CharArray lineSize := ⟨List.replicate lineSize 0#8, List.length_replicate⟩

def shortInclude : List U8 := includeCommand ++ [0x61#8, newline]

/-- A file `m` that includes the file `a`, which is empty. -/
def twoFiles (name : List U8) : Option (List U8) :=
  if name = [0x6D#8] then some shortInclude else if name = [0x61#8] then some [] else none

/-- The name of one character is refused when the index is already raised. -/
theorem short_name_raises : ¬ ∀ n, ((step twoFiles)^[n] (start twoFiles (some [0x6D#8]) blankLine)).Sound := by
  intro sound
  have taken : takeLine (lineSize - 1) shortInclude = (shortInclude, []) := by decide
  obtain ⟨line, stored, bytes⟩ := blankLine.store_eq 0 (shortInclude ++ [0#8]) (by decide)
  have begins : line.bytes = includeCommand ++
      (0x61#8 :: newline :: 0#8 :: blankLine.bytes.drop (0 + (shortInclude ++ [0#8]).length)) := bytes
  have read : fgets blankLine shortInclude = some (some line, []) := by
    rw [fgets, if_neg (by decide), taken]
    exact congrArg (fun o => some (o, ([] : List U8))) stored
  have raised := sound 1
  rw [Function.iterate_one] at raised
  refine irregular_step (start_sound twoFiles (some [0x6D#8]) blankLine) ?_ raised
  intro regular
  have kind := regular line ⟨rfl, le_refl 0, 0, rfl, rfl, [], read⟩
  rw [if_pos ⟨_, begins.symm⟩] at kind
  obtain ⟨t, c, d, q, command, name, inside, _⟩ := kind (by decide)
  obtain rfl := List.append_cancel_left (begins.symm.trans command)
  rw [List.dropWhile_cons_of_neg (by decide)] at name
  obtain ⟨_, name⟩ := List.cons.inj name
  obtain ⟨same, _⟩ := List.cons.inj name
  rw [← same] at inside
  exact inside (by decide)

end Mkconfig

end TwinpassGateway.Build
