import TwinpassGateway.Eth.ProcParsers

/-!
The handlers behind the `mem`, `mdio`, `setren` and `spi` files of `danube_ppa_eth_d2.c`: for which texts they are safe.
-/

namespace TwinpassGateway.Eth.Parsers

open Foundation

inductive ProcOrder where
  | printk (format : String) (values : List U32)
  | setAsc1Whbstate (value : U32)
  | storeWord (addr value : U32)
  | setMdioAcc (value : U32)
  | sscModeSet (mode : U32)
  | sscTx (data : U32) (mask : BitVec 16)
  | sscRx (data : U32) (mask : BitVec 16)
  | sscOpen
  | sscClose
  deriving DecidableEq

/-- What the handlers meet: the words of the memory, what `TWINPASS_PPE_ETOP_MDIO_ACC` reads as time after time, and the
results of the functions of the synchronous serial driver, with the word that `ifx_ssc_rx` reads. -/
structure Hardware where
  word : U32 → U32 := fun _ => 0
  mdioAcc : Nat → U32 := fun _ => 0
  sscModeSet : Int := 0
  sscTx : Int := 0
  sscRx : Int × U32 := (0, 0)
  sscOpen : Int := 0
  sscClose : Int := 0

def kseg0 : U32 := 0x80000000

def Hardware.Ready (hw : Hardware) : Prop := ∀ k, ∃ n, k ≤ n ∧ hw.mdioAcc n &&& 0x80000000 = 0

section Handlers

variable {size : Nat}

/-- What the four handlers share: the copy, the loop over the tokens, and the command that the first character of the
token tells. -/
def procWrite (commands : List String) (act : Nat → U8 → Cursor size → Routine ProcOrder Unit) (u : UserBuffer)
    (fuel : Nat) (start : LocalChars size) : Routine ProcOrder Int := do
  let s ← .lift (copyIn u start)
  let s ← .lift (findCommand commands fuel s)
  let c ← .lift (s.buf.load s.p1)
  act fuel c s
  pure u.count

def strenCommand (_ : Nat) (c : U8) (_ : Cursor size) : Routine ProcOrder Unit :=
  if c = ascii 'c' then .order (.setAsc1Whbstate 0x1)
  else if c = ascii 's' then .order (.setAsc1Whbstate 0x2)
  else pure ()

def procWriteStren : UserBuffer → Nat → LocalChars 64 → Routine ProcOrder Int := procWrite ["c", "s"] strenCommand

/-- The loop of the command `w` of `proc_write_mem`, with so many rounds left. -/
def storeWords : Nat → Cursor size → U32 → Routine ProcOrder Unit
  | 0, _, _ => .waits
  | fuel + 1, s, p => do
    let (p2, len) ← .lift (do ignoreSpace s.buf (← s.second) s.len)
    if len = 0 then pure ()
    else do
      let c ← .lift (s.buf.load p2)
      if (digitOf true c).isSome then do
        let (p2, len, value) ← .lift (getNumber s.buf true p2 len 0)
        .order (.storeWord p value)
        storeWords fuel { s with p2 := some p2, len := len } (p + 4)
      else pure ()

def orderWhen (b : Bool) (o : ProcOrder) : Routine ProcOrder Unit := if b then .order o else pure ()

def printWords (hw : Hardware) : Nat → Nat → U32 → Routine ProcOrder Unit
  | 0, _, _ => pure ()
  | left + 1, i, p => do
    orderWhen (i % 4 = 0) (.printk "%08X:" [p])
    .order (.printk " %08X" [hw.word p])
    orderWhen (i % 4 = 3) (.printk "\n" [])
    printWords hw left (i + 1) (p + 4)

def readWords (hw : Hardware) (p n : U32) : Routine ProcOrder Unit :=
  if n ≠ 0 then do
    let n := n + (p.sshiftRight 2 &&& 0x3)
    printWords hw n.toInt.toNat 0 (p &&& ~~~0x0F)
    orderWhen (n &&& 0x3 ≠ 0) (.printk "\n" [])
  else pure ()

def memCommand (hw : Hardware) (fuel : Nat) (c : U8) (s : Cursor size) : Routine ProcOrder Unit :=
  if c = ascii 'w' then do
    let (p, s) ← .lift (argument true s)
    if kseg0 ≤ p then storeWords fuel s p else pure ()
  else if c = ascii 'r' then do
    let (p, s) ← .lift (argument true s)
    if kseg0 ≤ p then do
      let (n, _) ← .lift (argument false s)
      readWords hw p n
    else pure ()
  else pure ()

def procWriteMem (hw : Hardware) : UserBuffer → Nat → LocalChars 1024 → Routine ProcOrder Int :=
  procWrite ["w", "write", "r", "read"] (memCommand hw)

/-- The loops that wait for `TWINPASS_PPE_ETOP_MDIO_ACC`: how often it was read then, and its value. -/
def pollMdio (hw : Hardware) : Nat → Nat → Parser (Nat × U32)
  | 0, _ => .waits
  | fuel + 1, k => if hw.mdioAcc k &&& 0x80000000 ≠ 0 then pollMdio hw fuel (k + 1) else pure (k + 1, hw.mdioAcc k)

def mdioAddress (addr reg : U32) : U32 := ((addr &&& 0x1f) <<< 21) ||| ((reg &&& 0x1f) <<< 16)

def mdioCommand (hw : Hardware) (fuel : Nat) (c : U8) (s : Cursor size) : Routine ProcOrder Unit :=
  if c = ascii 'w' then do
    let (addr, s) ← .lift (argument true s)
    let (reg, s) ← .lift (argument true s)
    let (value, _) ← .lift (argument true s)
    let value := value &&& 0xffff
    .order (.printk "write Addr %02x Reg %02x Value %02X\n" [addr, reg, value])
    let _ ← .lift (pollMdio hw fuel 0)
    .order (.setMdioAcc (0x80000000 ||| mdioAddress addr reg ||| value))
  else if c = ascii 'r' then do
    let (addr, s) ← .lift (argument true s)
    let (reg, _) ← .lift (argument true s)
    .order (.printk "read Addr %02x Reg %02x " [addr, reg])
    let (k, _) ← .lift (pollMdio hw fuel 0)
    .order (.setMdioAcc (0xC0000000 ||| mdioAddress addr reg))
    let (_, mdio) ← .lift (pollMdio hw fuel k)
    .order (.printk "value = 0x%04X  %d\n" [mdio &&& 0xffff, mdio &&& 0xffff])
  else pure ()

def procWriteMdio (hw : Hardware) : UserBuffer → Nat → LocalChars 1024 → Routine ProcOrder Int :=
  procWrite ["w", "write", "r", "read"] (mdioCommand hw)

/-- `PLD_mask`: 2 for the commands `ww` and `rw`. -/
def pldMask (s : Cursor size) : Parser (BitVec 16) := do
  if (← s.buf.load (s.p1 + 1 : Nat)) = ascii 'w' then pure 2 else pure 1

def report (failed : Bool) (bad good : ProcOrder) : Routine ProcOrder Unit := .order (if failed then bad else good)

def spiCommand (hw : Hardware) (_ : Nat) (c : U8) (s : Cursor size) : Routine ProcOrder Unit :=
  if c = ascii 'w' then do
    let mask ← .lift (pldMask s)
    .order (.sscModeSet 2)
    if hw.sscModeSet ≠ 0 then .order (.printk "set TX mode failed\n" [])
    else do
      let (data, _) ← .lift (argument true s)
      .order (.printk "proc_write_spi: writing data %x \n" [data])
      .order (.sscTx data mask)
      orderWhen (hw.sscTx < 0) (.printk "write/read data failed \n" [])
  else if c = ascii 'r' then do
    let mask ← .lift (pldMask s)
    .order (.sscModeSet 0)
    if hw.sscModeSet ≠ 0 then .order (.printk "set RXTX mode failed\n" [])
    else do
      let (data, _) ← .lift (argument true s)
      .order (.printk "proc_read_spi: writing data %x \n" [data])
      .order (.sscRx data mask)
      report (hw.sscRx.1 < 0) (.printk "read data failed \n" []) (.printk "spi data read %x \n" [hw.sscRx.2])
  else if c = ascii 'o' then do
    .order .sscOpen
    report (hw.sscOpen ≠ 0) (.printk "spi_open fails\n" []) (.printk "spi opened\n" [])
  else if c = ascii 'c' then do
    .order .sscClose
    report (hw.sscClose ≠ 0) (.printk "spi_close fails\n" []) (.printk "spi_closed\n" [])
  else do
    .order (.printk "spi wl = write lan | ww = write lan | o = open |  c = close\n" [])
    .order (.printk "         read lan | rw = read lan" [])

def procWriteSpi (hw : Hardware) : UserBuffer → Nat → LocalChars 1024 → Routine ProcOrder Int :=
  procWrite ["wl", "ww", "o", "c", "s", "m", "rl", "rw"] (spiCommand hw)

end Handlers

inductive ProcFile where
  | stren
  | mem
  | mdio
  | spi
  deriving DecidableEq

/-- `sizeof(local_buf)`. -/
def ProcFile.size : ProcFile → Nat
  | .stren => 64
  | .mem | .mdio | .spi => 1024

def ProcFile.writeProc (hw : Hardware) : (f : ProcFile) → UserBuffer → Nat → LocalChars f.size → Routine ProcOrder Int
  | .stren => procWriteStren
  | .mem => procWriteMem hw
  | .mdio => procWriteMdio hw
  | .spi => procWriteSpi hw

/-! ### What is expected -/

def stores (orders : List ProcOrder) : List U32 :=
  orders.filterMap fun
    | .storeWord addr _ => some addr
    | _ => none

/-- The words that are stored follow one another, from an address outside the user's memory. -/
def NamedWords (orders : List ProcOrder) : Prop :=
  ∃ base n, stores orders = (List.range n).map (fun k => base + 4 * BitVec.ofNat 32 k) ∧ (0 < n → kseg0 ≤ base)

/-- With enough rounds the handler comes to its end, always to the same one, whatever the local buffer held before; it
stays inside the buffer and stores no words but those that the command names. -/
def RunsSafely {size : Nat} (handler : Nat → LocalChars size → Routine ProcOrder Int) : Prop :=
  ∃ (enough : Nat) (run : Routine ProcOrder Int), run.InBounds ∧ NamedWords run.output ∧
    ∀ fuel, enough ≤ fuel → ∀ start, handler fuel start = run

/-! ### One handler for all -/

variable {size : Nat} {a b : LocalChars size} {s t : Cursor size} {fuel fuel' total : Nat} {u : UserBuffer}

structure CommandSafe (act : Nat → U8 → Cursor size → Routine ProcOrder Unit) : Prop where
  refines : ∀ {fuel fuel' : Nat} {c : U8} {s t : Cursor size}, fuel ≤ fuel' → s.Below t →
    Routine.Refines Eq (act fuel c s) (act fuel' c t)
  ends : ∃ enough, ∀ fuel, enough ≤ fuel → ∀ (c : U8) (s : Cursor size) (total : Nat), s.Located total →
    s.buf.cells s.p1 = some c → (act fuel c s).InBounds
  named : ∀ (fuel : Nat) (c : U8) (s : Cursor size), NamedWords (act fuel c s).output

theorem named_nil : NamedWords [] := ⟨0, 0, rfl, fun some => absurd some (Nat.lt_irrefl 0)⟩

theorem named_of_silent {orders : List ProcOrder} (silent : stores orders = []) : NamedWords orders :=
  ⟨0, 0, silent, fun some => absurd some (Nat.lt_irrefl 0)⟩

theorem refines_procWrite {act : Nat → U8 → Cursor size → Routine ProcOrder Unit} (safe : CommandSafe act)
    (commands : List String) (more : fuel ≤ fuel') (below : a.Below b) :
    Routine.Refines Eq (procWrite commands act u fuel a) (procWrite commands act u fuel' b) := by
  refine Routine.refines_bind (Routine.refines_lift (refines_copyIn u below)) fun s t below => ?_
  refine Routine.refines_bind (Routine.refines_lift (refines_findCommand commands more below)) fun s t below => ?_
  rw [below.p1]
  refine Routine.refines_bind_eq (Routine.refines_lift (LocalChars.refines_load below.buf)) fun c => ?_
  exact Routine.refines_bind (safe.refines more below) fun _ _ _ => Routine.refines_pure rfl

theorem procWrite_safe_iff {act : Nat → U8 → Cursor size → Routine ProcOrder Unit} (safe : CommandSafe act)
    (commands : List String) (u : UserBuffer) : RunsSafely (procWrite commands act u) ↔ LeavesRoom size u := by
  constructor
  · rintro ⟨enough, run, inside, -, same⟩
    rw [← same enough le_rfl {}] at inside
    exact (post_copyIn.mp (Routine.post_lift.mp (Routine.post_bind.mp inside))).1
  · intro room
    obtain ⟨enough, ends⟩ := safe.ends
    have inside : (procWrite commands act u (max enough size) {}).InBounds := by
      have text := copied_terminated room ({} : LocalChars size)
      have short := copied_short_iff.mpr room
      refine Routine.post_bind.mpr (Routine.post_lift.mpr (post_copyIn.mpr ⟨room, ?_⟩))
      refine Routine.post_bind.mpr (Routine.post_lift.mpr ?_)
      refine Routine.post_mono (post_findCommand commands text (Nat.zero_add _) (by dsimp only; omega)) fun s located => ?_
      refine Routine.post_bind.mpr (Routine.post_lift.mpr (located.text.load located.inside fun c here => ?_))
      exact Routine.post_bind.mpr (ends _ (le_max_left _ _) c s _ located here)
    refine ⟨max enough size, _, inside, ?_, fun fuel more start => ?_⟩
    · refine Routine.output_lift_bind named_nil fun s => ?_
      refine Routine.output_lift_bind named_nil fun s => ?_
      refine Routine.output_lift_bind named_nil fun c => ?_
      rw [Routine.output_bind_pure]
      exact safe.named _ c s
    · exact Routine.eq_of_refines (refines_procWrite safe commands more (LocalChars.below_empty start)) inside

/-! ### The commands -/

theorem strenCommand_safe : CommandSafe (@strenCommand size) where
  refines _ _ := Routine.refines_refl _
  ends := ⟨0, fun fuel _ c s total _ _ => by
    unfold strenCommand
    split
    · trivial
    · split <;> trivial⟩
  named fuel c s := by
    unfold strenCommand
    split
    · exact named_of_silent rfl
    · split <;> exact named_of_silent rfl

def StoresFrom (p : U32) (orders : List ProcOrder) : Prop :=
  ∃ n, stores orders = (List.range n).map fun k => p + 4 * BitVec.ofNat 32 k

theorem storeWords_named (fuel : Nat) (s : Cursor size) (p : U32) : StoresFrom p (storeWords fuel s p).output := by
  have nothing (p : U32) : StoresFrom p [] := ⟨0, rfl⟩
  induction fuel generalizing s p with
  | zero => exact nothing p
  | succ fuel ih =>
    refine Routine.output_lift_bind (nothing p) fun r => ?_
    dsimp only
    split
    · exact nothing p
    · refine Routine.output_lift_bind (nothing p) fun c => ?_
      split
      · refine Routine.output_lift_bind (nothing p) fun r => ?_
        obtain ⟨n, later⟩ := ih { s with p2 := some r.1, len := r.2.1 } (p + 4)
        refine ⟨n + 1, (congrArg (List.cons p) later).trans ?_⟩
        rw [List.range_succ_eq_map, List.map_cons, List.map_map]
        congr 1
        · simp
        · apply List.map_congr_left
          intro k _
          simp only [Function.comp_apply, Nat.succ_eq_add_one, BitVec.ofNat_add]
          rw [add_assoc, mul_add, add_comm (4 * BitVec.ofNat 32 k)]
          rfl
      · exact nothing p

theorem refines_storeWords (more : fuel ≤ fuel') (below : s.Below t) (p : U32) :
    Routine.Refines Eq (storeWords fuel s p) (storeWords fuel' t p) := by
  induction fuel generalizing fuel' s t p with
  | zero => exact Routine.refines_waits
  | succ fuel ih =>
    obtain ⟨fuel', rfl⟩ := Nat.exists_eq_add_of_le' (show 1 ≤ fuel' by omega)
    have space : Routine.Refines Eq (do ignoreSpace s.buf (← s.second) s.len) (do ignoreSpace t.buf (← t.second) t.len) := by
      refine Routine.refines_bind_eq (refines_second below) fun q => ?_
      rw [below.len]
      exact refines_ignoreSpace below.buf _ _
    refine Routine.refines_bind_eq (Routine.refines_lift space) ?_
    rintro ⟨p2, len⟩
    dsimp only
    split
    · exact Routine.refines_pure rfl
    · refine Routine.refines_bind_eq (Routine.refines_lift (LocalChars.refines_load below.buf)) fun c => ?_
      split
      · refine Routine.refines_bind_eq (Routine.refines_lift (refines_getNumber below.buf _ _ _ _)) ?_
        rintro ⟨p2', len', value⟩
        have later : Cursor.Below { s with p2 := some p2', len := len' } { t with p2 := some p2', len := len' } :=
          ⟨below.buf, below.p1, rfl, rfl, below.colon⟩
        exact Routine.refines_bind (Routine.refines_order _) fun _ _ _ => ih (by omega) later _
      · exact Routine.refines_pure rfl

theorem storeWords_inBounds (behind : s.Behind total) (enough : s.len < fuel) (p : U32) : (storeWords fuel s p).InBounds := by
  induction fuel generalizing s p with
  | zero => exact absurd enough (Nat.not_lt_zero _)
  | succ fuel ih =>
    have text := behind.text
    refine Routine.post_bind.mpr (Routine.post_lift.mpr (Routine.post_bind.mpr (behind.second fun q whole => ?_)))
    refine Routine.post_mono (post_ignoreSpace text whole) ?_
    rintro ⟨p2, len⟩ ⟨whole', shorter⟩
    dsimp only at whole' shorter ⊢
    split
    · trivial
    · rename_i more
      obtain ⟨len, rfl⟩ := Nat.exists_eq_succ_of_ne_zero more
      refine Routine.post_bind.mpr (Routine.post_lift.mpr (text.load (by omega) fun c here => ?_))
      split
      · rename_i digit
        refine Routine.post_bind.mpr (Routine.post_lift.mpr ?_)
        refine Routine.post_mono (post_getNumber_digit text here digit 0 whole') ?_
        rintro ⟨p2', len', value⟩ ⟨whole'', shorter'⟩
        have later : Cursor.Behind { s with p2 := some p2', len := len' } total := ⟨text, p2', rfl, whole''⟩
        exact Routine.post_bind.mpr (ih later (by dsimp only at shorter' ⊢; omega) _)
      · trivial

theorem orderWhen_inBounds (b : Bool) (o : ProcOrder) : (orderWhen b o).InBounds := by
  cases b <;> trivial

def Silent (m : Routine ProcOrder Unit) : Prop := stores m.output = []

variable {m : Routine ProcOrder Unit} {next : Unit → Routine ProcOrder Unit}

theorem silent_bind (first : Silent m) (later : Silent (next ())) : Silent (m >>= next) := by
  obtain ⟨result, output⟩ := m
  cases result with
  | ok a =>
    show stores (output ++ (next ()).output) = []
    unfold stores
    rw [List.filterMap_append, List.append_eq_nil_iff]
    exact ⟨first, later⟩
  | error ending => exact first

theorem silent_lift {β : Type} {m : Parser β} {next : β → Routine ProcOrder Unit} (later : ∀ b, Silent (next b)) :
    Silent (.lift m >>= next) :=
  Routine.output_lift_bind (P := fun orders => stores orders = []) rfl later

theorem orderWhen_silent {o : ProcOrder} (b : Bool) (silent : stores [o] = []) : Silent (orderWhen b o) := by
  cases b
  · rfl
  · exact silent

theorem printWords_inBounds (hw : Hardware) (left i : Nat) (p : U32) : (printWords hw left i p).InBounds := by
  induction left generalizing i p with
  | zero => trivial
  | succ left ih =>
    refine Routine.post_seq (orderWhen_inBounds _ _) fun _ _ => ?_
    refine Routine.post_bind.mpr ?_
    refine Routine.post_seq (orderWhen_inBounds _ _) fun _ _ => ?_
    exact ih _ _

theorem printWords_silent (hw : Hardware) (left i : Nat) (p : U32) : Silent (printWords hw left i p) := by
  induction left generalizing i p with
  | zero => rfl
  | succ left ih =>
    refine silent_bind (orderWhen_silent _ rfl) ?_
    refine silent_bind rfl ?_
    exact silent_bind (orderWhen_silent _ rfl) (ih _ _)

theorem readWords_inBounds (hw : Hardware) (p n : U32) : (readWords hw p n).InBounds := by
  unfold readWords
  split
  · exact Routine.post_seq (printWords_inBounds _ _ _ _) fun _ _ => orderWhen_inBounds _ _
  · trivial

theorem readWords_silent (hw : Hardware) (p n : U32) : Silent (readWords hw p n) := by
  unfold readWords
  split
  · exact silent_bind (printWords_silent _ _ _ _) (orderWhen_silent _ rfl)
  · rfl

theorem memCommand_named (hw : Hardware) (fuel : Nat) (c : U8) (s : Cursor size) :
    NamedWords (memCommand hw fuel c s).output := by
  unfold memCommand
  split
  · refine Routine.output_lift_bind named_nil fun r => ?_
    dsimp only
    split
    · rename_i outside
      obtain ⟨n, words⟩ := storeWords_named fuel r.2 r.1
      exact ⟨r.1, n, words, fun _ => outside⟩
    · exact named_nil
  · split
    · refine Routine.output_lift_bind named_nil fun r => ?_
      dsimp only
      split
      · exact named_of_silent (silent_lift fun _ => readWords_silent _ _ _)
      · exact named_nil
    · exact named_nil

theorem refines_memCommand (hw : Hardware) {c : U8} (more : fuel ≤ fuel') (below : s.Below t) :
    Routine.Refines Eq (memCommand hw fuel c s) (memCommand hw fuel' c t) := by
  unfold memCommand
  split
  · refine Routine.refines_bind (Routine.refines_lift (refines_argument _ below)) ?_
    rintro ⟨p, s⟩ ⟨_, t⟩ ⟨rfl, below⟩
    dsimp only at below ⊢
    split
    · exact refines_storeWords more below _
    · exact Routine.refines_pure rfl
  · split
    · refine Routine.refines_bind (Routine.refines_lift (refines_argument _ below)) ?_
      rintro ⟨p, s⟩ ⟨_, t⟩ ⟨rfl, below⟩
      dsimp only at below ⊢
      split
      · refine Routine.refines_bind (Routine.refines_lift (refines_argument _ below)) ?_
        rintro ⟨n, s⟩ ⟨_, t⟩ ⟨rfl, -⟩
        exact Routine.refines_refl _
      · exact Routine.refines_pure rfl
    · exact Routine.refines_pure rfl

theorem memCommand_inBounds (hw : Hardware) {c : U8} (enough : size ≤ fuel) (located : s.Located total)
    (here : s.buf.cells s.p1 = some c) : (memCommand hw fuel c s).InBounds := by
  unfold memCommand
  split
  · rename_i write
    have behind := located.behind here (by rw [write]; decide)
    refine Routine.post_lift_seq (post_argument behind true) ?_
    rintro ⟨p, s⟩ behind
    dsimp only at behind ⊢
    split
    · obtain ⟨q, -, whole⟩ := behind.rest
      have fits := behind.text.fits
      exact storeWords_inBounds behind (by omega) p
    · trivial
  · split
    · rename_i read
      have behind := located.behind here (by rw [read]; decide)
      refine Routine.post_lift_seq (post_argument behind true) ?_
      rintro ⟨p, s⟩ behind
      dsimp only at behind ⊢
      split
      · refine Routine.post_lift_seq (post_argument behind false) ?_
        rintro ⟨n, s⟩ -
        exact readWords_inBounds _ _ _
      · trivial
    · trivial

theorem memCommand_safe (hw : Hardware) : CommandSafe (@memCommand size hw) where
  refines := refines_memCommand hw
  ends := ⟨size, fun _ enough _ _ _ located here => memCommand_inBounds hw enough located here⟩
  named := memCommand_named hw

theorem refines_pollMdio (hw : Hardware) (more : fuel ≤ fuel') (k : Nat) :
    Routine.Refines Eq (pollMdio hw fuel k) (pollMdio hw fuel' k) := by
  induction fuel generalizing fuel' k with
  | zero => exact Routine.refines_waits
  | succ fuel ih =>
    obtain ⟨fuel', rfl⟩ := Nat.exists_eq_add_of_le' (show 1 ≤ fuel' by omega)
    unfold pollMdio
    split
    · exact ih (by omega) _
    · exact Routine.refines_pure rfl

theorem post_pollMdio {hw : Hardware} {n k : Nat} (ready : hw.mdioAcc n &&& 0x80000000 = 0) (later : k ≤ n)
    (enough : n - k < fuel) : (pollMdio hw fuel k).Post fun r => r.1 ≤ n + 1 := by
  induction fuel generalizing k with
  | zero => exact absurd enough (Nat.not_lt_zero _)
  | succ fuel ih =>
    unfold pollMdio
    split
    · rename_i busy
      have other : k ≠ n := by
        rintro rfl
        exact busy ready
      exact ih (by omega) (by omega)
    · exact Nat.succ_le_succ later

theorem refines_mdioCommand (hw : Hardware) {c : U8} (more : fuel ≤ fuel') (below : s.Below t) :
    Routine.Refines Eq (mdioCommand hw fuel c s) (mdioCommand hw fuel' c t) := by
  unfold mdioCommand
  split
  · refine Routine.refines_bind (Routine.refines_lift (refines_argument _ below)) ?_
    rintro ⟨addr, s⟩ ⟨_, t⟩ ⟨rfl, below⟩
    refine Routine.refines_bind (Routine.refines_lift (refines_argument _ below)) ?_
    rintro ⟨reg, s⟩ ⟨_, t⟩ ⟨rfl, below⟩
    refine Routine.refines_bind (Routine.refines_lift (refines_argument _ below)) ?_
    rintro ⟨value, s⟩ ⟨_, t⟩ ⟨rfl, below⟩
    refine Routine.refines_bind (Routine.refines_order _) fun _ _ _ => ?_
    exact Routine.refines_bind (Routine.refines_lift (refines_pollMdio hw more 0)) fun _ _ _ => Routine.refines_refl _
  · split
    · refine Routine.refines_bind (Routine.refines_lift (refines_argument _ below)) ?_
      rintro ⟨addr, s⟩ ⟨_, t⟩ ⟨rfl, below⟩
      refine Routine.refines_bind (Routine.refines_lift (refines_argument _ below)) ?_
      rintro ⟨reg, s⟩ ⟨_, t⟩ ⟨rfl, below⟩
      refine Routine.refines_bind (Routine.refines_order _) fun _ _ _ => ?_
      refine Routine.refines_bind_eq (Routine.refines_lift (refines_pollMdio hw more 0)) ?_
      rintro ⟨k, value⟩
      refine Routine.refines_bind (Routine.refines_order _) fun _ _ _ => ?_
      refine Routine.refines_bind_eq (Routine.refines_lift (refines_pollMdio hw more k)) ?_
      rintro ⟨k, value⟩
      exact Routine.refines_refl _
    · exact Routine.refines_pure rfl

theorem mdioCommand_inBounds {hw : Hardware} {first second : Nat} (ready_first : hw.mdioAcc first &&& 0x80000000 = 0)
    (after : first + 1 ≤ second) (ready_second : hw.mdioAcc second &&& 0x80000000 = 0) (enough : second + 1 ≤ fuel) {c : U8}
    (located : s.Located total) (here : s.buf.cells s.p1 = some c) : (mdioCommand hw fuel c s).InBounds := by
  have poll_first := @post_pollMdio fuel hw first 0 ready_first (Nat.zero_le _) (by omega)
  unfold mdioCommand
  split
  · rename_i write
    have behind := located.behind here (by rw [write]; decide)
    refine Routine.post_lift_seq (post_argument behind true) ?_
    rintro ⟨addr, s⟩ behind
    refine Routine.post_lift_seq (post_argument behind true) ?_
    rintro ⟨reg, s⟩ behind
    refine Routine.post_lift_seq (post_argument behind true) ?_
    rintro ⟨value, s⟩ -
    refine Routine.post_bind.mpr (Routine.post_bind.mpr (Routine.post_lift.mpr ?_))
    exact Routine.post_mono poll_first fun _ _ => trivial
  · split
    · rename_i read
      have behind := located.behind here (by rw [read]; decide)
      refine Routine.post_lift_seq (post_argument behind true) ?_
      rintro ⟨addr, s⟩ behind
      refine Routine.post_lift_seq (post_argument behind true) ?_
      rintro ⟨reg, s⟩ -
      refine Routine.post_bind.mpr (Routine.post_bind.mpr (Routine.post_lift.mpr ?_))
      refine Routine.post_mono poll_first ?_
      rintro ⟨k, value⟩ polled
      refine Routine.post_bind.mpr (Routine.post_bind.mpr (Routine.post_lift.mpr ?_))
      have poll_second := @post_pollMdio fuel hw second k ready_second (by dsimp only at polled; omega) (by omega)
      exact Routine.post_mono poll_second fun _ _ => trivial
    · trivial

theorem mdioCommand_named (hw : Hardware) (fuel : Nat) (c : U8) (s : Cursor size) :
    NamedWords (mdioCommand hw fuel c s).output := by
  unfold mdioCommand
  refine named_of_silent ?_
  split
  · refine silent_lift fun _ => silent_lift fun _ => silent_lift fun _ => ?_
    exact silent_bind rfl (silent_lift fun _ => rfl)
  · split
    · refine silent_lift fun _ => silent_lift fun _ => ?_
      refine silent_bind rfl (silent_lift fun _ => ?_)
      exact silent_bind rfl (silent_lift fun _ => rfl)
    · rfl

theorem mdioCommand_safe (hw : Hardware) (ready : hw.Ready) : CommandSafe (@mdioCommand size hw) where
  refines := refines_mdioCommand hw
  ends := by
    obtain ⟨first, -, ready_first⟩ := ready 0
    obtain ⟨second, after, ready_second⟩ := ready (first + 1)
    exact ⟨second + 1, fun _ enough _ _ _ located here =>
      mdioCommand_inBounds ready_first after ready_second enough located here⟩
  named := mdioCommand_named hw

theorem refines_pldMask (below : s.Below t) : Routine.Refines Eq (pldMask s) (pldMask t) := by
  unfold pldMask
  rw [below.p1]
  refine Routine.refines_bind_eq (LocalChars.refines_load below.buf) fun c => ?_
  exact Routine.refines_refl _

theorem pldMask_inBounds {c : U8} (located : s.Located total) (here : s.buf.cells s.p1 = some c) (other : c ≠ 0#8) :
    (pldMask s).InBounds := by
  refine Routine.post_bind.mpr (located.text.load (located.text.before located.inside here other) fun c' _ => ?_)
  split <;> trivial

theorem refines_spiCommand (hw : Hardware) {c : U8} (below : s.Below t) :
    Routine.Refines Eq (spiCommand hw fuel c s) (spiCommand hw fuel' c t) := by
  have transfer {next next' : BitVec 16 → Routine ProcOrder Unit}
      (same : ∀ mask, Routine.Refines Eq (next mask) (next' mask)) :
      Routine.Refines Eq (.lift (pldMask s) >>= next) (.lift (pldMask t) >>= next') := by
    refine Routine.refines_bind_eq (Routine.refines_lift (refines_pldMask below)) fun mask => ?_
    exact same mask
  unfold spiCommand
  split
  · refine transfer fun mask => Routine.refines_bind (Routine.refines_order _) fun _ _ _ => ?_
    split
    · exact Routine.refines_refl _
    · refine Routine.refines_bind (Routine.refines_lift (refines_argument _ below)) ?_
      rintro ⟨data, s⟩ ⟨_, t⟩ ⟨rfl, -⟩
      exact Routine.refines_refl _
  · split
    · refine transfer fun mask => Routine.refines_bind (Routine.refines_order _) fun _ _ _ => ?_
      split
      · exact Routine.refines_refl _
      · refine Routine.refines_bind (Routine.refines_lift (refines_argument _ below)) ?_
        rintro ⟨data, s⟩ ⟨_, t⟩ ⟨rfl, -⟩
        exact Routine.refines_refl _
    · exact Routine.refines_refl _

theorem spiCommand_inBounds (hw : Hardware) {c : U8} (located : s.Located total) (here : s.buf.cells s.p1 = some c) :
    (spiCommand hw fuel c s).InBounds := by
  unfold spiCommand
  split
  · rename_i write
    have other : c ≠ 0#8 := by rw [write]; decide
    refine Routine.post_lift_seq (pldMask_inBounds located here other) fun mask _ => ?_
    refine Routine.post_bind.mpr ?_
    split
    · trivial
    · refine Routine.post_bind.mpr (Routine.post_lift.mpr ?_)
      refine Routine.post_mono (post_argument (located.behind here other) true) fun r _ => ?_
      exact Routine.post_bind.mpr (Routine.post_bind.mpr (orderWhen_inBounds _ _))
  · split
    · rename_i read
      have other : c ≠ 0#8 := by rw [read]; decide
      refine Routine.post_lift_seq (pldMask_inBounds located here other) fun mask _ => ?_
      refine Routine.post_bind.mpr ?_
      split
      · trivial
      · refine Routine.post_bind.mpr (Routine.post_lift.mpr ?_)
        refine Routine.post_mono (post_argument (located.behind here other) true) fun r _ => ?_
        rw [Routine.post_bind, Routine.post_order, Routine.post_bind, Routine.post_order]
        trivial
    · split
      · trivial
      · split <;> trivial

theorem spiCommand_named (hw : Hardware) (fuel : Nat) (c : U8) (s : Cursor size) :
    NamedWords (spiCommand hw fuel c s).output := by
  have reported (failed : Bool) {bad good : ProcOrder} (first : stores [bad] = []) (second : stores [good] = []) :
      Silent (report failed bad good) := by
    cases failed
    · exact second
    · exact first
  unfold spiCommand
  refine named_of_silent ?_
  split
  · refine silent_lift fun mask => silent_bind rfl ?_
    split
    · rfl
    · exact silent_lift fun _ => silent_bind rfl (silent_bind rfl (orderWhen_silent _ rfl))
  · split
    · refine silent_lift fun mask => silent_bind rfl ?_
      split
      · rfl
      · exact silent_lift fun _ => silent_bind rfl (silent_bind rfl (reported _ rfl rfl))
    · split
      · exact silent_bind rfl (reported _ rfl rfl)
      · split
        · exact silent_bind rfl (reported _ rfl rfl)
        · rfl

theorem spiCommand_safe (hw : Hardware) : CommandSafe (@spiCommand size hw) where
  refines _ := refines_spiCommand hw
  ends := ⟨0, fun _ _ _ _ _ located here => spiCommand_inBounds hw located here⟩
  named := spiCommand_named hw

/-- A handler runs safely on a text if and only if that leaves room for the NUL in the local buffer. -/
theorem writeProc_safe_iff (hw : Hardware) (ready : hw.Ready) (f : ProcFile) (u : UserBuffer) :
    RunsSafely (f.writeProc hw u) ↔ LeavesRoom f.size u := by
  have stren : RunsSafely (procWriteStren u) ↔ LeavesRoom 64 u := procWrite_safe_iff strenCommand_safe _ u
  have mem : RunsSafely (procWriteMem hw u) ↔ LeavesRoom 1024 u := procWrite_safe_iff (memCommand_safe hw) _ u
  have mdio : RunsSafely (procWriteMdio hw u) ↔ LeavesRoom 1024 u := procWrite_safe_iff (mdioCommand_safe hw ready) _ u
  have spi : RunsSafely (procWriteSpi hw u) ↔ LeavesRoom 1024 u := procWrite_safe_iff (spiCommand_safe hw) _ u
  cases f with
  | stren => exact stren
  | mem => exact mem
  | mdio => exact mdio
  | spi => exact spi

theorem writeProc_safe_short : RunsSafely (ProcFile.mdio.writeProc {} (.ofText (asciiText "w 1 2 3\n") 8)) :=
  (writeProc_safe_iff {} (fun k => ⟨k, le_rfl, (show (0 : U32) &&& 0x80000000 = 0 by decide)⟩) .mdio _).mpr
    (.inl (show 8 < 1024 by decide))

/-- A text of 64 characters for `setren`: the NUL is stored behind the buffer. -/
theorem full_text_leaves_buffer :
    (∀ fuel start, ¬ (ProcFile.stren.writeProc {} (.ofText (List.replicate 64 (ascii 'x')) 64) fuel start).InBounds) ∧
    ¬ ∀ (hw : Hardware), hw.Ready → ∀ (f : ProcFile) (u : UserBuffer), RunsSafely (f.writeProc hw u) := by
  have full : ¬ LeavesRoom 64 (.ofText (List.replicate 64 (ascii 'x')) 64) := by
    unfold LeavesRoom
    decide
  refine ⟨fun fuel start inside => full ?_, fun always => full ?_⟩
  · exact (post_copyIn.mp (Routine.post_lift.mp (Routine.post_bind.mp inside))).1
  · have ready : Hardware.Ready {} := fun k => ⟨k, le_rfl, (show (0 : U32) &&& 0x80000000 = 0 by decide)⟩
    exact (procWrite_safe_iff strenCommand_safe ["c", "s"] _).mp (always {} ready .stren _)

end TwinpassGateway.Eth.Parsers
