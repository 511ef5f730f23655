import TwinpassGateway.Foundation.Run
import TwinpassGateway.Ppp.Pppoatm

/-!
What packets are sent with on circuits that were set up with different encapsulations, over any operations.
-/

namespace TwinpassGateway.Ppp

open Foundation

def Encaps.header : Encaps → List U8
  | llc => pppllc.take llcLen
  | vcHdlc => hdlc
  | _ => []

def Encaps.kept (e : Encaps) : Encaps := if e = vcHdlc then vc else e

/-- A packet that is sent has one header in front of it, on its circuit. A packet that is to be tried again is unchanged. -/
def Output.Own (header : List U8) (circuit : Nat) (skb : Skb) : Output → Prop
  | handed skb' _ _ => skb'.vcc = some circuit ∧ skb'.bytes = header ++ skb.bytes
  | dropped => True
  | retryLater skb' => skb'.head = skb.head ∧ skb'.room = skb.room ∧ skb'.bytes = skb.bytes
  | panicked => False

/-! ### One packet -/

section Packets

variable {line : Line} {pvcc : Pvcc} {skb : Skb} {header : List U8}

theorem le_skbDataAlign (n : Nat) : n ≤ skbDataAlign n := by
  unfold skbDataAlign
  omega

theorem copyHeader_own (line : Line) (enough : header.length ≤ skb.room.length) {circuit : Nat}
    (on : skb.vcc = some circuit) {given : Skb} (bytes : skb.bytes = given.bytes) :
    (copyHeader line skb header).Own header circuit given := by
  unfold copyHeader Skb.push
  rw [if_neg (Nat.not_lt.mpr enough)]
  refine ⟨on, ?_⟩
  have moved : (skb.room.drop (skb.room.length - header.length)).length = header.length := by
    rw [List.length_drop]
    omega
  dsimp only
  rw [List.drop_left' moved, bytes]

theorem nospace_eq (plain : pvcc.flags = 0#32) : nospace pvcc skb = .retryLater skb := by
  unfold nospace
  rw [plain, if_neg fun ⟨compressed, _⟩ => compressed (by decide)]

theorem outputHeader_own (line : Line) (plain : pvcc.flags = 0#32) {circuit : Nat} (on : skb.vcc = some circuit) :
    (outputHeader line pvcc skb header).Own header circuit skb := by
  unfold outputHeader
  rw [nospace_eq plain]
  split
  · rename_i short
    cases made : skbReallocHeadroom line skb header.length with
    | none => trivial
    | some n =>
      obtain ⟨head, _, same⟩ := Option.map_eq_some_iff.mp made
      have bytes : n.bytes = skb.bytes := by rw [← same]
      have here : n.vcc = some circuit := by rw [← same, on]
      have enough : header.length ≤ n.room.length := by
        have grown := le_skbDataAlign (header.length - skb.room.length)
        rw [← same, List.length_append, List.length_map, List.length_range]
        omega
      dsimp only
      split
      · exact copyHeader_own line enough here bytes
      · exact ⟨rfl, rfl, rfl⟩
  · rename_i long
    split
    · exact copyHeader_own line (Nat.le_of_not_lt long) on rfl
    · exact ⟨rfl, rfl, rfl⟩

theorem handOver_own (line : Line) {circuit : Nat} (on : skb.vcc = some circuit) :
    (handOver line skb).Own [] circuit skb := ⟨on, rfl⟩

/-- The output function with the structure that `ATM_SETBACKEND` leaves for an encapsulation. -/
theorem output_own {useHdlc : Bool} {e : Encaps} (plain : pvcc.flags = 0#32) (kept : pvcc.encaps = e.kept)
    (agrees : pvcc.encaps = .vc → (useHdlc = true ↔ e = .vcHdlc)) (skb : Skb) (line : Line) :
    (rgPppoaOutput useHdlc pvcc skb line).Own e.header pvcc.atmvcc skb := by
  unfold rgPppoaOutput
  dsimp only
  rw [if_neg (by rw [plain]; exact fun ⟨_, compressed⟩ => compressed (by decide))]
  have own (header : List U8) : (outputHeader line pvcc { skb with vcc := some pvcc.atmvcc } header).Own header
      pvcc.atmvcc { skb with vcc := some pvcc.atmvcc } := outputHeader_own line plain rfl
  rw [nospace_eq plain]
  cases e with
  | autodetect =>
    rw [show pvcc.encaps = .autodetect from kept]
    trivial
  | llc =>
    rw [show pvcc.encaps = .llc from kept]
    exact own (pppllc.take llcLen)
  | vcHdlc =>
    have vc : pvcc.encaps = .vc := kept
    rw [vc]
    dsimp only
    rw [if_pos ((agrees vc).mpr rfl)]
    exact own hdlc
  | vc =>
    have vc : pvcc.encaps = .vc := kept
    rw [vc]
    dsimp only
    rw [if_neg fun used => nomatch (agrees vc).mp used]
    split
    · exact handOver_own line rfl
    · exact ⟨rfl, rfl, rfl⟩

def smallSkb : Skb := ⟨0, List.replicate 4 0#8, [1#8], 0#32, none⟩

def freeLine : Line := ⟨none, fun _ => 0#8, 0#32, 1#32, false⟩

/-- What a circuit without LLC sends does depend on `use_hdlc`. -/
theorem small_own {useHdlc : Bool} (plain : pvcc.flags = 0#32) (vc : pvcc.encaps = .vc) {circuit : Nat}
    (own : (rgPppoaOutput useHdlc pvcc smallSkb freeLine).Own header circuit smallSkb) :
    header = if useHdlc then hdlc else [] := by
  unfold rgPppoaOutput at own
  dsimp only at own
  rw [if_neg (by rw [plain]; exact fun ⟨_, compressed⟩ => compressed (by decide)), vc] at own
  cases useHdlc with
  | true =>
    have same : hdlc ++ [1#8] = header ++ [1#8] := own.2
    exact (List.append_cancel_right same).symm
  | false =>
    have same : [] ++ [1#8] = header ++ [1#8] := own.2
    exact (List.append_cancel_right same).symm

end Packets

/-! ### Runs -/

/-- The backend, and for each of its structures the encapsulation that was asked for. -/
structure Traced where
  backend : Backend
  asked : Nat → Encaps

/-- The structure that an operation sets up, and the encapsulation it asks for. -/
def accepted (d : Backend) : Op → Option (Nat × Encaps)
  | .ioctl v (.setBackend b capable (some code) (some a)) =>
    if d.oops = false ∧ (d.ioctl v (.setBackend b capable (some code) (some a))).2 = 0 then
      (Encaps.ofCode code).map fun e => (a, e)
    else none
  | _ => none

def Traced.step (t : Traced) (op : Op) : Traced where
  backend := t.backend.step op
  asked :=
    match accepted t.backend op with
    | none => t.asked
    | some (a, e) => Function.update t.asked a e

def Traced.start (vccs : Nat → Vcc) : Traced := ⟨⟨false, vccs, fun _ => none, false⟩, fun _ => .autodetect⟩

/-- Each structure's packets are sent with the header of the encapsulation that was asked for it, or not changed. -/
def Traced.PerCircuit (header : Encaps → List U8) (t : Traced) : Prop :=
  ∀ o p, t.backend.pvccs o = some p → ∀ skb line,
    (rgPppoaOutput t.backend.useHdlc p skb line).Own (header (t.asked o)) p.atmvcc skb

/-- A circuit is set up with HDLC framing only if each circuit without LLC has it, and without it only if none has. -/
def Traced.Uniform (t : Traced) (op : Op) : Prop :=
  ∀ a e, accepted t.backend op = some (a, e) → ∀ o p, t.backend.pvccs o = some p → p.encaps = .vc →
    (t.asked o = .vcHdlc ↔ e = .vcHdlc)

def Kept (d d' : Backend) : Prop :=
  ∀ o p', d'.pvccs o = some p' → ∃ p, d.pvccs o = some p ∧ p'.atmvcc = p.atmvcc ∧ p'.encaps = p.encaps ∧
    p'.flags = p.flags

/-- What an operation does to the structures: one is set up, or some are kept. -/
inductive Changes (d d' : Backend) : Option (Nat × Encaps) → Prop
  | setUp (a : Nat) (e : Encaps) (p : Pvcc) (free : d.pvccs a = none) (encaps : p.encaps = e.kept)
      (flags : p.flags = 0#32) (useHdlc : d'.useHdlc = true ↔ e = .vcHdlc)
      (pvccs : d'.pvccs = Function.update d.pvccs a (some p)) : Changes d d' (some (a, e))
  | kept (useHdlc : d'.useHdlc = d.useHdlc) (kept : Kept d d') : Changes d d' none

section Steps

variable {d : Backend} {v : Nat}

theorem kept_refl (d : Backend) : Kept d d := fun _ p same => ⟨p, same, rfl, rfl, rfl⟩

theorem pvccOf_some {a : Nat} {p : Pvcc} (found : d.pvccOf v = some (a, p)) : d.pvccs a = some p := by
  obtain ⟨a', _, found⟩ := Option.bind_eq_some_iff.mp found
  obtain ⟨p', there, same⟩ := Option.map_eq_some_iff.mp found
  cases same
  exact there

theorem kept_update {a : Nat} {p : Pvcc} (there : d.pvccs a = some p) (sc : Option Nat) :
    Kept d { d with pvccs := Function.update d.pvccs a (some { p with pppSc := sc }) } := by
  intro o p' same
  by_cases own : o = a
  · subst own
    obtain rfl := Option.some.inj ((Function.update_self o _ d.pvccs).symm.trans same)
    exact ⟨p, there, rfl, rfl, rfl⟩
  · exact ⟨p', (Function.update_of_ne own _ d.pvccs).symm.trans same, rfl, rfl, rfl⟩

theorem kept_freed (d : Backend) (a : Nat) (vccs : Nat → Vcc) :
    Kept d { d with vccs, pvccs := Function.update d.pvccs a none } := by
  intro o p' same
  by_cases own : o = a
  · subst own
    exact nomatch (Function.update_self o _ d.pvccs).symm.trans same
  · exact ⟨p', (Function.update_of_ne own _ d.pvccs).symm.trans same, rfl, rfl, rfl⟩

theorem Kept.trans {d' d'' : Backend} (first : Kept d d') (second : Kept d' d'') : Kept d d'' := by
  intro o p'' there
  obtain ⟨p', there', vcc', encaps', flags'⟩ := second o p'' there
  obtain ⟨p, there, vcc, encaps, flags⟩ := first o p' there'
  exact ⟨p, there, vcc'.trans vcc, encaps'.trans encaps, flags'.trans flags⟩

theorem unassignVcc_keeps (d : Backend) (v : Nat) :
    (d.unassignVcc v).useHdlc = d.useHdlc ∧ Kept d (d.unassignVcc v) := by
  unfold Backend.unassignVcc
  cases d.pvccOf v with
  | none => exact ⟨rfl, kept_refl d⟩
  | some found => exact ⟨rfl, kept_freed d found.1 _⟩

theorem close_keeps (d : Backend) (v : Nat) : (d.close v).useHdlc = d.useHdlc ∧ Kept d (d.close v) := by
  obtain ⟨same, kept⟩ := unassignVcc_keeps d v
  obtain ⟨same', kept'⟩ := unassignVcc_keeps (d.unassignVcc v) v
  unfold Backend.close
  dsimp only
  split
  · exact ⟨rfl, kept_refl d⟩
  · split
    · exact ⟨same, kept⟩
    · exact ⟨same'.trans same, kept.trans kept'⟩

theorem attach_keeps (d : Backend) (v : Nat) (sc : Option Nat) :
    (d.attach v sc).1.useHdlc = d.useHdlc ∧ Kept d (d.attach v sc).1 := by
  unfold Backend.attach
  cases found : d.pvccOf v with
  | none => exact ⟨rfl, kept_refl d⟩
  | some pair => exact ⟨rfl, kept_update (pvccOf_some found) sc⟩

theorem detach_keeps (d : Backend) (v : Nat) : (d.detach v).1.useHdlc = d.useHdlc ∧ Kept d (d.detach v).1 := by
  unfold Backend.detach
  cases found : d.pvccOf v with
  | none => exact ⟨rfl, kept_refl d⟩
  | some pair => exact ⟨rfl, kept_update (pvccOf_some found) none⟩

/-- `pppoatm_assign_vcc` either sets a structure up in free memory, or returns an error and changes nothing. -/
theorem assignVcc_cases (d : Backend) (v : Nat) (be : Option Int) (room : Option Nat) :
    (∃ code a e, be = some code ∧ room = some a ∧ Encaps.ofCode code = some e ∧
      (d.assignVcc v be room).2 = 0 ∧ Changes d (d.assignVcc v be room).1 (some (a, e))) ∨
      ((d.assignVcc v be room).2 ≠ 0 ∧ (d.assignVcc v be room).1 = d) := by
  cases be with
  | none => exact Or.inr ⟨show (-14 : Int) ≠ 0 by decide, rfl⟩
  | some code =>
    cases known : Encaps.ofCode code with
    | none =>
      have refused : d.assignVcc v (some code) room = (d, -22) := by
        unfold Backend.assignVcc
        simp only [known]
      rw [refused]
      exact Or.inr ⟨show (-22 : Int) ≠ 0 by decide, rfl⟩
    | some e =>
      cases given : room.filter fun a => (d.pvccs a).isNone with
      | none =>
        have refused : d.assignVcc v (some code) room = (d, -12) := by
          unfold Backend.assignVcc
          simp only [known, given]
        rw [refused]
        exact Or.inr ⟨show (-12 : Int) ≠ 0 by decide, rfl⟩
      | some a =>
        obtain ⟨here, free⟩ := Option.filter_eq_some_iff.mp given
        have free : d.pvccs a = none := Option.isNone_iff_eq_none.mp free
        refine Or.inl ⟨code, a, e, rfl, here, known, ?_⟩
        unfold Backend.assignVcc
        dsimp only
        rw [known]
        dsimp only
        rw [given]
        exact ⟨rfl, .setUp a e _ free rfl rfl decide_eq_true_iff rfl⟩

theorem accepted_none {op : Op} (dead : d.oops = true) : accepted d op = none := by
  unfold accepted
  split
  · rw [if_neg fun ⟨alive, _⟩ => nomatch dead.symm.trans alive]
  · rfl

theorem setBackend_changes (alive : d.oops = false) (v : Nat) (b : Option Int) (capable : Bool) (be : Option Int)
    (room : Option Nat) : Changes d (d.ioctl v (.setBackend b capable be room)).1
      (accepted d (.ioctl v (.setBackend b capable be room))) := by
  have refused {rc : Int} (same : d.ioctl v (.setBackend b capable be room) = (d, rc)) (failed : rc ≠ 0) :
      Changes d (d.ioctl v (.setBackend b capable be room)).1
        (accepted d (.ioctl v (.setBackend b capable be room))) := by
    have nothing : accepted d (.ioctl v (.setBackend b capable be room)) = none := by
      cases be with
      | none => rfl
      | some code =>
        cases room with
        | none => rfl
        | some a => rw [accepted, if_neg fun ⟨_, done⟩ => failed (by rwa [same] at done)]
    rw [nothing, same]
    exact .kept rfl (kept_refl d)
  cases b with
  | none => exact refused rfl (show (-14 : Int) ≠ 0 by decide)
  | some b =>
    by_cases ppp : b ≠ Backend.atmBackendPpp
    · exact refused (if_pos ppp) (show (-515 : Int) ≠ 0 by decide)
    · by_cases able : capable = false
      · exact refused ((if_neg ppp).trans (if_pos able)) (show (-1 : Int) ≠ 0 by decide)
      · have same : d.ioctl v (.setBackend (some b) capable be room) = d.assignVcc v be room :=
          (if_neg ppp).trans (if_neg able)
        obtain ⟨code, a, e, rfl, rfl, known, done, changes⟩ | ⟨failed, unchanged⟩ := assignVcc_cases d v be room
        · have taken : accepted d (.ioctl v (.setBackend (some b) capable (some code) (some a))) = some (a, e) := by
            rw [accepted, same, if_pos ⟨alive, done⟩, known]
            rfl
          rw [same, taken]
          exact changes
        · exact refused (same.trans (Prod.ext unchanged rfl)) failed

theorem step_changes (d : Backend) (op : Op) : Changes d (d.step op) (accepted d op) := by
  unfold Backend.step
  cases alive : d.oops with
  | true =>
    rw [accepted_none alive]
    exact .kept rfl (kept_refl d)
  | false =>
    rw [if_neg (by decide)]
    cases op with
    | close v =>
      obtain ⟨same, kept⟩ := close_keeps d v
      exact .kept same kept
    | output o skb line =>
      dsimp only
      split
      · exact .kept rfl (kept_refl d)
      · exact .kept rfl (kept_refl d)
    | ioctl v request =>
      cases request with
      | setBackend b capable be room => exact setBackend_changes alive v b capable be room
      | other => exact .kept rfl (kept_refl d)
      | attach named sc =>
        obtain ⟨same, kept⟩ := attach_keeps d v sc
        dsimp only [Backend.ioctl]
        split
        · exact .kept rfl (kept_refl d)
        · split
          · exact .kept rfl (kept_refl d)
          · exact .kept same kept
      | detach =>
        obtain ⟨same, kept⟩ := detach_keeps d v
        dsimp only [Backend.ioctl]
        split
        · exact .kept rfl (kept_refl d)
        · exact .kept same kept

end Steps

/-- Each structure is as `ATM_SETBACKEND` leaves it, and `use_hdlc` is what each circuit without LLC asked for. -/
def Traced.Settled (t : Traced) : Prop :=
  ∀ o p, t.backend.pvccs o = some p → p.flags = 0#32 ∧ p.encaps = (t.asked o).kept ∧
    (p.encaps = .vc → (t.backend.useHdlc = true ↔ t.asked o = .vcHdlc))

theorem settled_perCircuit {t : Traced} (settled : t.Settled) : t.PerCircuit Encaps.header := by
  intro o p there skb line
  obtain ⟨plain, kept, agrees⟩ := settled o p there
  exact output_own plain kept agrees skb line

theorem settled_step {t : Traced} {op : Op} (settled : t.Settled) (uniform : t.Uniform op) :
    (t.step op).Settled := by
  have changes := step_changes t.backend op
  intro o p' there
  unfold Traced.step at there ⊢
  dsimp only at there ⊢
  unfold Traced.Uniform at uniform
  revert uniform changes
  cases accepted t.backend op with
  | none =>
    rintro _ (_ | ⟨useHdlc, kept⟩)
    obtain ⟨p, there', _, encaps, flags⟩ := kept o p' there
    rw [useHdlc, encaps, flags]
    exact settled o p there'
  | some pair =>
    rintro uniform (⟨a, e, p, free, encaps, flags, useHdlc, pvccs⟩ | _)
    rw [pvccs] at there
    dsimp only
    by_cases own : o = a
    · subst own
      rw [Function.update_self] at there ⊢
      cases there
      exact ⟨flags, encaps, fun _ => useHdlc⟩
    · rw [Function.update_of_ne own] at there ⊢
      obtain ⟨plain, kept, _⟩ := settled o p' there
      exact ⟨plain, kept, fun vc => useHdlc.trans (uniform a e rfl o p' there vc).symm⟩

/-- A circuit that is set up otherwise than one that is there gives that one its framing. -/
theorem mixed_step {t : Traced} {op : Op} (settled : t.Settled) (mixed : ¬ t.Uniform op) :
    ¬ (t.step op).PerCircuit Encaps.header := by
  unfold Traced.Uniform at mixed
  push Not at mixed
  obtain ⟨a, e, taken, o, p, there, vc, differ⟩ := mixed
  obtain ⟨plain, kept, _⟩ := settled o p there
  have changes := step_changes t.backend op
  rw [taken] at changes
  obtain ⟨_, _, p', free, _, _, useHdlc, pvccs⟩ | _ := changes
  intro own
  have other : o ≠ a := by
    rintro rfl
    exact nomatch free.symm.trans there
  have there' : (t.step op).backend.pvccs o = some p := by
    rw [← there]
    exact (congrFun pvccs o).trans (Function.update_of_ne other _ _)
  have asked : (t.step op).asked o = t.asked o := by
    unfold Traced.step
    rw [taken]
    exact Function.update_of_ne other _ _
  have sent := small_own plain vc (own o p there' smallSkb freeLine)
  rw [asked] at sent
  have flag : (t.step op).backend.useHdlc = true ↔ e = .vcHdlc := useHdlc
  have named : t.asked o = .vc ∨ t.asked o = .vcHdlc := by
    rw [vc] at kept
    cases which : t.asked o with
    | autodetect => rw [which] at kept; cases kept
    | llc => rw [which] at kept; cases kept
    | vc => exact Or.inl rfl
    | vcHdlc => exact Or.inr rfl
  obtain isVc | isHdlc := named
  · have hdlcUsed : e = .vcHdlc := by
      rw [isVc] at differ
      tauto
    rw [isVc, flag.mpr hdlcUsed] at sent
    cases sent
  · have notUsed : (t.step op).backend.useHdlc = false := by
      rw [isHdlc] at differ
      have other : e ≠ .vcHdlc := by tauto
      exact Bool.eq_false_iff.mpr fun used => other (flag.mp used)
    rw [isHdlc, notUsed] at sent
    cases sent

/-- The structures' packets are sent with their own encapsulations after every operation of a run, if and only if no
circuit is set up otherwise than one that is there. -/
theorem perCircuit_iff (vccs : Nat → Vcc) (ops : List Op) :
    (∀ before after, ops = before ++ after → (exec Traced.step (.start vccs) before).PerCircuit Encaps.header) ↔
      Guarded Traced.step Traced.Uniform (.start vccs) ops := by
  have start : (Traced.start vccs).Settled := fun o p there => nomatch there
  have preserved (t : Traced) (op : Op) : t.Settled → t.Uniform op → (t.step op).Settled := settled_step
  exact always_iff_guarded preserved (fun _ => settled_perCircuit) (fun _ _ => mixed_step) start

def setUp (circuit : Nat) (code : Int) : Op := .ioctl circuit (.setBackend (some 1) true (some code) (some circuit))

def plainVcc : Vcc := ⟨none, .device 0, .device 1⟩

/-- One circuit with HDLC framing, and then a second without. -/
theorem framing_mixed : ¬ ∃ header : Encaps → List U8, ∀ (vccs : Nat → Vcc) (ops : List Op),
    (exec Traced.step (.start vccs) ops).PerCircuit header := by
  rintro ⟨header, own⟩
  have alone := own (fun _ => plainVcc) [setUp 0 3] 0 ⟨0, .device 0, .device 1, .vc, 0#32, none⟩ rfl smallSkb freeLine
  have joined := own (fun _ => plainVcc) [setUp 0 3, setUp 1 1] 0 ⟨0, .device 0, .device 1, .vc, 0#32, none⟩ rfl
    smallSkb freeLine
  have framed : header .vcHdlc = hdlc := small_own rfl rfl alone
  have bare : header .vcHdlc = [] := small_own rfl rfl joined
  exact nomatch framed.symm.trans bare

end TwinpassGateway.Ppp
