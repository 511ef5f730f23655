import TwinpassGateway.Foundation.Framing
import TwinpassGateway.Ppp.Circuits

/-!
The way of a PPP frame over a circuit: the output function is called until there is room for the packet, and at the
other end `pppoatm_push` hands what arrives to the PPP layer.
-/

namespace TwinpassGateway.Ppp

open Foundation

/-! ### Reception -/

/-- `if (skb->len >= n && !memcmp(skb->data, header, n)) skb_pull(skb, n);` -/
def Skb.pullHeader (skb : Skb) (header : List U8) : Skb :=
  if header.length ≤ skb.bytes.length ∧ skb.bytes.take header.length = header then
    { skb with
      room := skb.room ++ skb.bytes.take header.length
      bytes := skb.bytes.drop header.length }
  else skb

inductive Received where
  /-- `ppp_input_cb`. -/
  | input (sc : Nat) (skb : Skb) (rmemAlloc : U32)
  | freed (rmemAlloc : U32)
  | crashed

/-- `pppoatm_push` of a packet; `ATM_PDU_OVHD` is 0 in `atm_return`. -/
def pppoatmPush (d : Backend) (v : Nat) (rmemAlloc : U32) (skb : Skb) : Received :=
  match d.pvccOf v with
  | none => .crashed
  | some (_, pvcc) =>
    let rmemAlloc := rmemAlloc - (skb.truesize + 0#32)
    let attached (skb : Skb) : Received :=
      match pvcc.pppSc with
      | none => .freed rmemAlloc
      | some sc => .input sc skb rmemAlloc
    match pvcc.encaps with
    | .llc => attached (skb.pullHeader (pppllc.take llcLen))
    | .autodetect => .freed rmemAlloc
    | .vc => attached (skb.pullHeader hdlc)
    | .vcHdlc => attached skb

def Encaps.expected : Encaps → List U8
  | llc => pppllc.take llcLen
  | vc => hdlc
  | _ => []

def Encaps.sentHeader (useHdlc : Bool) : Encaps → List U8
  | llc => pppllc.take llcLen
  | vc => if useHdlc then hdlc else []
  | _ => []

theorem pullHeader_bytes (skb : Skb) (header : List U8) :
    (skb.pullHeader header).bytes = unframed header skb.bytes := by
  unfold Skb.pullHeader unframed
  by_cases found : header <+: skb.bytes
  · rw [if_pos found, if_pos ⟨found.length_le, (List.prefix_iff_eq_take.mp found).symm⟩]
  · rw [if_neg found, if_neg]
    rintro ⟨-, same⟩
    exact found (List.prefix_iff_eq_take.mpr same.symm)

theorem push_input {d : Backend} {v a sc : Nat} {pvcc : Pvcc} (circuit : d.pvccOf v = some (a, pvcc))
    (attached : pvcc.pppSc = some sc) (fixed : pvcc.encaps ≠ .autodetect) (rmemAlloc : U32) (skb : Skb) :
    ∃ got, pppoatmPush d v rmemAlloc skb = .input sc got (rmemAlloc - skb.truesize) ∧
      got.bytes = unframed pvcc.encaps.expected skb.bytes := by
  unfold pppoatmPush
  rw [circuit]
  dsimp only
  rw [attached, BitVec.add_zero]
  cases known : pvcc.encaps with
  | autodetect => exact absurd known fixed
  | llc => exact ⟨_, rfl, pullHeader_bytes skb _⟩
  | vc => exact ⟨_, rfl, pullHeader_bytes skb _⟩
  | vcHdlc => exact ⟨skb, rfl, (unframed_here [] skb.bytes).symm⟩

theorem push_autodetect {d : Backend} {v a : Nat} {pvcc : Pvcc} (circuit : d.pvccOf v = some (a, pvcc))
    (unset : pvcc.encaps = .autodetect) (rmemAlloc : U32) (skb : Skb) :
    pppoatmPush d v rmemAlloc skb = .freed (rmemAlloc - skb.truesize) := by
  unfold pppoatmPush
  rw [circuit]
  dsimp only
  rw [unset, BitVec.add_zero]

/-! ### Transmission -/

/-- A frame without the byte that protocol field compression leaves out. -/
def Pvcc.compressed (pvcc : Pvcc) (frame : List U8) : List U8 :=
  if frame.head? = some 0#8 ∧ pvcc.flags &&& scCompProt ≠ 0#32 then frame.drop 1 else frame

/-- A packet is offered again while there is no room for it. Between the calls `use_hdlc` may change. -/
def offer (pvcc : Pvcc) (skb : Skb) : List (Bool × Line) → Output
  | [] => .retryLater skb
  | (useHdlc, line) :: rest =>
    match rgPppoaOutput useHdlc pvcc skb line with
    | .retryLater skb => offer pvcc skb rest
    | out => out

def Output.Carries (pvcc : Pvcc) (header frame : List U8) : Output → Prop
  | handed sent _ _ => sent.vcc = some pvcc.atmvcc ∧ sent.bytes = header ++ frame
  | dropped => True
  | retryLater kept => pvcc.compressed kept.bytes = frame
  | panicked => False

section Calls

variable {line : Line} {pvcc : Pvcc} {skb : Skb} {header frame : List U8}

/-- A packet as it is behind the compression: when a byte was taken away, it stands in front of the data. -/
structure Ready (pvcc : Pvcc) (frame : List U8) (skb : Skb) : Prop where
  circuit : skb.vcc = some pvcc.atmvcc
  bytes : skb.bytes = frame
  undone : pvcc.compressed skb.bytes ≠ frame → skb.room.getLast? = some 0#8

theorem compressed_zero (on : pvcc.flags &&& scCompProt ≠ 0#32) (frame : List U8) :
    pvcc.compressed (0#8 :: frame) = frame := if_pos ⟨rfl, on⟩

theorem compressed_off (off : pvcc.flags &&& scCompProt = 0#32) (frame : List U8) : pvcc.compressed frame = frame :=
  if_neg fun ⟨_, on⟩ => on off

theorem ready_start (skb : Skb) :
    Ready pvcc (pvcc.compressed skb.bytes)
      (if skb.bytes.head? = some 0#8 ∧ pvcc.flags &&& scCompProt ≠ 0#32 then
        { skb with vcc := some pvcc.atmvcc }.pull
      else { skb with vcc := some pvcc.atmvcc }) := by
  by_cases zero : skb.bytes.head? = some 0#8 ∧ pvcc.flags &&& scCompProt ≠ 0#32
  · obtain ⟨rest, bytes⟩ : ∃ rest, skb.bytes = 0#8 :: rest := List.head?_eq_some_iff.mp zero.1
    rw [if_pos zero]
    unfold Skb.pull
    rw [bytes, compressed_zero zero.2]
    exact ⟨rfl, rfl, fun _ => List.getLast?_concat⟩
  · have same : pvcc.compressed skb.bytes = skb.bytes := if_neg zero
    rw [if_neg zero, same]
    exact ⟨rfl, rfl, fun changed => absurd same changed⟩

theorem nospace_carries (ready : Ready pvcc frame skb) : (nospace pvcc skb).Carries pvcc header frame := by
  unfold nospace
  split
  · rename_i before
    obtain ⟨on, room, zero⟩ := before
    obtain ⟨front, last⟩ := List.getLast?_eq_some_iff.mp zero
    have moved : skb.push 1 = some { skb with room := front, bytes := 0#8 :: frame } := by
      unfold Skb.push
      rw [if_neg (Nat.not_lt.mpr room), last, ready.bytes]
      simp
    rw [moved]
    exact compressed_zero on frame
  · rename_i nothing
    by_contra changed
    apply nothing
    have zero := ready.undone changed
    refine ⟨fun off => changed ?_, ?_, zero⟩
    · rw [← ready.bytes]
      exact compressed_off off skb.bytes
    · apply List.length_pos_iff.mpr
      intro empty
      rw [empty] at zero
      nomatch zero

theorem copyHeader_carries (ready : Ready pvcc frame skb) (enough : header.length ≤ skb.room.length) (line : Line) :
    (copyHeader line skb header).Carries pvcc header frame := by
  have own : (copyHeader line skb header).Own header pvcc.atmvcc skb := copyHeader_own line enough ready.circuit rfl
  cases called : copyHeader line skb header with
  | handed sent _ _ =>
    rw [called] at own
    exact ⟨own.1, by rw [own.2, ready.bytes]⟩
  | dropped => trivial
  | panicked =>
    rw [called] at own
    exact own.elim
  | retryLater kept =>
    unfold copyHeader at called
    split at called
    · nomatch called
    · nomatch called

theorem outputHeader_carries (ready : Ready pvcc frame skb) (line : Line) :
    (outputHeader line pvcc skb header).Carries pvcc header frame := by
  unfold outputHeader
  split
  · rename_i short
    cases made : skbReallocHeadroom line skb header.length with
    | none => trivial
    | some n =>
      obtain ⟨head, _, same⟩ := Option.map_eq_some_iff.mp made
      have enough : header.length ≤ n.room.length := by
        have grown := le_skbDataAlign (header.length - skb.room.length)
        rw [← same, List.length_append, List.length_map, List.length_range]
        omega
      have copied : Ready pvcc frame n := by
        rw [← same]
        refine ⟨ready.circuit, ready.bytes, fun changed => ?_⟩
        rw [List.getLast?_append, ready.undone changed]
        rfl
      dsimp only
      split
      · exact copyHeader_carries copied enough line
      · exact nospace_carries ready
  · rename_i long
    split
    · exact copyHeader_carries ready (Nat.le_of_not_lt long) line
    · exact nospace_carries ready

theorem handOver_carries (ready : Ready pvcc frame skb) (line : Line) :
    (handOver line skb).Carries pvcc [] frame := ⟨ready.circuit, ready.bytes⟩

theorem bare_carries (ready : Ready pvcc frame skb) (line : Line) :
    (if atmMaySend line skb.truesize then handOver line skb else nospace pvcc skb).Carries pvcc [] frame := by
  split
  · exact handOver_carries ready line
  · exact nospace_carries ready

/-- What goes out is the compressed frame behind the circuit's header, and what stays is still a packet for it. -/
theorem output_carries (useHdlc : Bool) (pvcc : Pvcc) (skb : Skb) (line : Line) :
    (rgPppoaOutput useHdlc pvcc skb line).Carries pvcc (pvcc.encaps.sentHeader useHdlc)
      (pvcc.compressed skb.bytes) := by
  have ready : Ready pvcc (pvcc.compressed skb.bytes) _ := ready_start skb
  unfold rgPppoaOutput
  dsimp only
  cases pvcc.encaps with
  | autodetect => trivial
  | llc => exact outputHeader_carries ready line
  | vcHdlc => exact handOver_carries ready line
  | vc =>
    cases useHdlc with
    | true => exact outputHeader_carries ready line
    | false =>
      dsimp only [Encaps.sentHeader]
      rw [if_neg Bool.false_ne_true, if_neg Bool.false_ne_true]
      exact bare_carries ready line

end Calls

/-- The packet that is still to be sent after any number of calls stands for the same frame. -/
theorem offer_keeps {pvcc : Pvcc} {skb kept : Skb} {attempts : List (Bool × Line)}
    (held : offer pvcc skb attempts = .retryLater kept) :
    pvcc.compressed kept.bytes = pvcc.compressed skb.bytes := by
  induction attempts generalizing skb with
  | nil =>
    injection held with same
    rw [same]
  | cons attempt rest ih =>
    have carries := output_carries attempt.1 pvcc skb attempt.2
    unfold offer at held
    cases called : rgPppoaOutput attempt.1 pvcc skb attempt.2 with
    | retryLater again =>
      rw [called] at held carries
      exact (ih held).trans carries
    | handed _ _ _ =>
      rw [called] at held
      nomatch held
    | dropped =>
      rw [called] at held
      nomatch held
    | panicked =>
      rw [called] at held
      nomatch held

theorem offer_safe (pvcc : Pvcc) (skb : Skb) (attempts : List (Bool × Line)) : offer pvcc skb attempts ≠ .panicked := by
  induction attempts generalizing skb with
  | nil => exact Output.noConfusion
  | cons attempt rest ih =>
    have carries := output_carries attempt.1 pvcc skb attempt.2
    unfold offer
    cases called : rgPppoaOutput attempt.1 pvcc skb attempt.2 with
    | retryLater again => exact ih again
    | handed _ _ _ | dropped => exact Output.noConfusion
    | panicked =>
      rw [called] at carries
      exact carries.elim

/-- What the PPP layer gets at the other end is the frame, without the zero that protocol field compression leaves out,
exactly when the header that was sent is the one that is taken off there, or when none was sent and the frame does not
begin with what is taken off there. -/
theorem frame_transported_iff {peer : Backend} {v a sc : Nat} {circuit : Pvcc} (known : peer.pvccOf v = some (a, circuit))
    (attached : circuit.pppSc = some sc) (pvcc : Pvcc) (skb : Skb) (attempts : List (Bool × Line)) (rmemAlloc : U32) :
    offer pvcc skb attempts ≠ .panicked ∧
    ∀ kept, offer pvcc skb attempts = .retryLater kept → ∀ useHdlc line,
      rgPppoaOutput useHdlc pvcc kept line ≠ .panicked ∧
      ∀ sent wmemAlloc refused, rgPppoaOutput useHdlc pvcc kept line = .handed sent wmemAlloc refused →
        ∀ arrived : Skb, arrived.bytes = sent.bytes →
          pppoatmPush peer v rmemAlloc arrived ≠ .crashed ∧
          ((∃ got, pppoatmPush peer v rmemAlloc arrived = .input sc got (rmemAlloc - arrived.truesize) ∧
              got.bytes = pvcc.compressed skb.bytes) ↔
            circuit.encaps ≠ .autodetect ∧
              (pvcc.encaps.sentHeader useHdlc = circuit.encaps.expected ∨
                pvcc.encaps.sentHeader useHdlc = [] ∧ ¬ circuit.encaps.expected <+: pvcc.compressed skb.bytes)) := by
  refine ⟨offer_safe pvcc skb attempts, fun kept held useHdlc line => ?_⟩
  have carries := output_carries useHdlc pvcc kept line
  rw [offer_keeps held] at carries
  constructor
  · intro panicked
    rw [panicked] at carries
    exact carries
  · intro sent wmemAlloc refused handed arrived same
    rw [handed] at carries
    by_cases fixed : circuit.encaps = .autodetect
    · have freed := push_autodetect known fixed rmemAlloc arrived
      rw [freed]
      refine ⟨Received.noConfusion, fun ⟨_, input, _⟩ => Received.noConfusion input, fun ⟨other, _⟩ => absurd fixed other⟩
    · obtain ⟨got, input, bytes⟩ := push_input known attached fixed rmemAlloc arrived
      have whole := unframed_append_iff circuit.encaps.expected (pvcc.encaps.sentHeader useHdlc) (pvcc.compressed skb.bytes)
      rw [← carries.2, ← same, ← bytes] at whole
      rw [input]
      refine ⟨Received.noConfusion, ?_, ?_⟩
      · rintro ⟨_, handedUp, frame⟩
        cases handedUp
        exact ⟨fixed, whole.mp frame⟩
      · rintro ⟨-, fits⟩
        exact ⟨got, rfl, whole.mpr fits⟩

/-! A circuit without a header, and a frame that begins like one. The first call finds no room. -/

def barePvcc : Pvcc := ⟨0, .device 0, .device 0, .vc, 0#32, none⟩

def confusedSkb : Skb := ⟨0, List.replicate 4 0#8, [0xFF#8, 0x03#8, 0x21#8], 64#32, none⟩

def fullLine : Line := { freeLine with wmemAlloc := 1#32 }

def roomyLine : Line := { freeLine with sndbuf := 1000#32 }

def peerPvcc : Pvcc := ⟨0, .device 0, .device 0, .vc, 0#32, some 7⟩

def peerBackend : Backend := ⟨false, fun _ => ⟨some 5, .pppoatm, .pppoatm⟩, fun _ => some peerPvcc, false⟩

/-- The frame is taken for one behind a header. -/
theorem frame_transported_cut :
    ¬ ∃ got, pppoatmPush peerBackend 0 100#32 { confusedSkb with vcc := some 0 } = .input 7 got 36#32 ∧
      got.bytes = [0xFF#8, 0x03#8, 0x21#8] := by
  have known : peerBackend.pvccOf 0 = some (5, peerPvcc) := rfl
  have held : offer barePvcc confusedSkb [(false, fullLine)] = .retryLater { confusedSkb with vcc := some 0 } := rfl
  have handed : rgPppoaOutput false barePvcc { confusedSkb with vcc := some 0 } roomyLine =
      .handed { confusedSkb with vcc := some 0 } 64#32 false := rfl
  have transported := (frame_transported_iff known rfl barePvcc confusedSkb [(false, fullLine)] 100#32).2 _ held false roomyLine
  have cut := (transported.2 _ _ _ handed { confusedSkb with vcc := some 0 } rfl).2
  intro whole
  obtain ⟨-, header | ⟨-, looks⟩⟩ := cut.mp whole
  · exact absurd header (by decide)
  · exact looks (by decide)

end TwinpassGateway.Ppp
