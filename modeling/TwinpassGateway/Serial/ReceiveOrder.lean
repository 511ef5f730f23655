import TwinpassGateway.Serial.Receive

/-!
The order in which received characters come to the line discipline, over all runs of the interrupt and the task.
-/

namespace TwinpassGateway.Serial

open Foundation

namespace Receiver

def Elsewhere (bufNum : Bool) : Option Job → Prop
  | none => True
  | some (.flipping from') => from' = !bufNum
  | some (.handing _ 0) => True
  | some (.handing cp (n + 1)) => half (!bufNum) ≤ cp ∧ cp + (n + 1) ≤ half (!bufNum) + TTY_FLIPBUF_SIZE

/-- The places of the flip buffer: the interrupt writes behind what waits. -/
structure Sound (s : Receiver) : Prop where
  custody : s.received ++ s.leaving ++ s.pending = s.accepted
  place : s.ptr = half s.filling + s.count
  few : s.count ≤ TTY_FLIPBUF_SIZE
  elsewhere : Elsewhere s.bufNum s.job

variable {m : Masks} {s : Receiver}

theorem half_cases (b : Bool) :
    half b = 0 ∧ half (!b) = TTY_FLIPBUF_SIZE ∨ half b = TTY_FLIPBUF_SIZE ∧ half (!b) = 0 := by
  cases b with
  | false => exact .inl ⟨rfl, rfl⟩
  | true => exact .inr ⟨rfl, rfl⟩

theorem apart_of_elsewhere (elsewhere : Elsewhere s.bufNum s.job) : s.Apart := by
  unfold Apart
  split
  · rename_i job
    rw [job] at elsewhere
    rw [show _ = !s.bufNum from elsewhere]
    exact Bool.not_ne_self s.bufNum
  · rename_i job
    rw [job] at elsewhere
    have inside : _ ∧ _ := elsewhere
    rcases half_cases s.bufNum with ⟨here, other⟩ | ⟨here, other⟩
    · omega
    · omega
  · trivial

/-- When the halves have been exchanged under it, the task is in the half that is being filled. -/
theorem not_apart_of_elsewhere (elsewhere : Elsewhere (!s.bufNum) s.job) (busy : s.busy = true) : ¬ s.Apart := by
  unfold Receiver.busy at busy
  unfold Apart
  cases known : s.job with
  | none =>
    rw [known] at busy
    exact absurd busy Bool.false_ne_true
  | some job =>
    rw [known] at elsewhere busy
    cases job with
    | flipping from' =>
      intro apart
      have same : from' = !!s.bufNum := elsewhere
      exact apart (same.trans (Bool.not_not _))
    | handing cp n =>
      cases n with
      | zero => exact absurd rfl (of_decide_eq_true busy)
      | succ n =>
        have inside : half (!!s.bufNum) ≤ cp ∧ cp + (n + 1) ≤ half (!!s.bufNum) + TTY_FLIPBUF_SIZE := elsewhere
        rw [Bool.not_not] at inside
        rintro (below | above)
        · omega
        · omega

theorem Sound.conserved (sound : Sound s) : Conserved s := ⟨sound.custody, apart_of_elsewhere sound.elsewhere⟩

/-- A write into the half that is being filled does not change what the task has left. -/
theorem leaving_update (elsewhere : Elsewhere s.bufNum s.job) {q : Nat} (low : half s.filling ≤ q)
    (high : q < half s.filling + TTY_FLIPBUF_SIZE) (x : Item) :
    (s.job.elim [] fun job => job.leaving (Function.update s.buf q x)) = s.leaving := by
  unfold filling at low high
  unfold leaving
  cases known : s.job with
  | none => rfl
  | some job =>
    rw [known] at elsewhere low high
    cases job with
    | flipping => rfl
    | handing cp n =>
      cases n with
      | zero => rfl
      | succ n =>
        have inside : half (!s.bufNum) ≤ cp ∧ cp + (n + 1) ≤ half (!s.bufNum) + TTY_FLIPBUF_SIZE := elsewhere
        have low : half s.bufNum ≤ q := low
        have high : q < half s.bufNum + TTY_FLIPBUF_SIZE := high
        apply region_update_outside
        rcases half_cases s.bufNum with ⟨here, other⟩ | ⟨here, other⟩
        · omega
        · omega

theorem Sound.store (sound : Sound s) (room : s.count < TTY_FLIPBUF_SIZE) (ch : U8) (flag : Flag) :
    Sound (s.store ch flag) := by
  have place := sound.place
  constructor
  · show s.received ++ (s.job.elim [] fun job => job.leaving (Function.update s.buf s.ptr ⟨ch, flag⟩)) ++
      region (Function.update s.buf s.ptr ⟨ch, flag⟩) (half s.filling) (s.count + 1) = s.accepted ++ [⟨ch, flag⟩]
    rw [leaving_update sound.elsewhere (by omega) (by omega), region_update_behind place, ← List.append_assoc,
      ← sound.custody]
    rfl
  · show s.ptr + 1 = half s.filling + (s.count + 1)
    omega
  · exact room
  · exact sound.elsewhere

theorem Sound.ignore (sound : Sound s) (room : s.count < TTY_FLIPBUF_SIZE) (ch : U8) (flag : Flag) :
    Sound (s.ignore ch flag) := by
  have place := sound.place
  constructor
  · show s.received ++ (s.job.elim [] fun job => job.leaving (Function.update s.buf s.ptr ⟨ch, flag⟩)) ++
      region (Function.update s.buf s.ptr ⟨ch, flag⟩) (half s.filling) s.count = s.accepted
    rw [leaving_update sound.elsewhere (by omega) (by omega), region_update_outside (.inr (Nat.le_of_eq place.symm))]
    exact sound.custody
  · exact place
  · exact sound.few
  · exact sound.elsewhere

theorem Sound.take (sound : Sound s) (room : s.count < TTY_FLIPBUF_SIZE) (ch : U8) (state : U32) :
    Sound (s.take m ch state) := by
  have counted : Sound { s with icount := s.icount.count state, counts := s.counts.count state } :=
    ⟨sound.custody, sound.place, sound.few, sound.elsewhere⟩
  have put : Sound ({ s with icount := s.icount.count state, counts := s.counts.count state }.put ch (m.verdict state)) := by
    unfold Receiver.put
    split
    · exact counted.store room ch _
    · exact counted.ignore room ch _
  unfold Receiver.take markOverrun
  dsimp only
  split
  · rename_i marked
    exact put.store marked.2 0#8 .overrun
  · exact put

theorem idle_cases (idle : s.busy = false) : s.job = none ∨ ∃ cp, s.job = some (.handing cp 0) := by
  unfold busy at idle
  cases known : s.job with
  | none => exact .inl rfl
  | some job =>
    rw [known] at idle
    cases job with
    | flipping => exact absurd idle.symm Bool.false_ne_true
    | handing cp n =>
      have done : n = 0 := by simpa using idle
      exact .inr ⟨cp, by rw [done]⟩

theorem leaving_of_idle (idle : s.busy = false) : s.leaving = [] := by
  unfold leaving
  rcases idle_cases idle with job | ⟨cp, job⟩
  · rw [job]
    rfl
  · rw [job]
    rfl

theorem filling_of_idle (idle : s.busy = false) : s.filling = s.bufNum := by
  unfold filling
  rcases idle_cases idle with job | ⟨cp, job⟩
  · rw [job]
  · rw [job]

theorem elsewhere_of_idle (idle : s.busy = false) (bufNum : Bool) : Elsewhere bufNum s.job := by
  rcases idle_cases idle with job | ⟨cp, job⟩
  · rw [job]
    trivial
  · rw [job]
    trivial

theorem Sound.flushToLdisc (sound : Sound s) (idle : s.dontFlip = false → s.busy = false) : Sound s.flushToLdisc := by
  unfold Receiver.flushToLdisc
  split
  · exact ⟨sound.custody, sound.place, sound.few, sound.elsewhere⟩
  · rename_i flips
    have idle := idle (Bool.eq_false_iff.mpr flips)
    have filling : s.filling = s.bufNum := filling_of_idle idle
    have custody := sound.custody
    unfold pending at custody
    rw [leaving_of_idle idle, List.append_nil, filling] at custody
    constructor
    · show s.received ++ region s.buf (half s.bufNum) s.count ++ s.leaving ++ [] = s.accepted
      rw [leaving_of_idle idle, List.append_nil, List.append_nil, custody]
    · show half (!s.bufNum) = half s.exchange.filling + 0
      rw [filling_of_idle (s := s.exchange) idle]
      rfl
    · exact Nat.zero_le _
    · exact elsewhere_of_idle idle _

theorem Sound.push (sound : Sound s) (done : s.lowLatency → s.dontFlip = false → s.busy = false) : Sound s.ttyFlipBufferPush := by
  unfold ttyFlipBufferPush
  split
  · rename_i low
    exact sound.flushToLdisc (done low)
  · exact ⟨sound.custody, sound.place, sound.few, sound.elsewhere⟩

/-! ### An iteration -/

theorem iteration_room (room : s.count < TTY_FLIPBUF_SIZE) (ch : U8) (state : U32) :
    s.iteration m ch state = { s with ch, lastRead := ch }.take m ch state := by
  unfold iteration makeRoom
  dsimp only
  rw [if_neg (Nat.not_le.mpr room), if_neg (Nat.not_le.mpr room)]

theorem iteration_held (full : TTY_FLIPBUF_SIZE ≤ s.count) (held : s.dontFlip = true) (ch : U8) (state : U32) :
    s.iteration m ch state = { s with ch, lastRead := ch, queued := true }.drop m ch state := by
  unfold iteration makeRoom Receiver.flushToLdisc
  dsimp only
  rw [if_pos full, if_pos held, if_pos full]

theorem iteration_flips (full : TTY_FLIPBUF_SIZE ≤ s.count) (flips : s.dontFlip = false) (ch : U8) (state : U32) :
    s.iteration m ch state = ({ s with ch, lastRead := ch }.flushToLdisc).take m ch state := by
  have flushed : (Receiver.flushToLdisc { s with ch, lastRead := ch }).count = 0 := by
    unfold Receiver.flushToLdisc
    dsimp only
    rw [if_neg (Bool.not_eq_true _ ▸ flips)]
    rfl
  unfold iteration makeRoom
  dsimp only
  rw [if_pos full, flushed]
  exact if_neg (by decide)

theorem Sound.iteration (sound : Sound s) (ch : U8) (state : U32)
    (allowed : TTY_FLIPBUF_SIZE ≤ s.count → if s.dontFlip then (m.verdict state).kept = false else s.busy = false) :
    Sound (s.iteration m ch state) := by
  have read : Sound { s with ch, lastRead := ch } := ⟨sound.custody, sound.place, sound.few, sound.elsewhere⟩
  rcases Nat.lt_or_ge s.count TTY_FLIPBUF_SIZE with room | full
  · rw [iteration_room room]
    exact read.take room ch state
  · have told := allowed full
    by_cases held : s.dontFlip = true
    · rw [if_pos held] at told
      rw [iteration_held full held]
      unfold drop
      rw [told]
      exact ⟨sound.custody, sound.place, sound.few, sound.elsewhere⟩
    · rw [if_neg held] at told
      have flips : s.dontFlip = false := Bool.eq_false_iff.mpr held
      rw [iteration_flips full flips]
      apply Sound.take
      · exact read.flushToLdisc fun _ => told
      · unfold Receiver.flushToLdisc
        dsimp only
        rw [if_neg held]
        exact Nat.zero_lt_succ _

/-! ### The task -/

theorem Sound.exchange (sound : Sound s) {from' : Bool} (flipping : s.job = some (.flipping from')) :
    Sound { s with ptr := half (!from'), count := 0, job := some (.handing (half from') s.count) } := by
  have custody := sound.custody
  have elsewhere := sound.elsewhere
  unfold leaving pending filling at custody
  rw [flipping] at custody elsewhere
  have other : from' = !s.bufNum := elsewhere
  have here : (!from') = s.bufNum := by rw [other, Bool.not_not]
  constructor
  · show s.received ++ region s.buf (half from') s.count ++ [] = s.accepted
    rw [List.append_nil, ← custody]
    exact congrArg (· ++ _) (List.append_nil s.received).symm
  · exact congrArg half here
  · exact Nat.zero_le _
  · show Elsewhere s.bufNum (some (.handing (half from') s.count))
    have few := sound.few
    revert few
    rw [other]
    cases s.count with
    | zero => exact fun _ => trivial
    | succ n => exact fun few => ⟨Nat.le_refl _, Nat.add_le_add_left few _⟩

theorem Sound.receiveLast (sound : Sound s) {cp : Nat} (reading : s.job = some (.handing cp 0)) :
    Sound { s with job := none } := by
  have custody := sound.custody
  have place := sound.place
  unfold leaving pending filling at custody
  unfold filling at place
  rw [reading] at custody place
  exact ⟨custody, place, sound.few, trivial⟩

theorem Sound.receiveChar (sound : Sound s) {cp n : Nat} (reading : s.job = some (.handing cp (n + 1))) :
    Sound { s with received := s.received ++ [s.buf cp], job := some (.handing (cp + 1) n) } := by
  have custody := sound.custody
  have place := sound.place
  have elsewhere := sound.elsewhere
  unfold leaving pending filling at custody
  unfold filling at place
  rw [reading] at custody place elsewhere
  have inside : half (!s.bufNum) ≤ cp ∧ cp + (n + 1) ≤ half (!s.bufNum) + TTY_FLIPBUF_SIZE := elsewhere
  constructor
  · show s.received ++ [s.buf cp] ++ region s.buf (cp + 1) n ++ region s.buf (half s.bufNum) s.count = s.accepted
    rw [← custody, List.append_assoc s.received]
    show _ = s.received ++ region s.buf cp (n + 1) ++ _
    rw [region_cons]
    rfl
  · exact place
  · exact sound.few
  · show Elsewhere s.bufNum (some (.handing (cp + 1) n))
    cases n with
    | zero => trivial
    | succ n => exact ⟨by omega, by omega⟩

theorem Sound.step (sound : Sound s) (e : RxEvent) (allowed : s.Allowed m e) : Sound (s.step m e) := by
  cases e with
  | arrive ch state => exact ⟨sound.custody, sound.place, sound.few, sound.elsewhere⟩
  | rxInt =>
    unfold Receiver.step
    dsimp only
    split
    · exact sound
    · exact ⟨sound.custody, sound.place, sound.few, sound.elsewhere⟩
  | setDontFlip dontFlip =>
    unfold Receiver.step
    dsimp only
    split
    · exact sound
    · exact ⟨sound.custody, sound.place, sound.few, sound.elsewhere⟩
  | timer =>
    unfold Receiver.step
    dsimp only
    split
    · exact sound
    · rename_i runs
      have none : s.job = none := by
        cases known : s.job with
        | none => rfl
        | some job => exact absurd (.inr (.inr (.inl (by rw [known]; rfl)))) runs
      have custody := sound.custody
      have place := sound.place
      unfold leaving pending filling at custody
      unfold filling at place
      rw [none] at custody place
      exact ⟨custody, place, sound.few, (Bool.not_not _).symm⟩
  | exchange =>
    unfold Receiver.step
    dsimp only
    split
    · rename_i from' _ flipping
      exact sound.exchange flipping
    · exact sound
  | receiveChar =>
    unfold Receiver.step
    dsimp only
    split
    · rename_i reading
      exact sound.receiveLast reading
    · rename_i cp n _ reading
      exact sound.receiveChar reading
    · exact sound
  | rxStep =>
    unfold Allowed at allowed
    unfold Receiver.step
    dsimp only at allowed ⊢
    split
    · rename_i rx
      rw [rx] at allowed
      have pushed : Sound (if s.ch ≠ 0#8 then s.ttyFlipBufferPush else s) := by
        split
        · rename_i read
          exact sound.push (allowed read)
        · exact sound
      exact ⟨pushed.custody, pushed.place, pushed.few, pushed.elsewhere⟩
    · rename_i k ch state rest rx fifo
      rw [rx, fifo] at allowed
      have taken : Sound { s with rx := some k, fifo := rest } :=
        ⟨sound.custody, sound.place, sound.few, sound.elsewhere⟩
      exact taken.iteration ch state allowed
    · exact sound

/-! ### What goes wrong otherwise -/

theorem take_bufNum (ch : U8) (state : U32) : (s.take m ch state).bufNum = s.bufNum := by
  unfold Receiver.take markOverrun Receiver.put
  dsimp only
  split <;> split <;> rfl

theorem take_job (ch : U8) (state : U32) : (s.take m ch state).job = s.job := by
  unfold Receiver.take markOverrun Receiver.put
  dsimp only
  split <;> split <;> rfl

theorem apart_take (ch : U8) (state : U32) : (s.take m ch state).Apart ↔ s.Apart := by
  unfold Apart
  rw [take_bufNum, take_job]

/-- The interrupt flips the halves under the task. -/
theorem Sound.flush_spoils (sound : Sound s) (flips : s.dontFlip = false) (busy : s.busy = true) :
    ¬ s.flushToLdisc.Apart := by
  unfold Receiver.flushToLdisc
  rw [if_neg (Bool.not_eq_true _ ▸ flips)]
  apply not_apart_of_elsewhere
  · show Elsewhere (!!s.bufNum) s.job
    rw [Bool.not_not]
    exact sound.elsewhere
  · exact busy

theorem Sound.drop_spoils (sound : Sound s) (ch : U8) (state : U32) (kept : (m.verdict state).kept = true) :
    ¬ Conserved (s.drop m ch state) := by
  intro conserved
  have custody : s.received ++ s.leaving ++ s.pending =
      if (m.verdict state).kept then s.accepted ++ [⟨ch, (m.verdict state).flag⟩] else s.accepted := conserved.custody
  rw [sound.custody, if_pos kept] at custody
  have longer := congrArg List.length custody
  rw [List.length_append] at longer
  exact absurd longer (Nat.ne_of_lt (Nat.lt_succ_self _))

theorem Sound.iteration_spoils (sound : Sound s) (ch : U8) (state : U32) (full : TTY_FLIPBUF_SIZE ≤ s.count)
    (forbidden : ¬ if s.dontFlip then (m.verdict state).kept = false else s.busy = false) :
    ¬ Conserved (s.iteration m ch state) := by
  have read : Sound { s with ch, lastRead := ch } := ⟨sound.custody, sound.place, sound.few, sound.elsewhere⟩
  by_cases held : s.dontFlip = true
  · rw [if_pos held] at forbidden
    rw [iteration_held full held]
    apply Sound.drop_spoils
    · exact ⟨sound.custody, sound.place, sound.few, sound.elsewhere⟩
    · exact Bool.eq_true_of_not_eq_false forbidden
  · rw [if_neg held] at forbidden
    have flips : s.dontFlip = false := Bool.eq_false_iff.mpr held
    rw [iteration_flips full flips]
    intro conserved
    apply read.flush_spoils flips (Bool.eq_true_of_not_eq_false forbidden)
    exact (apart_take ch state).mp conserved.apart

theorem Sound.step_spoils (sound : Sound s) (e : RxEvent) (forbidden : ¬ s.Allowed m e) : ¬ Conserved (s.step m e) := by
  cases e with
  | rxStep =>
    unfold Allowed at forbidden
    unfold Receiver.step
    dsimp only at forbidden ⊢
    split
    · rename_i rx
      rw [rx] at forbidden
      simp only [Classical.not_imp] at forbidden
      obtain ⟨read, low, flips, busy⟩ := forbidden
      rw [if_pos read]
      unfold ttyFlipBufferPush
      rw [if_pos low]
      intro conserved
      exact sound.flush_spoils flips (Bool.eq_true_of_not_eq_false busy) conserved.apart
    · rename_i k ch state rest rx fifo
      rw [rx, fifo] at forbidden
      obtain ⟨full, forbidden⟩ := Classical.not_imp.mp forbidden
      have taken : Sound { s with rx := some k, fifo := rest } :=
        ⟨sound.custody, sound.place, sound.few, sound.elsewhere⟩
      exact taken.iteration_spoils ch state full forbidden
    · rename_i no_end no_char
      apply absurd _ forbidden
      split
      · rename_i rx
        exact absurd rx no_end
      · rename_i rx fifo
        exact absurd fifo (no_char _ _ _ _ rx)
      · trivial
  | _ => exact absurd trivial forbidden

theorem opened_sound (buf : Nat → Item) (lowLatency : Bool) : Sound (opened buf lowLatency) :=
  ⟨rfl, rfl, Nat.zero_le _, trivial⟩

/-- What the interrupt accepts comes to the line discipline once and in order, in every state of the run, exactly when it
meets no character it has no room for and never exchanges the halves under the task. -/
theorem reception_ordered_iff (m : Masks) (buf : Nat → Item) (lowLatency : Bool) (events : List RxEvent) :
    (∀ before after, events = before ++ after → Conserved (exec (step m) (opened buf lowLatency) before)) ↔
      Guarded (step m) (Allowed m) (opened buf lowLatency) events := by
  apply always_iff_guarded
  · exact fun s e (sound : Sound s) allowed => sound.step e allowed
  · exact fun s sound => sound.conserved
  · exact fun s e sound forbidden => sound.step_spoils e forbidden
  · exact opened_sound buf lowLatency

/-! ### At rest -/

/-- What is in the buffer waits for the task, for the end of the interrupt, or behind a NUL. -/
def Awaited (s : Receiver) : Prop :=
  s.count ≠ 0 → s.queued = true ∨ s.lastRead = 0#8 ∨ (s.rx.isSome ∧ s.lastRead = s.ch) ∨
    ∃ bufNum, s.job = some (.flipping bufNum)

theorem awaited_take (rx : s.rx.isSome) (last : s.lastRead = s.ch) (ch : U8) (state : U32) :
    Awaited (s.take m ch state) := by
  intro _
  right; right; left
  unfold Receiver.take markOverrun Receiver.put
  dsimp only
  split <;> split <;> exact ⟨rx, last⟩

theorem awaited_iteration (rx : s.rx.isSome) (ch : U8) (state : U32) : Awaited (s.iteration m ch state) := by
  rcases Nat.lt_or_ge s.count TTY_FLIPBUF_SIZE with room | full
  · rw [iteration_room room]
    apply awaited_take
    · exact rx
    · rfl
  · by_cases held : s.dontFlip = true
    · rw [iteration_held full held]
      exact fun _ => .inl rfl
    · have flips : s.dontFlip = false := Bool.eq_false_iff.mpr held
      rw [iteration_flips full flips]
      unfold Receiver.flushToLdisc
      dsimp only
      rw [if_neg held]
      apply awaited_take
      · exact rx
      · rfl

theorem awaited_push (s : Receiver) : s.ttyFlipBufferPush.count ≠ 0 → s.ttyFlipBufferPush.queued = true := by
  unfold ttyFlipBufferPush Receiver.flushToLdisc
  split
  · split
    · exact fun _ => rfl
    · exact fun waits => absurd rfl waits
  · exact fun _ => rfl

theorem Awaited.step (awaited : Awaited s) (e : RxEvent) : Awaited (s.step m e) := by
  cases e with
  | arrive ch state => exact awaited
  | rxInt =>
    unfold Receiver.step
    dsimp only
    split
    · exact awaited
    · rename_i idle
      intro waits
      rcases awaited waits with queued | nul | ⟨rx, _⟩ | flipping
      · exact .inl queued
      · exact .inr (.inl nul)
      · exact absurd rx idle
      · exact .inr (.inr (.inr flipping))
  | rxStep =>
    unfold Receiver.step
    dsimp only
    split
    · intro waits
      dsimp only at waits ⊢
      by_cases read : s.ch ≠ 0#8
      · rw [if_pos read] at waits ⊢
        exact .inl (awaited_push s waits)
      · rw [if_neg read] at waits ⊢
        rcases awaited waits with queued | nul | ⟨_, last⟩ | flipping
        · exact .inl queued
        · exact .inr (.inl nul)
        · exact .inr (.inl (last.trans (not_not.mp read)))
        · exact .inr (.inr (.inr flipping))
    · apply awaited_iteration
      rfl
    · exact awaited
  | timer =>
    unfold Receiver.step
    dsimp only
    split
    · exact awaited
    · exact fun _ => .inr (.inr (.inr ⟨_, rfl⟩))
  | exchange =>
    unfold Receiver.step
    dsimp only
    split
    · exact fun waits => absurd rfl waits
    · exact awaited
  | receiveChar =>
    unfold Receiver.step
    dsimp only
    split
    · rename_i reading
      intro waits
      rcases awaited waits with queued | nul | reads | ⟨_, flipping⟩
      · exact .inl queued
      · exact .inr (.inl nul)
      · exact .inr (.inr (.inl reads))
      · rw [reading] at flipping
        cases flipping
    · rename_i reading
      intro waits
      rcases awaited waits with queued | nul | reads | ⟨_, flipping⟩
      · exact .inl queued
      · exact .inr (.inl nul)
      · exact .inr (.inr (.inl reads))
      · rw [reading] at flipping
        cases flipping
    · exact awaited
  | setDontFlip dontFlip =>
    unfold Receiver.step
    dsimp only
    split
    · exact awaited
    · exact awaited

/-- When all is at rest, the line discipline has been given all that the interrupt accepted, or the interrupt has read a
NUL last: it asks for the task only behind another character. -/
theorem received_at_rest (m : Masks) (buf : Nat → Item) (lowLatency : Bool) (events : List RxEvent)
    (guarded : Guarded (step m) (Allowed m) (opened buf lowLatency) events)
    (rest : Rest (exec (step m) (opened buf lowLatency) events)) :
    (exec (step m) (opened buf lowLatency) events).received = (exec (step m) (opened buf lowLatency) events).accepted ∨
      (exec (step m) (opened buf lowLatency) events).lastRead = 0#8 := by
  have sound : Sound (exec (step m) (opened buf lowLatency) events) :=
    guarded_invariant (fun s e (sound : Sound s) allowed => sound.step e allowed) (opened_sound buf lowLatency) guarded
  have awaited : Awaited (exec (step m) (opened buf lowLatency) events) :=
    exec_invariant (fun s e (awaited : Awaited s) (_ : True) => awaited.step e)
      (fun waits => absurd rfl waits) fun _ _ => trivial
  generalize exec (step m) (opened buf lowLatency) events = s at sound awaited rest
  obtain ⟨rx, job, queued⟩ := rest
  have custody := sound.custody
  unfold leaving pending at custody
  rw [job, show (Option.elim none [] fun job => Job.leaving s.buf job) = [] from rfl, List.append_nil] at custody
  by_cases waits : s.count = 0
  · left
    rw [waits] at custody
    rw [← custody]
    exact (List.append_nil _).symm
  · right
    rcases awaited waits with asked | nul | ⟨reads, _⟩ | ⟨_, flipping⟩
    · rw [queued] at asked
      cases asked
    · exact nul
    · rw [rx] at reads
      cases reads
    · rw [job] at flipping
      cases flipping

theorem received_at_rest_one_character :
    (exec (step (changeSpeed true false false false)) (opened (fun _ => ⟨0#8, .normal⟩) false)
        [.arrive 97#8 0#32, .rxInt, .rxStep, .rxStep, .timer, .exchange, .receiveChar, .receiveChar]).received =
      (exec (step (changeSpeed true false false false)) (opened (fun _ => ⟨0#8, .normal⟩) false)
        [.arrive 97#8 0#32, .rxInt, .rxStep, .rxStep, .timer, .exchange, .receiveChar, .receiveChar]).accepted ∨
    (exec (step (changeSpeed true false false false)) (opened (fun _ => ⟨0#8, .normal⟩) false)
        [.arrive 97#8 0#32, .rxInt, .rxStep, .rxStep, .timer, .exchange, .receiveChar, .receiveChar]).lastRead = 0#8 :=
  received_at_rest (changeSpeed true false false false) (fun _ => ⟨0#8, .normal⟩) false
    [.arrive 97#8 0#32, .rxInt, .rxStep, .rxStep, .timer, .exchange, .receiveChar, .receiveChar] (by decide) (by decide)

end Receiver

end TwinpassGateway.Serial
