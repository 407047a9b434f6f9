/-
# The registers and what was written to them

All writes to the registers go through one bus address, and only a latch byte says which register it is for.
A data byte is for the register that the last latch byte chose, however long ago that was.  The
period of a tone is put together from two bytes, and other registers may be written between them.

This module reads the registers off the history of the bus, without going through the states in between.
A history is a list of bytes, **the newest first**, so "the last byte that ..." is the first one that is
found.

* `received register bytes` are the bytes that were for a register: the latch bytes that chose it and
  the data bytes that came while it was chosen.
* `recalled register bytes` is what these come to.  A volume and the noise register hold the last byte.  The
  period of a tone holds the last latch byte and the last data byte, each in its own bits.

Main statement: `Psg.registers_are_last_writes`.  One step is `content_writeByte`: a byte changes the register
it is for and no other.
-/
import ChipLog.Proofs.Psg.Noise

namespace ChipLog.Psg

/-! ## 1. Histories -/

/-- What an event makes of the history of the bus, given as addresses and bytes.  A start ends it. -/
def remember (history : List (UInt8 × UInt8)) : EngineEvent → List (UInt8 × UInt8)
  | .told (.bus address data) => (address, data) :: history
  | .told (.start _) => []
  | .told (.configure _) | .told (.rom ..) | .told (.ram ..) | .clocked => history

/-- All that was written to the bus since the last start. -/
def busHistory (events : List EngineEvent) : List (UInt8 × UInt8) := events.foldl remember []

/-- The bytes at even addresses, which are for the registers. -/
def registerBytes (history : List (UInt8 × UInt8)) : List Nat :=
  history.filterMap fun write => if write.1 % 2 == 0 then some write.2.toNat else none

/-- The bytes at odd addresses, which are stereo masks. -/
def masks (history : List (UInt8 × UInt8)) : List UInt8 :=
  history.filterMap fun write => if write.1 % 2 == 0 then none else some write.2

/-- Whether a byte is a latch byte; the others are data bytes. -/
def isLatchByte (byte : Nat) : Bool := 128 ≤ byte

/-- The register that is chosen after some bytes, by the last latch byte.  If there was none, it is the
period of the first tone, as if the byte 0x80 had come before all others. -/
def chosen (bytes : List Nat) : Latch := Latch.ofByte ((bytes.find? isLatchByte).getD 0x80)

example : chosen [] = ⟨0, false⟩ := rfl

/-- The bytes that were for a register. -/
def received (register : Latch) : List Nat → List Nat
  | [] => []
  | byte :: older =>
    if chosen (byte :: older) = register then byte :: received register older
    else received register older

/-- What a register holds after some bytes. -/
def recalled (register : Latch) (bytes : List Nat) : Nat :=
  let own := received register bytes
  if register.volume then own.head?.elim 15 (· % 16)
  else if register.channel.val < 3 then
    16 * (own.find? (!isLatchByte ·)).elim 0 (· % 64) + (own.find? isLatchByte).elim 0 (· % 16)
  else own.head?.elim 0 (· % 8)

/-! ## 2. One byte -/

/-- What a byte makes of the value of the register it is for. -/
def Latch.take (register : Latch) (byte old : Nat) : Nat :=
  if register.volume then byte % 16
  else if register.channel.val < 3 then
    if isLatchByte byte then old / 16 * 16 + byte % 16 else byte % 64 * 16 + old % 16
  else byte % 8

/-- The value of a register. -/
def content (register : Latch) (psg : Psg) : Nat :=
  if register.volume then psg.attenuation[register.channel]
  else if h : register.channel.val < 3 then psg.periods[register.channel.val]
  else psg.noiseControl

section Bytes

variable {psg : Psg} {register : Latch} {byte : Nat} {bytes : List Nat}

theorem chosen_cons :
    chosen (byte :: bytes) = if 128 ≤ byte then Latch.ofByte byte else chosen bytes := by
  by_cases hlatch : 128 ≤ byte
  · simp [chosen, isLatchByte, hlatch]
  · simp [chosen, isLatchByte, hlatch]

theorem recalled_cons_of_ne (h : chosen (byte :: bytes) ≠ register) :
    recalled register (byte :: bytes) = recalled register bytes := by
  rw [recalled, received, if_neg h, recalled]

/-- The low four bits of a period are those of the last latch byte. -/
theorem elim_mod_lt (byte : Option Nat) : byte.elim 0 (· % 16) < 16 := by
  cases byte with
  | none => decide
  | some byte => exact Nat.mod_lt byte (by decide)

theorem recalled_cons_of_eq (h : chosen (byte :: bytes) = register) :
    recalled register (byte :: bytes) = register.take byte (recalled register bytes) := by
  have hlow := elim_mod_lt ((received register bytes).find? isLatchByte)
  unfold recalled Latch.take
  dsimp only
  rw [received, if_pos h]
  by_cases hvolume : register.volume = true
  · rw [if_pos hvolume, if_pos hvolume]
    rfl
  · by_cases htone : register.channel.val < 3
    · rw [if_neg hvolume, if_neg hvolume, if_pos htone, if_pos htone, if_neg hvolume, if_pos htone]
      by_cases hlatch : isLatchByte byte = true
      · rw [if_pos hlatch, List.find?_cons_of_pos hlatch, List.find?_cons_of_neg (by simp [hlatch]),
          Option.elim_some]
        omega
      · rw [if_neg hlatch, List.find?_cons_of_neg hlatch, List.find?_cons_of_pos (by simp [hlatch]),
          Option.elim_some]
        omega
    · rw [if_neg hvolume, if_neg hvolume, if_neg htone, if_neg htone]
      rfl

/-- A write to the chosen register sets a volume or the noise register, or changes a period. -/
theorem content_store_self (psg : Psg) (nibble : Nat) (tone : Nat → Nat) :
    (psg.store nibble tone).content psg.latch =
      if psg.latch.volume then nibble
      else if psg.latch.channel.val < 3 then tone (psg.content psg.latch)
      else nibble % 8 := by
  unfold store content
  by_cases hvolume : psg.latch.volume = true
  · simp [hvolume]
  · by_cases htone : psg.latch.channel.val < 3
    · simp [hvolume, htone]
    · simp [hvolume, htone, setNoise]

/-- It leaves every other register alone. -/
theorem content_store_of_ne (psg : Psg) (h : psg.latch ≠ register) (nibble : Nat)
    (tone : Nat → Nat) :
    (psg.store nibble tone).content register = psg.content register := by
  have hne : psg.latch.volume = register.volume → psg.latch.channel.val ≠ register.channel.val := by
    intro hvolume hchannel
    apply h
    cases hlatch : psg.latch
    cases register
    simp_all [Fin.ext_iff]
  unfold store content
  by_cases hvolume : psg.latch.volume = true
  · by_cases hvolume' : register.volume = true
    · simp [hvolume, hvolume', Vector.getElem_set_ne _ _ (hne (hvolume.trans hvolume'.symm))]
    · simp [hvolume, hvolume']
  · by_cases htone : psg.latch.channel.val < 3
    · by_cases hvolume' : register.volume = true
      · simp [hvolume, htone, hvolume']
      · have hchannel := hne (by simp_all)
        simp [hvolume, htone, hvolume', Vector.getElem_set_ne, hchannel]
    · by_cases hvolume' : register.volume = true
      · simp [hvolume, htone, hvolume', setNoise]
      · have hchannel := hne (by simp_all)
        have htone' : register.channel.val < 3 := by omega
        simp [hvolume, htone, hvolume', htone', setNoise]

/-- The choice of a register and the stereo mask are not among what is written. -/
theorem store_keeps (psg : Psg) (nibble : Nat) (tone : Nat → Nat) :
    (psg.store nibble tone).latch = psg.latch ∧ (psg.store nibble tone).stereo = psg.stereo := by
  unfold store
  dsimp only
  split
  · exact ⟨rfl, rfl⟩
  · split <;> exact ⟨rfl, rfl⟩

/-- A byte at an even address chooses a register, if it is a latch byte, and leaves the mask alone. -/
theorem writeByte_keeps :
    (psg.writeByte byte).latch = psg.latchAfter byte ∧
      (psg.writeByte byte).stereo = psg.stereo := by
  unfold writeByte latchAfter
  split
  · exact store_keeps { psg with latch := .ofByte byte } _ _
  · exact psg.store_keeps _ _

/-- **A byte changes the register it is for.** -/
theorem content_writeByte_self :
    (psg.writeByte byte).content (psg.latchAfter byte) =
      (psg.latchAfter byte).take byte (psg.content (psg.latchAfter byte)) := by
  have hnoise : byte % 16 % 8 = byte % 8 := Nat.mod_mod_of_dvd byte (by decide)
  unfold writeByte latchAfter Latch.take
  by_cases hlatch : 128 ≤ byte
  · rw [if_pos hlatch, if_pos hlatch]
    refine (content_store_self { psg with latch := .ofByte byte } _ _).trans ?_
    rw [hnoise, if_pos (show isLatchByte byte = true from decide_eq_true hlatch)]
    rfl
  · rw [if_neg hlatch, if_neg hlatch, content_store_self, hnoise,
      if_neg (show ¬ isLatchByte byte = true by simp [isLatchByte, hlatch])]

/-- **It leaves every other register alone.** -/
theorem content_writeByte_of_ne (h : psg.latchAfter byte ≠ register) :
    (psg.writeByte byte).content register = psg.content register := by
  unfold latchAfter at h
  unfold writeByte
  by_cases hlatch : 128 ≤ byte
  · rw [if_pos hlatch] at h ⊢
    exact content_store_of_ne { psg with latch := .ofByte byte } h _ _
  · rw [if_neg hlatch] at h ⊢
    exact content_store_of_ne psg h _ _

end Bytes

/-! ## 3. Lives of a chip -/

/-- A chip whose registers hold what its bus has brought. -/
structure Remembers (history : List (UInt8 × UInt8)) (psg : Psg) : Prop where
  latch : psg.latch = chosen (registerBytes history)
  content : ∀ register, psg.content register = recalled register (registerBytes history)
  stereo : psg.stereo = (masks history).head?.getD 0xFF

section Events

variable {psg : Psg} {history : List (UInt8 × UInt8)}

theorem remembers_new : Remembers [] new where
  latch := rfl
  content register := by
    obtain ⟨channel, volume⟩ := register
    revert channel volume
    decide
  stereo := rfl

theorem Remembers.write (h : psg.Remembers history) (address data : UInt8) :
    (psg.write address data).Remembers ((address, data) :: history) := by
  unfold Psg.write
  by_cases heven : (address % 2 == 0) = true
  · have hbytes : registerBytes ((address, data) :: history) = data.toNat :: registerBytes history :=
      List.filterMap_cons_some (if_pos heven)
    have hmasks : masks ((address, data) :: history) = masks history :=
      List.filterMap_cons_none (if_pos heven)
    have hchosen : psg.latchAfter data.toNat = chosen (data.toNat :: registerBytes history) := by
      rw [latchAfter, chosen_cons, h.latch]
    rw [if_pos heven]
    refine ⟨?_, fun register => ?_, ?_⟩
    · rw [writeByte_keeps.1, hbytes, hchosen]
    · rw [hbytes]
      by_cases hfor : psg.latchAfter data.toNat = register
      · rw [recalled_cons_of_eq (hchosen.symm.trans hfor), ← h.content, ← hfor]
        exact content_writeByte_self
      · rw [recalled_cons_of_ne (hchosen ▸ hfor), ← h.content]
        exact content_writeByte_of_ne hfor
    · rw [writeByte_keeps.2, hmasks, h.stereo]
  · have hbytes : registerBytes ((address, data) :: history) = registerBytes history :=
      List.filterMap_cons_none (if_neg heven)
    have hmasks : masks ((address, data) :: history) = data :: masks history :=
      List.filterMap_cons_some (if_neg heven)
    rw [if_neg heven]
    refine ⟨?_, fun register => ?_, ?_⟩
    · rw [hbytes]
      exact h.latch
    · rw [hbytes]
      exact h.content register
    · rw [hmasks]
      rfl

/-- Events that touch no register. -/
theorem Remembers.of_eq {later : Psg} (h : psg.Remembers history) (hlatch : later.latch = psg.latch)
    (hcontent : ∀ register, later.content register = psg.content register)
    (hstereo : later.stereo = psg.stereo) : later.Remembers history :=
  ⟨hlatch.trans h.latch, fun register => (hcontent register).trans (h.content register),
    hstereo.trans h.stereo⟩

theorem content_clock (register : Latch) : psg.clock.content register = psg.content register := by
  simp [Psg.content]

/-- **Whatever happens to a chip, its registers hold what its bus has brought.** -/
theorem Remembers.apply (h : psg.Remembers history) (event : EngineEvent) :
    (event.apply psg).Remembers (remember history event) := by
  cases event with
  | clocked => exact h.of_eq psg.latch_clock (fun register => content_clock register) psg.stereo_clock
  | told call =>
    cases call with
    | start hz =>
      exact remembers_new.of_eq rfl (fun _ => rfl) rfl
    | configure flags => exact h.of_eq rfl (fun _ => rfl) rfl
    | bus address data => exact h.write address data
    | rom kind size offset data => exact h
    | ram offset data => exact h

theorem Remembers.applyAll (h : psg.Remembers history) (events : List EngineEvent) :
    (EngineEvent.applyAll events psg).Remembers (events.foldl remember history) := by
  induction events generalizing psg history with
  | nil => exact h
  | cons event events ih => exact ih (h.apply event)

end Events

/-- Whether a byte on the bus is for a register. -/
def isFor (register : Latch) (address data : UInt8) (psg : Psg) : Bool :=
  address % 2 == 0 && psg.latchAfter data.toNat = register

theorem content_write_of_other {register : Latch} {address data : UInt8} {psg : Psg}
    (h : psg.isFor register address data = false) :
    (psg.write address data).content register = psg.content register := by
  unfold write
  split
  case isFalse => rfl
  case isTrue heven =>
    rw [isFor, heven, Bool.true_and, decide_eq_false_iff_not] at h
    exact content_writeByte_of_ne h

theorem stereo_write_of_even {address : UInt8} (h : address % 2 = 0) (data : UInt8) (psg : Psg) :
    (psg.write address data).stereo = psg.stereo := by
  rw [write, if_pos (by rw [h]; rfl), writeByte_keeps.2]

/-- **The registers are the last writes.**  Take a new chip, let anything happen to it, and look at what was
written to its bus since it was last started.

* The period of a tone has its low four bits from the last latch byte that chose it, and its high six bits
  from the last data byte that came while it was chosen.
* The volume of a channel has its four bits, and the noise register its three, from the last byte of either
  kind that was for it.
* The stereo mask is the last byte at an odd address.
* What has not been written is zero, but for the volumes, which are off, and the mask, which lets everything
  through.

A clock changes none of these, nor does a byte for another register. -/
theorem registers_are_last_writes (events : List EngineEvent) :
    let psg := EngineEvent.applyAll events new
    let bytes := registerBytes (busHistory events)
    (∀ tone : Fin 3, psg.periods.get tone =
      16 * ((received ⟨tone.castSucc, false⟩ bytes).find? (!isLatchByte ·)).elim 0 (· % 64) +
        ((received ⟨tone.castSucc, false⟩ bytes).find? isLatchByte).elim 0 (· % 16)) ∧
    (∀ channel : Fin 4, psg.attenuation.get channel =
      (received ⟨channel, true⟩ bytes).head?.elim 15 (· % 16)) ∧
    psg.noiseControl = (received ⟨noiseChannel, false⟩ bytes).head?.elim 0 (· % 8) ∧
    psg.stereo = (masks (busHistory events)).head?.getD 0xFF ∧
    psg.latch = chosen bytes ∧
    (psg.clock.stereo = psg.stereo ∧
      ∀ register, psg.clock.content register = psg.content register) ∧
    ∀ address data,
      (address % 2 = 0 → (psg.write address data).stereo = psg.stereo) ∧
      ∀ register, psg.isFor register address data = false →
        (psg.write address data).content register = psg.content register := by
  intro psg bytes
  have h : psg.Remembers (busHistory events) := remembers_new.applyAll events
  refine ⟨fun tone => ?_, fun channel => h.content ⟨channel, true⟩, h.content ⟨noiseChannel, false⟩,
    h.stereo, h.latch, ⟨psg.stereo_clock, content_clock⟩, fun address data =>
      ⟨fun heven => stereo_write_of_even heven data psg, fun register => content_write_of_other⟩⟩
  have htone : tone.castSucc.val < 3 := tone.isLt
  have hcontent := h.content ⟨tone.castSucc, false⟩
  rw [content, recalled, if_neg Bool.false_ne_true, dif_pos htone, if_neg Bool.false_ne_true,
    if_pos htone] at hcontent
  exact hcontent

/-- What sets the period of the third tone while other registers are written: its low bits are sent twice, and
a data byte for the first volume comes in between. -/
def tangle : List EngineEvent :=
  [.told (.bus 0 0xC7), .told (.bus 0 0x9B), .told (.bus 2 0x21), .clocked, .told (.bus 1 0x3C),
    .told (.bus 0 0xE6), .told (.bus 0 0xC2), .clocked, .told (.bus 0 0x3F)]

theorem tangled_registers :
    (EngineEvent.applyAll tangle new).periods[2] = 0x3F2 ∧
      (EngineEvent.applyAll tangle new).attenuation[0] = 1 ∧
      (EngineEvent.applyAll tangle new).noiseControl = 6 ∧
      (EngineEvent.applyAll tangle new).stereo = 0x3C ∧
      (EngineEvent.applyAll tangle new).isFor ⟨2, false⟩ 0 0x9F = false ∧
      ((EngineEvent.applyAll tangle new).write 0 0x9F).content ⟨2, false⟩ = 0x3F2 := by
  obtain ⟨hperiods, hattenuation, hnoise, hstereo, -, -, hothers⟩ := registers_are_last_writes tangle
  have hperiod : (EngineEvent.applyAll tangle new).periods[2] = 0x3F2 :=
    (hperiods 2).trans (by decide +kernel)
  have hother : (EngineEvent.applyAll tangle new).isFor ⟨2, false⟩ 0 0x9F = false := by
    decide +kernel
  exact ⟨hperiod, (hattenuation 0).trans (by decide +kernel), hnoise.trans (by decide +kernel),
    hstereo.trans (by decide +kernel), hother, ((hothers 0 0x9F).2 _ hother).trans hperiod⟩

end ChipLog.Psg
