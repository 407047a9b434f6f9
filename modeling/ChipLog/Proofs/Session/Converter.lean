/-
# The converter plays its bank in order

Some logs bring sample data for bank 0 and give it to the converter of a YM2612 byte by byte, with
one command for every byte.  Between these commands a log can do all sorts of things: bring more
data, switch on the YM2612, ask for a byte where there is none, or be played from another position.
This module proves that no byte is left out and none is played twice for all that.

What is played counts from the last time the converter was sent to a place in its bank
(`Turn.sinceSeek`).  The bytes since then are those of the bank, from that place to the place of
the next byte (`Session.converter_plays_in_order`).  Each of them was read when the bank was shorter
perhaps than it is now, but banks only grow at their ends.
-/
import ChipLog.Proofs.Session.Turns

namespace ChipLog

open Event (toldTo)

variable {σ : Type} [ChipEngine σ]

/-! ## 1. Turns of the converter -/

/-- The place that a command sends the converter to, if it does. -/
def Command.dacSeek? : Command → Option UInt32
  | dacSeek position => some position
  | _ => none

namespace Turn

/-- The byte of a converter command: the next one of the bank, if there is a byte, and a YM2612 to
take it. -/
def converterByte? (engines : Factory σ) (turn : Turn σ) : Option UInt8 :=
  match turn.command with
  | .dacWrite _ =>
    if (turn.result engines).value.board.isActive .ym2612
    then turn.deck.banks.byteAt? Deck.dacBank turn.deck.dacPosition
    else none
  | _ => none

/-- What the primary YM2612 is told by a converter command. -/
def converterCalls (engines : Factory σ) (turn : Turn σ) : List EngineCall :=
  match turn.command with
  | .dacWrite _ => toldTo ⟨.ym2612, .primary⟩ (turn.result engines).events
  | _ => []

theorem converterByte?_dacWrite (engines : Factory σ) (frames : UInt8) (deck : Deck σ) :
    (Turn.mk (.dacWrite frames) deck).converterByte? engines =
      if (deck.execute engines (.dacWrite frames)).value.board.isActive .ym2612 = true
      then deck.banks.byteAt? Deck.dacBank deck.dacPosition else none := rfl

/-- **A converter command writes its byte to the register of the converter**, and nothing else. -/
theorem converterCalls_eq (engines : Factory σ) (turn : Turn σ) :
    turn.converterCalls engines =
      (turn.converterByte? engines).toList.flatMap (EngineCall.register 0 Deck.dacRegister) := by
  obtain ⟨command, deck⟩ := turn
  cases command with
  | dacWrite frames =>
    have htold : (Turn.mk (.dacWrite frames) deck).converterCalls engines = _ :=
      Deck.toldTo_execute engines (.dacWrite frames) deck ⟨.ym2612, .primary⟩
    rw [htold, converterByte?_dacWrite, Command.order?]
    by_cases hactive : (deck.execute engines (.dacWrite frames)).value.board.isActive .ym2612 = true
    · rw [if_pos hactive]
      cases deck.banks.byteAt? Deck.dacBank deck.dacPosition with
      | none => rfl
      | some byte => exact (if_pos ⟨rfl, hactive⟩).trans (List.append_nil _).symm
    · rw [if_neg hactive]
      cases deck.banks.byteAt? Deck.dacBank deck.dacPosition with
      | none => rfl
      | some byte => exact if_neg fun h => hactive h.2
  | _ => rfl

/-- **A turn moves the converter on by the byte that it plays**, unless it sends it to a place. -/
theorem dacPosition_result (engines : Factory σ) {turn : Turn σ}
    (h : turn.command.dacSeek? = none) :
    (turn.result engines).value.dacPosition =
      turn.deck.dacPosition + (turn.converterByte? engines).toList.length := by
  obtain ⟨command, deck⟩ := turn
  rw [result, Deck.dacPosition_execute]
  cases command with
  | dacWrite frames =>
    rw [converterByte?_dacWrite, Command.dacAfter]
    by_cases hactive : (deck.execute engines (.dacWrite frames)).value.board.isActive .ym2612 = true
    · rw [if_pos hactive]
      cases deck.banks.byteAt? Deck.dacBank deck.dacPosition with
      | none => exact if_neg fun h => Bool.false_ne_true h.2
      | some byte => exact if_pos ⟨hactive, rfl⟩
    · rw [if_neg hactive]
      exact if_neg fun h => hactive h.1
  | dacSeek position => cases h
  | _ => rfl

/-- A byte for the converter is the one at the place of the next byte. -/
theorem byteAt?_of_converterByte? {engines : Factory σ} {turn : Turn σ} {byte : UInt8}
    (h : turn.converterByte? engines = some byte) :
    turn.deck.banks.byteAt? Deck.dacBank turn.deck.dacPosition = some byte := by
  obtain ⟨command, deck⟩ := turn
  cases command with
  | dacWrite frames =>
    rw [converterByte?_dacWrite] at h
    split at h
    · exact h
    · cases h
  | _ => cases h

/-! ## 2. Since the last seek -/

/-- The place that the converter was last sent to, which is the first one at first, and the turns
since then. -/
def sinceSeek (turns : List (Turn σ)) : Nat × List (Turn σ) :=
  turns.foldl (fun span turn =>
    match turn.command.dacSeek? with
    | some position => (position.toNat, [])
    | none => (span.1, span.2 ++ [turn])) (0, [])

/-- The writes of some turns are those of their bytes. -/
theorem flatMap_converterCalls (engines : Factory σ) (turns : List (Turn σ)) :
    turns.flatMap (converterCalls engines) =
      (turns.filterMap (converterByte? engines)).flatMap
        (EngineCall.register 0 Deck.dacRegister) := by
  induction turns with
  | nil => rfl
  | cons turn turns ih =>
    rw [List.flatMap_cons, ih, converterCalls_eq]
    cases hbyte : turn.converterByte? engines <;> simp [hbyte]

/-- The bytes that were played since the converter was last sent to a place. -/
def bytesSinceSeek (engines : Factory σ) (turns : List (Turn σ)) : List UInt8 :=
  (sinceSeek turns).2.filterMap (converterByte? engines)

omit [ChipEngine σ] in
theorem sinceSeek_of_seek (turns : List (Turn σ)) {turn : Turn σ} {position : UInt32}
    (h : turn.command.dacSeek? = some position) :
    sinceSeek (turns ++ [turn]) = (position.toNat, []) := by
  simp [sinceSeek, h]

omit [ChipEngine σ] in
theorem sinceSeek_of_other (turns : List (Turn σ)) {turn : Turn σ}
    (h : turn.command.dacSeek? = none) :
    sinceSeek (turns ++ [turn]) = ((sinceSeek turns).1, (sinceSeek turns).2 ++ [turn]) := by
  simp [sinceSeek, h]

end Turn

/-! ## 3. Whole runs -/

/-- The bytes that were played since the converter was last sent to a place are those of the bank,
from there to the place of the next byte. -/
structure Deck.InOrder (engines : Factory σ) (turns : List (Turn σ)) (deck : Deck σ) : Prop where
  position : deck.dacPosition =
    (Turn.sinceSeek turns).1 + (Turn.bytesSinceSeek engines turns).length
  bytes : ∀ i < (Turn.bytesSinceSeek engines turns).length,
    deck.banks.byteAt? Deck.dacBank ((Turn.sinceSeek turns).1 + i) =
      (Turn.bytesSinceSeek engines turns)[i]?

namespace Deck.InOrder

variable {engines : Factory σ} {turns : List (Turn σ)} {d e : Deck σ}

theorem rest (h : InOrder engines turns d) (hrests : d.Rests engines e) :
    InOrder engines turns e :=
  ⟨hrests.dacPosition.trans h.position, by rw [hrests.banks]; exact h.bytes⟩

/-- **A turn keeps the order.** -/
theorem turn (h : InOrder engines turns d) (command : Command) :
    InOrder engines (turns ++ [⟨command, d⟩]) (d.execute engines command).value := by
  cases hseek : (Turn.mk command d).command.dacSeek? with
  | some position =>
    have hspan := Turn.sinceSeek_of_seek turns hseek
    have hbytes : Turn.bytesSinceSeek engines (turns ++ [⟨command, d⟩]) = [] := by
      rw [Turn.bytesSinceSeek, hspan]
      rfl
    refine ⟨?_, fun i hi => by rw [hbytes] at hi; exact absurd hi (Nat.not_lt_zero i)⟩
    rw [hspan, hbytes, dacPosition_execute]
    cases command with
    | dacSeek place => cases hseek; rfl
    | _ => cases hseek
  | none =>
    have hspan := Turn.sinceSeek_of_other turns hseek
    have hbytes : Turn.bytesSinceSeek engines (turns ++ [⟨command, d⟩]) =
        Turn.bytesSinceSeek engines turns ++
          ((Turn.mk command d).converterByte? engines).toList := by
      rw [Turn.bytesSinceSeek, hspan, List.filterMap_append]
      cases hbyte : (Turn.mk command d).converterByte? engines <;>
        simp [Turn.bytesSinceSeek, hbyte]
    have hposition := Turn.dacPosition_result engines hseek
    rw [Turn.result] at hposition
    refine ⟨?_, fun i hi => ?_⟩
    · rw [hspan, hbytes, hposition, List.length_append, h.position]
      omega
    · rw [hspan, hbytes, banks_execute]
      rw [hbytes, List.length_append] at hi
      have hgrows := command.grows_stock d.banks
      by_cases hold : i < (Turn.bytesSinceSeek engines turns).length
      · rw [List.getElem?_append_left hold]
        -- a byte of the bank as it was is a byte of the bank as it is
        have hbyte := h.bytes i hold
        rw [List.getElem?_eq_getElem hold] at hbyte ⊢
        exact hgrows.byteAt? hbyte
      · cases hbyte : (Turn.mk command d).converterByte? engines with
        | none =>
          rw [hbyte] at hi
          exact absurd hi hold
        | some byte =>
          -- the only new byte is the one that was read at the place of the next byte
          rw [hbyte] at hi
          have hlast : i = (Turn.bytesSinceSeek engines turns).length := by
            have hi : i < (Turn.bytesSinceSeek engines turns).length + 1 := hi
            omega
          have hread := hgrows.byteAt? (Turn.byteAt?_of_converterByte? hbyte)
          rw [h.position] at hread
          rw [hlast, hread]
          simp

end Deck.InOrder

/-! ## 4. Sessions -/

namespace Session

variable {engines : Factory σ} {image : ByteArray} {session : Session σ}

/-- **The converter plays its bank in order.**  Whatever script is run on a loaded session, and
whatever its turns do in between:

* a turn that does not send the converter to a place moves it on by the byte that it plays, and a
  converter command tells the YM2612 this byte and nothing else.  There is no such byte, and hence
  neither a write nor a move, where the bank has none or there is no YM2612 in the end;
* since the converter was last sent to a place, the YM2612 was told by converter commands exactly
  the bytes of the bank as it is now, from that place to the place of the next byte, one after the
  other. -/
theorem converter_plays_in_order (h : (load engines image).value = .ok session)
    (calls : List Call) :
    (session.performAll calls).deeds =
        ((session.turns calls).flatMap fun turn => (turn.result engines).deeds) ∧
      (∀ turn ∈ session.turns calls, turn.command.dacSeek? = none →
        turn.converterCalls engines =
            (turn.converterByte? engines).toList.flatMap
              (EngineCall.register 0 Deck.dacRegister) ∧
          (turn.result engines).value.dacPosition =
            turn.deck.dacPosition + (turn.converterByte? engines).toList.length) ∧
      let deck := (session.after calls).playback.deck
      let span := Turn.sinceSeek (session.turns calls)
      let bytes := Turn.bytesSinceSeek engines (session.turns calls)
      span.2.flatMap (Turn.converterCalls engines) =
          bytes.flatMap (EngineCall.register 0 Deck.dacRegister) ∧
        deck.dacPosition = span.1 + bytes.length ∧
        ∀ i < bytes.length, deck.banks.byteAt? Deck.dacBank (span.1 + i) = bytes[i]? := by
  obtain ⟨header, -, -, -, hengines, -, hdeck, -⟩ := load_deck h
  refine ⟨?_, ?_, Turn.flatMap_converterCalls engines _, ?_⟩
  · rw [deeds_performAll, hengines]
  · intro turn _ hseek
    exact ⟨turn.converterCalls_eq engines, Turn.dacPosition_result engines hseek⟩
  · have hchain := chain_after calls session
    rw [hengines] at hchain
    have hstart : Deck.InOrder engines [] session.playback.deck := by
      refine ⟨?_, fun i hi => absurd hi (Nat.not_lt_zero i)⟩
      rw [hdeck, (Deck.ofHeader_rest engines header).2.1]
      rfl
    have hend := hchain.invariant (motive := Deck.InOrder engines)
      (fun hrests hin => hin.rest hrests) (fun _ command hin => hin.turn command) [] hstart
    exact ⟨hend.position, hend.bytes⟩

/-- Two bytes are played; then the stream goes back, brings both bytes again, and goes on behind the
command that would send the converter to the first byte.  The third byte of the bank is played. -/
theorem converterLog_plays_three_bytes : ∃ session,
    (load Bundled.factory converterLog).value = .ok session ∧
    (session.after [.step, .step, .step, .step, .render 2, .step, .step, .seek 67, .step, .seek 81,
      .tick, .step]).playback.deck.dacPosition = 3 ∧
    (Turn.sinceSeek (session.turns [.step, .step, .step, .step, .render 2, .step, .step, .seek 67,
      .step, .seek 81, .tick, .step])).2.flatMap (Turn.converterCalls Bundled.factory) =
        [.bus 0 0x2A, .bus 1 0x7F, .bus 0 0x2A, .bus 1 0x81, .bus 0 0x2A, .bus 1 0x7F] := by
  have hrun : ((Header.parse converterLog).toOption.map fun header =>
      let session := opened Bundled.factory converterLog header
      let script : List Call := [.step, .step, .step, .step, .render 2, .step, .step, .seek 67,
        .step, .seek 81, .tick, .step]
      let deck := (session.after script).playback.deck
      (deck.dacPosition, (Turn.sinceSeek (session.turns script)).1,
        deck.banks.byteAt? Deck.dacBank 0, deck.banks.byteAt? Deck.dacBank 1,
        deck.banks.byteAt? Deck.dacBank 2)) =
      some (3, 0, some 0x7F, some 0x81, some 0x7F) := by decide +kernel
  obtain ⟨header, hparse, -, hload⟩ := @load_of_dataStart converterLog 64 rfl
  rw [hparse] at hrun
  obtain ⟨hend, hrun⟩ := Prod.mk.inj (Option.some.inj hrun)
  obtain ⟨hstart, hrun⟩ := Prod.mk.inj hrun
  obtain ⟨hfirst, hrun⟩ := Prod.mk.inj hrun
  obtain ⟨hsecond, hthird⟩ := Prod.mk.inj hrun
  obtain ⟨-, -, hcalls, hposition, hbytes⟩ := converter_plays_in_order hload
    [.step, .step, .step, .step, .render 2, .step, .step, .seek 67, .step, .seek 81, .tick, .step]
  rw [hend, hstart, Nat.zero_add] at hposition
  rw [hstart] at hbytes
  refine ⟨_, hload, hend, hcalls.trans ?_⟩
  generalize Turn.bytesSinceSeek Bundled.factory _ = bytes at hposition hbytes
  match bytes, hposition with
  | [a, b, c], _ =>
    cases (hbytes 0 (by simp)).symm.trans hfirst
    cases (hbytes 1 (by simp)).symm.trans hsecond
    cases (hbytes 2 (by simp)).symm.trans hthird
    rfl

end Session

end ChipLog
