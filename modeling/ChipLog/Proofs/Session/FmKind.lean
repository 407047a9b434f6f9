/-
# Which FM chip an old log is for

Before version 1.10 a header has one clock for three kinds of FM chip, and does not say which of them
the log is for.  The first command for one of them says it: a register write to the first chip of its
kind, or a byte for the converter of the YM2612.  That command switches on the chips of its kind and
is then carried out like any other (`Turn.DecidesFm`).

This happens at most once in a session, whatever is sought, played or written later.  Commands for the
second chip of a kind never decide anything, and in all other logs there is nothing to decide: they
play with the chips that they began with (`Session.fm_kind_is_decided_once`).
-/
import ChipLog.Proofs.Command.Grammar
import ChipLog.Proofs.Header.Fields
import ChipLog.Proofs.Session.Turns

namespace ChipLog

open Event (heardBy)

/-! ## 1. Commands that decide -/

namespace Command

/-- The kind that the command with an opcode decides. -/
def fmOpcode? (opcode : UInt8) : Option ChipKind :=
  match opcode.toNat / 16, opcode.toNat % 16 with
  | 0x5, 0x1 => some .ym2413
  | 0x5, 0x2 | 0x5, 0x3 => some .ym2612
  | 0x5, 0x4 => some .ym2151
  | 0x8, _ => some .ym2612
  | _, _ => none

/-- What a command decides is known from its opcode. -/
theorem fmKind?_eq {c : Command} (hc : c.WellFormed) : c.fmKind? = fmOpcode? c.opcode := by
  cases c with
  | registerWrite kind rank pair register value =>
    obtain ⟨digit, hdigit⟩ := Option.isSome_iff_exists.mp hc
    cases rank
    all_goals
      rw [opcode, hdigit]
      unfold registerDigit? at hdigit
      -- one case for each kind and pair of addresses that has opcodes
      split at hdigit <;> cases hdigit <;> rfl
  | psgWrite rank value => cases rank <;> rw [opcode] <;> rfl
  | psgStereo rank value => cases rank <;> rw [opcode] <;> rfl
  | waitShort n =>
    have hhigh := (digits_high_add 7 (by decide) hc).1
    rw [fmOpcode?, show (waitShort n).opcode = UInt8.ofNat (16 * 7) + n from rfl, hhigh]
    rfl
  | dacWrite frames =>
    have hhigh := (digits_high_add 8 (by decide) hc).1
    rw [fmOpcode?, show (dacWrite frames).opcode = UInt8.ofNat (16 * 8) + frames from rfl, hhigh]
    rfl
  | _ =>
    rw [opcode]
    rfl

/-- **A command that is read decides what the byte at its position says.** -/
theorem fmKind?_of_parse {bytes : ByteArray} {pos length : Nat} {c : Command}
    (h : parse bytes pos = .ok (c, length)) :
    ∃ opcode, bytes[pos]? = some opcode ∧ c.fmKind? = fmOpcode? opcode := by
  obtain ⟨hc, slack, hrow, -⟩ := parse_eq_ok_iff.mp h
  have hfirst := (Bytes.standsAt_append.mp hrow).1
  have hread := (Scan.recognises_u8 bytes pos c.opcode (pos + 1)
    (Nat.le_of_lt (parse_progress h).1)).mpr ⟨_, hfirst, rfl, rfl⟩
  exact ⟨c.opcode, (Scan.u8_on_eq_ok_iff.mp hread).1, fmKind?_eq hc⟩

/-- A command that decides a kind is for the first chip of that kind. -/
theorem site_of_fmKind? {c : Command} {kind : ChipKind} {banks : Banks} {dacPosition : Nat}
    {order : Order} (h : c.fmKind? = some kind)
    (horder : c.order? banks dacPosition = some order) : order.1 = ⟨kind, .primary⟩ := by
  cases c with
  | registerWrite other rank pair register value =>
    cases horder
    cases rank with
    | secondary => cases h
    | primary =>
      rw [fmKind?] at h
      split at h
      case isTrue => cases h; rfl
      case isFalse => cases h
  | dacWrite frames =>
    cases h
    obtain ⟨byte, -, rfl⟩ := Option.map_eq_some_iff.mp horder
    rfl
  | _ => cases h

end Command

/-! ## 2. The turn that decides -/

/-- Whether a clock field that turns out to be for a kind is for the chip of a site. -/
def ClockField.isFor (field : ClockField) (kind : ChipKind) (site : Site) : Bool :=
  site.kind == kind && (site.rank == .primary || field.dual)

theorem ClockField.isFor_iff {field : ClockField} {kind : ChipKind} {site : Site} :
    field.isFor kind site = true ↔ site.kind = kind ∧ (site.rank = .primary ∨ field.dual = true) := by
  simp [isFor]

variable {σ : Type} [ChipEngine σ]

/-- A turn decides the kind of an FM chip whose clock was open. -/
structure Turn.DecidesFm (engines : Factory σ) (kind : ChipKind) (field : ClockField)
    (turn : Turn σ) : Prop where
  before : turn.deck.pendingFm = some field
  after : (turn.result engines).value.pendingFm = none
  /-- The chips of the kind that the clock is for are switched on, and run at that clock. -/
  switchedOn : ∀ site, field.isFor kind site = true →
    (turn.deck.board.socket site).isActive = false ∧
      ((turn.result engines).value.board.socket site).isActive = true ∧
      ((turn.result engines).value.board.socket site).hz = field.hz
  /-- All other chips are left as they are. -/
  others : ∀ site, field.isFor kind site = false →
    ((turn.result engines).value.board.socket site).SameChip (turn.deck.board.socket site)
  /-- What the command has to say, it says to the first chip of the kind. -/
  order : ∀ order, turn.command.order? turn.deck.banks turn.deck.dacPosition = some order →
    order.1 = ⟨kind, .primary⟩
  /-- That chip hears it, after it was made and started. -/
  heard : heardBy ⟨kind, .primary⟩ (turn.result engines).events =
    .created () :: .call () (.start field.hz) ::
      ((turn.command.order? turn.deck.banks turn.deck.dacPosition).elim [] Prod.snd).map (.call ())
  /-- Its engine is as it is after that. -/
  voice : ((turn.result engines).value.board.socket ⟨kind, .primary⟩).voice =
    some ((Voice.start (engines ⟨kind, .primary⟩) field.hz).send
      ((turn.command.order? turn.deck.banks turn.deck.dacPosition).elim [] Prod.snd))

/-- An order for an engine that is there reaches it. -/
theorem Board.pass_of_voice {board : Board σ} {site : Site} {voice : Voice σ} {order : Option Order}
    (hsite : ∀ o, order = some o → o.1 = site) (hvoice : (board.socket site).voice = some voice) :
    ((board.pass order).value.socket site).voice = some (voice.send (order.elim [] Prod.snd)) ∧
      heardBy site (board.pass order).events = (order.elim [] Prod.snd).map (.call ()) := by
  cases order with
  | none => exact ⟨hvoice, rfl⟩
  | some order =>
    have hactive : (board.socket site).isActive = true := by rw [Socket.isActive, hvoice]; rfl
    rw [Board.pass, hsite order rfl, Board.socket_send, if_pos rfl, Board.heardBy_send,
      if_pos ⟨rfl, hactive⟩, Socket.send, hvoice]
    exact ⟨rfl, rfl⟩

namespace Deck

variable {engines : Factory σ} {command : Command} {kind : ChipKind} {field : ClockField}
  {deck : Deck σ}

/-- Deciding the kind starts the engines that the clock is for, and no others. -/
theorem settle_socket (hkind : command.fmKind? = some kind) (hopen : deck.pendingFm = some field)
    (hidle : ∀ rank, (deck.board.socket ⟨kind, rank⟩).isActive = false) (site : Site) :
    (deck.settle engines command).value.board.socket site =
        (if field.isFor kind site then (deck.board.socket site).started (engines site) field
          else deck.board.socket site) ∧
      heardBy site (deck.settle engines command).events =
        if field.isFor kind site then [.created (), .call () (.start field.hz)] else [] := by
  have hcond : (site.kind = kind ∧ deck.board.isActive kind = false ∧
      (site.rank = .primary ∨ field.dual = true) ∧ (deck.board.socket site).isActive = false) ↔
        field.isFor kind site = true := by
    rw [ClockField.isFor_iff]
    constructor
    · rintro ⟨hsite, -, hrank, -⟩
      exact ⟨hsite, hrank⟩
    · rintro ⟨rfl, hrank⟩
      exact ⟨rfl, hidle .primary, hrank, hidle site.rank⟩
  rw [settle_of_fmKind? hkind hopen]
  have hsocket := Board.socket_activate engines kind field deck.board site
  have hheard := Board.heardBy_activate engines kind field deck.board site
  simp only [hcond] at hsocket hheard
  exact ⟨hsocket, by simpa using hheard⟩

/-- **The first FM command decides.**  If the clock is open and no chip of its kind is there, a command
for an FM chip switches on the chips of its kind and is carried out. -/
theorem decidesFm (hkind : command.fmKind? = some kind) (hopen : deck.pendingFm = some field)
    (hidle : ∀ rank, (deck.board.socket ⟨kind, rank⟩).isActive = false) :
    (Turn.mk command deck).DecidesFm engines kind field := by
  have hsettle := @settle_socket _ _ engines _ _ _ _ hkind hopen hidle
  have hchips := sameChips_execute engines command deck
  have hprimary : field.isFor kind ⟨kind, .primary⟩ = true := ClockField.isFor_iff.mpr ⟨rfl, .inl rfl⟩
  obtain ⟨hsocket, hstart⟩ := hsettle ⟨kind, .primary⟩
  rw [if_pos hprimary] at hsocket hstart
  have horder : ∀ order, command.order? deck.banks deck.dacPosition = some order →
      order.1 = ⟨kind, .primary⟩ := fun _ => Command.site_of_fmKind? hkind
  obtain ⟨hvoice, hpassed⟩ := Board.pass_of_voice horder
    (show ((deck.settle engines command).value.board.socket ⟨kind, .primary⟩).voice = _ by
      rw [hsocket]
      rfl)
  have hkept : ∀ site, ((deck.execute engines command).value.board.socket site).SameChip
      (if field.isFor kind site then (deck.board.socket site).started (engines site) field
        else deck.board.socket site) := fun site => by
    rw [← (hsettle site).1]
    exact hchips site
  refine ⟨hopen, ?_, fun site hfor => ?_, fun site hother => ?_, horder, ?_, ?_⟩
  · exact (pendingFm_execute engines command deck).trans (by rw [hkind]; rfl)
  · have hsite := hkept site
    rw [if_pos hfor] at hsite
    obtain ⟨rfl, -⟩ := ClockField.isFor_iff.mp hfor
    exact ⟨hidle site.rank, hsite.active, hsite.hz⟩
  · have hsite := hkept site
    rw [hother, if_neg Bool.false_ne_true] at hsite
    exact hsite
  · rw [Turn.result, heardBy_execute, hstart, hpassed]
    rfl
  · rw [Turn.result, board_execute]
    exact hvoice

end Deck

/-! ## 3. Whole runs -/

/-- The kind that the first FM command among some turns decides, if there is one. -/
def Turn.firstFm (turns : List (Turn σ)) : Option ChipKind :=
  turns.findSome? fun turn => turn.command.fmKind?

namespace Deck.Chain

variable {engines : Factory σ} {kind : ChipKind} {field : ClockField} {d e : Deck σ}
  {turns : List (Turn σ)}

/-- **The first FM command of a run decides, and nothing does after it.** -/
theorem decided {before later : List (Turn σ)} {turn : Turn σ}
    (h : Chain engines d (before ++ turn :: later) e) (hopen : d.pendingFm = some field)
    (hbefore : ∀ earlier ∈ before, earlier.command.fmKind? = none)
    (hkind : turn.command.fmKind? = some kind)
    (hidle : ∀ rank, (d.board.socket ⟨kind, rank⟩).isActive = false) :
    turn.DecidesFm engines kind field ∧ turn.deck.board.SameChips d.board ∧
      e.pendingFm = none ∧ e.board.SameChips (turn.result engines).value.board := by
  obtain ⟨middle, hfirst, hsecond⟩ := h.split
  obtain ⟨hpending, hchips⟩ := hfirst.unchanged (.inr hbefore)
  obtain ⟨hrests, htail⟩ := hsecond.uncons
  have hsame : turn.deck.board.SameChips d.board := hrests.sameChips.trans hchips
  have hdecides : turn.DecidesFm engines kind field :=
    decidesFm hkind (hrests.pendingFm.trans (hpending.trans hopen))
      fun rank => (hsame ⟨kind, rank⟩).active.trans (hidle rank)
  obtain ⟨hend, hlast⟩ := htail.unchanged (.inl hdecides.after)
  exact ⟨hdecides, hsame, hend.trans hdecides.after, hlast⟩

/-- **What a run makes of an open FM clock.**  If a run has an FM command, the clock is open no more,
and the chips of the first one's kind are there at that clock.  Other chips are as they were. -/
theorem firstFm_settles (h : Chain engines d turns e) (hopen : d.pendingFm = some field)
    (hidle : ∀ site : Site, takesFmClock site.kind = true →
      (d.board.socket site).isActive = false) :
    e.pendingFm = (if (Turn.firstFm turns).isSome then none else some field) ∧
      (∀ site, (e.board.socket site).isActive =
        ((d.board.socket site).isActive || (Turn.firstFm turns).any (field.isFor · site))) ∧
      ∀ kind site, Turn.firstFm turns = some kind → field.isFor kind site = true →
        (e.board.socket site).hz = field.hz := by
  cases hfirst : Turn.firstFm turns with
  | none =>
    obtain ⟨hpending, hchips⟩ := h.unchanged (.inr (List.findSome?_eq_none_iff.mp hfirst))
    refine ⟨hpending.trans hopen, ?_, ?_⟩
    · intro site
      exact (hchips site).active.trans (Bool.or_false _).symm
    · intro kind site hkind
      cases hkind
  | some kind =>
    obtain ⟨before, turn, later, rfl, hkind, hbefore⟩ := List.findSome?_eq_some_iff.mp hfirst
    obtain ⟨hdecides, hsame, hpending, hchips⟩ := h.decided hopen hbefore hkind fun rank =>
      hidle ⟨kind, rank⟩ (takesFmClock_of_fmKind? hkind)
    refine ⟨hpending, ?_, ?_⟩
    · intro site
      rw [(hchips site).active, Option.any_some]
      cases hfor : field.isFor kind site with
      | true => rw [(hdecides.switchedOn site hfor).2.1, Bool.or_true]
      | false => rw [(hdecides.others site hfor).active, (hsame site).active, Bool.or_false]
    · intro kind' site hkind' hfor
      cases hkind'
      exact (hchips site).hz.trans (hdecides.switchedOn site hfor).2.2

end Deck.Chain

/-! ## 4. Sessions -/

namespace Session

/-- What a script makes of an FM clock that is open. -/
structure DecidesFmOnce (field : ClockField) (session : Session σ) (calls : List Call) :
    Prop where
  /-- The clock is open until the first FM command. -/
  pending : (session.after calls).playback.deck.pendingFm =
    if (Turn.firstFm (session.turns calls)).isSome then none else some field
  /-- That command, and nothing else, switches on chips. -/
  active : ∀ site, (session.after calls).isActive site =
    (session.isActive site || (Turn.firstFm (session.turns calls)).any (field.isFor · site))
  /-- They run at the clock that was open. -/
  hz : ∀ kind site, Turn.firstFm (session.turns calls) = some kind →
    field.isFor kind site = true → ((session.after calls).socket site).hz = field.hz
  /-- There are never FM chips of two of the kinds. -/
  single : ∀ site other : Site, Deck.takesFmClock site.kind = true →
    Deck.takesFmClock other.kind = true → (session.after calls).isActive site = true →
      (session.after calls).isActive other = true → site.kind = other.kind
  /-- The first FM command finds the chips of the opening, switches on its own, and reaches them. -/
  decided : ∀ before turn later kind, session.turns calls = before ++ turn :: later →
    (∀ earlier ∈ before, earlier.command.fmKind? = none) → turn.command.fmKind? = some kind →
      turn.deck.board.SameChips session.playback.deck.board ∧
        turn.DecidesFm session.engines kind field

variable {session : Session σ} {field : ClockField}

/-- Scripts decide the kind of an open FM chip at most once. -/
theorem decidesFmOnce (hopen : session.playback.deck.pendingFm = some field)
    (hidle : ∀ site : Site, Deck.takesFmClock site.kind = true → session.isActive site = false)
    (calls : List Call) : session.DecidesFmOnce field calls := by
  have hchain := chain_after calls session
  obtain ⟨hpending, hactive, hhz⟩ := hchain.firstFm_settles hopen hidle
  refine ⟨hpending, hactive, hhz, ?_, ?_⟩
  · intro site other hsite hother hon hon'
    -- chips of these kinds that are there now are there for the first FM command
    have hfirst : ∀ site : Site, Deck.takesFmClock site.kind = true →
        (session.after calls).isActive site = true →
          ∃ kind, Turn.firstFm (session.turns calls) = some kind ∧ site.kind = kind := by
      intro site hsite hon
      have hon := (hactive site).symm.trans hon
      rw [show (session.playback.deck.board.socket site).isActive = false from hidle site hsite,
        Bool.false_or, Option.any_eq_true] at hon
      obtain ⟨kind, hkind, hfor⟩ := hon
      exact ⟨kind, hkind, (ClockField.isFor_iff.mp hfor).1⟩
    obtain ⟨kind, hkind, hsame⟩ := hfirst site hsite hon
    obtain ⟨kind', hkind', hsame'⟩ := hfirst other hother hon'
    cases hkind.symm.trans hkind'
    exact hsame.trans hsame'.symm
  · intro before turn later kind hturns hbefore hkind
    rw [hturns] at hchain
    obtain ⟨hdecides, hsame, -⟩ := hchain.decided hopen hbefore hkind fun rank =>
      hidle ⟨kind, rank⟩ (Deck.takesFmClock_of_fmKind? hkind)
    exact ⟨hsame, hdecides⟩

/-- What an image says about FM chips is what its session begins with. -/
theorem fm_of_load {engines : Factory σ} {image : ByteArray}
    (h : (load engines image).value = .ok session) :
    ∃ word clock, Bytes.readU32 image 0x08 = .ok word ∧ Bytes.readU32 image 0x10 = .ok clock ∧
      ((Version.ofWord word).atLeast 1 10 = false → clock ≠ 0 →
        session.playback.deck.pendingFm = some ⟨clock⟩ ∧
          ∀ site : Site, Deck.takesFmClock site.kind = true → session.isActive site = false) ∧
      ((Version.ofWord word).atLeast 1 10 = true ∨ clock = 0 →
        session.playback.deck.pendingFm = none) := by
  obtain ⟨header, hparse, -, -, -, -, hdeck, -⟩ := load_deck h
  obtain ⟨word, clock, hword, hclock, hfm, hold⟩ := Header.parse_fmClock hparse
  obtain ⟨-, -, hpending⟩ := Deck.ofHeader_rest engines header
  rw [Header.awaitsFm, hfm] at hpending
  refine ⟨word, clock, hword, hclock, fun hversion hne => ⟨?_, fun site hfm => ?_⟩, fun hother => ?_⟩
  · rw [hdeck, hpending, hversion]
    exact if_pos (bne_iff_ne.mpr hne)
  · have htier : site.kind.tier = .v110 := by
      cases hkind : site.kind <;> rw [hkind] at hfm <;> first | rfl | cases hfm
    have hchips := (Deck.ofHeader_chips engines header site).1
    rw [Header.declares, hold hversion site.kind htier] at hchips
    rw [isActive, socket, hdeck, hchips]
    rfl
  · rw [hdeck, hpending]
    rcases hother with hnew | rfl
    · rw [hnew]
      rfl
    · rw [ite_self]
      rfl

/-- **The kind of the FM chip is decided at most once**, and only in a log that leaves it open.

* What a command decides is known from its opcode, so commands for second chips decide nothing.
* In a log of a version before 1.10 with an FM clock, no chip of the three kinds is there until the
  first FM command.  This command switches on the chips of its own kind at that clock, and its own
  write reaches the new engine.  From then on nothing is open any more (`DecidesFmOnce`).
* In any other log nothing is ever open, and the chips stay as they are from the opening on.
* In every log an engine that is there stays there at its clock, and what is decided stays
  decided. -/
theorem fm_kind_is_decided_once {engines : Factory σ} {image : ByteArray}
    (h : (load engines image).value = .ok session) :
    ∃ word clock, Bytes.readU32 image 0x08 = .ok word ∧ Bytes.readU32 image 0x10 = .ok clock ∧
      (∀ pos command length, Command.parse image pos = .ok (command, length) →
        ∃ opcode, image[pos]? = some opcode ∧ command.fmKind? = Command.fmOpcode? opcode) ∧
      ((Version.ofWord word).atLeast 1 10 = false → clock ≠ 0 →
        (∀ site : Site, Deck.takesFmClock site.kind = true → session.isActive site = false) ∧
          ∀ calls, session.DecidesFmOnce ⟨clock⟩ calls) ∧
      ((Version.ofWord word).atLeast 1 10 = true ∨ clock = 0 →
        ∀ calls, (session.after calls).playback.deck.pendingFm = none ∧
          (session.after calls).playback.deck.board.SameChips session.playback.deck.board) ∧
      ∀ calls more,
        (∀ site, (session.after calls).isActive site = true →
          (session.after (calls ++ more)).isActive site = true ∧
            ((session.after (calls ++ more)).socket site).hz =
              ((session.after calls).socket site).hz) ∧
        ((session.after calls).playback.deck.pendingFm = none →
          (session.after (calls ++ more)).playback.deck.pendingFm = none) := by
  obtain ⟨word, clock, hword, hclock, hold, hother⟩ := fm_of_load h
  refine ⟨word, clock, hword, hclock, fun _ _ _ => Command.fmKind?_of_parse, ?_, ?_, ?_⟩
  · intro hversion hne
    obtain ⟨hopen, hidle⟩ := hold hversion hne
    exact ⟨hidle, decidesFmOnce hopen hidle⟩
  · intro hnone calls
    obtain ⟨hpending, hchips⟩ := (chain_after calls session).unchanged (.inl (hother hnone))
    exact ⟨hpending.trans (hother hnone), hchips⟩
  · intro calls more
    rw [after_append]
    refine ⟨fun site hactive => ?_, fun hnone => ?_⟩
    · exact (hears_performAll more (session.after calls) site).keeps hactive
    · exact ((chain_after more (session.after calls)).unchanged (.inl hnone)).1.trans hnone

/-- A log of version 1.01 at 7670454 Hz that begins with a write to a YM2612. -/
theorem converterLog_decides_ym2612 : ∃ session,
    (load Bundled.factory converterLog).value = .ok session ∧
    session.playback.deck.pendingFm = some ⟨0x00750AB6⟩ ∧
    session.isActive ⟨.ym2612, .primary⟩ = false ∧
    (session.after [.tick, .step, .seek 67, .step]).playback.deck.pendingFm = none ∧
    (session.after [.tick, .step, .seek 67, .step]).isActive ⟨.ym2612, .primary⟩ = true ∧
    (session.after [.tick, .step, .seek 67, .step]).isActive ⟨.ym2612, .secondary⟩ = false ∧
    ((session.after [.tick, .step, .seek 67, .step]).socket ⟨.ym2612, .primary⟩).hz = 7670454 := by
  have hrun : ((Header.parse converterLog).toOption.bind fun header =>
      Turn.firstFm ((opened Bundled.factory converterLog header).turns
        [.tick, .step, .seek 67, .step])) = some .ym2612 := by decide +kernel
  obtain ⟨header, hparse, -, hload⟩ := @load_of_dataStart converterLog 64 rfl
  rw [hparse] at hrun
  have hrun : Turn.firstFm ((opened Bundled.factory converterLog header).turns
      [.tick, .step, .seek 67, .step]) = some .ym2612 := hrun
  obtain ⟨word, clock, hword, hclock, -, hold, -⟩ := fm_kind_is_decided_once hload
  cases (show Bytes.readU32 converterLog 0x08 = .ok 0x101 from rfl).symm.trans hword
  cases (show Bytes.readU32 converterLog 0x10 = .ok 0x00750AB6 from rfl).symm.trans hclock
  obtain ⟨hidle, hscripts⟩ := hold (by decide) (by decide)
  have hscript := hscripts [.tick, .step, .seek 67, .step]
  refine ⟨_, hload, (hscripts []).pending, hidle _ rfl, ?_, ?_, ?_, ?_⟩
  · rw [hscript.pending, hrun]
    rfl
  · rw [hscript.active, hrun, hidle _ rfl]
    rfl
  · rw [hscript.active, hrun, hidle _ rfl]
    rfl
  · rw [hscript.hz .ym2612 _ hrun rfl]
    rfl

end Session

end ChipLog
