/-
# Turns: the commands that a script carries out

Of the calls of a script only the steps reach the deck of a session, and of those only the ones
that find a command.  Each of these is a `Turn`: the command, and the deck as the command found
it.  Whatever else a script does, frames and mutes that is, touches nothing but the sockets, and
is not heard by any engine (`Deck.Rests`).

Main statements:

* a script takes a deck from turn to turn, with rests in between (`Session.chain_after`);
* the deeds of a script are those of its turns (`Session.deeds_performAll`), and the engines hear
  of it what its journal says (`Session.hears_performAll`);
* which commands are carried out is known from the timeline alone (`Session.commands_turns`);
* from the opening of a log on, the engines hear what the journals say (`Session.hears_history`).

Facts about scripts follow by two inductions that are made here once and for all: over the turns
of one run (`Deck.Chain.invariant`) and over the turns of two runs that carry out the same commands
(`Deck.Chain.lockstep`).
-/
import ChipLog.Proofs.Playback.Opening
import ChipLog.Proofs.Playback.Orders
import ChipLog.Proofs.Session.Timeline

namespace ChipLog

/-! ## 1. Commands of a timeline -/

namespace Timeline

/-- The command that the next step carries out, if there is one. -/
def command? (image : ByteArray) (line : Timeline) : Option Command :=
  if line.terminated || line.ended then none
  else (Command.parse image line.position).toOption.map Prod.fst

theorem command?_eq_some_iff {image : ByteArray} {line : Timeline} {command : Command} :
    line.command? image = some command ↔
      line.terminated = false ∧ line.ended = false ∧
        ∃ length, Command.parse image line.position = .ok (command, length) := by
  unfold command?
  cases line.terminated with
  | true => simp
  | false =>
    cases line.ended with
    | true => simp
    | false =>
      cases Command.parse image line.position with
      | error fault => simp [Except.toOption]
      | ok parsed =>
        obtain ⟨command', length⟩ := parsed
        simp [Except.toOption]

/-- The commands that are carried out on the way. -/
def commands (image : ByteArray) : List Move → Timeline → List Command
  | [], _ => []
  | .step :: moves, line => (line.command? image).toList ++ commands image moves (line.step image).2
  | .seek position :: moves, line => commands image moves (line.seek position)

end Timeline

/-! ## 2. Turns and rests -/

/-- A command that is carried out, and the deck as the command finds it. -/
structure Turn (σ : Type) where
  command : Command
  deck : Deck σ

variable {σ τ : Type} [ChipEngine σ] [ChipEngine τ]

/-- What comes of a turn. -/
def Turn.result (engines : Factory σ) (turn : Turn σ) : Logged Site (Deck σ) :=
  turn.deck.execute engines turn.command

/-- Nothing but frames and mutes lies between two decks. -/
structure Deck.Rests (engines : Factory σ) (d e : Deck σ) : Prop where
  board : d.board.Hears engines [] e.board
  banks : e.banks = d.banks
  pendingFm : e.pendingFm = d.pendingFm
  dacPosition : e.dacPosition = d.dacPosition

namespace Deck.Rests

variable {engines : Factory σ} {d e f : Deck σ}

theorem refl (engines : Factory σ) (d : Deck σ) : d.Rests engines d :=
  ⟨.refl engines d.board, rfl, rfl, rfl⟩

theorem trans (first : d.Rests engines e) (second : e.Rests engines f) : d.Rests engines f :=
  ⟨first.board.trans second.board, second.banks.trans first.banks,
    second.pendingFm.trans first.pendingFm, second.dacPosition.trans first.dacPosition⟩

/-- Rests leave all chips as they are. -/
theorem sameChips (h : d.Rests engines e) : e.board.SameChips d.board :=
  fun site => (h.board site).sameChip

end Deck.Rests

/-- A board that is changed in one way or another between turns. -/
theorem Board.hears_advance (engines : Factory σ) (board : Board σ) :
    board.Hears engines [] board.advance := by
  intro site
  rw [Board.socket_advance]
  exact .frame (.nil _)

theorem Board.hears_render (engines : Factory σ) (frames : Array StereoFrame) (count : Nat)
    (board : Board σ) : board.Hears engines [] (board.render frames count).2 := by
  induction count generalizing frames board with
  | zero => exact .refl engines board
  | succ count ih => exact (board.hears_advance engines).trans (ih _ board.advance)

theorem Board.hears_setAudible (engines : Factory σ) (site : Site) (audible : Bool)
    (board : Board σ) : board.Hears engines [] (board.setAudible site audible) := by
  intro other
  rw [Board.socket_setAudible]
  split
  case isTrue hsite =>
    rw [← hsite]
    exact .mute audible (.nil _)
  case isFalse => exact .nil _

namespace Session

/-- The turn that a call brings about, if it does. -/
def turn? {σ : Type} : Call → Session σ → Option (Turn σ)
  | .step, session =>
    (session.timeline.command? session.image).map fun command => ⟨command, session.playback.deck⟩
  | _, _ => none

/-- The turns of a script. -/
def turns : List Call → Session σ → List (Turn σ)
  | [], _ => []
  | call :: calls, session =>
    (session.turn? call).toList ++ turns calls (session.perform call).value.2

/-- A step that finds a command carries it out. -/
theorem step_of_command? {session : Session σ} {command : Command}
    (h : session.timeline.command? session.image = some command) :
    session.step.value.2.playback.deck =
        (session.playback.deck.execute session.engines command).value ∧
      session.step.deeds = (session.playback.deck.execute session.engines command).deeds := by
  obtain ⟨hterminated, hended, length, hparse⟩ := Timeline.command?_eq_some_iff.mp h
  have hterminated : session.playback.terminated = false := hterminated
  have hended : session.playback.ended = false := hended
  have hparse : Command.parse session.image session.playback.position = .ok (command, length) :=
    hparse
  unfold Session.step Playback.step
  rw [hterminated, hended, if_neg Bool.false_ne_true, if_neg Bool.false_ne_true, hparse]
  -- the end of the stream is handled apart from the other commands, with the same outcome
  cases command with
  | endOfData => exact ⟨rfl, rfl⟩
  | _ => exact ⟨rfl, by simp⟩

/-- A step that finds no command leaves the deck as it is. -/
theorem step_of_command?_eq_none {session : Session σ}
    (h : session.timeline.command? session.image = none) :
    session.step.value.2.playback.deck = session.playback.deck ∧ session.step.deeds = [] := by
  unfold Session.step Playback.step
  cases hterminated : session.playback.terminated with
  | true => exact ⟨rfl, rfl⟩
  | false =>
    cases hended : session.playback.ended with
    | true => exact ⟨rfl, rfl⟩
    | false =>
      cases hparse : Command.parse session.image session.playback.position with
      | error fault => exact ⟨rfl, rfl⟩
      | ok parsed =>
        have hsome : session.timeline.command? session.image = some parsed.1 :=
          Timeline.command?_eq_some_iff.mpr ⟨hterminated, hended, parsed.2, hparse⟩
        rw [h] at hsome
        cases hsome

omit [ChipEngine σ] in
/-- A look at the tag is no deed. -/
theorem deeds_tag (session : Session σ) : session.tag.deeds = [] := by
  have hlookUp : ∀ offset, (Tag.lookUp session.image offset : Logged Site _).deeds = [] := by
    intro offset
    unfold Tag.lookUp
    split
    case h_1 finding hfind =>
      cases hnotice : finding.notice? with
      | none => rfl
      | some notice => rfl
    case h_2 => rfl
  have hget : (session.cache.get session.image session.header.tagOffset : Logged Site _).deeds
      = [] := by
    unfold TagCache.get
    split
    · rfl
    · rw [Logged.deeds_bind, hlookUp]
      split <;> rfl
  rw [tag, Logged.deeds_bind, hget]
  rfl

/-- A call that brings about a turn does to decks and engines what the turn does. -/
theorem perform_of_turn? {call : Call} {session : Session σ} {turn : Turn σ}
    (h : session.turn? call = some turn) :
    turn.deck = session.playback.deck ∧
      (session.perform call).value.2.playback.deck = (turn.result session.engines).value ∧
      (session.perform call).deeds = (turn.result session.engines).deeds := by
  cases call with
  | step =>
    obtain ⟨command, hcommand, rfl⟩ := Option.map_eq_some_iff.mp h
    obtain ⟨hdeck, hdeeds⟩ := step_of_command? hcommand
    refine ⟨rfl, hdeck, ?_⟩
    rw [perform, Logged.deeds_bind, hdeeds]
    exact List.append_nil _
  | _ => cases h

/-- Every other call lets the deck rest, and no engine hears of it. -/
theorem perform_of_turn?_eq_none {call : Call} {session : Session σ}
    (h : session.turn? call = none) :
    session.playback.deck.Rests session.engines (session.perform call).value.2.playback.deck ∧
      (session.perform call).deeds = [] := by
  cases call with
  | step =>
    obtain ⟨hdeck, hdeeds⟩ := step_of_command?_eq_none (Option.map_eq_none_iff.mp h)
    refine ⟨?_, ?_⟩
    · rw [show (session.perform .step).value.2 = session.step.value.2 from rfl, hdeck]
      exact .refl _ _
    · rw [perform, Logged.deeds_bind, hdeeds]
      rfl
  | seek position => exact ⟨.refl _ _, rfl⟩
  | tick => exact ⟨⟨Board.hears_advance _ _, rfl, rfl, rfl⟩, rfl⟩
  | render count => exact ⟨⟨Board.hears_render _ _ _ _, rfl, rfl, rfl⟩, rfl⟩
  | setAudible site audible => exact ⟨⟨Board.hears_setAudible _ _ _ _, rfl, rfl, rfl⟩, rfl⟩
  | tag =>
    refine ⟨.refl _ _, ?_⟩
    rw [perform, Logged.deeds_bind, deeds_tag]
    rfl

/-! ## 3. Scripts -/

@[simp] theorem turns_cons (call : Call) (calls : List Call) (session : Session σ) :
    session.turns (call :: calls) =
      (session.turn? call).toList ++ (session.perform call).value.2.turns calls := rfl

/-- The deeds of a script are those of its turns. -/
theorem deeds_performAll (calls : List Call) (session : Session σ) :
    (session.performAll calls).deeds =
      (session.turns calls).flatMap fun turn => (turn.result session.engines).deeds := by
  induction calls generalizing session with
  | nil => rfl
  | cons call calls ih =>
    have hsplit : (session.performAll (call :: calls)).deeds =
        (session.perform call).deeds ++ ((session.perform call).value.2.performAll calls).deeds := by
      simp [performAll]
    rw [hsplit, ih, engines_perform, turns_cons, List.flatMap_append]
    congr 1
    cases hturn : session.turn? call with
    | none => exact (perform_of_turn?_eq_none hturn).2
    | some turn =>
      rw [(perform_of_turn? hturn).2.2]
      simp

/-- The engines hear of a call what its journal says. -/
theorem hears_perform (call : Call) (session : Session σ) :
    session.playback.deck.board.Hears session.engines (session.perform call).events
      (session.perform call).value.2.playback.deck.board := by
  cases hturn : session.turn? call with
  | none =>
    obtain ⟨hrests, hdeeds⟩ := perform_of_turn?_eq_none hturn
    exact hrests.board.of_deeds hdeeds.symm
  | some turn =>
    obtain ⟨hfound, hdeck, hdeeds⟩ := perform_of_turn? hturn
    rw [hdeck, ← hfound]
    exact (Deck.hears_execute session.engines turn.command turn.deck).of_deeds hdeeds.symm

/-- **The engines hear of a script what its journal says.** -/
theorem hears_performAll (calls : List Call) (session : Session σ) :
    session.playback.deck.board.Hears session.engines (session.performAll calls).events
      (session.after calls).playback.deck.board := by
  induction calls generalizing session with
  | nil => exact .refl _ _
  | cons call calls ih =>
    have hevents : (session.performAll (call :: calls)).events =
        (session.perform call).events ++ ((session.perform call).value.2.performAll calls).events := by
      simp [performAll]
    have hrest := ih (session.perform call).value.2
    rw [engines_perform] at hrest
    rw [hevents]
    exact (hears_perform call session).trans hrest

/-- **Which commands are carried out is known from the timeline alone.** -/
theorem commands_turns (calls : List Call) (session : Session σ) :
    (session.turns calls).map Turn.command =
      session.timeline.commands session.image (calls.filterMap Call.move?) := by
  induction calls generalizing session with
  | nil => rfl
  | cons call calls ih =>
    have ih := ih (session.perform call).value.2
    rw [image_perform] at ih
    rw [turns_cons, List.map_append, ih]
    cases hmove : call.move? with
    | none =>
      have hturn : session.turn? call = none := by
        cases call with
        | step => cases hmove
        | _ => rfl
      rw [hturn, (timeline_perform hmove session).1, List.filterMap_cons_none hmove]
      rfl
    | some move =>
      rw [List.filterMap_cons_some hmove]
      cases call with
      | step =>
        cases hmove
        have hline : (session.perform .step).value.2.timeline =
            (session.timeline.step session.image).2 :=
          congrArg Prod.snd (timeline_step session.engines session.image session.playback)
        rw [hline, Timeline.commands, turn?]
        cases session.timeline.command? session.image <;> rfl
      | seek position =>
        cases hmove
        have hline : (session.perform (.seek position)).value.2.timeline =
            session.timeline.seek position := timeline_seek position session.playback
        rw [hline]
        rfl
      | _ => cases hmove

end Session

/-! ## 4. Chains of turns -/

/-- From a deck to a deck by way of turns, with rests in between. -/
inductive Deck.Chain (engines : Factory σ) : Deck σ → List (Turn σ) → Deck σ → Prop
  | nil (d : Deck σ) : Chain engines d [] d
  | rest {d e f : Deck σ} {turns : List (Turn σ)} (head : d.Rests engines e)
      (tail : Chain engines e turns f) : Chain engines d turns f
  | turn {d f : Deck σ} {turns : List (Turn σ)} (command : Command)
      (tail : Chain engines (d.execute engines command).value turns f) :
      Chain engines d (⟨command, d⟩ :: turns) f

/-- A script takes the deck of a session from turn to turn. -/
theorem Session.chain_after (calls : List Call) (session : Session σ) :
    Deck.Chain session.engines session.playback.deck (session.turns calls)
      (session.after calls).playback.deck := by
  induction calls generalizing session with
  | nil => exact .nil _
  | cons call calls ih =>
    have hrest := ih (session.perform call).value.2
    rw [engines_perform] at hrest
    cases hturn : session.turn? call with
    | none =>
      rw [turns_cons, hturn]
      exact .rest (perform_of_turn?_eq_none hturn).1 hrest
    | some turn =>
      obtain ⟨hfound, hdeck, -⟩ := perform_of_turn? hturn
      rw [hdeck] at hrest
      rw [turns_cons, hturn, ← hfound]
      exact .turn turn.command hrest

namespace Deck.Chain

variable {engines : Factory σ} {engines' : Factory τ}

/-- **What a run keeps.**  A property of the turns so far and of the deck that rests keep, and that
each turn keeps as it joins the others, holds along a run. -/
theorem invariant {motive : List (Turn σ) → Deck σ → Prop}
    (hrest : ∀ {turns d e}, Rests engines d e → motive turns d → motive turns e)
    (hturn : ∀ {turns} (d : Deck σ) (command : Command), motive turns d →
      motive (turns ++ [⟨command, d⟩]) (d.execute engines command).value)
    {d e : Deck σ} {turns : List (Turn σ)} (h : Chain engines d turns e)
    (before : List (Turn σ)) (hbefore : motive before d) : motive (before ++ turns) e := by
  induction h generalizing before with
  | nil d => simpa using hbefore
  | rest head _ ih => exact ih before (hrest head hbefore)
  | turn command _ ih =>
    have hafter := ih _ (hturn _ command hbefore)
    rwa [List.append_assoc] at hafter

/-- The banks hold what the turns have brought. -/
theorem banks_eq {d e : Deck σ} {turns : List (Turn σ)} (h : Chain engines d turns e) :
    e.banks = Command.stockAll (turns.map Turn.command) d.banks := by
  induction h with
  | nil d => rfl
  | rest head _ ih => rw [ih, head.banks]
  | turn command _ ih => rw [ih, banks_execute]; rfl

/-- A run that has nothing to decide, as the FM chip is decided or no command is for one, leaves an
open clock and all chips as they are. -/
theorem unchanged {d e : Deck σ} {turns : List (Turn σ)} (h : Chain engines d turns e)
    (hnothing : d.pendingFm = none ∨ ∀ turn ∈ turns, turn.command.fmKind? = none) :
    e.pendingFm = d.pendingFm ∧ e.board.SameChips d.board := by
  induction h with
  | nil d => exact ⟨rfl, .refl _⟩
  | rest head _ ih =>
    obtain ⟨hend, hchips⟩ := ih (hnothing.imp_left head.pendingFm.trans)
    exact ⟨hend.trans head.pendingFm, hchips.trans head.sameChips⟩
  | turn command _ ih =>
    obtain ⟨hnext, hsame⟩ := execute_of_nothing engines
      (hnothing.imp_right fun hturns => hturns _ List.mem_cons_self)
    obtain ⟨hend, hchips⟩ := ih (hnothing.imp hnext.trans fun hturns turn hturn =>
      hturns turn (List.mem_cons_of_mem _ hturn))
    exact ⟨hend.trans hnext, hchips.trans hsame⟩

/-- Without a turn there is nothing but rest. -/
theorem rests_of_nil {d e : Deck σ} (h : Chain engines d [] e) : d.Rests engines e := by
  generalize hnil : ([] : List (Turn σ)) = turns at h
  induction h with
  | nil d => exact .refl engines d
  | rest head _ ih => exact head.trans (ih hnil)
  | turn command _ _ => cases hnil

/-- A first turn begins after some rest. -/
theorem uncons {d e : Deck σ} {turn : Turn σ} {turns : List (Turn σ)}
    (h : Chain engines d (turn :: turns) e) :
    d.Rests engines turn.deck ∧ Chain engines (turn.result engines).value turns e := by
  generalize hcons : turn :: turns = all at h
  induction h with
  | nil d => cases hcons
  | rest head _ ih =>
    obtain ⟨hrests, htail⟩ := ih hcons
    exact ⟨head.trans hrests, htail⟩
  | turn command tail _ =>
    cases hcons
    exact ⟨.refl engines _, tail⟩

/-- A run in two parts has a deck between them. -/
theorem split {d e : Deck σ} {first second : List (Turn σ)}
    (h : Chain engines d (first ++ second) e) :
    ∃ middle, Chain engines d first middle ∧ Chain engines middle second e := by
  induction first generalizing d with
  | nil => exact ⟨d, .nil d, h⟩
  | cons turn first ih =>
    obtain ⟨hrests, htail⟩ := h.uncons
    obtain ⟨middle, hfirst, hsecond⟩ := ih htail
    exact ⟨middle, .rest hrests (.turn turn.command hfirst), hsecond⟩

/-- **Two runs in step.**  Two runs carry out the same commands.  If a relation between their decks
outlasts every rest of either, and makes every command do the same deeds in both and is kept by
it, then the runs do the same deeds and end in decks that are related.  The relation may look at
the turns that the first run has yet to take. -/
theorem lockstep {R : List (Turn σ) → Deck σ → Deck τ → Prop}
    (hrest : ∀ {turns d d' e}, Rests engines d d' → R turns d e → R turns d' e)
    (hrest' : ∀ {turns d e e'}, Rests engines' e e' → R turns d e → R turns d e')
    (hturn : ∀ {turns} {d : Deck σ} {e : Deck τ} (command : Command),
      R (⟨command, d⟩ :: turns) d e →
        (d.execute engines command).deeds = (e.execute engines' command).deeds ∧
          R turns (d.execute engines command).value (e.execute engines' command).value)
    {d d' : Deck σ} {e e' : Deck τ} {turns : List (Turn σ)} {turns' : List (Turn τ)}
    (first : Chain engines d turns d') (second : Chain engines' e turns' e')
    (hcommands : turns.map Turn.command = turns'.map Turn.command) (h : R turns d e) :
    (turns.flatMap fun turn => (turn.result engines).deeds) =
        (turns'.flatMap fun turn => (turn.result engines').deeds) ∧
      R [] d' e' := by
  induction first generalizing e turns' with
  | nil d =>
    have hnil : turns' = [] := List.map_eq_nil_iff.mp hcommands.symm
    subst hnil
    exact ⟨rfl, hrest' second.rests_of_nil h⟩
  | rest head _ ih => exact ih second hcommands (hrest head h)
  | @turn d f turns command _ ih =>
    cases turns' with
    | nil => cases hcommands
    | cons turn' turns' =>
      obtain ⟨hcommand, hcommands⟩ := List.cons.inj hcommands
      have hcommand : command = turn'.command := hcommand
      obtain ⟨hrests, htail⟩ := second.uncons
      obtain ⟨hdeeds, hafter⟩ := hturn command (hrest' hrests h)
      rw [hcommand] at hdeeds hafter
      obtain ⟨hall, hend⟩ := ih htail hcommands (by rw [hcommand]; exact hafter)
      refine ⟨?_, hend⟩
      rw [List.flatMap_cons, List.flatMap_cons, hall]
      exact congrArg (· ++ _) (by rw [Turn.result, Turn.result, hcommand, hdeeds])

end Deck.Chain

/-! ## 5. From the opening on -/

namespace Session

/-- All events of a session, from its opening to the end of a script. -/
def history (engines : Factory σ) (image : ByteArray) (session : Session σ) (calls : List Call) :
    List (Event Site) :=
  (load engines image).events ++ (session.performAll calls).events

variable {engines : Factory σ} {image : ByteArray} {session : Session σ}

/-- A session begins with the deck that its header opens. -/
theorem load_deck (h : (load engines image).value = .ok session) :
    ∃ header, Header.parse image = .ok header ∧ session.header = header ∧
      session.image = image ∧ session.engines = engines ∧
      session.timeline = ⟨header.dataStart, false, false⟩ ∧
      session.playback.deck = (Deck.ofHeader engines header).value ∧
      (load engines image).deeds = (Deck.ofHeader engines header).deeds := by
  obtain ⟨header, hparse, rfl⟩ := load_eq_ok_iff.mp h
  refine ⟨header, hparse, rfl, rfl, rfl, rfl, rfl, ?_⟩
  unfold load Header.read
  rw [hparse]
  simp [Playback.ofHeader]

/-- **The engines hear of a session what its journals say.** -/
theorem hears_history (h : (load engines image).value = .ok session) (calls : List Call) :
    Board.empty.Hears engines (history engines image session calls)
      (session.after calls).playback.deck.board := by
  obtain ⟨header, -, -, -, hengines, -, hdeck, hdeeds⟩ := load_deck h
  have hopening : Board.empty.Hears engines (load engines image).events
      session.playback.deck.board := by
    rw [hdeck]
    exact (Deck.hears_ofHeader engines header).of_deeds hdeeds.symm
  have hscript := hears_performAll calls session
  rw [hengines] at hscript
  exact hopening.trans hscript

end Session

end ChipLog
