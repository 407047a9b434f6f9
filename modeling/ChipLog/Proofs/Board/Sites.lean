/-
# The board, site by site

A board keeps its sockets in pairs, and the pairs in a table.  Statements about a board are
statements about its sockets, so this module says of every operation what it does to the socket
of each site, and nobody has to look into the table again.

* A socket without an engine hears nothing (`Socket.events_send`, `Board.events_send`) and takes the
  engine that it is offered (`Socket.install_of_inactive`).
* Two boards with the same sockets are one board (`ext_socket`).
* `send` changes the socket it is for (`socket_send`), and so does a mute (`socket_setAudible`);
  `setSlot` leaves the sockets of other kinds alone (`socket_setSlot_of_ne`); a frame changes all
  sockets, each on its own (`socket_advance`).
* The output of a board is the sum over all sites in mixing order (`output_eq_foldl`).
* Frames are put behind those that are there (`render_eq_append`), to make some and then some more is
  to make them all at once (`render_add`), and what one frame leaves alone, many leave alone
  (`socket_render_keeps`).
-/
import ChipLog.Board.Basic

namespace ChipLog

/-- The entries of a table in mixing order. -/
theorem PerKind.toList_eq_map {α : Type} (table : PerKind α) :
    table.entries.toList = ChipKind.all.map table.get := by
  apply List.ext_getElem
  · simp [ChipKind.all, ChipKind.count]
  · intro i hi hi'
    have hcount : i < ChipKind.count := by simpa using hi
    have hindex := ChipKind.index_ofIndex ⟨i, hcount⟩
    rw [Vector.getElem_toList, List.getElem_map, PerKind.get]
    exact congrArg (fun place : Fin ChipKind.count => table.entries[place]) hindex.symm

/-! ## 1. Sockets -/

namespace Socket

variable {σ : Type} [ChipEngine σ]

/-- Calls leave their events behind only where there is an engine. -/
theorem events_send (calls : List EngineCall) (socket : Socket σ) :
    (socket.send calls).events = if socket.isActive then calls.map (.call ()) else [] := by
  cases hvoice : socket.voice with
  | none => simp [send, isActive, hvoice]
  | some voice => simp [send, isActive, hvoice, Logged.calls]

/-- Calls are for the voice. -/
theorem voice_send (calls : List EngineCall) (socket : Socket σ) :
    (socket.send calls).value.voice = socket.voice.map (Voice.send calls) := by
  cases hvoice : socket.voice with
  | none => rw [send, hvoice]; exact hvoice
  | some voice => rw [send, hvoice]; rfl

/-- No call throws a switch. -/
theorem audible_send (calls : List EngineCall) (socket : Socket σ) :
    (socket.send calls).value.audible = socket.audible := by
  unfold send
  split <;> rfl

/-- An empty socket takes the engine that it is offered. -/
theorem install_of_inactive {field : ClockField} {engine : σ} {socket : Socket σ}
    (h : socket.isActive = false) :
    socket.install field engine =
      ⟨(true, { socket with voice := some (Voice.start engine field.hz) }),
        [.call () (.start field.hz)]⟩ := by
  cases hvoice : socket.voice with
  | none => rw [install, hvoice]; rfl
  | some voice => simp [isActive, hvoice] at h

end Socket

namespace Board

variable {σ : Type}

/-! ## 2. Boards and sockets -/

/-- A board is known by its sockets. -/
theorem ext_socket {a b : Board σ} (h : ∀ site, a.socket site = b.socket site) : a = b := by
  obtain ⟨a⟩ := a
  obtain ⟨b⟩ := b
  refine congrArg Board.mk (PerKind.ext_get fun kind => ?_)
  have hprimary := h ⟨kind, .primary⟩
  have hsecondary := h ⟨kind, .secondary⟩
  cases ha : a.get kind
  cases hb : b.get kind
  simp_all [socket, slot, Pair.socket]

/-- To put the same socket back changes nothing. -/
theorem setSocket_self (board : Board σ) (site : Site) :
    board.setSocket site (board.socket site) = board := by
  apply ext_socket
  intro other
  by_cases hsite : other = site
  · rw [hsite, socket_setSocket_self]
  · exact socket_setSocket_of_ne _ _ hsite

@[simp] theorem socket_empty (site : Site) : (empty : Board σ).socket site = {} := by
  obtain ⟨kind, rank⟩ := site
  cases rank <;> simp [empty, socket, slot, Pair.socket]

@[simp] theorem socket_setSlot_self (board : Board σ) (kind : ChipKind) (pair : Pair σ)
    (rank : Rank) : (board.setSlot kind pair).socket ⟨kind, rank⟩ = pair.socket rank := by
  simp [socket, slot, setSlot]

theorem socket_setSlot_of_ne (board : Board σ) {kind : ChipKind} {site : Site} (pair : Pair σ)
    (h : site.kind ≠ kind) : (board.setSlot kind pair).socket site = board.socket site := by
  simp [socket, slot, setSlot, PerKind.get_modify_of_ne _ _ h]

/-- A switch is thrown in the socket of its site and in no other. -/
theorem socket_setAudible (site other : Site) (audible : Bool) (board : Board σ) :
    (board.setAudible site audible).socket other =
      if other = site then (board.socket site).setAudible audible else board.socket other := by
  by_cases h : other = site
  · subst h
    simp [setAudible]
  · simp [setAudible, h, socket_setSocket_of_ne board _ h]

variable [ChipEngine σ]

/-! ## 3. Calls -/

/-- What is sent to a site reaches the socket of that site and no other. -/
theorem socket_send (site other : Site) (calls : List EngineCall) (board : Board σ) :
    (board.send site calls).value.socket other =
      if other = site then ((board.socket site).send calls).value else board.socket other := by
  by_cases h : other = site
  · subst h
    simp [send]
  · simp [send, h, socket_setSocket_of_ne board _ h]

/-- What is sent leaves its events behind only where there is an engine. -/
theorem events_send (site : Site) (calls : List EngineCall) (board : Board σ) :
    (board.send site calls).events =
      if (board.socket site).isActive then calls.map (.call site) else [] := by
  have hevents : (board.send site calls).events =
      ((board.socket site).send calls).events.map (.relabel fun _ => site) :=
    List.append_nil _
  rw [hevents, Socket.events_send]
  split
  · rw [List.map_map]
    rfl
  · rfl

/-! ## 4. Time -/

/-- A frame goes on in every socket on its own. -/
@[simp] theorem socket_advance (board : Board σ) (site : Site) :
    board.advance.socket site = (board.socket site).advance := by
  obtain ⟨kind, rank⟩ := site
  cases rank <;> simp [advance, socket, slot, Pair.advance, Pair.socket]

/-- **The output is the sum over all sites in mixing order.** -/
theorem output_eq_foldl (board : Board σ) :
    board.output = Site.all.foldl (fun total site => (board.socket site).mixOutput total)
      .silence := by
  have hfold : board.output = (ChipKind.all.map board.slot).foldl Pair.mixOutput .silence := by
    rw [output, ← Vector.foldl_toList, PerKind.toList_eq_map]
    rfl
  rw [hfold, Site.all, List.foldl_map, List.foldl_flatMap]
  rfl

/-! ## 5. Many frames -/

/-- What is there before has no part in what is made. -/
theorem render_eq_append (frames : Array StereoFrame) (board : Board σ) (count : Nat) :
    board.render frames count =
      (frames ++ (board.render #[] count).1, (board.render #[] count).2) := by
  induction count generalizing frames board with
  | zero => simp [render]
  | succ count ih =>
    unfold render
    dsimp only
    rw [ih (frames.push _), ih (#[].push _)]
    simp

/-- As many frames are made as were asked for. -/
theorem size_render (frames : Array StereoFrame) (board : Board σ) (count : Nat) :
    (board.render frames count).1.size = frames.size + count := by
  induction count generalizing frames board with
  | zero => rfl
  | succ count ih =>
    unfold render
    dsimp only
    rw [ih, Array.size_push]
    omega

/-- What a frame leaves alone in every socket is left alone by many frames. -/
theorem socket_render_keeps {α : Type} (f : Socket σ → α) (hkeeps : ∀ s, f s.advance = f s)
    (frames : Array StereoFrame) (count : Nat) (board : Board σ) (site : Site) :
    f ((board.render frames count).2.socket site) = f (board.socket site) := by
  induction count generalizing frames board with
  | zero => rfl
  | succ count ih =>
    have hnext : f ((board.render frames (count + 1)).2.socket site) =
        f (board.advance.socket site) := ih _ _
    rw [hnext, socket_advance, hkeeps]

/-- Frames can be made in two goes. -/
theorem render_add (frames : Array StereoFrame) (board : Board σ) (first second : Nat) :
    board.render frames (first + second) =
      (board.render frames first).2.render (board.render frames first).1 second := by
  induction first generalizing frames board with
  | zero => rw [Nat.zero_add]; rfl
  | succ first ih =>
    rw [Nat.add_right_comm]
    exact ih _ _

end Board

end ChipLog
