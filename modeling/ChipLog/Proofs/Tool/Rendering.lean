/-
# What a rendering comes to

A rendering opens an image, mutes some chips, plays the session, and answers with the frames or with
the reason why there are none (`Render.run_value`).
-/
import ChipLog.Proofs.Playback.Limit
import ChipLog.Proofs.Session.Latch
import ChipLog.Proofs.Session.Playing
import ChipLog.Tool.Render

namespace ChipLog

variable {σ : Type} [ChipEngine σ]

namespace Render

/-! ## 1. Parts of a rendering -/

/-- The calls that mute some chips. -/
def muting (sites : List Site) : List Call := sites.map fun site => .setAudible site false

/-- The answer of a rendering whose run has come to an end. -/
def outcome {σ : Type} : Ending × Run σ → Except Failure (Array StereoFrame)
  | (.fault fault, _) => .error (.stopped fault)
  | (_, run) => .ok run.frames

/-- The run of a rendering, if the image can be opened and all names are those of chips. -/
def played (engines : Factory σ) (image : ByteArray) (options : RenderOptions) :
    Except Failure (Ending × Run σ) := do
  let session ← (Session.load engines image).value.mapError .load
  let sites ← (options.mute.mapM Mute.parse).mapError .mute
  pure ((session.after (muting sites)).play options.loops
    (options.maxSeconds.map (· * outputRate)))

/-- The frames that a rendering hands over to be written, whether it succeeds or fails. -/
def handed (engines : Factory σ) (image : ByteArray) (options : RenderOptions) :
    Array StereoFrame :=
  match played engines image options with
  | .ok (_, run) => run.frames
  | .error _ => #[]

/-- Muting is a script, if all names are those of chips. -/
theorem muteAll_value (session : Session σ) (names : List String) :
    (muteAll session names).value =
      (names.mapM Mute.parse).map fun sites => session.after (muting sites) := by
  induction names generalizing session with
  | nil => rfl
  | cons name names ih =>
    rw [List.mapM_cons]
    cases hparse : Mute.parse name with
    | error refusal => simp only [muteAll, hparse]; rfl
    | ok site =>
      simp only [muteAll, hparse, Logged.value_bind]
      rw [ih]
      cases names.mapM Mute.parse <;> rfl

/-- A session that is played answers what its run comes to. -/
theorem play_value (options : RenderOptions) (path : String) (session : Session σ) :
    (play options path session).value =
      outcome (session.play options.loops (options.maxSeconds.map (· * outputRate))) := by
  unfold play
  obtain ⟨ending, run⟩ := session.play options.loops (options.maxSeconds.map (· * outputRate))
  cases ending <;> rfl

/-- **A rendering answers what its run comes to.** -/
theorem run_value (engines : Factory σ) (image : ByteArray) (path : String)
    (options : RenderOptions) :
    (run engines image path options).value = (played engines image options).bind outcome := by
  unfold run played
  rw [Logged.value_bind]
  cases (Session.load engines image).value with
  | error fault => rfl
  | ok session =>
    dsimp only
    rw [Logged.value_bind, muteAll_value]
    cases options.mute.mapM Mute.parse with
    | error refusal => rfl
    | ok sites => exact play_value options path _

/-- The run of a rendering of an image that can be opened, if all names are those of chips. -/
theorem played_of_load {engines : Factory σ} {image : ByteArray} {session : Session σ}
    {sites : List Site} {options : RenderOptions}
    (hload : (Session.load engines image).value = .ok session)
    (hmute : options.mute.mapM Mute.parse = .ok sites) :
    played engines image options = .ok ((session.after (muting sites)).play options.loops
      (options.maxSeconds.map (· * outputRate))) := by
  rw [played, hload, hmute]
  rfl

/-- A rendering that succeeds answers with the frames that it has handed over. -/
theorem eq_handed_of_run {engines : Factory σ} {image : ByteArray} {path : String}
    {options : RenderOptions} {frames : Array StereoFrame}
    (h : (run engines image path options).value = .ok frames) :
    frames = handed engines image options := by
  rw [run_value] at h
  unfold handed
  cases hplayed : played engines image options with
  | error failure => rw [hplayed] at h; cases h
  | ok result =>
    rw [hplayed] at h
    obtain ⟨ending, run⟩ := result
    cases ending with
    | fault fault => cases h
    | endOfStream => exact (Except.ok.inj h).symm
    | limit => exact (Except.ok.inj h).symm

/-! ## 2. Renderings come to an end -/

/-- **Playing always ends.**  Whatever a session was used for before, to play it is to run a script on
it, one that takes at most `loops + 1` times as many steps as the image has bytes, and one more for
each time; and a rendering does nothing else with the session that it has muted.  Each step that
waits leads further on and not beyond the end of the image, so that without seeks the end of the
stream or a fault comes after as many steps as there are bytes from the start of the commands on, and
one more, at the latest. -/
theorem playing_always_ends {engines : Factory σ} {image : ByteArray} {session : Session σ}
    (h : (Session.load engines image).value = .ok session) :
    (∀ before loops limit, ∃ calls,
      (session.after before).Enacts calls { playback := (session.after before).playback }
        ((session.after before).play loops limit).2 ∧
      ((session.after before).play loops limit).2.steps = calls.countP Call.isStep ∧
      calls.countP Call.isStep ≤ (loops + 1) * (image.size + 1)) ∧
    (∀ path options sites, options.mute.mapM Mute.parse = .ok sites →
      (run engines image path options).value =
        outcome ((session.after (muting sites)).play options.loops
          (options.maxSeconds.map (· * outputRate)))) ∧
    (∀ calls frames next, (session.after calls).step.value = (.ok (.wait frames), next) →
      (session.after calls).playback.position < next.playback.position ∧
        next.playback.position ≤ image.size) ∧
    ∀ calls, (∀ call ∈ calls, call.isSeek = false) →
      image.size - session.header.dataStart < calls.countP Call.isStep →
      ∃ result ∈ ((session.replies calls).filterMap Reply.step?).take
          (image.size - session.header.dataStart + 1),
        result = .ok .endOfStream ∨ ∃ fault, result = .error fault := by
  obtain ⟨header, -, hopened⟩ := Session.load_eq_ok_iff.mp h
  have himage : session.image = image := by rw [hopened]; rfl
  have hposition : session.playback.position = session.header.dataStart := by rw [hopened]; rfl
  refine ⟨?_, ?_, ?_, ?_⟩
  · intro before loops limit
    obtain ⟨calls, hscript, hbound⟩ := (session.after before).play_is_a_script loops limit
    rw [Session.image_after, himage] at hbound
    exact ⟨calls, hscript, hscript.steps.trans (Nat.zero_add _), hbound⟩
  · intro path options sites hmute
    rw [run_value, played_of_load h hmute]
    rfl
  · intro calls frames next hstep
    have hbounds := Playback.step_wait_bounds (Session.playback_step_value hstep)
    rwa [Session.image_after, himage] at hbounds
  · intro calls hcalls hcount
    rw [← hposition, ← himage] at hcount ⊢
    exact session.steps_end hcalls hcount

/-- A log whose loop point is the first operand of its first command.  Read from the start, it waits for
0x6662 frames and ends; read from the loop point, it waits for a sixtieth of a second and ends
one byte before. -/
def crookedLog : ByteArray := Session.loopLog 65 [0x61, 0x62, 0x66, 0x66]

/-- Two loops of it take no more than 207 steps, and without seeks its end comes after five at most. -/
theorem crookedLog_ends : ∃ session,
    (Session.load Bundled.factory crookedLog).value = .ok session ∧
    (∃ calls, session.Enacts calls { playback := session.playback } (session.play 2 none).2 ∧
      calls.countP Call.isStep ≤ 207) ∧
    ∃ result ∈ (session.replies [.step, .step, .tick, .step, .step, .step]).filterMap Reply.step?,
      result = .ok .endOfStream ∨ ∃ fault, result = .error fault := by
  obtain ⟨header, -, hstart, hload⟩ := @Session.load_of_dataStart crookedLog 64 rfl
  obtain ⟨hplay, -, -, hend⟩ := playing_always_ends hload
  have hsize : crookedLog.size = 68 := rfl
  rw [show (Session.opened Bundled.factory crookedLog header).header.dataStart = 64 from hstart,
    hsize] at hend
  obtain ⟨calls, hcalls, -, hbound⟩ := hplay [] 2 none
  obtain ⟨result, hmem, hlast⟩ := hend [.step, .step, .tick, .step, .step, .step] (by decide)
    (by decide)
  exact ⟨_, hload, ⟨calls, hcalls, hbound⟩, result, List.mem_of_mem_take hmem, hlast⟩

/-! ## 3. The length of a rendering -/

/-- The timeline of a session that was opened and then muted. -/
theorem timeline_muted {engines : Factory σ} {image : ByteArray} {session : Session σ}
    (h : (Session.load engines image).value = .ok session) (sites : List Site) :
    (session.after (muting sites)).timeline = ⟨session.header.dataStart, false, false⟩ := by
  have hnone : (muting sites).filterMap Call.move? = [] := by
    rw [muting, List.filterMap_map, List.filterMap_eq_nil_iff]
    exact fun _ _ => rfl
  have hline := congrArg Prod.snd (timeline_performAll (muting sites) session)
  rw [hnone] at hline
  obtain ⟨header, -, rfl⟩ := Session.load_eq_ok_iff.mp h
  exact hline

omit [ChipEngine σ] in
/-- A run that comes to the end of its stream is a success, and its frames are the answer. -/
theorem outcome_of_endOfStream {result : Ending × Run σ} (h : result.1 = .endOfStream) :
    outcome result = .ok result.2.frames := by
  obtain ⟨ending, run⟩ := result
  cases h
  rfl

omit [ChipEngine σ] in
/-- So is one that comes to its limit. -/
theorem outcome_of_limit {result : Ending × Run σ} (h : result.1 = .limit) :
    outcome result = .ok result.2.frames := by
  obtain ⟨ending, run⟩ := result
  cases h
  rfl

omit [ChipEngine σ] in
/-- A run that a fault has stopped is a failure. -/
theorem outcome_of_fault {result : Ending × Run σ} {fault : Fault} (h : result.1 = .fault fault) :
    outcome result = .error (.stopped fault) := by
  obtain ⟨ending, run⟩ := result
  cases h
  rfl

/-- **The length of a rendering without a limit.**  If a stretch of commands begins at the start of
the stream, the rendering has the frames that these wait for; that is all if there is no loop point,
if there are no loops, or if the loop point lies ahead of the end of that stretch.  Otherwise each
loop adds the frames of the stretch that begins at the loop point, and if there is none, the
rendering fails.  It fails as well if no stretch begins at the start of the stream. -/
theorem length_of_rendering {engines : Factory σ} {image : ByteArray} {session : Session σ}
    {mute : List String} {sites : List Site}
    (h : (Session.load engines image).value = .ok session)
    (hmute : mute.mapM Mute.parse = .ok sites) (path : String) (loops : Nat) :
    (∀ first, Command.stretch? image session.header.dataStart = some first →
      (loops = 0 ∨ Run.LiesAhead session.header.loopOffset first.stop →
        ∃ frames, (run engines image path ⟨loops, mute, none⟩).value = .ok frames ∧
          frames.size = first.duration) ∧
      ∀ offset, 0 < loops → session.header.loopOffset = some offset → offset < first.stop →
        (∀ lap, Command.stretch? image offset = some lap →
          ∃ frames, (run engines image path ⟨loops, mute, none⟩).value = .ok frames ∧
            frames.size = first.duration + loops * lap.duration) ∧
        (Command.stretch? image offset = none →
          ∃ fault, (run engines image path ⟨loops, mute, none⟩).value =
            .error (.stopped fault))) ∧
    (Command.stretch? image session.header.dataStart = none →
      ∃ fault, (run engines image path ⟨loops, mute, none⟩).value = .error (.stopped fault)) := by
  have hline : ({ playback := (session.after (muting sites)).playback } : Run σ).playback.timeline =
      ⟨session.header.dataStart, false, false⟩ := timeline_muted h sites
  have hplayed : (run engines image path ⟨loops, mute, none⟩).value =
      outcome (Run.play (session.after (muting sites)).engines image session.header.loopOffset none
        loops { playback := (session.after (muting sites)).playback }) := by
    have hopened : session.image = image := by
      obtain ⟨header, -, rfl⟩ := Session.load_eq_ok_iff.mp h
      rfl
    rw [run_value, played_of_load h hmute, ← hopened]
    simp only [Except.bind, Session.play, Session.image_after, Session.header_after, Option.map_none]
  rw [hplayed]
  constructor
  · intro first hfirst
    constructor
    · intro hahead
      obtain ⟨hending, hsize⟩ := Run.play_of_ahead (session.after (muting sites)).engines hline
        hfirst hahead
      exact ⟨_, outcome_of_endOfStream hending, hsize.trans (Nat.zero_add _)⟩
    · intro offset hloops hoffset hbehind
      rw [hoffset]
      constructor
      · intro lap hlap
        obtain ⟨hending, hsize⟩ := Run.play_of_behind (session.after (muting sites)).engines loops
          hline hfirst hbehind hlap
        exact ⟨_, outcome_of_endOfStream hending, hsize.trans (Nat.zero_add _)⟩
      · intro hlap
        obtain ⟨fault, hfault⟩ := Run.play_of_no_lap (session.after (muting sites)).engines hline
          hfirst hbehind hlap hloops
        exact ⟨fault, outcome_of_fault hfault⟩
  · intro hfirst
    obtain ⟨fault, hfault⟩ := Run.play_of_no_stretch (session.after (muting sites)).engines hfirst
      hline
    exact ⟨fault, outcome_of_fault hfault⟩

/-- Two loops of the log that is crooked add two laps of a sixtieth of a second. -/
theorem crookedLog_length : ∃ session frames,
    (Session.load Bundled.factory crookedLog).value = .ok session ∧
    Command.stretch? crookedLog 64 = some ⟨[.wait 26210, .endOfData], 68⟩ ∧
    Command.stretch? crookedLog 65 = some ⟨[.waitSixtieth, .endOfData], 67⟩ ∧
    (run Bundled.factory crookedLog "out.wav" ⟨2, [], none⟩).value = .ok frames ∧
    frames.size = 26210 + 2 * 735 := by
  have hfirst : Command.stretch? crookedLog 64 = some ⟨[.wait 26210, .endOfData], 68⟩ := by
    have hend : Command.parse crookedLog 67 = .ok (.endOfData, 1) := rfl
    have hwait : Command.parse crookedLog 64 = .ok (.wait 26210, 3) := rfl
    rw [Command.stretch?_of_command hwait (by decide), Command.stretch?_of_endOfData hend]
    rfl
  have hlap : Command.stretch? crookedLog 65 = some ⟨[.waitSixtieth, .endOfData], 67⟩ := by
    have hend : Command.parse crookedLog 66 = .ok (.endOfData, 1) := rfl
    have hwait : Command.parse crookedLog 65 = .ok (.waitSixtieth, 1) := rfl
    rw [Command.stretch?_of_command hwait (by decide), Command.stretch?_of_endOfData hend]
    rfl
  have hmute : [].mapM Mute.parse = .ok [] := rfl
  have hloop : (Header.parse crookedLog).map Header.loopOffset = .ok (some 65) := rfl
  obtain ⟨header, hparse, hstart, hload⟩ := @Session.load_of_dataStart crookedLog 64 rfl
  rw [hparse] at hloop
  have hlength := (length_of_rendering hload hmute "out.wav" 2).1
  rw [show (Session.opened Bundled.factory crookedLog header).header.dataStart = 64 from hstart,
    show (Session.opened Bundled.factory crookedLog header).header.loopOffset = some 65 from
      Except.ok.inj hloop] at hlength
  obtain ⟨frames, hframes, hsize⟩ :=
    ((hlength _ hfirst).2 65 (by decide) rfl (by decide)).1 _ hlap
  exact ⟨_, frames, hload, hfirst, hlap, hframes, hsize⟩

/-! ## 4. A limit of time -/

/-- Whether there is anything to play, and what, has nothing to do with a limit. -/
theorem played_cases (engines : Factory σ) (image : ByteArray) (loops : Nat) (mute : List String) :
    (∃ failure, ∀ maxSeconds, played engines image ⟨loops, mute, maxSeconds⟩ = .error failure) ∨
      ∃ session : Session σ, ∀ maxSeconds, played engines image ⟨loops, mute, maxSeconds⟩ =
        .ok (session.play loops (maxSeconds.map (· * outputRate))) := by
  unfold played
  dsimp only
  cases (Session.load engines image).value with
  | error fault => exact .inl ⟨.load fault, fun _ => rfl⟩
  | ok session =>
    cases mute.mapM Mute.parse with
    | error refusal => exact .inl ⟨.mute refusal, fun _ => rfl⟩
    | ok sites => exact .inr ⟨session.after (muting sites), fun _ => rfl⟩

/-- **A limit of time only truncates.**  If a rendering without a limit hands over as many frames as the
limit allows, the rendering with the limit succeeds with the first ones of these and hands over no
others.  If it hands over fewer, the rendering with the limit hands over the same frames and
answers the same.  No wait is so long that the frames granted of it do not fit into 32 bits. -/
theorem time_limit_only_truncates (engines : Factory σ) (image : ByteArray) (path : String)
    (loops : Nat) (mute : List String) {seconds : Nat} (hseconds : 1 ≤ seconds) :
    (seconds * outputRate ≤ (handed engines image ⟨loops, mute, none⟩).size →
      (run engines image path ⟨loops, mute, some seconds⟩).value =
        .ok ((handed engines image ⟨loops, mute, none⟩).take (seconds * outputRate)) ∧
      handed engines image ⟨loops, mute, some seconds⟩ =
        (handed engines image ⟨loops, mute, none⟩).take (seconds * outputRate)) ∧
    ((handed engines image ⟨loops, mute, none⟩).size < seconds * outputRate →
      handed engines image ⟨loops, mute, some seconds⟩ = handed engines image ⟨loops, mute, none⟩ ∧
      (run engines image path ⟨loops, mute, some seconds⟩).value =
        (run engines image path ⟨loops, mute, none⟩).value) ∧
    ∀ (session next : Session σ) wanted, session.step.value = (.ok (.wait wanted), next) →
      ∀ limit made, (Run.granted limit made wanted).toUInt32.toNat =
        Run.granted limit made wanted := by
  have hmost : 0 < seconds * outputRate := Nat.mul_pos hseconds (by decide)
  refine ⟨?_, ?_, ?_⟩
  · intro h
    rcases played_cases engines image loops mute with ⟨failure, hplayed⟩ | ⟨session, hplayed⟩
    · simp only [handed, hplayed] at h
      exact absurd hmost (Nat.not_lt.mpr h)
    · simp only [handed, hplayed, Option.map_none] at h
      obtain ⟨hending, hframes⟩ := (session.play_limited loops hmost).1 h
      simp only [run_value, handed, hplayed, Option.map_some, Option.map_none, ← hframes,
        and_true]
      exact outcome_of_limit hending
  · intro h
    rcases played_cases engines image loops mute with ⟨failure, hplayed⟩ | ⟨session, hplayed⟩
    · simp only [run_value, handed, hplayed, and_self]
    · simp only [handed, hplayed, Option.map_none] at h
      simp only [run_value, handed, hplayed, Option.map_some, Option.map_none,
        (session.play_limited loops hmost).2 h, and_self]
  · intro session next wanted hstep limit made
    have hwait : (session.timeline.step session.image).1 = .ok (.wait wanted) := by
      have hline := timeline_step session.engines session.image session.playback
      rw [Session.playback_step_value hstep] at hline
      exact (congrArg Prod.fst hline).symm
    have hwanted := Timeline.step_wait_lt hwait
    have hgranted := Run.granted_le limit made wanted
    exact UInt32.toNat_ofNat_of_lt'
      (Nat.lt_of_le_of_lt hgranted (Nat.lt_trans hwanted (by decide)))

/-- A log that waits for 65535 frames and then runs into a byte that stands for no command. -/
def brokenLog : ByteArray := Session.sampleLog [0x61, 0xFF, 0xFF, 0x00]

/-- Within a second there is no fault. -/
theorem brokenLog_plays_a_second : ∃ frames,
    (run Bundled.factory brokenLog "out.wav" ⟨1, [], none⟩).value =
      .error (.stopped (.unknownOpcode 0 67)) ∧
    (run Bundled.factory brokenLog "out.wav" ⟨1, [], some 1⟩).value = .ok frames ∧
    frames.size = 44100 := by
  obtain ⟨header, -, hstart, hload⟩ := @Session.load_of_dataStart brokenLog 64 rfl
  generalize hopened : Session.opened Bundled.factory brokenLog header = session at hload
  have himage : session.image = brokenLog := by rw [← hopened]; rfl
  have hline : ({ playback := session.playback } : Run Bundled).playback.timeline =
      ⟨64, false, false⟩ := by rw [← hopened, ← hstart]; rfl
  have hfault : Command.parse session.image 67 = .error (.unknownOpcode 0 67) := by
    rw [himage]; rfl
  -- the first step waits, and the second one meets the fault
  have hrun : ∀ count, Command.parse session.image 64 = .ok (.wait count, 3) →
      (session.play 1 none).1 = .fault (.unknownOpcode 0 67) ∧
        (session.play 1 none).2.frames.size = count.toNat := by
    intro count hwait
    obtain ⟨hround, hnext⟩ := Run.play_of_command session.engines session.header.loopOffset 1 hwait
      (by simp) hline
    obtain ⟨hresult, -⟩ := Run.timeline_stepped session.engines hnext
      (Timeline.step_of_error hfault)
    rw [Session.play, hround, Run.play_of_fault hresult]
    exact ⟨rfl, (Run.size_frames_rendered _ _).trans (Nat.zero_add _)⟩
  obtain ⟨hending, hframes⟩ := hrun 65535 (by rw [himage]; rfl)
  have hmute : [].mapM Mute.parse = .ok [] := rfl
  have hplayed : played Bundled.factory brokenLog ⟨1, [], none⟩ = .ok (session.play 1 none) := by
    rw [played_of_load hload hmute]
    rfl
  have hsize : (handed Bundled.factory brokenLog ⟨1, [], none⟩).size = 65535 := by
    rw [handed, hplayed]
    exact hframes
  have hlimited := (time_limit_only_truncates Bundled.factory brokenLog "out.wav" 1 []
    (Nat.le_refl 1)).1 (by rw [hsize]; decide)
  refine ⟨_, ?_, hlimited.1, ?_⟩
  · rw [run_value, hplayed]
    exact outcome_of_fault hending
  · rw [Array.take, Array.size_extract, hsize]
    rfl

end Render

end ChipLog
