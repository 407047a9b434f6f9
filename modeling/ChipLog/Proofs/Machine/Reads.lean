/-
# Reads of a cursor that is held on to

A parser drops its cursor with the first fault, and so `Machine.Cursor` has no position any more once
a read has failed.  Whoever holds on to a cursor may ask it for another read, and then it matters
where the failed one has left it.  Here the position is kept apart from faults and outlives them: if a
read moved before it failed, it would be seen to have moved.  Nothing outlives a panic.

No walk of such a cursor panics, wherever it begins, and a walk answers what the scans answer
(`Held.walk_eq`).  All that is to be said about reads one after the other comes together in
`Held.reads_are_contiguous`.
-/
import ChipLog.Proofs.Bytes.Reads
import ChipLog.Proofs.Machine.Checked

namespace ChipLog.Machine

/-- A computation with a position of 64 bits that outlives faults. -/
abbrev Held (α : Type) : Type := ExceptT Fault (StateT Nat Checked) α

namespace Held

variable {α β : Type}

/-! ## 1. Steps -/

/-- What comes of a computation that begins at a position, and where it ends. -/
def runFrom (x : Held α) (pos : Nat) : Checked (Except Fault α × Nat) := x.run.run pos

/-- A reading does not touch the position. -/
def ofReading (reading : Reading α) : Held α := ExceptT.mk (StateT.lift reading.run)

variable {pos : Nat}

theorem runFrom_pure (a : α) : runFrom (pure a : Held α) pos = .ok (.ok a, pos) := rfl

theorem runFrom_get : runFrom (get : Held Nat) pos = .ok (.ok pos, pos) := rfl

theorem runFrom_set (next : Nat) : runFrom (set next : Held PUnit) pos = .ok (.ok ⟨⟩, next) := rfl

theorem runFrom_ofReading {reading : Reading α} {answer : Except Fault α}
    (h : reading = reached answer) : runFrom (ofReading reading) pos = .ok (answer, pos) := by
  subst h
  rfl

theorem runFrom_bind (x : Held α) (f : α → Held β) :
    runFrom (x >>= f) pos = runFrom x pos >>= fun r => ExceptT.bindCont f r.1 r.2 := rfl

/-- What comes behind a success goes on from where that has ended. -/
theorem runFrom_bind_of_ok {x : Held α} {a : α} {next : Nat} (h : runFrom x pos = .ok (.ok a, next))
    (f : α → Held β) : runFrom (x >>= f) pos = runFrom (f a) next := by
  rw [runFrom_bind, h]
  rfl

/-- Nothing comes behind a fault. -/
theorem runFrom_bind_of_error {x : Held α} {fault : Fault} {next : Nat}
    (h : runFrom x pos = .ok (.error fault, next)) (f : α → Held β) :
    runFrom (x >>= f) pos = .ok (.error fault, next) := by
  rw [runFrom_bind, h]
  rfl

/-! ## 2. One read -/

/-- Read in the way of `read` where the cursor stands, and then move on by `width` bytes. -/
def take (width : Nat) (read : ByteArray → Nat → Reading α) (bytes : ByteArray) : Held α := do
  let pos ← get
  let value ← ofReading (read bytes pos)
  let next ← ofReading (liftM (add pos width))
  set next
  return value

/-- What a read does to a cursor. -/
def read (bytes : ByteArray) : Read → Held Read.Value
  | .u8 => (fun byte => .number byte.toNat) <$> take 1 readU8 bytes
  | .u16 => (fun word => .number word.toNat) <$> take 2 readU16 bytes
  | .u24 => (fun word => .number word.toNat) <$> take 3 readU24 bytes
  | .u32 => (fun word => .number word.toNat) <$> take 4 readU32 bytes
  | .slice size => .bytes <$> take size (fun bytes pos => slice bytes pos size) bytes

variable {bytes : ByteArray}

/-- **A cursor moves after it has read.**  If it cannot read it has not moved, and if it can, the
bytes it moves over are in the image. -/
theorem runFrom_map_take {width : Nat} {read : ByteArray → Nat → Reading α}
    {read' : ByteArray → Nat → Except Fault α} (hbytes : bytes.size ≤ maxSize)
    (hread : read bytes pos = reached (read' bytes pos))
    (hfits : ∀ a, read' bytes pos = .ok a → pos + width ≤ bytes.size) (f : α → β) :
    runFrom (f <$> take width read bytes) pos = .ok ((f <$> Scan.take width read').ask bytes pos) := by
  have hscan : (f <$> Scan.take width read').on bytes pos =
      (read' bytes pos).map fun a => (f a, pos + width) := by
    rw [← bind_pure_comp, Scan.on_bind, Scan.on_take]
    cases read' bytes pos <;> rfl
  rw [Scan.ask, hscan, ← bind_pure_comp]
  cases hvalue : read' bytes pos with
  | error fault =>
    rw [hvalue] at hread
    have htake : runFrom (take width read bytes) pos = .ok (.error fault, pos) := by
      rw [take, runFrom_bind_of_ok runFrom_get, runFrom_bind_of_error (runFrom_ofReading hread)]
    exact runFrom_bind_of_error htake _
  | ok a =>
    rw [hvalue] at hread
    have hnext : (liftM (add pos width) : Reading Nat) = reached (.ok (pos + width)) := by
      have hle := hfits a hvalue
      unfold maxSize at hbytes
      rw [add_of_lt (by omega)]
      rfl
    have htake : runFrom (take width read bytes) pos = .ok (.ok a, pos + width) := by
      rw [take, runFrom_bind_of_ok runFrom_get, runFrom_bind_of_ok (runFrom_ofReading hread),
        runFrom_bind_of_ok (runFrom_ofReading hnext), runFrom_bind_of_ok (runFrom_set _), runFrom_pure]
    exact runFrom_bind_of_ok htake _

/-- **A read can be asked for at every position**, and does there what the scan does. -/
theorem runFrom_read (hbytes : bytes.size ≤ maxSize) (pos : Nat) (read : Read) :
    runFrom (Held.read bytes read) pos = .ok (read.scan.ask bytes pos) := by
  cases read with
  | u8 => exact runFrom_map_take hbytes (readU8_eq pos) (fun _ => le_of_readNumber) _
  | u16 => exact runFrom_map_take hbytes (readU16_eq hbytes pos) (fun _ => le_of_readNumber) _
  | u24 => exact runFrom_map_take hbytes (readU24_eq hbytes pos) (fun _ => le_of_readNumber) _
  | u32 => exact runFrom_map_take hbytes (readU32_eq hbytes pos) (fun _ => le_of_readNumber) _
  | slice size =>
    exact runFrom_map_take hbytes (slice_eq hbytes pos size)
      (fun _ h => (Bytes.slice_eq_ok_iff.mp h).1) _

/-! ## 3. Many reads -/

/-- Ask one cursor for one read after the other, whatever comes of each. -/
def walk (bytes : ByteArray) : List Read → StateT Nat Checked (List (Except Fault Read.Value))
  | [] => pure []
  | read :: reads => do
    let answer ← (Held.read bytes read).run
    let answers ← walk bytes reads
    return answer :: answers

/-- **No walk panics**, wherever it begins, and it answers what the scans answer. -/
theorem walk_eq (hbytes : bytes.size ≤ maxSize) (reads : List Read) (pos : Nat) :
    (walk bytes reads).run pos = .ok (Read.walk bytes reads pos) := by
  induction reads generalizing pos with
  | nil => rfl
  | cons read reads ih =>
    have hcons : (walk bytes (read :: reads)).run pos =
        runFrom (Held.read bytes read) pos >>= fun r =>
          (walk bytes reads).run r.2 >>= fun rest => .ok (r.1 :: rest.1, rest.2) := rfl
    rw [hcons, runFrom_read hbytes, Read.walk_cons]
    simp only [bind, Except.bind, ih]

/-- **Reads one after the other.**  A read succeeds exactly if the bytes it is for are in the image,
wherever that is; then it brings the number that they hold, least significant byte first, or the bytes
themselves, and the cursor stands behind them.  Else it brings the fault that says what was asked for,
and the cursor stands where it has stood.  So much is done by a machine as well, which keeps a cursor
that has failed and goes on with it.

Of reads that all succeed it follows that their values spell what lies between the positions in the
beginning and in the end; that one slice does what all of them do; and that other reads for as many
bytes may stand in their place, whatever is asked for before and behind them.  No reads at all succeed
anywhere, but a slice of no bytes only up to the end of the image. -/
theorem reads_are_contiguous (bytes : ByteArray) (pos : Nat) (reads : List Read) :
    (∀ (read : Read) (place : Nat), read.scan.ask bytes place =
      if place + read.width ≤ bytes.size then
        (.ok (read.valueAt bytes place), place + read.width)
      else (.error (.outOfRange place read.width bytes.size none), place)) ∧
    (bytes.size ≤ maxSize → (walk bytes reads).run pos = .ok (Read.walk bytes reads pos)) ∧
    (pos ≤ (Read.walk bytes reads pos).2 ∧ (Read.walk bytes reads pos).2 ≤ max pos bytes.size) ∧
    (∀ values, (Read.walk bytes reads pos).1 = values.map .ok →
      Read.rows reads values = bytes.extract pos (pos + Read.totalWidth reads) ∧
        (Read.walk bytes reads pos).2 = pos + Read.totalWidth reads) ∧
    ((reads = [] → pos ≤ bytes.size) → ∀ part next,
      (Scan.slice (Read.totalWidth reads)).on bytes pos = .ok (part, next) ↔
        ∃ values, Read.walk bytes reads pos = (values.map .ok, next) ∧
          Read.rows reads values = part) ∧
    (∀ before others after values, (reads = [] → (Read.walk bytes before pos).2 ≤ bytes.size) →
      Read.totalWidth others = Read.totalWidth reads →
      (Read.walk bytes reads (Read.walk bytes before pos).2).1 = values.map .ok →
      ∃ values' answers last,
        Read.walk bytes (before ++ (reads ++ after)) pos =
          ((Read.walk bytes before pos).1 ++ (values.map .ok ++ answers), last) ∧
        Read.walk bytes (before ++ (others ++ after)) pos =
          ((Read.walk bytes before pos).1 ++ (values'.map .ok ++ answers), last) ∧
        Read.rows others values' = Read.rows reads values) := by
  refine ⟨fun read place => Read.ask_eq bytes place read, fun hbytes => walk_eq hbytes reads pos,
    Read.walk_bounds bytes reads pos, fun values => Read.walk_covers, ?slice, ?recut⟩
  case slice =>
    intro hnone part next
    exact Read.slice_eq_ok_iff_walk hnone
  case recut =>
    intro before others after values hnone htotal hwalk
    exact Read.walk_recut after hnone htotal hwalk

/-- Seven bytes behind a first one, read in two ways, with a word behind them that is cut off; and a
word at the last address. -/
theorem reads_are_contiguous_ten :
    (walk [1, 2, 3, 4, 5, 6, 7, 8, 9, 10].toByteArray [.u16, .u24, .slice 2]).run 1 =
      .ok ([.ok (.number 0x0302), .ok (.number 0x060504), .ok (.bytes [7, 8].toByteArray)], 8) ∧
    (Scan.slice 7).on [1, 2, 3, 4, 5, 6, 7, 8, 9, 10].toByteArray 1 =
      .ok ([2, 3, 4, 5, 6, 7, 8].toByteArray, 8) ∧
    (walk [1, 2, 3, 4, 5, 6, 7, 8, 9, 10].toByteArray [.u16]).run (2 ^ 64 - 1) =
      .ok ([.error (.outOfRange (2 ^ 64 - 1) 2 10 none)], 2 ^ 64 - 1) ∧
    ∃ values answers last,
      Read.walk [1, 2, 3, 4, 5, 6, 7, 8, 9, 10].toByteArray [.u8, .u32, .u24, .u32] 0 =
        (.ok (.number 1) :: (values.map .ok ++ answers), last) ∧
      Read.rows [.u32, .u24] values = [2, 3, 4, 5, 6, 7, 8].toByteArray := by
  obtain ⟨-, hmachine, -, -, hslice, -⟩ :=
    reads_are_contiguous [1, 2, 3, 4, 5, 6, 7, 8, 9, 10].toByteArray 1 [.u16, .u24, .slice 2]
  obtain ⟨-, -, -, -, -, hrecut⟩ :=
    reads_are_contiguous [1, 2, 3, 4, 5, 6, 7, 8, 9, 10].toByteArray 0 [.u16, .u24, .slice 2]
  obtain ⟨-, hlast, -⟩ :=
    reads_are_contiguous [1, 2, 3, 4, 5, 6, 7, 8, 9, 10].toByteArray (2 ^ 64 - 1) [.u16]
  have hvalues : Read.walk [1, 2, 3, 4, 5, 6, 7, 8, 9, 10].toByteArray [.u16, .u24, .slice 2] 1 =
      (.map .ok [.number 0x0302, .number 0x060504, .bytes [7, 8].toByteArray], 8) := by
    decide +kernel
  have hrows : Read.rows [.u16, .u24, .slice 2]
      [.number 0x0302, .number 0x060504, .bytes [7, 8].toByteArray] =
        [2, 3, 4, 5, 6, 7, 8].toByteArray := by decide +kernel
  refine ⟨?machine, ?slice, ?last, ?recut⟩
  case machine => exact (hmachine (by decide)).trans (congrArg Except.ok hvalues)
  case slice => exact (hslice nofun _ _).mpr ⟨_, hvalues, hrows⟩
  case last =>
    rw [hlast (by decide), Read.walk_cons, Read.ask_of_lt (by decide)]
    rfl
  case recut =>
    obtain ⟨values, answers, last, -, hothers, hsame⟩ :=
      hrecut [.u8] [.u32, .u24] [.u32] _ nofun (by decide) (congrArg Prod.fst hvalues)
    exact ⟨values, answers, last, hothers, hsame.trans hrows⟩

end Held

end ChipLog.Machine
