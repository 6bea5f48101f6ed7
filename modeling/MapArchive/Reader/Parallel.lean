import MapArchive.Reader.Iteration

/-!
# Reducing a file in parallel

The data blobs of a file are handed over, as tasks, to a pool of workers. A task decodes its blob
and combines the values of the elements. The results are collected and combined in the order of the
file. While the file is read, only so many tasks may wait to be collected: once the window is full,
the first one is collected before the next blob is read.

The workers may do the tasks in any order and at any time. A `Schedule` tells what they have done at
which moment; only a task that is waited for is done in any case. Whatever happens, every task is
collected or cancelled in the end.
-/

namespace MapArchive

/-- How to combine values of elements. -/
structure Reduction (α : Type) where
  /-- The value of an element, which may depend on its block. -/
  map : BlockElement → α
  /-- The value to start from. -/
  identity : α
  /-- Combines two values. -/
  reduce : α → α → α

/-- A function that needs no block is one of elements together with their blocks. -/
instance {α : Type} : Coe (Element → α) (BlockElement → α) := ⟨fun f e => f e.element⟩

/-- What happens during a reduction. -/
inductive TaskEvent where
  /-- The next blob with data is looked for. -/
  | sought
  /-- A task is handed over. -/
  | submitted (task : Nat)
  /-- The result of a task is asked for. -/
  | collected (task : Nat)
  /-- The result of a task is no longer wanted. -/
  | cancelled (task : Nat)
  /-- The workers are sent home. -/
  | shutDown
  deriving DecidableEq, Repr

/-- A task that has not been collected. -/
structure Task (α : Type) where
  /-- Its number. -/
  number : Nat
  /-- The blob that it is about. -/
  blob : Blob
  /-- Its result, if it is done. -/
  result : Option (Except ArchiveError α)

/-- What workers get done: whether a task is done once so many events have happened. -/
abbrev Schedule := Nat → Nat → Bool

/-- Workers who do every task at once. -/
def Schedule.immediate : Schedule := fun _ _ => true

/-- Workers who do a task only when it is waited for. -/
def Schedule.onDemand : Schedule := fun _ _ => false

/-- Workers, and how they are employed. -/
structure Pool where
  /-- What they get done. -/
  schedule : Schedule
  /-- How many tasks may wait to be collected while the file is read. One may in any case. -/
  window : Int
  /-- Whether they are employed for a single reduction. -/
  isOwned : Bool

/-- The size of a window if none is given: two tasks for each processor. -/
def defaultWindow (processors : Option Nat) : Int := 2 * max 1 (processors.getD 1)

namespace Reduction

variable {α : Type}

/-- Combines the values of the elements of a block. -/
def ofBlock (m : Reduction α) (block : BlockMessage) : α :=
  (Walk.toList block.walk).foldl (fun a e => m.reduce a (m.map ⟨block, e⟩)) m.identity

/-- Combines the values of the elements of a blob. -/
def ofBlob (m : Reduction α) (blob : Blob) : Except ArchiveError α :=
  m.ofBlock <$> blob.toBlock

end Reduction

namespace Task

variable {α : Type}

/-- The result of a task that is waited for. -/
def outcome (m : Reduction α) (task : Task α) : Except ArchiveError α :=
  task.result.getD (m.ofBlob task.blob)

/-- The task when it is done. -/
def finish (m : Reduction α) (task : Task α) : Task α :=
  { task with result := some (task.outcome m) }

end Task

/-- A reduction under way. -/
structure Progress (α : Type) where
  /-- The values combined so far. -/
  value : α
  /-- The tasks that have not been collected, in order. -/
  pending : List (Task α)
  /-- The blobs of the tasks handed over. The number of a task is the place of its blob here. -/
  blobs : List Blob
  /-- What has happened. -/
  history : List TaskEvent

namespace Progress

variable {α : Type}

/-- Before the first task. -/
def start (m : Reduction α) : Progress α := ⟨m.identity, [], [], []⟩

/-- Something happens, and by then the workers have done some of the tasks. -/
def happen (m : Reduction α) (schedule : Schedule) (event : TaskEvent) (p : Progress α) :
    Progress α :=
  let history := p.history ++ [event]
  let atWork (task : Task α) : Task α :=
    if schedule history.length task.number then task.finish m else task
  { p with pending := p.pending.map atWork, history }

/-- Hands over a task for a blob. -/
def submit (m : Reduction α) (schedule : Schedule) (blob : Blob) (p : Progress α) : Progress α :=
  let task : Task α := ⟨p.blobs.length, blob, none⟩
  happen m schedule (.submitted task.number)
    { p with pending := p.pending ++ [task], blobs := p.blobs ++ [blob] }

/-- Collects the first task, if there is one. -/
def collect (m : Reduction α) (schedule : Schedule) (p : Progress α) :
    Option ArchiveError × Progress α :=
  match p.pending with
  | [] => (none, p)
  | task :: rest =>
    let p := happen m schedule (.collected task.number) { p with pending := rest }
    match task.outcome m with
    | .error e => (some e, p)
    | .ok a => (none, { p with value := m.reduce p.value a })

/-- Collects the first task if the window is full. -/
def collectIfFull (m : Reduction α) (pool : Pool) (p : Progress α) :
    Option ArchiveError × Progress α :=
  if pool.window ≤ p.pending.length then p.collect m pool.schedule else (none, p)

/-- Collects so many tasks, up to an error. -/
def collectMany (m : Reduction α) (schedule : Schedule) :
    Nat → Progress α → Option ArchiveError × Progress α
  | 0, p => (none, p)
  | count + 1, p =>
    match p.collect m schedule with
    | (some e, p) => (some e, p)
    | (none, p) => p.collectMany m schedule count

/-- Cancels all tasks that have not been collected. -/
def cancel (p : Progress α) : Progress α :=
  { p with
    pending := []
    history := p.history ++ p.pending.map fun task => .cancelled task.number }

end Progress

/-- The outcome of a reduction in parallel. -/
structure ParallelReport (σ α : Type) where
  /-- The value of the file. -/
  result : Except ReadError α
  /-- The blobs of the tasks, in the order of their numbers. -/
  blobs : List Blob
  /-- What happened to tasks. -/
  history : List TaskEvent
  /-- What is to be noted. -/
  events : List LogEvent
  /-- The reader afterwards. -/
  reader : ElementReader σ

namespace ElementReader

variable {σ α : Type} [FiniteStream σ]

open FiniteStream (remaining)

/-- Ends a reduction. If there is no error so far, the tasks that are left are collected. -/
def conclude (m : Reduction α) (pool : Pool) (failure : Option ReadError)
    (events : List LogEvent) (p : Progress α) (r : ElementReader σ) : ParallelReport σ α :=
  let (failure, p) := match failure with
    | some e => (some e, p)
    | none =>
      let (error, p) := p.collectMany m pool.schedule p.pending.length
      (error.map .archive, p)
  let p := p.cancel
  let result := match failure with
    | some e => .error e
    | none => .ok p.value
  let history := if pool.isOwned then p.history ++ [.shutDown] else p.history
  ⟨result, p.blobs, history, events, r⟩

/-- Goes on with a reduction. -/
def reduceFrom (m : Reduction α) (pool : Pool) (before : List LogEvent) (p : Progress α)
    (r : ElementReader σ) : ParallelReport σ α :=
  let p := p.happen m pool.schedule .sought
  match h : r.nextData with
  | ⟨.error e, events, s⟩ => conclude m pool (some e) (before ++ events) p s
  | ⟨.ok none, events, s⟩ => conclude m pool none (before ++ events) p s
  | ⟨.ok (some blob), events, s⟩ =>
    match (p.submit m pool.schedule blob).collectIfFull m pool with
    | (some e, p) => conclude m pool (some (.archive e)) (before ++ events) p s
    | (none, p) =>
      have := remaining_of_nextData h
      reduceFrom m pool (before ++ events) p s
termination_by remaining r.blobs.stream

/-- Combines the values of all elements of the file in parallel. If the pool is employed for this
alone, it is shut down in the end. -/
def reduceInParallel (m : Reduction α) (pool : Pool) (r : ElementReader σ) : ParallelReport σ α :=
  reduceFrom m pool [] (.start m) r

end ElementReader

end MapArchive
