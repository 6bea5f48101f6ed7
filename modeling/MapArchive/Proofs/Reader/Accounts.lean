import MapArchive.Reader.Parallel

/-!
# The accounts of a reduction

The history of a reduction tells which tasks have been handed over, which of them have been
collected, and which have been cancelled. Tasks are numbered and collected in order, so that two
counts are enough to know all of this while the file is read. In the end the accounts are settled:
every task has been collected or cancelled, the former before the latter.
-/

namespace MapArchive

namespace TaskEvent

/-- The tasks that are handed over. -/
def submittedIn (history : List TaskEvent) : List Nat :=
  history.filterMap fun
    | .submitted task => some task
    | _ => none

/-- The tasks that are collected. -/
def collectedIn (history : List TaskEvent) : List Nat :=
  history.filterMap fun
    | .collected task => some task
    | _ => none

/-- The tasks that are cancelled. -/
def cancelledIn (history : List TaskEvent) : List Nat :=
  history.filterMap fun
    | .cancelled task => some task
    | _ => none

/-- The tasks that are handed over and not collected. -/
def uncollectedIn (history : List TaskEvent) : List Nat :=
  (submittedIn history).filter fun task => task ∉ collectedIn history

/-- The tasks submitted in two parts of a history are those of both. -/
@[simp] theorem submittedIn_append (past later : List TaskEvent) :
    submittedIn (past ++ later) = submittedIn past ++ submittedIn later :=
  List.filterMap_append

/-- The tasks collected in two parts of a history are those of both. -/
@[simp] theorem collectedIn_append (past later : List TaskEvent) :
    collectedIn (past ++ later) = collectedIn past ++ collectedIn later :=
  List.filterMap_append

/-- The tasks cancelled in two parts of a history are those of both. -/
@[simp] theorem cancelledIn_append (past later : List TaskEvent) :
    cancelledIn (past ++ later) = cancelledIn past ++ cancelledIn later :=
  List.filterMap_append

/-- Cancelling submits nothing. -/
@[simp] theorem submittedIn_map_cancelled (tasks : List Nat) :
    submittedIn (tasks.map .cancelled) = [] := by
  induction tasks with
  | nil => rfl
  | cons task tasks ih => exact ih

/-- Cancelling collects nothing. -/
@[simp] theorem collectedIn_map_cancelled (tasks : List Nat) :
    collectedIn (tasks.map .cancelled) = [] := by
  induction tasks with
  | nil => rfl
  | cons task tasks ih => exact ih

/-- Cancelling tasks cancels just these. -/
@[simp] theorem cancelledIn_map_cancelled (tasks : List Nat) :
    cancelledIn (tasks.map .cancelled) = tasks := by
  induction tasks with
  | nil => rfl
  | cons task tasks ih => exact congrArg (List.cons task) ih

/-- A window of so many tasks is kept by a history. -/
structure KeepsWindow (limit : Nat) (history : List TaskEvent) : Prop where
  /-- At any time at most so many tasks are uncollected. -/
  le : ∀ past, past <+: history → (uncollectedIn past).length ≤ limit
  /-- Whenever more data is looked for, there is room for one more task. -/
  lt : ∀ past, past ++ [.sought] <+: history → (uncollectedIn past).length < limit
  /-- A task is handed over only when its data has been looked for. -/
  sought : ∀ past task, past ++ [.submitted task] <+: history → past.getLast? = some .sought

variable {limit submitted collected : Nat} {history : List TaskEvent} {event : TaskEvent}

/-- Without tasks the window is kept. -/
theorem keepsWindow_nil (limit : Nat) : KeepsWindow limit [] where
  le past hpast := by
    rw [List.prefix_nil.1 hpast]
    exact Nat.zero_le limit
  lt past hpast := absurd (List.prefix_nil.1 hpast) (List.append_ne_nil_of_right_ne_nil _ nofun)
  sought past task hpast :=
    absurd (List.prefix_nil.1 hpast) (List.append_ne_nil_of_right_ne_nil _ nofun)

/-- One event more keeps a window if it leaves at most so many tasks uncollected. -/
theorem KeepsWindow.concat (h : KeepsWindow limit history)
    (hle : (uncollectedIn (history ++ [event])).length ≤ limit)
    (hlt : event = .sought → (uncollectedIn history).length < limit)
    (hsought : ∀ task, event = .submitted task → history.getLast? = some .sought) :
    KeepsWindow limit (history ++ [event]) where
  le past hpast := by
    rcases List.prefix_concat_iff.1 hpast with rfl | hbefore
    · exact hle
    · exact h.le past hbefore
  lt past hpast := by
    rcases List.prefix_concat_iff.1 hpast with hwhole | hbefore
    · obtain ⟨rfl, hevent⟩ := List.append_inj' hwhole rfl
      exact hlt (List.cons.inj hevent).1.symm
    · exact h.lt past hbefore
  sought past task hpast := by
    rcases List.prefix_concat_iff.1 hpast with hwhole | hbefore
    · obtain ⟨rfl, hevent⟩ := List.append_inj' hwhole rfl
      exact hsought task (List.cons.inj hevent).1.symm
    · exact h.sought past task hbefore

/-- Cancellations do no harm. -/
theorem KeepsWindow.append_cancelled (h : KeepsWindow limit history) (tasks : List Nat) :
    KeepsWindow limit (history ++ tasks.map .cancelled) := by
  induction tasks generalizing history with
  | nil => simpa only [List.map_nil, List.append_nil] using h
  | cons task tasks ih =>
    have hsame : uncollectedIn (history ++ [task].map .cancelled) = uncollectedIn history := by
      rw [uncollectedIn, submittedIn_append, collectedIn_append, submittedIn_map_cancelled,
        collectedIn_map_cancelled, List.append_nil, List.append_nil, uncollectedIn]
    have hmore : KeepsWindow limit (history ++ [.cancelled task]) :=
      h.concat (hsame ▸ h.le history (List.prefix_refl _)) nofun nofun
    simpa only [List.map_cons, List.append_assoc, List.singleton_append] using ih hmore

/-- The tasks submitted and not collected are as many as the difference of both counts. -/
theorem length_filter_range (submitted collected : Nat) :
    ((List.range submitted).filter fun task => task ∉ List.range collected).length =
      submitted - collected := by
  induction submitted with
  | zero => exact (Nat.zero_sub collected).symm
  | succ submitted ih =>
    rw [List.range_succ, List.filter_append, List.length_append, ih]
    by_cases hcollected : submitted < collected
    · have hnone : [submitted].filter (fun task => task ∉ List.range collected) = [] :=
        List.filter_eq_nil_iff.2 fun task htask => by
          rw [List.mem_singleton.1 htask, decide_eq_true_eq, Decidable.not_not, List.mem_range]
          exact hcollected
      rw [hnone, List.length_nil]
      omega
    · have hone : [submitted].filter (fun task => task ∉ List.range collected) = [submitted] :=
        List.filter_eq_self.2 fun task htask => by
          rw [List.mem_singleton.1 htask, decide_eq_true_eq, List.mem_range]
          exact hcollected
      rw [hone, List.length_singleton]
      omega

/-- Two counts tell how many tasks are uncollected. -/
theorem length_uncollectedIn (hsubmitted : submittedIn history = List.range submitted)
    (hcollected : collectedIn history = List.range collected) :
    (uncollectedIn history).length = submitted - collected := by
  rw [uncollectedIn, hsubmitted, hcollected, length_filter_range]

/-- The accounts while the file is read: so many tasks are handed over, and so many of them, the
first ones, collected. -/
structure Account (limit submitted collected : Nat) (history : List TaskEvent) : Prop where
  /-- Tasks are handed over in order. -/
  submittedIn_eq : submittedIn history = List.range submitted
  /-- Tasks are collected in order. -/
  collectedIn_eq : collectedIn history = List.range collected
  /-- No task is cancelled. -/
  cancelledIn_eq : cancelledIn history = []
  /-- The window is kept. -/
  keepsWindow : KeepsWindow limit history

/-- The accounts in the end. -/
structure Settled (limit submitted : Nat) (history : List TaskEvent) : Prop where
  /-- Tasks have been handed over in order. -/
  submittedIn_eq : submittedIn history = List.range submitted
  /-- Every task has been collected or cancelled, and none has been both. -/
  settled : collectedIn history ++ cancelledIn history = submittedIn history
  /-- The window has been kept. -/
  keepsWindow : KeepsWindow limit history

namespace Account

/-- Without events the account is that of no tasks. -/
theorem nil (limit : Nat) : Account limit 0 0 [] := ⟨rfl, rfl, rfl, keepsWindow_nil limit⟩

/-- One event more changes the accounts by what it tells. -/
theorem concat {submittedAfter collectedAfter : Nat}
    (h : Account limit submitted collected history)
    (hsubmitted : List.range submitted ++ submittedIn [event] = List.range submittedAfter)
    (hcollected : List.range collected ++ collectedIn [event] = List.range collectedAfter)
    (hcancelled : cancelledIn [event] = []) (hle : submittedAfter - collectedAfter ≤ limit)
    (hlt : event = .sought → submitted - collected < limit)
    (hsought : ∀ task, event = .submitted task → history.getLast? = some .sought) :
    Account limit submittedAfter collectedAfter (history ++ [event]) := by
  have hsubmittedIn : submittedIn (history ++ [event]) = List.range submittedAfter := by
    rw [submittedIn_append, h.submittedIn_eq, hsubmitted]
  have hcollectedIn : collectedIn (history ++ [event]) = List.range collectedAfter := by
    rw [collectedIn_append, h.collectedIn_eq, hcollected]
  have hcancelledIn : cancelledIn (history ++ [event]) = [] := by
    rw [cancelledIn_append, h.cancelledIn_eq, hcancelled, List.append_nil]
  have hbefore := length_uncollectedIn h.submittedIn_eq h.collectedIn_eq
  have hafter := length_uncollectedIn hsubmittedIn hcollectedIn
  refine ⟨hsubmittedIn, hcollectedIn, hcancelledIn, h.keepsWindow.concat ?_ ?_ hsought⟩
  · rw [hafter]
    exact hle
  · rw [hbefore]
    exact hlt

/-- More data may be looked for if there is room for one more task. -/
theorem seek (h : Account limit submitted collected history)
    (hroom : submitted - collected < limit) :
    Account limit submitted collected (history ++ [.sought]) :=
  h.concat (List.append_nil _) (List.append_nil _) rfl (Nat.le_of_lt hroom) (fun _ => hroom) nofun

/-- A task may be handed over if its data has been looked for and there is room for it. -/
theorem submit (h : Account limit submitted collected history)
    (hsought : history.getLast? = some .sought) (hroom : submitted - collected < limit) :
    Account limit (submitted + 1) collected (history ++ [.submitted submitted]) :=
  h.concat List.range_succ.symm (List.append_nil _) rfl (by omega) nofun fun _ _ => hsought

/-- The next task is collected. -/
theorem collect (h : Account limit submitted collected history) :
    Account limit submitted (collected + 1) (history ++ [.collected collected]) := by
  have hle := h.keepsWindow.le history (List.prefix_refl _)
  rw [length_uncollectedIn h.submittedIn_eq h.collectedIn_eq] at hle
  exact h.concat (List.append_nil _) List.range_succ.symm rfl (by omega) nofun nofun

/-- Once the other tasks are cancelled, the accounts are settled. -/
theorem cancel (h : Account limit submitted collected history) (hle : collected ≤ submitted) :
    Settled limit submitted
      (history ++ ((List.range submitted).drop collected).map .cancelled) := by
  have hfirst : List.range collected = (List.range submitted).take collected := by
    rw [List.take_range, Nat.min_eq_left hle]
  refine ⟨?_, ?_, h.keepsWindow.append_cancelled _⟩
  · rw [submittedIn_append, submittedIn_map_cancelled, h.submittedIn_eq, List.append_nil]
  · rw [collectedIn_append, cancelledIn_append, submittedIn_append, collectedIn_map_cancelled,
      cancelledIn_map_cancelled, submittedIn_map_cancelled, h.collectedIn_eq, h.cancelledIn_eq,
      h.submittedIn_eq, hfirst, List.append_nil, List.append_nil, List.nil_append,
      List.take_append_drop]

end Account

/-- Sending the workers home does not change settled accounts. -/
theorem Settled.shutDown (h : Settled limit submitted history) :
    Settled limit submitted (history ++ [.shutDown]) := by
  have hsubmitted : submittedIn (history ++ [.shutDown]) = submittedIn history := by
    rw [submittedIn_append]
    exact List.append_nil _
  have hcollected : collectedIn (history ++ [.shutDown]) = collectedIn history := by
    rw [collectedIn_append]
    exact List.append_nil _
  have hcancelled : cancelledIn (history ++ [.shutDown]) = cancelledIn history := by
    rw [cancelledIn_append]
    exact List.append_nil _
  refine ⟨hsubmitted.trans h.submittedIn_eq, ?_, h.keepsWindow.concat ?_ nofun nofun⟩
  · rw [hcollected, hcancelled, hsubmitted, h.settled]
  · rw [uncollectedIn, hsubmitted, hcollected]
    exact h.keepsWindow.le history (List.prefix_refl _)

end TaskEvent

end MapArchive
