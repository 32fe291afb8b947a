import ProcessChart.Run.Demo
import ProcessChart.Proofs.Exemptions
import Mathlib.Data.List.Basic

/-!
The events of a run. A run that nobody stops goes through one lifecycle for each
node, and a run that is stopped has the same events up to a checkpoint at which
it was asked to stop. The id of a node, its draw and the failure rate decide which
of two courses its lifecycle takes. A node is counted as completed when the first
outcome of its lifecycle is among the events.
-/

namespace ProcessChart

/-- What the first `n` events hold of each of several lifecycles in a row. -/
def shares {α : Type} (n : Nat) : List (List α) → List (List α)
  | [] => []
  | life :: rest => life.take n :: shares (n - life.length) rest

theorem flatten_shares {α : Type} (n : Nat) (lives : List (List α)) :
    (shares n lives).flatten = lives.flatten.take n := by
  induction lives generalizing n with
  | nil => simp [shares]
  | cons life rest ih => rw [shares, List.flatten_cons, List.flatten_cons, List.take_append, ih]

theorem shares_zero {α : Type} (lives : List (List α)) :
    shares 0 lives = lives.map fun _ => [] := by
  induction lives with
  | nil => rfl
  | cons life rest ih => rw [shares, List.take_zero, Nat.zero_sub, ih, List.map_cons]

/-- A run that has had `emitted` events goes on with exactly `n` of the events
of `whole`: it is not asked to stop before any of them, and it is before the next. -/
structure StopsAfter (stop : Nat → Bool) (emitted : Nat) (whole : List RunEvent) (n : Nat) :
    Prop where
  le : n ≤ whole.length
  goes_on : ∀ i < n, stop (emitted + i) = false
  stops : n < whole.length → stop (emitted + n) = true

namespace StopsAfter

variable {stop : Nat → Bool} {emitted n : Nat} {first rest : List RunEvent}

theorem nil : StopsAfter stop emitted [] 0 where
  le := Nat.le_refl 0
  goes_on := fun i hi => absurd hi (Nat.not_lt_zero i)
  stops := fun h => absurd h (Nat.lt_irrefl 0)

theorem of_stop (h : stop emitted = true) : StopsAfter stop emitted first 0 where
  le := Nat.zero_le _
  goes_on := fun i hi => absurd hi (Nat.not_lt_zero i)
  stops := fun _ => h

theorem cons {e : RunEvent} (hgo : stop emitted = false)
    (h : StopsAfter stop (emitted + 1) rest n) : StopsAfter stop emitted (e :: rest) (n + 1) where
  le := Nat.succ_le_succ h.le
  goes_on := by
    intro i hi
    cases i with
    | zero => exact hgo
    | succ i => simpa [Nat.add_right_comm, Nat.add_assoc] using h.goes_on i (by omega)
  stops := by
    intro hlt
    simpa [Nat.add_right_comm, Nat.add_assoc] using h.stops (by simpa using hlt)

theorem append_of_lt (h : StopsAfter stop emitted first n) (hlt : n < first.length) :
    StopsAfter stop emitted (first ++ rest) n where
  le := by
    rw [List.length_append]
    omega
  goes_on := h.goes_on
  stops := fun _ => h.stops hlt

theorem append (hfirst : StopsAfter stop emitted first first.length)
    (hrest : StopsAfter stop (emitted + first.length) rest n) :
    StopsAfter stop emitted (first ++ rest) (first.length + n) where
  le := by
    rw [List.length_append]
    exact Nat.add_le_add_left hrest.le _
  goes_on := by
    intro i hi
    by_cases hlt : i < first.length
    · exact hfirst.goes_on i hlt
    · have hgo := hrest.goes_on (i - first.length) (by omega)
      rwa [show emitted + first.length + (i - first.length) = emitted + i by omega] at hgo
  stops := by
    intro hlt
    rw [← Nat.add_assoc]
    apply hrest.stops
    rw [List.length_append] at hlt
    omega

/-- A run that is never asked to stop has all events. -/
theorem eq_length (h : StopsAfter (fun _ => false) emitted first n) : n = first.length := by
  have hle := h.le
  by_contra hne
  exact absurd (h.stops (by omega)) (by simp)

end StopsAfter

/-- The events of transitions that follow each other from `time` on, of a node
that became pending at `begun`. -/
def Transition.events (id : String) (begun time : Nat) : List Transition → List RunEvent
  | [] => []
  | t :: rest => t.event id begun (time + t.wait) :: events id begun (time + t.wait) rest

/-- The time that transitions take. -/
def Transition.span : List Transition → Nat
  | [] => 0
  | t :: rest => t.wait + span rest

/-- A node goes through its transitions up to a stop, and only then ends early. -/
theorem exists_stopsAfter_runTransitions (stop : Nat → Bool) (id : String)
    (begun time emitted : Nat) (ts : List Transition) :
    ∃ n, StopsAfter stop emitted (Transition.events id begun time ts) n ∧
      (runTransitions stop id begun time emitted ts).events =
        (Transition.events id begun time ts).take n ∧
      if (runTransitions stop id begun time emitted ts).stopped then
        n < (Transition.events id begun time ts).length
      else n = (Transition.events id begun time ts).length ∧
        (runTransitions stop id begun time emitted ts).time = time + Transition.span ts := by
  induction ts generalizing time emitted with
  | nil => exact ⟨0, .nil, rfl, rfl, rfl⟩
  | cons t rest ih =>
    cases hstop : stop emitted with
    | true => exact ⟨0, .of_stop hstop, by simp [runTransitions, hstop, Transition.events]⟩
    | false =>
      obtain ⟨n, hn, hevents, hend⟩ := ih (time + t.wait) (emitted + 1)
      refine ⟨n + 1, .cons hstop hn, ?_⟩
      simp only [runTransitions, hstop, Bool.false_eq_true, if_false, Transition.events,
        List.take_succ_cons, hevents, List.length_cons, Transition.span, ← Nat.add_assoc,
        Nat.add_lt_add_iff_right, Nat.add_right_cancel_iff, true_and]
      exact hend

namespace RunSettings

/-- The events of every node from position `index` on in a run that nobody
stops, the first of them becoming pending at `time`. -/
def lives (s : RunSettings) (draws : Nat → Float) (index time : Nat) :
    List String → List (List RunEvent)
  | [] => []
  | id :: rest =>
    let life := s.lifecycle (draws (2 * index)) (draws (2 * index + 1)) id
    Transition.events id time time life ::
      s.lives draws (index + 1) (time + Transition.span life) rest

end RunSettings

/-- The node succeeded or failed. -/
def RunEvent.IsOutcome (e : RunEvent) : Prop := e.status = .success ∨ e.status = .failure

instance : DecidablePred RunEvent.IsOutcome :=
  fun e => inferInstanceAs (Decidable (e.status = .success ∨ e.status = .failure))

theorem RunEvent.isTerminal_iff {e : RunEvent} : e.status.isTerminal = true ↔ e.IsOutcome := by
  rw [IsOutcome]
  cases e.status <;> decide

def hasOutcome (events : List RunEvent) : Bool := events.any fun e => e.IsOutcome

theorem hasOutcome_eq (events : List RunEvent) :
    hasOutcome events = events.any (·.status.isTerminal) := by
  rw [hasOutcome]
  congr 1
  funext e
  rw [← Bool.coe_iff_coe, decide_eq_true_iff, RunEvent.isTerminal_iff]

/-- Lifecycles that have no event yet have no outcome. -/
theorem countP_shares_zero (lives : List (List RunEvent)) :
    (shares 0 lives).countP hasOutcome = 0 := by
  rw [shares_zero, List.countP_eq_zero]
  intro share hshare
  obtain ⟨-, -, rfl⟩ := List.mem_map.mp hshare
  decide

namespace RunSettings

variable (s : RunSettings) (draws : Nat → Float) (stop : Nat → Bool)

/-- Before a stop every node has its whole lifecycle, and after it none has any event. -/
theorem exists_stopsAfter_runFrom (index time emitted : Nat) (ids : List String) :
    ∃ n, StopsAfter stop emitted (s.lives draws index time ids).flatten n ∧
      (s.runFrom draws stop index time emitted ids).events =
        (s.lives draws index time ids).flatten.take n ∧
      (s.runFrom draws stop index time emitted ids).completed =
        (shares n (s.lives draws index time ids)).countP hasOutcome := by
  induction ids generalizing index time emitted with
  | nil => exact ⟨0, .nil, rfl, rfl⟩
  | cons id rest ih =>
    rw [runFrom, lives]
    generalize s.lifecycle (draws (2 * index)) (draws (2 * index + 1)) id = ts
    obtain ⟨n, hn, hevents, hend⟩ := exists_stopsAfter_runTransitions stop id time time emitted ts
    have hcompleted : (runTransitions stop id time time emitted ts).completed =
        if hasOutcome ((Transition.events id time time ts).take n) then 1 else 0 := by
      rw [NodeRun.completed, hevents, hasOutcome_eq]
    cases hstopped : (runTransitions stop id time time emitted ts).stopped with
    | true =>
      -- The run ends within this node, so the later ones have no share of its events.
      rw [if_pos hstopped] at hend
      refine ⟨n, hn.append_of_lt hend, ?_, ?_⟩
      · simp only [if_true, hevents, List.flatten_cons]
        rw [List.take_append_of_le_length (Nat.le_of_lt hend)]
      · simp only [if_true, hcompleted, shares, List.countP_cons,
          Nat.sub_eq_zero_of_le (Nat.le_of_lt hend), countP_shares_zero, Nat.zero_add]
    | false =>
      -- This node has its whole lifecycle, and the next one begins when it ends.
      rw [hstopped, if_neg Bool.false_ne_true] at hend
      obtain ⟨rfl, htime⟩ := hend
      obtain ⟨m, hm, hlater, hcount⟩ := ih (index + 1) (time + Transition.span ts)
        (emitted + (Transition.events id time time ts).length)
      refine ⟨_, hn.append hm, ?_, ?_⟩
      · simp only [Bool.false_eq_true, if_false, hevents, htime, List.take_length, hlater,
          List.flatten_cons, List.take_length_add_append]
      · simp only [Bool.false_eq_true, if_false, hcompleted, hevents, htime, List.take_length,
          hcount, shares, List.countP_cons, Nat.add_sub_cancel_left,
          List.take_of_length_le (Nat.le_add_right _ m)]
        exact Nat.add_comm _ _

end RunSettings

/-- How far a node has come, and what is said about it. -/
def RunEvent.stage (e : RunEvent) : RunStatus × Option String := (e.status, e.message)

/-- The draw is below the rate, which counts as zero or as one where it lies beyond these. -/
def BelowRate (roll rate : Float) : Prop :=
  if rate < 0 then roll < 0 else if 1 < rate then roll < 1 else roll < rate

instance (roll rate : Float) : Decidable (BelowRate roll rate) :=
  inferInstanceAs (Decidable (if rate < 0 then roll < 0 else if 1 < rate then roll < 1
    else roll < rate))

/-- All events of one node, whose draw for failing is `roll`: it fails and succeeds in a
retry when the draw is below the failure rate and the node is not named for a start or an
end, and else it succeeds at once. An outcome tells the time since the first event, by
which the node became pending. -/
structure RunSettings.Lifecycle (s : RunSettings) (roll : Float) (id : String)
    (events : List RunEvent) : Prop where
  node : ∀ e ∈ events, e.node = id
  failing : BelowRate roll s.failureRate ∧ ¬NamedForEnds id →
    events.map RunEvent.stage =
      [(.pending, none), (.running, none), (.failure, some "Demo-Fehler"),
        (.running, some "Retry"), (.success, some "Erfolg nach Retry")]
  succeeding : ¬(BelowRate roll s.failureRate ∧ ¬NamedForEnds id) →
    events.map RunEvent.stage = [(.pending, none), (.running, none), (.success, some "OK")]
  durations : ∃ first ∈ events.head?, ∀ e ∈ events, first.time ≤ e.time ∧
    e.duration = if e.IsOutcome then some (e.time - first.time) else none

namespace Transition

variable {id : String} {begun time : Nat} {ts : List Transition}

theorem node_of_mem_events {e : RunEvent} (he : e ∈ events id begun time ts) : e.node = id := by
  induction ts generalizing time with
  | nil => simp [events] at he
  | cons t rest ih =>
    rcases List.mem_cons.mp he with rfl | he
    · rfl
    · exact ih he

theorem stages_events :
    (events id begun time ts).map RunEvent.stage = ts.map fun t => (t.status, t.message) := by
  induction ts generalizing time with
  | nil => rfl
  | cons t rest ih => rw [events, List.map_cons, List.map_cons, ih, event, RunEvent.stage]

/-- Every duration is counted from the time at which the node became pending. -/
theorem duration_of_mem_events {e : RunEvent} (hbegun : begun ≤ time)
    (he : e ∈ events id begun time ts) :
    begun ≤ e.time ∧
      e.duration = if e.IsOutcome then some (e.time - begun) else none := by
  induction ts generalizing time with
  | nil => simp [events] at he
  | cons t rest ih =>
    have hlater : begun ≤ time + t.wait := Nat.le_add_right_of_le hbegun
    rcases List.mem_cons.mp he with rfl | he
    · simp only [← RunEvent.isTerminal_iff]
      exact ⟨hlater, rfl⟩
    · exact ih hlater he

end Transition

namespace RunSettings

variable (s : RunSettings) (draws : Nat → Float)

theorem lt_clampedRate_iff {roll : Float} :
    roll < s.clampedRate ↔ BelowRate roll s.failureRate := by
  rw [clampedRate, BelowRate]
  split
  · rfl
  · split <;> rfl

theorem fails_iff {roll : Float} {id : String} :
    s.fails roll id = true ↔ BelowRate roll s.failureRate ∧ ¬NamedForEnds id := by
  rw [fails, Bool.and_eq_true, decide_eq_true_iff, lt_clampedRate_iff, Bool.not_eq_true',
    ← neverFails_iff, Bool.not_eq_true]

theorem lifecycle_events (jitter roll : Float) (id : String) (begun : Nat) :
    s.Lifecycle roll id (Transition.events id begun begun (s.lifecycle jitter roll id)) where
  node := fun e he => Transition.node_of_mem_events he
  failing := by
    intro hfails
    rw [Transition.stages_events, lifecycle, if_pos (s.fails_iff.mpr hfails)]
    rfl
  succeeding := by
    intro hfails
    rw [Transition.stages_events, lifecycle, if_neg (mt s.fails_iff.mp hfails)]
    rfl
  durations :=
    ⟨_, rfl, fun e he => Transition.duration_of_mem_events (Nat.le_refl begun) he⟩

/-- The two courses that a lifecycle can take. -/
theorem Lifecycle.stages_eq {s : RunSettings} {roll : Float} {id : String}
    {life : List RunEvent} (h : s.Lifecycle roll id life) :
    life.map RunEvent.stage =
        [(.pending, none), (.running, none), (.failure, some "Demo-Fehler"),
          (.running, some "Retry"), (.success, some "Erfolg nach Retry")] ∨
      life.map RunEvent.stage = [(.pending, none), (.running, none), (.success, some "OK")] := by
  by_cases hfails : BelowRate roll s.failureRate ∧ ¬NamedForEnds id
  · exact .inl (h.failing hfails)
  · exact .inr (h.succeeding hfails)

theorem length_lives (index time : Nat) (ids : List String) :
    (s.lives draws index time ids).length = ids.length := by
  induction ids generalizing index time with
  | nil => rfl
  | cons id rest ih => rw [lives, List.length_cons, List.length_cons, ih]

/-- Each position has the lifecycle of its own id and its own draws. -/
theorem exists_lifecycle_lives {index time i : Nat} {ids : List String} {id : String}
    (h : ids[i]? = some id) :
    ∃ life, (s.lives draws index time ids)[i]? = some life ∧
      s.Lifecycle (draws (2 * (index + i) + 1)) id life := by
  induction ids generalizing index time i with
  | nil => simp at h
  | cons first rest ih =>
    cases i with
    | zero =>
      obtain rfl : first = id := by simpa using h
      exact ⟨_, rfl, s.lifecycle_events _ _ _ _⟩
    | succ i =>
      rw [show index + (i + 1) = index + 1 + i by omega]
      exact ih (by simpa using h)

theorem lifecycle_of_mem_lives {s : RunSettings} {draws : Nat → Float} {index time : Nat}
    {ids : List String} {life : List RunEvent} (h : life ∈ s.lives draws index time ids) :
    ∃ roll id, s.Lifecycle roll id life := by
  induction ids generalizing index time with
  | nil => simp [lives] at h
  | cons id rest ih =>
    rcases List.mem_cons.mp h with rfl | h
    · exact ⟨_, id, s.lifecycle_events _ _ id time⟩
    · exact ih h

/-- The events of a run that nobody stops. -/
theorem events_run_eq_flatten {s : RunSettings} {draws : Nat → Float} {ids : List String} :
    (s.run draws (fun _ => false) ids).events = (s.lives draws 0 0 ids).flatten := by
  obtain ⟨n, hn, hevents, -⟩ := s.exists_stopsAfter_runFrom draws (fun _ => false) 0 0 0 ids
  rw [run, hevents, hn.eq_length, List.take_length]

/-- A run that nobody stops is one lifecycle for each node, in their order. A run
that is stopped has the same events up to the first checkpoint at which it was
asked to stop, and counts the nodes whose first outcome is among its events. -/
theorem run_events_of_lifecycles (s : RunSettings) (draws : Nat → Float) (stop : Nat → Bool)
    (ids : List String) :
    (s.run draws stop ids).events <+: (s.run draws (fun _ => false) ids).events ∧
    StopsAfter stop 0 (s.run draws (fun _ => false) ids).events
      (s.run draws stop ids).events.length ∧
    ∃ lives : List (List RunEvent),
      (s.run draws (fun _ => false) ids).events = lives.flatten ∧
      lives.length = ids.length ∧
      (∀ i id, ids[i]? = some id →
        ∃ life, lives[i]? = some life ∧ s.Lifecycle (draws (2 * i + 1)) id life) ∧
      (s.run draws stop ids).events =
        (shares (s.run draws stop ids).events.length lives).flatten ∧
      (s.run draws stop ids).completed =
        (shares (s.run draws stop ids).events.length lives).countP hasOutcome := by
  obtain ⟨m, hm, hwhole, -⟩ := s.exists_stopsAfter_runFrom draws (fun _ => false) 0 0 0 ids
  obtain ⟨n, hn, hevents, hcompleted⟩ := s.exists_stopsAfter_runFrom draws stop 0 0 0 ids
  have hlives : (s.run draws (fun _ => false) ids).events = (s.lives draws 0 0 ids).flatten := by
    rw [run, hwhole, hm.eq_length, List.take_length]
  have hlength : (s.run draws stop ids).events.length = n := by
    rw [run, hevents, List.length_take, Nat.min_eq_left hn.le]
  have htake : (s.run draws stop ids).events = (s.lives draws 0 0 ids).flatten.take n := hevents
  rw [hlength, hlives]
  refine ⟨htake ▸ List.take_prefix n _, hn, _, rfl, s.length_lives draws 0 0 ids, ?_, ?_,
    hcompleted⟩
  · intro i id hid
    obtain ⟨life, hlife, hlifecycle⟩ := s.exists_lifecycle_lives draws hid
    exact ⟨life, hlife, by simpa using hlifecycle⟩
  · rw [htake, flatten_shares]

/-- Of these nodes the first is named for a start, the second fails, and the draw of the third
is above the failure rate. -/
def runRestartPayShip (stop : Nat → Bool) : RunOutcome :=
  run ⟨600, 0.5, none⟩ (if · < 4 then 0.25 else 0.75) stop ["Restart", "pay", "ship"]

/-- Stopped before its eighth event, the run ends between the retry of the second node and the
success in it, and has completed that node by its failure. -/
theorem stages_runRestartPayShip :
    ∃ restart pay ship : List RunEvent,
      (runRestartPayShip fun _ => false).events = restart ++ (pay ++ ship) ∧
      restart.map RunEvent.stage = [(.pending, none), (.running, none), (.success, some "OK")] ∧
      pay.map RunEvent.stage =
        [(.pending, none), (.running, none), (.failure, some "Demo-Fehler"),
          (.running, some "Retry"), (.success, some "Erfolg nach Retry")] ∧
      ship.map RunEvent.stage = [(.pending, none), (.running, none), (.success, some "OK")] ∧
      (runRestartPayShip (7 ≤ ·)).events = restart ++ pay.take 4 ∧
      (runRestartPayShip (7 ≤ ·)).completed = 2 := by
  obtain ⟨-, -, lives, hwhole, hlength, hlife, hstopped, -⟩ :=
    run_events_of_lifecycles ⟨600, 0.5, none⟩ (if · < 4 then 0.25 else 0.75) (7 ≤ ·)
      ["Restart", "pay", "ship"]
  obtain ⟨restart, pay, ship, rfl⟩ := List.length_eq_three.mp hlength
  obtain ⟨_, ⟨⟩, hexempt⟩ := hlife 0 "Restart" rfl
  obtain ⟨_, ⟨⟩, hlow⟩ := hlife 1 "pay" rfl
  obtain ⟨_, ⟨⟩, hhigh⟩ := hlife 2 "ship" rfl
  have hrestart := hexempt.succeeding (by decide)
  have hpay := hlow.failing (by decide)
  have hship := hhigh.succeeding (by decide)
  have hthree : restart.length = 3 := by simpa using congrArg List.length hrestart
  have hfive : pay.length = 5 := by simpa using congrArg List.length hpay
  have hseven : (runRestartPayShip (7 ≤ ·)).events.length = 7 := by decide +kernel
  have hevents : (runRestartPayShip fun _ => false).events = restart ++ (pay ++ ship) := by
    simpa [runRestartPayShip] using hwhole
  refine ⟨restart, pay, ship, hevents, hrestart, hpay, hship, ?_, by decide +kernel⟩
  rw [← runRestartPayShip, hseven] at hstopped
  simpa [shares, hthree, hfive, List.take_of_length_le] using hstopped

end RunSettings

end ProcessChart
