import ProcessChart.Proofs.Lifecycles
import Mathlib.Data.List.Infix
import Mathlib.Data.List.SplitBy

/-!
The positions of a run do not disturb each other. Every node takes two draws,
whatever comes of it, so the generator that is handed on from node to node has
given as many draws before a position as there are positions before it, twice over.
What is told about a position depends on its own node and on those two draws; when
the node begins is the only thing that the others decide.
-/

namespace ProcessChart

/-- The lifecycles of a stream of events; each begins when a node becomes pending. -/
def lifecycles (events : List RunEvent) : List (List RunEvent) :=
  events.splitBy fun _ e => e.status ≠ .pending

/-- What is told about a node, whenever it is told. -/
def RunEvent.told (e : RunEvent) : RunStatus × Option String × Option Nat :=
  (e.status, e.message, e.duration)

/-- The numbers that a generator gives one after the other. -/
def drawsOf {γ : Type} (next : γ → Float × γ) (g : γ) : Nat → Float
  | 0 => (next g).1
  | n + 1 => drawsOf next (next g).2 n

/-- The events of a run that nobody stops and that takes its draws from a generator, which
is handed on from draw to draw and from node to node. -/
def RunSettings.threaded {γ : Type} (s : RunSettings) (next : γ → Float × γ) (g : γ)
    (time : Nat) : List String → List RunEvent
  | [] => []
  | id :: rest =>
    let jitter := next g
    let roll := next jitter.2
    let life := s.lifecycle jitter.1 roll.1 id
    Transition.events id time time life ++
      s.threaded next roll.2 (time + Transition.span life) rest

/-- A lifecycle has one pending event, its first. -/
def BeginsPending (life : List RunEvent) : Prop :=
  ∃ first later, life = first :: later ∧ first.status = .pending ∧
    ∀ e ∈ later, e.status ≠ .pending

section Stream

variable {life rest : List RunEvent} {lives : List (List RunEvent)}

theorem lifecycles_append (hlife : BeginsPending life)
    (hrest : ∀ e ∈ rest.head?, e.status = .pending) :
    lifecycles (life ++ rest) = life :: lifecycles rest := by
  obtain ⟨first, later, rfl, -, hlater⟩ := hlife
  have hone : lifecycles (first :: later) = [first :: later] := by
    apply List.splitBy_of_isChain (List.cons_ne_nil _ _)
    apply List.Pairwise.isChain
    rw [List.pairwise_cons]
    refine ⟨fun e he => by simpa using hlater e he, ?_⟩
    exact List.pairwise_of_forall_mem_list fun x _ y hy => by simpa using hlater y hy
  rw [lifecycles, List.splitBy_append]
  · exact congrArg (· ++ lifecycles rest) hone
  · intro x _ y hy
    simp [hrest y hy]

theorem lifecycles_flatten (h : ∀ life ∈ lives, BeginsPending life) :
    lifecycles lives.flatten = lives := by
  induction lives with
  | nil => rfl
  | cons life rest ih =>
    obtain ⟨hlife, hrest⟩ := List.forall_mem_cons.mp h
    rw [List.flatten_cons, lifecycles_append hlife, ih hrest]
    intro e he
    cases rest with
    | nil => simp at he
    | cons life' rest' =>
      obtain ⟨first, later, rfl, hfirst, -⟩ := hrest life' List.mem_cons_self
      obtain rfl : first = e := by simpa using he
      exact hfirst

end Stream

namespace Transition

variable {id : String} {begun time delay : Nat} {ts : List Transition}

/-- The same transitions tell the same, whenever they begin. -/
theorem told_events_add :
    (events id (begun + delay) (time + delay) ts).map RunEvent.told =
      (events id begun time ts).map RunEvent.told := by
  induction ts generalizing time with
  | nil => rfl
  | cons t rest ih =>
    have hlater : time + delay + t.wait = time + t.wait + delay := by omega
    have hspan : time + t.wait + delay - (begun + delay) = time + t.wait - begun := by omega
    rw [events, events, List.map_cons, List.map_cons, hlater, ih]
    rw [event, event, RunEvent.told, RunEvent.told, hspan]

theorem told_events :
    (events id time time ts).map RunEvent.told = (events id 0 0 ts).map RunEvent.told := by
  have h : (events id (0 + time) (0 + time) ts).map RunEvent.told =
      (events id 0 0 ts).map RunEvent.told := told_events_add
  rwa [Nat.zero_add] at h

end Transition

namespace RunSettings

variable {s : RunSettings} {draws : Nat → Float} {index time i : Nat} {ids more : List String}

theorem Lifecycle.beginsPending {roll : Float} {id : String} {life : List RunEvent}
    (h : s.Lifecycle roll id life) : BeginsPending life := by
  obtain ⟨others, hstatuses, hothers⟩ : ∃ others,
      life.map (·.status) = .pending :: others ∧ RunStatus.pending ∉ others := by
    have hstages : life.map (·.status) = (life.map RunEvent.stage).map (·.1) := by
      rw [List.map_map]
      rfl
    rcases h.stages_eq with heq | heq
    · exact ⟨_, by rw [hstages, heq]; rfl, by decide⟩
    · exact ⟨_, by rw [hstages, heq]; rfl, by decide⟩
  cases life with
  | nil => simp at hstatuses
  | cons first later =>
    rw [List.map_cons, List.cons.injEq] at hstatuses
    refine ⟨first, later, rfl, hstatuses.1, fun e he hpending => hothers ?_⟩
    rw [← hstatuses.2, ← hpending]
    exact List.mem_map_of_mem he

theorem beginsPending_of_mem_lives {life : List RunEvent}
    (h : life ∈ s.lives draws index time ids) : BeginsPending life := by
  obtain ⟨roll, id, hlifecycle⟩ := lifecycle_of_mem_lives h
  exact hlifecycle.beginsPending

theorem lifecycles_run :
    lifecycles (s.run draws (fun _ => false) ids).events = s.lives draws 0 0 ids := by
  rw [events_run_eq_flatten, lifecycles_flatten fun _ => beginsPending_of_mem_lives]

/-- What is told at a position depends on its node and its own two draws. -/
theorem told_getElem?_lives :
    ((s.lives draws index time ids)[i]?).map (List.map RunEvent.told) =
      (ids[i]?).map fun id => (Transition.events id 0 0
        (s.lifecycle (draws (2 * (index + i))) (draws (2 * (index + i) + 1)) id)).map
          RunEvent.told := by
  induction ids generalizing index time i with
  | nil => rfl
  | cons id rest ih =>
    cases i with
    | zero =>
      simp only [lives, List.getElem?_cons_zero, Option.map_some, Transition.told_events,
        Nat.add_zero]
    | succ i =>
      rw [lives, List.getElem?_cons_succ, List.getElem?_cons_succ, ih, Nat.add_right_comm,
        Nat.add_assoc]

theorem lives_prefix_append :
    s.lives draws index time ids <+: s.lives draws index time (ids ++ more) := by
  induction ids generalizing index time with
  | nil => exact List.nil_prefix
  | cons id rest ih =>
    rw [List.cons_append, lives, lives, List.prefix_cons_inj]
    exact ih

/-- A generator that has given two draws for every node so far gives the draws of the nodes
to come. -/
theorem threaded_eq_flatten {γ : Type} {next : γ → Float × γ} {g : γ}
    (h : ∀ n, draws (2 * index + n) = drawsOf next g n) :
    s.threaded next g time ids = (s.lives draws index time ids).flatten := by
  induction ids generalizing index time g with
  | nil => rfl
  | cons id rest ih =>
    have hjitter : draws (2 * index) = (next g).1 := h 0
    have hroll : draws (2 * index + 1) = (next (next g).2).1 := h 1
    have hrest : ∀ n, draws (2 * (index + 1) + n) = drawsOf next (next (next g).2).2 n := by
      intro n
      rw [show 2 * (index + 1) + n = 2 * index + (n + 2) by omega, h (n + 2)]
      rfl
    rw [threaded, lives, List.flatten_cons, hjitter, hroll, ih hrest]

/-- A position has a lifecycle of its own node, and what it tells is decided by the node and
by the two draws that belong to the position. -/
theorem exists_lifecycle_of_position {id : String} (hid : ids[i]? = some id) :
    ∃ life, (lifecycles (s.run draws (fun _ => false) ids).events)[i]? = some life ∧
      (∀ e ∈ life, e.node = id) ∧
      life.map RunEvent.told =
        (Transition.events id 0 0 (s.lifecycle (draws (2 * i)) (draws (2 * i + 1)) id)).map
          RunEvent.told := by
  have hlives : ∃ life, (s.lives draws 0 0 ids)[i]? = some life ∧
      s.Lifecycle (draws (2 * (0 + i) + 1)) id life := s.exists_lifecycle_lives draws hid
  obtain ⟨life, hlife, hlifecycle⟩ := hlives
  refine ⟨life, lifecycles_run ▸ hlife, hlifecycle.node, ?_⟩
  apply Option.some.inj
  rw [← Option.map_some, ← hlife, told_getElem?_lives, hid, Nat.zero_add, Option.map_some]

/-- A run that nobody stops has one lifecycle for each position. Two runs with the same draws
tell the same about a position at which they have the same node, whatever nodes stand at the
other positions and however many there are, and more nodes at the end only add events at the
end. With the draws of a generator the run is the one that hands it on from node to node. -/
theorem positions_independent (s : RunSettings) (draws : Nat → Float) :
    (∀ ids, (lifecycles (s.run draws (fun _ => false) ids).events).length = ids.length) ∧
    (∀ (ids ids' : List String) (i : Nat) (id : String),
      ids[i]? = some id → ids'[i]? = some id → ∃ life life' : List RunEvent,
        (lifecycles (s.run draws (fun _ => false) ids).events)[i]? = some life ∧
        (lifecycles (s.run draws (fun _ => false) ids').events)[i]? = some life' ∧
        (∀ e ∈ life ++ life', e.node = id) ∧
        life.map RunEvent.told = life'.map RunEvent.told) ∧
    (∀ ids more, (s.run draws (fun _ => false) ids).events <+:
      (s.run draws (fun _ => false) (ids ++ more)).events) ∧
    ∀ (γ : Type) (next : γ → Float × γ) (g : γ), draws = drawsOf next g →
      ∀ ids, (s.run draws (fun _ => false) ids).events = s.threaded next g 0 ids := by
  refine ⟨fun ids => ?_, fun ids ids' i id hid hid' => ?_, fun ids more => ?_, ?_⟩
  · rw [lifecycles_run, length_lives]
  · obtain ⟨life, hlife, hnode, htold⟩ := exists_lifecycle_of_position hid
    obtain ⟨life', hlife', hnode', htold'⟩ := exists_lifecycle_of_position hid'
    refine ⟨life, life', hlife, hlife', ?_, htold.trans htold'.symm⟩
    intro e he
    rcases List.mem_append.mp he with he | he
    · exact hnode e he
    · exact hnode' e he
  · rw [events_run_eq_flatten, events_run_eq_flatten]
    exact lives_prefix_append.flatten
  · rintro γ next g rfl ids
    rw [events_run_eq_flatten, threaded_eq_flatten]
    intro n
    rw [Nat.mul_zero, Nat.zero_add]

/-- Behind a start, which never fails, the same is told of a task as behind a task, which may
fail. The generator is the number of draws that it has given. -/
theorem second_behind_start_and_task :
    (∃ life life' : List RunEvent,
      (lifecycles (standard.run (drawsOf (fun n => (Draws.unit 7 n, n + 1)) 0) (fun _ => false)
        ["start", "pay"]).events)[1]? = some life ∧
      (lifecycles (standard.run (drawsOf (fun n => (Draws.unit 7 n, n + 1)) 0) (fun _ => false)
        ["check", "pay", "end"]).events)[1]? = some life' ∧
      (∀ e ∈ life ++ life', e.node = "pay") ∧
      life.map RunEvent.told = life'.map RunEvent.told) ∧
    (standard.run (drawsOf (fun n => (Draws.unit 7 n, n + 1)) 0) (fun _ => false)
      ["check", "pay", "end"]).events =
      standard.threaded (fun n => (Draws.unit 7 n, n + 1)) 0 0 ["check", "pay", "end"] := by
  obtain ⟨-, hsame, -, hthreaded⟩ :=
    positions_independent standard (drawsOf (fun n => (Draws.unit 7 n, n + 1)) 0)
  exact ⟨hsame ["start", "pay"] ["check", "pay", "end"] 1 "pay" rfl rfl,
    hthreaded Nat (fun n => (Draws.unit 7 n, n + 1)) 0 rfl ["check", "pay", "end"]⟩

end RunSettings

end ProcessChart
