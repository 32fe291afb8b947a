import ProcessChart.Proofs.Distinct
import ProcessChart.Proofs.Lifecycles
import ProcessChart.Run.Log
import Mathlib.Data.List.Forall2
import Mathlib.Data.List.Infix

/-!
What the log of a run tells. The nodes with a status are those of the events, in the order
of their first events, and the status of a node is that of its last event. A run that is
stopped has been through whole lifecycles, which end in a success, and at most a part of one
more. Between a failure and the success of the retry a node has an outcome and is not at its
end, which is why outcomes are counted apart from nodes.
-/

namespace ProcessChart

namespace Table

variable {α : Type}

theorem map_fst_insertEntry_of_mem {id : String} (a : α) {entries : List (String × α)}
    (h : id ∈ entries.map (·.1)) : (insertEntry id a entries).map (·.1) = entries.map (·.1) := by
  induction entries with
  | nil => simp at h
  | cons e rest ih =>
    rw [insertEntry]
    split
    · rfl
    · next hne =>
      have hrest : id ∈ rest.map (·.1) := by
        rw [List.map_cons, List.mem_cons] at h
        exact h.resolve_left (Ne.symm hne)
      rw [List.map_cons, List.map_cons, ih hrest]

theorem keys_insert (t : Table α) (id : String) (a : α) :
    (t.insert id a).keys = if id ∈ t.keys then t.keys else t.keys ++ [id] := by
  split
  · next h => exact map_fst_insertEntry_of_mem a h
  · next h => rw [keys, insert, insertEntry_of_new a h, List.map_append]; rfl

end Table

namespace RunLog

variable {ids : List String} {parts : List (List RunEvent)}

theorem foldl_push (l : RunLog) (es : List RunEvent) : es.foldl push l = l.extend es := by
  induction es generalizing l with
  | nil => simp [extend]
  | cons e es ih => rw [List.foldl_cons, ih, extend_cons]

/-- The nodes that have a status are those that have an event, the first event first. -/
theorem keys_latest (l : RunLog) : l.latest.keys = (l.events.map (·.node)).eraseDups := by
  obtain ⟨es⟩ := l
  induction es using List.reverseRecOn with
  | nil => rfl
  | append_singleton es e ih =>
    change (push ⟨es⟩ e).latest.keys = _
    rw [latest_push, Table.keys_insert, ih, List.map_append, List.map_singleton, eraseDups_concat]
    simp only [List.mem_eraseDups]

/-- The status of a node is that of its last event. -/
theorem get?_latest (l : RunLog) (id : String) :
    l.latest.get? id = (l.history id).getLast?.map (·.status) := by
  obtain ⟨es⟩ := l
  induction es using List.reverseRecOn with
  | nil => rfl
  | append_singleton es e ih =>
    change (push ⟨es⟩ e).latest.get? id = _
    rw [latest_push, Table.get?_insert, ih]
    by_cases h : e.node = id
    · simp [history, h]
    · simp [history, h, Ne.symm h]

end RunLog

/-- Events of one node, of which there is at least one. -/
structure IsShare (id : String) (events : List RunEvent) : Prop where
  ne_nil : events ≠ []
  node : ∀ e ∈ events, e.node = id

section Shares

variable {id : String} {ids : List String} {part : List RunEvent} {parts : List (List RunEvent)}

theorem IsShare.eraseDups_append {rest : List String} (h : IsShare id part) (hrest : id ∉ rest) :
    (part.map (·.node) ++ rest).eraseDups = id :: rest.eraseDups := by
  obtain ⟨hne, hnode⟩ := h
  obtain ⟨e, more, rfl⟩ := List.exists_cons_of_ne_nil hne
  obtain ⟨rfl, hmore⟩ := List.forall_mem_cons.mp hnode
  have hdropped : (more.map (·.node)).filter (fun x => !x == e.node) = [] := by
    simpa using hmore
  rw [List.map_cons, List.cons_append, List.eraseDups_cons, List.filter_append, hdropped,
    filter_ne_of_not_mem hrest, List.nil_append]

theorem node_mem_of_shares (h : List.Forall₂ IsShare ids parts) {e : RunEvent}
    (he : e ∈ parts.flatten) : e.node ∈ ids := by
  induction h with
  | nil => simp at he
  | cons hpart _ ih =>
    rw [List.flatten_cons] at he
    rcases List.mem_append.mp he with he | he
    · exact hpart.node e he ▸ List.mem_cons_self
    · exact List.mem_cons_of_mem _ (ih he)

theorem eraseDups_flatten (h : List.Forall₂ IsShare ids parts) (hids : ids.Nodup) :
    (parts.flatten.map (·.node)).eraseDups = ids := by
  induction h with
  | nil => rfl
  | @cons id part ids parts hpart hparts ih =>
    obtain ⟨hid, hids⟩ := List.nodup_cons.mp hids
    have hrest : id ∉ parts.flatten.map (·.node) := by
      intro hmem
      obtain ⟨e, he, rfl⟩ := List.mem_map.mp hmem
      exact hid (node_mem_of_shares hparts he)
    rw [List.flatten_cons, List.map_append, hpart.eraseDups_append hrest, ih hids]

/-- With different nodes, the events of a node are its own share. -/
theorem filter_flatten (h : List.Forall₂ IsShare ids parts) (hids : ids.Nodup) :
    ∀ x ∈ ids.zip parts, parts.flatten.filter (·.node = x.1) = x.2 := by
  induction h with
  | nil => simp
  | @cons id part ids parts hpart hparts ih =>
    obtain ⟨hid, hids⟩ := List.nodup_cons.mp hids
    intro x hx
    rw [List.flatten_cons, List.filter_append]
    rcases List.mem_cons.mp hx with rfl | hx
    · have hown : part.filter (·.node = id) = part :=
        List.filter_eq_self.mpr fun e he => decide_eq_true (hpart.node e he)
      have hothers : parts.flatten.filter (·.node = id) = [] := by
        rw [List.filter_eq_nil_iff]
        intro e he heq
        exact hid (of_decide_eq_true heq ▸ node_mem_of_shares hparts he)
      rw [hown, hothers, List.append_nil]
    · have hother : part.filter (·.node = x.1) = [] := by
        rw [List.filter_eq_nil_iff]
        intro e he heq
        exact hid (hpart.node e he ▸ of_decide_eq_true heq ▸ (List.of_mem_zip hx).1)
      rw [hother, List.nil_append, ih hids x hx]

theorem exists_mem_zip {R : String → List RunEvent → Prop} (h : List.Forall₂ R ids parts)
    (hid : id ∈ ids) : ∃ part, (id, part) ∈ ids.zip parts ∧ R id part := by
  induction h with
  | nil => simp at hid
  | @cons id' part' ids parts hpart hparts ih =>
    rcases List.mem_cons.mp hid with rfl | hid
    · exact ⟨part', List.mem_cons_self, hpart⟩
    · obtain ⟨part, hmem, hR⟩ := ih hid
      exact ⟨part, List.mem_cons_of_mem _ hmem, hR⟩

end Shares

/-- A stopped sequence of lifecycles is whole lifecycles and a part of the next one. -/
theorem exists_split_of_prefix {R : String → List RunEvent → Prop} {ids : List String}
    {lives : List (List RunEvent)} (h : List.Forall₂ R ids lives) {events : List RunEvent}
    (hfront : events <+: lives.flatten) (hevents : events ≠ []) :
    ∃ before id after whole part life, ids = before ++ id :: after ∧
      events = whole.flatten ++ part ∧ List.Forall₂ R before whole ∧ R id life ∧ part ≠ [] ∧
      part <+: life := by
  induction h generalizing events with
  | nil => exact absurd (List.prefix_nil.mp hfront) hevents
  | @cons id life ids lives hlife hlives ih =>
    rw [List.flatten_cons] at hfront
    rcases List.prefix_or_prefix_of_prefix hfront (List.prefix_append life lives.flatten) with
      hwithin | ⟨more, rfl⟩
    · exact ⟨[], id, ids, [], events, life, rfl, rfl, .nil, hlife, hevents, hwithin⟩
    · by_cases hmore : more = []
      · exact ⟨[], id, ids, [], life, life, rfl, by simp [hmore], .nil, hlife,
          by simpa [hmore] using hevents, List.prefix_rfl⟩
      · obtain ⟨before, id', after, whole, part, life', hids, hflatten, hwhole, hpart⟩ :=
          ih ((List.prefix_append_right_inj life).mp hfront) hmore
        exact ⟨id :: before, id', after, life :: whole, part, life', by rw [hids, List.cons_append],
          by rw [hflatten, List.flatten_cons, List.append_assoc], .cons hlife hwhole, hpart⟩

theorem exists_prefix_of_mem_shares {α : Type} {n : Nat} {lives : List (List α)} {share : List α}
    (h : share ∈ shares n lives) : ∃ life ∈ lives, share <+: life := by
  induction lives generalizing n with
  | nil => simp [shares] at h
  | cons life rest ih =>
    rw [shares] at h
    rcases List.mem_cons.mp h with rfl | h
    · exact ⟨life, List.mem_cons_self, List.take_prefix n life⟩
    · obtain ⟨life', hlife', hfront⟩ := ih h
      exact ⟨life', List.mem_cons_of_mem life hlife', hfront⟩

/-- The success that comes after a failure. -/
def RunEvent.isRetried (e : RunEvent) : Bool := e.message = some "Erfolg nach Retry"

/-- In a stretch of a run the outcomes are as many as the lifecycles that have one, and as the
retries that succeeded. -/
theorem countP_outcomes_flatten {parts : List (List RunEvent)}
    (h : ∀ part ∈ parts, part.countP (·.status.isTerminal) =
      (if hasOutcome part then 1 else 0) + part.countP RunEvent.isRetried) :
    parts.flatten.countP (·.status.isTerminal) =
      parts.countP hasOutcome + parts.flatten.countP RunEvent.isRetried := by
  induction parts with
  | nil => rfl
  | cons part parts ih =>
    obtain ⟨hpart, hparts⟩ := List.forall_mem_cons.mp h
    rw [List.flatten_cons, List.countP_append, List.countP_append, List.countP_cons, hpart,
      ih hparts]
    omega

namespace RunSettings

variable {s : RunSettings} {roll : Float} {id : String} {life part : List RunEvent}

/-- The outcomes in a part of a lifecycle are one, and one more after a retry. -/
theorem Lifecycle.countP_outcomes (h : s.Lifecycle roll id life) (hpart : part <+: life) :
    part.countP (·.status.isTerminal) =
      (if hasOutcome part then 1 else 0) + part.countP RunEvent.isRetried := by
  have hparts : ∀ stages ∈ (life.map RunEvent.stage).inits,
      stages.countP (·.1.isTerminal) = (if stages.any (·.1.isTerminal) then 1 else 0) +
        stages.countP (·.2 = some "Erfolg nach Retry") := by
    rcases h.stages_eq with hstages | hstages <;> rw [hstages] <;> decide
  have hpart := hparts (part.map RunEvent.stage)
    ((List.mem_inits _ _).mpr (hpart.map RunEvent.stage))
  rw [List.countP_map, List.any_map, List.countP_map] at hpart
  rwa [hasOutcome_eq]

theorem Lifecycle.length_eq (h : s.Lifecycle roll id life) :
    life.length = 3 ∨ life.length = 5 := by
  rcases h.stages_eq with hstages | hstages
  · exact .inr (by simpa using congrArg List.length hstages)
  · exact .inl (by simpa using congrArg List.length hstages)

theorem Lifecycle.status_getLast? (h : s.Lifecycle roll id life) :
    life.getLast?.map (·.status) = some .success := by
  have hlast : life.getLast?.map (·.status) = (life.map RunEvent.stage).getLast?.map (·.1) := by
    rw [List.getLast?_map, Option.map_map]
    rfl
  rcases h.stages_eq with hstages | hstages
  · rw [hlast, hstages]; rfl
  · rw [hlast, hstages]; rfl

theorem Lifecycle.isShare (h : s.Lifecycle roll id life) : IsShare id life where
  ne_nil := by
    rintro rfl
    exact absurd h.status_getLast? (by simp)
  node := h.node

theorem isShare_lives {ids : List String} {lives : List (List RunEvent)}
    (h : List.Forall₂ (fun id life => ∃ roll, s.Lifecycle roll id life) ids lives) :
    List.Forall₂ IsShare ids lives := by
  refine h.imp fun id life hlife => ?_
  obtain ⟨roll, hlife⟩ := hlife
  exact hlife.isShare

theorem forall₂_lives (s : RunSettings) (draws : Nat → Float) (index time : Nat)
    (ids : List String) :
    List.Forall₂ (fun id life => ∃ roll, s.Lifecycle roll id life) ids
      (s.lives draws index time ids) := by
  induction ids generalizing index time with
  | nil => exact .nil
  | cons id rest ih => exact .cons ⟨_, s.lifecycle_events _ _ id time⟩ (ih _ _)

end RunSettings

/-- The log to which the events of a run are pushed in their order. -/
def RunOutcome.log (o : RunOutcome) : RunLog := o.events.foldl RunLog.push .empty

theorem RunOutcome.log_eq (o : RunOutcome) : o.log = ⟨o.events⟩ := by
  rw [log, RunLog.foldl_push]
  rfl

namespace RunLog

variable {ids : List String} {parts : List (List RunEvent)}

theorem keys_latest_flatten (h : List.Forall₂ IsShare ids parts) (hids : ids.Nodup) :
    (RunLog.mk parts.flatten).latest.keys = ids := by
  rw [keys_latest, eraseDups_flatten h hids]

theorem history_flatten (h : List.Forall₂ IsShare ids parts) (hids : ids.Nodup) {id : String}
    {part : List RunEvent} (hmem : (id, part) ∈ ids.zip parts) :
    (RunLog.mk parts.flatten).history id = part :=
  filter_flatten h hids (id, part) hmem

end RunLog

namespace RunSettings

variable {s : RunSettings} {draws : Nat → Float} {stop : Nat → Bool} {ids : List String}

theorem terminalCount_log :
    (s.run draws stop ids).log.terminalCount =
      (s.run draws stop ids).completed +
        (s.run draws stop ids).log.events.countP RunEvent.isRetried := by
  obtain ⟨n, -, hevents, hcompleted⟩ := s.exists_stopsAfter_runFrom draws stop 0 0 0 ids
  rw [← flatten_shares] at hevents
  rw [RunOutcome.log_eq, RunLog.terminalCount, ← List.countP_eq_length_filter, run, hevents,
    hcompleted]
  apply countP_outcomes_flatten
  intro part hpart
  obtain ⟨life, hlife, hfront⟩ := exists_prefix_of_mem_shares hpart
  obtain ⟨roll, id, hlifecycle⟩ := lifecycle_of_mem_lives hlife
  exact hlifecycle.countP_outcomes hfront

/-- The nodes of a run that is stopped are the first ones, and all but the last succeeded. -/
theorem latest_of_prefix (hids : ids.Nodup) {events : List RunEvent}
    (h : events <+: (s.lives draws 0 0 ids).flatten) :
    (RunLog.mk events).latest.keys <+: ids ∧
      ∀ id ∈ (RunLog.mk events).latest.keys.dropLast,
        (RunLog.mk events).latest.get? id = some .success := by
  by_cases hevents : events = []
  · subst hevents
    exact ⟨List.nil_prefix, by simp [RunLog.keys_latest]⟩
  obtain ⟨before, id, after, whole, part, life, rfl, rfl, hwhole, ⟨roll, hlife⟩, hne, hpart⟩ :=
    exists_split_of_prefix (s.forall₂_lives draws 0 0 ids) h hevents
  have hnodes : List.Forall₂ IsShare (before ++ [id]) (whole ++ [part]) := by
    refine List.rel_append (isShare_lives hwhole) (.cons ?_ .nil)
    exact ⟨hne, fun e he => hlife.node e (hpart.subset he)⟩
  have hfront : before ++ [id] <+: before ++ id :: after := ⟨after, by simp⟩
  have hnodup : (before ++ [id]).Nodup := hids.sublist hfront.sublist
  have hflatten : whole.flatten ++ part = (whole ++ [part]).flatten := by simp
  rw [hflatten, RunLog.keys_latest_flatten hnodes hnodup, List.dropLast_concat]
  refine ⟨hfront, fun id' hid' => ?_⟩
  obtain ⟨life', hmem, roll', hlife'⟩ := exists_mem_zip hwhole hid'
  have hzip : (id', life') ∈ (before ++ [id]).zip (whole ++ [part]) := by
    rw [List.zip_append hwhole.length_eq]
    exact List.mem_append_left _ hmem
  rw [RunLog.get?_latest, RunLog.history_flatten hnodes hnodup hzip, hlife'.status_getLast?]

/-- In the log of a run that nobody stops every node has the history of its lifecycle. -/
theorem history_of_lives (s : RunSettings) (draws : Nat → Float) (hids : ids.Nodup)
    {id : String} (hid : id ∈ ids) :
    ∃ roll, s.Lifecycle roll id ((RunLog.mk (s.lives draws 0 0 ids).flatten).history id) := by
  have hlives := s.forall₂_lives draws 0 0 ids
  obtain ⟨life, hmem, roll, hlife⟩ := exists_mem_zip hlives hid
  have hhistory := RunLog.history_flatten (isShare_lives hlives) hids hmem
  exact ⟨roll, hhistory.symm ▸ hlife⟩

/-- The nodes in the log of a run are the first nodes of the run, and every one of them but
the last has succeeded. The log has one outcome for each completed node and one for each
retry. In the log of a run that nobody stops all nodes have succeeded, after three events or
after five. -/
theorem log_of_run (s : RunSettings) (draws : Nat → Float) (stop : Nat → Bool)
    {ids : List String} (hids : ids.Nodup) :
    (s.run draws stop ids).log.latest.keys <+: ids ∧
    (∀ id ∈ (s.run draws stop ids).log.latest.keys.dropLast,
      (s.run draws stop ids).log.latest.get? id = some .success) ∧
    (s.run draws stop ids).log.terminalCount =
      (s.run draws stop ids).completed +
        (s.run draws stop ids).log.events.countP (·.message = some "Erfolg nach Retry") ∧
    (s.run draws (fun _ => false) ids).log.latest.keys = ids ∧
    ∀ id ∈ ids,
      (s.run draws (fun _ => false) ids).log.latest.get? id = some .success ∧
      (((s.run draws (fun _ => false) ids).log.history id).length = 3 ∨
        ((s.run draws (fun _ => false) ids).log.history id).length = 5) := by
  obtain ⟨n, -, hevents, -⟩ := s.exists_stopsAfter_runFrom draws stop 0 0 0 ids
  have hfront : (s.run draws stop ids).events <+: (s.lives draws 0 0 ids).flatten := by
    rw [run, hevents]
    exact List.take_prefix n _
  have hstopped := latest_of_prefix hids hfront
  rw [← RunOutcome.log_eq] at hstopped
  refine ⟨hstopped.1, hstopped.2, terminalCount_log, ?_⟩
  rw [RunOutcome.log_eq, events_run_eq_flatten]
  have hshares := isShare_lives (s.forall₂_lives draws 0 0 ids)
  refine ⟨RunLog.keys_latest_flatten hshares hids, fun id hid => ?_⟩
  obtain ⟨roll, hlife⟩ := history_of_lives s draws hids hid
  exact ⟨by rw [RunLog.get?_latest, hlife.status_getLast?], hlife.length_eq⟩

/-- A run that is stopped before its seventh event. A start never fails, so it is within the
lifecycle of the task. -/
theorem log_of_start_and_pay :
    ["start", "pay"].Nodup ∧
    (standard.run (fun _ => 0) (6 ≤ ·) ["start", "pay"]).log.latest.keys <+: ["start", "pay"] ∧
    (standard.run (fun _ => 0) (6 ≤ ·) ["start", "pay"]).log.terminalCount =
      (standard.run (fun _ => 0) (6 ≤ ·) ["start", "pay"]).completed +
        (standard.run (fun _ => 0) (6 ≤ ·) ["start", "pay"]).log.events.countP
          (·.message = some "Erfolg nach Retry") ∧
    (standard.run (fun _ => 0) (fun _ => false) ["start", "pay"]).log.latest.keys =
      ["start", "pay"] := by
  have hids : ["start", "pay"].Nodup := by decide
  obtain ⟨hfront, -, hcount, hkeys, -⟩ := log_of_run standard (fun _ => 0) (6 ≤ ·) hids
  exact ⟨hids, hfront, hcount, hkeys⟩

end RunSettings

end ProcessChart
