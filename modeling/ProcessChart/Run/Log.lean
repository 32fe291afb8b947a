import ProcessChart.Run.Event
import ProcessChart.Draft.Report
import ProcessChart.Json.Printer
import ProcessChart.Table

/-!
The log of a run keeps its events in the order in which they happened.
-/
namespace ProcessChart

structure RunLog where
  events : List RunEvent
deriving DecidableEq, Repr

namespace RunLog

def empty : RunLog := ⟨[]⟩

def push (l : RunLog) (e : RunEvent) : RunLog := ⟨l.events ++ [e]⟩

def extend (l : RunLog) (es : List RunEvent) : RunLog := ⟨l.events ++ es⟩

def size (l : RunLog) : Nat := l.events.length

def withStatus (l : RunLog) (s : RunStatus) : List RunEvent := l.events.filter (·.status = s)

/-- The events of one node. -/
def history (l : RunLog) (id : String) : List RunEvent := l.events.filter (·.node = id)

/-- The last status of every node that has an event. -/
def latest (l : RunLog) : Table RunStatus :=
  l.events.foldl (fun t e => t.insert e.node e.status) .empty

def terminalCount (l : RunLog) : Nat := (l.events.filter (·.status.isTerminal)).length

/-- The events, and what is told about the draft of the process if it was drafted. -/
def toJson (l : RunLog) (report : Option DraftReport) : Json :=
  .object
    [("events", .array (l.events.map RunEvent.toJson)),
     ("diag", (report.map DraftReport.toJson).getD .null)]

def print (l : RunLog) (report : Option DraftReport) : String := (l.toJson report).print .pretty

theorem size_extend (l : RunLog) (es : List RunEvent) :
    (l.extend es).size = l.size + es.length := List.length_append

theorem extend_cons (l : RunLog) (e : RunEvent) (es : List RunEvent) :
    l.extend (e :: es) = (l.push e).extend es := by
  simp [extend, push]

/-- The latest status of a node is that of the last event pushed for it. -/
theorem latest_push (l : RunLog) (e : RunEvent) :
    (l.push e).latest = l.latest.insert e.node e.status := by
  simp [latest, push]

theorem terminalCount_push (l : RunLog) (e : RunEvent) :
    (l.push e).terminalCount = l.terminalCount + if e.status.isTerminal then 1 else 0 := by
  by_cases h : e.status.isTerminal = true <;> simp [terminalCount, push, h]

end RunLog

end ProcessChart
