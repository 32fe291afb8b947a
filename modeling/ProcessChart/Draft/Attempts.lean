import ProcessChart.Draft.Chain
import ProcessChart.Draft.Report
import ProcessChart.Draft.Settings
import ProcessChart.ProcessGraph.Reading
import ProcessChart.Wait

/-!
Drafting with retries. A provider answers one call after the other, each with a
process or an error; it is called until it gives a process or no retry is left,
with a wait after every failure that is repeated, each twice as long as the last.
-/
namespace ProcessChart

inductive DraftError where
  | request (message : String)
  | unusable (error : ReadingError)

def DraftError.message : DraftError → String
  | request message => "generator request failed: " ++ message
  | unusable error => "generator returned an unusable document: " ++ error.message

/-- The process in a reply of free text. -/
def ProcessGraph.ofReply (reply : String) : Except DraftError ProcessGraph :=
  (ProcessGraph.ofText reply).mapError .unusable

structure Provider where
  name : String
  /-- How long every call waits for its answer, in milliseconds. -/
  callTime : Nat
  answer : Nat → Except DraftError ProcessGraph

/-- The provider that drafts from the description alone and never fails. -/
def Provider.offline (prompt : String) : Provider where
  name := "mock"
  callTime := 0
  answer _ := .ok (Draft.ofPrompt prompt)

structure Attempts where
  calls : Nat
  elapsed : Nat
  result : Except DraftError ProcessGraph

namespace Provider

/-- Calls from number `call` on; `wait` is the wait before the next retry. -/
def attemptsFrom (p : Provider) (call wait : Nat) : Nat → Attempts
  | 0 => ⟨1, lasting p.callTime, p.answer call⟩
  | retries + 1 =>
    match p.answer call with
    | .ok process => ⟨1, lasting p.callTime, .ok process⟩
    | .error _ =>
      let later := p.attemptsFrom (call + 1) (2 * wait) retries
      ⟨later.calls + 1, lasting p.callTime + lasting wait + later.elapsed, later.result⟩

def attempts (p : Provider) (s : DraftSettings) : Attempts := p.attemptsFrom 0 s.backoff s.retries

end Provider

/-- The error is that of the last call. -/
def Attempts.report (a : Attempts) (provider : String) : DraftReport :=
  match a.result with
  | .ok _ => ⟨provider, true, a.calls, a.elapsed, none⟩
  | .error e => ⟨provider, false, a.calls, a.elapsed, some e.message⟩

end ProcessChart
