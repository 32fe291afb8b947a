import ProcessChart.Draft.Attempts
import Mathlib.Algebra.Order.Ring.GeomSum
import Mathlib.Data.ENat.Lattice
import Mathlib.Tactic.Ring

/-!
How often a provider is called, what comes of it and how long it takes. Calls
end with the first process, and at the latest when every retry is used up. As
the wait doubles with every retry, all waits together are one less than a power
of two times the first one, as long as none of them is cut short.
-/

namespace ProcessChart

namespace Provider

/-- The number, counted from one, of the first call that gives a process; it is
infinite when no call does. -/
noncomputable def firstSuccess (p : Provider) : ℕ∞ :=
  sInf {n : ℕ∞ | ∃ i g, p.answer i = .ok g ∧ n = (i + 1 : ℕ)}

theorem firstSuccess_le {p : Provider} {i : Nat} {g : ProcessGraph} (h : p.answer i = .ok g) :
    p.firstSuccess ≤ (i + 1 : ℕ) :=
  sInf_le ⟨i, g, h, rfl⟩

theorem lt_firstSuccess {p : Provider} {n : Nat} (h : ∀ i < n, ∃ e, p.answer i = .error e) :
    (n + 1 : ℕ) ≤ p.firstSuccess := by
  apply le_sInf
  rintro m ⟨i, g, hi, rfl⟩
  have hle : n ≤ i := by
    by_contra hlt
    obtain ⟨e, he⟩ := h i (by omega)
    rw [hi] at he
    cases he
  exact_mod_cast Nat.succ_le_succ hle

end Provider

/-- The calls of a provider from number `call` on: `repeated` of them fail and
are repeated, the first of them after `wait`, and one more call ends them. -/
structure Attempts.Repeat (a : Attempts) (p : Provider) (call wait retries repeated : Nat) :
    Prop where
  calls : a.calls = repeated + 1
  within : repeated ≤ retries
  failed : ∀ i < repeated, ∃ e, p.answer (call + i) = .error e
  result : a.result = p.answer (call + repeated)
  exhausted : repeated = retries ∨ ∃ g, a.result = .ok g
  elapsed : a.elapsed =
    (repeated + 1) * lasting p.callTime + ∑ i ∈ Finset.range repeated, lasting (2 ^ i * wait)

namespace Provider

variable {p : Provider}

theorem repeat_of_last {call wait retries : Nat} {a : Attempts}
    (ha : a = ⟨1, lasting p.callTime, p.answer call⟩)
    (h : 0 = retries ∨ ∃ g, p.answer call = .ok g) :
    a.Repeat p call wait retries 0 := by
  subst ha
  exact {
    calls := rfl
    within := Nat.zero_le retries
    failed := fun i hi => absurd hi (Nat.not_lt_zero i)
    result := rfl
    exhausted := h
    elapsed := by simp }

/-- A failure is followed by the later calls, after a wait. -/
theorem repeat_of_later {call wait retries repeated : Nat} {e : DraftError} {later : Attempts}
    (he : p.answer call = .error e)
    (h : later.Repeat p (call + 1) (2 * wait) retries repeated) :
    Attempts.Repeat
      ⟨later.calls + 1, lasting p.callTime + lasting wait + later.elapsed, later.result⟩
      p call wait (retries + 1) (repeated + 1) where
  calls := congrArg (· + 1) h.calls
  within := Nat.succ_le_succ h.within
  failed := by
    intro i hi
    cases i with
    | zero => exact ⟨e, he⟩
    | succ i =>
      obtain ⟨e', he'⟩ := h.failed i (by omega)
      exact ⟨e', by rwa [Nat.add_right_comm, Nat.add_assoc] at he'⟩
  result := by rw [h.result, Nat.add_right_comm, Nat.add_assoc]
  exhausted := h.exhausted.imp_left (congrArg (· + 1))
  elapsed := by
    have hwaits : ∀ i, 2 ^ i * (2 * wait) = 2 ^ (i + 1) * wait := by
      intro i
      rw [pow_succ, Nat.mul_assoc]
    rw [h.elapsed, Finset.sum_range_succ']
    simp only [hwaits, pow_zero, Nat.one_mul]
    ring

theorem exists_repeat_attemptsFrom (call wait retries : Nat) :
    ∃ repeated, (p.attemptsFrom call wait retries).Repeat p call wait retries repeated := by
  induction retries generalizing call wait with
  | zero => exact ⟨0, repeat_of_last rfl (Or.inl rfl)⟩
  | succ retries ih =>
    cases hanswer : p.answer call with
    | ok g =>
      refine ⟨0, repeat_of_last ?_ (Or.inr ⟨g, hanswer⟩)⟩
      rw [attemptsFrom, hanswer]
    | error e =>
      obtain ⟨repeated, hlater⟩ := ih (call + 1) (2 * wait)
      refine ⟨repeated + 1, ?_⟩
      rw [attemptsFrom, hanswer]
      exact repeat_of_later hanswer hlater

end Provider

namespace Attempts

variable {a : Attempts} {p : Provider} {wait retries repeated : Nat}

/-- The number of calls is that of the first success or that of all calls allowed. -/
theorem Repeat.calls_eq_min (h : a.Repeat p 0 wait retries repeated) :
    (a.calls : ℕ∞) = min p.firstSuccess (retries + 1) := by
  have hbound : ((repeated + 1 : ℕ) : ℕ∞) ≤ retries + 1 := by
    exact_mod_cast Nat.succ_le_succ h.within
  have hfailed : ((repeated + 1 : ℕ) : ℕ∞) ≤ p.firstSuccess :=
    Provider.lt_firstSuccess fun i hi => by simpa using h.failed i hi
  rw [h.calls]
  apply le_antisymm (le_min hfailed hbound)
  rcases h.exhausted with rfl | ⟨g, hg⟩
  · exact min_le_of_right_le (by norm_cast)
  · rw [h.result, Nat.zero_add] at hg
    exact min_le_of_left_le (Provider.firstSuccess_le hg)

/-- With no wait cut short, the doubling waits add up to a closed form. -/
theorem Repeat.elapsed_eq (h : a.Repeat p 0 wait retries repeated)
    (hcall : p.callTime ≤ longestWait) (hwaits : ∀ i < repeated, wait * 2 ^ i ≤ longestWait) :
    a.elapsed = (repeated + 1) * p.callTime + wait * (2 ^ repeated - 1) := by
  have huncut : ∀ i ∈ Finset.range repeated, lasting (2 ^ i * wait) = wait * 2 ^ i := by
    intro i hi
    rw [Nat.mul_comm]
    exact lasting_of_le (hwaits i (Finset.mem_range.mp hi))
  rw [h.elapsed, lasting_of_le hcall, Finset.sum_congr rfl huncut, ← Finset.mul_sum,
    Nat.geomSum_eq (Nat.le_refl 2), Nat.div_one]

theorem report_ok_iff (name : String) :
    (a.report name).ok = true ↔ ∃ g, a.result = .ok g := by
  rw [report]
  cases a.result <;> simp

theorem report_error_iff (name text : String) :
    (a.report name).error = some text ↔ ∃ e, a.result = .error e ∧ e.message = text := by
  rw [report]
  cases a.result <;> simp

theorem report_attempts (name : String) : (a.report name).attempts = a.calls := by
  rw [report]
  cases a.result <;> rfl

theorem report_duration (name : String) : (a.report name).duration = a.elapsed := by
  rw [report]
  cases a.result <;> rfl

end Attempts

namespace Provider

/-- Drafting calls the provider up to its first success, but at most once more
than there are retries, and returns what the last of these calls gave. The
report counts the calls and their waits, and tells the error of the last call
exactly when there is no process. -/
theorem attempts_first_success (p : Provider) (s : DraftSettings)
    (hcall : p.callTime ≤ longestWait)
    (hwaits : ∀ i, i + 1 < (p.attempts s).calls → s.backoff * 2 ^ i ≤ longestWait) :
    ((p.attempts s).calls : ℕ∞) = min p.firstSuccess (s.retries + 1) ∧
    (∃ last, (p.attempts s).calls = last + 1 ∧ (p.attempts s).result = p.answer last ∧
      ∀ i < last, ∃ e, p.answer i = .error e) ∧
    ((∃ e, (p.attempts s).result = .error e) → (p.attempts s).calls = s.retries + 1) ∧
    ((p.attempts s).report p.name).attempts = (p.attempts s).calls ∧
    (((p.attempts s).report p.name).ok = true ↔ ∃ g, (p.attempts s).result = .ok g) ∧
    (∀ text, ((p.attempts s).report p.name).error = some text ↔
      ∃ e, (p.attempts s).result = .error e ∧ e.message = text) ∧
    ((p.attempts s).report p.name).duration =
      (p.attempts s).calls * p.callTime + s.backoff * (2 ^ ((p.attempts s).calls - 1) - 1) := by
  obtain ⟨repeated, h⟩ : ∃ repeated, (p.attempts s).Repeat p 0 s.backoff s.retries repeated :=
    exists_repeat_attemptsFrom 0 s.backoff s.retries
  have hresult : (p.attempts s).result = p.answer repeated := by
    rw [h.result, Nat.zero_add]
  have hfailed : ∀ i < repeated, ∃ e, p.answer i = .error e := by
    intro i hi
    simpa using h.failed i hi
  have hgivesUp : (∃ e, (p.attempts s).result = .error e) →
      (p.attempts s).calls = s.retries + 1 := by
    rintro ⟨e, he⟩
    rcases h.exhausted with hall | ⟨g, hg⟩
    · rw [h.calls, hall]
    · rw [hg] at he
      cases he
  have helapsed : (p.attempts s).elapsed =
      (p.attempts s).calls * p.callTime + s.backoff * (2 ^ ((p.attempts s).calls - 1) - 1) := by
    rw [h.calls] at hwaits ⊢
    exact h.elapsed_eq hcall fun i hi => hwaits i (Nat.succ_lt_succ hi)
  exact ⟨h.calls_eq_min, ⟨repeated, h.calls, hresult, hfailed⟩, hgivesUp,
    Attempts.report_attempts _, Attempts.report_ok_iff _, Attempts.report_error_iff _,
    helapsed ▸ Attempts.report_duration _⟩

/-- Fails twice, then drafts an empty process. -/
def flaky : Provider where
  name := "flaky"
  callTime := 7
  answer call := if call < 2 then .error (.request "status 503") else .ok (.empty "P")

theorem attempts_flaky :
    flaky.callTime ≤ longestWait ∧
    (∀ i, i + 1 < (flaky.attempts .standard).calls →
      DraftSettings.standard.backoff * 2 ^ i ≤ longestWait) ∧
    ((flaky.attempts .standard).calls : ℕ∞) = min flaky.firstSuccess 3 ∧
    ((flaky.attempts .standard).report "flaky").duration = 3 * 7 + 500 * (2 ^ 2 - 1) := by
  have hcall : flaky.callTime ≤ longestWait := by decide
  have hwaits : ∀ i, i + 1 < (flaky.attempts .standard).calls →
      DraftSettings.standard.backoff * 2 ^ i ≤ longestWait := by
    intro i hi
    have hcalls : (flaky.attempts .standard).calls = 3 := rfl
    have hall : ∀ i < 2, DraftSettings.standard.backoff * 2 ^ i ≤ longestWait := by decide
    exact hall i (by omega)
  obtain ⟨hfirst, -, -, -, -, -, hduration⟩ := attempts_first_success flaky .standard hcall hwaits
  exact ⟨hcall, hwaits, hfirst, hduration⟩

end Provider

end ProcessChart
