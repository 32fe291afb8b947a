/-!
Waits, in milliseconds. A wait lasts as long as it is said to, but none lasts
longer than thirty years of 365 days.
-/
namespace ProcessChart

def longestWait : Nat := 946080000000

/-- How long a wait of this length lasts. -/
def lasting (wait : Nat) : Nat := min wait longestWait

theorem lasting_le (wait : Nat) : lasting wait ≤ longestWait := Nat.min_le_right _ _

theorem lasting_of_le {wait : Nat} (h : wait ≤ longestWait) : lasting wait = wait :=
  Nat.min_eq_left h

end ProcessChart
