/-!
Whole numbers in decimal: the digits without leading zeros, and a minus sign
before the digits of a negative number.
-/
namespace ProcessChart.Decimal

def digitChar (d : Nat) : Char := Char.ofNat (48 + d % 10)

def digits (n : Nat) : List Char :=
  if n < 10 then [digitChar n] else digits (n / 10) ++ [digitChar n]
termination_by n

def integer : Int → List Char
  | .ofNat n => digits n
  | .negSucc n => '-' :: digits (n + 1)

def isDigit (c : Char) : Bool := '0' ≤ c && c ≤ '9'

def digitValue (c : Char) : Nat := c.toNat - 48

/-- The number that a list of digits writes; the empty list writes zero. -/
def value (ds : List Char) : Nat := ds.foldl (fun n c => 10 * n + digitValue c) 0

def natText (n : Nat) : String := String.ofList (digits n)

def intText (i : Int) : String := String.ofList (integer i)

/-- The value of a hexadecimal digit of either case. -/
def hexDigit? (c : Char) : Option Nat :=
  if '0' ≤ c && c ≤ '9' then some (c.toNat - 48)
  else if 'a' ≤ c && c ≤ 'f' then some (c.toNat - 87)
  else if 'A' ≤ c && c ≤ 'F' then some (c.toNat - 55)
  else none

/-- The number written in hexadecimal digits; there must be a digit. -/
def hex? : List Char → Option Nat
  | [] => none
  | cs => cs.foldlM (fun n c => (hexDigit? c).map (16 * n + ·)) 0

def hexChar (d : Nat) : Char :=
  if d % 16 < 10 then Char.ofNat (48 + d % 16) else Char.ofNat (87 + d % 16)

/-- Lower case hexadecimal digits without leading zeros. -/
def hexDigits (n : Nat) : List Char :=
  if n < 16 then [hexChar n] else hexDigits (n / 16) ++ [hexChar n]
termination_by n

theorem digits_ne_nil (n : Nat) : digits n ≠ [] := by
  rw [digits]
  split <;> simp

theorem value_append_digit (ds : List Char) (n : Nat) :
    value (ds ++ [digitChar n]) = 10 * value ds + n % 10 := by
  have h : ∀ d < 10, digitValue (Char.ofNat (48 + d)) = d := by decide
  simp [value, digitChar, h (n % 10) (Nat.mod_lt _ (by decide))]

theorem value_digits (n : Nat) : value (digits n) = n := by
  induction n using Nat.strongRecOn with
  | _ n ih =>
    rw [digits]
    split
    · have h := value_append_digit [] n
      simp [value] at h ⊢
      omega
    · rw [value_append_digit, ih (n / 10) (by omega)]
      omega

end ProcessChart.Decimal
