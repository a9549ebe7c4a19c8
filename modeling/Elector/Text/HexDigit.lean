/-!
# Hexadecimal digits

The sixteen digits and their values. Both cases are read; lower case is written.
-/

namespace Elector.Text

def hexValue? (c : Char) : Option Nat :=
  if '0' ≤ c ∧ c ≤ '9' then some (c.toNat - '0'.toNat)
  else if 'a' ≤ c ∧ c ≤ 'f' then some (c.toNat - 'a'.toNat + 10)
  else if 'A' ≤ c ∧ c ≤ 'F' then some (c.toNat - 'A'.toNat + 10)
  else none

def hexDigit (n : Nat) : Char := Nat.digitChar n

theorem hexValue?_hexDigit : ∀ n, n < 16 → hexValue? (hexDigit n) = some n := by decide

theorem le_of_hexValue? {c : Char} {v : Nat} (h : hexValue? c = some v) : c ≤ 'f' := by
  rw [hexValue?] at h
  split at h
  next hdigit => exact Char.le_trans hdigit.2 (by decide)
  next =>
    split at h
    next hlower => exact hlower.2
    next =>
      split at h
      next hupper => exact Char.le_trans hupper.2 (by decide)
      next => nomatch h

end Elector.Text
