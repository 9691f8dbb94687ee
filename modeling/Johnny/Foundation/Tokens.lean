import Mathlib.Data.List.Basic
import Johnny.Foundation.Values

/-!
# Comparing tokens

A text is a list of code points here, so that lone surrogates are texts too. Two texts are
compared in constant time only where both are ASCII.
-/
namespace Johnny

abbrev PyText := List ℕ

def points (s : String) : PyText := s.toList.map Char.toNat

theorem points_injective : Function.Injective points := fun _ _ same =>
  String.toList_inj.mp (List.map_injective_iff.mpr (fun _ _ => Char.toNat_inj.mp) same)

def PyText.isAscii (t : PyText) : Bool := t.all fun c => c < 128

def nonAsciiError : Failure := .exception (.other "TypeError")
  "comparing strings with non-ASCII characters is not supported"

/-- `secrets.compare_digest`, of two texts. -/
def compareDigest (a b : PyText) : Except Failure Bool :=
  if a.isAscii && b.isAscii then .ok (a == b) else .error nonAsciiError

/-- The comparison answers exactly on ASCII texts, and then rightly. -/
theorem compareDigest_ok_iff {a b : PyText} {answer : Bool} :
    compareDigest a b = .ok answer ↔ (a.isAscii ∧ b.isAscii) ∧ answer = (a == b) := by
  unfold compareDigest
  by_cases ascii : a.isAscii ∧ b.isAscii
  · simp [ascii, eq_comm]
  · have refused : (a.isAscii && b.isAscii) = false := by simpa using ascii
    simp [refused, ascii]

/-- Whether a token opens the gate: a blank one is no gate. -/
def opens (expected presented : PyText) : Bool := expected == [] || presented == expected

/-- `if not expected: return True; return compare_digest(presented, expected)`. -/
def tokenGate (expected presented : PyText) : Except Failure Bool :=
  if expected = [] then .ok true else compareDigest presented expected

/-- A gate decides exactly where it is blank or both tokens are ASCII. -/
theorem tokenGate_iff {expected presented : PyText} :
    tokenGate expected presented = .ok (opens expected presented) ↔
      expected = [] ∨ presented.isAscii ∧ expected.isAscii := by
  unfold tokenGate opens
  by_cases blank : expected = []
  · simp [blank]
  · rw [if_neg blank, compareDigest_ok_iff]
    simp [blank]

end Johnny
