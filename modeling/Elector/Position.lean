/-!
# Terms, indices and log positions

The numbers that an election is about, and the order in which logs are compared: the term of the
last entry counts first, its index second.
-/

namespace Elector

abbrev NodeId := Int32

abbrev Term := Int32

abbrev LogIndex := Int64

/-- The term and index of the last entry of a log. -/
structure Position where
  term : Term := 0
  index : LogIndex := 0
deriving DecidableEq, Repr, Inhabited

namespace Position

instance : LE Position where
  le a b := a.term < b.term ∨ a.term = b.term ∧ a.index ≤ b.index

instance (a b : Position) : Decidable (a ≤ b) :=
  inferInstanceAs (Decidable (a.term < b.term ∨ a.term = b.term ∧ a.index ≤ b.index))

theorem le_def {a b : Position} :
    a ≤ b ↔ a.term < b.term ∨ a.term = b.term ∧ a.index ≤ b.index := Iff.rfl

theorem le_refl (a : Position) : a ≤ a := Or.inr ⟨rfl, Int64.le_refl _⟩

theorem le_total (a b : Position) : a ≤ b ∨ b ≤ a := by
  rw [le_def, le_def]
  have h := Int64.le_total a.index b.index
  grind

theorem le_trans {a b c : Position} (hab : a ≤ b) (hbc : b ≤ c) : a ≤ c := by
  rw [le_def] at *
  grind

theorem le_antisymm {a b : Position} (hab : a ≤ b) (hba : b ≤ a) : a = b := by
  rw [le_def] at *
  cases a
  cases b
  simp only [Position.mk.injEq] at *
  grind

def compare (a b : Position) : Ordering :=
  if a = b then .eq else if a ≤ b then .lt else .gt

def sort (ps : List Position) : List Position := ps.mergeSort fun a b => a ≤ b

end Position

end Elector
