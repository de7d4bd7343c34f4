import TemplateStyler.Fault
import TemplateStyler.State.Basic

/-!
# Marks

Marks remember states at byte positions of a text, at most one at each position.

* `get?` is the view of marks; each operation has its equation with it (`get?_insert`,
  `get?_below`).
* `nearest?` finds the last mark at or before a position.
-/

namespace TemplateStyler

/-- States at byte positions. -/
structure Marks where
  entries : List (Nat × State) := []
  deriving DecidableEq, Repr, Inhabited

namespace Marks

/-- The state at a position, where one is marked. -/
def get? (m : Marks) (pos : Nat) : Option State := m.entries.lookup pos

/-- The marks with a state at a position, in place of the one that was there. -/
def insert (m : Marks) (pos : Nat) (s : State) : Marks :=
  ⟨(pos, s) :: m.entries.filter (·.1 != pos)⟩

/-- The marks before a position. -/
def below (m : Marks) (pos : Nat) : Marks := ⟨m.entries.filter (·.1 < pos)⟩

/-- The last mark at or before a position. -/
def nearest? (m : Marks) (pos : Nat) : Option (Nat × State) :=
  (m.entries.filter (·.1 ≤ pos)).foldl
    (fun best entry => match best with
      | some b => if b.1 < entry.1 then some entry else some b
      | none => some entry)
    none

/-- The marks after the text between two positions was replaced: those in the replaced part are
dropped, those after it move with the text. -/
def shift (m : Marks) (start stop inserted : Nat) : Except Fault Marks :=
  let moved := (m.entries.filter (stop ≤ ·.1)).map fun e => (start + inserted + (e.1 - stop), e.2)
  if moved.all (·.1 < Size.bound) then .ok ⟨m.entries.filter (·.1 < start) ++ moved⟩
  else .error .tooLarge

theorem lookup_filter (p : Nat → Bool) (pos : Nat) (entries : List (Nat × State)) :
    (entries.filter fun e => p e.1).lookup pos = if p pos then entries.lookup pos else none := by
  induction entries with
  | nil => simp
  | cons e es ih =>
    obtain ⟨k, v⟩ := e
    by_cases hk : pos = k
    · subst hk
      by_cases hp : p pos
      · simp [hp]
      · simpa [hp] using ih
    · have hb : (pos == k) = false := by simpa using hk
      by_cases hp : p k
      · simp [hp, List.lookup_cons, hb, ih]
      · simp [hp, List.lookup_cons, hb, ih]

@[simp] theorem get?_insert (m : Marks) (pos pos' : Nat) (s : State) :
    (m.insert pos s).get? pos' = if pos' = pos then some s else m.get? pos' := by
  by_cases h : pos' = pos
  · simp [get?, insert, h]
  · have hb : (pos' == pos) = false := by simpa using h
    simp [get?, insert, List.lookup_cons, hb, h, lookup_filter (· != pos)]

@[simp] theorem get?_below (m : Marks) (pos pos' : Nat) :
    (m.below pos).get? pos' = if pos' < pos then m.get? pos' else none := by
  simpa [get?, below] using lookup_filter (fun k => decide (k < pos)) pos' m.entries

end Marks

end TemplateStyler
