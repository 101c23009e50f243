namespace Chip8

/-!
# Dialects

Machines disagree about a few instructions.  A dialect says for each point of disagreement
whether the less common reading is taken; by default none is.

* `Variation.ofName?` — the point of disagreement that a name stands for.
* `Dialect.has`, `Dialect.set` — one point of a dialect.
-/

/-- How a machine reads the instructions that machines disagree about. -/
structure Dialect where
  /-- A shift takes its operand from the second register instead of the first. -/
  shiftReadsSecond : Bool := false
  /-- An offset jump adds the register that its second digit names instead of `V0`. -/
  jumpReadsNamed : Bool := false
  /-- Storing and loading registers moves the index register past the bytes. -/
  transferMovesIndex : Bool := false
  deriving Repr, DecidableEq, Inhabited

/-- A point on which machines disagree. -/
inductive Variation where
  | shift | jump | transfer
  deriving Repr, DecidableEq, Inhabited

namespace Variation

/-- All points, in the order in which they are shown. -/
def all : List Variation := [shift, jump, transfer]

/-- The name of a point. -/
def name : Variation → String
  | shift => "shift"
  | jump => "jump"
  | transfer => "loadstore"

/-- The point with a name. -/
def ofName? (text : String) : Option Variation := all.find? fun v => v.name == text

@[simp] theorem ofName?_name (v : Variation) : ofName? v.name = some v := by
  cases v <;> decide

/-- The point with a name has that name. -/
theorem name_of_ofName? {text : String} {v : Variation} (h : ofName? text = some v) :
    v.name = text := by
  have same := List.find?_some (p := fun v : Variation => v.name == text) h
  exact beq_iff_eq.mp same

end Variation

namespace Dialect

/-- Whether the less common reading is taken on a point. -/
def has (d : Dialect) : Variation → Bool
  | .shift => d.shiftReadsSecond
  | .jump => d.jumpReadsNamed
  | .transfer => d.transferMovesIndex

/-- The dialect with one point decided anew. -/
def set (d : Dialect) (v : Variation) (taken : Bool) : Dialect :=
  match v with
  | .shift => { d with shiftReadsSecond := taken }
  | .jump => { d with jumpReadsNamed := taken }
  | .transfer => { d with transferMovesIndex := taken }

/-- The dialect with the less common reading on a point. -/
def enable (d : Dialect) (v : Variation) : Dialect := d.set v true

/-- The dialect with the other reading on a point. -/
def toggle (d : Dialect) (v : Variation) : Dialect := d.set v (!d.has v)

theorem has_set (d : Dialect) (v w : Variation) (taken : Bool) :
    (d.set v taken).has w = if v = w then taken else d.has w := by
  cases v <;> cases w <;> rfl

/-- Points may be enabled in either order. -/
theorem enable_comm (d : Dialect) (v w : Variation) :
    (d.enable v).enable w = (d.enable w).enable v := by
  cases v <;> cases w <;> rfl

end Dialect

end Chip8
