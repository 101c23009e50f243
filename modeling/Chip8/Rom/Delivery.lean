namespace Chip8

/-!
# Deliveries

An open file delivers its content piece by piece, until it ends or reading fails.  How the
content is cut into pieces is up to the outside and must not matter.

* `Delivery.received` — all bytes that came, in order.
* `Delivery.intact` — whether the delivery ended without a failure.
* `Delivery.received_ofContent` — content delivered in pieces of any size comes in whole.
-/

/-- What comes from an open file. -/
inductive Delivery where
  /-- The file has ended. -/
  | ended
  /-- Reading failed, as it does for a directory. -/
  | failed
  /-- Some bytes came, and then more. -/
  | piece (bytes : List UInt8) (rest : Delivery)
  deriving DecidableEq, Repr

namespace Delivery

/-- All bytes that came before the end or the failure. -/
def received : Delivery → List UInt8
  | ended => []
  | failed => []
  | piece bytes rest => bytes ++ rest.received

/-- Whether the file ended without a failure. -/
def intact : Delivery → Bool
  | ended => true
  | failed => false
  | piece _ rest => rest.intact

/-- The delivery of a content in pieces of `size + 1` bytes, the last of which may be
shorter. -/
def ofContent (size : Nat) (content : List UInt8) : Delivery :=
  if content.isEmpty then ended
  else piece (content.take (size + 1)) (ofContent size (content.drop (size + 1)))
termination_by content.length
decreasing_by
  next h =>
    have := List.length_pos_iff.mpr (fun e => h (by simp [e]) : content ≠ [])
    simp only [List.length_drop]
    omega

/-- A content comes in whole, whatever the size of the pieces. -/
@[simp] theorem received_ofContent (size : Nat) (content : List UInt8) :
    (ofContent size content).received = content := by
  fun_induction ofContent size content with
  | case1 content h => simpa [received] using h.symm
  | case2 content h ih => simp [received, ih]

/-- A content comes in without a failure. -/
@[simp] theorem intact_ofContent (size : Nat) (content : List UInt8) :
    (ofContent size content).intact = true := by
  fun_induction ofContent size content with
  | case1 => rfl
  | case2 content h ih => exact ih

end Delivery

end Chip8
