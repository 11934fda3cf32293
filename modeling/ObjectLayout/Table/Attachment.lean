import ObjectLayout.Error

/-!
# Attachments

A table that is attached to a class while the class is laid out. Until then every operation on it is
refused, with the name of the operation and of the table that is missing.
-/

set_option autoImplicit false

namespace ObjectLayout

/-- The place for a table that may not be there yet. -/
structure Attachment (α : Type) where
  /-- Which table belongs here. -/
  table : TableKind
  /-- The table, once it is attached. -/
  content : Option α := none
deriving DecidableEq, Repr

namespace Attachment

variable {α : Type}

/-- A place where nothing is attached. -/
def empty (table : TableKind) : Attachment α := { table }

/-- Attaches a table, in the place of an earlier one. -/
def set (a : Attachment α) (value : α) : Attachment α := { a with content := some value }

/-- The table, for an operation on behalf of `owner`. -/
def get (a : Attachment α) (owner : ClassId) (operation : String) : Except LayoutError α :=
  match a.content with
  | some value => .ok value
  | none => .error (.uninitializedState owner a.table operation)

end Attachment

end ObjectLayout
