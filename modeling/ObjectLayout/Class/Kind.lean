/-!
# Kinds of extension types

The two kinds of extension types are laid out alike. They differ in how a body is chosen for a call.
-/

set_option autoImplicit false

namespace ObjectLayout

/-- When the body of a method is chosen. -/
inductive LookupPolicy where
  /-- Once, for one fixed list of argument types. -/
  | boundOnce
  /-- For each list of argument types that a call site brings. -/
  | perCallSite
deriving DecidableEq, Repr

/-- The kind of an extension type. -/
inductive ExtensionKind where
  /-- Methods are bound once to a fixed signature. -/
  | staticSignature
  /-- Methods are compiled for the argument types that occur. -/
  | inferredPerCall
deriving DecidableEq, Repr

namespace ExtensionKind

instance : Inhabited ExtensionKind := ⟨staticSignature⟩

/-- When bodies are chosen for methods of a type of this kind. -/
def lookupPolicy : ExtensionKind → LookupPolicy
  | staticSignature => .boundOnce
  | inferredPerCall => .perCallSite

/-- The name of the kind in listings. -/
def label : ExtensionKind → String
  | staticSignature => "StaticExtension"
  | inferredPerCall => "InferredExtension"

instance : ToString ExtensionKind where
  toString := label

end ExtensionKind

end ObjectLayout
