import ObjectLayout.AttributeType.Basic

/-!
# Methods

A method as a class declares it: a name, the types of its parameters and of its result if they are
stated, and the symbol of its compiled body if it is not the default one.
-/

set_option autoImplicit false

namespace ObjectLayout

/-- The types of the parameters of a method, without the receiver, and of its result. -/
structure MethodSignature where
  params : List AttributeType
  returns : AttributeType
deriving DecidableEq, Hashable, Repr

namespace MethodSignature

/-- The number of parameters. -/
def arity (s : MethodSignature) : Nat := s.params.length

/-- The signature in words: the parameters in parentheses, and the result after an arrow. -/
def text (s : MethodSignature) : String :=
  "(" ++ AttributeType.joinTexts ", " s.params ++ ") -> " ++ s.returns.text

instance : ToString MethodSignature where
  toString := text

/-- An override fits a slot when its signature is the very signature of the slot. -/
def IsCompatible (s t : MethodSignature) : Prop := s = t

instance (s t : MethodSignature) : Decidable (s.IsCompatible t) :=
  inferInstanceAs (Decidable (s = t))

end MethodSignature

/-- A method as a class declares it. -/
structure MethodDecl where
  name : String
  /-- The types of its parameters and its result, if stated. -/
  signature : Option MethodSignature := none
  /-- The symbol of the compiled body, if it is not the default one. -/
  implementation : Option String := none
deriving DecidableEq, Hashable, Repr

/-- The symbol of the body in a class: the declared one, or else the class and the name of the
method joined by a dot. -/
def MethodDecl.symbolIn (method : MethodDecl) (cls : ClassId) : String :=
  method.implementation.getD (cls.text ++ "." ++ method.name)

end ObjectLayout
