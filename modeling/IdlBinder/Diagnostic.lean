import IdlBinder.Idl.Document
import IdlBinder.Files.Path

set_option autoImplicit false

/-!
# Diagnostics

The reasons for which a document cannot be generated from, each with a message, a code and, for
some, advice.
-/

namespace IdlBinder

/-- The constant that a diagnostic is about. -/
structure ConstSite where
  owner : String
  name : String
deriving DecidableEq

/-- A reason not to generate. -/
inductive Diagnostic where
  | duplicateDecl (name : String)
  | unresolvedType (owner name : String) (kind : Kind)
  | arity (owner : String) (type : TypeExpr) (expected found : Nat)
  | unknownTypeParam (owner param : String)
  | constKind (site : ConstSite) (type : TypeExpr) (found : Literal.Form)
  | unsupportedConstType (site : ConstSite) (type : TypeExpr)
  | missingField (site : ConstSite) (record field : String)
  | unknownField (site : ConstSite) (record field : String)
  | unknownEnumOption (site : ConstSite) (enumeration option : String)
  | forwardConstRef (site : ConstSite) (target : String)
  | unknownConstRef (site : ConstSite) (target : String)
  | constRefType (site : ConstSite) (type : TypeExpr) (target : String) (targetType : TypeExpr)
  | nonFiniteFloat (site : ConstSite)
  | duplicateArtifact (first second : String) (path : Path)
deriving DecidableEq

/-- A text in single quotes. -/
def quote (s : String) : String := "'" ++ s ++ "'"

namespace ConstSite

/-- How messages name a constant. -/
def text (site : ConstSite) : String := "constant " ++ quote (site.owner ++ "." ++ site.name)

end ConstSite

namespace Diagnostic

/-- What went wrong. -/
def message : Diagnostic → String
  | duplicateDecl name => "declaration " ++ quote name ++ " is defined more than once"
  | unresolvedType owner name kind =>
    quote owner ++ " references unknown " ++ kind.name ++ " " ++ quote name
  | arity owner type expected found =>
    quote owner ++ ": type " ++ quote type.text ++ " takes " ++ toString expected ++
      " type argument(s), found " ++ toString found
  | unknownTypeParam owner param =>
    quote owner ++ " uses type parameter " ++ quote param ++
      " outside of a generic interface that declares it"
  | constKind site type found =>
    site.text ++ " of type " ++ quote type.text ++ " cannot hold a " ++ found.name
  | unsupportedConstType site type =>
    site.text ++ " has type " ++ quote type.text ++ ", which has no literal form"
  | missingField site record field =>
    site.text ++ " is missing field " ++ quote field ++ " of record " ++ quote record
  | unknownField site record field =>
    site.text ++ " sets field " ++ quote field ++ ", which record " ++ quote record ++
      " does not declare"
  | unknownEnumOption site enumeration option =>
    site.text ++ " names option " ++ quote option ++ ", which enum " ++ quote enumeration ++
      " does not declare"
  | forwardConstRef site target =>
    site.text ++ " refers to " ++ quote target ++ ", which is declared after it"
  | unknownConstRef site target =>
    site.text ++ " refers to unknown constant " ++ quote target
  | constRefType site type target targetType =>
    site.text ++ " of type " ++ quote type.text ++ " refers to " ++ quote target ++ " of type " ++
      quote targetType.text
  | nonFiniteFloat site => site.text ++ " is not a finite number"
  | duplicateArtifact first second path =>
    "declarations " ++ quote first ++ " and " ++ quote second ++ " both generate " ++
      quote path.text

/-- A stable name for the reason. -/
def code : Diagnostic → String
  | duplicateDecl _ => "bridgegen::duplicate_decl"
  | unresolvedType _ _ _ => "bridgegen::unresolved_type"
  | arity _ _ _ _ => "bridgegen::arity"
  | unknownTypeParam _ _ => "bridgegen::unknown_type_param"
  | constKind _ _ _ => "bridgegen::const_kind"
  | unsupportedConstType _ _ => "bridgegen::unsupported_const_type"
  | missingField _ _ _ => "bridgegen::missing_field"
  | unknownField _ _ _ => "bridgegen::unknown_field"
  | unknownEnumOption _ _ _ => "bridgegen::unknown_enum_option"
  | forwardConstRef _ _ => "bridgegen::forward_const_ref"
  | unknownConstRef _ _ => "bridgegen::unknown_const_ref"
  | constRefType _ _ _ _ => "bridgegen::const_ref_type"
  | nonFiniteFloat _ => "bridgegen::non_finite_float"
  | duplicateArtifact _ _ _ => "bridgegen::duplicate_artifact"

/-- What to do about it. -/
def help? : Diagnostic → Option String
  | duplicateDecl _ => some "rename one of the declarations"
  | unresolvedType _ _ _ =>
    some ("the resolver must emit a declaration for every referenced type, with a matching " ++
      "kind")
  | constKind _ _ _ => some "the literal kind must match the declared type"
  | unsupportedConstType _ _ =>
    some "constants may be booleans, numbers, strings, enums, optionals, or records of those"
  | forwardConstRef site target =>
    some ("move " ++ quote target ++ " above " ++ quote site.name ++
      "; constants may only refer to earlier constants of the same type")
  | nonFiniteFloat _ => some "NaN and infinities have no portable literal"
  | duplicateArtifact _ _ _ => some "rename one declaration or change the extension suffix"
  | arity _ _ _ _ | unknownTypeParam _ _ | missingField _ _ _ | unknownField _ _ _
  | unknownEnumOption _ _ _ | unknownConstRef _ _ | constRefType _ _ _ _ => none

end Diagnostic

end IdlBinder
