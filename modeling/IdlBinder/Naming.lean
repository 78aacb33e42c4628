import IdlBinder.Settings
import IdlBinder.Idl.Document

set_option autoImplicit false

/-!
# Names of generated things

Every generated name is an identifier of the document, with suffix words where they apply, in the
style that the settings choose for it. Names of members are kept apart from the reserved words of
C++: such a name gets an underscore.
-/

namespace IdlBinder.Name

/-- The keywords of C++17 and its alternative operator names. -/
def keywords : List String := [
  "alignas", "alignof", "and", "and_eq", "asm", "auto", "bitand", "bitor", "bool", "break", "case",
  "catch", "char", "char16_t", "char32_t", "class", "compl", "const", "constexpr", "const_cast",
  "continue", "decltype", "default", "delete", "do", "double", "dynamic_cast", "else", "enum",
  "explicit", "export", "extern", "false", "float", "for", "friend", "goto", "if", "inline", "int",
  "long", "mutable", "namespace", "new", "noexcept", "not", "not_eq", "nullptr", "operator", "or",
  "or_eq", "private", "protected", "public", "register", "reinterpret_cast", "return", "short",
  "signed", "sizeof", "static", "static_assert", "static_cast", "struct", "switch", "template",
  "this", "thread_local", "throw", "true", "try", "typedef", "typeid", "typename", "union",
  "unsigned", "using", "virtual", "void", "volatile", "wchar_t", "while", "xor", "xor_eq"]

/-- Whether a name is reserved. -/
def isKeyword (name : String) : Bool := keywords.contains name

/-- A reserved word with an underscore after it; any other name as it is. -/
def escapeKeyword (name : String) : String :=
  if isKeyword name then name ++ "_" else name

end IdlBinder.Name

namespace IdlBinder.Settings

open IdlBinder.Name

variable (s : Settings)

/-! ## The native side -/

/-- The name of a type. -/
def nativeType (name : String) : String := s.nativeStyles.type.apply name

/-- A name inside the native namespace, from the global one. -/
def qualify (name : String) : String :=
  if s.nativeNamespace.isEmpty then "::" ++ name
  else "::" ++ s.nativeNamespace ++ "::" ++ name

/-- The qualified name of a type. -/
def nativeQualified (name : String) : String := s.qualify (s.nativeType name)

/-- The identifier of a record's generated part on the native side. -/
def recordBase (name : String) (ext : Extension) : String :=
  if ext.native then name ++ "_" ++ s.extSuffix else name

/-- The identifier of a record's bridge. -/
def bridgeBase (name : String) (ext : Extension) : String :=
  if ext.any then name ++ "_" ++ s.extSuffix ++ "_bridge" else name ++ "_bridge"

/-- The name of the struct generated for a record. -/
def structName (name : String) (ext : Extension) : String :=
  s.nativeStyles.type.apply (s.recordBase name ext)

/-- The name of the bridge generated for a record. -/
def bridgeName (name : String) (ext : Extension) : String :=
  s.nativeStyles.type.apply (s.bridgeBase name ext)

/-- The name of a field. -/
def nativeField (name : String) : String := escapeKeyword (s.nativeStyles.field.apply name)

/-- The name of a method. -/
def nativeMethod (name : String) : String := escapeKeyword (s.nativeStyles.method.apply name)

/-- The name of a parameter. -/
def nativeLocal (name : String) : String := escapeKeyword (s.nativeStyles.localName.apply name)

/-- The name of a constant. -/
def nativeConst (name : String) : String := escapeKeyword (s.nativeStyles.constant.apply name)

/-- The name of an enumerator. -/
def nativeEnumOption (name : String) : String :=
  escapeKeyword (s.nativeStyles.enumOption.apply name)

/-- The name of a type parameter. -/
def nativeTypeParam (name : String) : String := s.nativeStyles.typeParam.apply name

/-! ## The component side -/

/-- The namespace of the projected types, spelled in C++. -/
def projectedNamespace : String :=
  String.ofList (s.componentNamespace.toList.flatMap fun c => if c = '.' then [':', ':'] else [c])

/-- The qualified name of a projected type. -/
def componentQualified (name : String) : String :=
  let type := s.componentStyles.type.apply name
  if s.componentNamespace.isEmpty then "winrt::" ++ type
  else "winrt::" ++ s.projectedNamespace ++ "::" ++ type

/-- The header that holds the projected types. -/
def projectionHeader : String :=
  if s.componentNamespace.isEmpty then "<winrt/base.h>"
  else "<winrt/" ++ s.componentNamespace ++ ".h>"

/-- The name of a projected property. -/
def componentField (name : String) : String := s.componentStyles.field.apply name

/-- The qualified name of a type of the conversion library. -/
def supportType (name : String) : String := "::" ++ s.supportNamespace ++ "::" ++ name

/-! ## Files -/

/-- The file name of a declaration, without extension. -/
def fileStem (name : String) : String := s.nativeStyles.file.apply name

/-- The file name of a record's generated part. -/
def recordFileStem (name : String) (ext : Extension) : String :=
  s.nativeStyles.file.apply (s.recordBase name ext)

/-- The file name of a record's bridge. -/
def bridgeFileStem (name : String) (ext : Extension) : String :=
  s.nativeStyles.file.apply (s.bridgeBase name ext)

/-- The place of a header. -/
def headerPath (stem : String) : Path := s.headerDir.join ⟨stem ++ "." ++ s.headerExt⟩

/-- The place of a source. -/
def sourcePath (stem : String) : Path := s.sourceDir.join ⟨stem ++ "." ++ s.sourceExt⟩

/-- A generated header in an include line. -/
def includeTarget (stem : String) : String :=
  "\"" ++ s.includePrefix ++ stem ++ "." ++ s.headerExt ++ "\""

/-- The header of the conversion library in an include line. -/
def supportTarget : String := "\"" ++ s.supportInclude ++ "\""

end IdlBinder.Settings
