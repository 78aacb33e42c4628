import IdlBinder.Name.Casing
import IdlBinder.Files.Path

set_option autoImplicit false

/-!
# Settings

What a generation run may choose: namespaces, file names and places, and the casing of identifiers.
-/

namespace IdlBinder

/-- The settings of a generation run. -/
structure Settings where
  /-- The C++ namespace of the native types; empty for none. -/
  nativeNamespace : String := "bridge"
  /-- The namespace of the projected types, with dots; empty for none. -/
  componentNamespace : String := "Bridge"
  /-- The C++ namespace of the conversion library. -/
  supportNamespace : String := "bridge_support"
  /-- The header of the conversion library. -/
  supportInclude : String := "bridge_support/Marshal.hpp"
  /-- What stands in front of a generated header in an include line. -/
  includePrefix : String := ""
  headerExt : String := "hpp"
  sourceExt : String := "cpp"
  /-- Where headers go, below the output directory. -/
  headerDir : Path := ⟨"include"⟩
  /-- Where sources go, below the output directory. -/
  sourceDir : Path := ⟨"src"⟩
  /-- Whether enums get a hash function of their own. -/
  hashEnums : Bool := true
  /-- The word that marks the generated part of a record finished by hand. -/
  extSuffix : String := "base"
  nativeStyles : Styles := Styles.native
  componentStyles : Styles := Styles.component

end IdlBinder
