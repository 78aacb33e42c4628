import IdlBinder.Cpp.Item
import IdlBinder.Files.Path

set_option autoImplicit false

/-!
# Source files

A generated file by its parts: what it includes, what it declares ahead, and the items it defines.
A source belongs to a header, which it includes before all else.
-/

namespace IdlBinder.Cpp

/-- A generated file. -/
structure SourceFile where
  path : Path
  /-- The document it is generated from. -/
  origin : String
  /-- The include target of the header that a source belongs to; a header has none. -/
  ownHeader : Option String
  includes : List String
  /-- The namespace of the forward declarations and items. -/
  scope : String
  forwards : List String
  items : List Item
  /-- The qualified name of an enum for which the file defines a hash. -/
  hashed : Option String := none

namespace SourceFile

/-- Everything the file includes, in order. -/
def allIncludes (f : SourceFile) : List String := f.ownHeader.toList ++ f.includes

/-- The banner, and what keeps a header from being read twice or names the header of a source. -/
def preamble (f : SourceFile) : List Code :=
  [.line "// AUTOGENERATED FILE - DO NOT MODIFY!",
    .line ("// This file was generated by bridgegen from " ++ f.origin),
    .blank] ++
  match f.ownHeader with
  | none => [.line "#pragma once"]
  | some target => [.includes [target]]

/-- The include lines. -/
def includeCode (f : SourceFile) : List Code :=
  if f.includes.isEmpty then [] else [.includes f.includes, .blank]

/-- The forward declarations. -/
def forwardCode (f : SourceFile) : List Code :=
  if f.forwards.isEmpty then [] else f.forwards.map Code.line ++ [.blank]

/-- The namespace with the items; a file without items has none. -/
def itemCode (f : SourceFile) : List Code :=
  if f.items.isEmpty then []
  else [.inNamespace f.scope (f.forwardCode ++ Code.separated (f.items.map Item.code))]

/-- A hash for an enum, which stands outside the file's own namespace. -/
def hashCode (f : SourceFile) : List Code :=
  match f.hashed with
  | none => []
  | some type =>
    [.blank, .inNamespace "std" [.line "template <>",
      .typeBlock ("struct hash<" ++ type ++ ">")
        [.block ("size_t operator()(" ++ type ++ " type) const")
          [.line "return std::hash<int32_t>()(static_cast<int32_t>(type));"]]]]

/-- What follows the preamble. -/
def body (f : SourceFile) : List Code := f.includeCode ++ f.itemCode ++ f.hashCode

/-- The layout of a file; nothing follows the preamble of a file without a body. -/
def code (f : SourceFile) : List Code :=
  f.preamble ++ if f.body.isEmpty then [] else .blank :: f.body

/-- The text of a file. -/
def text (f : SourceFile) : String := Code.textOf f.code

end SourceFile

end IdlBinder.Cpp
