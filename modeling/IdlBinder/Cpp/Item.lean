import IdlBinder.Cpp.Code
import IdlBinder.Constant.Initializer

set_option autoImplicit false

/-!
# C++ items

The things that generated files define: enums, structs, classes, constants and the functions of a
bridge. An item keeps its parts; `Item.code` lays them out.
-/

namespace IdlBinder.Cpp

/-! ## Templates and constants -/

/-- The type parameters of a class. -/
structure Template where
  params : List String

/-- The line that introduces a template. -/
def Template.text (t : Template) : String :=
  "template <" ++ ", ".intercalate (t.params.map ("typename " ++ ·)) ++ ">"

/-- The line of a template, if there is one. -/
def templateLine (t : Option Template) : List Code := (t.map fun t => Code.line t.text).toList

/-- A constant declared in the body of its owner. -/
structure ConstDecl where
  doc : Doc
  type : String
  name : String

/-- The layout of a constant declaration. -/
def ConstDecl.code (c : ConstDecl) : List Code :=
  [.doc c.doc, .line ("static " ++ c.type ++ " const " ++ c.name ++ ";")]

/-- A constant defined outside the body of its owner. -/
structure ConstDef where
  template : Option Template
  type : String
  owner : String
  name : String
  value : Initializer

/-- The layout of a constant definition. -/
def ConstDef.code (c : ConstDef) : List Code :=
  templateLine c.template ++
    [.line (c.type ++ " const " ++ c.owner ++ "::" ++ c.name ++ " = " ++ c.value.text ++ ";")]

/-! ## Enums -/

/-- An enumerator. -/
structure Enumerator where
  doc : Doc
  name : String

/-- An enum; enumerators are numbered by their position. -/
structure EnumClass where
  doc : Doc
  name : String
  enumerators : List Enumerator

/-- The layout of an enum. -/
def EnumClass.code (e : EnumClass) : List Code :=
  [.doc e.doc, .typeBlock ("enum class " ++ e.name ++ " : int32_t")
    (e.enumerators.flatMap fun o => [.doc o.doc, .line (o.name ++ ",")])]

/-! ## Structs -/

/-- A parameter. -/
structure Param where
  type : String
  name : String

/-- A parameter as it is declared. -/
def Param.text (p : Param) : String := p.type ++ " " ++ p.name

/-- Parameters between parentheses. -/
def paramList (params : List Param) : String :=
  "(" ++ ", ".intercalate (params.map Param.text) ++ ")"

/-- A data member. -/
structure Member where
  doc : Doc
  type : String
  name : String

/-- The initialisation of a member from a parameter. -/
structure MemberInit where
  member : String
  param : String

/-- A struct with a constructor that takes its members in order. -/
structure StructDef where
  doc : Doc
  name : String
  /-- Whether other structs may derive from it. -/
  isBase : Bool
  consts : List ConstDecl
  members : List Member
  ctorParams : List Param
  ctorInits : List MemberInit

namespace StructDef

/-- The line of a member initialisation, after a colon or a comma. -/
def initLine (lead : String) (i : MemberInit) : Code :=
  .line (lead ++ " " ++ i.member ++ "(std::move(" ++ i.param ++ "))")

/-- The lines of the member initialisations. -/
def initLines : List MemberInit → List Code
  | [] => []
  | i :: rest => initLine ":" i :: rest.map (initLine ",")

/-- The layout of the constructor. -/
def ctorCode (d : StructDef) : List Code :=
  .line (d.name ++ paramList d.ctorParams) :: (initLines d.ctorInits ++ [.line "\x7b\x7d"])

/-- The parts of the body, which are set apart by blank lines: constants, members, the constructor
and the destructor that a base needs. -/
def sections (d : StructDef) : List (List Code) :=
  [d.consts.flatMap ConstDecl.code,
    d.members.flatMap fun m => [.doc m.doc, .line (m.type ++ " " ++ m.name ++ ";")],
    if d.members.isEmpty then [] else d.ctorCode,
    if d.isBase then [.line ("virtual ~" ++ d.name ++ "() = default;")] else []]

/-- The layout of a struct. -/
def code (d : StructDef) : List Code :=
  [.doc d.doc, .typeBlock ("struct " ++ d.name ++ if d.isBase then "" else " final")
    (Code.separated (d.sections.filter (!·.isEmpty)))]

end StructDef

/-! ## Classes -/

/-- How a method is called. -/
inductive Dispatch where
  | static
  | virtual
  | virtualConst
deriving DecidableEq

/-- A method declared in a class. -/
structure MethodDecl where
  doc : Doc
  result : String
  name : String
  params : List Param
  dispatch : Dispatch

/-- The line of a method declaration. -/
def MethodDecl.text (m : MethodDecl) : String :=
  let signature := m.result ++ " " ++ m.name ++ paramList m.params
  match m.dispatch with
  | .static => "static " ++ signature ++ ";"
  | .virtual => "virtual " ++ signature ++ " = 0;"
  | .virtualConst => "virtual " ++ signature ++ " const = 0;"

/-- An abstract class. -/
structure ClassDef where
  doc : Doc
  template : Option Template
  name : String
  consts : List ConstDecl
  methods : List MethodDecl

namespace ClassDef

/-- The parts of the body, which are set apart by blank lines. -/
def sections (d : ClassDef) : List (List Code) :=
  [.line ("virtual ~" ++ d.name ++ "() = default;")] ::
    ((if d.consts.isEmpty then [] else [d.consts.flatMap ConstDecl.code]) ++
      d.methods.map fun m => [.doc m.doc, .line m.text])

/-- The layout of a class. -/
def code (d : ClassDef) : List Code :=
  .doc d.doc :: (templateLine d.template ++
    [.typeBlock ("class " ++ d.name)
      ([.dedent, .line "public:", .indent] ++ Code.separated d.sections)])

end ClassDef

/-! ## Bridges -/

/-- The name a bridge has for the native type. -/
def nativeAlias : String := "NativeType"

/-- The name a bridge has for the component type. -/
def componentAlias : String := "ComponentType"

/-- The parameter of the functions of a bridge. -/
def bridgeParam : String := "value"

/-- The struct that declares the functions of a bridge. -/
structure BridgeDecl where
  name : String
  isBase : Bool
  native : String
  component : String

/-- The layout of a bridge declaration. -/
def BridgeDecl.code (d : BridgeDecl) : List Code :=
  [.typeBlock ("struct " ++ d.name ++ if d.isBase then "" else " final")
    [.line ("using " ++ nativeAlias ++ " = " ++ d.native ++ ";"),
      .line ("using " ++ componentAlias ++ " = " ++ d.component ++ ";"),
      .blank,
      .line ("static " ++ nativeAlias ++ " ToNative(" ++ componentAlias ++ " const& " ++
        bridgeParam ++ ");"),
      .line ("static " ++ componentAlias ++ " ToComponent(" ++ nativeAlias ++ " const& " ++
        bridgeParam ++ ");")]]

/-- The head of a function of a bridge. -/
def bridgeHead (bridge result function param : String) : String :=
  bridge ++ "::" ++ result ++ " " ++ bridge ++ "::" ++ function ++ "(" ++ param ++ " const& " ++
    bridgeParam ++ ")"

/-- Lines with an end of their own after the last one. -/
def terminated (between last : String) : List String → List String
  | [] => []
  | [l] => [l ++ last]
  | l :: m :: rest => (l ++ between) :: terminated between last (m :: rest)

/-- The line that keeps an unused parameter from being reported. -/
def unusedParam : Code := .line ("(void)" ++ bridgeParam ++ ";")

/-- The function of a bridge that makes a native value out of its arguments. -/
structure ToNativeDef where
  bridge : String
  args : List String

/-- The layout of the function that makes a native value. -/
def ToNativeDef.code (d : ToNativeDef) : List Code :=
  [.block (bridgeHead d.bridge nativeAlias "ToNative" componentAlias)
    (.line ("assert(" ++ bridgeParam ++ " != nullptr);") ::
      if d.args.isEmpty then [unusedParam, .line ("return " ++ nativeAlias ++ "();")]
      else .line ("return " ++ nativeAlias ++ "(") :: .indent ::
        ((terminated "," ");" d.args).map Code.line ++ [.dedent]))]

/-- The function of a bridge that makes a component instance by a chain of calls. -/
structure ToComponentDef where
  bridge : String
  /-- Whether the native value has something to read. -/
  usesParam : Bool
  chain : List String

/-- The layout of a chain of calls that is returned. -/
def chainCode (chain : List String) : List Code :=
  match terminated "" ";" chain with
  | [] => []
  | l :: rest => .line ("return " ++ l) :: .indent :: (rest.map Code.line ++ [.dedent])

/-- The layout of the function that makes a component instance. -/
def ToComponentDef.code (d : ToComponentDef) : List Code :=
  [.block (bridgeHead d.bridge componentAlias "ToComponent" nativeAlias)
    ((if d.usesParam then [] else [unusedParam]) ++ chainCode d.chain)]

/-! ## Items -/

/-- What a file defines in the native namespace. -/
inductive Item where
  | enumClass (d : EnumClass)
  | struct (d : StructDef)
  | abstractClass (d : ClassDef)
  | const (d : ConstDef)
  | bridge (d : BridgeDecl)
  | toNative (d : ToNativeDef)
  | toComponent (d : ToComponentDef)

/-- The layout of an item. -/
def Item.code : Item → List Code
  | enumClass d => d.code
  | struct d => d.code
  | abstractClass d => d.code
  | const d => d.code
  | bridge d => d.code
  | toNative d => d.code
  | toComponent d => d.code

end IdlBinder.Cpp
