import IdlBinder.Check
import IdlBinder.Emit.Interface
import IdlBinder.Emit.Record
import IdlBinder.Marshal.Component
import IdlBinder.Marshal.Native

set_option autoImplicit false

/-!
# Generation

A document is checked as a whole, then every declaration yields its files. Either all files come out
or the first reason why not; no two files have one path.
-/

namespace IdlBinder

/-- A generated file as it is stored. -/
structure Artifact where
  path : Path
  contents : String
deriving DecidableEq

/-- The stored form of a file. -/
def Cpp.SourceFile.artifact (f : Cpp.SourceFile) : Artifact := ⟨f.path, f.text⟩

/-- A file with the declaration it comes from. -/
structure OwnedFile where
  owner : String
  file : Cpp.SourceFile
  /-- The components of its path, by which files are told apart. -/
  place : { c : List Path.Component // c = file.path.components } :=
    ⟨file.path.components, rfl⟩

/-- A file with the declaration it comes from, at its place. -/
def ownedBy (owner : String) (file : Cpp.SourceFile) : OwnedFile :=
  { owner := owner, file := file }

namespace Emitter

/-- The files of a declaration, in order. -/
def declFiles (e : Emitter) (d : Decl) : Except Diagnostic (List Cpp.SourceFile) :=
  match d.body with
  | .enum enum => .ok [e.enumHeader d enum]
  | .record r => e.recordFiles d r
  | .interface i => e.interfaceFiles d i

end Emitter

/-- Adds a file of a declaration, whose path must be new. -/
def addFile (owner : String) (files : List OwnedFile) (file : Cpp.SourceFile) :
    Except Diagnostic (List OwnedFile) :=
  let place := file.path.components
  match files.find? (·.place.val == place) with
  | some first => .error (.duplicateArtifact first.owner owner file.path)
  | none => .ok (files ++ [ownedBy owner file])

namespace Generator

/-- The generator with the standard marshals. -/
def standard (s : Settings) : Generator where
  settings := s
  native := Native.marshal s
  component := Component.marshal s

variable (g : Generator)

/-- The emitter for a document that passes the check. -/
def emitter (doc : Document) : Except Diagnostic Emitter := do
  let registry ← Registry.build doc
  registry.check doc
  return { g with registry := registry, origin := doc.origin }

/-- The files of a document. -/
def files (doc : Document) : Except Diagnostic (List OwnedFile) := do
  let e ← g.emitter doc
  doc.decls.foldlM (fun files d => do (← e.declFiles d).foldlM (addFile d.name) files) []

/-- Generates a document: its artifacts in the order of the declarations. -/
def generate (doc : Document) : Except Diagnostic (List Artifact) :=
  (g.files doc).map (·.map (·.file.artifact))

/-- Generates one declaration against a document, which is checked as a whole. -/
def generateDecl (doc : Document) (d : Decl) : Except Diagnostic (List Artifact) := do
  let e ← g.emitter doc
  return (← e.declFiles d).map (·.artifact)

end Generator

end IdlBinder
