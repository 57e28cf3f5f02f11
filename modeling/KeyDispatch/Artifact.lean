import KeyDispatch.Artifact.CppHeader
import KeyDispatch.Artifact.RustModule

/-!
# Artifacts

The generated file comes in two formats. An `Artifact` is a format with its open names filled in,
and `Artifact.render` writes a decision table in it.
-/

namespace KeyDispatch

/-- Formats of the generated file. -/
inductive OutputFormat where
  | rustModule
  | cppHeader
deriving DecidableEq

namespace OutputFormat

/-- The formats. -/
def all : List OutputFormat := [rustModule, cppHeader]

/-- The format where none is asked for. -/
def standard : OutputFormat := rustModule

/-- Name of the format. -/
def name : OutputFormat → String
  | rustModule => "rust"
  | cppHeader => "cpp-header"

/-- The format of a given name. -/
def ofName? (text : String) : Option OutputFormat := all.find? fun f => f.name == text

/-- Name of the generated file where none is given. -/
def fileName : OutputFormat → String
  | rustModule => "qtkey_to_keysym.rs"
  | cppHeader => "orv_qtkey_to_xkeysym.h"

/-- A name stands for the one format that has it. -/
theorem ofName?_eq_some_iff {text : String} {f : OutputFormat} :
    ofName? text = some f ↔ f.name = text := by
  constructor
  · intro h
    have hfound : (all.find? fun f => f.name == text) = some f := h
    have hname := List.find?_some hfound
    exact beq_iff_eq.1 hname
  · rintro rfl
    cases f <;> decide

end OutputFormat

/-- A format with the names that it leaves open. -/
inductive Artifact where
  | rustModule (m : RustModule)
  | cppHeader (h : CppHeader)
deriving DecidableEq

namespace Artifact

/-- The artifact of a format, with the function's name if one is given. -/
def ofFormat (format : OutputFormat) (functionName : Option String) : Artifact :=
  match format with
  | .rustModule => .rustModule ⟨functionName.getD RustModule.standard.functionName⟩
  | .cppHeader =>
    .cppHeader { CppHeader.standard with
      functionName := functionName.getD CppHeader.standard.functionName }

/-- The generated text for a table. -/
def render : Artifact → DecisionTable → String
  | rustModule m, t => m.render t
  | cppHeader h, t => h.render t

end Artifact

end KeyDispatch
