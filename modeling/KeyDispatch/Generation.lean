import KeyDispatch.Artifact
import KeyDispatch.Resolver

/-!
# Generation

From the texts of the three headers to the generated text: `buildTable` reads the headers and
resolves every key, `generate` renders the table.
-/

namespace KeyDispatch

/-- Full texts of the headers. -/
structure SourceTexts where
  keysymdef : String
  vendor : String
  toolkit : String
deriving DecidableEq

/-- Why generation fails. -/
inductive GenerateError where
  | header (e : HeaderError)
  | resolve (e : ResolveError)
  | render
deriving DecidableEq

namespace GenerateError

/-- Wording of the error. -/
def message : GenerateError → String
  | header e => e.message
  | resolve e => e.message
  | render => "failed to render output: an error occurred when formatting an argument"

end GenerateError

/-- A decision table and the text generated from it. -/
structure Generated where
  table : DecisionTable
  output : String

/-- The decision table of three headers. -/
def buildTable (sources : SourceTexts) (overrides : Overrides) :
    Logged GenerateError DecisionTable := do
  let primary ← (PrimaryTable.ofText sources.keysymdef).mapError .header
  let vendor ← (VendorTable.ofText sources.vendor).mapError .header
  let toolkit ← (ToolkitTable.ofText sources.toolkit).mapError .header
  (Resolver.resolve ⟨primary, vendor, overrides⟩ toolkit).mapError .resolve

/-- The decision table of three headers and its rendering. -/
def generate (sources : SourceTexts) (overrides : Overrides) (artifact : Artifact) :
    Logged GenerateError Generated := do
  let table ← buildTable sources overrides
  return ⟨table, artifact.render table⟩

end KeyDispatch
