/-
# Reading YAML texts

The tokens of a text write nodes, and the node at the top becomes a document. An
empty text holds nothing.

Key definition: `Document.ofYaml`.
-/
import Questionnaire.Document.Yaml.Filling

namespace Questionnaire.Document

/-- The document that a YAML text holds. -/
def ofYaml (s : String) : Except Fault Document := do
  let (tokens, fault) := Yaml.Token.scan s
  match ← Yaml.Graph.ofTokens tokens fault with
  | (nodes, some top) => (Yaml.Filling.document top).run' (.ofGraph nodes)
  | (_, none) => return .null

end Questionnaire.Document
