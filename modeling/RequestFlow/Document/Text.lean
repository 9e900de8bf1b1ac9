import RequestFlow.Document.Json
import RequestFlow.Document.Lines
import RequestFlow.Document.Yaml

/-!
# Texts of documents

A document is read from a text in one of two languages, and then its declarations
are located in the text.
-/

namespace RequestFlow.Document

/-- The language in which a document is written. -/
inductive Language where
  | yaml
  | json
  deriving DecidableEq

namespace Language

/-- The name of a language. -/
def text : Language → String
  | yaml => "YAML"
  | json => "JSON"

/-- What is said of a text that is no document. -/
def complaint (language : Language) : String :=
  s!"invalid {language.text} document"

end Language

/-- The document that a text declares. -/
def read? (language : Language) (text : List Char) : Option Document :=
  match language with
  | .yaml => Yaml.read? text
  | .json => Json.read? text

/-- The document that a text declares, with the lines of its declarations. -/
def parse? (language : Language) (text : String) : Option Document :=
  (read? language text.toList).map fun document => document.annotate text

end RequestFlow.Document
