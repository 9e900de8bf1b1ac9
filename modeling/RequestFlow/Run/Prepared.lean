import RequestFlow.Document.Definition
import RequestFlow.Template

/-!
# Prepared requests

A prepared request is a request whose templates have been filled.  Its name, its
protocol and the names of its headers are those of the request.
-/

namespace RequestFlow

/-- A request that is ready to be sent. -/
structure PreparedRequest where
  name : String
  protocol : Protocol
  method : String
  url : String
  headers : Dictionary String
  body : Option String
  deriving DecidableEq

/-- Fills the templates of a request. -/
def Request.prepare (request : Request) (scope : Scope) : PreparedRequest :=
  { name := request.name
    protocol := request.protocol
    method := Template.fill scope request.method
    url := Template.fill scope request.url
    headers := request.headers.mapValues (Template.fill scope)
    body := request.body.map (Template.fill scope) }

end RequestFlow
