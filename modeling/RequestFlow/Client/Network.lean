import RequestFlow.Run.Prepared
import RequestFlow.Run.Result

/-!
# What goes on the network

Before a request is sent its protocol, its method and its headers are checked, in
this order.  A method and the name of a header are tokens; the value of a header
has no control characters but the tab. Blanks around them do not count.
-/

namespace RequestFlow.Client

/-- What is wrong with a header. -/
inductive HeaderFault where
  | name
  /-- Its value has a control character. -/
  | value
  deriving DecidableEq

/-- The wording of a fault. -/
def HeaderFault.message : HeaderFault → String
  | name => "invalid HTTP header name"
  | value => "failed to parse header value"

/-- Why a request is not sent. -/
inductive Refusal where
  | protocol (protocol : Protocol)
  | method (method : String)
  | header (name : String) (fault : HeaderFault)
  deriving DecidableEq

/-- The wording of a refusal. -/
def Refusal.message : Refusal → String
  | protocol spoken =>
      s!"{spoken.text} requests are not supported by the HTTP client"
  | method written => s!"invalid HTTP method '{written}'"
  | header name fault => s!"invalid header '{name}': {fault.message}"

/-- The marks that a token can have beside letters and digits. -/
def tokenMarks : List Char := "!#$%&'*+-.^_`|~".toList

/-- A character of a token. -/
def isTokenChar (character : Char) : Bool :=
  character.isAlphanum || tokenMarks.contains character

/-- A text is a token. -/
def isToken (text : String) : Bool :=
  !text.isEmpty && text.toList.all isTokenChar

/-- The greatest length of a header's name. -/
def longestHeaderName : Nat := 65535

/-- A character that the value of a header can have: any but controls, the tab
apart. -/
def isHeaderValueChar (character : Char) : Bool :=
  character == '\t' || (32 ≤ character.toNat && character.toNat != 127)

/-- What is wrong with a header. -/
def headerFault? (name value : String) : Option HeaderFault :=
  let name := Text.trimmed name
  if !isToken name || longestHeaderName < name.length then some .name
  else if (Text.trimmed value).toList.all isHeaderValueChar then none
  else some .value

/-- Why a header cannot be written. -/
def headerRefusal? (header : String × String) : Option Refusal :=
  (headerFault? header.1 header.2).map (.header header.1)

/-- Why a request is not sent, if it is not. -/
def refusal? (request : PreparedRequest) : Option Refusal :=
  if request.protocol ≠ .http then some (.protocol request.protocol)
  else if !isToken (Text.trimmed request.method) then some (.method request.method)
  else request.headers.entries.findSome? headerRefusal?

/-- The wording of a failure on the way. -/
def networkFailure (detail : String) : String :=
  s!"network error: {detail}"

/-- The outcome where no connection can be made. -/
def unconnected (request : PreparedRequest) (detail : String) : Outcome :=
  .completed
    (.transportFailure
      (((refusal? request).map Refusal.message).getD (networkFailure detail)))

end RequestFlow.Client
