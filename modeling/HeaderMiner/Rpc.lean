import HeaderMiner.Base64
import HeaderMiner.Json.Reader
import HeaderMiner.Json.Writer
import HeaderMiner.Url.Url
import HeaderMiner.Work
/-!
# Calls to the node

A call is a JSON object with a method, its parameters and a number that counts the calls of a client
from one, sent over HTTP with the user and the password.  A reply is judged in a fixed order: the
user is not let in, the body is no JSON text, the body reports an error, the status is not 200; only
then is there a result.
-/

namespace HeaderMiner.Rpc

/-! ## requests -/

/-- a call as it is sent -/
structure Call where
  /-- the first line of the request -/
  line : String
  /-- the header that names the user -/
  authorization : String
  id : Nat
  method : String
  params : Json

def Call.body (c : Call) : Json :=
  .ofMembers [("method", .string c.method), ("params", c.params), ("id", .natural c.id)]

/-- who is called, as whom -/
structure Client where
  url : Url
  user : String
  pass : String
  /-- the number of calls so far -/
  calls : Nat := 0

namespace Client

def new (url user pass : String) : Except Error Client :=
  match Url.parse url with
  | .ok u => .ok ⟨u, user, pass, 0⟩
  | .error f => .error (.config ("Invalid RPC URL: " ++ f.message))

/-- the text of a client, which hides the password -/
def shown (c : Client) : String :=
  "RpcClient \x7b url: " ++ Text.quoted c.url.text ++ ", user: " ++ Text.quoted c.user
    ++ ", .. \x7d"

def requestLine (c : Client) : String :=
  let path := c.url.path.text ++ (match c.url.query with
    | some q => "?" ++ q
    | none => "")
  "POST " ++ path ++ " HTTP/1.1"

def authorization (c : Client) : String :=
  "Basic " ++ Base64.encode (Utf8.encode (c.user ++ ":" ++ c.pass))

def call (c : Client) (method : String) (params : Json) : Call × Client :=
  ({ line := c.requestLine, authorization := c.authorization, id := c.calls + 1, method, params },
    { c with calls := c.calls + 1 })

end Client

/-! ## replies -/

structure Reply where
  status : Nat
  /-- the content type, if there is one, without the blanks around it -/
  contentType : Option (List UInt8)
  body : List UInt8

/-- how an exchange with the node ends -/
inductive Exchange where
  | failed (why : String)
  | reply (r : Reply)

/-- a header value that is text: the printed characters of ASCII, and tabs -/
def isReadable (value : List UInt8) : Bool := value.all fun b => b = 9 || (32 ≤ b && b ≤ 126)

/-- whether a reply says that its body is JSON -/
def Reply.saysJson (r : Reply) : Bool :=
  match r.contentType with
  | none => false
  | some value => isReadable value && (Utf8.encode "application/json").isPrefixOf value

/-- the error that a body reports -/
def reported? (body : Json) : Option Error :=
  match body.get? "error" with
  | none | some .null => none
  | some e =>
    let message := ((e.get? "message").bind Json.asString?).getD "Unknown error"
    let code := ((e.get? "code").bind Json.asInt?).getD 0
    some (.rpc message code)

def Reply.result (r : Reply) : Except Error Json :=
  if r.status = 401 then .error .unauthorized
  else if !r.saysJson then .error (.protocol "Bad response (wrong content-type).")
  else
    match Json.parseBytes? r.body with
    | none => .error (.json "bad reply")
    | some .null => .error (.protocol "No body for JSON-RPC response.")
    | some body =>
      match reported? body with
      | some e => .error e
      | none =>
        if r.status ≠ 200 then .error (.protocol ("Status code: " ++ toString r.status ++ "."))
        else .ok ((body.get? "result").getD .null)

def Exchange.result : Exchange → Except Error Json
  | .failed why => .error (.http why)
  | .reply r => r.result

/-! ## the calls of a miner -/

/-- the parameters of a call that has one byte string as parameter -/
def hexParam (bs : List UInt8) : Json := .array [.string (Hex.encode bs)]

/-- asks for work other than that with an identity -/
def Client.getWork (c : Client) (identity : List UInt8) : Call × Client :=
  c.call "getwork" (hexParam identity)

def Client.submitWork (c : Client) (raw : List UInt8) : Call × Client :=
  c.call "submitwork" (hexParam raw)

def Exchange.work (x : Exchange) : Except Error (Option WorkAnswer) := do
  WorkAnswer.ofJson (← x.result)

def Exchange.verdict (x : Exchange) : Except Error Verdict := do
  Verdict.ofJson (← x.result)

end HeaderMiner.Rpc
