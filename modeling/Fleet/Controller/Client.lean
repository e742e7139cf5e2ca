import Fleet.Fault
import Fleet.Payload.Value

/-! Requests to the controller that owns the inventory and carries out migrations.

Sending is left to the caller: a client says what to send, and what a reply means.
-/

set_option autoImplicit false

namespace Fleet.Controller

open Payload (Fields Value)

structure Client where
  baseUrl : String
  token : Option String
  /-- Seconds, as given by the caller. -/
  timeout : Value

inductive Verb where
  | get
  | post
  deriving DecidableEq, Repr

def Verb.word : Verb → String
  | get => "GET"
  | post => "POST"

structure Request where
  verb : Verb
  url : String
  body : Option Value
  timeout : Value

structure Retry where
  total : Nat
  backoff : Float
  statuses : List Nat

namespace Client

def standardTimeout : Value := .integer 5

/-- Slashes at the end of the base URL do not count. -/
def make (baseUrl : String) (token : Option String) (timeout : Value := standardTimeout) : Client where
  baseUrl := String.ofList (baseUrl.toList.reverse.dropWhile (· == '/')).reverse
  token := token
  timeout := timeout

def contentType : String := "application/json"

/-- An empty token is no token. -/
def authorization (client : Client) : Option String :=
  match client.token with
  | none | some "" => none
  | some token => some s!"Bearer {token}"

def retry : Retry := ⟨3, 0.5, [502, 503, 504]⟩

/-- How failed requests to a URL are repeated. Only two schemes can be reached, written in any case. -/
def retryFor (url : String) : Except (Fault Float) Retry :=
  let start := url.toList.map Char.toLower
  if ["http://", "https://"].any (·.toList.isPrefixOf start) then .ok retry
  else .error (.unreachable url)

def hosts (client : Client) : Request where
  verb := .get
  url := client.baseUrl ++ "/hosts"
  body := none
  timeout := client.timeout

def vms (client : Client) : Request where
  verb := .get
  url := client.baseUrl ++ "/vms"
  body := none
  timeout := client.timeout

def migration (client : Client) (vm source target : String) (reason : Option String) : Request where
  verb := .post
  url := client.baseUrl ++ "/migration/request"
  body := some <| .object
    [("vm_id", .text vm), ("source_host", .text source), ("target_host", .text target),
      ("reason", reason.elim .null .text)]
  timeout := client.timeout

def receive (status : Int) (payload : Value) : Except (Fault Float) Value :=
  if 400 ≤ status then .error (.external s!"HTTP {status}") else .ok payload

end Client

end Fleet.Controller
