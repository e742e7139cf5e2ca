import Fleet.Controller.Client
import Fleet.Membership

/-! The controller as the service sees it.

Calls may fail, and the controller may remember them. A client is such a link over any way to send
requests.
-/

set_option autoImplicit false

namespace Fleet

open Payload (Value)

abbrev Call (Memory Result : Type) := ExceptT (Fault Float) (StateM Memory) Result

structure ControllerLink (Memory : Type) where
  hosts : Call Memory Value
  vms : Call Memory Value
  /-- Asks for a move, with a reason if there is one. -/
  request : Move → Option String → Call Memory Value

namespace Controller.Client

variable {Memory : Type}

def exchange (send : Request → Call Memory (Int × Value)) (request : Request) :
    Call Memory Value := do
  let (status, payload) ← send request
  ExceptT.mk (pure (receive status payload))

def link (client : Client) (send : Request → Call Memory (Int × Value)) :
    ControllerLink Memory where
  hosts := exchange send client.hosts
  vms := exchange send client.vms
  request move reason :=
    exchange send (client.migration move.vm move.source move.destination reason)

end Controller.Client

end Fleet
