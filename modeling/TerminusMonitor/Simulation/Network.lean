import TerminusMonitor.Effect
import TerminusMonitor.Message.Basic

/-!
A simulated network: peers that answer requests by fixed rules, over a link that
can be made to fail. The answers wait in a queue until they are received.
-/

namespace TerminusMonitor

/-- How peers answer a request of a command whose payload starts in a given way. -/
structure Rule where
  command : UInt8
  start : List UInt8
  completion : UInt8
  payload : List UInt8
deriving DecidableEq, Repr

/-- Whether a rule tells how to answer a request. -/
def Rule.covers (rule : Rule) (r : Request) : Bool :=
  rule.command == r.command && rule.start.isPrefixOf r.payload

/-- A simulated network. -/
structure Network where
  rules : List Rule := []
  /-- How sending fails, if it does, and to which endpoint alone. -/
  fault? : Option (TransportFault × Option Eid) := none
  /-- All messages sent so far. -/
  sent : List Mail := []
  /-- The messages that wait to be received. -/
  queue : List Mail := []

namespace Network

/-- The link of a network. -/
def link (n : Network) : Link := fun eid _ =>
  match n.fault? with
  | some (fault, none) => some fault
  | some (fault, some only) => if only = eid then some fault else none
  | none => none

/-- What a peer answers to a message: the first rule that covers it decides. -/
def answer? (n : Network) (mail : Mail) : Option Mail := do
  let request ← (Request.ofBytes mail.2).toOption
  let rule ← n.rules.find? (·.covers request)
  let bytes ← { request.reply rule.completion with payload := rule.payload }.toBytes.toOption
  return (mail.1, bytes)

/-- The network after messages were sent and answered. -/
def carry (n : Network) (mails : List Mail) : Network :=
  { n with sent := n.sent ++ mails, queue := n.queue ++ mails.filterMap n.answer? }

/-- A sent message by its number. Negative numbers count from the last one. -/
def sentAt? (n : Network) (number : Int) : Option Mail :=
  let place := if number < 0 then number + n.sent.length else number
  if place < 0 then none else n.sent[place.toNat]?

end Network

end TerminusMonitor
