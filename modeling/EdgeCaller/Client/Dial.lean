import EdgeCaller.Journal
import EdgeCaller.Report
import EdgeCaller.Script
/-!
# Opening and closing a module client

A connection is opened in two calls: a client is created over a wire, then it is opened. A client
that was created but would not open is closed again before the failure is reported; what that
closing fails with is only logged. The failure names the transport and carries its cause.

Closing an open client never fails for what the client answers. It may fail for want of words:
the answer is logged, and a value that has no text cannot be.
-/

namespace EdgeCaller

/-- The call that is awaited while a connection is being opened. -/
inductive Dial where
  | creating
  | opening
  /-- The client is closed again because of this failure. -/
  | discarding (cause : Value)

namespace Dial

/-- The failure to create a client. -/
def createFailure (transport : String) (cause : Value) : Value :=
  .openFailure ("Failed to create module client over " ++ transport) transport cause

/-- The failure to open a client. -/
def openFailure (transport : String) (cause : Value) : Value :=
  .openFailure ("Failed to open module client over " ++ transport) transport cause

/-- Asks for a client. -/
def begin (transport : String) : Act Dial := do
  Act.emit (.clientCreate (Wire.ofName transport))
  return .creating

/-- Goes on when the awaited call is answered: to the next call, or to an open connection. -/
def answered (transport : String) : Dial → Settlement → Act (Option Dial)
  | .creating, .rejected e => throw (createFailure transport e)
  | .creating, .fulfilled _ => do
    Act.emit .clientOpen
    return some .opening
  | .opening, .rejected e => do
    Act.emit .clientClose
    return some (.discarding e)
  | .opening, .fulfilled _ => do
    Act.tell .info "Successfully initialized module client." [("transport", .text transport)]
    return none
  | .discarding cause, .rejected e => do
    let words ← Act.ofText e.brief
    Act.tell .warn "Failed to close module client after open failure"
      [("transport", .text transport), ("error", words)]
    throw (openFailure transport cause)
  | .discarding cause, .fulfilled _ => throw (openFailure transport cause)

/-- The reply that a script has for the awaited call, and the calls made with it. -/
def reply (script : Script) (tally : Tally) : Dial → Reply × Tally
  | .creating => (.nth script.creates tally.creates, { tally with creates := tally.creates + 1 })
  | .opening => (.nth script.opens tally.opens, { tally with opens := tally.opens + 1 })
  | .discarding _ => (.nth script.closes tally.closes, { tally with closes := tally.closes + 1 })

end Dial

/-- Goes on when the closing of an open client is answered. -/
def Client.closeAnswered : Settlement → Act Unit
  | .fulfilled _ => pure ()
  | .rejected e => do
    let words ← Act.ofText e.brief
    Act.tell .warn "Failed to close module client" [("error", words)]

end EdgeCaller
