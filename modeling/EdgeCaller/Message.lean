import EdgeCaller.Value.Basic
/-!
# Calls and events

What a sender sends: a call of one method on one module of one device, and, when the call
succeeded, a telemetry event. A call's fields hold values, because a caller may leave any of them
out or fill it with anything.
-/

namespace EdgeCaller

/-- The module that is called. -/
structure Target where
  deviceId : String
  moduleId : String
  deriving DecidableEq, Repr

/-- A call of a method. -/
structure MethodCall where
  methodName : Value
  payload : Value
  /-- Seconds to wait for a target that is offline. -/
  connectTimeout : Value
  /-- Seconds to wait for the method to answer. -/
  responseTimeout : Value

/-- The call that a sender makes: it does not wait for an offline target, and gives the method half
a minute to answer. -/
def MethodCall.standard : MethodCall :=
  ⟨.text "HelloWorldMethod", .record [("Message", .text "Hello")], .number 0, .number 30⟩

/-- A telemetry event. -/
structure Telemetry where
  outputName : String
  body : String
  deriving DecidableEq, Repr

/-- The event that reports a successful call. -/
def Telemetry.success : Telemetry := ⟨"AnyOutput", "Method Call succeeded."⟩

/-- The status of a successful call. -/
def successStatus : Number := 200

/-- Whether a status is that of a successful call. -/
def isSuccess (status : Value) : Bool := status.isNumber successStatus

/-- How an attempt ended. -/
inductive Outcome where
  /-- The call succeeded and the event was sent. -/
  | published
  /-- The call was answered with another status. -/
  | skipped
  /-- The call or the sending of the event failed. -/
  | failed
  deriving DecidableEq, Repr

/-- The name of an outcome. -/
def Outcome.name : Outcome → String
  | published => "published"
  | skipped => "skipped"
  | failed => "failed"

/-- The half of an attempt in which it failed. -/
inductive Stage where
  | invoke
  | publish
  deriving DecidableEq, Repr

/-- The name of a stage. -/
def Stage.name : Stage → String
  | invoke => "invoke"
  | publish => "publish"

end EdgeCaller
