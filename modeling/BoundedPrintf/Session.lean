import BoundedPrintf.Render

/-! Rendering in the mode in force. A caller brings arguments, a cursor of its own or plain values,
and gets a signed 32-bit number for an answer. A session is a sequence of such calls, with questions
for the mode and installations of a mode among them. -/
namespace BoundedPrintf

/-- Renders with what a cursor has left to hand out. -/
def Cursor.render [Build] (cursor : Cursor) (buffer : Array UInt8) (template : Bytes) (mode : Mode) : Outcome :=
  let outcome := BoundedPrintf.render buffer template cursor.remaining mode
  { outcome with consumed := cursor.consumed + outcome.consumed }

/-- What a caller gets from a rendering in the mode in force. -/
structure Reply where
  /-- The number of bytes, or -1 for every error. A call that crashes returns nothing. -/
  returned : Option Int
  /-- What the rendering left behind. The caller sees its buffer, its cursor and its count targets. -/
  outcome : Outcome

def Outcome.toReply (outcome : Outcome) : Reply := { returned := outcome.returned?, outcome }

namespace Mode.Setting

/-- Renders with the cursor of a caller. -/
def renderWith [Build] (setting : Setting) (buffer : Array UInt8) (template : Bytes) (cursor : Cursor) :
    Reply × Setting :=
  let (mode, setting) := setting.current
  ((cursor.render buffer template mode).toReply, setting)

/-- Renders with a list of arguments. -/
def renderInto [Build] (setting : Setting) (buffer : Array UInt8) (template : Bytes) (args : List Argument) :
    Reply × Setting :=
  setting.renderWith buffer template (.ofList args)

/-- Renders with plain values. -/
def renderValues [Build] (setting : Setting) (buffer : Array UInt8) (template : Bytes) (values : List Value) :
    Reply × Setting :=
  setting.renderInto buffer template (values.map Value.toArgument)

end Mode.Setting

namespace Session

inductive Call
  | ask
  | install (mode : Mode)
  | renderInto (buffer : Array UInt8) (template : Bytes) (args : List Argument)
  | renderWith (buffer : Array UInt8) (template : Bytes) (cursor : Cursor)
  | renderValues (buffer : Array UInt8) (template : Bytes) (values : List Value)

inductive Answer
  | mode (mode : Mode)
  | installed
  | rendered (reply : Reply)

/-- The answer to a call, and the setting after it. -/
def answer [Build] (setting : Mode.Setting) : Call → Answer × Mode.Setting
  | .ask => setting.current.map .mode id
  | .install mode => (.installed, setting.install mode)
  | .renderInto buffer template args => (setting.renderInto buffer template args).map .rendered id
  | .renderWith buffer template cursor => (setting.renderWith buffer template cursor).map .rendered id
  | .renderValues buffer template values => (setting.renderValues buffer template values).map .rendered id

/-- The answers to calls in a row, and the setting after the last. A caller can catch the crash of a
call and go on. -/
def answers [Build] (setting : Mode.Setting) : List Call → List Answer × Mode.Setting
  | [] => ([], setting)
  | call :: rest =>
      let (first, setting) := answer setting call
      let (others, setting) := answers setting rest
      (first :: others, setting)

end Session

end BoundedPrintf
