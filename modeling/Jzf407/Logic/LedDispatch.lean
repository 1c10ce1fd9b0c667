import Jzf407.Foundation.Text

/-!
# Commands by topic and payload

`dispatch` of `led_dispatch.rs` maps a topic and a boolean payload to an output command
(`OutputCmd`), and `dispatchSpecial` maps the topics whose payload is irrelevant. The booleans are
the eight words of `parseBool`, byte by byte: nothing is trimmed, and only `ON` and `OFF` have
their own spelling in capitals. A payload that is no boolean gives no output command on any topic.

`messageCmd` puts the two together as the receive path does: `dispatch` comes first, and where it
gives nothing, `dispatchSpecial`. No topic is known to both.
-/

namespace Jzf407

open Foundation

/-- A command to the device. -/
inductive OutputCmd
  | led1 (on : Bool)
  | led2 (on : Bool)
  | allLeds (on : Bool)
  | relay (on : Bool)
  | ping
  | reboot
  | unknown
  deriving DecidableEq, Repr

/-- The boolean a payload spells. -/
def parseBool (payload : List UInt8) : Option Bool :=
  if payload = asBytes "1".toList ∨ payload = asBytes "on".toList ∨
      payload = asBytes "ON".toList ∨ payload = asBytes "true".toList then some true
  else if payload = asBytes "0".toList ∨ payload = asBytes "off".toList ∨
      payload = asBytes "OFF".toList ∨ payload = asBytes "false".toList then some false
  else none

/-- The output command of a message. -/
def dispatch (topic : Str) (payload : List UInt8) : Option OutputCmd := do
  let on ← parseBool payload
  if topic = "stm32/led/1".toList then some (.led1 on)
  else if topic = "stm32/led/2".toList then some (.led2 on)
  else if topic = "stm32/led/all".toList then some (.allLeds on)
  else if topic = "stm32/relay".toList then some (.relay on)
  else none

/-- The command of a topic whose payload is irrelevant. -/
def dispatchSpecial (topic : Str) : Option OutputCmd :=
  if topic = "stm32/ping".toList then some .ping
  else if topic = "stm32/cmd/reboot".toList then some .reboot
  else none

/-- The command of a message, as the receive path computes it. -/
def messageCmd (topic : Str) (payload : List UInt8) : Option OutputCmd :=
  (dispatch topic payload).or (dispatchSpecial topic)

end Jzf407
