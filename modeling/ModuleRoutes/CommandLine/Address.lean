import ModuleRoutes.Number.Power
import ModuleRoutes.Text.Digits

/-!
# Addresses to serve on

An address is a host and the number of a service with a colon between them. Only its form is checked
here.
-/

namespace ModuleRoutes

namespace CommandLine

open Number Text

/-- Why a text is no address. -/
inductive AddressFault where
  | noColon
  | invalidNumber
deriving DecidableEq, Repr

def AddressFault.message : AddressFault → String
  | .noColon => "invalid socket address"
  | .invalidNumber => "invalid port value"

/-- Whether a text is the number of a service. -/
def isServiceNumber (text : List Char) : Bool :=
  let digits := match text with
    | '+' :: rest => rest
    | other => other
  !digits.isEmpty && digits.all Char.isDigit && numberOf digits < twoTo 16

def checkAddress (address : String) : Except AddressFault Unit :=
  let text := address.toList
  if text.contains ':' then
    if isServiceNumber (text.reverse.takeWhile (· ≠ ':')).reverse then .ok ()
    else .error .invalidNumber
  else .error .noColon

end CommandLine

end ModuleRoutes
