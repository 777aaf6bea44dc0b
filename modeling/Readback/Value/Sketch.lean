import Readback.Number.Text
import Readback.Text.Shown
import Readback.Value.Basic
/-!
# Sketches of values

A short text that tells a person what a value is.  It is no source.
-/
namespace Readback

def Content.sketch : Content → String
  | .ordinary             => "<object>"
  | .array elements       => "<array len=" ++ Text.decimal elements.length ++ ">"
  | .function _           => "<function>"
  | .regexp pattern flags => "/" ++ pattern ++ "/" ++ flags
  | .date time            => "<date " ++ time.plain ++ ">"
  | .error                => "<error>"

def Value.sketch (h : Heap) : Value → String
  | .undefined => "undefined"
  | .null      => "null"
  | .bool b    => if b then "true" else "false"
  | .number x  => x.plain
  | .text s    => Text.shown s
  | .symbol id => "Symbol(" ++ (h.description? id).getD "" ++ ")"
  | .object id => ((h.object? id).map (fun o => o.content.sketch)).getD "<object>"

end Readback
