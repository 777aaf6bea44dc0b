/-!
# What a grammar finds wrong

One constructor for each thing that can be missing or out of place, and its wording.
-/
namespace Readback.Grammar

inductive Fault where
  | unexpectedEnd
  | unexpectedToken (text : String)
  | noBlockStart | noBlockEnd
  | noVariableName | noInitializer
  | noFunctionName | noParamsStart | noParamName | noParamsEnd
  | noLoopWhile
  | noForStart | noForInitEnd | noForTestEnd | noForEnd
  | returnOutside
  | newlineAfterThrow
  | noConditionStart | noConditionEnd
  | badCompound | badTarget
  | noAlternative
  | noFieldName | noIndexEnd | noArgumentsEnd
  | badNumber
  | noGroupEnd
  | noElementEnd
  | noPropertyName | noKeyEnd | noPropertyValue | noObjectEnd
deriving DecidableEq, Inhabited, Repr

def Fault.message : Fault → String
  | .unexpectedEnd        => "unexpected end of input"
  | .unexpectedToken text => "unexpected token `" ++ text ++ "`"
  | .noBlockStart         => "expected `\x7b` to start block"
  | .noBlockEnd           => "expected `\x7d` to close block"
  | .noVariableName       => "expected variable name"
  | .noInitializer        => "missing initializer in const declaration"
  | .noFunctionName       => "function statement requires a name"
  | .noParamsStart        => "expected `(` before parameters"
  | .noParamName          => "expected parameter name"
  | .noParamsEnd          => "expected `)` after parameters"
  | .noLoopWhile          => "expected `while` after `do` body"
  | .noForStart           => "expected `(` after `for`"
  | .noForInitEnd         => "expected `;` after loop initializer"
  | .noForTestEnd         => "expected `;` after loop condition"
  | .noForEnd             => "expected `)` after loop header"
  | .returnOutside        => "`return` outside of function"
  | .newlineAfterThrow    => "illegal newline after `throw`"
  | .noConditionStart     => "expected `(` before condition"
  | .noConditionEnd       => "expected `)` after condition"
  | .badCompound          => "unsupported compound assignment"
  | .badTarget            => "invalid assignment target"
  | .noAlternative        => "expected `:` in conditional expression"
  | .noFieldName          => "expected property name after `.`"
  | .noIndexEnd           => "expected `]` after index"
  | .noArgumentsEnd       => "expected `)` after arguments"
  | .badNumber            => "invalid numeric literal"
  | .noGroupEnd           => "expected `)` after expression"
  | .noElementEnd         => "expected `,` or `]` in array literal"
  | .noPropertyName       => "expected property name"
  | .noKeyEnd             => "expected `]` after computed key"
  | .noPropertyValue      => "expected `:` after property name"
  | .noObjectEnd          => "expected `\x7d` after object literal"

end Readback.Grammar
