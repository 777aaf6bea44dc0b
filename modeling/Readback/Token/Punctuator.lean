import Readback.Token.Basic
/-!
# Punctuators

The spelling of every punctuator, longer ones first, so that the first spelling that fits is the longest.
-/
namespace Readback.Token

def punctuators : List (List Char × Kind) :=
  [(">>>=".toList, .compoundAssign),
   ("===".toList, .strictEqual), ("!==".toList, .strictNotEqual), (">>>".toList, .unsignedShiftRight),
   ("**=".toList, .compoundAssign), ("<<=".toList, .compoundAssign), (">>=".toList, .compoundAssign),
   ("&&=".toList, .compoundAssign), ("||=".toList, .compoundAssign), ("??=".toList, .compoundAssign),
   ("??".toList, .doubleQuestion), ("=>".toList, .fatArrow), ("++".toList, .plusPlus), ("--".toList, .minusMinus),
   ("**".toList, .starStar), ("&&".toList, .doubleAmpersand), ("||".toList, .doublePipe), ("==".toList, .equalEqual),
   ("!=".toList, .bangEqual), ("<=".toList, .lessEqual), (">=".toList, .greaterEqual), ("<<".toList, .shiftLeft),
   (">>".toList, .shiftRight), ("+=".toList, .compoundAssign), ("-=".toList, .compoundAssign),
   ("*=".toList, .compoundAssign), ("/=".toList, .compoundAssign), ("%=".toList, .compoundAssign),
   ("&=".toList, .compoundAssign), ("|=".toList, .compoundAssign), ("^=".toList, .compoundAssign),
   ("(".toList, .lParen), (")".toList, .rParen), ("\x7b".toList, .lBrace), ("\x7d".toList, .rBrace),
   ("[".toList, .lBracket), ("]".toList, .rBracket), (",".toList, .comma), (".".toList, .dot),
   (":".toList, .colon), (";".toList, .semicolon), ("?".toList, .question), ("=".toList, .assign),
   ("+".toList, .plus), ("-".toList, .minus), ("*".toList, .star), ("/".toList, .slash), ("%".toList, .percent),
   ("&".toList, .ampersand), ("|".toList, .pipe), ("^".toList, .caret), ("!".toList, .bang), ("~".toList, .tilde),
   ("<".toList, .less), (">".toList, .greater)]

/-- The longest punctuator that a text begins with. -/
def punctuator? (cs : List Char) : Option (List Char × Kind) := punctuators.find? (·.1.isPrefixOf cs)

end Readback.Token
