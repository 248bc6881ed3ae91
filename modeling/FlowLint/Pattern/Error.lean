/-! # What can be wrong with the text of a pattern -/

namespace FlowLint.Pattern

/-- Why a text is no pattern. -/
inductive Error
  | unclosedGroup
  | unopenedGroup
  | emptyGroupName
  | badGroupName
  | repeatedGroupName
  | unclosedGroupName
  | lookAround
  | unknownFlag
  | repeatedFlag
  | danglingNegation
  | unclosedFlags
  | unsupportedFlag
  | nothingToRepeat
  | unclosedCount
  | missingCount
  | countTooLarge
  | reversedCounts
  | unclosedClass
  | reversedRange
  | rangeEnd
  | classEscape
  | unclosedEscape
  | unknownEscape
  | backReference
  | badHexDigit
  | emptyHex
  | notACharacter
  | badProperty
  | unknownProperty
  | unclosedBoundary
  | unknownBoundary
  | tooDeep
deriving Repr, DecidableEq, Inhabited

def Error.message : Error → String
  | unclosedGroup => "unclosed group"
  | unopenedGroup => "unopened group"
  | emptyGroupName => "empty capture group name"
  | badGroupName => "invalid capture group character"
  | repeatedGroupName => "duplicate capture group name"
  | unclosedGroupName => "unclosed capture group name"
  | lookAround => "look-around, including look-ahead and look-behind, is not supported"
  | unknownFlag => "unrecognized flag"
  | repeatedFlag => "duplicate flag"
  | danglingNegation => "dangling flag negation operator"
  | unclosedFlags => "expected flag but got end of regex"
  | unsupportedFlag => "Unicode cannot be switched off"
  | nothingToRepeat => "repetition operator missing expression"
  | unclosedCount => "unclosed counted repetition"
  | missingCount => "repetition quantifier expects a valid decimal"
  | countTooLarge => "decimal literal invalid"
  | reversedCounts => "invalid repetition count range, the start must be <= the end"
  | unclosedClass => "unclosed character class"
  | reversedRange => "invalid character class range, the start must be <= the end"
  | rangeEnd => "invalid range boundary, must be a literal"
  | classEscape => "invalid escape sequence found in character class"
  | unclosedEscape => "incomplete escape sequence, reached end of pattern prematurely"
  | unknownEscape => "unrecognized escape sequence"
  | backReference => "backreferences are not supported"
  | badHexDigit => "invalid hexadecimal digit"
  | emptyHex => "hexadecimal literal empty"
  | notACharacter => "hexadecimal literal is not a Unicode scalar value"
  | badProperty => "invalid Unicode character class"
  | unknownProperty => "Unicode property not found"
  | unclosedBoundary => "special word boundary assertion is either unclosed or contains an invalid character"
  | unknownBoundary => "unrecognized special word boundary assertion"
  | tooDeep => "exceeds the maximum number of nested parentheses/brackets"

end FlowLint.Pattern
