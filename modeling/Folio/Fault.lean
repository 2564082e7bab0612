import Folio.Text.Encoding

/-!
# Faults

What can go wrong while documents and templates are read and evaluated.  A fault says
what is wrong; its wording is one function, `message`.  A value that is missing is
never a fault.
-/

namespace Folio

inductive ExprFault where
  | openQuote
  | strayCloser (closer : Char)
  | openBracket
  | empty
  /-- Several terms where one was wanted. -/
  | notSingle
  deriving DecidableEq, Repr

def ExprFault.message (text : String) : ExprFault → String
  | .openQuote => "unterminated quote in `" ++ text ++ "`"
  | .strayCloser closer => "unexpected `" ++ closer.toString ++ "` in `" ++ text ++ "`"
  | .openBracket => "unterminated bracket in `" ++ text ++ "`"
  | .empty => "empty expression in `" ++ text ++ "`"
  | .notSingle => "expected a single value in `" ++ text ++ "`"

/-- Why a text has not the form that it should have. -/
inductive FormatFault where
  | expression (text : String) (fault : ExprFault)
  /-- A category among whose names stands something that is no name. -/
  | categorySegment (segment : String)
  /-- A header that the text ends in. -/
  | openHeader
  /-- A header line that is no field. -/
  | notField (line : Nat) (text : String)
  | invalidKey (line : Nat) (key : String)
  /-- A header line whose value is at fault. -/
  | field (line : Nat) (fault : FormatFault)
  | loopWithoutSource (line : Nat)
  | endWithoutLoop (line : Nat)
  | openLoops (count : Nat)
  | openBrace (line : Nat)
  /-- A line of a template with an expression at fault. -/
  | substitution (line : Nat) (fault : FormatFault)
  deriving DecidableEq, Repr

def FormatFault.message : FormatFault → String
  | .expression text fault => fault.message text
  | .categorySegment segment => "category segment must be a name: `" ++ segment ++ "`"
  | .openHeader => "header is not closed with `---`"
  | .notField line text =>
    "header line " ++ toString line ++ ": expected `key: value`, found `" ++ text ++ "`"
  | .invalidKey line key => "header line " ++ toString line ++ ": invalid key `" ++ key ++ "`"
  | .field line fault => "header line " ++ toString line ++ ": " ++ fault.message
  | .loopWithoutSource line => "line " ++ toString line ++ ": `foreach` needs a source"
  | .endWithoutLoop line => "line " ++ toString line ++ ": `end` without matching `foreach`"
  | .openLoops count => toString count ++ " unclosed `foreach` block(s)"
  | .openBrace line => "line " ++ toString line ++ ": unterminated `\x7b`"
  | .substitution line fault => "line " ++ toString line ++ ": " ++ fault.message

inductive CallFault where
  /-- What was to be applied is no function but a value of this type. -/
  | notFunction (text : String) (typeName : String)
  | noArguments (function : String)
  | notNumber (function : String) (text : String)
  | numberExpected (function : String) (typeName : String)
  | divisionByZero (function : String)
  | overflow (function : String)
  | formatArguments (count : Nat)
  | patternNotString (typeName : String)
  | datePattern (pattern : String)
  /-- A date pattern with a field that cannot be written. -/
  | unwritableDatePattern (pattern : String)
  | numberPattern (pattern : String)
  | cannotFormat (typeName : String)
  /-- The program breaks off where a number is to be written with so many places. -/
  | tooManyPlaces (places : Nat)
  /-- A function refuses in its own words. -/
  | refused (reason : String)
  deriving DecidableEq, Repr

def CallFault.message : CallFault → String
  | .notFunction text typeName => "`" ++ text ++ "` is a " ++ typeName ++ ", not a function"
  | .noArguments function => function ++ ": needs at least one argument"
  | .notNumber function text => function ++ ": `" ++ text ++ "` is not a number"
  | .numberExpected function typeName => function ++ ": expected a number, found " ++ typeName
  | .divisionByZero function => function ++ ": division by zero"
  | .overflow function => function ++ ": integer overflow"
  | .formatArguments count => "format: expected 1 or 2 arguments, found " ++ toString count
  | .patternNotString typeName => "format: pattern must be a string, found " ++ typeName
  | .datePattern pattern => "format: invalid date pattern `" ++ pattern ++ "`"
  | .unwritableDatePattern pattern => "format: cannot apply `" ++ pattern ++ "`"
  | .numberPattern pattern => "format: invalid number pattern `" ++ pattern ++ "`"
  | .cannotFormat typeName => "format: cannot format " ++ typeName
  | .tooManyPlaces _ => "Formatting argument out of range"
  | .refused reason => reason

inductive FileFault where
  | notFound
  | isDirectory
  | notDirectory
  | alreadyExists
  | notEmpty
  /-- The bytes of the whole file are no text. -/
  | invalidText
  /-- The bytes of a line are no text. -/
  | flawedLine (flaw : Text.Flaw)
  | nameTooLong
  deriving DecidableEq, Repr

def FileFault.message : FileFault → String
  | .notFound => "No such file or directory (os error 2)"
  | .isDirectory => "Is a directory (os error 21)"
  | .notDirectory => "Not a directory (os error 20)"
  | .alreadyExists => "File exists (os error 17)"
  | .notEmpty => "Directory not empty (os error 39)"
  | .invalidText => "stream did not contain valid UTF-8"
  | .flawedLine flaw => flaw.message
  | .nameTooLong => "File name too long (os error 36)"

/-- What can go wrong with a document or a template. -/
inductive Fault where
  | format (fault : FormatFault)
  | call (fault : CallFault)
  /-- The work was canceled. -/
  | canceled
  | file (path : String) (fault : FileFault)
  deriving DecidableEq, Repr

/-- The wording of a fault, without the cause that the file system gave. -/
def Fault.message : Fault → String
  | .format fault => "format error: " ++ fault.message
  | .call fault => "evaluation error: " ++ fault.message
  | .canceled => "operation canceled"
  | .file path _ => "IO error on `" ++ path ++ "`"

end Folio
