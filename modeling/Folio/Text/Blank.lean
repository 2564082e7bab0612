/-!
# Blank characters

The characters with the property White_Space, and the trimming and blankness of
texts that goes with it.  `Char.isWhitespace` knows six of them; documents hold
all twenty-five (a full-width space, a no-break space, a next-line control).
Everything here works on lists of characters, where it can be reasoned about;
the functions on `String` are the same rules at the outside.
-/

namespace Folio.Text

def blankChars : List Char :=
  ['\t', '\n', '\x0b', '\x0c', '\r', ' ', '\u0085', '\u00a0', '\u1680', '\u2000', '\u2001',
    '\u2002', '\u2003', '\u2004', '\u2005', '\u2006', '\u2007', '\u2008', '\u2009', '\u200a',
    '\u2028', '\u2029', '\u202f', '\u205f', '\u3000']

def isBlank (c : Char) : Bool :=
  blankChars.contains c

def trimStartChars (s : List Char) : List Char :=
  s.dropWhile isBlank

def trimEndChars (s : List Char) : List Char :=
  (s.reverse.dropWhile isBlank).reverse

def trimChars (s : List Char) : List Char :=
  trimEndChars (trimStartChars s)

def trim (s : String) : String :=
  String.ofList (trimChars s.toList)

def trimStart (s : String) : String :=
  String.ofList (trimStartChars s.toList)

def trimEnd (s : String) : String :=
  String.ofList (trimEndChars s.toList)

def isBlankText (s : String) : Bool :=
  s.toList.all isBlank

end Folio.Text
