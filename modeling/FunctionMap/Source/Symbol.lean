/-!
# The characters with a meaning

All of them are ASCII, so a byte that has a meaning is a character of its own.
-/

namespace FunctionMap
namespace Symbol

/-- White space between tokens. -/
def isWhitespace (c : Char) : Bool := c = ' ' || c = '\t' || c = '\r' || c = '\n'

/-- The characters that end a token. -/
def isDelimiter (c : Char) : Bool := isWhitespace c || c = '#' || c = ',' || c = ']'

/-- The characters that end a list where its next entry could start: they open a declaration or a
    comment. -/
def isSpecial (c : Char) : Bool := c = 'm' || c = '[' || c = '#'

/-- The keyword that opens an enumeration. -/
def mapKeyword : List Char := ['m', 'a', 'p']

/-- The way a message names the keyword. -/
def mapKeywordText : String := "'map'"

end Symbol
end FunctionMap
