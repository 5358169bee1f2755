/-!
# Tokens

The tokens of a document are its single characters, apart from the short texts
that open and close its parts.
-/

namespace ObjectFlow.Markup

inductive Quote where
  | single
  | double
  deriving DecidableEq, Repr

def Quote.char : Quote → Char
  | single => '\x27'
  | double => '\x22'

inductive Token where
  | char (c : Char)
  | equals
  | quote (mark : Quote)
  | ampersand
  | semicolon
  | tagOpen
  | endTagOpen
  | tagClose
  | emptyTagClose
  | commentOpen
  | commentClose
  | dataOpen
  | dataClose
  | instructionOpen
  | instructionClose
  | doctypeOpen
  | declarationOpen
  deriving DecidableEq, Repr

/--
The text that a token stands for where it opens and closes nothing.  A declaration inside a document
type has its text from the keyword on, which is not part of the token.
-/
def Token.text : Token → List Char
  | char c => [c]
  | equals => ['=']
  | .quote mark => [mark.char]
  | ampersand => ['&']
  | semicolon => [';']
  | tagOpen => ['<']
  | endTagOpen => ['<', '/']
  | tagClose => ['>']
  | emptyTagClose => ['/', '>']
  | commentOpen => ['<', '!', '-', '-']
  | commentClose => ['-', '-', '>']
  | dataOpen => ['<', '!', '[', 'C', 'D', 'A', 'T', 'A', '[']
  | dataClose => [']', ']', '>']
  | instructionOpen => ['<', '?']
  | instructionClose => ['?', '>']
  | doctypeOpen => ['<', '!', 'D', 'O', 'C', 'T', 'Y', 'P', 'E']
  | declarationOpen => []

end ObjectFlow.Markup
