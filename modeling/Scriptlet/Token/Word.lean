set_option autoImplicit false

/-!
The fixed words and signs of program text, each with its spelling.
-/
namespace Scriptlet

/-- Reserved words. The last group has no meaning yet. -/
inductive Keyword where
  | varWord | letWord | constWord | ifWord | elseWord | whileWord | functionWord | thisWord
  | returnWord | forWord | doWord | breakWord | continueWord | newWord | deleteWord | inWord
  | instanceofWord | switchWord | caseWord | defaultWord | throwWord | tryWord | catchWord
  | finallyWord | classWord | voidWord | withWord
  deriving DecidableEq, Repr

namespace Keyword

def all : List Keyword :=
  [.varWord, .letWord, .constWord, .ifWord, .elseWord, .whileWord, .functionWord, .thisWord,
    .returnWord, .forWord, .doWord, .breakWord, .continueWord, .newWord, .deleteWord, .inWord,
    .instanceofWord, .switchWord, .caseWord, .defaultWord, .throwWord, .tryWord, .catchWord,
    .finallyWord, .classWord, .voidWord, .withWord]

def spelling : Keyword → String
  | .varWord => "var"
  | .letWord => "let"
  | .constWord => "const"
  | .ifWord => "if"
  | .elseWord => "else"
  | .whileWord => "while"
  | .functionWord => "function"
  | .thisWord => "this"
  | .returnWord => "return"
  | .forWord => "for"
  | .doWord => "do"
  | .breakWord => "break"
  | .continueWord => "continue"
  | .newWord => "new"
  | .deleteWord => "delete"
  | .inWord => "in"
  | .instanceofWord => "instanceof"
  | .switchWord => "switch"
  | .caseWord => "case"
  | .defaultWord => "default"
  | .throwWord => "throw"
  | .tryWord => "try"
  | .catchWord => "catch"
  | .finallyWord => "finally"
  | .classWord => "class"
  | .voidWord => "void"
  | .withWord => "with"

def ofSpelling? (word : String) : Option Keyword :=
  all.find? fun keyword => keyword.spelling == word

theorem mem_all (keyword : Keyword) : keyword ∈ all := by
  cases keyword <;> decide

end Keyword

inductive Punctuator where
  | leftBrace | rightBrace | leftParen | rightParen | leftBracket | rightBracket
  | semicolon | comma | dot | colon
  | less | greater | lessEqual | greaterEqual | equal | notEqual | strictEqual | strictNotEqual
  | plus | minus | star | slash | percent
  | ampersand | pipe | caret | bang | tilde | doubleAmpersand | doublePipe
  | shiftLeft | shiftRight | unsignedShiftRight
  | assign | plusAssign | minusAssign | starAssign | slashAssign | percentAssign
  deriving DecidableEq, Repr

namespace Punctuator

def all : List Punctuator :=
  [.leftBrace, .rightBrace, .leftParen, .rightParen, .leftBracket, .rightBracket, .semicolon,
    .comma, .dot, .colon, .less, .greater, .lessEqual, .greaterEqual, .equal, .notEqual,
    .strictEqual, .strictNotEqual, .plus, .minus, .star, .slash, .percent, .ampersand, .pipe,
    .caret, .bang, .tilde, .doubleAmpersand, .doublePipe, .shiftLeft, .shiftRight,
    .unsignedShiftRight, .assign, .plusAssign, .minusAssign, .starAssign, .slashAssign,
    .percentAssign]

/-- The spelling of a sign, character by character. -/
def characters : Punctuator → List Char
  | .leftBrace => ['\x7b']
  | .rightBrace => ['\x7d']
  | .leftParen => ['(']
  | .rightParen => [')']
  | .leftBracket => ['[']
  | .rightBracket => [']']
  | .semicolon => [';']
  | .comma => [',']
  | .dot => ['.']
  | .colon => [':']
  | .less => ['<']
  | .greater => ['>']
  | .lessEqual => ['<', '=']
  | .greaterEqual => ['>', '=']
  | .equal => ['=', '=']
  | .notEqual => ['!', '=']
  | .strictEqual => ['=', '=', '=']
  | .strictNotEqual => ['!', '=', '=']
  | .plus => ['+']
  | .minus => ['-']
  | .star => ['*']
  | .slash => ['/']
  | .percent => ['%']
  | .ampersand => ['&']
  | .pipe => ['|']
  | .caret => ['^']
  | .bang => ['!']
  | .tilde => ['~']
  | .doubleAmpersand => ['&', '&']
  | .doublePipe => ['|', '|']
  | .shiftLeft => ['<', '<']
  | .shiftRight => ['>', '>']
  | .unsignedShiftRight => ['>', '>', '>']
  | .assign => ['=']
  | .plusAssign => ['+', '=']
  | .minusAssign => ['-', '=']
  | .starAssign => ['*', '=']
  | .slashAssign => ['/', '=']
  | .percentAssign => ['%', '=']

def spelling (sign : Punctuator) : String :=
  String.ofList sign.characters

def size (sign : Punctuator) : Nat :=
  sign.characters.length

def startsAt (cs : List Char) (sign : Punctuator) : Bool :=
  sign.characters.isPrefixOf cs

def longer (best : Option Punctuator) (sign : Punctuator) : Option Punctuator :=
  match best with
  | none => some sign
  | some other => if other.size < sign.size then some sign else some other

def longestAt? (cs : List Char) : Option Punctuator :=
  (all.filter (startsAt cs)).foldl longer none

def ofSpelling? (text : String) : Option Punctuator :=
  all.find? fun sign => sign.spelling == text

theorem mem_all (sign : Punctuator) : sign ∈ all := by
  cases sign <;> decide

theorem size_pos (sign : Punctuator) : 0 < sign.size := by
  cases sign <;> decide

end Punctuator
end Scriptlet
