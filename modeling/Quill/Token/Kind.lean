/-!
# Kinds of tokens

A token is the end of the text, a literal or name, one of the fixed marks, or a reserved word. Each
mark and each word has one spelling; every kind has a name under which it is reported.
-/

namespace Quill

/-- Punctuation and operators: the tokens with one fixed spelling. -/
inductive Mark where
  | openBracket | closeBracket | openCurly | closeCurly | openParen | closeParen | assign
  | leftArrow | equals | not | notEquals | less | lessEquals | greater | greaterEquals
  | shiftLeft | shiftRight | or | and | pipe | caret | ampersand | dot | questionDot | question
  | questionQuestion | ellipsis | dotDotLess | semicolon | colon | comma | arrow | plusPlus
  | minusMinus | plus | dash | slash | star | starStar | percent | hash
deriving DecidableEq, Repr, Inhabited

namespace Mark

/-- The characters a mark is written with. -/
def spelling : Mark → String
  | .openBracket => "["
  | .closeBracket => "]"
  | .openCurly => "\x7b"
  | .closeCurly => "\x7d"
  | .openParen => "("
  | .closeParen => ")"
  | .assign => "="
  | .leftArrow => "<-"
  | .equals => "=="
  | .not => "!"
  | .notEquals => "!="
  | .less => "<"
  | .lessEquals => "<="
  | .greater => ">"
  | .greaterEquals => ">="
  | .shiftLeft => "<<"
  | .shiftRight => ">>"
  | .or => "||"
  | .and => "&&"
  | .pipe => "|"
  | .caret => "^"
  | .ampersand => "&"
  | .dot => "."
  | .questionDot => "?."
  | .question => "?"
  | .questionQuestion => "??"
  | .ellipsis => "..."
  | .dotDotLess => "..<"
  | .semicolon => ";"
  | .colon => ":"
  | .comma => ","
  | .arrow => "->"
  | .plusPlus => "++"
  | .minusMinus => "--"
  | .plus => "+"
  | .dash => "-"
  | .slash => "/"
  | .star => "*"
  | .starStar => "**"
  | .percent => "%"
  | .hash => "#"

/-- The name of a mark in reports. -/
def name : Mark → String
  | .openBracket => "OpenBracket"
  | .closeBracket => "CloseBracket"
  | .openCurly => "OpenCurly"
  | .closeCurly => "CloseCurly"
  | .openParen => "OpenParen"
  | .closeParen => "CloseParen"
  | .assign => "Assignment"
  | .leftArrow => "LeftArrow"
  | .equals => "Equals"
  | .not => "Not"
  | .notEquals => "NotEquals"
  | .less => "Less"
  | .lessEquals => "LessEquals"
  | .greater => "Greater"
  | .greaterEquals => "GreaterEquals"
  | .shiftLeft => "ShiftLeft"
  | .shiftRight => "ShiftRight"
  | .or => "Or"
  | .and => "And"
  | .pipe => "Pipe"
  | .caret => "Caret"
  | .ampersand => "Ampersand"
  | .dot => "Dot"
  | .questionDot => "QuestionDot"
  | .question => "Question"
  | .questionQuestion => "QuestionQuestion"
  | .ellipsis => "Ellipsis"
  | .dotDotLess => "DotDotLess"
  | .semicolon => "Semicolon"
  | .colon => "Colon"
  | .comma => "Comma"
  | .arrow => "Arrow"
  | .plusPlus => "PlusPlus"
  | .minusMinus => "MinusMinus"
  | .plus => "Plus"
  | .dash => "Dash"
  | .slash => "Slash"
  | .star => "Star"
  | .starStar => "StarStar"
  | .percent => "Percent"
  | .hash => "Hash"

/-- Every mark, in the order of the type. -/
def all : List Mark :=
  [.openBracket, .closeBracket, .openCurly, .closeCurly, .openParen, .closeParen, .assign,
   .leftArrow, .equals, .not, .notEquals, .less, .lessEquals, .greater, .greaterEquals,
   .shiftLeft, .shiftRight, .or, .and, .pipe, .caret, .ampersand, .dot, .questionDot, .question,
   .questionQuestion, .ellipsis, .dotDotLess, .semicolon, .colon, .comma, .arrow, .plusPlus,
   .minusMinus, .plus, .dash, .slash, .star, .starStar, .percent, .hash]

end Mark

/-- The reserved words. -/
inductive Keyword where
  | letWord | constWord | structWord | fnWord | returnWord | breakWord | ifWord | elseWord
  | whileWord | repeatWord | forWord | inWord | trueWord | falseWord | someWord | noWord
deriving DecidableEq, Repr, Inhabited

namespace Keyword

/-- The letters a reserved word is written with. -/
def spelling : Keyword → String
  | .letWord => "let"
  | .constWord => "const"
  | .structWord => "struct"
  | .fnWord => "fn"
  | .returnWord => "return"
  | .breakWord => "break"
  | .ifWord => "if"
  | .elseWord => "else"
  | .whileWord => "while"
  | .repeatWord => "repeat"
  | .forWord => "for"
  | .inWord => "in"
  | .trueWord => "true"
  | .falseWord => "false"
  | .someWord => "some"
  | .noWord => "no"

/-- The name of a reserved word in reports. -/
def name : Keyword → String
  | .letWord => "Let"
  | .constWord => "Const"
  | .structWord => "Struct"
  | .fnWord => "Fn"
  | .returnWord => "Return"
  | .breakWord => "Break"
  | .ifWord => "If"
  | .elseWord => "Else"
  | .whileWord => "While"
  | .repeatWord => "Repeat"
  | .forWord => "For"
  | .inWord => "In"
  | .trueWord => "True"
  | .falseWord => "False"
  | .someWord => "Some"
  | .noWord => "No"

/-- Every reserved word, in the order of the type. -/
def all : List Keyword :=
  [.letWord, .constWord, .structWord, .fnWord, .returnWord, .breakWord, .ifWord, .elseWord,
   .whileWord, .repeatWord, .forWord, .inWord, .trueWord, .falseWord, .someWord, .noWord]

/-- The reserved word written like that, if there is one. -/
def ofSpelling? (s : String) : Option Keyword := all.find? fun k => k.spelling == s

end Keyword

/-- The kinds of tokens. -/
inductive TokenKind where
  | eof
  | integer
  | float
  | string
  | identifier
  | mark (m : Mark)
  | word (k : Keyword)
deriving DecidableEq, Repr, Inhabited

namespace TokenKind

/-- The name of a kind in reports. -/
def name : TokenKind → String
  | .eof => "EOF"
  | .integer => "Integer"
  | .float => "Float"
  | .string => "String"
  | .identifier => "Identifier"
  | .mark m => m.name
  | .word k => k.name

/-- Every kind: the end, the literals and names, the marks, the words. -/
def all : List TokenKind :=
  [.eof, .integer, .float, .string, .identifier] ++ Mark.all.map .mark ++ Keyword.all.map .word

end TokenKind

end Quill
