import ApiDescription.Expression.Literal
import ApiDescription.Text.Normal

/-!
# From text to tokens

An expression is one logical line: line ends count only outside brackets, where nothing but blank
lines may follow.  Blank lines and comments may also come first, but the expression itself must not
be indented.

Tokens are the words, literals and marks that the text consists of.  A text with embedded
expressions is one token; its embedded expressions are already divided into tokens of their own.
-/

namespace ApiDescription

mutual

inductive Token where
  | word (text : String)
  | number (value : Number)
  | text (value : String)
  | bytes
  | template (pieces : List Piece)
  | mark (text : String)

inductive Piece where
  | literal (text : String)
  | embedded (tokens : List Token) (format : Option (List Piece))

end

/-- Words with a fixed meaning in the grammar; none of them can be a name. -/
def reservedWords : List String :=
  ["False", "None", "True", "and", "as", "assert", "async", "await", "break", "class", "continue",
   "def", "del", "elif", "else", "except", "finally", "for", "from", "global", "if", "import", "in",
   "is", "lambda", "nonlocal", "not", "or", "pass", "raise", "return", "try", "while", "with",
   "yield"]

def marks : List String :=
  ["**=", "//=", ">>=", "<<=", "...", "!=", "%=", "&=", "**", "*=", "+=", "-=", "->", "//", "/=",
   ":=", "<<", "<=", "<>", "==", ">=", ">>", "@=", "^=", "|=", "%", "&", "(", ")", "*", "+", ",",
   "-", ".", "/", ":", ";", "<", "=", ">", "@", "[", "]", "^", "\x7b", "|", "\x7d", "~"]

end ApiDescription

namespace ApiDescription.Lexer

def unifyLineEnds : List Char → List Char
  | '\r' :: '\n' :: rest => '\n' :: unifyLineEnds rest
  | '\r' :: rest => '\n' :: unifyLineEnds rest
  | character :: rest => character :: unifyLineEnds rest
  | [] => []

def skipComment (characters : List Char) : List Char :=
  characters.dropWhile (· != '\n')

/-- Skip blank lines and comments from the start of a line.  The rest begins at a line without
indentation; `column` is where the line has got to, `carried` the indentation before a joined
line. -/
def skipBlankLines (column carried : Nat) : Nat → List Char → Option (List Char)
  | 0, _ => none
  | fuel + 1, characters =>
    match characters with
    | ' ' :: rest => skipBlankLines (column + 1) carried fuel rest
    | '\t' :: rest => skipBlankLines ((column / 8 + 1) * 8) carried fuel rest
    | '\x0c' :: rest => skipBlankLines 0 carried fuel rest
    | '\\' :: '\n' :: rest =>
      if rest.isEmpty then none
      else skipBlankLines column (if carried = 0 then column else carried) fuel rest
    | '\n' :: rest => skipBlankLines 0 0 fuel rest
    | '#' :: rest =>
      match skipComment rest with
      | [] => some []
      | after => skipBlankLines 0 0 fuel (after.drop 1)
    | _ => if (if carried = 0 then column else carried) = 0 then some characters else none

def isBlankTail (characters : List Char) : Bool :=
  match skipBlankLines 0 0 (characters.length + 1) characters with
  | some [] => true
  | _ => false

def openerOf (closer : Char) : Char :=
  if closer == ')' then '(' else if closer == ']' then '[' else '\x7b'

/-- The letters before a quote that make a string raw, a byte string or a template. -/
structure StringKind where
  raw : Bool := false
  bytes : Bool := false
  template : Bool := false

def stringKind? (letters : List Char) : Option StringKind :=
  match letters.map Char.toLower with
  | [] | ['u'] => some {}
  | ['r'] => some { raw := true }
  | ['b'] => some { bytes := true }
  | ['f'] => some { template := true }
  | ['b', 'r'] | ['r', 'b'] => some { raw := true, bytes := true }
  | ['f', 'r'] | ['r', 'f'] => some { raw := true, template := true }
  | _ => none

def stringStart? (characters : List Char) : Option (StringKind × List Char) :=
  let letters := (characters.take 2).takeWhile Char.isAlpha
  let rest := characters.drop letters.length
  match rest with
  | quote :: _ =>
    if quote == '"' || quote == '\x27' then (stringKind? letters).map (·, rest) else none
  | [] => none

def readBody (characters : List Char) : Option (List Char × List Char) :=
  match characters with
  | quote :: second :: third :: rest =>
    if second == quote && third == quote then Literal.stringBody quote true [] rest
    else Literal.stringBody quote false [] (second :: third :: rest)
  | quote :: rest => Literal.stringBody quote false [] rest
  | [] => none

/-! ### Templates -/

/-- How a literal part of a template ends. -/
inductive LiteralEnd where
  | doubled
  | stop

/-- The literal part at the front of a template body, its end and the rest.  Braces are doubled only
at the outermost level. -/
def templateLiteral (raw : Bool) (level : Nat) (gathered : List Char) :
    List Char → Option (List Char × LiteralEnd × List Char)
  | [] => some (gathered.reverse, .stop, [])
  | '\\' :: character :: rest =>
    if raw || character == '\x7b' || character == '\x7d' then
      templateLiteral raw level ('\\' :: gathered) (character :: rest)
    else templateLiteral raw level (character :: '\\' :: gathered) rest
  | character :: rest =>
    if character == '\x7b' || character == '\x7d' then
      if level = 0 && rest.head? == some character then
        some ((character :: gathered).reverse, .doubled, rest.drop 1)
      else if level = 0 && character == '\x7d' then none
      else some (gathered.reverse, .stop, character :: rest)
    else templateLiteral raw level (character :: gathered) rest

/-- The source of an embedded expression and the rest from the mark that ends it: a conversion, a
format, an equals sign or the closing brace.  Brackets must balance; strings are passed over. -/
def embeddedSource (gathered : List Char) (quote : Option (Char × Bool)) (openers : List Char) :
    Nat → List Char → Option (List Char × List Char)
  | 0, _ => none
  | _ + 1, [] => none
  | fuel + 1, character :: rest =>
    if character == '\\' then none
    else
      match quote with
      | some (mark, long) =>
        if character == mark then
          if long then
            match rest with
            | second :: third :: after =>
              if second == mark && third == mark then
                embeddedSource (third :: second :: character :: gathered) none openers fuel after
              else embeddedSource (character :: gathered) quote openers fuel rest
            | _ => embeddedSource (character :: gathered) quote openers fuel rest
          else embeddedSource (character :: gathered) none openers fuel rest
        else embeddedSource (character :: gathered) quote openers fuel rest
      | none =>
        if character == '"' || character == '\x27' then
          match rest with
          | second :: third :: after =>
            if second == character && third == character then
              embeddedSource (third :: second :: character :: gathered) (some (character, true))
                openers fuel after
            else
              embeddedSource (character :: gathered) (some (character, false)) openers fuel rest
          | _ => embeddedSource (character :: gathered) (some (character, false)) openers fuel rest
        else if character == '(' || character == '[' || character == '\x7b' then
          embeddedSource (character :: gathered) none (character :: openers) fuel rest
        else if character == '#' then none
        else if openers.isEmpty && ['!', ':', '\x7d', '=', '<', '>'].contains character then
          if rest.head? == some '=' && ['!', '=', '<', '>'].contains character then
            embeddedSource ('=' :: character :: gathered) none openers fuel (rest.drop 1)
          else if character == '<' || character == '>' then
            embeddedSource (character :: gathered) none openers fuel rest
          else some (gathered.reverse, character :: rest)
        else if character == ')' || character == ']' || character == '\x7d' then
          match openers with
          | opener :: outer =>
            if opener == openerOf character then
              embeddedSource (character :: gathered) none outer fuel rest
            else none
          | [] => none
        else embeddedSource (character :: gathered) none openers fuel rest

def isBlankSource (source : List Char) : Bool :=
  source.all fun character =>
    character == ' ' || character == '\t' || character == '\n' || character == '\x0c'

def skipConversion : List Char → Option (List Char)
  | '!' :: mark :: rest =>
    if mark == 's' || mark == 'r' || mark == 'a' then some rest else none
  | ['!'] => none
  | characters => some characters

/-- The pieces of a template body and what follows them: the end at the outermost level, a closing
brace inside a format.  `lex` divides an embedded expression into tokens. -/
def templatePieces (lex : List Char → Option (List Token)) (raw : Bool) :
    Nat → Nat → List Char → Option (List Piece × List Char)
  | 0, _, _ => none
  | fuel + 1, level, characters => do
    let (literal, ending, rest) ← templateLiteral raw level [] characters
    let text ← Literal.bodyText raw literal
    match ending with
    | .doubled =>
      let (pieces, after) ← templatePieces lex raw fuel level rest
      return (.literal text :: pieces, after)
    | .stop =>
      match rest with
      | '\x7b' :: sourceFrom =>
        if 2 ≤ level then none
        let (source, mark) ← embeddedSource [] none [] (sourceFrom.length + 1) sourceFrom
        if isBlankSource source then none
        let tokens ← lex ('(' :: source ++ [')'])
        let (shown, afterEquals) :=
          match mark with
          | '=' :: after =>
            let blanks := after.takeWhile fun character =>
              character == ' ' || (0x09 ≤ character.toNat && character.toNat ≤ 0x0d)
            (source ++ '=' :: blanks, after.drop blanks.length)
          | _ => ([], mark)
        let afterConversion ← skipConversion afterEquals
        let (format, closing) ←
          match afterConversion with
          | ':' :: formatFrom => do
            let (pieces, after) ← templatePieces lex raw fuel (level + 1) formatFrom
            some (some pieces, after)
          | _ => some (none, afterConversion)
        match closing with
        | '\x7d' :: after =>
          let (pieces, tail) ← templatePieces lex raw fuel level after
          return (.literal text :: .literal (String.ofList shown) ::
            .embedded tokens format :: pieces, tail)
        | _ => none
      | _ => return ([.literal text], rest)

/-! ### Tokens of a line -/

def readWord (characters : List Char) : Option (Token × List Char) := do
  let word := characters.takeWhile Literal.isWordChar
  let rest := characters.drop word.length
  let text := String.ofList word
  if reservedWords.contains text then return (.mark text, rest)
  else
    match word with
    | first :: others =>
      if Text.isIdentifierStart first && others.all Text.isIdentifierPart then
        return (.word (Text.normalize text), rest)
      else none
    | [] => none

def readStringToken (lex : List Char → Option (List Token)) (kind : StringKind)
    (characters : List Char) : Option (Token × List Char) := do
  let (body, rest) ← readBody characters
  if kind.bytes then
    if Literal.isByteBody kind.raw body then return (.bytes, rest) else none
  else if kind.template then
    let (pieces, tail) ← templatePieces lex kind.raw (body.length + 1) 0 body
    if tail.isEmpty then return (.template pieces, rest) else none
  else
    let text ← Literal.bodyText kind.raw body
    return (.text text, rest)

def readMark (characters : List Char) : Option (String × List Char) :=
  (marks.find? fun mark => mark.toList.isPrefixOf characters).map
    fun mark => (mark, characters.drop mark.length)

def maxNesting : Nat := 200

def track (openers : List Char) (mark : String) : Option (List Char) :=
  match mark.toList with
  | [character] =>
    if character == '(' || character == '[' || character == '\x7b' then
      if openers.length < maxNesting then some (character :: openers) else none
    else if character == ')' || character == ']' || character == '\x7d' then
      match openers with
      | opener :: outer => if opener == openerOf character then some outer else none
      | [] => none
    else some openers
  | _ => some openers

/-- The token that begins with a character, the brackets that are open behind it, and what follows;
`openers` are the open brackets. -/
def readToken (lex : List Char → Option (List Token)) (openers : List Char) (first : Char)
    (rest : List Char) : Option (Token × List Char × List Char) :=
  match stringStart? (first :: rest) with
  | some (kind, body) => do
    let (token, after) ← readStringToken lex kind body
    return (token, openers, after)
  | none =>
    if first.isDigit || (first == '.' && (rest.head?.any Char.isDigit)) then do
      let (number, after) ←
        if first == '.' then Literal.readDecimal [] (first :: rest)
        else Literal.readNumber (first :: rest)
      return (.number number, openers, after)
    else if Literal.isWordChar first then do
      let (token, after) ← readWord (first :: rest)
      return (token, openers, after)
    else do
      let (mark, after) ← readMark (first :: rest)
      return (.mark mark, ← track openers mark, after)

/-- The tokens from a point within a line on. -/
def readTokens (lex : List Char → Option (List Token)) (openers : List Char) :
    Nat → List Char → Option (List Token)
  | 0, _ => none
  | _ + 1, [] => some []
  | fuel + 1, first :: rest =>
    if first == ' ' || first == '\t' || first == '\x0c' then readTokens lex openers fuel rest
    else if first == '#' then readTokens lex openers fuel (skipComment rest)
    else if first == '\n' then
      if openers.isEmpty then if isBlankTail rest then some [] else none
      else readTokens lex openers fuel rest
    else if first == '\\' then
      match rest with
      | '\n' :: after => if after.isEmpty then none else readTokens lex openers fuel after
      | _ => none
    else do
      let (token, openers, after) ← readToken lex openers first rest
      return token :: (← readTokens lex openers fuel after)

/-- Tokens of a text whose templates nest at most as deep as the fuel. -/
def tokensWithin : Nat → List Char → Option (List Token)
  | 0, _ => none
  | fuel + 1, characters => do
    let start ← skipBlankLines 0 0 (characters.length + 1) characters
    readTokens (tokensWithin fuel) [] (start.length + 1) start

def tokens (source : String) : Option (List Token) :=
  let characters := unifyLineEnds source.toList
  if characters.contains (Char.ofNat 0) then none
  else tokensWithin (characters.length + 1) characters

end ApiDescription.Lexer
