import Lookalike.Json.Reader

/-! # Strings, keys and line ends in TOML

A string stands between double quotes, where a backslash escapes, or between single quotes, where
nothing does. Three quotes hold several lines: a line end right after the opening is dropped and
the others are kept as they are written, and up to two quotes right before the closing belong to
the string. A key is a list of at most `maxWords` bare or quoted words joined by points. Comments
reach to the end of their line. -/

namespace Lookalike.Toml

def isBlank (c : Char) : Bool := c == ' ' || c == '\t'

def skipBlanks (cs : List Char) : List Char := cs.dropWhile isBlank

/-- The characters that a line may hold: all but the controls, of which the tab is one. -/
def isLineChar (c : Char) : Bool := c == '\t' || (decide (0x20 ≤ c.toNat) && c.toNat != 0x7F)

/-- Reads a line end. -/
def readNewline? : List Char → Option (List Char)
  | '\n' :: cs => some cs
  | '\r' :: '\n' :: cs => some cs
  | _ => none

/-- Skips blanks, line ends and comments; nothing for a control inside a comment. -/
def skipLines (inComment : Bool) : List Char → Option (List Char)
  | [] => some []
  | '\n' :: cs => skipLines false cs
  | '\r' :: '\n' :: cs => skipLines false cs
  | c :: cs =>
      if inComment then
        if isLineChar c then skipLines true cs else none
      else if isBlank c then skipLines false cs
      else if c = '#' then skipLines true cs
      else some (c :: cs)

/-- Skips the rest of a line that holds no more than blanks and a comment. -/
def endLine (inComment : Bool) : List Char → Option (List Char)
  | [] => some []
  | '\n' :: cs => some cs
  | '\r' :: '\n' :: cs => some cs
  | c :: cs =>
      if inComment then
        if isLineChar c then endLine true cs else none
      else if isBlank c then endLine false cs
      else if c = '#' then endLine true cs
      else none

/-! ### Strings -/

/-- The character of a code point that is one. -/
def scalar? (n : Nat) : Option Char :=
  if n < 0xD800 ∨ (0xE000 ≤ n ∧ n < 0x110000) then some (Char.ofNat n) else none

/-- The character of some hexadecimal digits. -/
def hexChar? (digits : List Char) : Option Char := do
  let values ← digits.mapM Json.hexValue?
  scalar? (values.foldl (fun n d => n * 16 + d) 0)

/-- The character of an escape of one letter. -/
def shortEscape? (c : Char) : Option Char :=
  if c = '"' ∨ c = '\\' then some c
  else if c = 'b' then some '\x08'
  else if c = 't' then some '\x09'
  else if c = 'n' then some '\x0a'
  else if c = 'f' then some '\x0c'
  else if c = 'r' then some '\x0d'
  else if c = 'e' then some '\x1b'
  else none

/-- Whether nothing but blanks comes before the end of the line. -/
def lineIsOver (cs : List Char) : Bool := (readNewline? (skipBlanks cs)).isSome

/-- Reads a string between double quotes whose opening has been read; while `skipping`, the blanks
and line ends after a backslash at the end of a line are left out. -/
def readQuoted (multiline skipping : Bool) : List Char → Option (List Char × List Char)
  | [] => none
  | c :: cs =>
      if skipping && (isBlank c || c == '\n' || (c == '\r' && cs.head? == some '\n')) then
        readQuoted multiline true cs
      else if c = '"' then
        if multiline then
          match cs with
          | '"' :: '"' :: '"' :: '"' :: cs => some (['"', '"'], cs)
          | '"' :: '"' :: '"' :: cs => some (['"'], cs)
          | '"' :: '"' :: cs => some ([], cs)
          | cs => (readQuoted multiline false cs).map fun r => ('"' :: r.1, r.2)
        else some ([], cs)
      else if c = '\\' then
        match cs with
        | 'x' :: a :: b :: cs => do
            let e ← hexChar? [a, b]
            (readQuoted multiline false cs).map fun r => (e :: r.1, r.2)
        | 'u' :: a :: b :: c :: d :: cs => do
            let e ← hexChar? [a, b, c, d]
            (readQuoted multiline false cs).map fun r => (e :: r.1, r.2)
        | 'U' :: a :: b :: c :: d :: w :: x :: y :: z :: cs => do
            let e ← hexChar? [a, b, c, d, w, x, y, z]
            (readQuoted multiline false cs).map fun r => (e :: r.1, r.2)
        | e :: rest =>
            if multiline && lineIsOver (e :: rest) then readQuoted multiline true (e :: rest)
            else
              match shortEscape? e with
              | none => none
              | some e => (readQuoted multiline false rest).map fun r => (e :: r.1, r.2)
        | [] => none
      else if multiline && c == '\n' then
        (readQuoted multiline false cs).map fun r => ('\n' :: r.1, r.2)
      else if multiline && c == '\r' && cs.head? == some '\n' then
        (readQuoted multiline false cs).map fun r => ('\r' :: r.1, r.2)
      else if isLineChar c then (readQuoted multiline false cs).map fun r => (c :: r.1, r.2)
      else none

/-- Reads a string between single quotes whose opening has been read. -/
def readLiteral (multiline : Bool) : List Char → Option (List Char × List Char)
  | [] => none
  | c :: cs =>
      if c = '\'' then
        if multiline then
          match cs with
          | '\'' :: '\'' :: '\'' :: '\'' :: cs => some (['\'', '\''], cs)
          | '\'' :: '\'' :: '\'' :: cs => some (['\''], cs)
          | '\'' :: '\'' :: cs => some ([], cs)
          | cs => (readLiteral multiline cs).map fun r => ('\'' :: r.1, r.2)
        else some ([], cs)
      else if multiline && c == '\n' then
        (readLiteral multiline cs).map fun r => ('\n' :: r.1, r.2)
      else if multiline && c == '\r' && cs.head? == some '\n' then
        (readLiteral multiline cs).map fun r => ('\r' :: r.1, r.2)
      else if isLineChar c then (readLiteral multiline cs).map fun r => (c :: r.1, r.2)
      else none

/-- Drops a line end right after three opening quotes. -/
def dropNewline (cs : List Char) : List Char := (readNewline? cs).getD cs

/-- Reads a string of any of the four forms. -/
def readString : List Char → Option (String × List Char)
  | '"' :: '"' :: '"' :: cs => text (readQuoted true false (dropNewline cs))
  | '"' :: cs => text (readQuoted false false cs)
  | '\'' :: '\'' :: '\'' :: cs => text (readLiteral true (dropNewline cs))
  | '\'' :: cs => text (readLiteral false cs)
  | _ => none
where
  /-- The string of the characters read. -/
  text (r : Option (List Char × List Char)) : Option (String × List Char) :=
    r.map fun r => (String.ofList r.1, r.2)

/-! ### Keys -/

/-- The characters of a bare word. -/
def isBareChar (c : Char) : Bool := c.isAlphanum || c == '_' || c == '-'

/-- Reads one word of a key. -/
def readWord : List Char → Option (String × List Char)
  | '"' :: cs => (readQuoted false false cs).map fun r => (String.ofList r.1, r.2)
  | '\'' :: cs => (readLiteral false cs).map fun r => (String.ofList r.1, r.2)
  | cs =>
      let word := cs.takeWhile isBareChar
      if word.isEmpty then none else some (String.ofList word, cs.dropWhile isBareChar)

/-- Reads words joined by points: those before the last, and the last. -/
def readWords (cs : List Char) : Option ((List String × String) × List Char) :=
  match readWord cs with
  | none => none
  | some (word, rest) =>
      match skipBlanks rest with
      | '.' :: rest =>
          let rest := skipBlanks rest
          if rest.length < cs.length then
            (readWords rest).map fun r => ((word :: r.1.1, r.1.2), r.2)
          else none
      | rest => some (([], word), rest)
termination_by cs.length

/-- The most words that a key may have. -/
def maxWords : Nat := 80

/-- Reads a key: the words before the last, and the last. -/
def readKey (cs : List Char) : Option ((List String × String) × List Char) :=
  (readWords cs).filter fun r => decide (r.1.1.length < maxWords)

end Lookalike.Toml
