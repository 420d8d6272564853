import NodeAgent.Disk.Basic
/-!
# Scripts

Provisioning commands are mostly short scripts. A script is a list of simple commands, each joined
to the ones before it: it runs in any case, or only after a success, or only after a failure. A
simple command has words and says where its output goes.

Reading a script goes by characters first and by tokens then. Quotes keep blanks and operators from
being what they are; a parameter is replaced when the command is run, so a word is not a text yet
but a list of letters. Of the language only this much is read: a script that uses more is malformed.
-/

namespace NodeAgent.Script

/-- A part of a word. -/
inductive Letter where
  | plain (c : Char)
  | quoted (c : Char)
  /-- Stands for the value of a parameter. -/
  | parameter (name : Char) (isQuoted : Bool)
  /-- Quotes begin here. They make a word, even an empty one. -/
  | quotes
deriving DecidableEq

/-- A word before parameters are replaced. -/
abbrev Word := List Letter

/-- A token of a script. -/
inductive Token where
  | word (w : Word)
  | operator (text : String)
  /-- The number of the stream that is redirected next. -/
  | stream (number : Nat)
deriving DecidableEq

/-! ## Tokens -/

/-- Where in a script the reader is. -/
inductive Mode where
  | plain
  | singleQuotes
  | doubleQuotes
  | escape (inQuotes : Bool)
  | dollar (inQuotes : Bool)
  /-- In the name of a variable. None is ever set. -/
  | name (inQuotes : Bool)
  | operator (c : Char)
  | comment
  | malformed
deriving DecidableEq

/-- What was read of a script. -/
structure Reading where
  mode : Mode := .plain
  /-- The letters of the word that is being read, last first. -/
  word : Option Word := none
  /-- The tokens, last first. -/
  tokens : List Token := []

namespace Reading

/-- One more letter. -/
def letter (l : Letter) (r : Reading) : Reading := { r with word := some (l :: r.word.getD []) }

/-- One more token. -/
def token (t : Token) (r : Reading) : Reading := { r with tokens := t :: r.tokens }

/-- Ends the word. -/
def endWord (r : Reading) : Reading :=
  match r.word with
  | none => r
  | some w => { r with word := none }.token (.word w.reverse)

/-- Goes on in another mode. -/
def within (m : Mode) (r : Reading) : Reading := { r with mode := m }

/-- The mode inside or outside of double quotes. -/
def quoteMode (inQuotes : Bool) : Mode := if inQuotes then .doubleQuotes else .plain

/-- The sign of a command substitution. -/
def backquote : Char := Char.ofNat 0x60

/-- Begins an operator. A single digit right before a redirection is the number of a stream. -/
def beginOperator (c : Char) (r : Reading) : Reading :=
  let r := match r.word with
    | some [.plain d] =>
      if d.isDigit && (c = '>' || c = '<') then
        { r with word := none }.token (.stream (d.toNat - 48))
      else r.endWord
    | _ => r.endWord
  r.within (.operator c)

/-- A character outside of quotes. -/
def plainStep (r : Reading) (c : Char) : Reading :=
  if c = '\'' then (r.letter .quotes).within .singleQuotes
  else if c = '"' then (r.letter .quotes).within .doubleQuotes
  else if c = '\\' then r.within (.escape false)
  else if c = '$' then r.within (.dollar false)
  else if c = '#' ∧ r.word.isNone then r.within .comment
  else if c = ' ' ∨ c = '\t' then r.endWord
  else if c = '\n' then r.endWord.token (.operator "\n")
  else if c ∈ [';', '&', '|', '<', '>', '(', ')'] then r.beginOperator c
  else if c = backquote then r.within .malformed
  else r.letter (.plain c)

/-- A character inside double quotes. -/
def quotedStep (r : Reading) (c : Char) : Reading :=
  if c = '"' then r.within .plain
  else if c = '\\' then r.within (.escape true)
  else if c = '$' then r.within (.dollar true)
  else if c = backquote then r.within .malformed
  else r.letter (.quoted c)

/-- A character inside or outside of double quotes. -/
def textStep (inQuotes : Bool) (r : Reading) (c : Char) : Reading :=
  let r := r.within (quoteMode inQuotes)
  if inQuotes then r.quotedStep c else r.plainStep c

/-- A character after a dollar sign. -/
def dollarStep (inQuotes : Bool) (r : Reading) (c : Char) : Reading :=
  if c.isDigit ∨ c ∈ ['$', '?', '#', '@', '*', '!', '-'] then
    (r.letter (.parameter c inQuotes)).within (quoteMode inQuotes)
  else if c.isAlpha ∨ c = '_' then r.within (.name inQuotes)
  else if c = '(' ∨ c = '{' then r.within .malformed
  else (r.letter (.quoted '$')).textStep inQuotes c

/-- The next character. -/
def step (r : Reading) (c : Char) : Reading :=
  match r.mode with
  | .plain => r.plainStep c
  | .doubleQuotes => r.quotedStep c
  | .singleQuotes => if c = '\'' then r.within .plain else r.letter (.quoted c)
  | .escape false =>
    if c = '\n' then r.within .plain else (r.letter (.quoted c)).within .plain
  | .escape true =>
    if c = '\n' then r.within .doubleQuotes
    else if c ∈ ['$', '"', '\\', backquote] then (r.letter (.quoted c)).within .doubleQuotes
    else ((r.letter (.quoted '\\')).letter (.quoted c)).within .doubleQuotes
  | .dollar q => r.dollarStep q c
  | .name q => if c.isAlphanum ∨ c = '_' then r else r.textStep q c
  | .operator o =>
    let two := String.ofList [o, c]
    if two ∈ ["&&", "||", ">>", ">&"] then (r.token (.operator two)).within .plain
    else ((r.token (.operator (String.singleton o))).within .plain).plainStep c
  | .comment => if c = '\n' then (r.within .plain).plainStep c else r
  | .malformed => r

/-- The tokens that were read, unless something is left open. -/
def tokens? (r : Reading) : Option (List Token) :=
  match r.mode with
  | .plain | .comment | .name false => some r.endWord.tokens.reverse
  | .dollar false => some (r.letter (.quoted '$')).endWord.tokens.reverse
  | .operator o => some (r.token (.operator (String.singleton o))).tokens.reverse
  | _ => none

end Reading

/-- The tokens of a script. -/
def tokens? (script : String) : Option (List Token) :=
  (script.toList.foldl Reading.step {}).tokens?

/-! ## Commands -/

/-- Sends a stream elsewhere. -/
structure Redirect where
  stream : Nat
  operator : String
  target : Word
deriving DecidableEq

/-- A simple command. -/
structure Simple where
  words : List Word := []
  redirects : List Redirect := []
deriving DecidableEq

/-- When a command is run. -/
inductive Joint where
  | always
  | ifOk
  | ifFailed
deriving DecidableEq

namespace Simple

/-- Whether nothing was read of the command. -/
def isEmpty (c : Simple) : Bool := c.words.isEmpty && c.redirects.isEmpty

/-- The command with one more redirection. The operator says which stream is meant, if nothing else
does. -/
def redirect (c : Simple) (stream : Option Nat) (operator : String) (target : Word) : Simple :=
  let stream := stream.getD (if operator = "<" then 0 else 1)
  { c with redirects := c.redirects ++ [⟨stream, operator, target⟩] }

end Simple

/-- The joint that an operator makes. -/
def joint? : String → Option Joint
  | ";" | "\n" => some .always
  | "&&" => some .ifOk
  | "||" => some .ifFailed
  | _ => none

/-- Whether an operator redirects a stream. -/
def redirects (operator : String) : Bool := operator ∈ [">", ">>", ">&", "<"]

/-- The commands of tokens; `c` is the command that is being read, after the joint `j`. -/
def commands? (j : Joint) (c : Simple) : List Token → Option (List (Joint × Simple))
  | [] => if c.isEmpty then if j = .always then some [] else none else some [(j, c)]
  | .word w :: ts => commands? j { c with words := c.words ++ [w] } ts
  | .stream n :: .operator o :: .word w :: ts =>
    if redirects o then commands? j (c.redirect (some n) o w) ts else none
  | .operator o :: .word w :: ts =>
    if redirects o then commands? j (c.redirect none o w) ts
    else
      match joint? o with
      | none => none
      | some j' =>
        if c.isEmpty then if o = "\n" then commands? j { words := [w] } ts else none
        else (commands? j' { words := [w] } ts).map ((j, c) :: ·)
  | .operator o :: ts =>
    match joint? o with
    | none => none
    | some j' =>
      if c.isEmpty then if o = "\n" then commands? j {} ts else none
      else (commands? j' {} ts).map ((j, c) :: ·)
  | .stream _ :: _ => none

/-- The commands of a script, unless it is malformed. -/
def parse? (script : String) : Option (List (Joint × Simple)) :=
  (tokens? script).bind (commands? .always {})

end NodeAgent.Script
