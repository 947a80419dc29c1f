namespace Spreadsheet.Toml

/-- Reads a value off the front of a text, and gives the rest of the text. -/
def Reader (α : Type) := List Char → Option (α × List Char)

namespace Reader

variable {α β : Type}

instance : Monad Reader where
  pure value := fun text => some (value, text)
  bind reader next := fun text =>
    match reader text with
    | some (value, rest) => next value rest
    | none => none

def fail : Reader α :=
  fun _ => none

def orElse (first second : Reader α) : Reader α :=
  fun text =>
    match first text with
    | some result => some result
    | none => second text

def oneOf : List (Reader α) → Reader α
  | [] => fail
  | reader :: rest => orElse reader (oneOf rest)

def optional (reader : Reader α) : Reader (Option α) :=
  orElse (some <$> reader) (pure none)

def satisfying (kind : Char → Bool) : Reader Char
  | c :: rest => if kind c then some (c, rest) else none
  | [] => none

def char (c : Char) : Reader Char :=
  satisfying (· == c)

def exactly : List Char → Reader Unit
  | [] => pure ()
  | c :: rest => do
    discard (char c)
    exactly rest

def all (kind : Char → Bool) : Reader (List Char) :=
  fun text => some (text.takeWhile kind, text.dropWhile kind)

def some1 (kind : Char → Bool) : Reader (List Char) := do
  let first ← satisfying kind
  let rest ← all kind
  return first :: rest

def times (kind : Char → Bool) : Nat → Reader (List Char)
  | 0 => pure []
  | count + 1 => do
    let first ← satisfying kind
    let rest ← times kind count
    return first :: rest

def upTo (reader : Reader α) : Nat → Reader (List α)
  | 0 => pure []
  | count + 1 => orElse
      (do
        let first ← reader
        let rest ← upTo reader count
        return first :: rest)
      (pure [])

/-- Reads values one after another, as long as it can. Each value takes a character at least. -/
def many (reader : Reader α) : Reader (List α) :=
  fun text => upTo reader text.length text

def separated (reader : Reader α) (separator : Reader β) : Reader (List α) := do
  let first ← reader
  let rest ← many (separator *> reader)
  return first :: rest

/-- Checks what comes next without reading it. -/
def notBefore (reader : Reader α) : Reader Unit :=
  fun text =>
    match reader text with
    | some _ => none
    | none => some ((), text)

def verify (reader : Reader α) (test : α → Bool) : Reader α := do
  let value ← reader
  if test value then return value else fail

def whole (reader : Reader α) (text : List Char) : Option α :=
  match reader text with
  | some (value, []) => some value
  | _ => none

end Reader

end Spreadsheet.Toml
