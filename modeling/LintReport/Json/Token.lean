/-
  LintReport.Json.Token — a JSON text cut into tokens, each with the position of its first
  character.

  Between tokens only the four blanks of JSON are skipped. A word or a numeral ends where no longer
  one could, whatever follows. A quoted text that cannot be read and a character that begins no
  token take the rest of the text with them, since no decoder reads on behind them.
-/

import LintReport.Json.Fault
import LintReport.Json.Value

namespace LintReport.Json

open Text (Symbol Numeral.ofDigits)
open Number (Binary64 Decimal)

inductive Token where
  | arrayOpen
  | arrayClose
  | objectOpen
  | objectClose
  | comma
  | colon
  | word (value : Value)
  | integer (negative : Bool) (digits : Text)
  | decimal (numeral : Decimal)
  | text (s : List Symbol)
  | brokenText (cause : Cause) (position : Nat)
  | stray

structure Placed where
  token : Token
  position : Nat

def isSpace (c : Char) : Bool := c = ' ' || c = '\t' || c = '\n' || c = '\r'

def words : List (Text × Value) :=
  [("null".toList, .null), ("true".toList, .bool true), ("false".toList, .bool false),
    ("NaN".toList, .float .nan), ("Infinity".toList, .float (.infinity false)),
    ("-Infinity".toList, .float (.infinity true))]

/-! ## Numerals -/

/-- The parts of a numeral as they are written; a part that is missing is empty. -/
structure Lexeme where
  sign : Text
  whole : Text
  fraction : Text
  exponent : Text
  deriving DecidableEq, Repr

/-- A point with digits behind it. -/
def fractionOf (s : Text) : Text :=
  match s with
  | '.' :: rest =>
    let digits := rest.takeWhile Char.isDigit
    if digits = [] then [] else '.' :: digits
  | _ => []

/-- The letter e, perhaps a sign, and digits. -/
def exponentOf (s : Text) : Text :=
  match s with
  | e :: rest =>
    if e = 'e' ∨ e = 'E' then
      let sign := (rest.take 1).filter fun c => c = '+' || c = '-'
      let digits := (rest.drop sign.length).takeWhile Char.isDigit
      if digits = [] then [] else e :: (sign ++ digits)
    else []
  | [] => []

/-- The numeral at the head of a text. A zero stands alone before the point. -/
def lexeme? (s : Text) : Option Lexeme :=
  let sign := (s.take 1).filter (· = '-')
  let rest := s.drop sign.length
  let digits := rest.takeWhile Char.isDigit
  let whole := if digits.head? = some '0' then ['0'] else digits
  if whole = [] then none
  else
    let fraction := fractionOf (rest.drop whole.length)
    let exponent := exponentOf (rest.drop (whole.length + fraction.length))
    some ⟨sign, whole, fraction, exponent⟩

def Lexeme.length (x : Lexeme) : Nat :=
  x.sign.length + x.whole.length + x.fraction.length + x.exponent.length

def exponentValue (s : Text) : Int :=
  let n : Int := Numeral.ofDigits (s.filter Char.isDigit)
  if '-' ∈ s then -n else n

def Lexeme.token (x : Lexeme) : Token :=
  if x.fraction = [] ∧ x.exponent = [] then .integer (x.sign ≠ []) x.whole
  else
    let places := x.fraction.drop 1
    .decimal ⟨x.sign ≠ [], Numeral.ofDigits (x.whole ++ places),
      exponentValue x.exponent - places.length⟩

/-! ## Quoted texts -/

def hexValue? (c : Char) : Option Nat :=
  if c.isDigit then some (c.toNat - '0'.toNat)
  else if 'a' ≤ c ∧ c ≤ 'f' then some (c.toNat - 'a'.toNat + 10)
  else if 'A' ≤ c ∧ c ≤ 'F' then some (c.toNat - 'A'.toNat + 10)
  else none

/-- Four hexadecimal digits that more text follows. -/
def hex4? : Text → Option Nat
  | a :: b :: c :: d :: _ :: _ => do
    return (((← hexValue? a) * 16 + (← hexValue? b)) * 16 + (← hexValue? c)) * 16 + (← hexValue? d)
  | _ => none

def simpleEscapes : List (Char × Char) :=
  [('"', '"'), ('\\', '\\'), ('/', '/'), ('b', '\x08'), ('f', '\x0c'), ('n', '\n'), ('r', '\r'),
    ('t', '\t')]

def isHigh (code : Nat) : Bool := 0xD800 ≤ code && code < 0xDC00

def isLow (code : Nat) : Bool := 0xDC00 ≤ code && code < 0xE000

def symbolOf (code : Nat) : Symbol :=
  if isHigh code || isLow code then .half code else .char (Char.ofNat code)

/-- What the escape behind a backslash at `pos` stands for, and how many characters it takes. The
upper half of a surrogate pair looks for the lower one in an escape of its own, which must be well
formed where there is room for it. -/
def escape (pos : Nat) : Text → Except (Cause × Nat) (Symbol × Nat)
  | 'u' :: rest =>
    match hex4? rest with
    | none => .error (.unicodeEscape, pos + 1)
    | some code =>
      match rest.drop 4 with
      | '\\' :: 'u' :: second =>
        if isHigh code && 5 ≤ second.length then
          match hex4? second with
          | none => .error (.unicodeEscape, pos + 7)
          | some low =>
            if isLow low then
              .ok (.char (Char.ofNat (0x10000 + (code - 0xD800) * 0x400 + (low - 0xDC00))), 11)
            else .ok (symbolOf code, 5)
        else .ok (symbolOf code, 5)
      | _ => .ok (symbolOf code, 5)
  | c :: _ =>
    match simpleEscapes.lookup c with
    | some d => .ok (.char d, 1)
    | none => .error (.escape, pos)
  | [] => .error (.unterminatedText, pos)

/-- Reads a quoted text from behind its opening quote, which stands at `opening`; skips so many
characters first. Gives its symbols and the position behind the closing quote. -/
def readText (opening : Nat) : Nat → Nat → Text → Except (Cause × Nat) (List Symbol × Nat)
  | _, _, [] => .error (.unterminatedText, opening)
  | k + 1, pos, _ :: cs => readText opening k (pos + 1) cs
  | 0, pos, c :: cs =>
    if c = '"' then .ok ([], pos + 1)
    else if c = '\\' then
      match cs with
      | [] => .error (.unterminatedText, opening)
      | _ => do
        let (symbol, more) ← escape pos cs
        let (symbols, last) ← readText opening more (pos + 1) cs
        return (symbol :: symbols, last)
    else if c.toNat < 0x20 then .error (.controlCharacter, pos)
    else do
      let (symbols, last) ← readText opening 0 (pos + 1) cs
      return (.char c :: symbols, last)

/-! ## Tokens -/

def punctuation : List (Char × Token) :=
  [('[', .arrayOpen), (']', .arrayClose), ('\x7b', .objectOpen), ('\x7d', .objectClose),
    (',', .comma), (':', .colon)]

/-- The token that begins with `c` at `pos`, and how many of the characters `cs` behind it belong
to it. -/
def tokenAt (pos : Nat) (c : Char) (cs : Text) : Token × Nat :=
  match punctuation.lookup c with
  | some t => (t, 0)
  | none =>
    if c = '"' then
      match readText pos 0 (pos + 1) cs with
      | .ok (s, last) => (.text s, last - pos - 1)
      | .error (cause, position) => (.brokenText cause position, cs.length)
    else
      match words.find? fun w => w.1.isPrefixOf (c :: cs) with
      | some (name, value) => (.word value, name.length - 1)
      | none =>
        match lexeme? (c :: cs) with
        | some x => (x.token, x.length - 1)
        | none => (.stray, cs.length)

def tokensFrom : Nat → Nat → Text → List Placed
  | _, _, [] => []
  | k + 1, pos, _ :: cs => tokensFrom k (pos + 1) cs
  | 0, pos, c :: cs =>
    if isSpace c then tokensFrom 0 (pos + 1) cs
    else
      let (token, more) := tokenAt pos c cs
      ⟨token, pos⟩ :: tokensFrom more (pos + 1) cs

def tokens (text : Text) : List Placed := tokensFrom 0 0 text

end LintReport.Json
