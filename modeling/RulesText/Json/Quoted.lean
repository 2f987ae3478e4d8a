import RulesText.Json.Fault

/-!
# Quoted strings

A quoted string is kept as it is written, in pieces: characters and the numeric escapes, each of
which is one UTF-16 unit. Only its value asks whether the units pair up, so a string that is
passed over may hold unpaired ones.
-/

namespace RulesText.Json

/-- A part of a quoted string. -/
inductive Piece where
  | char (c : Char)
  | unit (code : Nat)
  deriving DecidableEq, Repr

/-- How a quoted string ends: at its closing quote, with the text, or before something that
cannot stand in it. -/
inductive QuoteEnd where
  | closed
  | unfinished
  | controlCharacter
  | badEscape
  | badUnit
  deriving DecidableEq, Repr

/-- A quoted string as it is written. -/
structure Quoted where
  pieces : List Piece
  ending : QuoteEnd
  deriving DecidableEq, Repr

/-! ## Scanning -/

/-- The value of a hexadecimal digit. -/
def hexDigit? (c : Char) : Option Nat :=
  if c.isDigit then some (c.toNat - '0'.toNat)
  else if 'a' ≤ c ∧ c ≤ 'f' then some (c.toNat - 'a'.toNat + 10)
  else if 'A' ≤ c ∧ c ≤ 'F' then some (c.toNat - 'A'.toNat + 10)
  else none

/-- The unit of four hexadecimal digits. -/
def unit? (a b c d : Char) : Option Nat := do
  return (← hexDigit? a) * 4096 + (← hexDigit? b) * 256 + (← hexDigit? c) * 16 + (← hexDigit? d)

/-- The character of a short escape. -/
def shortEscape? : Char → Option Char
  | '"' => some '"'
  | '\\' => some '\\'
  | '/' => some '/'
  | 'b' => some '\x08'
  | 'f' => some '\x0c'
  | 'n' => some '\n'
  | 'r' => some '\r'
  | 't' => some '\t'
  | _ => none

/-- A piece in front of what was scanned after it. -/
def pushPiece (piece : Piece) (scanned : Quoted × List Char) : Quoted × List Char :=
  ({ scanned.1 with pieces := piece :: scanned.1.pieces }, scanned.2)

/-- The string behind an opening quote, and the rest of the text. A numeric escape needs four
bytes behind it before its digits are looked at. -/
def scanQuoted : List Char → Quoted × List Char
  | [] => (⟨[], .unfinished⟩, [])
  | '"' :: rest => (⟨[], .closed⟩, rest)
  | '\\' :: [] => (⟨[], .unfinished⟩, [])
  | '\\' :: 'u' :: a :: b :: c :: d :: rest =>
    match unit? a b c d with
    | some code => pushPiece (.unit code) (scanQuoted rest)
    | none => (⟨[], .badUnit⟩, [])
  | '\\' :: 'u' :: rest =>
    if (String.ofList rest).utf8ByteSize < 4 then (⟨[], .unfinished⟩, []) else (⟨[], .badUnit⟩, [])
  | '\\' :: e :: rest =>
    match shortEscape? e with
    | some c => pushPiece (.char c) (scanQuoted rest)
    | none => (⟨[], .badEscape⟩, [])
  | c :: rest =>
    if c < ' ' then (⟨[], .controlCharacter⟩, []) else pushPiece (.char c) (scanQuoted rest)

/-! ## Value -/

/-- Whether the string is well formed, its units left aside. -/
def QuoteEnd.check : QuoteEnd → Except Fault Unit
  | .closed => .ok ()
  | .unfinished => .error (.unfinished .string)
  | .controlCharacter => .error (.malformed .controlCharacter)
  | .badEscape | .badUnit => .error (.malformed .badEscape)

/-- What is wrong where a high surrogate stands last. -/
def QuoteEnd.afterHigh : QuoteEnd → Fault
  | .unfinished => .unfinished .string
  | .badUnit => .malformed .badEscape
  | .closed | .controlCharacter | .badEscape => .malformed .brokenPair

/-- A unit that is the first of a pair. -/
def isHigh (code : Nat) : Bool := 0xD800 ≤ code && code < 0xDC00

/-- A unit that is the second of a pair. -/
def isLow (code : Nat) : Bool := 0xDC00 ≤ code && code < 0xE000

/-- The character of a pair. -/
def ofPair (high low : Nat) : Char :=
  Char.ofNat (0x10000 + (high - 0xD800) * 0x400 + (low - 0xDC00))

/-- The characters of the pieces, up to the first fault. -/
def decode (ending : QuoteEnd) : List Piece → Except Fault (List Char)
  | [] => do ending.check; pure []
  | .char c :: rest => return c :: (← decode ending rest)
  | .unit code :: rest =>
    if isLow code then .error (.malformed .loneSurrogate)
    else if isHigh code then
      match rest with
      | .unit low :: rest =>
        if isLow low then return ofPair code low :: (← decode ending rest)
        else .error (.malformed .loneSurrogate)
      | .char _ :: _ => .error (.malformed .brokenPair)
      | [] => .error ending.afterHigh
    else return Char.ofNat code :: (← decode ending rest)

/-- The text that a quoted string stands for. -/
def Quoted.value (q : Quoted) : Except Fault String :=
  (decode q.ending q.pieces).map String.ofList

/-- Whether the quoted string stands for the text. -/
def Quoted.is (q : Quoted) (text : String) : Bool :=
  match q.value with
  | .ok value => value == text
  | .error _ => false

end RulesText.Json
