/-!
# Reading JSON text

The parts of RFC 8259 that a reader of configuration needs: strings, unsigned integers, and passing
over any other value. Every reader takes a list of characters and gives back what it read and the
characters that follow, or nothing if the text is malformed.

A string that is read must pair its surrogate escapes; one that is passed over need only have
four hexadecimal digits after each `u` escape. Values that are passed over may be nested to any
depth.
-/

namespace ShieldedPayments.Text.Json

/-- The characters between tokens. -/
def isBlank (c : Char) : Bool :=
  c == ' ' || c == '\t' || c == '\n' || c == '\r'

/-- The text from the next token on. -/
def skipBlanks (s : List Char) : List Char :=
  s.dropWhile isBlank

/-- The value of a hexadecimal digit. -/
def hexValue? (c : Char) : Option Nat :=
  if '0' ≤ c ∧ c ≤ '9' then some (c.toNat - 48)
  else if 'a' ≤ c ∧ c ≤ 'f' then some (c.toNat - 87)
  else if 'A' ≤ c ∧ c ≤ 'F' then some (c.toNat - 55)
  else none

/-- Four hexadecimal digits. -/
def readUnit : List Char → Option (Nat × List Char)
  | a :: b :: c :: d :: rest => do
    let n := 16 * (16 * (16 * (← hexValue? a) + (← hexValue? b)) + (← hexValue? c)) + (← hexValue? d)
    return (n, rest)
  | _ => none

/-- The character that a one-letter escape stands for. -/
def shortEscape? : Char → Option Char
  | '"' => some '"'
  | '\\' => some '\\'
  | '/' => some '/'
  | 'b' => some '\x08'
  | 'f' => some '\x0c'
  | 'n' => some '\n'
  | 'r' => some '\r'
  | 't' => some '\t'
  | _ => none

/-- The character of an escape by its code, after the letter `u`. A high surrogate needs the escape
of a low one behind it. -/
def readCoded (s : List Char) : Option (Char × List Char) := do
  let (n, rest) ← readUnit s
  if 0xD800 ≤ n ∧ n ≤ 0xDBFF then
    match rest with
    | '\\' :: 'u' :: rest =>
      let (m, rest) ← readUnit rest
      if 0xDC00 ≤ m ∧ m ≤ 0xDFFF then
        some (Char.ofNat (0x10000 + (n - 0xD800) * 0x400 + (m - 0xDC00)), rest)
      else none
    | _ => none
  else if 0xDC00 ≤ n ∧ n ≤ 0xDFFF then none
  else some (Char.ofNat n, rest)

/-- The characters of a string up to its closing quote. The fuel bounds their number. -/
def readStringBody : (fuel : Nat) → List Char → Option (List Char × List Char)
  | 0, _ => none
  | _ + 1, [] => none
  | _ + 1, '"' :: rest => some ([], rest)
  | fuel + 1, '\\' :: 'u' :: rest => do
    let (c, rest) ← readCoded rest
    let (tail, rest) ← readStringBody fuel rest
    return (c :: tail, rest)
  | fuel + 1, '\\' :: letter :: rest => do
    let c ← shortEscape? letter
    let (tail, rest) ← readStringBody fuel rest
    return (c :: tail, rest)
  | fuel + 1, c :: rest =>
    if c == '\\' || c.toNat < 0x20 then none
    else do
      let (tail, rest) ← readStringBody fuel rest
      return (c :: tail, rest)

/-- A string, after its opening quote. -/
def readString (s : List Char) : Option (String × List Char) := do
  let (cs, rest) ← readStringBody (s.length + 1) s
  return (String.ofList cs, rest)

/-- Passes over a string up to and including its closing quote. -/
def skipString : List Char → Option (List Char)
  | [] => none
  | '"' :: rest => some rest
  | '\\' :: 'u' :: a :: b :: c :: d :: rest =>
    if (readUnit [a, b, c, d]).isSome then skipString rest else none
  | '\\' :: letter :: rest => if (shortEscape? letter).isSome then skipString rest else none
  | c :: rest => if c == '\\' || c.toNat < 0x20 then none else skipString rest

/-- Passes over at least one digit. -/
def skipDigits (s : List Char) : Option (List Char) :=
  match s with
  | c :: rest => if c.isDigit then some (rest.dropWhile Char.isDigit) else none
  | [] => none

/-- Passes over the integer part of a number: no leading zeros. -/
def skipInteger : List Char → Option (List Char)
  | '0' :: rest =>
    match rest with
    | c :: _ => if c.isDigit then none else some rest
    | [] => some rest
  | s => skipDigits s

/-- Passes over an exponent, if there is one. -/
def skipExponent (s : List Char) : Option (List Char) :=
  match s with
  | c :: rest =>
    if c == 'e' || c == 'E' then
      match rest with
      | '+' :: rest => skipDigits rest
      | '-' :: rest => skipDigits rest
      | rest => skipDigits rest
    else some s
  | [] => some s

/-- Passes over a number. -/
def skipNumber (s : List Char) : Option (List Char) := do
  let unsigned := match s with
    | '-' :: rest => rest
    | s => s
  match ← skipInteger unsigned with
  | '.' :: rest => skipExponent (← skipDigits rest)
  | rest => skipExponent rest

/-- Passes over a value that has no parts. -/
def skipAtom : List Char → Option (List Char)
  | 'n' :: 'u' :: 'l' :: 'l' :: rest => some rest
  | 't' :: 'r' :: 'u' :: 'e' :: rest => some rest
  | 'f' :: 'a' :: 'l' :: 's' :: 'e' :: rest => some rest
  | '"' :: rest => skipString rest
  | s => skipNumber s

/-- Passes over a member's name and the colon behind it. -/
def skipName (s : List Char) : Option (List Char) :=
  match skipBlanks s with
  | '"' :: rest => do
    match skipBlanks (← skipString rest) with
    | ':' :: rest => some rest
    | _ => none
  | _ => none

/-- What encloses the value being passed over. -/
inductive Frame where
  | array
  | object

mutual

/-- Passes over a value and over all that is left of the frames around it. -/
def skipNested : (fuel : Nat) → List Frame → List Char → Option (List Char)
  | 0, _, _ => none
  | fuel + 1, frames, s =>
    match skipBlanks s with
    | '[' :: rest =>
      match skipBlanks rest with
      | ']' :: rest => closeFrames fuel frames rest
      | rest => skipNested fuel (.array :: frames) rest
    | '{' :: rest =>
      match skipBlanks rest with
      | '}' :: rest => closeFrames fuel frames rest
      | rest => do skipNested fuel (.object :: frames) (← skipName rest)
    | s => do closeFrames fuel frames (← skipAtom s)

/-- Goes on after a value inside the given frames. -/
def closeFrames : (fuel : Nat) → List Frame → List Char → Option (List Char)
  | _, [], s => some s
  | 0, _ :: _, _ => none
  | fuel + 1, .array :: frames, s =>
    match skipBlanks s with
    | ',' :: rest => skipNested fuel (.array :: frames) rest
    | ']' :: rest => closeFrames fuel frames rest
    | _ => none
  | fuel + 1, .object :: frames, s =>
    match skipBlanks s with
    | ',' :: rest => do skipNested fuel (.object :: frames) (← skipName rest)
    | '}' :: rest => closeFrames fuel frames rest
    | _ => none

end

/-- Passes over any value. Every step consumes a character, so the length of the text is fuel
enough. -/
def skipValue (s : List Char) : Option (List Char) :=
  skipNested (2 * s.length + 2) [] s

/-- An unsigned integer: digits without a sign, a fraction, an exponent or leading zeros. -/
def readUnsigned (s : List Char) : Option (Nat × List Char) := do
  let s := skipBlanks s
  let rest ← skipInteger s
  match rest with
  | c :: _ => if c == '.' || c == 'e' || c == 'E' then none
  | [] => pure ()
  let digits := s.take (s.length - rest.length)
  return (digits.foldl (fun n c => 10 * n + (c.toNat - 48)) 0, rest)

end ShieldedPayments.Text.Json
