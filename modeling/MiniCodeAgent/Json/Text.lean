import MiniCodeAgent.Json.Value

/-!
# `json.dumps` and `json.loads`

The printer follows CPython's encoder with `ensure_ascii=False`: a string
escapes the quote, the backslash and the control characters and nothing else,
and the layout is whatever separators the caller asked for. `indent=2` and
`separators=(",", ":")` differ in `Style` alone.

The parser is CPython's scanner. It runs on fuel, since a value nests to any
depth; `loads` passes twice the length of the text, and
`RoundTrip.lean` shows that this covers every text the printer makes.
-/

namespace Json

variable {F : Type} [PyFloat F]

/-- The separators of a layout: what stands between items, between a key and
its value, and the gap that opens each nesting depth. -/
structure Style where
  comma : List Char
  colon : List Char
  gap : Nat → List Char

/-- `separators=(",", ":")`. -/
def Style.compact : Style := ⟨[','], [':'], fun _ => []⟩

/-- `indent=2`. -/
def Style.indent2 : Style := ⟨[','], [':', ' '], fun d => '\n' :: List.replicate (2 * d) ' '⟩

/-! ## Printing -/

def hexDigit (n : Nat) : Char := if n < 10 then Char.ofNat (48 + n) else Char.ofNat (87 + n)

/-- `ESCAPE_DCT`, and `\u00XX` for the control characters it does not name. -/
def escapeChar (c : Char) : List Char :=
  if c = '"' then ['\\', '"']
  else if c = '\\' then ['\\', '\\']
  else if c = '\n' then ['\\', 'n']
  else if c = '\r' then ['\\', 'r']
  else if c = '\t' then ['\\', 't']
  else if c = '\x0c' then ['\\', 'f']
  else if c = '\x08' then ['\\', 'b']
  else if c.toNat < 32 then
    ['\\', 'u', '0', '0', hexDigit (c.toNat / 16), hexDigit (c.toNat % 16)]
  else [c]

def dumpString (s : String) : List Char := '"' :: (s.toList.flatMap escapeChar ++ ['"'])

/-- `int.__repr__`. -/
def dumpInt (i : Int) : List Char :=
  if i < 0 then '-' :: Nat.toDigits 10 i.natAbs else Nat.toDigits 10 i.natAbs

mutual

/-- One value, standing at nesting depth `d`. -/
def dump (st : Style) : Json F → Nat → List Char
  | .null, _ => ['n', 'u', 'l', 'l']
  | .bool true, _ => ['t', 'r', 'u', 'e']
  | .bool false, _ => ['f', 'a', 'l', 's', 'e']
  | .int i, _ => dumpInt i
  | .float f, _ => (PyFloat.repr f).text
  | .str s, _ => dumpString s
  | .arr xs, d =>
    if xs.isEmpty then ['[', ']']
    else '[' :: (dumpItems st xs (st.gap (d + 1)) (d + 1) ++ (st.gap d ++ [']']))
  | .obj kvs, d =>
    if kvs.isEmpty then ['{', '}']
    else '{' :: (dumpMembers st kvs (st.gap (d + 1)) (d + 1) ++ (st.gap d ++ ['}']))
termination_by structural x => x

/-- The items of a list, each behind the text that separates it from what
stands before it. -/
def dumpItems (st : Style) : List (Json F) → List Char → Nat → List Char
  | [], _, _ => []
  | x :: xs, sep, d => sep ++ (dump st x d ++ dumpItems st xs (st.comma ++ st.gap d) d)
termination_by structural x => x

def dumpMember (st : Style) : String × Json F → Nat → List Char
  | (k, v), d => dumpString k ++ (st.colon ++ dump st v d)
termination_by structural x => x

def dumpMembers (st : Style) : List (String × Json F) → List Char → Nat → List Char
  | [], _, _ => []
  | kv :: kvs, sep, d =>
    sep ++ (dumpMember st kv d ++ dumpMembers st kvs (st.comma ++ st.gap d) d)
termination_by structural x => x

end

/-- `json.dumps(value, ensure_ascii=False)` in the given layout. -/
def dumps (st : Style) (j : Json F) : String := String.ofList (dump st j 0)

/-- `json.dumps(value, sort_keys=True, separators=(",", ":"), ensure_ascii=False)`. -/
def canonical (j : Json F) : String := dumps .compact j.sortKeys

/-! ## Parsing -/

def isWs (c : Char) : Bool := c = ' ' || c = '\t' || c = '\n' || c = '\r'

def skipWs (cs : List Char) : List Char := cs.dropWhile isWs

def hexVal? (c : Char) : Option Nat :=
  if c.isDigit then some (c.toNat - 48)
  else if 'a' ≤ c && c ≤ 'f' then some (c.toNat - 87)
  else if 'A' ≤ c && c ≤ 'F' then some (c.toNat - 55)
  else none

/-- The four hex digits of a `\u` escape. -/
def hex4? : List Char → Option (Nat × List Char)
  | a :: b :: c :: d :: rest => do
    let a ← hexVal? a
    let b ← hexVal? b
    let c ← hexVal? c
    let d ← hexVal? d
    some (((a * 16 + b) * 16 + c) * 16 + d, rest)
  | _ => none

/-- A code unit from a `\u` escape, joined with the low surrogate behind it. A
surrogate left alone is no character. -/
def unicodeEscape? (cs : List Char) : Option (Char × List Char) := do
  let (u, rest) ← hex4? cs
  if 0xD800 ≤ u ∧ u ≤ 0xDBFF then
    match rest with
    | '\\' :: 'u' :: rest' =>
      let (l, rest'') ← hex4? rest'
      if 0xDC00 ≤ l ∧ l ≤ 0xDFFF then
        some (Char.ofNat (0x10000 + (u - 0xD800) * 0x400 + (l - 0xDC00)), rest'')
      else none
    | _ => none
  else if 0xDC00 ≤ u ∧ u ≤ 0xDFFF then none
  else some (Char.ofNat u, rest)

/-- `BACKSLASH`. -/
def backslash? (c : Char) : Option Char :=
  if c = '"' then some '"'
  else if c = '\\' then some '\\'
  else if c = '/' then some '/'
  else if c = 'b' then some '\x08'
  else if c = 'f' then some '\x0c'
  else if c = 'n' then some '\n'
  else if c = 'r' then some '\r'
  else if c = 't' then some '\t'
  else none

/-- The rest of a string literal behind its opening quote; `strict` refuses a
control character. -/
def scanString : Nat → List Char → Option (List Char × List Char)
  | 0, _ => none
  | _ + 1, [] => none
  | n + 1, c :: cs =>
    if c = '"' then some ([], cs)
    else if c = '\\' then
      match cs with
      | [] => none
      | e :: cs' =>
        if e = 'u' then do
          let (c', rest) ← unicodeEscape? cs'
          let (s, rest') ← scanString n rest
          some (c' :: s, rest')
        else do
          let c' ← backslash? e
          let (s, rest) ← scanString n cs'
          some (c' :: s, rest)
    else if c.toNat < 32 then none
    else do
      let (s, rest) ← scanString n cs
      some (c :: s, rest)

/-- `(\.[0-9]+)?` -/
def scanFrac (cs : List Char) : List Char × List Char :=
  match cs with
  | '.' :: d :: rest =>
    if d.isDigit then
      ('.' :: d :: rest.takeWhile Char.isDigit, rest.dropWhile Char.isDigit)
    else ([], cs)
  | _ => ([], cs)

/-- `[-+]?` -/
def scanSign (cs : List Char) : List Char × List Char :=
  match cs with
  | '+' :: rest => (['+'], rest)
  | '-' :: rest => (['-'], rest)
  | _ => ([], cs)

/-- `([eE][-+]?[0-9]+)?` -/
def scanExp (cs : List Char) : List Char × List Char :=
  match cs with
  | [] => ([], [])
  | e :: rest =>
    if e = 'e' ∨ e = 'E' then
      match (scanSign rest).2 with
      | d :: rest' =>
        if d.isDigit then
          (e :: ((scanSign rest).1 ++ d :: rest'.takeWhile Char.isDigit),
            rest'.dropWhile Char.isDigit)
        else ([], cs)
      | [] => ([], cs)
    else ([], cs)

/-- `(?:0|[1-9][0-9]*)` -/
def scanWhole (cs : List Char) : Option (List Char × List Char) :=
  match cs with
  | [] => none
  | c :: rest =>
    if c = '0' then some (['0'], rest)
    else if c.isDigit then
      some (c :: rest.takeWhile Char.isDigit, rest.dropWhile Char.isDigit)
    else none

/-- `-?` -/
def scanMinus (cs : List Char) : List Char × List Char :=
  match cs with
  | '-' :: rest => (['-'], rest)
  | _ => ([], cs)

/-- `(-?(?:0|[1-9][0-9]*))(\.[0-9]+)?([eE][-+]?[0-9]+)?` -/
def scanNumber (cs : List Char) : Option (NumText × List Char) :=
  match scanWhole (scanMinus cs).2 with
  | none => none
  | some (whole, rest) =>
    let frac := scanFrac rest
    let exp := scanExp frac.2
    some (⟨(scanMinus cs).1, whole, frac.1, exp.1⟩, exp.2)

/-- A number with a fraction or an exponent is a float, any other an int. -/
def ofNumText (t : NumText) : Json F :=
  if t.frac = [] ∧ t.exp = [] then
    let n : Nat := Nat.ofDigitChars 10 t.whole 0
    .int (if t.sign = [] then (n : Int) else -(n : Int))
  else .float (PyFloat.ofText t.text)

mutual

/-- The value at the head of the text, and the text behind it. -/
def parseValue : Nat → List Char → Option (Json F × List Char)
  | 0, _ => none
  | n + 1, cs =>
    match cs with
    | '"' :: rest => do
      let (s, rest) ← scanString (rest.length + 1) rest
      some (.str (String.ofList s), rest)
    | '{' :: rest =>
      match skipWs rest with
      | '}' :: rest' => some (.obj [], rest')
      | rest' => do
        let (kvs, rest) ← parseMembers n rest'
        some (.obj (Dict.ofPairs kvs), rest)
    | '[' :: rest =>
      match skipWs rest with
      | ']' :: rest' => some (.arr [], rest')
      | rest' => do
        let (xs, rest) ← parseItems n rest'
        some (.arr xs, rest)
    | 'n' :: 'u' :: 'l' :: 'l' :: rest => some (.null, rest)
    | 't' :: 'r' :: 'u' :: 'e' :: rest => some (.bool true, rest)
    | 'f' :: 'a' :: 'l' :: 's' :: 'e' :: rest => some (.bool false, rest)
    | _ => do
      let (t, rest) ← scanNumber cs
      some (ofNumText t, rest)

/-- The items of a list that is not empty, and the closing bracket. -/
def parseItems : Nat → List Char → Option (List (Json F) × List Char)
  | 0, _ => none
  | n + 1, cs => do
    let (x, rest) ← parseValue n cs
    match skipWs rest with
    | ',' :: rest => do
      let (xs, rest) ← parseItems n (skipWs rest)
      some (x :: xs, rest)
    | ']' :: rest => some ([x], rest)
    | _ => none

/-- The members of a dictionary that is not empty, and the closing brace. -/
def parseMembers : Nat → List Char → Option (List (String × Json F) × List Char)
  | 0, _ => none
  | n + 1, cs =>
    match cs with
    | '"' :: rest => do
      let (k, rest) ← scanString (rest.length + 1) rest
      match skipWs rest with
      | ':' :: rest => do
        let (v, rest) ← parseValue n (skipWs rest)
        match skipWs rest with
        | ',' :: rest => do
          let (kvs, rest) ← parseMembers n (skipWs rest)
          some ((String.ofList k, v) :: kvs, rest)
        | '}' :: rest => some ([(String.ofList k, v)], rest)
        | _ => none
      | _ => none
    | _ => none

end

/-- `json.loads(text)`; `none` is `JSONDecodeError`. -/
def loads (s : String) : Option (Json F) :=
  let cs := s.toList
  match parseValue (2 * cs.length + 2) (skipWs cs) with
  | some (j, rest) => if skipWs rest = [] then some j else none
  | none => none

end Json
