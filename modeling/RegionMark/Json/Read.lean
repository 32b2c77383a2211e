import RegionMark.Json.Basic

/-!
# JSON の読み取り

UTF-8 のバイト列を 1 度だけ読んで値にし、読めなければ理由と位置（行は 1 から、列はバイト数）を返す。
64 ビットを越える仮数は打ち切って指数に数え、倍精度で無限大になる数は断る。入れ子は 128 段目で断り、
`\u` は UTF-16 として読んで対のないサロゲートを断る。
-/

namespace RegionMark.Json

/-- 読めない理由。 -/
inductive ReadErrorKind where
  | eofWhileParsingList
  | eofWhileParsingObject
  | eofWhileParsingString
  | eofWhileParsingValue
  | expectedColon
  | expectedListCommaOrEnd
  | expectedObjectCommaOrEnd
  | expectedSomeIdent
  | expectedSomeValue
  | invalidEscape
  | invalidNumber
  | numberOutOfRange
  | controlCharacterWhileParsingString
  | keyMustBeAString
  | loneLeadingSurrogateInHexEscape
  | trailingComma
  | trailingCharacters
  | unexpectedEndOfHexEscape
  | recursionLimitExceeded
  deriving DecidableEq, Repr

/-- 理由の文。 -/
def ReadErrorKind.text : ReadErrorKind → String
  | .eofWhileParsingList => "EOF while parsing a list"
  | .eofWhileParsingObject => "EOF while parsing an object"
  | .eofWhileParsingString => "EOF while parsing a string"
  | .eofWhileParsingValue => "EOF while parsing a value"
  | .expectedColon => "expected `:`"
  | .expectedListCommaOrEnd => "expected `,` or `]`"
  | .expectedObjectCommaOrEnd => "expected `,` or `\x7d`"
  | .expectedSomeIdent => "expected ident"
  | .expectedSomeValue => "expected value"
  | .invalidEscape => "invalid escape"
  | .invalidNumber => "invalid number"
  | .numberOutOfRange => "number out of range"
  | .controlCharacterWhileParsingString =>
    "control character (\\u0000-\\u001F) found while parsing a string"
  | .keyMustBeAString => "key must be a string"
  | .loneLeadingSurrogateInHexEscape => "lone leading surrogate in hex escape"
  | .trailingComma => "trailing comma"
  | .trailingCharacters => "trailing characters"
  | .unexpectedEndOfHexEscape => "unexpected end of hex escape"
  | .recursionLimitExceeded => "recursion limit exceeded"

/-- 読めなかった理由と位置。 -/
structure ReadError where
  kind : ReadErrorKind
  line : Nat
  column : Nat
  deriving DecidableEq, Repr

/-- 誤りの文：理由、行、列。 -/
def ReadError.message (e : ReadError) : String :=
  e.kind.text ++ " at line " ++ toString e.line ++ " column " ++ toString e.column

/-- 入れ子にできる配列とオブジェクトの段数：これだけ開いているところで次を開くと断る。 -/
def depthLimit : Nat := 127

/-- 仮数に残せる最大の値。 -/
def significandMax : Nat := Nat.pow 2 64 - 1

/-- 指数として数えられる最大の値。 -/
def exponentMax : Nat := Nat.pow 2 31 - 1

/-- `acc * 10 + d` が `limit` を超えるか。 -/
def exceeds (acc d limit : Nat) : Bool :=
  acc ≥ limit / 10 && (acc > limit / 10 || d > limit % 10)

/-- 正の整数 `n` を仮数 53 ビットに丸めた値 `m * 2 ^ e`。端数がちょうど半分なら偶数の側に丸める。 -/
def roundToDouble (n : Nat) : Nat × Nat :=
  let l := Nat.log2 n
  if l < 53 then (n, 0)
  else
    let s := l - 52
    let q := n >>> s
    let r := n % Nat.pow 2 s
    let half := Nat.pow 2 (s - 1)
    if r > half || (r == half && q % 2 == 1) then (q + 1, s) else (q, s)

/-- 仮数を倍精度に丸め、`10 ^ exponent` を倍精度に丸め、その積を倍精度に丸めると無限大になるか。
倍精度の最大値とその上の `2 ^ 1024` の中点 `(2 ^ 54 - 1) * 2 ^ 970` 以上の積が無限大に丸まる。
308 を超える指数は 0 でない仮数をいつも無限大にする。 -/
def overflowsDouble (significand exponent : Nat) : Bool :=
  significand != 0 && (exponent > 308 ||
    let (m1, e1) := roundToDouble significand
    let (m2, e2) := roundToDouble (Nat.pow 10 exponent)
    if e1 + e2 ≥ 970 then m1 * m2 * Nat.pow 2 (e1 + e2 - 970) ≥ Nat.pow 2 54 - 1
    else m1 * m2 ≥ (Nat.pow 2 54 - 1) * Nat.pow 2 (970 - (e1 + e2)))

/-- 空白のバイト：空白、改行、タブ、復帰。 -/
def isBlank (c : UInt8) : Bool := c == 0x20 || c == 0x0A || c == 0x09 || c == 0x0D

/-- 10 進の数字のバイト。 -/
def isDigit (c : UInt8) : Bool := 0x30 ≤ c && c ≤ 0x39

/-- 数字のバイトの値。 -/
def digitVal (c : UInt8) : Nat := c.toNat - 0x30

/-- 16 進の数字のバイトの値。 -/
def hexVal (c : UInt8) : Option Nat :=
  if isDigit c then some (digitVal c)
  else if 0x61 ≤ c && c ≤ 0x66 then some (c.toNat - 0x57)
  else if 0x41 ≤ c && c ≤ 0x46 then some (c.toNat - 0x37)
  else none

/-- 小数点または指数を始めるバイト。 -/
def isExponentMark (c : UInt8) : Bool := c == 0x65 || c == 0x45

/-- 符号位置 `code` の文字の UTF-8 のバイト列。 -/
def utf8Of (code : Nat) : ByteArray := (String.singleton (Char.ofNat code)).toUTF8

section Reading

variable (b : ByteArray)

/-- バイト位置 `i` の行と列。 -/
def positionAt (i : Nat) : Nat × Nat :=
  (List.range i).foldl
    (fun (line, start) j => if b[j]? == some 0x0A then (line + 1, j + 1) else (line, start)) (1, 0)
  |> fun (line, start) => (line, i - start)

/-- バイト位置 `i` まで読んだところでの誤り。 -/
def failAt {α : Type} (k : ReadErrorKind) (i : Nat) : Except ReadError α :=
  let (line, column) := positionAt b i
  .error ⟨k, line, column⟩

/-- 位置 `i` のバイトを覗いたところでの誤り：位置はそのバイトまでを数える。 -/
def failAhead {α : Type} (k : ReadErrorKind) (i : Nat) : Except ReadError α :=
  failAt b k (Nat.min b.size (i + 1))

/-- 位置 `i` から空白を読み飛ばした位置。 -/
def skipBlank : Nat → Nat → Nat
  | 0, i => i
  | fuel + 1, i =>
    match b[i]? with
    | some c => if isBlank c then skipBlank fuel (i + 1) else i
    | none => i

/-- 位置 `i` から数字を読み飛ばした位置。 -/
def skipDigits : Nat → Nat → Nat
  | 0, i => i
  | fuel + 1, i =>
    match b[i]? with
    | some c => if isDigit c then skipDigits fuel (i + 1) else i
    | none => i

/-- 位置 `i` から、バイト列 `rest` がそのまま続くことを確かめ、その後の位置を返す。 -/
def expectBytes : List UInt8 → Nat → Except ReadError Nat
  | [], i => .ok i
  | c :: rest, i =>
    match b[i]? with
    | none => failAt b .eofWhileParsingValue i
    | some d => if d == c then expectBytes rest (i + 1) else failAt b .expectedSomeIdent (i + 1)

/-- 位置 `i` で終わる数 `significand * 10 ^ exponent`。正の指数で倍精度を超えれば範囲外。 -/
def finishNumber (positive : Bool) (significand : Nat) (exponent : Int) (i : Nat) :
    Except ReadError (Number × Nat) :=
  if exponent ≥ 0 && overflowsDouble significand exponent.toNat then
    failAt b .numberOutOfRange i
  else .ok (.other (!positive) significand exponent, i)

/-- 指数の 2 桁目からを読む。`e` はそれまでの桁の値。指数が大きすぎれば、0 でない仮数を正の指数で
持つ数は範囲外、ほかは 0 になる。 -/
def exponentDigits (positive positiveExp : Bool) (significand : Nat) (start : Int) :
    Nat → Nat → Nat → Except ReadError (Number × Nat)
  | 0, _, i => failAt b .eofWhileParsingValue i
  | fuel + 1, e, i =>
    let done := finishNumber b positive significand
      (if positiveExp then start + e else start - e) i
    match b[i]? with
    | none => done
    | some c =>
      if !isDigit c then done
      else if exceeds e (digitVal c) exponentMax then
        if significand != 0 && positiveExp then failAt b .numberOutOfRange (i + 1)
        else .ok (.other (!positive) 0 0, skipDigits b b.size (i + 1))
      else exponentDigits positive positiveExp significand start fuel (e * 10 + digitVal c) (i + 1)

/-- 位置 `i` の `e` か `E` から指数を読む。 -/
def exponentPart (positive : Bool) (significand : Nat) (start : Int) (i : Nat) :
    Except ReadError (Number × Nat) :=
  let j := i + 1
  let (positiveExp, j) :=
    match b[j]? with
    | some c => if c == 0x2B then (true, j + 1) else if c == 0x2D then (false, j + 1) else (true, j)
    | none => (true, j)
  match b[j]? with
  | none => failAt b .eofWhileParsingValue j
  | some c =>
    if isDigit c then
      exponentDigits b positive positiveExp significand start b.size (digitVal c) (j + 1)
    else failAt b .invalidNumber (j + 1)

/-- 仮数に入りきらない桁を読み飛ばしてから、指数があれば読む。 -/
def afterDroppedDigits (positive : Bool) (significand : Nat) (exponent : Int) (i : Nat) :
    Except ReadError (Number × Nat) :=
  let j := skipDigits b b.size i
  match b[j]? with
  | some c => if isExponentMark c then exponentPart b positive significand exponent j
    else finishNumber b positive significand exponent j
  | none => finishNumber b positive significand exponent j

/-- 小数点の後の桁を読む。`before` は整数部で仮数に入りきらなかった桁の数、`after` は仮数に入れた
小数部の桁の数。小数点の後には少なくとも 1 桁が要る。 -/
def fractionDigits (positive : Bool) (before : Int) :
    Nat → Nat → Nat → Nat → Except ReadError (Number × Nat)
  | 0, _, _, i => failAt b .eofWhileParsingValue i
  | fuel + 1, significand, after, i =>
    let stop : Except ReadError (Number × Nat) :=
      if after == 0 then
        match b[i]? with
        | some _ => failAhead b .invalidNumber i
        | none => failAhead b .eofWhileParsingValue i
      else
        let exponent := before - after
        match b[i]? with
        | some c => if isExponentMark c then exponentPart b positive significand exponent i
          else finishNumber b positive significand exponent i
        | none => finishNumber b positive significand exponent i
    match b[i]? with
    | some c =>
      if !isDigit c then stop
      else if exceeds significand (digitVal c) significandMax then
        afterDroppedDigits b positive significand (before - after) i
      else fractionDigits positive before fuel (significand * 10 + digitVal c) (after + 1) (i + 1)
    | none => stop

/-- 整数部の後：小数点か指数があれば読み、なければ整数で終わる。 -/
def afterInteger (positive : Bool) (significand : Nat) (i : Nat) : Except ReadError (Number × Nat) :=
  match b[i]? with
  | some c =>
    if c == 0x2E then fractionDigits b positive 0 b.size significand 0 (i + 1)
    else if isExponentMark c then exponentPart b positive significand 0 i
    else if positive then .ok (.word significand, i)
    else .ok (.other true significand 0, i)
  | none => if positive then .ok (.word significand, i) else .ok (.other true significand 0, i)

/-- 仮数に入りきらない整数部の桁を、指数に数えながら読む。 -/
def longInteger (positive : Bool) (significand : Nat) : Nat → Nat → Nat → Except ReadError (Number × Nat)
  | 0, _, i => failAt b .eofWhileParsingValue i
  | fuel + 1, dropped, i =>
    match b[i]? with
    | some c =>
      if isDigit c then longInteger positive significand fuel (dropped + 1) (i + 1)
      else if c == 0x2E then fractionDigits b positive dropped b.size significand 0 (i + 1)
      else if isExponentMark c then exponentPart b positive significand dropped i
      else finishNumber b positive significand dropped i
    | none => finishNumber b positive significand dropped i

/-- 整数部の 2 桁目からを読む。 -/
def integerDigits (positive : Bool) : Nat → Nat → Nat → Except ReadError (Number × Nat)
  | 0, _, i => failAt b .eofWhileParsingValue i
  | fuel + 1, significand, i =>
    match b[i]? with
    | some c =>
      if !isDigit c then afterInteger b positive significand i
      else if exceeds significand (digitVal c) significandMax then
        longInteger b positive significand b.size 0 i
      else integerDigits positive fuel (significand * 10 + digitVal c) (i + 1)
    | none => afterInteger b positive significand i

/-- 位置 `i` から数を読む（負の数では、`-` の次から）。先頭の `0` の後に数字は続けられない。 -/
def number (positive : Bool) (i : Nat) : Except ReadError (Number × Nat) :=
  match b[i]? with
  | none => failAt b .eofWhileParsingValue i
  | some c =>
    if c == 0x30 then
      match b[i + 1]? with
      | some d => if isDigit d then failAhead b .invalidNumber (i + 1) else afterInteger b positive 0 (i + 1)
      | none => afterInteger b positive 0 (i + 1)
    else if isDigit c then integerDigits b positive b.size (digitVal c) (i + 1)
    else failAt b .invalidNumber (i + 1)

/-- 位置 `i` からの 4 桁の 16 進数とその後の位置。4 バイト残っていなければ文字列の途中で尽きた
ことになり、4 桁のどれかが 16 進の数字でなければ、4 バイトを読んだところで断る。 -/
def hexEscape (i : Nat) : Except ReadError (Nat × Nat) :=
  if i + 4 > b.size then failAt b .eofWhileParsingString b.size
  else
    let digits := [b[i]?, b[i + 1]?, b[i + 2]?, b[i + 3]?]
    match digits.mapM fun d => d.bind hexVal with
    | some [d0, d1, d2, d3] => .ok (((d0 * 16 + d1) * 16 + d2) * 16 + d3, i + 4)
    | _ => failAt b .invalidEscape (i + 4)

/-- 位置 `i` からの `\u` の後の 16 進数を読み、その文字のバイト列と後の位置を返す。上位サロゲートの
後にはすぐ `\u` と下位サロゲートが続かなければならない。 -/
def unicodeEscape (i : Nat) : Except ReadError (ByteArray × Nat) := do
  let (n, j) ← hexEscape b i
  if 0xDC00 ≤ n && n ≤ 0xDFFF then failAt b .loneLeadingSurrogateInHexEscape j
  else if 0xD800 ≤ n && n ≤ 0xDBFF then
    match b[j]? with
    | none => failAt b .eofWhileParsingString j
    | some c =>
      if c != 0x5C then failAt b .unexpectedEndOfHexEscape (j + 1)
      else match b[j + 1]? with
        | none => failAt b .eofWhileParsingString (j + 1)
        | some u =>
          if u != 0x75 then failAt b .unexpectedEndOfHexEscape (j + 2)
          else do
            let (n2, k) ← hexEscape b (j + 2)
            if n2 < 0xDC00 || n2 > 0xDFFF then failAt b .loneLeadingSurrogateInHexEscape k
            else .ok (utf8Of ((((n - 0xD800) <<< 10) ||| (n2 - 0xDC00)) + 0x10000), k)
  else .ok (utf8Of n, j)

/-- 位置 `i` のバックスラッシュの次から、エスケープ 1 つを読む。 -/
def escape (i : Nat) : Except ReadError (ByteArray × Nat) :=
  match b[i]? with
  | none => failAt b .eofWhileParsingString i
  | some e =>
    if e == 0x22 || e == 0x5C || e == 0x2F then .ok (ByteArray.empty.push e, i + 1)
    else if e == 0x62 then .ok (ByteArray.empty.push 0x08, i + 1)
    else if e == 0x66 then .ok (ByteArray.empty.push 0x0C, i + 1)
    else if e == 0x6E then .ok (ByteArray.empty.push 0x0A, i + 1)
    else if e == 0x72 then .ok (ByteArray.empty.push 0x0D, i + 1)
    else if e == 0x74 then .ok (ByteArray.empty.push 0x09, i + 1)
    else if e == 0x75 then unicodeEscape b (i + 1)
    else failAt b .invalidEscape (i + 1)

/-- 開きの引用符の後から、閉じの引用符までを読む。制御文字はそのままでは書けない。 -/
def stringBody : Nat → ByteArray → Nat → Except ReadError (String × Nat)
  | 0, _, i => failAt b .eofWhileParsingString i
  | fuel + 1, acc, i =>
    match b[i]? with
    | none => failAt b .eofWhileParsingString i
    | some c =>
      if c == 0x22 then .ok ((String.fromUTF8? acc).getD "", i + 1)
      else if c == 0x5C then
        match escape b (i + 1) with
        | .ok (bytes, j) => stringBody fuel (acc ++ bytes) j
        | .error e => .error e
      else if c < 0x20 then failAt b .controlCharacterWhileParsingString (i + 1)
      else stringBody fuel (acc.push c) (i + 1)

mutual
/-- 位置 `i`（空白の後の、値の最初のバイト）から値を 1 つ読む。`depth` は開いている配列と
オブジェクトの数。 -/
def value : Nat → Nat → Nat → Except ReadError (Json × Nat)
  | 0, _, i => failAhead b .eofWhileParsingValue i
  | fuel + 1, depth, i =>
    match b[i]? with
    | none => failAhead b .eofWhileParsingValue i
    | some c =>
      if c == 0x6E then (expectBytes b [0x75, 0x6C, 0x6C] (i + 1)).map fun j => (.null, j)
      else if c == 0x74 then (expectBytes b [0x72, 0x75, 0x65] (i + 1)).map fun j => (.bool true, j)
      else if c == 0x66 then
        (expectBytes b [0x61, 0x6C, 0x73, 0x65] (i + 1)).map fun j => (.bool false, j)
      else if c == 0x2D then (number b false (i + 1)).map fun (n, j) => (.num n, j)
      else if isDigit c then (number b true i).map fun (n, j) => (.num n, j)
      else if c == 0x22 then (stringBody b b.size ByteArray.empty (i + 1)).map fun (s, j) => (.str s, j)
      else if c == 0x5B then
        if depth ≥ depthLimit then failAhead b .recursionLimitExceeded i
        else (elements fuel (depth + 1) true #[] (i + 1)).map fun (xs, j) => (.arr xs.toList, j)
      else if c == 0x7B then
        if depth ≥ depthLimit then failAhead b .recursionLimitExceeded i
        else (members fuel (depth + 1) true [] (i + 1)).map fun (kvs, j) => (.obj kvs, j)
      else failAhead b .expectedSomeValue i

/-- 配列の要素を、閉じの `]` まで読む。 -/
def elements : Nat → Nat → Bool → Array Json → Nat → Except ReadError (Array Json × Nat)
  | 0, _, _, _, i => failAhead b .eofWhileParsingList i
  | fuel + 1, depth, first, acc, i =>
    let j := skipBlank b b.size i
    let item (p : Nat) : Except ReadError (Array Json × Nat) :=
      match value fuel depth p with
      | .ok (v, q) => elements fuel depth false (acc.push v) q
      | .error e => .error e
    match b[j]? with
    | none => failAhead b .eofWhileParsingList j
    | some c =>
      if c == 0x5D then .ok (acc, j + 1)
      else if c == 0x2C && !first then
        let k := skipBlank b b.size (j + 1)
        match b[k]? with
        | none => failAhead b .eofWhileParsingValue k
        | some d => if d == 0x5D then failAhead b .trailingComma k else item k
      else if first then item j
      else failAhead b .expectedListCommaOrEnd j

/-- オブジェクトのキーと値を、閉じの括弧まで読む。キーは文字列で、コロンの後に値が続く。 -/
def members : Nat → Nat → Bool → List (String × Json) → Nat →
    Except ReadError (List (String × Json) × Nat)
  | 0, _, _, _, i => failAhead b .eofWhileParsingObject i
  | fuel + 1, depth, first, acc, i =>
    let j := skipBlank b b.size i
    let entry (d : UInt8) (p : Nat) : Except ReadError (List (String × Json) × Nat) :=
      if d == 0x22 then
        match stringBody b b.size ByteArray.empty (p + 1) with
        | .error e => .error e
        | .ok (key, q) =>
          let r := skipBlank b b.size q
          match b[r]? with
          | none => failAhead b .eofWhileParsingObject r
          | some colon =>
            if colon != 0x3A then failAhead b .expectedColon r
            else
              let s := skipBlank b b.size (r + 1)
              match b[s]? with
              | none => failAhead b .eofWhileParsingValue s
              | some _ =>
                match value fuel depth s with
                | .ok (v, t) => members fuel depth false (insertKey acc key v) t
                | .error e => .error e
      else if d == 0x7D then failAhead b .trailingComma p
      else failAhead b .keyMustBeAString p
    match b[j]? with
    | none => failAhead b .eofWhileParsingObject j
    | some c =>
      if c == 0x7D then .ok (acc, j + 1)
      else if c == 0x2C && !first then
        let k := skipBlank b b.size (j + 1)
        match b[k]? with
        | none => failAhead b .eofWhileParsingValue k
        | some d => entry d k
      else if first then entry c j
      else failAhead b .expectedObjectCommaOrEnd j
end

end Reading

/-- 文章全体を 1 つの値として読む。値の後には空白しか続けられない。 -/
def parse (s : String) : Except ReadError Json :=
  let b := s.toUTF8
  let i := skipBlank b b.size 0
  match b[i]? with
  | none => failAhead b .eofWhileParsingValue i
  | some _ =>
    match value b (b.size + 1) 0 i with
    | .error e => .error e
    | .ok (v, j) =>
      let k := skipBlank b b.size j
      if k < b.size then failAhead b .trailingCharacters k else .ok v

end RegionMark.Json
