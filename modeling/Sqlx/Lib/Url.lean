import Sqlx.Lib.PercentEncoding
import Sqlx.Lib.Reader
import Sqlx.Lib.EStateM
import Mathlib.Data.List.TakeWhile

/-!
# URLs with an authority, as the `url` crate parses them

`Url::parse` of `scheme://rest` for a scheme that is not special (neither
`http`, `https`, `ws`, `wss`, `ftp` nor `file`), as the `url` crate does it
after the URL Standard: the user information up to the last `@` of the
authority, the host up to a `:` outside brackets, the port, the path in
segments with `.` and `..` resolved, then the query and the fragment. A URL is
kept as its components, each in the escaped form the crate serializes. The
setters `set_password`, `set_path` and `query_pairs_mut().append_pair`, the
accessors and the serialization work on those components.

Over the authority `user@host:port` of bytes that need no escape and no
delimiter, the parse gives the three parts back (`parse_plain_authority`).
Bytes it reads as delimiters move a part: an IPv6 literal such as `::1` outside
brackets is an empty host followed by a port, which the parser refuses
(`parse_colon_host`).
-/

namespace UrlCrate

open PercentEncoding Wire

/-- The byte of an ASCII character. -/
def byte (c : Char) : UInt8 := c.toNat.toUInt8

/-! ## Hosts -/

/-- Up to four hex digits of an IPv6 piece: their value, how many, and the
bytes after them. -/
def readHexPiece : Nat → Nat → List UInt8 → Nat × Nat × List UInt8
  | value, length, c :: rest =>
    if length < 4 then
      match hexValue c with
      | some d => readHexPiece (value * 16 + d) (length + 1) rest
      | none => (value, length, c :: rest)
    else (value, length, c :: rest)
  | value, length, [] => (value, length, [])

/-- The digits of one number of an embedded IPv4 address; `none` on a
leading zero or a value above 255. -/
def readIpv4Piece : Option Nat → List UInt8 → Option (Option Nat × List UInt8)
  | piece, c :: rest =>
    if isAsciiDigit c then
      let number := c.toNat - 0x30
      match piece with
      | none => readIpv4Piece (some number) rest
      | some 0 => none
      | some v => if 255 < v * 10 + number then none else readIpv4Piece (some (v * 10 + number)) rest
    else some (piece, c :: rest)
  | piece, [] => some (piece, [])

/-- The IPv4 part of an IPv6 address: four dotted numbers, two to a piece.
Each turn reads a digit, so `input.length + 1` turns are enough. -/
def parseIpv4Part : Nat → List Nat → Nat → Nat → List UInt8 → Option (List Nat × Nat)
  | 0, _, _, _, _ => none
  | fuel + 1, address, pieceIndex, numbersSeen, input =>
    match input with
    | [] => if numbersSeen = 4 then some (address, pieceIndex) else none
    | c :: rest =>
      let digits := if 0 < numbersSeen then (if c = 0x2E ∧ numbersSeen < 4 then some rest else none)
        else some (c :: rest)
      match digits with
      | some (d :: more) =>
        if isAsciiDigit d then
          match readIpv4Piece none (d :: more) with
          | some (some piece, rest') =>
            let address := address.set pieceIndex (address.getD pieceIndex 0 * 0x100 + piece)
            let pieceIndex := if numbersSeen + 1 = 2 ∨ numbersSeen + 1 = 4 then pieceIndex + 1 else pieceIndex
            parseIpv4Part fuel address pieceIndex (numbersSeen + 1) rest'
          | _ => none
        else none
      | _ => none

/-- The pieces of an IPv6 address, written from `pieceIndex` on, with the
position of a `::` seen. Each turn reads a byte, so `input.length + 1` turns
are enough. -/
def parseIpv6Pieces : Nat → List Nat → Nat → Option Nat → List UInt8 → Option (List Nat × Nat × Option Nat)
  | 0, _, _, _, _ => none
  | fuel + 1, address, pieceIndex, compress, input =>
    match input with
    | [] => some (address, pieceIndex, compress)
    | c :: rest =>
      if pieceIndex = 8 then none
      else if c = 0x3A then
        if compress.isSome then none else parseIpv6Pieces fuel address (pieceIndex + 1) (some (pieceIndex + 1)) rest
      else
        let (value, length, after) := readHexPiece 0 0 input
        match after with
        | [] => some (address.set pieceIndex value, pieceIndex + 1, compress)
        | d :: after' =>
          if d = 0x2E then
            -- the piece was the first number of an IPv4 address: read it again as one
            if length = 0 ∨ 6 < pieceIndex then none
            else (parseIpv4Part (input.length + 1) address pieceIndex 0 input).map fun (a, p) => (a, p, compress)
          else if d = 0x3A then
            if after' = [] then none
            else parseIpv6Pieces fuel (address.set pieceIndex value) (pieceIndex + 1) compress after'
          else none

/-- The IPv6 parser of the URL Standard: eight 16-bit pieces. -/
def parseIpv6 (input : List UInt8) : Option (List Nat) :=
  let start : Option (List UInt8 × Nat × Option Nat) :=
    match input with
    | c :: c' :: rest => if c = 0x3A then (if c' = 0x3A then some (rest, 1, some 1) else none) else some (input, 0, none)
    | [c] => if c = 0x3A then none else some (input, 0, none)
    | [] => some ([], 0, none)
  match start with
  | none => none
  | some (input, pieceIndex, compress) =>
    match parseIpv6Pieces (input.length + 1) (List.replicate 8 0) pieceIndex compress input with
    | none => none
    -- the pieces after the `::` move to the end, zeros in their place
    | some (address, pieceIndex, some compress) =>
      some (address.take compress ++ List.replicate (8 - pieceIndex) 0 ++ (address.take pieceIndex).drop compress)
    | some (address, pieceIndex, none) => if pieceIndex = 8 then some address else none

/-- The length of the run of zero pieces from `i`. -/
def zeroRunAt (pieces : List Nat) (i : Nat) : Nat := ((pieces.drop i).takeWhile (· = 0)).length

/-- The first of the longest runs of two or more zero pieces. -/
def compressAt (pieces : List Nat) : Option Nat :=
  (List.range 8).foldl
    (fun best i => if (best.map (zeroRunAt pieces)).getD 1 < zeroRunAt pieces i then some i else best) none

/-- A piece in lowercase hex, without leading zeros. -/
def hexLower (n : Nat) : List UInt8 := (Nat.toDigits 16 n).map byte

/-- The IPv6 serializer: the pieces between `:`, the run at `compressAt`
written `::`. -/
def serializeIpv6 (pieces : List Nat) : List UInt8 :=
  let join (ps : List Nat) : List UInt8 := [0x3A].intercalate (ps.map hexLower)
  match compressAt pieces with
  | none => join pieces
  | some c => join (pieces.take c) ++ [0x3A, 0x3A] ++ join (pieces.drop (c + zeroRunAt pieces c))

example : parseIpv6 [0x3A, 0x3A, 0x31] = some [0, 0, 0, 0, 0, 0, 0, 1] := by decide

example : serializeIpv6 [0, 0, 0, 0, 0, 0, 0, 1] = [0x3A, 0x3A, 0x31] := by decide

/-- `Host`: an opaque host, escaped, or an IPv6 address. -/
inductive Host where
  | domain (serialized : List UInt8)
  | ipv6 (pieces : List Nat)
  deriving DecidableEq

/-- `Host`'s `Display`. -/
def Host.serialize : Host → List UInt8
  | .domain s => s
  | .ipv6 pieces => 0x5B :: serializeIpv6 pieces ++ [0x5D]

/-- `ParseError`, the cases a URL with an authority can meet. -/
inductive ParseError where
  | emptyHost
  | invalidPort
  | invalidIpv6Address
  | invalidDomainCharacter
  deriving DecidableEq

/-- The bytes an opaque host may not hold. -/
def isForbiddenHostByte (b : UInt8) : Bool :=
  b ∈ [0x00, 0x09, 0x0A, 0x0D, 0x20, byte '#', byte '/', byte ':', byte '<', byte '>', byte '?', byte '@',
    byte '[', byte '\\', byte ']', byte '^', byte '|']

/-- `Host::parse_opaque`. -/
def Host.parseOpaque (input : List UInt8) : Except ParseError Host :=
  if input.head? = some (byte '[') then
    if input.getLast? ≠ some (byte ']') then .error .invalidIpv6Address
    else match parseIpv6 (input.drop 1).dropLast with
      | some pieces => .ok (.ipv6 pieces)
      | none => .error .invalidIpv6Address
  else if input.any isForbiddenHostByte then .error .invalidDomainCharacter
  else .ok (.domain (utf8PercentEncode input CONTROLS))

/-! ## The URL -/

/-- A URL with an authority, as its escaped components. -/
structure Url where
  scheme : List UInt8
  username : List UInt8
  password : Option (List UInt8)
  host : Host
  port : Option UInt16
  /-- The path segments: `/a/b` is `[a, b]`, an empty path `[]`. -/
  path : List (List UInt8)
  query : Option (List UInt8)
  fragment : Option (List UInt8)
  deriving DecidableEq

/-- The percent-encode sets of the URL Standard, as the crate writes them. -/
def FRAGMENT : AsciiSet := CONTROLS.addChars [' ', '"', '<', '>', '`']
def QUERY : AsciiSet := CONTROLS.addChars [' ', '"', '#', '<', '>']
def PATH : AsciiSet := QUERY.addChars ['`', '?', '{', '}']
def USERINFO : AsciiSet := PATH.addChars ['/', ':', ';', '=', '@', '[', '\\', ']', '^', '|']

/-- The parser's context: `Url::parse`, or a setter, which reads `?` and `#`
in a path as part of it. -/
inductive Context where
  | urlParser
  | setter
  deriving DecidableEq

/-- Tabs and newlines, which the parser skips wherever they stand. -/
def isTabOrNewline (b : UInt8) : Bool := b == 0x09 || b == 0x0A || b == 0x0D

/-- A C0 control or a space, which the parser trims from both ends. -/
def isC0ControlOrSpace (b : UInt8) : Bool := b ≤ 0x20

/-- The input the parser reads after `scheme://`: the trailing controls and
spaces trimmed, the tabs and newlines dropped. -/
def afterSchemeInput (rest : List UInt8) : List UInt8 :=
  ((rest.reverse.dropWhile isC0ControlOrSpace).reverse).filter fun b => !isTabOrNewline b

/-- The bytes that end the authority. -/
def isAuthorityEnd (b : UInt8) : Bool := b == byte '/' || b == byte '?' || b == byte '#'

/-- The bytes before and after the last `sep`. -/
def splitAtLast (sep : UInt8) : List UInt8 → Option (List UInt8 × List UInt8)
  | [] => none
  | b :: rest =>
    match splitAtLast sep rest with
    | some (pre, post) => some (b :: pre, post)
    | none => if b = sep then some ([], rest) else none

/-- `Parser::parse_userinfo`: the escaped username and password, and the
input after the last `@` of the authority. The password is there when a `:`
has something after it. -/
def parseUserinfo (input : List UInt8) : Except ParseError (List UInt8 × Option (List UInt8) × List UInt8) :=
  let authority := input.takeWhile fun b => !isAuthorityEnd b
  let tail := input.dropWhile fun b => !isAuthorityEnd b
  match splitAtLast (byte '@') authority with
  | none => .ok ([], none, input)
  | some ([], post) =>
    -- an empty user information before a delimiter leaves no host
    match post ++ tail with
    | c :: _ => if isAuthorityEnd c then .error .emptyHost else .ok ([], none, post ++ tail)
    | [] => .ok ([], none, [])
  | some (userinfo, post) =>
    let user := userinfo.takeWhile (· ≠ byte ':')
    let afterColon := (userinfo.dropWhile (· ≠ byte ':')).drop 1
    .ok (utf8PercentEncode user USERINFO,
      if afterColon = [] then none else some (utf8PercentEncode afterColon USERINFO), post ++ tail)

/-- The bytes of the host: up to a `:` outside brackets or the end of the
authority. -/
def scanHost : Bool → List UInt8 → List UInt8 × List UInt8
  | _, [] => ([], [])
  | insideBrackets, b :: rest =>
    if (b = byte ':' ∧ insideBrackets = false) ∨ isAuthorityEnd b then ([], b :: rest)
    else
      let inside := if b = byte '[' then true else if b = byte ']' then false else insideBrackets
      let (host, remaining) := scanHost inside rest
      (b :: host, remaining)

/-- `Parser::parse_port`, after the `:`: the digits up to a delimiter, at most
65535. No digit is no port. -/
def parsePort : Nat → Bool → List UInt8 → Except ParseError (Option UInt16 × List UInt8)
  | port, hasDigit, c :: rest =>
    if isAsciiDigit c then
      let port := 10 * port + (c.toNat - 0x30)
      if 65535 < port then .error .invalidPort else parsePort port true rest
    else if c = byte '/' ∨ c = byte '\\' ∨ c = byte '?' ∨ c = byte '#' then
      .ok (if hasDigit then some port.toUInt16 else none, c :: rest)
    else .error .invalidPort
  | port, hasDigit, [] => .ok (if hasDigit then some port.toUInt16 else none, [])

/-- `Parser::parse_host_and_port`. -/
def parseHostAndPort (input : List UInt8) : Except ParseError (Host × Option UInt16 × List UInt8) := do
  let (hostBytes, remaining) := scanHost false input
  let host ← Host.parseOpaque hostBytes
  match remaining with
  | c :: rest =>
    if c = byte ':' then
      -- a port with an empty host
      if host = .domain [] then throw .emptyHost
      else
        let (port, remaining) ← parsePort 0 false rest
        pure (host, port, remaining)
    else pure (host, none, c :: rest)
  | [] => pure (host, none, [])

/-- A `.` segment, or one of its escaped forms. -/
def isSingleDot (segment : List UInt8) : Bool :=
  segment = [byte '.'] || segment = [byte '%', byte '2', byte 'e'] || segment = [byte '%', byte '2', byte 'E']

/-- A `..` segment, or one of its escaped forms. -/
def isDoubleDot (segment : List UInt8) : Bool :=
  match segment with
  | [a, b] => isSingleDot [a] && isSingleDot [b]
  | [a, b, c, d] => (isSingleDot [a] && isSingleDot [b, c, d]) || (isSingleDot [a, b, c] && isSingleDot [d])
  | [a, b, c, d, e, f] => isSingleDot [a, b, c] && isSingleDot [d, e, f]
  | _ => false

/-- The end of a segment, by a `/` or not: `..` drops the segment before it,
`.` is nothing, and at the end of the path both leave an empty last segment. -/
def endSegment (path : List (List UInt8)) (buffer : List UInt8) (slash : Bool) : List (List UInt8) :=
  if isDoubleDot buffer then (if slash then path.dropLast else path.dropLast ++ [[]])
  else if isSingleDot buffer then (if slash then path else path ++ [[]])
  else path ++ [buffer]

/-- `Parser::parse_path`: the segments, each escaped with `PATH`; in the URL
parser a `?` or `#` ends the path. -/
def parsePath (context : Context) : List (List UInt8) → List UInt8 → List UInt8 → List (List UInt8) × List UInt8
  | path, buffer, [] => (endSegment path buffer false, [])
  | path, buffer, c :: rest =>
    if c = byte '/' then parsePath context (endSegment path buffer true) [] rest
    else if context = .urlParser ∧ (c = byte '?' ∨ c = byte '#') then (endSegment path buffer false, c :: rest)
    else parsePath context path (buffer ++ utf8PercentEncode [c] PATH) rest

/-- `Parser::parse_path_start` of a URL with a host: a path that starts with
`?` or `#` is no path, and a leading `/` is the first separator. -/
def parsePathStart (context : Context) (input : List UInt8) : List (List UInt8) × List UInt8 :=
  match input with
  | [] => ([], [])
  | c :: rest =>
    if c = byte '?' ∨ c = byte '#' then ([], c :: rest)
    else if c = byte '/' then parsePath context [] [] rest
    else parsePath context [] [] (c :: rest)

/-- The query, escaped with `QUERY`, and the fragment, escaped with
`FRAGMENT`, after the path. -/
def parseQueryAndFragment (input : List UInt8) : Option (List UInt8) × Option (List UInt8) :=
  match input with
  | c :: rest =>
    if c = byte '?' then
      let query := utf8PercentEncode (rest.takeWhile (· ≠ byte '#')) QUERY
      match rest.dropWhile (· ≠ byte '#') with
      | _ :: fragment => (some query, some (utf8PercentEncode fragment FRAGMENT))
      | [] => (some query, none)
    -- the path stops only at `?` or `#`
    else (none, some (utf8PercentEncode rest FRAGMENT))
  | [] => (none, none)

/-- `Url::parse` of `scheme ++ "://" ++ rest`, for a scheme that is not special. -/
def parse (scheme rest : List UInt8) : Except ParseError Url := do
  let (username, password, remaining) ← parseUserinfo (afterSchemeInput rest)
  let (host, port, remaining) ← parseHostAndPort remaining
  -- user information needs a host
  if host = .domain [] ∧ (username ≠ [] ∨ password.isSome) then throw .emptyHost
  else
    let (path, remaining) := parsePathStart .urlParser remaining
    let (query, fragment) := parseQueryAndFragment remaining
    pure ⟨scheme, username, password, host, port, path, query, fragment⟩

/-! ## A plain authority -/


/-- What the parser makes of a byte it holds as it is: no escape and no
delimiter. -/
structure Plain (b : UInt8) : Prop where
  userinfo : USERINFO.shouldPercentEncode b = false
  path : PATH.shouldPercentEncode b = false
  controls : CONTROLS.shouldPercentEncode b = false
  notForbidden : isForbiddenHostByte b = false
  notAuthorityEnd : isAuthorityEnd b = false
  visible : 0x20 < b
  notAt : b ≠ byte '@'
  notColon : b ≠ byte ':'
  notOpen : b ≠ byte '['
  notClose : b ≠ byte ']'
  notSlash : b ≠ byte '/'
  notPercent : b ≠ 0x25

set_option maxRecDepth 8000 in
theorem plain_table : ∀ n < 256, isUnreserved n.toUInt8 = true →
    USERINFO.shouldPercentEncode n.toUInt8 = false ∧ PATH.shouldPercentEncode n.toUInt8 = false ∧
      CONTROLS.shouldPercentEncode n.toUInt8 = false ∧ isForbiddenHostByte n.toUInt8 = false ∧
      isAuthorityEnd n.toUInt8 = false ∧ 0x20 < n.toUInt8 ∧ n.toUInt8 ≠ byte '@' ∧ n.toUInt8 ≠ byte ':' ∧
      n.toUInt8 ≠ byte '[' ∧ n.toUInt8 ≠ byte ']' ∧ n.toUInt8 ≠ byte '/' ∧ n.toUInt8 ≠ 0x25 := by
  decide

theorem Plain.of_isUnreserved {b : UInt8} (h : isUnreserved b = true) : Plain b := by
  have hb : b.toNat.toUInt8 = b := UInt8.ofNat_toNat
  have htable := plain_table b.toNat b.toNat_lt (by rw [hb]; exact h)
  rw [hb] at htable
  obtain ⟨h1, h2, h3, h4, h5, h6, h7, h8, h9, h10, h11, h12⟩ := htable
  exact ⟨h1, h2, h3, h4, h5, h6, h7, h8, h9, h10, h11, h12⟩

theorem Plain.lt_0x80 {b : UInt8} (h : Plain b) : b < 0x80 := by
  have hpath := h.path
  simp only [AsciiSet.shouldPercentEncode, Bool.or_eq_false_iff, decide_eq_false_iff_not] at hpath
  exact UInt8.not_le.mp hpath.1

theorem isTabOrNewline_of_visible {b : UInt8} (h : 0x20 < b) : isTabOrNewline b = false := by
  simp only [isTabOrNewline, Bool.or_eq_false_iff, beq_eq_false_iff_ne]
  refine ⟨⟨?_, ?_⟩, ?_⟩ <;> rintro rfl <;> exact absurd h (by decide)

theorem afterSchemeInput_of_visible {rest : List UInt8} (h : ∀ b ∈ rest, 0x20 < b) : afterSchemeInput rest = rest := by
  unfold afterSchemeInput
  -- the last byte is no control or space, so nothing is trimmed
  have hdrop : rest.reverse.dropWhile isC0ControlOrSpace = rest.reverse := by
    cases hr : rest.reverse with
    | nil => rfl
    | cons b bs =>
      have hb : 0x20 < b := h b (by rw [← List.mem_reverse, hr]; exact List.mem_cons_self)
      rw [List.dropWhile_cons_of_neg (by simpa [isC0ControlOrSpace] using hb)]
  rw [hdrop, List.reverse_reverse, List.filter_eq_self]
  intro b hb
  simp [isTabOrNewline_of_visible (h b hb)]

theorem splitAtLast_of_not_mem {sep : UInt8} : ∀ {l : List UInt8}, sep ∉ l → splitAtLast sep l = none
  | [], _ => rfl
  | b :: l, h => by
    rw [splitAtLast, splitAtLast_of_not_mem fun hl => h (List.mem_cons_of_mem b hl)]
    exact if_neg fun hb => by subst hb; exact h List.mem_cons_self

theorem splitAtLast_append {sep : UInt8} {post : List UInt8} (hpost : sep ∉ post) :
    ∀ pre : List UInt8, splitAtLast sep (pre ++ sep :: post) = some (pre, post)
  | [] => by rw [List.nil_append, splitAtLast, splitAtLast_of_not_mem hpost, if_pos rfl]
  | b :: pre => by simp only [List.cons_append, splitAtLast, splitAtLast_append hpost pre]

/-- A plain user, an `@`, and the rest of an authority with no other `@`. -/
theorem parseUserinfo_plain {user rest : List UInt8} (huser : ∀ b ∈ user, Plain b)
    (hrest : ∀ b ∈ rest, b ≠ byte '@' ∧ isAuthorityEnd b = false) (hne : rest ≠ []) :
    parseUserinfo (user ++ byte '@' :: rest) = .ok (user, none, rest) := by
  have hin : ∀ b ∈ user ++ byte '@' :: rest, (!isAuthorityEnd b) = true := by
    intro b hb
    rcases List.mem_append.mp hb with hb | hb
    · simp [(huser b hb).notAuthorityEnd]
    · rcases List.mem_cons.mp hb with rfl | hb
      · decide
      · simp [(hrest b hb).2]
  have hat : byte '@' ∉ rest := fun h => (hrest _ h).1 rfl
  rw [parseUserinfo, List.takeWhile_eq_self_iff.mpr hin, List.dropWhile_eq_nil_iff.mpr hin,
    splitAtLast_append hat user]
  cases user with
  | nil =>
    -- no user: the rest starts with a byte of the host
    obtain ⟨c, cs, rfl⟩ := List.exists_cons_of_ne_nil hne
    simp only [List.append_nil, (hrest c List.mem_cons_self).2]
    rfl
  | cons u us =>
    have hnocolon : ∀ b ∈ u :: us, decide (b ≠ byte ':') = true := fun b hb => by
      simpa using (huser b hb).notColon
    simp only [List.append_nil, List.takeWhile_eq_self_iff.mpr hnocolon, List.dropWhile_eq_nil_iff.mpr hnocolon,
      List.drop_nil, if_pos, utf8PercentEncode_of_forall fun b hb => (huser b hb).userinfo]

/-- A plain host is read up to what follows it. -/
theorem scanHost_append {host : List UInt8} (hhost : ∀ b ∈ host, Plain b) (rest : List UInt8) :
    scanHost false (host ++ rest) = (host ++ (scanHost false rest).1, (scanHost false rest).2) := by
  induction host with
  | nil => rfl
  | cons b host ih =>
    have hb := hhost b List.mem_cons_self
    have hstop : ¬((b = byte ':' ∧ false = false) ∨ isAuthorityEnd b = true) := by
      simp [hb.notColon, hb.notAuthorityEnd]
    rw [List.cons_append, scanHost, if_neg hstop, if_neg hb.notOpen, if_neg hb.notClose]
    simp only [ih fun x hx => hhost x (List.mem_cons_of_mem b hx), List.cons_append]

theorem scanHost_colon (rest : List UInt8) : scanHost false (byte ':' :: rest) = ([], byte ':' :: rest) := by
  rw [scanHost, if_pos (.inl ⟨rfl, rfl⟩)]

/-- A plain host is a domain, as it is. -/
theorem Host.parseOpaque_plain {host : List UInt8} (hhost : ∀ b ∈ host, Plain b) :
    Host.parseOpaque host = .ok (.domain host) := by
  have hhead : host.head? ≠ some (byte '[') := by
    cases host with
    | nil => simp
    | cons b _ => simpa using (hhost b List.mem_cons_self).notOpen
  have hany : host.any isForbiddenHostByte = false := by
    simpa using fun b hb => (hhost b hb).notForbidden
  rw [Host.parseOpaque, if_neg hhead, if_neg (by simp [hany]),
    utf8PercentEncode_of_forall fun b hb => (hhost b hb).controls]

/-- The digits `readDigits` reads below 65536 are the port. -/
theorem parsePort_of_readDigits : ∀ {bs : List UInt8} {acc v : Nat} (hasDigit : Bool),
    readDigits 65536 acc bs = some v →
      parsePort acc hasDigit bs = .ok (if hasDigit || bs ≠ [] then some v.toUInt16 else none, [])
  | [], acc, v, hasDigit, h => by
    cases h
    cases hasDigit <;> rfl
  | c :: rest, acc, v, hasDigit, h => by
    rw [readDigits] at h
    by_cases hc : isAsciiDigit c = true
    · rw [if_pos hc] at h
      by_cases hbound : 65536 ≤ 10 * acc + (c.toNat - 0x30)
      · rw [if_pos hbound] at h
        cases h
      · rw [if_neg hbound] at h
        rw [parsePort, if_pos hc, if_neg (by omega), parsePort_of_readDigits true h]
        simp
    · rw [if_neg hc] at h
      cases h

theorem parsePort_decimalBytes (port : UInt16) :
    parsePort 0 false (decimalBytes port.toNat) = .ok (some port, []) := by
  rw [parsePort_of_readDigits false (readDigits_decimalBytes port.toNat_lt)]
  simp [decimalBytes_ne_nil]

/-- A plain host and a port after it. -/
theorem parseHostAndPort_plain {host : List UInt8} (hhost : ∀ b ∈ host, Plain b) (hne : host ≠ [])
    (port : UInt16) :
    parseHostAndPort (host ++ byte ':' :: decimalBytes port.toNat) = .ok (.domain host, some port, []) := by
  have hhostNe : Host.domain host ≠ .domain [] := by simpa using hne
  rw [parseHostAndPort, scanHost_append hhost, scanHost_colon, List.append_nil]
  simp only [Host.parseOpaque_plain hhost, Except.ok_bind, if_pos, if_neg hhostNe, parsePort_decimalBytes]
  rfl

/-- **A plain authority is read back**: the user, the host and the port. -/
theorem parse_plain_authority (scheme : List UInt8) {user host : List UInt8} (huser : ∀ b ∈ user, Plain b)
    (hhost : ∀ b ∈ host, Plain b) (hne : host ≠ []) (port : UInt16) :
    parse scheme (user ++ byte '@' :: host ++ byte ':' :: decimalBytes port.toNat) =
      .ok ⟨scheme, user, none, .domain host, some port, [], none, none⟩ := by
  -- the port's digits are unreserved
  have hdigits : ∀ b ∈ decimalBytes port.toNat, Plain b := fun b hb =>
    Plain.of_isUnreserved (isUnreserved_of_isAsciiDigit (isAsciiDigit_of_mem_decimalBytes hb))
  have hrest : ∀ b ∈ host ++ byte ':' :: decimalBytes port.toNat, b ≠ byte '@' ∧ isAuthorityEnd b = false := by
    intro b hb
    rcases List.mem_append.mp hb with hb | hb
    · exact ⟨(hhost b hb).notAt, (hhost b hb).notAuthorityEnd⟩
    · rcases List.mem_cons.mp hb with rfl | hb
      · decide
      · exact ⟨(hdigits b hb).notAt, (hdigits b hb).notAuthorityEnd⟩
  have hvisible : ∀ b ∈ user ++ byte '@' :: (host ++ byte ':' :: decimalBytes port.toNat), 0x20 < b := by
    intro b hb
    rcases List.mem_append.mp hb with hb | hb
    · exact (huser b hb).visible
    rcases List.mem_cons.mp hb with rfl | hb
    · decide
    rcases List.mem_append.mp hb with hb | hb
    · exact (hhost b hb).visible
    rcases List.mem_cons.mp hb with rfl | hb
    · decide
    · exact (hdigits b hb).visible
  rw [List.append_assoc, List.cons_append, parse, afterSchemeInput_of_visible hvisible,
    parseUserinfo_plain huser hrest (by simp), Except.ok_bind]
  dsimp only
  rw [parseHostAndPort_plain hhost hne port, Except.ok_bind]
  dsimp only
  rw [if_neg (by simp [hne])]
  rfl

/-- **An IPv6 literal outside brackets has no host**: after a plain user and
its `@`, a `:` starts the port of an empty host, which the parser refuses. -/
theorem parse_colon_host (scheme : List UInt8) {user rest : List UInt8} (huser : ∀ b ∈ user, Plain b)
    (hrest : ∀ b ∈ rest, 0x20 < b ∧ b ≠ byte '@' ∧ isAuthorityEnd b = false) :
    parse scheme (user ++ byte '@' :: byte ':' :: rest) = .error .emptyHost := by
  have hafter : ∀ b ∈ byte ':' :: rest, b ≠ byte '@' ∧ isAuthorityEnd b = false := by
    intro b hb
    rcases List.mem_cons.mp hb with rfl | hb
    · decide
    · exact (hrest b hb).2
  have hvisible : ∀ b ∈ user ++ byte '@' :: byte ':' :: rest, 0x20 < b := by
    intro b hb
    rcases List.mem_append.mp hb with hb | hb
    · exact (huser b hb).visible
    rcases List.mem_cons.mp hb with rfl | hb
    · decide
    rcases List.mem_cons.mp hb with rfl | hb
    · decide
    · exact (hrest b hb).1
  -- the host before the `:` is empty
  simp only [parse, afterSchemeInput_of_visible hvisible, parseUserinfo_plain huser hafter (by simp),
    parseHostAndPort]
  rfl

/-! ## Accessors, setters and the serialization -/

/-- `Url::host_str`: none for an empty host. -/
def Url.hostStr (url : Url) : Option (List UInt8) :=
  if url.host = .domain [] then none else some url.host.serialize

/-- `Url::path`: each segment after a `/`. -/
def Url.pathStr (url : Url) : List UInt8 := url.path.flatMap (byte '/' :: ·)

/-- `Url::query_pairs`. -/
def Url.queryPairs (url : Url) : List (List UInt8 × List UInt8) := PercentEncoding.parse (url.query.getD [])

/-- `Url::set_password`: refused (`Err(())`) on an empty host; an empty
password removes it. -/
def Url.setPassword (url : Url) (password : Option (List UInt8)) : Option Url :=
  if url.host = .domain [] then none
  else match password.getD [] with
    | [] => some { url with password := none }
    | p => some { url with password := some (utf8PercentEncode p USERINFO) }

/-- `Url::set_path`: the path parsed as a setter parses it, query and
fragment kept. -/
def Url.setPath (url : Url) (path : List UInt8) : Url :=
  { url with path := (parsePathStart .setter (path.filter fun b => !isTabOrNewline b)).1 }

/-- `url.query_pairs_mut().append_pair(name, value)`. -/
def Url.appendPair (url : Url) (name value : List UInt8) : Url :=
  let pair := serializePair (name, value)
  { url with query := some (match url.query with
    | none => pair
    | some query => if query = [] then pair else query ++ byte '&' :: pair) }

/-- Appending to a query that holds something adds `&` and the pair. -/
theorem query_foldl_appendPair_of_ne {url : Url} {q : List UInt8} (hq : url.query = some q) (hne : q ≠ []) :
    ∀ pairs : List (List UInt8 × List UInt8),
      (pairs.foldl (fun url pair => url.appendPair pair.1 pair.2) url).query =
        some (q ++ pairs.flatMap fun pair => byte '&' :: serializePair pair) := by
  intro pairs
  induction pairs generalizing url q with
  | nil => simp [hq]
  | cons pair pairs ih =>
    have hq' : (url.appendPair pair.1 pair.2).query = some (q ++ byte '&' :: serializePair pair) := by
      simp [Url.appendPair, hq, hne]
    rw [List.foldl_cons, ih hq' (by simp), List.flatMap_cons, List.append_assoc, List.cons_append]

/-- **The pairs appended to a URL with no query are its query**, as
`serializePairs` writes them. -/
theorem query_foldl_appendPair {url : Url} (hq : url.query = none) (pair : List UInt8 × List UInt8)
    (pairs : List (List UInt8 × List UInt8)) :
    ((pair :: pairs).foldl (fun url pair => url.appendPair pair.1 pair.2) url).query =
      some (serializePairs (pair :: pairs)) := by
  -- the `&`s between the pairs are the intercalation's
  have hjoin : ∀ (pair : List UInt8 × List UInt8) (pairs : List (List UInt8 × List UInt8)),
      serializePair pair ++ pairs.flatMap (fun pair => byte '&' :: serializePair pair) =
        serializePairs (pair :: pairs) := by
    intro pair pairs
    induction pairs generalizing pair with
    | nil => simp [serializePairs]
    | cons next pairs ih =>
      rw [serializePairs, List.map_cons, List.map_cons, List.intercalate_cons_cons, ← List.map_cons, ← serializePairs,
        ← ih next, List.flatMap_cons, List.append_assoc]
      rfl
  have hfirst : (url.appendPair pair.1 pair.2).query = some (serializePair pair) := by simp [Url.appendPair, hq]
  rw [List.foldl_cons, query_foldl_appendPair_of_ne hfirst (serializePair_ne_nil pair), hjoin]

/-- Appending pairs changes the query and nothing else. -/
theorem foldl_appendPair_eq (url : Url) (pairs : List (List UInt8 × List UInt8)) :
    pairs.foldl (fun url pair => url.appendPair pair.1 pair.2) url =
      { url with query := (pairs.foldl (fun url pair => url.appendPair pair.1 pair.2) url).query } := by
  induction pairs generalizing url with
  | nil => rfl
  | cons pair pairs ih =>
    rw [List.foldl_cons, ih]
    rfl

/-- `Url::as_str`: the serialization. -/
def Url.serialize (url : Url) : List UInt8 :=
  let userinfo := match url.username, url.password with
    | [], none => []
    | username, none => username ++ [byte '@']
    | username, some password => username ++ byte ':' :: password ++ [byte '@']
  let port := match url.port with
    | some port => byte ':' :: decimalBytes port.toNat
    | none => []
  url.scheme ++ [byte ':', byte '/', byte '/'] ++ userinfo ++ url.host.serialize ++ port ++ url.pathStr ++
    (url.query.map (byte '?' :: ·)).getD [] ++ (url.fragment.map (byte '#' :: ·)).getD []

end UrlCrate
